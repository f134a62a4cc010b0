import NdBuffer.Proofs.Buffer.Copying
import NdBuffer.Proofs.Session.LentMemory

/-!
# Independent copies

A buffer can be made a copy of another one in three ways: by building a clone, by building a copy
for the host, and by duplicating into a buffer that there is already (`Session.Copies`). Whichever
it is, the copy has the elements of the source in memory of its own, and from then on nothing that
is done with one of the two is seen in the other (`Session.LeavesAlone`).
-/

namespace NdBuffer

theorem Buffer.Placed.reaches {b : Buffer} {m : Heap} (H : b.Placed m) (hd : b.device = .cpu) :
    b.Reaches b.capacity m := by
  intro hpos
  obtain ⟨a, ha⟩ := Option.isSome_iff_exists.mp (H.present hd hpos)
  exact ⟨a, ha, H.fits ha hd⟩

/-- What is read of a buffer depends on the bytes of its memory only. -/
theorem Buffer.contents_of_covers {b : Buffer} {m m' : Heap} (hn : b.size ≤ b.capacity)
    (hm : ∀ x, b.loan.Covers x → m'.byte x = m.byte x) :
    b.contents b.type m' = b.contents b.type m := by
  rw [contents, contents]
  cases ha : b.address? with
  | none => rfl
  | some a =>
    refine Heap.elements_congr fun x hblock hle hlt => hm x ⟨a, ha, hblock, hle, ?_⟩
    exact Nat.lt_of_lt_of_le hlt (Nat.add_le_add_left (Nat.mul_le_mul_right _ hn) _)

theorem Buffer.Apart.symm {b c : Buffer} (H : b.Apart c.loan) : c.Apart b.loan :=
  fun x hc hb => H x hb hc

namespace Session

variable {s : Session} {k i : Nat} {b c : Buffer} {cmd : Command} {place : Option Address}
  {v : Answer}

/-- Whether a command makes the buffer of slot `k` a copy of the buffer `b`, which is that of slot
`i`, and where the elements of the copy will be. Only a duplicate can use memory that there was
before. -/
inductive Copies (s : Session) (k i : Nat) (b : Buffer) : Command → Option Address → Prop
  | clone : Copies s k i b (.build k (.clone i)) (b.newPlace s.host.heap)
  | copyTo : Copies s k i b (.build k (.copyTo i .cpu)) (b.newPlace s.host.heap)
  | kept {d : Buffer} : s.buffer? k = some d → d.Accommodates b →
    Copies s k i b (.change k (.duplicate i)) d.address?
  | replaced {d : Buffer} : s.buffer? k = some d → ¬ d.Accommodates b →
    Copies s k i b (.change k (.duplicate i)) (b.newPlace s.host.heap)

/-- There is memory for all that a buffer of the host has room for. -/
theorem reaches_of_buffer? (H : s.Sound) (hb : s.buffer? i = some b) (hd : b.device = .cpu) :
    b.Reaches b.capacity s.host.heap :=
  let ⟨_, hi⟩ := buffer?_eq_some.mp hb
  (H.placed (.inl ⟨i, hi⟩)).reaches hd

theorem reaches_size_of_buffer? (H : s.Sound) (hb : s.buffer? i = some b) (hd : b.device = .cpu) :
    b.Reaches b.size s.host.heap :=
  (reaches_of_buffer? H hb hd).mono (valid_of_buffer? H hb).size_le

theorem Copies.targets (C : s.Copies k i b cmd place) : cmd.targets = [k] := by
  cases C <;> rfl

theorem Copies.exclusive (C : s.Copies k i b cmd place) : cmd.exclusive = [k] := by
  cases C <;> rfl

theorem Copies.not_writes (C : s.Copies k i b cmd place) (j : Nat) : ¬ cmd.Writes j := by
  rintro ⟨what, rfl, hw⟩
  cases C <;> cases hw

/-! ### The copy -/

/-- The buffer of a slot is a copy, it owns its memory, and of the blocks that there were before
only those are different that belonged to the slot. -/
structure Copied (s : Session) (k : Nat) (b : Buffer) (place : Option Address) (s' : Session)
    (c : Buffer) : Prop where
  buffer : s'.buffer? k = some c
  copyOf : c.CopyOf s'.host.heap b s.host.heap
  address : c.address? = place
  isOwner : c.isOwner = true
  blocks : ∀ {id}, ¬ s.Owns k id → id < s.host.heap.blocks.length →
    s'.host.heap.blocks[id]? = s.host.heap.blocks[id]?

theorem blocks_releaseSlot (H : s.Sound) {id : BlockId} (hid : ¬ s.Owns k id) (h : Host) :
    (s.releaseSlot k h).heap.blocks[id]? = h.heap.blocks[id]? := by
  rw [releaseSlot]
  cases hk : s.buffer? k with
  | none => rfl
  | some d =>
    simp only []
    cases ha : d.ownAddress? with
    | none => rw [Buffer.release_snd_of_not_owned ha]
    | some a =>
      obtain ⟨ho, ha⟩ := Buffer.ownAddress?_eq_some.mp ha
      obtain ⟨l, hk⟩ := buffer?_eq_some.mp hk
      refine Buffer.blocks_release_of_ne ho ha (fun heq => hid ?_) h
      exact (owns_iff H).mpr ⟨_, hk, _, Buffer.mem_holdings.mpr ⟨a, ho, ha, rfl⟩, heq⟩

theorem Owns.lt (H : s.Sound) {id : BlockId} (howns : s.Owns k id) :
    id < s.host.heap.blocks.length := by
  obtain ⟨b, hb, howner⟩ := howns
  obtain ⟨block, hblock, -⟩ := Owns.block H ⟨b, hb, howner⟩ hb
  exact (List.getElem?_eq_some_iff.mp hblock).1

/-- A new buffer that has been built as a copy is put into a slot. What the slot held goes, and the
copy does not lie there. -/
theorem copied_install {h : Host} (H : s.Sound) (B : Buffer.Built s.host (.ok c, h))
    (hcopy : c.CopyOf h.heap b s.host.heap) (hplace : c.address? = b.newPlace s.host.heap) :
    s.Copied k b (b.newPlace s.host.heap) (s.install k none (.ok c, h)).1 c where
  buffer := buffer?_put_self ..
  copyOf := by
    refine { hcopy with
      contents := (Buffer.contents_congr (fun a ha => ?_) _).trans hcopy.contents }
    have hnew := Buffer.block_of_newPlace (hplace.symm.trans ha)
    exact blocks_releaseSlot H (fun howns => absurd hnew (Nat.ne_of_lt (howns.lt H))) h
  address := hplace
  isOwner := B.isOwner
  blocks {id} hid hlt := by
    have hblock := List.getElem?_eq_getElem hlt
    exact (blocks_releaseSlot H hid h).trans ((B.frame hblock).trans hblock.symm)

/-- What belongs to a slot that lends nothing is not the memory of another slot. -/
theorem block_ne_of_other {sl : Slot} (H : s.Sound) (hk : s.slots.get? k = some sl)
    (hl : s.isLender k = false) (hb : s.buffer? i = some b) (hne : i ≠ k) {a : Address}
    (ha : b.address? = some a) : ∀ o ∈ sl.buffer.holdings, o.block ≠ a.block := by
  obtain ⟨l, hi⟩ := buffer?_eq_some.mp hb
  exact Tracked.block_ne_of_guarded (T := (· = k)) H hk hl rfl (.inr ⟨i, _, a, hne, hi, ha, rfl⟩)

theorem copied_of_build {how : Build} (H : s.Sound) (hb : s.buffer? i = some b)
    (hd : b.device = .cpu) (hhow : s.build k how = s.install k none (b.copyTo .cpu s.host))
    (hr : (s.step (.build k how)).2 = .answered (.ok v)) :
    ∃ c, s.Copied k b (b.newPlace s.host.heap) (s.step (.build k how)).1 c := by
  have hreach := reaches_size_of_buffer? H hb hd
  have hstep := build_of_answered hr
  rw [hstep, hhow] at hr ⊢
  rcases Buffer.copyTo_cases (valid_of_buffer? H hb) hd hreach with
    ⟨-, c, h, hcopied, hcopy, hplace, -⟩ | ⟨-, h, hno⟩
  · have B := b.built_copyTo .cpu s.host
    rw [hcopied] at B ⊢
    exact ⟨c, copied_install H B hcopy hplace⟩
  · rw [hno] at hr
    cases hr

theorem copied_of_duplicate {d : Buffer} (H : s.Sound) (hb : s.buffer? i = some b)
    (hd : b.device = .cpu) (hk : s.buffer? k = some d)
    (hr : (s.step (.change k (.duplicate i))).2 = .answered (.ok v)) :
    ∃ c, s.Copied k b c.address? (s.step (.change k (.duplicate i))).1 c ∧
      (d.Accommodates b → c.address? = d.address?) ∧
      (¬ d.Accommodates b → c.address? = b.newPlace s.host.heap) := by
  have hl : s.isLender k = false := not_frozen_of_answered hr k List.mem_cons_self
  obtain ⟨l, hk', hstep⟩ := exists_lender_of_answered hk hr
  rw [hstep] at hr ⊢
  cases ho : s.otherBuffer? k i with
  | none => simp [changeBuffer, ho, refuse] at hr
  | some o =>
    obtain ⟨rfl, hne⟩ := Tracked.eq_of_otherBuffer? hb ho
    simp only [changeBuffer, ho] at hr ⊢
    obtain ⟨u, hok⟩ := ok_of_conclude hr
    obtain ⟨hcopy, hkept, hreplaced⟩ := Buffer.duplicate_of_ok (valid_of_buffer? H hb) hd
      (reaches_size_of_buffer? H hb hd) (reaches_of_buffer? H hk)
      (fun _ => block_ne_of_other H hk' hl hb (Ne.symm hne)) hok
    refine ⟨(d.duplicate o s.host).buffer, ⟨buffer?_put_self .., hcopy, rfl,
      d.isOwner_duplicate o s.host, fun {id} hid hlt => ?_⟩, fun hacc => (hkept hacc).address,
      hreplaced⟩
    have hblock := List.getElem?_eq_getElem hlt
    refine ((d.moves_duplicate o s.host).frame hblock fun p hp heq => hid ?_).1.trans hblock.symm
    exact (owns_iff H).mpr ⟨_, hk', p, hp, heq⟩

theorem copied_of_answered (H : s.Sound) (hb : s.buffer? i = some b) (hd : b.device = .cpu)
    (C : s.Copies k i b cmd place) (hr : (s.step cmd).2 = .answered (.ok v)) :
    ∃ c, s.Copied k b place (s.step cmd).1 c := by
  cases C with
  | clone => exact copied_of_build H hb hd (by simp only [build, hb, Buffer.clone, hd]) hr
  | copyTo => exact copied_of_build H hb hd (by simp only [build, hb]) hr
  | kept hk hacc =>
    obtain ⟨c, hc, hkept, -⟩ := copied_of_duplicate H hb hd hk hr
    exact ⟨c, hkept hacc ▸ hc⟩
  | replaced hk hacc =>
    obtain ⟨c, hc, -, hreplaced⟩ := copied_of_duplicate H hb hd hk hr
    exact ⟨c, hreplaced hacc ▸ hc⟩

/-! ### Sharing nothing -/

/-- Whether no other slot has memory in a block, and no array is in it. -/
structure HasAlone (s : Session) (k : Nat) (id : BlockId) : Prop where
  slots : ∀ {j b a}, j ≠ k → s.buffer? j = some b → b.address? = some a → a.block ≠ id
  arrays : ∀ arr ∈ s.arrays, arr.block ≠ id

theorem hasAlone_of_isOwner (H : s.Sound) (hk : s.buffer? k = some c) (hl : s.isLender k = false)
    (ho : c.isOwner = true) {a : Address} (ha : c.address? = some a) : s.HasAlone k a.block := by
  obtain ⟨l, hget⟩ := buffer?_eq_some.mp hk
  have hmem : ⟨a.block, c.blockBytes⟩ ∈ c.holdings := Buffer.mem_holdings.mpr ⟨a, ho, ha, rfl⟩
  refine ⟨fun hj hb ha' => ?_, fun arr harr => ?_⟩
  · exact (block_ne_of_other H hget hl hb hj ha' _ hmem).symm
  · obtain ⟨block, hblock, hlayout, -⟩ := H.arrays arr harr
    exact (Tracked.block_ne_of_guarded (T := (· = k)) H hget hl rfl
      (.inl ⟨block, hblock, hlayout⟩) _ hmem).symm

/-- A slot whose buffer owns its memory has no lender. -/
theorem lender_eq_none {l : Option Nat} (H : s.Sound) (hk : s.slots.get? k = some ⟨c, l⟩)
    (ho : c.isOwner = true) : l = none := by
  have hsettled : Slot.settled ⟨c, l⟩ = ⟨c, l⟩ := H.settled hk
  have hcond : c.ownsMemory ∨ c.capacity = 0 := by
    cases ha : c.address? with
    | some a => exact .inl (by simp [Buffer.ownsMemory, ho, ha])
    | none => exact .inr ((H.valid (.inl ⟨k, hk⟩)).bare ho ha).1
  rw [Slot.settled, if_pos hcond] at hsettled
  exact (congrArg Slot.lender hsettled).symm

/-- The slot of a copy lends nothing. -/
theorem Copies.isLender (C : s.Copies k i b cmd place) (H : s.Sound)
    (hr : (s.step cmd).2 = .answered (.ok v)) (hc : (s.step cmd).1.buffer? k = some c)
    (ho : c.isOwner = true) : (s.step cmd).1.isLender k = false := by
  have hl : s.isLender k = false :=
    not_frozen_of_answered hr k (C.exclusive ▸ List.mem_singleton_self k)
  refine isLender_eq_false.mpr fun j sl hj => ?_
  by_cases hjk : j = k
  · subst hjk
    obtain ⟨l, hget⟩ := buffer?_eq_some.mp hc
    cases hget.symm.trans hj
    rw [lender_eq_none (sound_step H cmd) hget ho]
    exact (Option.some_ne_none j).symm
  · rw [get?_slots_step H (by rw [C.targets]; simpa using hjk)] at hj
    exact isLender_eq_false.mp hl j sl hj

/-- Whether nothing that is done with the buffer of slot `k` changes that of slot `i` or its
elements, until it is made to borrow memory of that one. -/
def LeavesAlone (s : Session) (k i : Nat) : Prop :=
  ∀ b, s.buffer? i = some b → ∀ y, Tracked.Run (Tracked.Detached (some i) b.loan) ⟨s, k⟩ y →
    y.session.buffer? i = some b ∧ b.contents b.type y.heap = b.contents b.type s.host.heap

theorem leavesAlone_of_apart (H : s.Sound) (hi : s.buffer? i = some b)
    (hx : ∀ c, s.buffer? k = some c → c.Apart b.loan) : s.LeavesAlone k i := by
  intro b' hi' y R
  obtain rfl : b = b' := Option.some.inj (hi.symm.trans hi')
  have K : Tracked.Kept s (some i) s := ⟨H, rfl, fun _ _ => rfl⟩
  have hslot := (K.run (x := ⟨s, k⟩) (fun _ _ h => h.1) R).lender i rfl
  refine ⟨by rw [buffer?, hslot]; exact hi, ?_⟩
  refine Buffer.contents_of_covers (valid_of_buffer? H hi).size_le fun z hz => ?_
  exact K.byte_run (x := ⟨s, k⟩) ⟨b, hi, rfl⟩ hx R hz

/-- Memory that a slot has alone is apart from that of the other slots. -/
theorem HasAlone.apart (hc : ∀ a, c.address? = some a → s.HasAlone k a.block) (hne : i ≠ k)
    (hi : s.buffer? i = some b) : c.Apart b.loan := by
  rintro x ⟨a, ha, hx, -⟩ ⟨a', ha', hx', -⟩
  exact (hc a ha).slots hne hi ha' (hx'.symm.trans hx)

/-! ### All of it -/

/-- Copies are independent. Whichever command has made the copy, it has the type, the shape and the
elements of the source, it lies where it should, and what memory it has it owns alone. No other
memory has changed, and so neither has the source. And from then on nothing that is done with one of
the two changes the other. -/
theorem copies_run (system : Allocator) (arrays : List ((t : ElemType) × List (Elem t)))
    (cs : List Command) {k i : Nat}
    {b : Buffer} {cmd : Command} {place : Option Address} {v : Answer}
    (hb : ((Session.start system arrays).run cs).buffer? i = some b) (hd : b.device = .cpu)
    (C : ((Session.start system arrays).run cs).Copies k i b cmd place)
    (hr : (((Session.start system arrays).run cs).step cmd).2 = .answered (.ok v)) :
    let s := (Session.start system arrays).run cs
    let s' := (s.step cmd).1
    ∃ c, s'.buffer? k = some c ∧ c.CopyOf s'.host.heap b s.host.heap ∧ c.address? = place ∧
      (0 < b.size → c.ownsMemory = true) ∧
      (∀ a, c.address? = some a → s'.HasAlone k a.block) ∧
      (∀ id, ¬ s.Owns k id → id < s.host.heap.blocks.length →
        s'.host.heap.blocks[id]? = s.host.heap.blocks[id]?) ∧
      (i ≠ k → s'.buffer? i = some b ∧ (∀ t, b.contents t s'.host.heap = b.contents t s.host.heap) ∧
        s'.LeavesAlone k i ∧ s'.LeavesAlone i k) := by
  intro s s'
  have H : s.Sound := sound_run system arrays cs
  have H' : s'.Sound := sound_step H cmd
  obtain ⟨c, hcopied⟩ := copied_of_answered H hb hd C hr
  have hlender := C.isLender H hr hcopied.buffer hcopied.isOwner
  have halone (a : Address) (ha : c.address? = some a) : s'.HasAlone k a.block :=
    hasAlone_of_isOwner H' hcopied.buffer hlender hcopied.isOwner ha
  refine ⟨c, hcopied.buffer, hcopied.copyOf, hcopied.address, fun hpos => ?_, halone,
    fun id => hcopied.blocks, fun hne => ?_⟩
  · have hsize : c.size ≤ c.capacity := (valid_of_buffer? H' hcopied.buffer).size_le
    have hreach := reaches_of_buffer? H' hcopied.buffer hcopied.copyOf.device
    obtain ⟨a, ha, -⟩ := hreach (by rw [hcopied.copyOf.size] at hsize; omega)
    simp [Buffer.ownsMemory, hcopied.isOwner, ha]
  · have htarget : i ∉ cmd.targets := by rw [C.targets]; simpa using hne
    have hslot : s'.slots.get? i = s.slots.get? i := get?_slots_step H htarget
    have hb' : s'.buffer? i = some b := by rw [buffer?, hslot]; exact hb
    have hapart : c.Apart b.loan := HasAlone.apart halone hne hb'
    refine ⟨hb', fun t => ?_, leavesAlone_of_apart H' hb' fun c' hc' => ?_,
      leavesAlone_of_apart H' hcopied.buffer fun b₁ hb₁ => ?_⟩
    · obtain ⟨l, hi⟩ := buffer?_eq_some.mp hb
      refine Buffer.contents_congr (fun a ha => ?_) t
      exact blocks_step H (.inr ⟨i, _, a, fun ht => htarget ht.1, hi, ha, rfl⟩)
        fun hw => absurd hw (C.not_writes _)
    · obtain rfl : c = c' := Option.some.inj (hcopied.buffer.symm.trans hc')
      exact hapart
    · obtain rfl : b = b₁ := Option.some.inj (hb'.symm.trans hb₁)
      exact hapart.symm

/-- A clone of two bytes lies in a block of its own. -/
theorem copies_run_clone :
    let s := (Session.start (.below 4096) []).run
      [.build 0 (.ofValues ⟨[2]⟩ (t := .u8) [1, 2] .cpu)]
    let s' := (s.step (.build 1 (.clone 0))).1
    ∃ b, s.buffer? 0 = some b ∧ b.device = .cpu ∧
      s.Copies 1 0 b (.build 1 (.clone 0)) (some ⟨1, 0⟩) ∧
      (s.step (.build 1 (.clone 0))).2 = .answered (.ok .nothing) ∧
      ∃ c, s'.buffer? 1 = some c ∧ c.CopyOf s'.host.heap b s.host.heap ∧
        c.address? = some ⟨1, 0⟩ ∧ s'.LeavesAlone 1 0 ∧ s'.LeavesAlone 0 1 := by
  intro s s'
  have C (b : Buffer) : s.Copies 1 0 b (.build 1 (.clone 0)) (b.newPlace s.host.heap) := .clone
  obtain ⟨c, hc, hcopy, ha, -, -, -, hother⟩ := copies_run (.below 4096) []
    [.build 0 (.ofValues ⟨[2]⟩ (t := .u8) [1, 2] .cpu)] rfl rfl (C _) rfl
  obtain ⟨-, -, hleft, hright⟩ := hother (by decide)
  exact ⟨_, rfl, rfl, .clone, rfl, c, hc, hcopy, ha, hleft, hright⟩

end Session

end NdBuffer
