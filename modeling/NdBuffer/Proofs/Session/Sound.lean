import NdBuffer.Proofs.Session.Bench

/-!
# The invariant of sessions

`Bench.Sound` gathers what holds of the buffers in slots and in hand at every moment: each of them
is valid, together they account for host memory, the memory of each lies where it should (`Placed`),
and the memory of a borrower is traced through its lenders to an owner in a slot or to an array of
the host (`Traced`). The last part is what keeps borrowed memory alive: a lender is not taken out of
its slot, so the owner at the end of the trace is still there. Every primitive step keeps the
invariant (`Move.sound`).
-/

namespace NdBuffer

/-- Whether a block is an array of the caller. -/
def Heap.IsArray (h : Heap) (id : BlockId) : Prop :=
  ∃ b, h.blocks[id]? = some b ∧ b.layout = none

/-- The memory of a slot is found by going from borrower to lender until it is an array or belongs
to the buffer. -/
inductive Traced (h : Heap) (t : Table Slot) : Slot → BlockId → Prop
  | array {sl : Slot} {a : Address} : sl.buffer.address? = some a → h.IsArray a.block →
    Traced h t sl a.block
  | owned {sl : Slot} {a : Address} : sl.buffer.address? = some a → sl.buffer.isOwner = true →
    Traced h t sl a.block
  | lent {sl sl' : Slot} {a : Address} {k : Nat} : sl.buffer.address? = some a →
    sl.lender = some k → t.get? k = some sl' → Traced h t sl' a.block → Traced h t sl a.block

/-- The memory of a buffer lies in a block that is large enough. Memory on another device than the
host is never touched, and nothing is asked of it. -/
structure Buffer.Placed (b : Buffer) (h : Heap) : Prop where
  present : b.device = .cpu → 0 < b.capacity → b.address?.isSome = true
  hollow : ∀ {a}, b.address? = some a → b.capacity = 0 → h.IsArray a.block
  fits : ∀ {a}, b.address? = some a → b.device = .cpu →
    a.offset + b.capacity * b.type.width ≤ h.size a.block

/-- What holds of the buffers of a session at every moment. -/
structure Bench.Sound (arrays : List HostArray) (x : Bench) : Prop where
  valid : ∀ {sl}, x.Has sl → sl.buffer.Valid
  ledger : x.host.Ledger x.holdings
  traced : ∀ {sl a}, x.Has sl → sl.buffer.address? = some a →
    Traced x.host.heap x.slots sl a.block
  placed : ∀ {sl}, x.Has sl → sl.buffer.Placed x.host.heap
  settled : ∀ {k sl}, x.slots.get? k = some sl → sl.settled = sl
  arrays : ∀ arr ∈ arrays, ∃ b, x.host.heap.blocks[arr.block]? = some b ∧ b.layout = none ∧
    b.bytes.size = arr.length * arr.type.width

/-- Heaps in which nothing but the bytes of a block may differ. -/
def Heap.AlikeAt (h h' : Heap) (m : BlockId) : Prop :=
  ∀ b, h.blocks[m]? = some b → ∃ c, h'.blocks[m]? = some c ∧ b.Alike c

section
variable {h h' : Heap} {t t' : Table Slot} {sl sl' : Slot} {m : BlockId} {b : Buffer}

theorem Heap.AlikeAt.isArray (H : h.AlikeAt h' m) (hm : h.IsArray m) : h'.IsArray m := by
  obtain ⟨b, hb, hl⟩ := hm
  obtain ⟨c, hc, hbc⟩ := H b hb
  exact ⟨c, hc, hbc.layout.trans hl⟩

theorem Heap.AlikeAt.size (H : h.AlikeAt h' m) (hm : 0 < h.size m) : h'.size m = h.size m := by
  unfold Heap.size at *
  cases hb : h.blocks[m]? with
  | none => simp [hb] at hm
  | some b =>
    obtain ⟨c, hc, hbc⟩ := H b hb
    simp [hc, hbc.size]

theorem Heap.AlikeAt.of_eq (heq : h'.blocks[m]? = h.blocks[m]?) : h.AlikeAt h' m :=
  fun b hb => ⟨b, heq.trans hb, .rfl⟩

theorem Traced.address (T : Traced h t sl m) : ∃ a, sl.buffer.address? = some a ∧ a.block = m := by
  cases T with
  | array ha _ | owned ha _ | lent ha _ _ _ => exact ⟨_, ha, rfl⟩

/-- At the end of a trace there is an array or an owner of the block. -/
theorem Traced.origin (T : Traced h t sl m) :
    h.IsArray m ∨ ∃ sl', (sl' = sl ∨ ∃ k, t.get? k = some sl') ∧
      ∃ o ∈ sl'.buffer.holdings, o.block = m := by
  induction T with
  | array _ hm => exact .inl hm
  | @owned sl a ha ho =>
    exact .inr ⟨sl, .inl rfl, ⟨_, Buffer.mem_holdings.mpr ⟨a, ho, ha, rfl⟩, rfl⟩⟩
  | lent _ _ hk _ ih =>
    rcases ih with hm | ⟨sl', hsl', o⟩
    · exact .inl hm
    · refine .inr ⟨sl', .inr ?_, o⟩
      rcases hsl' with rfl | hsl'
      · exact ⟨_, hk⟩
      · exact hsl'

/-- Slots that lend and borrow alike. -/
structure SameTrace (sl sl' : Slot) : Prop where
  lender : sl'.lender = sl.lender
  address : sl'.buffer.address? = sl.buffer.address?
  isOwner : sl'.buffer.isOwner = sl.buffer.isOwner

theorem SameTrace.rfl : SameTrace sl sl := ⟨.refl _, .refl _, .refl _⟩

/-- A trace goes on to exist as long as arrays stay arrays and lenders stay in their slots. -/
theorem Traced.transfer (hm : ∀ m, h.IsArray m → h'.IsArray m)
    (ht : ∀ {k sl}, t.get? k = some sl → (∃ j sl', t.get? j = some sl' ∧ sl'.lender = some k) →
      ∃ sl', t'.get? k = some sl' ∧ SameTrace sl sl')
    (hsl : ∀ {k sl₁}, sl.lender = some k → t.get? k = some sl₁ →
      ∃ sl₂, t'.get? k = some sl₂ ∧ SameTrace sl₁ sl₂)
    (hs : SameTrace sl sl') (T : Traced h t sl m) : Traced h' t' sl' m := by
  induction T generalizing sl' with
  | array ha hm' => exact .array (hs.address.trans ha) (hm _ hm')
  | owned ha ho => exact .owned (hs.address.trans ha) (hs.isOwner.trans ho)
  | @lent sl sl₁ a k ha hl hk _ ih =>
    obtain ⟨sl₂, hk', hs'⟩ := hsl hl hk
    exact .lent (hs.address.trans ha) (hs.lender.trans hl) hk'
      (ih (fun hl' hk'' => ht hk'' ⟨k, sl₁, hk, hl'⟩) hs')

/-- Settling takes the lender away only from a slot whose memory is traced without it. -/
theorem Traced.settled (T : Traced h t sl m) (hp : sl.buffer.Placed h) :
    Traced h t sl.settled m := by
  obtain ⟨a, ha, rfl⟩ := T.address
  by_cases hs : sl.buffer.ownsMemory ∨ sl.buffer.capacity = 0
  · have ha' : sl.settled.buffer.address? = some a := by simpa using ha
    rcases hs with ho | hn
    · have ho : sl.buffer.isOwner = true := (Bool.and_eq_true _ _ ▸ ho).1
      exact .owned ha' (by simpa using ho)
    · exact .array ha' (hp.hollow ha hn)
  · rwa [show sl.settled = sl from if_neg hs]

theorem Buffer.Placed.alike (H : b.Placed h)
    (hm : ∀ {a}, b.address? = some a → h.AlikeAt h' a.block) : b.Placed h' where
  present := H.present
  hollow ha hn := (hm ha).isArray (H.hollow ha hn)
  fits {a} ha hd := by
    have hfits := H.fits ha hd
    by_cases hsize : 0 < h.size a.block
    · rwa [(hm ha).size hsize]
    · omega

theorem Buffer.Placed.of_samePlace {c : Buffer} (H : b.Placed h) (hc : b.SamePlace c) :
    c.Placed h where
  present hd hn := by
    rw [hc.address]
    exact H.present (hc.device.symm.trans hd) (hc.capacity ▸ hn)
  hollow ha hn := H.hollow (hc.address.symm.trans ha) (hc.capacity.symm.trans hn)
  fits ha hd := by
    rw [hc.capacity, hc.type]
    exact H.fits (hc.address.symm.trans ha) (hc.device.symm.trans hd)

theorem Buffer.placed_of_address?_eq_none (ha : b.address? = none) (hn : b.capacity = 0) :
    b.Placed h where
  present _ hpos := by omega
  hollow h := by simp [ha] at h
  fits h := by simp [ha] at h

/-- The block of an owner is as large as the owner has recorded. -/
theorem Buffer.placed_of_isOwner {h : Host} {held : List Holding} (hv : b.Valid)
    (hb : b.isOwner = true) (H : h.Ledger held) (hheld : ∀ o ∈ b.holdings, o ∈ held) :
    b.Placed h.heap := by
  cases ha : b.address? with
  | none => exact placed_of_address?_eq_none ha (hv.bare hb ha).1
  | some a =>
    obtain ⟨-, hn, hzero, hbytes⟩ := hv.owned hb ha
    obtain ⟨c, hc, -, -, hsize⟩ := H.outstanding _ (hheld _ (mem_holdings.mpr ⟨a, hb, ha, rfl⟩))
    refine ⟨fun _ _ => by simp [ha], fun _ h0 => by omega, fun {a'} ha' _ => ?_⟩
    obtain rfl : a = a' := Option.some.inj (ha.symm.trans ha')
    have hle := (isLeast_of_byteSize? hbytes).1.2
    have hc : h.heap.blocks[a.block]? = some c := hc
    simp only [Heap.size, hc, Option.map_some, Option.getD_some, hsize, hzero]
    omega

end

namespace Bench

variable {arrays : List HostArray} {touched edited : Nat → Prop} {x y : Bench} {h h' : Host}
  {t : Table Slot} {hand : List Slot} {sl sl' : Slot} {k : Nat} {m : BlockId}

namespace Sound

/-- Nobody has to return an array. -/
theorem block_ne_of_isArray (H : Sound arrays x) (hm : x.host.heap.IsArray m) {o : Holding}
    (ho : o ∈ x.holdings) : o.block ≠ m := by
  rintro rfl
  obtain ⟨b, hb, hl⟩ := hm
  obtain ⟨c, hc, hl', -⟩ := H.ledger.outstanding o ho
  cases hb.symm.trans hc
  cases hl.symm.trans hl'

/-- The memory of a buffer has not been returned, whether it is owned or borrowed. -/
theorem exists_block (H : Sound arrays x) (hs : x.Has sl) {a : Address}
    (ha : sl.buffer.address? = some a) :
    ∃ block, x.host.heap.blocks[a.block]? = some block ∧ block.returned = [] := by
  rcases (H.traced hs ha).origin with ⟨block, hblock, hl⟩ | ⟨sl', hsl', o, ho, hblock⟩
  · exact ⟨block, hblock, (H.ledger.accounted block (List.mem_of_getElem? hblock)).array hl⟩
  · have hhas : x.Has sl' := by
      rcases hsl' with rfl | hsl'
      · exact hs
      · exact .inl hsl'
    obtain ⟨block, hb, -, hr, -⟩ := H.ledger.outstanding o (mem_holdings hhas ho)
    exact ⟨block, hblock ▸ hb, hr⟩

/-- The memory of another buffer does not belong to the one in hand. -/
theorem block_ne_of_hand (H : Sound arrays ⟨h, t, sl :: hand⟩) (hs : Has ⟨h, t, hand⟩ sl')
    {a : Address} (ha : sl'.buffer.address? = some a) {o : Holding}
    (ho : o ∈ sl.buffer.holdings) : o.block ≠ a.block := by
  rcases (H.traced (has_cons.mpr (.inr hs)) ha).origin with hm | ⟨sl₀, hsl₀, p, hp, hpa⟩
  · exact H.block_ne_of_isArray hm (mem_holdings (has_cons.mpr (.inl rfl)) ho)
  · have hhas : Has ⟨h, t, hand⟩ sl₀ := by
      rcases hsl₀ with rfl | hsl₀
      · exact hs
      · exact .inl hsl₀
    have hdistinct := (H.ledger.perm perm_holdings_cons).distinct
    rw [List.map_append] at hdistinct
    rintro heq
    exact (List.nodup_append.mp hdistinct).2.2 _ (List.mem_map_of_mem ho) _
      (List.mem_map_of_mem (mem_holdings hhas hp)) (heq.trans hpa.symm)

/-- Another buffer is taken in hand that has nothing to return. -/
theorem takeUp (H : Sound arrays ⟨h, t, hand⟩) (hv : sl.buffer.Valid)
    (ho : sl.buffer.ownAddress? = none)
    (ht : ∀ {a}, sl.buffer.address? = some a → Traced h.heap t sl a.block)
    (hp : sl.buffer.Placed h.heap) : Sound arrays ⟨h, t, sl :: hand⟩ where
  valid hs := by
    rcases has_cons.mp hs with rfl | hs
    · exact hv
    · exact H.valid hs
  ledger := by
    refine Host.Ledger.perm ?_ perm_holdings_cons.symm
    simpa [Buffer.holdings, ho] using H.ledger
  traced hs ha := by
    rcases has_cons.mp hs with rfl | hs
    · exact ht ha
    · exact H.traced hs ha
  placed hs := by
    rcases has_cons.mp hs with rfl | hs
    · exact hp
    · exact H.placed hs
  settled := H.settled
  arrays := H.arrays

theorem discard (H : Sound arrays ⟨h, t, sl :: hand⟩) (ho : sl.buffer.ownAddress? = none) :
    Sound arrays ⟨h, t, hand⟩ where
  valid hs := H.valid (has_cons.mpr (.inr hs))
  ledger := by
    have hledger := H.ledger.perm perm_holdings_cons
    simpa [Buffer.holdings, ho] using hledger
  traced hs ha := H.traced (has_cons.mpr (.inr hs)) ha
  placed hs := H.placed (has_cons.mpr (.inr hs))
  settled := H.settled
  arrays := H.arrays

/-- The host changes in nothing but bytes and events. -/
theorem alike (H : Sound arrays ⟨h, t, hand⟩) (hm : ∀ m, h.heap.AlikeAt h'.heap m)
    (hl : h'.Ledger (Bench.mk h' t hand).holdings) : Sound arrays ⟨h', t, hand⟩ where
  valid := H.valid
  ledger := hl
  traced hs ha := (H.traced hs ha).transfer (fun m => (hm m).isArray)
    (fun hk _ => ⟨_, hk, .rfl⟩) (fun _ hk => ⟨_, hk, .rfl⟩) .rfl
  placed hs := (H.placed hs).alike fun _ => hm _
  settled := H.settled
  arrays arr harr := by
    obtain ⟨b, hb, hl, hs⟩ := H.arrays arr harr
    obtain ⟨c, hc, hbc⟩ := hm _ b hb
    exact ⟨c, hc, hbc.layout.trans hl, hbc.size.trans hs⟩

theorem log (H : Sound arrays ⟨h, t, hand⟩) {e : Event} (he : e.isRemark = true) :
    Sound arrays ⟨h.record e, t, hand⟩ :=
  H.alike (fun _ => .of_eq rfl) (H.ledger.record (Event.ne_leaking_of_isRemark he))

theorem edit (H : Sound arrays ⟨h, t, hand⟩) {a? : Option Address} (E : Host.Edit a? h h') :
    Sound arrays ⟨h', t, hand⟩ := by
  refine H.alike (fun m => ?_) (E.ledger H.ledger)
  cases E with
  | log _ => exact .of_eq rfl
  | write k bytes _ => exact fun b hb => h.heap.exists_alike_write _ bytes hb

theorem turn (H : Sound arrays ⟨h, t, sl :: sl' :: hand⟩) :
    Sound arrays ⟨h, t, sl' :: sl :: hand⟩ := by
  have hiff {sl₀ : Slot} :
      Has ⟨h, t, sl' :: sl :: hand⟩ sl₀ → Has ⟨h, t, sl :: sl' :: hand⟩ sl₀ := by
    simp only [has_cons]
    tauto
  refine ⟨fun hs => H.valid (hiff hs), H.ledger.perm ?_, fun hs => H.traced (hiff hs),
    fun hs => H.placed (hiff hs), H.settled, H.arrays⟩
  exact perm_gather_turn Buffer.holdings

theorem lend (H : Sound arrays ⟨h, t, sl :: hand⟩) (ho : sl.buffer.ownAddress? = none)
    (hk : t.get? k = some sl') : Sound arrays ⟨h, t, ⟨sl'.buffer.lent, some k⟩ :: hand⟩ := by
  have hs : Has ⟨h, t, hand⟩ sl' := .inl ⟨k, hk⟩
  have H := H.discard ho
  have hp := H.placed hs
  refine H.takeUp ((H.valid hs).borrow sl'.buffer h) rfl (fun ha => ?_)
    ⟨hp.present, hp.hollow, hp.fits⟩
  exact .lent ha rfl hk (H.traced hs ha)

theorem borrowAt (H : Sound arrays ⟨h, t, sl :: hand⟩) (ho : sl.buffer.ownAddress? = none)
    {type : ElemType} {device : Device} {s : Shape} {n : Nat} {lender : Option Nat}
    {address : Option Address} (hs : s.count? = some n)
    (hl : Lies arrays t type device n lender address) :
    Sound arrays ⟨h, t, ⟨.borrower type device address s, lender⟩ :: hand⟩ := by
  have hn : (Buffer.borrower type device address s).capacity = n := Shape.count_eq hs
  have H := H.discard ho
  have hv : (Buffer.borrower type device address s).Valid := Buffer.valid_borrower hs
  cases hl with
  | nowhere hzero =>
    refine H.takeUp hv rfl nofun ⟨fun hd hpos => ?_, nofun, nofun⟩
    exact absurd (hn ▸ hzero hd) (Nat.ne_of_gt hpos)
  | @array _ a arr harr hblock hle =>
    obtain ⟨c, hc, hl, hsize⟩ := H.arrays arr harr
    have hc : h.heap.blocks[a.block]? = some c := hblock ▸ hc
    have harray : h.heap.IsArray a.block := ⟨c, hc, hl⟩
    refine H.takeUp hv rfl (fun ha => ?_) ⟨fun _ _ => rfl, fun ha _ => ?_, fun ha hd => ?_⟩
    · exact .array ha (Option.some.inj ha ▸ harray)
    · exact Option.some.inj ha ▸ harray
    · cases ha
      have hfits : a.offset + n * type.width ≤ h.heap.size a.block := by
        simpa [Heap.size, hc, hsize] using hle hd
      rwa [hn]
  | @lent k a a' lending hk ha' hblock hpos hle =>
    have hlending : Has ⟨h, t, hand⟩ lending := .inl ⟨k, hk⟩
    refine H.takeUp hv rfl (fun ha => ?_) ⟨fun _ _ => rfl, fun _ hzero => ?_, fun ha hd => ?_⟩
    · cases ha
      exact .lent rfl rfl hk (hblock ▸ H.traced hlending ha')
    · exact absurd (hn.symm.trans hzero) (Nat.ne_of_gt hpos)
    · cases ha
      obtain ⟨hd', hle⟩ := hle hd
      rw [hn, hblock]
      exact Nat.le_trans hle ((H.placed hlending).fits ha' hd')

/-- The buffer in hand makes a move. Blocks that it does not own are left alone, and the memory of
the other buffers is in such blocks. -/
theorem act {b b' : Buffer} {lender : Option Nat} (H : Sound arrays ⟨h, t, ⟨b, lender⟩ :: hand⟩)
    (M : Buffer.Move (b, h) (b', h')) : Sound arrays ⟨h', t, ⟨b', lender⟩ :: hand⟩ := by
  have hself : Has ⟨h, t, ⟨b, lender⟩ :: hand⟩ ⟨b, lender⟩ := has_cons.mpr (.inl rfl)
  have hv := H.valid hself
  have hledger : h'.Ledger (Bench.mk h' t (⟨b', lender⟩ :: hand)).holdings := by
    have hbefore : h.Ledger (b.holdings ++ (Bench.mk h' t hand).holdings) :=
      H.ledger.perm perm_holdings_cons
    have hafter : h'.Ledger (b'.holdings ++ (Bench.mk h' t hand).holdings) := M.ledger hv hbefore
    have hperm : (Bench.mk h' t (⟨b', lender⟩ :: hand)).holdings.Perm
        (b'.holdings ++ (Bench.mk h' t hand).holdings) := perm_holdings_cons
    exact hafter.perm hperm.symm
  have hframe {m : BlockId} (hm : ∀ o ∈ b.holdings, o.block ≠ m) : h.heap.AlikeAt h'.heap m :=
    fun c hc => ⟨c, (M.frame hc hm).1, .rfl⟩
  have harray {m : BlockId} (hm : h.heap.IsArray m) : h.heap.AlikeAt h'.heap m :=
    hframe fun o ho => H.block_ne_of_isArray hm (mem_holdings hself ho)
  have htrace {sl sl' : Slot} {m : BlockId} (hs : SameTrace sl sl') (T : Traced h.heap t sl m) :
      Traced h'.heap t sl' m :=
    T.transfer (fun m hm => (harray hm).isArray hm) (fun hk _ => ⟨_, hk, .rfl⟩)
      (fun _ hk => ⟨_, hk, .rfl⟩) hs
  refine ⟨fun hs => ?_, hledger, fun hs ha => ?_, fun hs => ?_, H.settled, fun arr harr => ?_⟩
  · rcases has_cons.mp hs with rfl | hs
    · exact M.valid hv
    · exact H.valid (has_cons.mpr (.inr hs))
  · rcases has_cons.mp hs with rfl | hs
    · rcases M.place with hplace | ho
      · have hs : SameTrace ⟨b, lender⟩ ⟨b', lender⟩ := ⟨rfl, hplace.address, hplace.isOwner⟩
        exact htrace hs (H.traced hself (hplace.address.symm.trans ha))
      · exact .owned ha ho
    · exact htrace .rfl (H.traced (has_cons.mpr (.inr hs)) ha)
  · rcases has_cons.mp hs with rfl | hs
    · cases ho : b'.isOwner with
      | true =>
        exact Buffer.placed_of_isOwner (M.valid hv) ho hledger
          fun o => mem_holdings (has_cons.mpr (.inl rfl))
      | false =>
        rcases M.place with hplace | ho'
        · have hborrowed : b.isOwner = false := hplace.isOwner.symm.trans ho
          have hnone : b.holdings = [] := by
            simp [Buffer.holdings, Buffer.ownAddress?, hborrowed]
          have hp : b.Placed h'.heap :=
            (H.placed hself).alike fun _ => hframe (by simp [hnone])
          exact hp.of_samePlace hplace
        · cases ho.symm.trans ho'
    · exact (H.placed (has_cons.mpr (.inr hs))).alike fun ha =>
        hframe fun o ho => H.block_ne_of_hand hs ha ho
  · obtain ⟨c, hc, hl, hsize⟩ := H.arrays arr harr
    obtain ⟨c', hc', hcc⟩ := harray ⟨c, hc, hl⟩ c hc
    exact ⟨c', hc', hcc.layout.trans hl, hcc.size.trans hsize⟩

/-- A buffer is taken out of a slot from which nothing is borrowed. -/
theorem pickUp (H : Sound arrays ⟨h, t, hand⟩) (hk : t.get? k = some sl)
    (hfree : Free ⟨h, t, hand⟩ k) : Sound arrays ⟨h, t.erase k, sl :: hand⟩ where
  valid hs := H.valid (has_pickUp hk hs)
  ledger := H.ledger.perm (perm_holdings_pickUp hk)
  traced {sl₀ a} hs ha := by
    have hbefore := has_pickUp hk hs
    have hstill {j : Nat} {sl₁ : Slot} (hne : j ≠ k) (hj : t.get? j = some sl₁) :
        ∃ sl₂, (t.erase k).get? j = some sl₂ ∧ SameTrace sl₁ sl₂ :=
      ⟨sl₁, (t.get?_erase_of_ne hne).trans hj, .rfl⟩
    refine (H.traced hbefore ha).transfer (fun _ hm => hm) ?_ (fun hl hj => hstill ?_ hj) .rfl
    · intro j sl₂ hj hlent
      obtain ⟨i, sl₁, hi, hl⟩ := hlent
      refine hstill ?_ hj
      rintro rfl
      exact hfree sl₁ (.inl ⟨i, hi⟩) hl
    · rintro rfl
      exact hfree sl₀ hbefore hl
  placed hs := H.placed (has_pickUp hk hs)
  settled {j sl₁} hj := by
    rw [Table.get?_erase] at hj
    split at hj
    · cases hj
    · exact H.settled hj
  arrays := H.arrays

/-- The buffer in hand is put into an empty slot. -/
theorem putDown (H : Sound arrays ⟨h, t, sl :: hand⟩) (hk : t.get? k = none) :
    Sound arrays ⟨h, t.put k sl.settled, hand⟩ := by
  have hself : Has ⟨h, t, sl :: hand⟩ sl := has_cons.mpr (.inl rfl)
  have hstill {j : Nat} {sl₁ : Slot} (hj : t.get? j = some sl₁) :
      ∃ sl₂, (t.put k sl.settled).get? j = some sl₂ ∧ SameTrace sl₁ sl₂ := by
    have hne : j ≠ k := by
      rintro rfl
      cases hk.symm.trans hj
    exact ⟨sl₁, (t.get?_put_of_ne _ hne).trans hj, .rfl⟩
  have htrace {sl₁ : Slot} {m : BlockId} (T : Traced h.heap t sl₁ m) :
      Traced h.heap (t.put k sl.settled) sl₁ m :=
    T.transfer (fun _ hm => hm) (fun hj _ => hstill hj) (fun _ hj => hstill hj) .rfl
  refine ⟨fun hs => ?_, ?_, fun hs ha => ?_, fun hs => ?_, fun hj => ?_, H.arrays⟩
  · rcases has_put hs with rfl | hs
    · rw [Slot.buffer_settled]
      exact H.valid hself
    · exact H.valid (has_cons.mpr (.inr hs))
  · exact H.ledger.perm (perm_gather_put Buffer.holdings hk (by rw [Slot.buffer_settled]))
  · rcases has_put hs with rfl | hs
    · rw [Slot.buffer_settled] at ha
      exact (htrace (H.traced hself ha)).settled (H.placed hself)
    · exact htrace (H.traced (has_cons.mpr (.inr hs)) ha)
  · rcases has_put hs with rfl | hs
    · rw [Slot.buffer_settled]
      exact H.placed hself
    · exact H.placed (has_cons.mpr (.inr hs))
  · rw [Table.get?_put] at hj
    split at hj
    · cases hj
      exact sl.settled_settled
    · exact H.settled hj

/-- The buffer in a slot gets another shape. What it lends and borrows is as it was. -/
theorem reshape (H : Sound arrays ⟨h, t, hand⟩) (hk : t.get? k = some sl) {b : Buffer}
    (R : sl.buffer.Reshaped b) : Sound arrays ⟨h, t.put k { sl with buffer := b }, hand⟩ := by
  have hself : Has ⟨h, t, hand⟩ sl := .inl ⟨k, hk⟩
  have hsame : SameTrace sl { sl with buffer := b } :=
    ⟨rfl, R.samePlace.address, R.samePlace.isOwner⟩
  have hstill {j : Nat} {sl₁ : Slot} (hj : t.get? j = some sl₁) :
      ∃ sl₂, (t.put k { sl with buffer := b }).get? j = some sl₂ ∧ SameTrace sl₁ sl₂ := by
    rw [Table.get?_put]
    split
    · subst j
      cases hk.symm.trans hj
      exact ⟨_, rfl, hsame⟩
    · exact ⟨sl₁, hj, .rfl⟩
  have htrace {sl₁ sl₂ : Slot} {m : BlockId} (hs : SameTrace sl₁ sl₂)
      (T : Traced h.heap t sl₁ m) : Traced h.heap (t.put k { sl with buffer := b }) sl₂ m :=
    T.transfer (fun _ hm => hm) (fun hj _ => hstill hj) (fun _ hj => hstill hj) hs
  refine ⟨fun hs => ?_, ?_, fun hs ha => ?_, fun hs => ?_, fun hj => ?_, H.arrays⟩
  · rcases has_put hs with rfl | hs
    · exact R.valid (H.valid hself)
    · exact H.valid hs
  · exact H.ledger.perm (perm_gather_reshape Buffer.holdings hk R.holdings)
  · rcases has_put hs with rfl | hs
    · exact htrace hsame (H.traced hself (R.samePlace.address.symm.trans ha))
    · exact htrace .rfl (H.traced hs ha)
  · rcases has_put hs with rfl | hs
    · exact (H.placed hself).of_samePlace R.samePlace
    · exact H.placed hs
  · rw [Table.get?_put] at hj
    split at hj
    · cases hj
      exact Slot.settled_of_samePlace (H.settled hk) R.samePlace
    · exact H.settled hj

end Sound

/-- Every primitive step keeps the invariant. -/
theorem Move.sound (M : Move arrays touched edited x y) (H : Sound arrays x) : Sound arrays y := by
  cases M with
  | log he => exact H.log he
  | create type device =>
    refine H.takeUp (Buffer.valid_empty ..) rfl ?_ (Buffer.placed_of_address?_eq_none rfl rfl)
    intro a ha
    cases ha
  | discard ho => exact H.discard ho
  | turn => exact H.turn
  | act M => exact H.act M
  | lend ho hk => exact H.lend ho hk
  | borrowAt ho hs hl => exact H.borrowAt ho hs hl
  | pickUp _ hk hfree => exact H.pickUp hk hfree
  | putDown _ hk => exact H.putDown hk
  | reshape _ hk R => exact H.reshape hk R
  | edit _ _ E => exact H.edit E

theorem Moves.sound (M : Moves arrays touched edited x y) (H : Sound arrays x) :
    Sound arrays y := by
  induction M with
  | refl => exact H
  | tail _ M ih => exact M.sound ih

end Bench

end NdBuffer
