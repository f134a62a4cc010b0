import NdBuffer.Proofs.Buffer.Refitting
import NdBuffer.Proofs.Buffer.Writing

/-!
# Copies

A copy is made by giving a buffer the shape of another one and then its elements (`takeOver`). On
the host this fails only for want of memory, and it uses the memory that the buffer has if there is
room enough (`copying`). Building a copy and duplicating are both done in this way: the one from an
empty buffer, the other from what is left of the buffer after it has made way. What the system gives
may depend on what has been asked for and returned before, so it is said of each copy what it leaves
of that (`Heap.SameUse`).
-/

namespace NdBuffer

/-- Whether there is memory for some elements. Nothing is needed for no elements. -/
def Heap.Affords (m : Heap) (type : ElemType) (n : Nat) : Prop :=
  n = 0 ∨ ∃ bytes, Buffer.byteSize? type n = some bytes ∧ m.Grants ⟨bytes, standardAlignment⟩

/-- Whether there is memory for some elements and, once it has been given, for as many again. -/
def Heap.AffordsTwice (m : Heap) (type : ElemType) (n : Nat) : Prop :=
  n = 0 ∨ ∃ bytes, Buffer.byteSize? type n = some bytes ∧
    m.Grants ⟨bytes, standardAlignment⟩ ∧
    (m.add (.zeroed ⟨bytes, standardAlignment⟩)).Grants ⟨bytes, standardAlignment⟩

/-- What the host answers with if it cannot give memory for some elements. -/
def shortage (type : ElemType) (n : Nat) : Error :=
  match Buffer.byteSize? type n with
  | none => .capacityOverflow n type
  | some bytes =>
    let layout : Layout := ⟨bytes, standardAlignment⟩
    .memory (if layout.Valid then .outOfMemory layout else .invalidLayout layout)

namespace Outcome

variable {α β : Type} {next : Buffer → Host → Outcome β}

theorem andThen_done (v : α) (b : Buffer) (h : Host) : (done v b h).andThen next = next b h := rfl

theorem andThen_of_error {o : Outcome α} {e : Error} (he : o.result = .error e) :
    o.andThen next = .failed e o.buffer o.host := by
  simp only [andThen, he]

end Outcome

namespace Heap

variable {m m' m'' : Heap} {l : Layout} {type : ElemType} {n : Nat}

theorem alloc_eq_ok (hl : m.Grants l) :
    m.alloc l = .ok (m.blocks.length, m.add (.zeroed l)) := by
  rw [alloc, if_neg (not_not.mpr hl.1), if_neg (not_not.mpr hl)]

/-- Whether two heaps come from one system, which has been asked for the same and been given back
the same. -/
structure SameUse (m m' : Heap) : Prop where
  system : m'.system = m.system
  usage : m'.usage = m.usage

namespace SameUse

theorem rfl : m.SameUse m := ⟨.refl _, .refl _⟩

theorem trans (S : m.SameUse m') (S' : m'.SameUse m'') : m.SameUse m'' :=
  ⟨S'.system.trans S.system, S'.usage.trans S.usage⟩

theorem add (S : m.SameUse m') (b : Block) : (m.add b).SameUse (m'.add b) :=
  ⟨S.system, by rw [usage_add, usage_add, S.usage]⟩

theorem grants_iff (S : m.SameUse m') : m'.Grants l ↔ m.Grants l := by
  rw [Grants, Grants, S.system, S.usage]

theorem affords_iff (S : m.SameUse m') : m'.Affords type n ↔ m.Affords type n := by
  simp only [Affords, S.grants_iff]

end SameUse

theorem sameUse_write (m : Heap) (a : Address) (new : List UInt8) : m.SameUse (m.write a new) :=
  ⟨rfl, m.usage_write a new⟩

theorem AffordsTwice.affords (A : m.AffordsTwice type n) : m.Affords type n :=
  A.imp_right fun ⟨bytes, hbytes, hl, _⟩ => ⟨bytes, hbytes, hl⟩

end Heap

namespace Buffer

variable {b c : Buffer} {h : Host} {m m' : Heap} {n : Nat} {t : ElemType}

theorem not_mem_holdings_empty {type : ElemType} {device : Device} {o : Holding} :
    o ∉ (empty type device).holdings := List.not_mem_nil

/-! ### Memory for the elements -/

/-- Whether there is memory for some elements at the address of a buffer. -/
def Reaches (b : Buffer) (n : Nat) (m : Heap) : Prop :=
  0 < n → ∃ a, b.address? = some a ∧ a.offset + n * b.type.width ≤ m.size a.block

theorem Reaches.mono {k : Nat} (H : b.Reaches n m) (hk : k ≤ n) : b.Reaches k m := fun hpos =>
  let ⟨a, ha, hfits⟩ := H (Nat.lt_of_lt_of_le hpos hk)
  ⟨a, ha, Nat.le_trans (Nat.add_le_add_left (Nat.mul_le_mul_right _ hk) _) hfits⟩

theorem contents_of_size (hb : b.size = 0) (t : ElemType) (m : Heap) : b.contents t m = [] :=
  List.length_eq_zero_iff.mp (Nat.eq_zero_of_le_zero (hb ▸ b.length_contents_le t m))

theorem Reaches.length_contents (H : b.Reaches b.size m) (t : ElemType) :
    (b.contents t m).length = b.size := by
  by_cases hpos : 0 < b.size
  · obtain ⟨a, ha, -⟩ := H hpos
    simp [contents, ha]
  · have hzero := Nat.eq_zero_of_not_pos hpos
    rw [contents_of_size hzero, hzero, List.length_nil]

/-- What is read depends on the block of the buffer only. -/
theorem contents_congr (hm : ∀ a, b.address? = some a → m'.blocks[a.block]? = m.blocks[a.block]?)
    (t : ElemType) : b.contents t m' = b.contents t m := by
  rw [contents, contents]
  cases ha : b.address? with
  | none => rfl
  | some a => exact Heap.elements_congr fun x hx _ _ => by simp only [Heap.byte, hx, hm a ha]

/-- The block of a buffer that reaches some elements stays the same while others make their
moves. -/
theorem Moves.block {p q : Buffer × Host} (M : Moves p q) {a : Address} (ha : b.address? = some a)
    (hn : 0 < n) (hfits : a.offset + n * b.type.width ≤ p.2.heap.size a.block)
    (hsep : ∀ a, b.address? = some a → ∀ o ∈ p.1.holdings, o.block ≠ a.block) :
    q.2.heap.blocks[a.block]? = p.2.heap.blocks[a.block]? := by
  have hsize : 0 < p.2.heap.size a.block :=
    Nat.lt_of_lt_of_le (Nat.mul_pos hn b.type.width_pos)
      (Nat.le_trans (Nat.le_add_left ..) hfits)
  cases hblock : p.2.heap.blocks[a.block]? with
  | none => simp [Heap.size, hblock] at hsize
  | some block => exact (M.frame hblock (hsep a ha)).1

theorem Moves.reaches {p q : Buffer × Host} (M : Moves p q) (H : b.Reaches n p.2.heap)
    (hsep : ∀ a, b.address? = some a → ∀ o ∈ p.1.holdings, o.block ≠ a.block) :
    b.Reaches n q.2.heap := by
  intro hn
  obtain ⟨a, ha, hfits⟩ := H hn
  refine ⟨a, ha, ?_⟩
  simpa only [Heap.size, M.block ha hn hfits hsep] using hfits

/-- What is read of a buffer stays the same while others make their moves. -/
theorem Moves.contents {p q : Buffer × Host} (M : Moves p q) (H : b.Reaches b.size p.2.heap)
    (hsep : ∀ a, b.address? = some a → ∀ o ∈ p.1.holdings, o.block ≠ a.block) (t : ElemType) :
    b.contents t q.2.heap = b.contents t p.2.heap := by
  by_cases hpos : 0 < b.size
  · obtain ⟨a, ha, hfits⟩ := H hpos
    refine contents_congr (fun a' ha' => ?_) t
    obtain rfl : a = a' := Option.some.inj (ha.symm.trans ha')
    exact M.block ha hpos hfits hsep
  · have hzero := Nat.eq_zero_of_not_pos hpos
    rw [contents_of_size hzero, contents_of_size hzero]

/-- What is read after elements have been overwritten. -/
theorem contents_overwrite_eq_overlay (H : c.Reaches c.size h.heap) (p : Nat)
    (vs : List (Elem c.type)) :
    c.contents c.type (c.overwrite p vs h).heap = overlay (c.contents c.type h.heap) p vs := by
  rcases Nat.eq_zero_or_pos c.size with hzero | hpos
  · rw [contents_of_size hzero, contents_of_size hzero]
    rfl
  · obtain ⟨a, ha, hfits⟩ := H hpos
    simp only [contents, overwrite, ha]
    exact Heap.elements_store vs hfits

/-- As many values as there are elements, written from the first one on, are what is read. -/
theorem contents_overwrite (H : c.Reaches c.size h.heap) {vs : List (Elem c.type)}
    (hlen : vs.length = c.size) : c.contents c.type (c.overwrite 0 vs h).heap = vs := by
  rw [contents_overwrite_eq_overlay H]
  exact overlay_of_length_eq (hlen.trans (H.length_contents c.type).symm)

/-! ### Letting go and taking new memory -/

/-- What a release does to memory does not depend on anything else of the host. -/
theorem heap_release (b : Buffer) : ∃ f : Heap → Heap,
    (∀ m, (f m).blocks.length = m.blocks.length) ∧ ∀ h, (b.release h).2.heap = f h.heap := by
  cases ha : b.ownAddress? with
  | none => exact ⟨id, fun _ => rfl, fun h => by rw [release_snd_of_not_owned ha]; rfl⟩
  | some a =>
    obtain ⟨ho, ha⟩ := ownAddress?_eq_some.mp ha
    cases hd : b.device with
    | cuda index =>
      exact ⟨id, fun _ => rfl, fun h => by simp [release, ha, ho, hd, returnBlock]⟩
    | cpu =>
      by_cases hv : Layout.Valid ⟨b.blockBytes, standardAlignment⟩
      · refine ⟨fun m => m.giveBack a.block ⟨b.blockBytes, standardAlignment⟩,
          fun m => by simp [Heap.giveBack], fun h => ?_⟩
        rw [release_snd_of_owned ho ha hd, Host.free, if_pos hv]
        rfl
      · refine ⟨id, fun _ => rfl, fun h => ?_⟩
        rw [release_snd_of_owned ho ha hd, Host.free, if_neg hv]
        rfl

theorem heap_release_congr {h' : Host} (hh : h'.heap = h.heap) (b : Buffer) :
    (b.release h').2.heap = (b.release h).2.heap := by
  obtain ⟨f, -, hf⟩ := b.heap_release
  rw [hf, hf, hh]

theorem length_blocks_release (b : Buffer) (h : Host) :
    (b.release h).2.heap.blocks.length = h.heap.blocks.length := by
  obtain ⟨f, hlen, hf⟩ := b.heap_release
  rw [hf, hlen]

/-- New memory on the host is given if there is some once the old memory has been returned. -/
theorem allocate_cases (hd : b.device = .cpu) (hn : 0 < n) (h : Host) :
    (¬ (b.release h).2.heap.Affords b.type n ∧
        (b.allocate n h).result = .error (shortage b.type n)) ∨
      ∃ bytes h', (b.release h).2.heap.Affords b.type n ∧ byteSize? b.type n = some bytes ∧
        h'.heap = (b.release h).2.heap.add (.zeroed ⟨bytes, standardAlignment⟩) ∧
        b.allocate n h = .done () (owner b.type h.heap.blocks.length n bytes) h' := by
  have hne : n ≠ 0 := Nat.ne_of_gt hn
  have hhost : ¬ (empty b.type b.device).device.isCuda = true := by
    rw [show (empty b.type b.device).device = .cpu from hd]
    decide
  rw [allocate]
  cases hbytes : byteSize? b.type n with
  | none =>
    exact .inl ⟨by simp [Heap.Affords, hne, hbytes], by simp only [shortage, hbytes]; rfl⟩
  | some bytes =>
    rw [release_eq]
    simp only [if_neg hne, if_neg hhost]
    by_cases hl : (b.release h).2.heap.Grants ⟨bytes, standardAlignment⟩
    · rw [Heap.alloc_eq_ok hl, length_blocks_release]
      refine .inr ⟨bytes,
        Host.record { (b.release h).2 with heap := _ } (.allocated b.type .cpu bytes),
        .inr ⟨bytes, hbytes, hl⟩, rfl, rfl, ?_⟩
      simp only [owner, empty, hd]
      rfl
    · refine .inl ⟨by simp [Heap.Affords, hne, hbytes, hl], ?_⟩
      rw [Heap.alloc]
      by_cases hv : Layout.Valid ⟨bytes, standardAlignment⟩
      · simp only [shortage, hbytes, hv, hl, not_true_eq_false, not_false_eq_true, if_true,
          if_false]
        rfl
      · simp only [shortage, hbytes, hv, not_false_eq_true, if_true, if_false]
        rfl

/-! ### Copies -/

/-- Whether a buffer of the host has the type, the shape and the elements of another one. The two
are read from different states of memory. -/
structure CopyOf (c : Buffer) (m' : Heap) (b : Buffer) (m : Heap) : Prop where
  type : c.type = b.type
  device : c.device = .cpu
  shape : c.shape = b.shape
  strides : c.strides = b.strides
  size : c.size = b.size
  contents : c.contents b.type m' = b.contents b.type m

/-- Copying between two buffers of the host that have the same type and size always succeeds. -/
theorem copyFrom_eq (ht : b.type = c.type) (hn : b.size = c.size) (hc : c.device = .cpu)
    (hb : b.device = .cpu) :
    c.copyFrom b h = (.ok (), c.overwrite 0 (b.contents c.type h.heap) h) := by
  rw [copyFrom, if_neg (not_not.mpr ht), copyElements, if_neg (not_not.mpr rfl),
    if_neg (not_not.mpr hn), transfer]
  split
  · rw [contents_of_size ‹_›, overwrite_nil]
  · rw [hb, hc]
    simp only [if_true]
    rw [onHeap_deliver, elements_memory]

/-- Gives a buffer the shape of another one and then its elements. -/
def takeOver (c b : Buffer) (h : Host) : Outcome Unit :=
  (c.resizeLike b h).andThen fun c h => c.unchanged (c.copyFrom b h)

/-- The ways in which a buffer of the host that owns its memory can take over another one. -/
inductive Copying (c b : Buffer) (h : Host) : Outcome Unit → Prop
  | kept {h' : Host} : b.size ≤ c.capacity → (c.setShape b.shape).CopyOf h'.heap b h.heap →
    Copying c b h (.done () (c.setShape b.shape) h')
  | replaced {d : Buffer} {h' : Host} {bytes : Nat} : c.capacity < b.size →
    (c.release h).2.heap.Affords b.type b.size → byteSize? b.type b.size = some bytes →
    ((c.release h).2.heap.add (.zeroed ⟨bytes, standardAlignment⟩)).SameUse h'.heap →
    d.address? = some ⟨h.heap.blocks.length, 0⟩ → d.CopyOf h'.heap b h.heap →
    Copying c b h (.done () d h')
  | failed {o : Outcome Unit} : c.capacity < b.size →
    ¬ (c.release h).2.heap.Affords b.type b.size →
    o.result = .error (shortage b.type b.size) → Copying c b h o

theorem sameUse_overwrite (c : Buffer) (p : Nat) {t : ElemType} (vs : List (Elem t)) (h : Host) :
    h.heap.SameUse (c.overwrite p vs h).heap := by
  rw [overwrite]
  cases c.address? with
  | none => exact .rfl
  | some a => exact h.heap.sameUse_write _ _

/-- The elements are copied once there is a buffer of the shape with memory for them. -/
theorem exists_copyOf (hv : b.Valid) (hb : b.device = .cpu)
    (hlen : (b.contents b.type m).length = b.size) (ht : c.type = b.type) (hc : c.device = .cpu)
    (hroom : c.Reaches b.size h.heap) (hsame : b.contents b.type h.heap = b.contents b.type m) :
    ∃ h', (c.setShape b.shape).unchanged ((c.setShape b.shape).copyFrom b h) =
        .done () (c.setShape b.shape) h' ∧ h.heap.SameUse h'.heap ∧
        (c.setShape b.shape).CopyOf h'.heap b m := by
  let d := c.setShape b.shape
  have hsize : d.size = b.size := Shape.count_eq hv.count
  have htype : d.type = b.type := ht
  have hroom' : d.Reaches d.size h.heap := hsize.symm ▸ hroom
  have hsame' : b.contents d.type h.heap = b.contents d.type m := by rw [htype, hsame]
  have hread : d.contents d.type (d.overwrite 0 (b.contents d.type h.heap) h).heap =
      b.contents d.type h.heap :=
    contents_overwrite hroom' (by rw [hsame', hsize, htype, hlen])
  have hcopy := congrArg d.unchanged (copyFrom_eq (h := h) htype.symm hsize.symm hc hb)
  have huse := d.sameUse_overwrite 0 (b.contents d.type h.heap) h
  generalize d.overwrite 0 (b.contents d.type h.heap) h = h' at hread hcopy huse
  rw [htype, hsame] at hread
  exact ⟨h', hcopy, huse, htype, hc, rfl, hv.strides.symm, hsize, hread⟩

/-- An owner of the host that has not room enough gets the shape of another buffer in new memory. -/
theorem resizeLike_of_lt (hv : b.Valid) (hc : c.device = .cpu) (ho : c.isOwner = true)
    (hlt : c.capacity < b.size) (h : Host) :
    (¬ (c.release h).2.heap.Affords c.type b.size ∧
        (c.resizeLike b h).result = .error (shortage c.type b.size)) ∨
      ∃ bytes h', (c.release h).2.heap.Affords c.type b.size ∧
        byteSize? c.type b.size = some bytes ∧
        h'.heap = (c.release h).2.heap.add (.zeroed ⟨bytes, standardAlignment⟩) ∧
        c.resizeLike b h =
          .done () ((owner c.type h.heap.blocks.length b.size bytes).setShape b.shape) h' := by
  have hborrowed : ¬ (c.isBorrowed = true ∧ ¬ c.isNull = true) := by simp [isBorrowed, ho]
  have hresize : c.resizeLike b h =
      (c.allocate b.size (h.record (c.growth b.size))).andThen fun c h =>
        .done () (c.setShape b.shape) h := by
    rw [resizeLike, resize, Shape.checkedCount_eq_ok.mpr hv.count]
    simp only [if_neg (Nat.not_le.mpr hlt), if_neg hborrowed]
    rfl
  have hheap := heap_release_congr (h.heap_record (c.growth b.size)) c
  rw [hresize, ← hheap]
  rcases allocate_cases hc (Nat.zero_lt_of_lt hlt) (h.record (c.growth b.size)) with
    ⟨hno, he⟩ | ⟨bytes, h', hyes, hbytes, hblocks, hdone⟩
  · exact .inl ⟨hno, by rw [Outcome.andThen_of_error he]; rfl⟩
  · exact .inr ⟨bytes, h', hyes, hbytes, hblocks, by rw [hdone]; rfl⟩

/-- Taking over another buffer uses the memory that there is if there is room enough, and new memory
if there is not. -/
theorem copying (hv : b.Valid) (hb : b.device = .cpu) (hreach : b.Reaches b.size h.heap)
    (ht : c.type = b.type) (hc : c.device = .cpu) (ho : c.isOwner = true)
    (hroom : c.Reaches c.capacity h.heap)
    (hsep : ∀ a, b.address? = some a → ∀ o ∈ c.holdings, o.block ≠ a.block) :
    Copying c b h (c.takeOver b h) := by
  have hlen := hreach.length_contents b.type
  rw [takeOver]
  by_cases hn : b.size ≤ c.capacity
  · obtain ⟨h', hdone, -, hcopy⟩ := exists_copyOf hv hb hlen ht hc (hroom.mono hn) rfl
    rw [resizeLike, resize_of_le hv.count hn, Outcome.andThen_done, hdone]
    exact .kept hn hcopy
  · have hlt := Nat.not_le.mp hn
    rcases resizeLike_of_lt hv hc ho hlt h with ⟨hno, he⟩ | ⟨bytes, h', hyes, hbytes, hheap, hdone⟩
    · rw [Outcome.andThen_of_error he]
      exact .failed hlt (ht ▸ hno) (ht ▸ rfl)
    · have M : Moves (c, h) (c.resizeLike b h).after := c.moves_resize b.shape h
      rw [hdone] at M ⊢
      let d := owner c.type h.heap.blocks.length b.size bytes
      have hfits : b.size * c.type.width ≤ h'.heap.size h.heap.blocks.length := by
        have hle : b.size * c.type.width ≤ bytes := (isLeast_of_byteSize? hbytes).1.2
        simpa [Heap.size, hheap, ← length_blocks_release c h, Block.zeroed] using hle
      have hroom' : d.Reaches b.size h'.heap := fun _ => ⟨_, rfl, (Nat.zero_add _).symm ▸ hfits⟩
      obtain ⟨h'', hdone', huse, hcopy⟩ :=
        exists_copyOf hv hb hlen (c := d) ht rfl hroom' (M.contents hreach hsep b.type)
      rw [Outcome.andThen_done, hdone']
      exact .replaced hlt (ht ▸ hyes) (ht ▸ hbytes) (hheap ▸ huse) rfl hcopy

/-- A copy that is complete. -/
theorem Copying.of_ok {o : Outcome Unit} {u : Unit} (C : Copying c b h o) (hok : o.result = .ok u) :
    o.buffer.CopyOf o.host.heap b h.heap ∧
      (b.size ≤ c.capacity ∧ o.buffer = c.setShape b.shape ∨
        c.capacity < b.size ∧ o.buffer.address? = some ⟨h.heap.blocks.length, 0⟩) := by
  cases C with
  | kept hn hcopy => exact ⟨hcopy, .inl ⟨hn, rfl⟩⟩
  | replaced hlt _ _ _ ha hcopy => exact ⟨hcopy, .inr ⟨hlt, ha⟩⟩
  | failed _ _ he => cases hok.symm.trans he

/-- Where the elements of a copy are if no memory is used that there was before. -/
def newPlace (b : Buffer) (m : Heap) : Option Address :=
  if b.size = 0 then none else some ⟨m.blocks.length, 0⟩

theorem block_of_newPlace {a : Address} (ha : b.newPlace m = some a) :
    a.block = m.blocks.length := by
  rw [newPlace] at ha
  split at ha <;> cases ha
  rfl

/-- An empty buffer has no memory that it could use. -/
theorem Copying.address {type : ElemType} {device : Device} {o : Outcome Unit} {u : Unit}
    (C : Copying (empty type device) b h o) (hok : o.result = .ok u) :
    o.buffer.address? = b.newPlace h.heap := by
  rcases (C.of_ok hok).2 with ⟨hn, hbuffer⟩ | ⟨hlt, ha⟩
  · rw [hbuffer, newPlace, if_pos (Nat.eq_zero_of_le_zero hn)]
    rfl
  · rw [ha, newPlace, if_neg (Nat.ne_of_gt (Nat.zero_lt_of_lt hlt))]

/-! ### Building a copy -/

/-- A copy for the host of a buffer of the host is built if there is memory for it. If the buffer
has elements, one more block is in use then. -/
theorem copyTo_cases (hv : b.Valid) (hb : b.device = .cpu) (hreach : b.Reaches b.size h.heap) :
    (h.heap.Affords b.type b.size ∧ ∃ c h', b.copyTo .cpu h = (.ok c, h') ∧
        c.CopyOf h'.heap b h.heap ∧ c.address? = b.newPlace h.heap ∧
        (0 < b.size → ∃ bytes, byteSize? b.type b.size = some bytes ∧
          (h.heap.add (.zeroed ⟨bytes, standardAlignment⟩)).SameUse h'.heap)) ∨
      ¬ h.heap.Affords b.type b.size ∧
        ∃ h', b.copyTo .cpu h = (.error (shortage b.type b.size), h') := by
  have hbuilt : b.copyTo .cpu h = ((empty b.type .cpu).takeOver b h).built := by
    rw [copyTo, if_pos hb.symm]
    rfl
  have C := copying (c := empty b.type .cpu) hv hb hreach rfl rfl rfl
    (fun hpos => absurd hpos (Nat.lt_irrefl 0)) (fun _ _ _ ho => absurd ho not_mem_holdings_empty)
  rw [hbuilt]
  generalize (empty b.type .cpu).takeOver b h = o at C
  have hplace (u : Unit) := C.address (u := u)
  cases C with
  | @kept h' hn hcopy =>
    exact .inl ⟨.inl (Nat.eq_zero_of_le_zero hn), _, h', rfl, hcopy, hplace () rfl,
      fun hpos => absurd hn (Nat.not_le.mpr hpos)⟩
  | @replaced d h' bytes hlt hyes hbytes huse ha hcopy =>
    exact .inl ⟨hyes, d, h', rfl, hcopy, hplace () rfl, fun _ => ⟨bytes, hbytes, huse⟩⟩
  | @failed o hlt hno he =>
    exact .inr ⟨hno, (o.buffer.release o.host).2, by simp only [Outcome.built, he]⟩

/-- What has been built owns its memory, and no block is different that was there before. -/
theorem Built.frame {r : Except Error Buffer × Host} (B : Built h r) {id : BlockId} {block : Block}
    (hid : h.heap.blocks[id]? = some block) : r.2.heap.blocks[id]? = some block := by
  cases B with
  | done M | failed M => exact (M.frame hid fun _ ho => absurd ho not_mem_holdings_empty).1

theorem Built.reaches {r : Except Error Buffer × Host} (B : Built h r)
    (H : b.Reaches n h.heap) : b.Reaches n r.2.heap := by
  cases B with
  | done M | failed M => exact M.reaches H fun _ _ _ ho => absurd ho not_mem_holdings_empty

theorem Built.contents {r : Except Error Buffer × Host} (B : Built h r)
    (H : b.Reaches b.size h.heap) (t : ElemType) :
    b.contents t r.2.heap = b.contents t h.heap := by
  cases B with
  | done M | failed M => exact M.contents H (fun _ _ _ ho => absurd ho not_mem_holdings_empty) t

theorem Built.isOwner {h' : Host} (B : Built h (.ok c, h')) : c.isOwner = true := by
  cases B with
  | done M => exact M.isOwner rfl

/-! ### Duplicates -/

/-- Whether a buffer need not let go of its memory to be made a duplicate of another one. -/
structure Akin (c b : Buffer) : Prop where
  isOwner : c.isOwner = true
  type : c.type = b.type
  device : c.device = b.device

theorem makeWay_of_akin (A : c.Akin b) (h : Host) : c.makeWay b h = (c, h) := by
  rw [makeWay, if_neg]
  simp [A.type, A.device, isBorrowed, A.isOwner]

theorem makeWay_of_not_akin (hno : ¬ c.Akin b) (h : Host) :
    c.makeWay b h = (empty b.type b.device, (c.release h).2) := by
  rcases c.makeWay_cases b h with he | ⟨ht, hd, ho, -⟩
  · exact he
  · exact absurd ⟨ho, ht, hd⟩ hno

/-- Whether a buffer keeps its memory when it is made a duplicate of another one. -/
structure Accommodates (c b : Buffer) : Prop where
  isOwner : c.isOwner = true
  type : c.type = b.type
  device : c.device = b.device
  room : b.size ≤ c.capacity

theorem duplicate_eq (c b : Buffer) (h : Host) :
    c.duplicate b h = (c.makeWay b h).1.takeOver b (c.makeWay b h).2 := rfl

/-- A duplicate that is complete. It lies where the buffer did if the buffer accommodates what is
copied, and otherwise it uses no memory that there was before. -/
theorem duplicate_of_ok {u : Unit} (hv : b.Valid) (hb : b.device = .cpu)
    (hreach : b.Reaches b.size h.heap) (hroom : c.device = .cpu → c.Reaches c.capacity h.heap)
    (hsep : ∀ a, b.address? = some a → ∀ o ∈ c.holdings, o.block ≠ a.block)
    (hok : (c.duplicate b h).result = .ok u) :
    (c.duplicate b h).buffer.CopyOf (c.duplicate b h).host.heap b h.heap ∧
      (c.Accommodates b → c.SamePlace (c.duplicate b h).buffer) ∧
      (¬ c.Accommodates b → (c.duplicate b h).buffer.address? = b.newPlace h.heap) := by
  rw [duplicate_eq] at hok ⊢
  by_cases A : c.Akin b
  · rw [makeWay_of_akin A] at hok ⊢
    have hc : c.device = .cpu := A.device.trans hb
    obtain ⟨hcopy, ⟨hn, hbuffer⟩ | ⟨hlt, ha⟩⟩ :=
      (copying hv hb hreach A.type hc A.isOwner (hroom hc) hsep).of_ok hok
    · refine ⟨hcopy, fun _ => hbuffer ▸ ⟨rfl, rfl, rfl, rfl, rfl⟩, fun hno => ?_⟩
      exact absurd ⟨A.isOwner, A.type, A.device, hn⟩ hno
    · refine ⟨hcopy, fun hacc => absurd hacc.room (Nat.not_le.mpr hlt), fun _ => ?_⟩
      rw [ha, newPlace, if_neg (Nat.ne_of_gt (Nat.zero_lt_of_lt hlt))]
  · have M : Moves (c, h) (empty b.type b.device, (c.release h).2) :=
      (Relation.ReflTransGen.single .letGo).tail .retag
    rw [makeWay_of_not_akin A] at hok ⊢
    have C := copying (c := empty b.type b.device) hv hb (M.reaches hreach hsep) rfl hb rfl
      (fun hpos => absurd hpos (Nat.lt_irrefl 0)) (fun _ _ _ ho => absurd ho not_mem_holdings_empty)
    have hcopy := (C.of_ok hok).1
    have hplace := C.address hok
    refine ⟨{ hcopy with contents := hcopy.contents.trans (M.contents hreach hsep b.type) },
      fun hacc => absurd ⟨hacc.isOwner, hacc.type, hacc.device⟩ A, fun _ => hplace.trans ?_⟩
    rw [newPlace, newPlace, length_blocks_release]

end Buffer

end NdBuffer
