import NdBuffer.Buffer.Build
import NdBuffer.Proofs.Memory.Alignment

/-!
# The representation invariant of buffers

`Buffer.Valid b` says how the fields of a buffer fit together: the size and the strides belong to
the shape, there is room for the elements, a buffer that owns memory is on the host and has recorded
the bytes of its block, and a buffer that owns none has recorded none. The lemmas here are about the
primitive changes of a buffer; which operations are made of them is said in `Move`.
-/

namespace NdBuffer

namespace Buffer

/-- How the fields of a buffer fit together. -/
structure Valid (b : Buffer) : Prop where
  count : b.shape.count? = some b.size
  strides : b.strides = b.shape.strides
  size_le : b.size ≤ b.capacity
  owned : ∀ {a}, b.isOwner = true → b.address? = some a →
    b.device = .cpu ∧ 0 < b.capacity ∧ a.offset = 0 ∧
      byteSize? b.type b.capacity = some b.blockBytes
  bare : b.isOwner = true → b.address? = none → b.capacity = 0 ∧ b.blockBytes = 0
  borrowed : b.isOwner = false → b.blockBytes = 0

variable {b : Buffer} {s : Shape} {n bytes : Nat}

/-- The bytes of a block are the least multiple of the alignment that has room for the elements. -/
theorem isLeast_of_byteSize? {type : ElemType} (h : byteSize? type n = some bytes) :
    IsLeast {m | standardAlignment ∣ m ∧ n * type.width ≤ m} bytes := by
  obtain ⟨product, hproduct, hround⟩ := Option.bind_eq_some_iff.mp h
  obtain ⟨rfl, -⟩ := Count.checked_eq_some_iff.mp hproduct
  exact isLeast_of_roundUp?_standard hround

/-- There are such bytes if they can be counted. -/
theorem byteSize?_eq {type : ElemType}
    (h : IsLeast {m | standardAlignment ∣ m ∧ n * type.width ≤ m} bytes) :
    byteSize? type n = Count.checked bytes := by
  have hround := roundUp?_eq_checked (k := 6) (by decide) h
  rw [byteSize?, Count.mul?]
  by_cases hlt : n * type.width < Count.limit
  · rw [Count.checked_eq_some_iff.mpr ⟨rfl, hlt⟩]
    exact hround
  · have hle : n * type.width ≤ bytes := h.1.2
    rw [Count.checked_eq_none_iff.mpr (Nat.not_lt.mp hlt),
      Count.checked_eq_none_iff.mpr (Nat.le_trans (Nat.not_lt.mp hlt) hle)]
    rfl

theorem valid_empty (type : ElemType) (device : Device) : (empty type device).Valid where
  count := rfl
  strides := rfl
  size_le := Nat.le_refl 0
  owned _ h := nomatch h
  bare _ _ := ⟨rfl, rfl⟩
  borrowed h := nomatch h

theorem Valid.clear (H : b.Valid) : b.clear.Valid where
  count := rfl
  strides := rfl
  size_le := Nat.zero_le _
  owned := H.owned
  bare := H.bare
  borrowed := H.borrowed

theorem Valid.setShape (H : b.Valid) (hs : s.count? = some n) (hn : n ≤ b.capacity) :
    (b.setShape s).Valid where
  count := by simp only [Buffer.setShape, Shape.count_eq hs]; exact hs
  strides := rfl
  size_le := by simp only [Buffer.setShape, Shape.count_eq hs]; exact hn
  owned := H.owned
  bare := H.bare
  borrowed := H.borrowed

/-- Whatever the buffer was, only its type and its device are left after a release. -/
theorem release_eq (b : Buffer) (h : Host) :
    b.release h = (empty b.type b.device, (b.release h).2) := rfl

/-- The buffer that an allocation leaves behind. -/
def owner (type : ElemType) (block : BlockId) (count bytes : Nat) : Buffer :=
  { empty type .cpu with
    address? := some ⟨block, 0⟩
    capacity := count
    blockBytes := bytes }

theorem valid_owner {type : ElemType} {block : BlockId} (hn : 0 < n)
    (hbytes : byteSize? type n = some bytes) : (owner type block n bytes).Valid where
  count := rfl
  strides := rfl
  size_le := Nat.zero_le _
  owned _ h := by cases h; exact ⟨rfl, hn, rfl, hbytes⟩
  bare _ h := nomatch h
  borrowed h := nomatch h

/-- The buffer that borrows the memory of another one. -/
theorem Valid.borrow {other : Buffer} (H : other.Valid) (b : Buffer) (h : Host) :
    (b.borrow other h).1.Valid where
  count := H.count
  strides := H.strides
  size_le := H.size_le
  owned h := nomatch h
  bare h := nomatch h
  borrowed _ := rfl

/-- The buffer that borrows memory for as many elements as a shape has. -/
def borrower (type : ElemType) (device : Device) (address : Option Address) (s : Shape) : Buffer :=
  { empty type device with
    address? := address
    isOwner := false
    capacity := s.count
    size := s.count
    shape := s
    strides := s.strides }

theorem valid_borrower {type : ElemType} {device : Device} {address : Option Address}
    (hs : s.count? = some n) : (borrower type device address s).Valid where
  count := by simp only [borrower, Shape.count_eq hs]; exact hs
  strides := rfl
  size_le := Nat.le_refl _
  owned h := nomatch h
  bare h := nomatch h
  borrowed _ := rfl

/-- Making a buffer borrow memory for a shape does not fail at the shape that it ends with. -/
theorem borrowAt_eq {t : ElemType} {address : Option Address} {h : Host} (ht : t = b.type)
    (hs : s.count? = some n) :
    b.borrowAt t address s h =
      .done () (borrower b.type b.device address s) (b.release h).2 := by
  have hok := Shape.checkedCount_eq_ok.mpr hs
  have hn := Shape.count_eq hs
  subst hn
  simp [borrowAt, ht, hok, reshape, Outcome.done]
  rfl

end Buffer

end NdBuffer
