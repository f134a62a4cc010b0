import NdBuffer.Proofs.Buffer.Valid

/-!
# How changes of shape and capacity end

One inductive predicate for each of the two operations that may replace the memory of a buffer,
`allocate` and `resize`, lists every way in which it can end, with its guards and with what it
leaves behind. The other operations of the family fail before they touch anything or end as a resize
does (`resizeAxis_cases`, `grow_cases`, `shrink_cases`).
-/

namespace NdBuffer

/-- Whether an error says that a device gives no memory. -/
def Error.isRefusal : Error → Bool
  | .memory _ | .deviceUnavailable _ => true
  | _ => false

namespace Buffer

variable {b : Buffer} {s : Shape} {h : Host}

/-- The ways in which `b.allocate n h` can end. -/
inductive Allocation (b : Buffer) (n : Nat) (h : Host) : Outcome Unit → Prop
  | overflow : byteSize? b.type n = none →
    Allocation b n h (.failed (.capacityOverflow n b.type) b h)
  | refused {e : Error} : e.isRefusal = true →
    Allocation b n h (.failed e (empty b.type b.device) (b.release h).2)
  | nothing : n = 0 → Allocation b n h (.done () (empty b.type b.device) (b.release h).2)
  | granted {bytes : Nat} {block : BlockId} {heap : Heap} : 0 < n → b.device = .cpu →
    byteSize? b.type n = some bytes →
    (b.release h).2.heap.alloc ⟨bytes, standardAlignment⟩ = .ok (block, heap) →
    Allocation b n h (.done () (owner b.type block n bytes)
      (Host.record { (b.release h).2 with heap } (.allocated b.type .cpu bytes)))

theorem allocation (b : Buffer) (n : Nat) (h : Host) : Allocation b n h (b.allocate n h) := by
  rw [allocate]
  split
  · exact .overflow ‹_›
  · rename_i bytes hbytes
    rw [release_eq]
    simp only []
    split
    · exact .nothing ‹_›
    · rename_i hn
      split
      · exact .refused rfl
      · rename_i hd
        have hd : b.device = .cpu := Device.isCuda_eq_false.mp (Bool.eq_false_iff.mpr hd)
        split
        · exact .refused rfl
        · have hb : empty b.type b.device = empty b.type .cpu := by rw [hd]
          rw [hb]
          exact .granted (Nat.pos_of_ne_zero hn) hd hbytes ‹_›

/-- The event that announces a resize to more elements than there is room for. -/
def growth (b : Buffer) (n : Nat) : Event := .growing b.type b.device b.capacity n

/-- The ways in which `b.resize s h` can end. -/
inductive Resizing (b : Buffer) (s : Shape) (h : Host) : Outcome Unit → Prop
  | overflow : s.count? = none → Resizing b s h (.failed (.shapeOverflow s.extents) b h)
  | kept {n : Nat} : s.count? = some n → n ≤ b.capacity →
    Resizing b s h (.done () (b.setShape s) h)
  | denied {n : Nat} : s.count? = some n → b.capacity < n → b.isBorrowed = true →
    b.isNull = false → Resizing b s h (.failed (.borrowedGrowth b.capacity n) b h)
  | tooLarge {n : Nat} : s.count? = some n → b.capacity < n →
    (b.isBorrowed = true → b.isNull = true) → byteSize? b.type n = none →
    Resizing b s h (.failed (.capacityOverflow n b.type) b (h.record (b.growth n)))
  | refused {n : Nat} {e : Error} : s.count? = some n → b.capacity < n →
    (b.isBorrowed = true → b.isNull = true) → e.isRefusal = true →
    Resizing b s h
      (.failed e (empty b.type b.device) (b.release (h.record (b.growth n))).2)
  | replaced {n bytes : Nat} {block : BlockId} {heap : Heap} : s.count? = some n →
    b.capacity < n → (b.isBorrowed = true → b.isNull = true) → b.device = .cpu →
    byteSize? b.type n = some bytes →
    (b.release (h.record (b.growth n))).2.heap.alloc ⟨bytes, standardAlignment⟩ =
      .ok (block, heap) →
    Resizing b s h (.done () ((owner b.type block n bytes).setShape s)
      (Host.record { (b.release (h.record (b.growth n))).2 with heap }
        (.allocated b.type .cpu bytes)))

theorem resizing (b : Buffer) (s : Shape) (h : Host) : Resizing b s h (b.resize s h) := by
  rw [resize]
  cases hs : s.checkedCount with
  | error e =>
    obtain ⟨hnone, rfl⟩ := Shape.checkedCount_eq_error.mp hs
    exact .overflow hnone
  | ok n =>
    have hs := Shape.checkedCount_eq_ok.mp hs
    simp only []
    split
    · exact .kept hs ‹_›
    · rename_i hn
      have hn := Nat.not_le.mp hn
      split
      · rename_i hb
        exact .denied hs hn hb.1 (by simpa using hb.2)
      · rename_i hb
        have hnull : b.isBorrowed = true → b.isNull = true := fun h1 => by simpa [h1] using hb
        have A := b.allocation n (h.record (b.growth n))
        generalize ho : b.allocate n (h.record (b.growth n)) = o at A
        rw [show b.allocate n (h.record (.growing b.type b.device b.capacity n)) = o from ho]
        cases A with
        | overflow hbytes => exact .tooLarge hs hn hnull hbytes
        | refused he => exact .refused hs hn hnull he
        | nothing h0 => omega
        | granted _ hd hbytes ha =>
          exact .replaced hs hn hnull hd hbytes ha

theorem resizeAxis_cases (b : Buffer) (axis : Nat) (extent : UInt64) (h : Host) :
    (∃ e, e.isRefusal = false ∧ b.resizeAxis axis extent h = .failed e b h) ∨
      ∃ s, b.resizeAxis axis extent h = b.resize s h := by
  unfold resizeAxis Shape.setExtent
  split
  · rename_i e he
    split at he
    · cases he
    · cases he
      exact .inl ⟨_, rfl, rfl⟩
  · exact .inr ⟨_, rfl⟩

theorem extentAt_error {axis : Nat} {e : Error} (he : s.extentAt axis = .error e) :
    e.isRefusal = false := by
  rw [Shape.extentAt] at he
  split at he <;> cases he
  rfl

theorem grow_cases (b : Buffer) (axis extra : Nat) (h : Host) :
    (∃ e, e.isRefusal = false ∧ b.grow axis extra h = .failed e b h) ∨
      ∃ s, b.grow axis extra h = b.resize s h := by
  rw [grow]
  split
  · exact .inl ⟨_, extentAt_error ‹_›, rfl⟩
  · split
    · exact .inl ⟨_, rfl, rfl⟩
    · exact b.resizeAxis_cases ..

theorem shrink_cases (b : Buffer) (axis amount : Nat) (h : Host) :
    (∃ e, e.isRefusal = false ∧ b.shrink axis amount h = .failed e b h) ∨
      ∃ s, b.shrink axis amount h = b.resize s h := by
  rw [shrink]
  split
  · exact .inl ⟨_, extentAt_error ‹_›, rfl⟩
  · split
    · exact b.resizeAxis_cases ..
    · exact .inl ⟨_, rfl, rfl⟩

theorem reshape_cases (b : Buffer) (s : Shape) (h : Host) :
    (∃ e, e.isRefusal = false ∧ b.reshape s h = .failed e b h) ∨
      s.count? = some b.size ∧ b.reshape s h = .done () (b.setShape s) h := by
  rw [reshape]
  split
  · rename_i hs
    obtain ⟨-, rfl⟩ := Shape.checkedCount_eq_error.mp hs
    exact .inl ⟨_, rfl, rfl⟩
  · rename_i hs
    split
    · rename_i hn
      exact .inr ⟨hn ▸ Shape.checkedCount_eq_ok.mp hs, rfl⟩
    · exact .inl ⟨_, rfl, rfl⟩

theorem borrowAt_cases (b : Buffer) (t : ElemType) (address : Option Address) (s : Shape)
    (h : Host) :
    (∃ e, e.isRefusal = false ∧ b.borrowAt t address s h = .failed e b h) ∨
      t = b.type ∧ (∃ n, s.count? = some n) ∧ b.borrowAt t address s h =
        .done () (borrower b.type b.device address s) (b.release h).2 := by
  by_cases ht : t = b.type
  · cases hs : s.count? with
    | none =>
      have he := Shape.checkedCount_eq_error.mpr ⟨hs, rfl⟩
      exact .inl ⟨.shapeOverflow s.extents, rfl, by simp [borrowAt, ht, he]⟩
    | some n => exact .inr ⟨ht, ⟨n, rfl⟩, borrowAt_eq ht hs⟩
  · exact .inl ⟨_, rfl, by rw [borrowAt, if_pos ht]⟩

/-- An array is borrowed as memory of the host is, once its length has been compared. -/
theorem borrowArray_cases (b : Buffer) (t : ElemType) (address : Address) (length : Nat)
    (s : Shape) (h : Host) :
    (∃ e, e.isRefusal = false ∧ b.borrowArray t address length s h = .failed e b h) ∨
      t = b.type ∧ b.device = .cpu ∧ s.count? = some length ∧ b.borrowArray t address length s h =
        .done () (borrower b.type b.device (some address) s) (b.release h).2 := by
  by_cases ht : t = b.type
  · by_cases hd : b.device.isHost
    · cases hs : s.count? with
      | none =>
        have he := Shape.checkedCount_eq_error.mpr ⟨hs, rfl⟩
        refine .inl ⟨.shapeOverflow s.extents, rfl, ?_⟩
        simp [borrowArray, expectType, expectHost, ht, hd, he, bind, Except.bind]
      | some n =>
        have hok := Shape.checkedCount_eq_ok.mpr hs
        by_cases hn : n = length
        · refine .inr ⟨ht, Device.isHost_iff.mp hd, hn ▸ rfl, ?_⟩
          rw [← borrowAt_eq ht hs]
          simp [borrowArray, expectType, expectHost, ht, hd, hok, hn, bind, Except.bind]
        · refine .inl ⟨.sizeMismatch n length, rfl, ?_⟩
          simp [borrowArray, expectType, expectHost, ht, hd, hok, hn, bind, Except.bind]
    · refine .inl ⟨.notHostAddressable b.device, rfl, ?_⟩
      simp [borrowArray, expectType, expectHost, ht, hd, bind, Except.bind]
  · refine .inl ⟨.typeMismatch b.type t, rfl, ?_⟩
    simp [borrowArray, expectType, ht, bind, Except.bind]

end Buffer

end NdBuffer
