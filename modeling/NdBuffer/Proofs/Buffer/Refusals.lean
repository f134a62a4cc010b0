import NdBuffer.Accelerator
import NdBuffer.Proofs.Buffer.Valid

/-!
# Requests for memory that are refused

The host and an accelerator look at a request for memory each in its own way before they go on with
it. Both want some bytes at a power of two. Beyond that the host limits the bytes and the alignment
together, an accelerator the alignment alone, so where neither limit is passed they agree. A buffer
asks for whole multiples of its alignment, which no accelerator refuses
(`Accelerator.alloc_byteSize?`).
-/

namespace NdBuffer

variable {l l' : Layout} {e : MemoryError} {n bytes : Nat}

/-- Shifting one bit to the place of the highest bit gives the number back if there is no other. -/
theorem one_shiftLeft_log2_iff : 1 <<< n.log2 = n ↔ n.isPowerOfTwo := by
  constructor
  · intro h
    exact ⟨n.log2, by rw [← Nat.one_shiftLeft, h]⟩
  · rintro ⟨k, rfl⟩
    rw [Nat.log2_two_pow, Nat.one_shiftLeft]

theorem Layout.not_valid_iff :
    ¬ l.Valid ↔
      l.bytes = 0 ∨ ¬ l.alignment.isPowerOfTwo ∨ extent < l.bytes + l.alignment := by
  rw [Valid, one_shiftLeft_log2_iff, Classical.not_and_iff_not_or_not,
    Classical.not_and_iff_not_or_not, Nat.not_lt, Nat.le_zero, Nat.not_le]

/-- The allocator calls a layout invalid if it is. -/
theorem Heap.alloc_eq_invalidLayout_iff {m : Heap} :
    m.alloc l = .error (.invalidLayout l') ↔ ¬ l.Valid ∧ l' = l := by
  rw [alloc]
  split
  · rename_i hv
    rw [and_iff_right hv]
    simp [eq_comm]
  · rename_i hv
    rw [not_not] at hv
    split <;> simp [hv]

namespace Accelerator

variable {a : Accelerator}

theorem alloc_eq_refused_iff :
    a.alloc l = .refused e ↔ (l.bytes = 0 ∨ ¬ l.alignment.isPowerOfTwo ∨
      baseAlignment < l.alignment) ∧ e = .invalidLayout l := by
  rw [← one_shiftLeft_log2_iff, alloc]
  split
  · rename_i h
    rw [and_iff_right h, Decision.refused.injEq, eq_comm]
  · rename_i h
    constructor
    · intro hrefused
      cases hrefused
    · rintro ⟨hout, -⟩
      exact absurd hout h

/-- What is not refused is asked of the driver. -/
theorem alloc_eq_needsDriver (h : ∀ e, a.alloc l ≠ .refused e) : a.alloc l = .needsDriver := by
  rw [alloc] at h ⊢
  split at h
  · exact absurd rfl (h _)
  · rename_i hin
    exact if_neg hin

/-- The bytes of a block for some elements are some bytes, at an alignment that an accelerator
has. -/
theorem alloc_byteSize? {type : ElemType} (hn : 0 < n)
    (hbytes : Buffer.byteSize? type n = some bytes) :
    a.alloc ⟨bytes, standardAlignment⟩ = .needsDriver := by
  have hle : n * type.width ≤ bytes := (Buffer.isLeast_of_byteSize? hbytes).1.2
  have hpos : 0 < bytes := Nat.lt_of_lt_of_le (Nat.mul_pos hn type.width_pos) hle
  have hpower : standardAlignment.isPowerOfTwo := ⟨6, rfl⟩
  refine alloc_eq_needsDriver fun e he => ?_
  rcases (alloc_eq_refused_iff.mp he).1 with hzero | hodd | hlarge
  · exact Nat.ne_of_gt hpos hzero
  · exact hodd hpower
  · have hbase : standardAlignment ≤ baseAlignment := by decide
    exact Nat.not_lt.mpr hbase hlarge

end Accelerator

/-- Who refuses which request. The host calls a layout invalid if it asks for no bytes, or at an
alignment that is no power of two, or if bytes and alignment together pass half of the address
space. An accelerator refuses it, with the same error, if it asks for no bytes, or at an alignment
that is no power of two or above 256, and asks its driver otherwise. So they refuse the same
requests up to the limits on bytes and alignment. And whatever a buffer needs for some elements, it
is not refused by an accelerator. -/
theorem refusing (m : Heap) (a : Accelerator) (l : Layout) :
    (∀ l', m.alloc l = .error (.invalidLayout l') ↔
        (l.bytes = 0 ∨ ¬ l.alignment.isPowerOfTwo ∨ 1 <<< 63 < l.bytes + l.alignment) ∧ l' = l) ∧
      (∀ e, a.alloc l = .refused e ↔
        (l.bytes = 0 ∨ ¬ l.alignment.isPowerOfTwo ∨ 256 < l.alignment) ∧ e = .invalidLayout l) ∧
      ((∀ e, a.alloc l ≠ .refused e) → a.alloc l = .needsDriver) ∧
      (l.alignment ≤ 256 → l.bytes + l.alignment ≤ 1 <<< 63 → ∀ l',
        m.alloc l = .error (.invalidLayout l') ↔ a.alloc l = .refused (.invalidLayout l')) ∧
      ∀ type n bytes, 0 < n → Buffer.byteSize? type n = some bytes →
        a.alloc ⟨bytes, standardAlignment⟩ = .needsDriver := by
  have hhost (l' : Layout) : m.alloc l = .error (.invalidLayout l') ↔ (l.bytes = 0 ∨
      ¬ l.alignment.isPowerOfTwo ∨ Layout.extent < l.bytes + l.alignment) ∧ l' = l := by
    rw [Heap.alloc_eq_invalidLayout_iff, Layout.not_valid_iff]
  refine ⟨hhost, fun e => Accelerator.alloc_eq_refused_iff,
    Accelerator.alloc_eq_needsDriver, fun halign hbytes l' => ?_,
    fun type n bytes => Accelerator.alloc_byteSize?⟩
  have hroom : ¬ Layout.extent < l.bytes + l.alignment := Nat.not_lt.mpr hbytes
  have hbase : ¬ Accelerator.baseAlignment < l.alignment := Nat.not_lt.mpr halign
  rw [hhost, Accelerator.alloc_eq_refused_iff, MemoryError.invalidLayout.injEq]
  simp only [hroom, hbase]

end NdBuffer
