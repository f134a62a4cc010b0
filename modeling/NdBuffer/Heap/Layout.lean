/-! What is asked of host memory: a number of bytes at an alignment. -/

namespace NdBuffer

/-- A number of bytes at a multiple of the alignment. -/
structure Layout where
  bytes : Nat
  alignment : Nat
  deriving DecidableEq

namespace Layout

/-- Half of the address space. -/
def extent : Nat := 1 <<< 63

/-- A layout asks for some bytes, at a power of two, such that the bytes rounded up to the
alignment do not pass half of the address space. -/
def Valid (l : Layout) : Prop :=
  0 < l.bytes ∧ 1 <<< l.alignment.log2 = l.alignment ∧ l.bytes + l.alignment ≤ extent

instance (l : Layout) : Decidable l.Valid := inferInstanceAs (Decidable (_ ∧ _ ∧ _))

end Layout

end NdBuffer
