import NdBuffer.Count

/-! Rounding byte counts up to an alignment. -/

namespace NdBuffer

/-- The alignment in bytes of every block that a buffer owns. -/
def standardAlignment : Nat := 64

/-- The least multiple of a power of two `alignment` that is not below `n`, if it is a count. The
sum is cleared in the bits below `alignment`, which is also done if `alignment` is no power of
two. -/
def roundUp? (n alignment : Nat) : Option Nat :=
  (Count.add? n (alignment - 1)).map fun sum => sum - (sum &&& (alignment - 1))

end NdBuffer
