import NdBuffer.Buffer.Build
import NdBuffer.Buffer.Read

/-! Comparing two buffers. Both are copied to the host first. Integers must be equal. So must floats
if the tolerance is not above zero; otherwise their difference must not exceed it. -/

namespace NdBuffer

/-- Whether two elements agree. -/
def Elem.close {t : ElemType} (tolerance : BitVec 64) (got expected : Elem t) : Bool :=
  if t.isFloat then
    if Binary.isPositive tolerance then got.value.within tolerance expected.value
    else got.value.equals expected.value
  else got == expected

/-- The first position at which two lists do not agree, and what is there. -/
def firstDifference? {α : Type} (agree : α → α → Bool) : List α → List α → Option (Nat × α × α)
  | x :: xs, y :: ys =>
    if agree x y then (firstDifference? agree xs ys).map fun d => (d.1 + 1, d.2) else some (0, x, y)
  | _, _ => none

namespace Buffer

/-- Compares the elements of two buffers on the host. -/
def compareData (got expected : Buffer) (tolerance : BitVec 64) (h : Heap) : Except Error Unit := do
  let xs ← got.data got.type h
  let ys ← expected.data got.type h
  match firstDifference? (Elem.close tolerance) xs ys with
  | none => return ()
  | some (i, x, y) => throw (.valueMismatch i x.text y.text)

/-- Checks that a buffer is what was expected. The copies are dropped in the end, the later one
first. -/
def checkClose (got expected : Buffer) (tolerance : BitVec 64) (h : Host) :
    Except Error Unit × Host :=
  if got.type ≠ expected.type then (.error (.typeMismatch expected.type got.type), h)
  else if got.shape ≠ expected.shape then
    (.error (.shapeMismatch expected.extents got.extents), h)
  else match got.copyTo .cpu h with
    | (.error e, h) => (.error e, h)
    | (.ok got, h) =>
      match expected.copyTo .cpu h with
      | (.error e, h) => (.error e, (got.release h).2)
      | (.ok expected, h) =>
        (got.compareData expected tolerance h.heap, (got.release (expected.release h).2).2)

end Buffer

end NdBuffer
