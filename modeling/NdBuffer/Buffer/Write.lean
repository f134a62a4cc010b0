import NdBuffer.Buffer.Read

/-! Writing elements. A write that fails changes nothing; one that succeeds changes the memory of
the host and leaves the buffer itself as it was. -/

namespace NdBuffer.Buffer

variable {t : ElemType}

/-- Puts elements in place of those from an offset on. -/
def overwrite (b : Buffer) (offset : Nat) (vs : List (Elem t)) (h : Host) : Host :=
  match b.address? with
  | some a => h.onHeap (·.store (a.advance (offset * t.width)) vs)
  | none => h

/-- Sets every element. -/
def fill (b : Buffer) (v : Elem t) (h : Host) : Except Error Host := do
  b.expectType t
  if b.size = 0 then return h
  if b.device.isCuda then throw (.deviceUnavailable b.device)
  return b.overwrite 0 (List.replicate b.size v) h

/-- Sets the element at an offset, and gives the old one. -/
def set (b : Buffer) (offset : Nat) (v : Elem t) (h : Host) : Except Error (Elem t × Host) := do
  let old ← b.get t offset h.heap
  return (old, b.overwrite offset [v] h)

/-- Sets the element at some indices, and gives the old one. The indices are looked at before the
type and the device. -/
def setAt (b : Buffer) (indices : List Nat) (v : Elem t) (h : Host) :
    Except Error (Elem t × Host) := do
  let offset ← b.offset indices
  let old ← b.get t offset h.heap
  return (old, b.overwrite offset [v] h)

/-- Replaces elements from some indices on, as many as there are of both, and gives the number of
elements from there on. The indices are looked at before the type and the device. -/
def setDataFrom (b : Buffer) (indices : List Nat) (vs : List (Elem t)) (h : Host) :
    Except Error (Nat × Host) := do
  let offset ← b.offset indices
  let old ← b.data t h.heap
  let count := old.length - offset
  return (count, b.overwrite offset (vs.take count) h)

/-- Replaces elements from the first on, as many as there are of both, and gives their number. -/
def setData (b : Buffer) (vs : List (Elem t)) (h : Host) : Except Error (Nat × Host) := do
  let old ← b.data t h.heap
  return (old.length, b.overwrite 0 (vs.take old.length) h)

end NdBuffer.Buffer
