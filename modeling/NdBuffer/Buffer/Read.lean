import NdBuffer.Buffer.Basic

/-! Reading elements. A reader names the type that it expects, and all but `fetch` need memory
that the host can address. -/

namespace NdBuffer.Buffer

variable (t : ElemType)

/-- The elements in memory, as elements of type `t`. -/
def contents (b : Buffer) (h : Heap) : List (Elem t) :=
  match b.address? with
  | some a => h.elements t a b.size
  | none => []

/-- All elements. -/
def data (b : Buffer) (h : Heap) : Except Error (List (Elem t)) := do
  b.expectType t
  b.expectHost
  return b.contents t h

/-- The element at an offset. -/
def get (b : Buffer) (offset : Nat) (h : Heap) : Except Error (Elem t) := do
  let vs ← b.data t h
  match vs[offset]? with
  | some v => return v
  | none => throw (.outOfBounds offset b.size)

/-- The elements from some indices on. -/
def dataFrom (b : Buffer) (indices : List Nat) (h : Heap) : Except Error (List (Elem t)) := do
  let vs ← b.data t h
  let offset ← b.offset indices
  return vs.drop offset

/-- The element at some indices. -/
def getAt (b : Buffer) (indices : List Nat) (h : Heap) : Except Error (Elem t) := do
  let vs ← b.data t h
  let offset ← b.offset indices
  match vs[offset]? with
  | some v => return v
  | none => throw (.outOfBounds offset b.size)

/-- The element at some indices, read through the device. -/
def fetch (b : Buffer) (indices : List Nat) (h : Heap) : Except Error (Elem t) := do
  b.expectType t
  let offset ← b.offset indices
  if b.device.isCuda then throw (.deviceUnavailable b.device)
  match b.address? with
  | some a => return h.element t (a.advance (offset * t.width))
  | none => throw (.outOfBounds offset b.size)

end NdBuffer.Buffer
