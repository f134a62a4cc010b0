import NdBuffer.Shape.Basic

/-! Axes and offsets. An axis is counted from the first one, or from behind the last one if it is
negative. A list of indices, one for each of the leading axes, weighed with the strides of the axes
gives an offset. -/

namespace NdBuffer.Shape

/-- The position of an axis. -/
def position (s : Shape) (axis : Int) : Except Error (Fin s.rank) :=
  let place := if axis < 0 then axis + s.rank else axis
  if h : 0 ≤ place ∧ place < s.rank then .ok ⟨place.toNat, by omega⟩
  else .error (.invalidAxis axis s.rank)

/-- The extent of an axis. -/
def extent (s : Shape) (axis : Int) : Except Error Nat :=
  (s.position axis).map fun i => s.extents.get (i.cast s.length_extents.symm)

/-- The extent of the axis at a position. -/
def extentAt (s : Shape) (axis : Nat) : Except Error Nat :=
  match s.extents[axis]? with
  | some d => .ok d
  | none => .error (.invalidAxis (Count.signed axis) s.rank)

/-- The shape with the extent at a position replaced. -/
def setExtent (s : Shape) (axis : Nat) (size : UInt64) : Except Error Shape :=
  if axis < s.rank then .ok ⟨s.dims.set axis size⟩
  else .error (.invalidAxis (Count.signed axis) s.rank)

/-- The sum of index times stride, as long as no product and no partial sum is too large. -/
def weigh? (indices strides : List Nat) : Option Nat :=
  (indices.zip strides).foldlM
    (fun sum p => (Count.mul? p.1 p.2).bind fun part => Count.add? part sum) 0

end NdBuffer.Shape
