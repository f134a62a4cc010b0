import NdBuffer.Count
import NdBuffer.Error

/-! Shapes: the extents of a buffer along its axes. A shape without axes describes no elements. The
elements of any other shape are laid out row by row: the stride of an axis is the product of the
extents after it. -/

namespace NdBuffer

structure Shape where
  dims : List UInt64
  deriving DecidableEq

namespace Shape

def empty : Shape := ⟨[]⟩

/-- The shape with one axis. -/
def line (n : UInt64) : Shape := ⟨[n]⟩

def rank (s : Shape) : Nat := s.dims.length

def extents (s : Shape) : List Nat := s.dims.map UInt64.toNat

/-- The product of extents, as long as the product of no leading part is too large. -/
def product? (extents : List Nat) : Option Nat := extents.foldlM Count.mul? 1

/-- The number of elements, if it can be counted. -/
def count? (s : Shape) : Option Nat := if s.dims = [] then some 0 else product? s.extents

/-- The number of elements, or the largest count in its place. -/
def count (s : Shape) : Nat := s.count?.getD Count.top

def checkedCount (s : Shape) : Except Error Nat :=
  match s.count? with
  | some n => .ok n
  | none => .error (.shapeOverflow s.extents)

/-- The elements between two neighbours on an axis with these extents after it, or the largest
count if there are more. -/
def stride : List Nat → Nat
  | [] => 1
  | d :: ds => Count.capped (stride ds * d)

def stridesOf : List Nat → List Nat
  | [] => []
  | _ :: ds => stride ds :: stridesOf ds

/-- The stride of every axis. -/
def strides (s : Shape) : List Nat := stridesOf s.extents

def text (s : Shape) : String := bracketed s.extents

def label (s : Shape) : String := "Shape(" ++ s.text ++ ")"

@[simp] theorem length_extents (s : Shape) : s.extents.length = s.rank := List.length_map _

@[simp] theorem length_strides (s : Shape) : s.strides.length = s.rank := by
  have (ds : List Nat) : (stridesOf ds).length = ds.length := by
    induction ds with
    | nil => rfl
    | cons d ds ih => simp [stridesOf, ih]
  simp [strides, this]

@[simp] theorem count_empty : empty.count = 0 := rfl

theorem count_eq {s : Shape} {n : Nat} (h : s.count? = some n) : s.count = n := by
  simp [count, h]

theorem checkedCount_eq_ok {s : Shape} {n : Nat} : s.checkedCount = .ok n ↔ s.count? = some n := by
  unfold checkedCount
  split <;> simp [*]

theorem checkedCount_eq_error {s : Shape} {e : Error} :
    s.checkedCount = .error e ↔ s.count? = none ∧ e = .shapeOverflow s.extents := by
  unfold checkedCount
  split <;> simp [*, eq_comm]

end Shape

end NdBuffer
