import NdBuffer.Device
import NdBuffer.ElemType
import NdBuffer.Heap.Layout

/-! The ways in which an operation on a shape, a buffer or a block of memory can fail, and their
wording. -/

namespace NdBuffer

/-- Failures of the memory of a device. -/
inductive MemoryError where
  | invalidLayout (layout : Layout)
  | outOfMemory (layout : Layout)
  | deviceInit (detail : String)
  | failed (detail : String)
  deriving DecidableEq

def MemoryError.message : MemoryError → String
  | invalidLayout l => s!"invalid allocation layout: {l.bytes} bytes aligned to {l.alignment}"
  | outOfMemory l => s!"out of memory allocating {l.bytes} bytes (align {l.alignment})"
  | deviceInit detail => "device init failed: " ++ detail
  | failed detail => "device memory error: " ++ detail

/-- The extents of a shape in brackets. -/
def bracketed (extents : List Nat) : String :=
  "[" ++ ", ".intercalate (extents.map Nat.repr) ++ "]"

inductive Error where
  /-- The elements asked for are not of the type that the buffer holds. -/
  | typeMismatch (expected got : ElemType)
  | outOfBounds (offset size : Nat)
  | invalidReshape (count : Nat) (extents : List Nat)
  | sizeMismatch (expected got : Nat)
  /-- The element count of a shape is too large. -/
  | shapeOverflow (extents : List Nat)
  /-- The byte count of a number of elements is too large. -/
  | capacityOverflow (count : Nat) (type : ElemType)
  | invalidAxis (axis : Int) (rank : Nat)
  | invalidShrink (axis size amount : Nat)
  | borrowedGrowth (capacity requested : Nat)
  | notHostAddressable (device : Device)
  | deviceUnavailable (device : Device)
  | shapeMismatch (expected got : List Nat)
  | valueMismatch (index : Nat) (got expected : String)
  | parse (detail : String)
  | memory (error : MemoryError)
  deriving DecidableEq

def Error.message : Error → String
  | typeMismatch expected got =>
    s!"dtype mismatch: buffer holds {expected.name}, got {got.name}"
  | outOfBounds offset size => s!"index out of bounds: offset {offset} for buffer of size {size}"
  | invalidReshape count extents =>
    s!"cannot reshape {count} elements into shape {bracketed extents}"
  | sizeMismatch expected got =>
    s!"size mismatch: destination holds {expected} elements, source has {got}"
  | shapeOverflow extents => s!"element count of shape {bracketed extents} overflows usize"
  | capacityOverflow count type =>
    s!"cannot allocate {count} elements of {type.name}: byte size overflows usize"
  | invalidAxis axis rank => s!"dimension {axis} out of range for rank {rank}"
  | invalidShrink axis size amount =>
    s!"cannot shrink dimension {axis} of size {size} by {amount}"
  | borrowedGrowth capacity requested =>
    s!"borrowed buffer of capacity {capacity} cannot grow to {requested} elements"
  | notHostAddressable device =>
    s!"memory on {device.name} is not host-addressable; copy it to cpu first"
  | deviceUnavailable device => s!"device {device.name} is not available in this build"
  | shapeMismatch expected got =>
    s!"shape mismatch: expected {bracketed expected}, got {bracketed got}"
  | valueMismatch index got expected =>
    s!"value mismatch at index {index}: got {got}, expected {expected}"
  | parse detail => "parse error: " ++ detail
  | memory error => error.message

end NdBuffer
