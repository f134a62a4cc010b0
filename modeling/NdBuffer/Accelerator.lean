import NdBuffer.Element
import NdBuffer.Error

/-! What an accelerator decides on the host before its driver is asked: which allocations it
refuses, and which fills and copies have nothing to do. -/

namespace NdBuffer

structure Accelerator where
  ordinal : Nat
  deriving DecidableEq

/-- How far a request gets on the host. -/
inductive Decision where
  | refused (error : MemoryError)
  | nothingToDo
  | needsDriver
  deriving DecidableEq

namespace Accelerator

/-- The largest alignment that the driver guarantees. -/
def baseAlignment : Nat := 256

def label (a : Accelerator) : String :=
  "CudaPrimitives \x7b ordinal: " ++ a.ordinal.repr ++ " \x7d"

/-- An allocation of no bytes, or at an alignment that is no power of two or too large, is
refused. -/
def alloc (_ : Accelerator) (l : Layout) : Decision :=
  if l.bytes = 0 ∨ 1 <<< l.alignment.log2 ≠ l.alignment ∨ baseAlignment < l.alignment then
    .refused (.invalidLayout l)
  else .needsDriver

def fill (_ : Accelerator) (count : Nat) : Decision :=
  if count = 0 then .nothingToDo else .needsDriver

/-- A copy within the memory of the accelerator. -/
def copy (_ : Accelerator) (samePlace : Bool) (count : Nat) : Decision :=
  if count = 0 ∨ samePlace then .nothingToDo else .needsDriver

/-- A copy between the host and the accelerator, in either direction. -/
def exchange (_ : Accelerator) (count : Nat) : Decision :=
  if count = 0 then .nothingToDo else .needsDriver

/-- A copy from one accelerator to another. Addresses are compared on one accelerator only. -/
def copyTo (a target : Accelerator) (samePlace : Bool) (count : Nat) : Decision :=
  if a = target then a.copy samePlace count else a.exchange count

end Accelerator

end NdBuffer
