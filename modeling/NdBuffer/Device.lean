/-! The memory spaces that a buffer can live in. -/

namespace NdBuffer

/-- Host memory, or the memory of the accelerator with a given index. -/
inductive Device where
  | cpu
  | cuda (index : UInt64)
  deriving DecidableEq, Inhabited

namespace Device

def isCpu : Device → Bool
  | cpu => true
  | cuda _ => false

def isCuda (d : Device) : Bool := !d.isCpu

def cudaIndex? : Device → Option UInt64
  | cpu => none
  | cuda index => some index

/-- Only host memory can be read and written in place. -/
def isHost (d : Device) : Bool := d.isCpu

/-- The written name: `cpu`, or `cuda:` and the index. -/
def name : Device → String
  | cpu => "cpu"
  | cuda index => "cuda:" ++ index.toNat.repr

/-- The constructor and its index. -/
def label : Device → String
  | cpu => "Cpu"
  | cuda index => "Cuda(" ++ index.toNat.repr ++ ")"

theorem isHost_iff {d : Device} : d.isHost ↔ d = cpu := by
  cases d <;> simp [isHost, isCpu]

theorem isCuda_eq_false {d : Device} : d.isCuda = false ↔ d = cpu := by
  cases d <;> simp [isCuda, isCpu]

end Device

end NdBuffer
