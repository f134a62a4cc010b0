import NdBuffer.Error

/-! What is logged: changes of a buffer's memory and copies between devices. -/

namespace NdBuffer

inductive Level where
  | trace | debug | warn
  deriving DecidableEq

def Level.name : Level → String
  | trace => "TRACE"
  | debug => "DEBUG"
  | warn => "WARN"

inductive Event where
  /-- A buffer is about to be given memory for more elements. -/
  | growing (type : ElemType) (device : Device) (capacity count : Nat)
  | allocated (type : ElemType) (device : Device) (bytes : Nat)
  | releasing (type : ElemType) (device : Device) (bytes : Nat)
  /-- A copy of a buffer is made for another device. -/
  | transfer (source target : Device) (type : ElemType) (size : Nat)
  /-- Elements are copied from one device to another. -/
  | crossing (source target : Device) (count : Nat) (type : ElemType)
  /-- A block was to be returned under a layout that none can have, and stays. -/
  | leaking (layout : Layout)
  deriving DecidableEq

namespace Event

def level : Event → Level
  | growing .. | transfer .. | crossing .. => .debug
  | allocated .. | releasing .. => .trace
  | leaking _ => .warn

def message : Event → String
  | growing .. => "growing buffer"
  | allocated .. => "allocated buffer"
  | releasing .. => "releasing buffer"
  | transfer .. => "device transfer"
  | crossing .. => "cross-device copy"
  | leaking layout => "leaking host block: " ++ (MemoryError.invalidLayout layout).message

/-- The details of the event, by name. -/
def fields : Event → List (String × String)
  | growing type device capacity count =>
    [("dtype", type.name), ("device", device.name), ("from", capacity.repr), ("to", count.repr)]
  | allocated type device bytes | releasing type device bytes =>
    [("dtype", type.name), ("device", device.name), ("nbytes", bytes.repr)]
  | transfer source target type size =>
    [("from", source.name), ("to", target.name), ("dtype", type.name), ("size", size.repr)]
  | crossing source target count type =>
    [("from", source.name), ("to", target.name), ("count", count.repr), ("dtype", type.name)]
  | leaking layout => [("nbytes", layout.bytes.repr), ("align", layout.alignment.repr)]

end Event

end NdBuffer
