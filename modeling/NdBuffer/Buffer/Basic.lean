import NdBuffer.Alignment
import NdBuffer.Host
import NdBuffer.Shape.Index

/-! Buffers. A buffer has an element type, a device and a shape, and it owns memory, borrows memory
that belongs to something else, or has none. It may have room for more elements than its shape
describes. The size and the strides are kept beside the shape that they belong to; an operation
writes the fields that it changes one by one. -/

namespace NdBuffer

structure Buffer where
  type : ElemType
  device : Device
  /-- Where the first element is. There is no address without memory, also if the buffer borrows
  from one that has none. -/
  address? : Option Address
  /-- Whether memory of the buffer is its own. A buffer without memory counts as an owner unless it
  was made to borrow. -/
  isOwner : Bool
  /-- The number of elements that there is room for. -/
  capacity : Nat
  /-- The bytes of the block that the buffer owns, and zero if it owns none. -/
  blockBytes : Nat
  /-- The number of elements. -/
  size : Nat
  shape : Shape
  strides : List Nat
  deriving DecidableEq

/-- What an operation on a buffer leaves behind: its result or its failure, and in either case the
buffer and the host. -/
structure Outcome (α : Type) where
  result : Except Error α
  buffer : Buffer
  host : Host

namespace Outcome

variable {α β : Type}

def done (value : α) (b : Buffer) (h : Host) : Outcome α := ⟨.ok value, b, h⟩

def failed (e : Error) (b : Buffer) (h : Host) : Outcome α := ⟨.error e, b, h⟩

/-- Goes on with the buffer and the host unless the operation has failed. -/
def andThen (o : Outcome α) (next : Buffer → Host → Outcome β) : Outcome β :=
  match o.result with
  | .ok _ => next o.buffer o.host
  | .error e => .failed e o.buffer o.host

end Outcome

namespace Buffer

/-- The buffer without elements and without memory. -/
def empty (type : ElemType) (device : Device) : Buffer where
  type
  device
  address? := none
  isOwner := true
  capacity := 0
  blockBytes := 0
  size := 0
  shape := .empty
  strides := []

def rank (b : Buffer) : Nat := b.shape.rank

def extents (b : Buffer) : List Nat := b.shape.extents

/-- The bytes set aside for the buffer. -/
def reserved (b : Buffer) : Nat :=
  if b.isOwner then b.blockBytes else Count.capped (b.capacity * b.type.width)

/-- Whether the buffer has memory to return. -/
def ownsMemory (b : Buffer) : Bool := b.isOwner && b.address?.isSome

def isBorrowed (b : Buffer) : Bool := !b.isOwner

def isScalar (b : Buffer) : Bool := b.size == 1 && b.rank == 1

def isEmpty (b : Buffer) : Bool := b.size == 0

/-- Whether there is no memory at all, neither owned nor borrowed. -/
def isNull (b : Buffer) : Bool := b.address?.isNone

/-- The stride of an axis, or nothing at all if there is no stride at its position. -/
def strideAt (b : Buffer) (axis : Int) : Option (Except Error Nat) :=
  match b.shape.position axis with
  | .error e => some (.error e)
  | .ok i => b.strides[i.val]?.map .ok

/-- The offset of the element at the given indices, which must lie among the elements. -/
def offset (b : Buffer) (indices : List Nat) : Except Error Nat :=
  if b.rank < indices.length then .error (.invalidAxis (indices.length - 1) b.rank)
  else match Shape.weigh? indices b.strides with
    | none => .error (.outOfBounds Count.top b.size)
    | some n => if n < b.size then .ok n else .error (.outOfBounds n b.size)

def expectType (b : Buffer) (t : ElemType) : Except Error Unit :=
  if t = b.type then .ok () else .error (.typeMismatch b.type t)

def expectHost (b : Buffer) : Except Error Unit :=
  if b.device.isHost then .ok () else .error (.notHostAddressable b.device)

/-- The summary in one line. It calls a buffer without memory an owner. -/
def label (b : Buffer) : String :=
  s!"TensorBuffer(dtype={b.type.name}, device={b.device.name}, shape={b.shape.text}, " ++
    s!"capacity={b.capacity}, owned={b.isOwner})"

end Buffer

end NdBuffer
