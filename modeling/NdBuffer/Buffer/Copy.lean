import NdBuffer.Buffer.Read
import NdBuffer.Buffer.Resize
import NdBuffer.Buffer.Write

/-! Copies, views and moves of buffers. Elements can only be copied from host memory to host memory;
a copy of no elements succeeds everywhere. -/

namespace NdBuffer

/-- Where elements are copied from: memory of a device, or values in the hand of the caller. -/
inductive Source (t : ElemType) where
  | memory (address : Option Address)
  | values (vs : List (Elem t))

/-- Copies `count` elements within host memory. -/
def Source.deliver {t : ElemType} (s : Source t) (target : Option Address) (count : Nat)
    (h : Heap) : Heap :=
  match s, target with
  | memory (some a), some target => h.copy a target (count * t.width)
  | values vs, some target => h.store target vs
  | _, _ => h

/-- Copies `count` elements from one device to another. -/
def transfer {t : ElemType} (count : Nat) (source : Device) (s : Source t) (target : Device)
    (address : Option Address) (h : Host) : Except Error Unit × Host :=
  if count = 0 then (.ok (), h)
  else
    let h := if source = target then h else h.record (.crossing source target count t)
    match source, target with
    | .cpu, .cpu => (.ok (), h.onHeap (s.deliver address count))
    | .cuda _, _ => (.error (.deviceUnavailable source), h)
    | .cpu, .cuda _ => (.error (.deviceUnavailable target), h)

namespace Buffer

variable {t : ElemType}

/-- Copies `count` elements, which must be as many as the buffer has. -/
def copyElements (b : Buffer) (s : Source t) (count : Nat) (source : Device) (h : Host) :
    Except Error Unit × Host :=
  if t ≠ b.type then (.error (.typeMismatch b.type t), h)
  else if count ≠ b.size then (.error (.sizeMismatch b.size count), h)
  else transfer count source s b.device b.address? h

/-- Copies values of the caller. -/
def copyValues (b : Buffer) (vs : List (Elem t)) (h : Host) : Except Error Unit × Host :=
  b.copyElements (.values vs) vs.length .cpu h

/-- Copies the elements of another buffer. -/
def copyFrom (b other : Buffer) (h : Host) : Except Error Unit × Host :=
  if other.type ≠ b.type then (.error (.typeMismatch b.type other.type), h)
  else
    let source : Source b.type := .memory other.address?
    b.copyElements source other.size other.device h

/-- The outcome of an operation that leaves the buffer itself as it is. -/
def unchanged {α : Type} (b : Buffer) (r : Except Error α × Host) : Outcome α := ⟨r.1, b, r.2⟩

/-- Lets go of the memory and borrows that of another buffer. -/
def borrow (b other : Buffer) (h : Host) : Buffer × Host :=
  let (b, h) := b.release h
  ({ b with
      type := other.type
      device := other.device
      address? := other.address?
      isOwner := false
      capacity := other.capacity
      blockBytes := 0
      size := other.size
      shape := other.shape
      strides := other.strides }, h)

/-- A buffer that borrows the memory of this one. -/
def view (b : Buffer) (h : Host) : Buffer × Host := (empty b.type b.device).borrow b h

/-- Lets go of the memory unless it is the buffer's own, for the type of another buffer and on its
device. -/
def makeWay (b other : Buffer) (h : Host) : Buffer × Host :=
  if b.type ≠ other.type ∨ b.device ≠ other.device ∨ b.isBorrowed then
    let (b, h) := b.release h
    ({ b with type := other.type, device := other.device }, h)
  else (b, h)

/-- Makes the buffer a copy of another one with memory of its own. Memory that need not be let go of
is kept if it is large enough. -/
def duplicate (b other : Buffer) (h : Host) : Outcome Unit :=
  let (b, h) := b.makeWay other h
  (b.resizeLike other h).andThen fun b h => b.unchanged (b.copyFrom other h)

/-- What is left of a buffer whose contents have been moved out. -/
def emptied (b : Buffer) : Buffer := empty b.type b.device

/-- Borrows memory of the buffer's device. -/
def borrowAt (b : Buffer) (t : ElemType) (address : Option Address) (s : Shape) (h : Host) :
    Outcome Unit :=
  if t ≠ b.type then .failed (.typeMismatch b.type t) b h
  else match s.checkedCount with
    | .error e => .failed e b h
    | .ok n =>
      let (b, h) := b.release h
      let borrower := { b with address? := address, isOwner := false, capacity := n, size := n }
      borrower.reshape s h

/-- Borrows an array of the host, which must have as many elements as the shape. -/
def borrowArray (b : Buffer) (t : ElemType) (address : Address) (length : Nat) (s : Shape)
    (h : Host) : Outcome Unit :=
  let check : Except Error Nat := do
    b.expectType t
    b.expectHost
    s.checkedCount
  match check with
  | .error e => .failed e b h
  | .ok n =>
    if n = length then b.borrowAt t (some address) s h
    else .failed (.sizeMismatch n length) b h

end Buffer

end NdBuffer
