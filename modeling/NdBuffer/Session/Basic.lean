import NdBuffer.Closeness
import NdBuffer.Session.Command
import NdBuffer.Table

/-! Sessions: buffers in numbered slots, and arrays of the host that they may borrow. A slot whose
buffer has been made to borrow from the buffer of another slot remembers that slot as its lender,
for as long as it borrows anything. -/

namespace NdBuffer

structure Slot where
  buffer : Buffer
  lender : Option Nat
  deriving DecidableEq

/-- The slot after a step. A buffer that has memory of its own, or no room at all, borrows from
nobody. -/
def Slot.settled (s : Slot) : Slot :=
  if s.buffer.ownsMemory ∨ s.buffer.capacity = 0 then { s with lender := none } else s

/-- An array of the host. -/
structure HostArray where
  block : BlockId
  type : ElemType
  length : Nat
  deriving DecidableEq

/-- A run of elements in memory. -/
structure Region where
  type : ElemType
  address : Address
  length : Nat
  /-- A number of bytes of which the address is a multiple. -/
  alignment : Nat
  /-- The slot whose buffer the memory is taken from, unless it is an array. -/
  lender : Option Nat
  deriving DecidableEq

namespace Region

/-- The same bytes as elements of a type, as many as there are of them. They have to be aligned. -/
def cast? (r : Region) (t : ElemType) : Option Region :=
  if t.width ∣ r.alignment then
    some { r with type := t, length := r.length * r.type.width / t.width }
  else none

end Region

structure Session where
  host : Host
  arrays : List HostArray
  slots : Table Slot

namespace Session

/-- Adds an array of the host. -/
def addArray (s : Session) {t : ElemType} (vs : List (Elem t)) : Session :=
  let (block, heap) := s.host.heap.adopt (vs.flatMap Elem.bytes)
  { s with host := { s.host with heap }, arrays := s.arrays ++ [⟨block, t, vs.length⟩] }

/-- The session with some arrays and no buffers. -/
def start (system : Allocator) (arrays : List ((t : ElemType) × List (Elem t))) : Session :=
  arrays.foldl (fun s a => s.addArray a.2) ⟨.empty system, [], ∅⟩

/-- Whether some slot borrows from this one. -/
def isLender (s : Session) (slot : Nat) : Bool :=
  s.slots.entries.any fun e => e.2.lender == some slot

def buffer? (s : Session) (slot : Nat) : Option Buffer := (s.slots.get? slot).map Slot.buffer

/-- The buffer of a slot other than `slot`. -/
def otherBuffer? (s : Session) (slot other : Nat) : Option Buffer :=
  if slot = other then none else s.buffer? other

def put (s : Session) (slot : Nat) (b : Buffer) (lender : Option Nat) : Session :=
  { s with slots := s.slots.put slot (Slot.settled ⟨b, lender⟩) }

/-- Releases what a slot holds, if it holds something. -/
def releaseSlot (s : Session) (slot : Nat) (h : Host) : Host :=
  match s.buffer? slot with
  | some b => (b.release h).2
  | none => h

/-- Where a part of an array is, if the array has such a part. -/
def region? (s : Session) (p : Part) : Option Region :=
  match s.arrays[p.array]? with
  | none => none
  | some a =>
    let offset := p.offset.getD 0
    let length := p.length.getD (a.length - offset)
    if offset + length ≤ a.length then
      some ⟨a.type, ⟨a.block, offset * a.type.width⟩, length, a.type.width, none⟩
    else none

/-- The memory of the buffer of a slot from an element on. The host has no elements of a buffer that
is elsewhere. A block is aligned as it was asked for. -/
def lentRegion? (s : Session) (slot offset : Nat) : Option (ElemType × Option Region) :=
  match s.buffer? slot with
  | none => none
  | some b =>
    match b.address? with
    | none => if offset = 0 then some (b.type, none) else none
    | some a =>
      if offset ≤ b.capacity then
        some (b.type, some
          { type := b.type
            address := a.advance (offset * b.type.width)
            length := if b.device.isCpu then b.capacity - offset else 0
            alignment :=
              if b.isOwner then standardAlignment.gcd (offset * b.type.width) else b.type.width
            lender := some slot })
      else none

/-- The type that memory is given with, and where it is unless there is none. -/
def memory? (s : Session) : Memory → Option (ElemType × Option Region)
  | .null t => some (t, none)
  | .part p => (s.region? p).map fun r => (r.type, some r)
  | .within slot offset => s.lentRegion? slot offset
  | .cast m t =>
    match s.memory? m with
    | some (_, none) => some (t, none)
    | some (_, some r) => (r.cast? t).map fun r => (t, some r)
    | none => none

/-- The elements of an array. -/
def arrayContents (s : Session) (a : HostArray) : List (Elem a.type) :=
  s.host.heap.elements a.type ⟨a.block, 0⟩ a.length

end Session

end NdBuffer
