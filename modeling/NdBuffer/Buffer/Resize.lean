import NdBuffer.Buffer.Basic

/-! Changing the shape and the capacity. A shape that there is room for leaves the memory as it is.
A larger one replaces it by a new zeroed block, and what was in the old memory is lost. -/

namespace NdBuffer.Buffer

/-- Drops the shape and keeps the memory. -/
def clear (b : Buffer) : Buffer := { b with size := 0, shape := .empty, strides := [] }

def setShape (b : Buffer) (s : Shape) : Buffer :=
  { b with size := s.count, strides := s.strides, shape := s }

/-- Returns a block to the device that it is on. Only the host has blocks to be returned. -/
def returnBlock (device : Device) (block : BlockId) (bytes : Nat) (h : Host) : Host :=
  match device with
  | .cpu => h.free block ⟨bytes, standardAlignment⟩
  | .cuda _ => h

/-- Returns the memory that the buffer owns, or lets go of what it borrows. -/
def release (b : Buffer) (h : Host) : Buffer × Host :=
  let h :=
    match b.address? with
    | some a =>
      if b.isOwner then
        returnBlock b.device a.block b.blockBytes
          (h.record (.releasing b.type b.device b.blockBytes))
      else h
    | none => h
  let bare := { b with address? := none, isOwner := true, capacity := 0, blockBytes := 0 }
  (bare.clear, h)

/-- The bytes of a block for `count` elements. -/
def byteSize? (type : ElemType) (count : Nat) : Option Nat :=
  (Count.mul? count type.width).bind (roundUp? · standardAlignment)

/-- Replaces the memory by a new block for `count` elements. Whether their bytes can be counted is
checked before the old memory is given up. -/
def allocate (b : Buffer) (count : Nat) (h : Host) : Outcome Unit :=
  match byteSize? b.type count with
  | none => .failed (.capacityOverflow count b.type) b h
  | some bytes =>
    let (b, h) := b.release h
    if count = 0 then .done () b h
    else if b.device.isCuda then .failed (.deviceUnavailable b.device) b h
    else match h.heap.alloc ⟨bytes, standardAlignment⟩ with
      | .error e => .failed (.memory e) b h
      | .ok (block, heap) =>
        let owner :=
          { b with
              address? := some ⟨block, 0⟩
              isOwner := true
              capacity := count
              blockBytes := bytes }
        .done () owner ({ h with heap }.record (.allocated b.type b.device bytes))

/-- Gives the buffer another shape for the same number of elements. -/
def reshape (b : Buffer) (s : Shape) (h : Host) : Outcome Unit :=
  match s.checkedCount with
  | .error e => .failed e b h
  | .ok n =>
    if n = b.size then .done () (b.setShape s) h
    else .failed (.invalidReshape b.size s.extents) b h

/-- Gives the buffer a shape, with new memory if there is no room for it. Borrowed memory is not
replaced, except that a buffer which has borrowed from one without memory may get some. -/
def resize (b : Buffer) (s : Shape) (h : Host) : Outcome Unit :=
  match s.checkedCount with
  | .error e => .failed e b h
  | .ok n =>
    if n ≤ b.capacity then .done () (b.setShape s) h
    else if b.isBorrowed ∧ ¬ b.isNull then .failed (.borrowedGrowth b.capacity n) b h
    else (b.allocate n (h.record (.growing b.type b.device b.capacity n))).andThen fun b h =>
      .done () (b.setShape s) h

def resizeAxis (b : Buffer) (axis : Nat) (extent : UInt64) (h : Host) : Outcome Unit :=
  match b.shape.setExtent axis extent with
  | .error e => .failed e b h
  | .ok s => b.resize s h

/-- Gives the buffer the shape of another one. -/
def resizeLike (b other : Buffer) (h : Host) : Outcome Unit := b.resize other.shape h

/-- Makes one extent larger. -/
def grow (b : Buffer) (axis extra : Nat) (h : Host) : Outcome Unit :=
  match b.shape.extentAt axis with
  | .error e => .failed e b h
  | .ok d =>
    match Count.add? d extra with
    | none => .failed (.shapeOverflow b.extents) b h
    | some n => b.resizeAxis axis (.ofNat n) h

/-- Makes one extent smaller. -/
def shrink (b : Buffer) (axis amount : Nat) (h : Host) : Outcome Unit :=
  match b.shape.extentAt axis with
  | .error e => .failed e b h
  | .ok d =>
    if amount ≤ d then b.resizeAxis axis (.ofNat (d - amount)) h
    else .failed (.invalidShrink axis d amount) b h

/-- Makes room for `count` elements. New memory comes without a shape, also if the old memory was
borrowed. -/
def reserve (b : Buffer) (count : Nat) (h : Host) : Outcome Unit :=
  if count ≤ b.capacity then .done () b h else b.allocate count h

end NdBuffer.Buffer
