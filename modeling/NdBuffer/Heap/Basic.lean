import NdBuffer.Element
import NdBuffer.Error

/-! Host memory. It consists of blocks, which are found by number. A block either is an array of the
caller or has been allocated. An allocated block is zeroed, and once it has been returned it holds
nothing and its number is not used again. Whether there is room for another block is for the system
to say. All reads and writes go through the bytes at addresses: `Heap.byte_write` says what a write
does to them. -/

namespace NdBuffer

abbrev BlockId := Nat

/-- A byte of a block, or the place behind its last one. -/
structure Address where
  block : BlockId
  offset : Nat
  deriving DecidableEq

def Address.advance (a : Address) (n : Nat) : Address := ⟨a.block, a.offset + n⟩

/-- What has become of a block: the layout that was asked for, if it has been allocated, and the
layouts under which it has been returned. -/
structure Usage where
  layout : Option Layout
  returned : List Layout
  deriving DecidableEq

/-- The system that memory comes from. Whether it gives a block of a layout may depend on all that
has been asked for and returned so far, the earliest first, and there is no layout that it has to
give. -/
abbrev Allocator := List Usage → Layout → Bool

/-- The system that gives whatever keeps below a bound, however much of it is in use. -/
def Allocator.below (bound : Nat) : Allocator := fun _ l => l.bytes < bound && l.alignment < bound

structure Block where
  /-- What was asked for, if the block has been allocated. -/
  layout : Option Layout
  bytes : Array UInt8
  /-- The layouts under which the block has been returned. -/
  returned : List Layout
  deriving DecidableEq

namespace Block

/-- What has been asked for and returned, without the bytes. -/
def usage (b : Block) : Usage := ⟨b.layout, b.returned⟩

def zeroed (l : Layout) : Block := ⟨some l, .replicate l.bytes 0, []⟩

def ofBytes (bytes : List UInt8) : Block := ⟨none, bytes.toArray, []⟩

/-- Whether the block has been allocated and not been returned yet. -/
def isOutstanding (b : Block) : Bool := b.layout.isSome && b.returned.isEmpty

/-- The byte at an offset, or zero behind the last one. -/
def byte (b : Block) (offset : Nat) : UInt8 := (b.bytes[offset]?).getD 0

/-- The block with the bytes from `offset` on replaced, as far as it reaches. -/
def overwrite (b : Block) (offset : Nat) (new : Array UInt8) : Block :=
  { b with bytes := b.bytes.mapIdx fun i old =>
      if offset ≤ i then (new[i - offset]?).getD old else old }

def giveBack (b : Block) (l : Layout) : Block :=
  { b with bytes := #[], returned := l :: b.returned }

@[simp] theorem size_overwrite (b : Block) (offset : Nat) (new : Array UInt8) :
    (b.overwrite offset new).bytes.size = b.bytes.size := by
  simp [overwrite]

theorem byte_overwrite (b : Block) (offset i : Nat) (new : Array UInt8) :
    (b.overwrite offset new).byte i =
      if offset ≤ i ∧ i < b.bytes.size then (new[i - offset]?).getD (b.byte i) else b.byte i := by
  by_cases hi : i < b.bytes.size <;> by_cases ho : offset ≤ i <;> simp [overwrite, byte, hi, ho]

end Block

structure Heap where
  blocks : List Block
  system : Allocator

namespace Heap

def empty (system : Allocator) : Heap := ⟨[], system⟩

/-- The heap with another block. -/
def add (h : Heap) (b : Block) : Heap := { h with blocks := h.blocks ++ [b] }

def usage (h : Heap) : List Usage := h.blocks.map Block.usage

/-- Whether a layout may be asked for and the system gives a block of it. -/
def Grants (h : Heap) (l : Layout) : Prop := l.Valid ∧ h.system h.usage l = true

instance (h : Heap) (l : Layout) : Decidable (h.Grants l) := inferInstanceAs (Decidable (_ ∧ _))

/-- The byte at an address, or zero if there is none. -/
def byte (h : Heap) (a : Address) : UInt8 := ((h.blocks[a.block]?).map (·.byte a.offset)).getD 0

/-- The number of bytes that a block holds. -/
def size (h : Heap) (id : BlockId) : Nat := ((h.blocks[id]?).map (·.bytes.size)).getD 0

/-- The numbers of the blocks that have been allocated and not been returned. -/
def outstanding (h : Heap) : List BlockId :=
  (List.range h.blocks.length).filter fun id => (h.blocks[id]?).any Block.isOutstanding

/-- A new zeroed block. -/
def alloc (h : Heap) (l : Layout) : Except MemoryError (BlockId × Heap) :=
  if ¬ l.Valid then .error (.invalidLayout l)
  else if ¬ h.Grants l then .error (.outOfMemory l)
  else .ok (h.blocks.length, h.add (.zeroed l))

/-- A new block that is an array of the caller. -/
def adopt (h : Heap) (bytes : List UInt8) : BlockId × Heap :=
  (h.blocks.length, h.add (.ofBytes bytes))

def giveBack (h : Heap) (id : BlockId) (l : Layout) : Heap :=
  { h with blocks := h.blocks.modify id (·.giveBack l) }

def bytesAt (h : Heap) (a : Address) (n : Nat) : List UInt8 :=
  (List.range n).map fun i => h.byte (a.advance i)

def content (h : Heap) (id : BlockId) : List UInt8 := h.bytesAt ⟨id, 0⟩ (h.size id)

def write (h : Heap) (a : Address) (new : List UInt8) : Heap :=
  { h with blocks := h.blocks.modify a.block (·.overwrite a.offset new.toArray) }

/-- Copies bytes. All are read before the first is written, so the two places may overlap. -/
def copy (h : Heap) (source target : Address) (n : Nat) : Heap :=
  h.write target (h.bytesAt source n)

def element (h : Heap) (t : ElemType) (a : Address) : Elem t := .ofBytes t (h.bytesAt a t.width)

def elements (h : Heap) (t : ElemType) (a : Address) (n : Nat) : List (Elem t) :=
  (List.range n).map fun i => h.element t (a.advance (i * t.width))

def store {t : ElemType} (h : Heap) (a : Address) (vs : List (Elem t)) : Heap :=
  h.write a (vs.flatMap Elem.bytes)

def fill {t : ElemType} (h : Heap) (a : Address) (v : Elem t) (n : Nat) : Heap :=
  h.store a (List.replicate n v)

@[simp] theorem blocks_add (h : Heap) (b : Block) : (h.add b).blocks = h.blocks ++ [b] := rfl

@[simp] theorem usage_add (h : Heap) (b : Block) : (h.add b).usage = h.usage ++ [b.usage] := by
  simp [usage]

@[simp] theorem usage_write (h : Heap) (a : Address) (new : List UInt8) :
    (h.write a new).usage = h.usage := by
  refine List.ext_getElem? fun i => ?_
  simp only [usage, write, List.getElem?_map, List.getElem?_modify]
  cases h.blocks[i]? with
  | none => rfl
  | some b => by_cases hi : a.block = i <;> simp [hi, Block.usage, Block.overwrite]

@[simp] theorem size_write (h : Heap) (a : Address) (new : List UInt8) (id : BlockId) :
    (h.write a new).size id = h.size id := by
  simp only [size, write, List.getElem?_modify]
  cases h.blocks[id]? with
  | none => rfl
  | some b => by_cases hid : a.block = id <;> simp [hid]

/-- A write changes the bytes that it covers and that exist, and no other byte. -/
theorem byte_write (h : Heap) (a b : Address) (new : List UInt8) :
    (h.write a new).byte b =
      if b.block = a.block ∧ a.offset ≤ b.offset ∧ b.offset < h.size b.block then
        (new[b.offset - a.offset]?).getD (h.byte b)
      else h.byte b := by
  simp only [byte, size, write, List.getElem?_modify]
  by_cases hb : b.block = a.block
  · cases hblock : h.blocks[a.block]? with
    | none => simp [hb, hblock]
    | some block => simp [hb, hblock, Block.byte_overwrite]
  · have : ¬ a.block = b.block := fun h => hb h.symm
    simp [hb, this]

end Heap

end NdBuffer
