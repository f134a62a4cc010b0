import NdBuffer.Host
import NdBuffer.Table

/-! Calls on host memory by number: the blocks that have been allocated and not been freed are held
under numbers, and a call names the block that it is about. -/

namespace NdBuffer

/-- A call on host memory. Offsets and counts are in elements of the type. -/
inductive MemoryCall where
  | alloc (handle : Nat) (layout : Layout)
  | free (handle : Nat) (layout : Layout)
  | fill (handle : Nat) {t : ElemType} (offset count : Nat) (v : Elem t)
  | copy (source : Nat) (t : ElemType) (offset target targetOffset count : Nat)
  | read (handle : Nat) (t : ElemType) (offset : Nat)

inductive MemoryReply where
  /-- The bytes of the block that the call has changed. -/
  | content (bytes : List UInt8)
  | refused (error : MemoryError)
  /-- Whether the block is still there. -/
  | alive (still : Bool)
  | element {t : ElemType} (v : Elem t)
  /-- The call does not keep to the rules of host memory. -/
  | misuse

/-- Host memory, and the blocks that are held. -/
structure Arena where
  host : Host
  handles : Table BlockId

namespace Arena

def empty (system : Allocator) : Arena := ⟨.empty system, ∅⟩

/-- Whether a block has `count` elements of a type from an offset on. -/
def reaches (a : Arena) (block : BlockId) (t : ElemType) (offset count : Nat) : Bool :=
  (offset + count) * t.width ≤ a.host.heap.size block

/-- The layout that a block was allocated with. -/
def layout? (a : Arena) (block : BlockId) : Option Layout :=
  (a.host.heap.blocks[block]?).bind Block.layout

def onHeap (a : Arena) (f : Heap → Heap) : Arena := { a with host := a.host.onHeap f }

/-- Carries out a call. A block may only be freed with the layout that it was allocated with, or
with one that no block can have. -/
def step (a : Arena) : MemoryCall → Arena × MemoryReply
  | .alloc handle layout =>
    if a.handles.contains handle then (a, .misuse)
    else match a.host.heap.alloc layout with
      | .error e => (a, .refused e)
      | .ok (block, heap) =>
        ({ host := { a.host with heap }, handles := a.handles.put handle block },
          .content (heap.content block))
  | .free handle layout =>
    match a.handles.get? handle with
    | none => (a, .misuse)
    | some block =>
      if ¬ layout.Valid then ({ a with host := a.host.free block layout }, .alive true)
      else if a.layout? block = some layout then
        ({ host := a.host.free block layout, handles := a.handles.erase handle }, .alive false)
      else (a, .misuse)
  | .fill (t := t) handle offset count v =>
    match a.handles.get? handle with
    | none => (a, .misuse)
    | some block =>
      if a.reaches block t offset count then
        let a := a.onHeap (·.fill ⟨block, offset * t.width⟩ v count)
        (a, .content (a.host.heap.content block))
      else (a, .misuse)
  | .copy source t offset target targetOffset count =>
    match a.handles.get? source, a.handles.get? target with
    | some block, some targetBlock =>
      if a.reaches block t offset count ∧ a.reaches targetBlock t targetOffset count then
        let a := a.onHeap
          (·.copy ⟨block, offset * t.width⟩ ⟨targetBlock, targetOffset * t.width⟩ (count * t.width))
        (a, .content (a.host.heap.content targetBlock))
      else (a, .misuse)
    | _, _ => (a, .misuse)
  | .read handle t offset =>
    match a.handles.get? handle with
    | none => (a, .misuse)
    | some block =>
      if a.reaches block t offset 1 then
        (a, .element (a.host.heap.element t ⟨block, offset * t.width⟩))
      else (a, .misuse)

end Arena

end NdBuffer
