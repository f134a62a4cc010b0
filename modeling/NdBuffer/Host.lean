import NdBuffer.Event
import NdBuffer.Heap.Basic

/-! The host: its memory, and the log of everything that has happened on it. -/

namespace NdBuffer

structure Host where
  heap : Heap
  /-- The events, the oldest first. -/
  log : List Event

namespace Host

def empty (system : Allocator) : Host := ⟨.empty system, []⟩

def record (h : Host) (e : Event) : Host := { h with log := h.log ++ [e] }

@[simp] theorem heap_record (h : Host) (e : Event) : (h.record e).heap = h.heap := rfl

@[simp] theorem log_record (h : Host) (e : Event) : (h.record e).log = h.log ++ [e] := rfl

/-- The host with its memory changed. -/
def onHeap (h : Host) (f : Heap → Heap) : Host := { h with heap := f h.heap }

@[simp] theorem log_onHeap (h : Host) (f : Heap → Heap) : (h.onHeap f).log = h.log := rfl

/-- Returns a block under a layout. Under a layout that no block can have nothing is returned. -/
def free (h : Host) (id : BlockId) (l : Layout) : Host :=
  if l.Valid then h.onHeap (·.giveBack id l) else h.record (.leaking l)

/-- The events that have been logged since an earlier state. -/
def eventsSince (h earlier : Host) : List Event := h.log.drop earlier.log.length

end Host

end NdBuffer
