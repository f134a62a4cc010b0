import Mathlib.Data.List.Nodup
import NdBuffer.Alignment
import NdBuffer.Host

/-!
# The ledger of host memory

A `Holding` is a block that somebody has to return, together with the bytes that it was allocated
with. `Host.Ledger h held` says that the holdings in `held` account for host memory: the blocks that
have been allocated and not been returned are those of `held`, each of them once, and every block
that has been returned was returned once and under its own layout. Allocating adds a holding,
returning takes one away, and writing changes nothing.
-/

namespace NdBuffer

/-- A block to be returned, and the bytes that it was allocated with. -/
structure Holding where
  block : BlockId
  bytes : Nat
  deriving DecidableEq

def Holding.layout (o : Holding) : Layout := ⟨o.bytes, standardAlignment⟩

namespace Block

/-- Two blocks that differ at most in what their bytes are. -/
structure Alike (b c : Block) : Prop where
  layout : c.layout = b.layout
  returned : c.returned = b.returned
  size : c.bytes.size = b.bytes.size

theorem Alike.rfl {b : Block} : b.Alike b := ⟨.refl _, .refl _, .refl _⟩

theorem alike_overwrite (b : Block) (offset : Nat) (new : Array UInt8) :
    b.Alike (b.overwrite offset new) :=
  ⟨.refl _, .refl _, b.size_overwrite offset new⟩

/-- The history of a block: an array of the caller is never returned, and an allocated block is
returned at most once, under the layout that it was allocated with. -/
structure Accounted (b : Block) : Prop where
  array : b.layout = none → b.returned = []
  aligned : ∀ {l}, b.layout = some l → l.Valid ∧ l.alignment = standardAlignment
  once : ∀ {l}, b.layout = some l → b.returned = [] ∨ b.returned = [l]

theorem Accounted.alike {b c : Block} (hb : b.Accounted) (h : b.Alike c) : c.Accounted where
  array := by rw [h.layout, h.returned]; exact hb.array
  aligned := by rw [h.layout]; exact hb.aligned
  once := by rw [h.layout, h.returned]; exact hb.once

theorem accounted_zeroed {l : Layout} (hv : l.Valid) (ha : l.alignment = standardAlignment) :
    (zeroed l).Accounted where
  array h := by cases h
  aligned h := by cases h; exact ⟨hv, ha⟩
  once _ := .inl rfl

theorem accounted_ofBytes (bytes : List UInt8) : (ofBytes bytes).Accounted where
  array _ := rfl
  aligned h := by cases h
  once h := by cases h

theorem Accounted.giveBack {b : Block} (hb : b.Accounted) {l : Layout} (hl : b.layout = some l)
    (hr : b.returned = []) : (b.giveBack l).Accounted where
  array h := by rw [show (b.giveBack l).layout = b.layout from rfl, hl] at h; cases h
  aligned h := hb.aligned h
  once h := by
    rw [show (b.giveBack l).layout = b.layout from rfl, hl] at h
    cases h
    exact .inr (by simp [Block.giveBack, hr])

end Block

namespace Heap

/-! ### Blocks after the operations on host memory -/

theorem blocks_write_of_ne (h : Heap) (a : Address) (new : List UInt8) {id : BlockId}
    (hne : a.block ≠ id) : (h.write a new).blocks[id]? = h.blocks[id]? := by
  simp [write, hne]

/-- A write changes neither the layout nor the history nor the size of a block. -/
theorem exists_alike_write (h : Heap) (a : Address) (new : List UInt8) {id : BlockId} {b : Block}
    (hb : h.blocks[id]? = some b) :
    ∃ c, (h.write a new).blocks[id]? = some c ∧ b.Alike c := by
  by_cases hid : a.block = id
  · exact ⟨_, by simp [write, hid, hb]; rfl, b.alike_overwrite _ _⟩
  · exact ⟨b, (h.blocks_write_of_ne a new hid).trans hb, .rfl⟩

@[simp] theorem length_blocks_write (h : Heap) (a : Address) (new : List UInt8) :
    (h.write a new).blocks.length = h.blocks.length := by
  simp [write]

theorem exists_alike_of_write {h : Heap} {a : Address} {new : List UInt8} {id : BlockId} {c : Block}
    (hc : (h.write a new).blocks[id]? = some c) : ∃ b, h.blocks[id]? = some b ∧ b.Alike c := by
  have hlt : id < h.blocks.length := by simpa using (List.getElem?_eq_some_iff.mp hc).1
  have hb := List.getElem?_eq_getElem hlt
  obtain ⟨c', hc', hbc⟩ := h.exists_alike_write a new hb
  cases hc.symm.trans hc'
  exact ⟨_, hb, hbc⟩

theorem blocks_giveBack_self {h : Heap} {id : BlockId} {l : Layout} {b : Block}
    (hb : h.blocks[id]? = some b) : (h.giveBack id l).blocks[id]? = some (b.giveBack l) := by
  simp [giveBack, hb]

theorem blocks_giveBack_of_ne (h : Heap) {id other : BlockId} (l : Layout) (hne : id ≠ other) :
    (h.giveBack id l).blocks[other]? = h.blocks[other]? := by
  simp [giveBack, hne]

theorem alloc_ok {h heap : Heap} {l : Layout} {id : BlockId} (ha : h.alloc l = .ok (id, heap)) :
    h.Grants l ∧ id = h.blocks.length ∧ heap = h.add (.zeroed l) := by
  rw [alloc] at ha
  split at ha
  · cases ha
  · split at ha
    · cases ha
    · rename_i hgrants
      cases ha
      exact ⟨not_not.mp hgrants, rfl, rfl⟩

theorem mem_outstanding {h : Heap} {id : BlockId} :
    id ∈ h.outstanding ↔ ∃ b l, h.blocks[id]? = some b ∧ b.layout = some l ∧ b.returned = [] := by
  simp only [outstanding, List.mem_filter, List.mem_range, Option.any_eq_true_iff_get]
  constructor
  · rintro ⟨_, hsome, ho⟩
    obtain ⟨b, hb⟩ := Option.isSome_iff_exists.mp hsome
    simp only [hb, Option.get_some, Block.isOutstanding, Bool.and_eq_true,
      Option.isSome_iff_exists, List.isEmpty_iff] at ho
    obtain ⟨⟨l, hl⟩, hr⟩ := ho
    exact ⟨b, l, hb, hl, hr⟩
  · rintro ⟨b, l, hb, hl, hr⟩
    obtain ⟨hlt, -⟩ := List.getElem?_eq_some_iff.mp hb
    exact ⟨hlt, by simp [hb], by simp [hb, Block.isOutstanding, hl, hr]⟩

end Heap

/-- The holdings in `held` account for the memory of a host. -/
structure Host.Ledger (h : Host) (held : List Holding) : Prop where
  distinct : (held.map Holding.block).Nodup
  outstanding : ∀ o ∈ held, ∃ b, h.heap.blocks[o.block]? = some b ∧ b.layout = some o.layout ∧
    b.returned = [] ∧ b.bytes.size = o.bytes
  covered : ∀ id ∈ h.heap.outstanding, ∃ o ∈ held, o.block = id
  accounted : ∀ b ∈ h.heap.blocks, b.Accounted
  quiet : ∀ l, .leaking l ∉ h.log

namespace Host.Ledger

variable {h : Host} {held : List Holding}

theorem empty (system : Allocator) : (Host.empty system).Ledger [] where
  distinct := .nil
  outstanding _ ho := nomatch ho
  covered _ hid := nomatch hid
  accounted _ hb := nomatch hb
  quiet _ hl := nomatch hl

theorem perm (H : h.Ledger held) {held' : List Holding} (hp : held.Perm held') :
    h.Ledger held' where
  distinct := (hp.map _).nodup_iff.mp H.distinct
  outstanding o ho := H.outstanding o (hp.mem_iff.mpr ho)
  covered id hid :=
    let ⟨o, ho, heq⟩ := H.covered id hid
    ⟨o, hp.mem_iff.mp ho, heq⟩
  accounted := H.accounted
  quiet := H.quiet

/-- The outstanding blocks are those of the holdings. -/
theorem mem_outstanding_iff (H : h.Ledger held) {id : BlockId} :
    id ∈ h.heap.outstanding ↔ ∃ o ∈ held, o.block = id := by
  refine ⟨H.covered id, ?_⟩
  rintro ⟨o, ho, rfl⟩
  obtain ⟨b, hb, hl, hr, -⟩ := H.outstanding o ho
  exact Heap.mem_outstanding.mpr ⟨b, _, hb, hl, hr⟩

theorem block_lt (H : h.Ledger held) {o : Holding} (ho : o ∈ held) :
    o.block < h.heap.blocks.length := by
  obtain ⟨b, hb, -⟩ := H.outstanding o ho
  exact (List.getElem?_eq_some_iff.mp hb).1

theorem record (H : h.Ledger held) {e : Event} (he : ∀ l, e ≠ .leaking l) :
    (h.record e).Ledger held where
  distinct := H.distinct
  outstanding := H.outstanding
  covered := H.covered
  accounted := H.accounted
  quiet l hl := by
    rcases List.mem_append.mp hl with hl | hl
    · exact H.quiet l hl
    · exact he l (List.mem_singleton.mp hl).symm

theorem write (H : h.Ledger held) (a : Address) (new : List UInt8) :
    (h.onHeap (·.write a new)).Ledger held where
  distinct := H.distinct
  outstanding o ho := by
    obtain ⟨b, hb, hl, hr, hs⟩ := H.outstanding o ho
    obtain ⟨c, hc, hbc⟩ := h.heap.exists_alike_write a new hb
    exact ⟨c, hc, hbc.layout.trans hl, hbc.returned.trans hr, hbc.size.trans hs⟩
  covered id hid := by
    obtain ⟨c, l, hc, hl, hr⟩ := Heap.mem_outstanding.mp hid
    obtain ⟨b, hb, hbc⟩ := Heap.exists_alike_of_write hc
    exact H.covered id (Heap.mem_outstanding.mpr
      ⟨b, l, hb, hbc.layout.symm.trans hl, hbc.returned.symm.trans hr⟩)
  accounted c hc := by
    obtain ⟨id, hid⟩ := List.mem_iff_getElem?.mp hc
    obtain ⟨b, hb, hbc⟩ := Heap.exists_alike_of_write hid
    exact (H.accounted b (List.mem_of_getElem? hb)).alike hbc
  quiet := H.quiet

/-- A new block becomes a holding. -/
theorem alloc (H : h.Ledger held) {l : Layout} {id : BlockId} {heap : Heap}
    (ha : h.heap.alloc l = .ok (id, heap)) (hl : l.alignment = standardAlignment) :
    Host.Ledger { h with heap } (⟨id, l.bytes⟩ :: held) := by
  obtain ⟨⟨hv, -⟩, rfl, rfl⟩ := Heap.alloc_ok ha
  have hlayout : l = Holding.layout ⟨h.heap.blocks.length, l.bytes⟩ := by
    rw [Holding.layout, ← hl]
  refine ⟨?_, ?_, ?_, ?_, H.quiet⟩
  · refine List.nodup_cons.mpr ⟨fun hmem => ?_, H.distinct⟩
    obtain ⟨o, ho, heq⟩ := List.mem_map.mp hmem
    exact absurd (H.block_lt ho) (by simp [heq])
  · intro o ho
    rcases List.mem_cons.mp ho with rfl | ho
    · exact ⟨.zeroed l, by simp, congrArg some hlayout, rfl, by simp [Block.zeroed]⟩
    · obtain ⟨b, hb, rest⟩ := H.outstanding o ho
      exact ⟨b, by simpa [List.getElem?_append_left (H.block_lt ho)] using hb, rest⟩
  · intro id hid
    obtain ⟨b, l', hb, hl', hr⟩ := Heap.mem_outstanding.mp hid
    rw [Heap.blocks_add] at hb
    by_cases hlt : id < h.heap.blocks.length
    · rw [List.getElem?_append_left hlt] at hb
      obtain ⟨o, ho, heq⟩ := H.covered id (Heap.mem_outstanding.mpr ⟨b, l', hb, hl', hr⟩)
      exact ⟨o, List.mem_cons_of_mem _ ho, heq⟩
    · have hlt' : id < h.heap.blocks.length + 1 := by
        simpa using (List.getElem?_eq_some_iff.mp hb).1
      exact ⟨_, List.mem_cons_self,
        Nat.le_antisymm (Nat.not_lt.mp hlt) (Nat.lt_succ_iff.mp hlt')⟩
  · intro b hb
    rcases List.mem_append.mp hb with hb | hb
    · exact H.accounted b hb
    · cases List.mem_singleton.mp hb
      exact Block.accounted_zeroed hv hl

/-- An array of the caller is no holding. -/
theorem adopt (H : h.Ledger held) (bytes : List UInt8) :
    Host.Ledger { h with heap := (h.heap.adopt bytes).2 } held := by
  refine ⟨H.distinct, ?_, ?_, ?_, H.quiet⟩
  · intro o ho
    obtain ⟨b, hb, rest⟩ := H.outstanding o ho
    exact ⟨b, by simpa [Heap.adopt, List.getElem?_append_left (H.block_lt ho)] using hb, rest⟩
  · intro id hid
    obtain ⟨b, l, hb, hl, hr⟩ := Heap.mem_outstanding.mp hid
    simp only [Heap.adopt, Heap.blocks_add] at hb
    by_cases hlt : id < h.heap.blocks.length
    · rw [List.getElem?_append_left hlt] at hb
      exact H.covered id (Heap.mem_outstanding.mpr ⟨b, l, hb, hl, hr⟩)
    · rw [List.getElem?_append_right (Nat.not_lt.mp hlt), List.getElem?_singleton] at hb
      split at hb
      · cases hb
        cases hl
      · cases hb
  · intro b hb
    rcases List.mem_append.mp hb with hb | hb
    · exact H.accounted b hb
    · cases List.mem_singleton.mp hb
      exact Block.accounted_ofBytes bytes

/-- A holding is returned, and nothing leaks. -/
theorem free {o : Holding} (H : h.Ledger (o :: held)) :
    (h.free o.block o.layout).Ledger held := by
  obtain ⟨b, hb, hl, hr, -⟩ := H.outstanding o List.mem_cons_self
  have hb_acc := H.accounted b (List.mem_of_getElem? hb)
  obtain ⟨hnot, hdistinct⟩ := List.nodup_cons.mp H.distinct
  have hne : ∀ p ∈ held, o.block ≠ p.block := fun p hp heq =>
    hnot (heq ▸ List.mem_map_of_mem hp)
  rw [Host.free, if_pos (hb_acc.aligned hl).1]
  refine ⟨hdistinct, ?_, ?_, ?_, H.quiet⟩
  · intro p hp
    obtain ⟨c, hc, rest⟩ := H.outstanding p (List.mem_cons_of_mem _ hp)
    exact ⟨c, (h.heap.blocks_giveBack_of_ne _ (hne p hp)).trans hc, rest⟩
  · intro id hid
    obtain ⟨c, l, hc, hlc, hrc⟩ := Heap.mem_outstanding.mp hid
    by_cases heq : o.block = id
    · subst heq
      cases (Heap.blocks_giveBack_self hb).symm.trans hc
      cases hrc
    · have hc := (h.heap.blocks_giveBack_of_ne _ heq).symm.trans hc
      obtain ⟨p, hp, hpid⟩ := H.covered id (Heap.mem_outstanding.mpr ⟨c, l, hc, hlc, hrc⟩)
      rcases List.mem_cons.mp hp with rfl | hp
      · exact absurd hpid heq
      · exact ⟨p, hp, hpid⟩
  · intro c hc
    obtain ⟨id, hid⟩ := List.mem_iff_getElem?.mp hc
    by_cases heq : o.block = id
    · subst heq
      cases (Heap.blocks_giveBack_self hb).symm.trans hid
      exact hb_acc.giveBack hl hr
    · exact H.accounted c (List.mem_of_getElem?
        ((h.heap.blocks_giveBack_of_ne _ heq).symm.trans hid))

/-- Where nothing is left to be returned, every block has been returned that was allocated. -/
theorem returned_eq (H : h.Ledger []) {b : Block} (hb : b ∈ h.heap.blocks) :
    b.returned = b.layout.toList := by
  have hacc := H.accounted b hb
  cases hl : b.layout with
  | none => exact hacc.array hl
  | some l =>
    rcases hacc.once hl with hr | hr
    · obtain ⟨id, hid⟩ := List.mem_iff_getElem?.mp hb
      obtain ⟨o, ho, -⟩ := H.covered id (Heap.mem_outstanding.mpr ⟨b, l, hid, hl, hr⟩)
      cases ho
    · exact hr

end Host.Ledger

end NdBuffer
