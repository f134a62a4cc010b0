import Mathlib.Logic.Relation
import NdBuffer.Proofs.Buffer.Valid
import NdBuffer.Proofs.Memory.Balance
import NdBuffer.Proofs.Memory.Ledger

/-!
# What an operation on a buffer is made of

A `Move` is one primitive change of a buffer together with the host: an event, a write to memory
that the buffer owns, letting go of the memory, taking a new block, or another shape. Every
operation that does not make the buffer borrow is a chain of moves, so what every move keeps is kept
by all of them, whether they succeed or fail:

* the representation invariant (`Moves.valid`);
* the ledger, with the holdings of all other buffers beside those of this one (`Moves.ledger`);
* the blocks that the buffer does not own (`Moves.frame`).
-/

namespace NdBuffer

open Relation

namespace Host

/-- A remark, or a write to the memory at an address. -/
inductive Edit (a? : Option Address) : Host → Host → Prop
  | log {h : Host} {e : Event} : e.isRemark = true → Edit a? h (h.record e)
  | write {h : Host} {a : Address} (k : Nat) (bytes : List UInt8) : a? = some a →
    Edit a? h (h.onHeap (·.write (a.advance k) bytes))

abbrev Edits (a? : Option Address) : Host → Host → Prop := ReflTransGen (Edit a?)

variable {a? : Option Address} {h h' : Host} {held : List Holding}

theorem Edit.ledger (E : Edit a? h h') (H : h.Ledger held) : h'.Ledger held := by
  cases E with
  | log he => exact H.record (Event.ne_leaking_of_isRemark he)
  | write k bytes _ => exact H.write _ bytes

end Host

namespace Buffer

/-- Where the memory is that the buffer owns. -/
def ownAddress? (b : Buffer) : Option Address := if b.isOwner then b.address? else none

/-- What the buffer has to return. -/
def holdings (b : Buffer) : List Holding :=
  (b.ownAddress?.map fun a => ⟨a.block, b.blockBytes⟩).toList

@[simp] theorem ownAddress?_empty (type : ElemType) (device : Device) :
    (empty type device).ownAddress? = none := rfl

theorem ownAddress?_eq_some {b : Buffer} {a : Address} :
    b.ownAddress? = some a ↔ b.isOwner = true ∧ b.address? = some a := by
  simp [ownAddress?, Option.ite_none_right_eq_some]

@[simp] theorem holdings_empty (type : ElemType) (device : Device) :
    (empty type device).holdings = [] := rfl

theorem mem_holdings {b : Buffer} {o : Holding} :
    o ∈ b.holdings ↔ ∃ a, b.isOwner = true ∧ b.address? = some a ∧ o = ⟨a.block, b.blockBytes⟩ := by
  cases hb : b.isOwner <;> cases ha : b.address? <;> simp [holdings, ownAddress?, hb, ha]

/-- A primitive change of a buffer and the host. -/
inductive Move : Buffer × Host → Buffer × Host → Prop
  | edit {b : Buffer} {h h' : Host} : Host.Edit b.ownAddress? h h' → Move (b, h) (b, h')
  | letGo {b : Buffer} {h : Host} : Move (b, h) (b.release h)
  | clear {b : Buffer} {h : Host} : Move (b, h) (b.clear, h)
  | shape {b : Buffer} {h : Host} {s : Shape} {n : Nat} : s.count? = some n → n ≤ b.capacity →
    Move (b, h) (b.setShape s, h)
  | retag {type type' : ElemType} {device device' : Device} {h : Host} :
    Move (empty type device, h) (empty type' device', h)
  | acquire {type : ElemType} {h : Host} {n bytes : Nat} {block : BlockId} {heap : Heap} :
    0 < n → byteSize? type n = some bytes →
    h.heap.alloc ⟨bytes, standardAlignment⟩ = .ok (block, heap) →
    Move (empty type .cpu, h)
      (owner type block n bytes, Host.record { h with heap } (.allocated type .cpu bytes))

abbrev Moves : Buffer × Host → Buffer × Host → Prop := ReflTransGen Move

variable {p q : Buffer × Host}

theorem Move.valid (M : Move p q) (H : p.1.Valid) : q.1.Valid := by
  cases M with
  | edit _ => exact H
  | letGo => exact valid_empty ..
  | clear => exact H.clear
  | shape hs hn => exact H.setShape hs hn
  | retag => exact valid_empty ..
  | acquire hn hbytes _ => exact valid_owner hn hbytes

theorem Moves.valid (M : Moves p q) (H : p.1.Valid) : q.1.Valid := by
  induction M with
  | refl => exact H
  | tail _ M ih => exact M.valid ih

/-- The host after a release. Memory that is not owned is left alone. -/
theorem release_snd_of_not_owned {b : Buffer} (hb : b.ownAddress? = none) (h : Host) :
    (b.release h).2 = h := by
  cases ho : b.isOwner <;> cases ha : b.address? <;> simp_all [release, ownAddress?]

theorem release_snd_of_owned {b : Buffer} {a : Address} (hb : b.isOwner = true)
    (ha : b.address? = some a) (hd : b.device = .cpu) (h : Host) :
    (b.release h).2 =
      (h.record (.releasing b.type .cpu b.blockBytes)).free a.block
        ⟨b.blockBytes, standardAlignment⟩ := by
  simp [release, returnBlock, hb, ha, hd]

theorem blocks_release_of_ne {b : Buffer} {a : Address} {m : BlockId} (hb : b.isOwner = true)
    (ha : b.address? = some a) (hm : a.block ≠ m) (h : Host) :
    (b.release h).2.heap.blocks[m]? = h.heap.blocks[m]? := by
  cases hd : b.device with
  | cpu =>
    rw [release_snd_of_owned hb ha hd, Host.free]
    split
    · exact h.heap.blocks_giveBack_of_ne _ hm
    · rfl
  | cuda index => simp [release, returnBlock, hb, ha, hd, Host.record]

theorem ledger_release {b : Buffer} {h : Host} {rest : List Holding} (hv : b.Valid)
    (H : h.Ledger (b.holdings ++ rest)) : (b.release h).2.Ledger rest := by
  cases ha : b.ownAddress? with
  | none =>
    rw [release_snd_of_not_owned ha]
    simpa [holdings, ha] using H
  | some a =>
    obtain ⟨ho, ha'⟩ := ownAddress?_eq_some.mp ha
    rw [release_snd_of_owned ho ha' (hv.owned ho ha').1]
    simp only [holdings, ha, Option.map_some, Option.toList_some, List.singleton_append] at H
    refine (H.record ?_).free
    rintro _ ⟨⟩

theorem Move.ledger (M : Move p q) (hv : p.1.Valid) {rest : List Holding}
    (H : p.2.Ledger (p.1.holdings ++ rest)) : q.2.Ledger (q.1.holdings ++ rest) := by
  cases M with
  | edit E => exact E.ledger H
  | letGo => exact ledger_release hv H
  | clear => exact H
  | shape _ _ => exact H
  | retag => exact H
  | acquire _ _ ha => exact (H.alloc ha rfl).record (by rintro _ ⟨⟩)

theorem Moves.ledger (M : Moves p q) (hv : p.1.Valid) {rest : List Holding}
    (H : p.2.Ledger (p.1.holdings ++ rest)) : q.2.Ledger (q.1.holdings ++ rest) := by
  induction M with
  | refl => exact H
  | tail M M' ih => exact M'.ledger (Moves.valid M hv) ih

theorem Move.frame (M : Move p q) {m : BlockId} {c : Block}
    (hc : p.2.heap.blocks[m]? = some c) (hm : ∀ o ∈ p.1.holdings, o.block ≠ m) :
    q.2.heap.blocks[m]? = some c ∧ ∀ o ∈ q.1.holdings, o.block ≠ m := by
  cases M with
  | @edit b h h' E =>
    refine ⟨?_, hm⟩
    cases E with
    | log _ => exact hc
    | @write a k bytes ha =>
      have hne : a.block ≠ m := hm ⟨a.block, b.blockBytes⟩ (by simp [holdings, ha])
      exact (h.heap.blocks_write_of_ne (a.advance k) bytes hne).trans hc
  | @letGo b h =>
    refine ⟨?_, by rw [release_eq]; simp⟩
    cases ha : b.ownAddress? with
    | none => rwa [release_snd_of_not_owned ha]
    | some a =>
      obtain ⟨ho, ha'⟩ := ownAddress?_eq_some.mp ha
      have hne : a.block ≠ m := hm ⟨a.block, b.blockBytes⟩ (by simp [holdings, ha])
      exact (blocks_release_of_ne ho ha' hne h).trans hc
  | clear => exact ⟨hc, hm⟩
  | shape _ _ => exact ⟨hc, hm⟩
  | retag => exact ⟨hc, hm⟩
  | acquire _ _ ha =>
    obtain ⟨-, rfl, rfl⟩ := Heap.alloc_ok ha
    have hlt := (List.getElem?_eq_some_iff.mp hc).1
    refine ⟨by simpa [List.getElem?_append_left hlt] using hc, fun o ho => ?_⟩
    obtain rfl : o = ⟨_, _⟩ := by simpa [holdings, ownAddress?, owner, empty] using ho
    exact Nat.ne_of_gt hlt

/-- A chain of moves leaves alone the blocks that the buffer does not own. -/
theorem Moves.frame (M : Moves p q) {m : BlockId} {c : Block}
    (hc : p.2.heap.blocks[m]? = some c) (hm : ∀ o ∈ p.1.holdings, o.block ≠ m) :
    q.2.heap.blocks[m]? = some c ∧ ∀ o ∈ q.1.holdings, o.block ≠ m := by
  induction M with
  | refl => exact ⟨hc, hm⟩
  | tail _ M ih => exact M.frame ih.1 ih.2

/-- Whether two buffers have the same memory and hold it in the same way. -/
structure SamePlace (b c : Buffer) : Prop where
  type : c.type = b.type
  device : c.device = b.device
  address : c.address? = b.address?
  isOwner : c.isOwner = b.isOwner
  capacity : c.capacity = b.capacity

theorem SamePlace.rfl {b : Buffer} : b.SamePlace b := ⟨.refl _, .refl _, .refl _, .refl _, .refl _⟩

theorem SamePlace.trans {b c d : Buffer} (H : b.SamePlace c) (H' : c.SamePlace d) :
    b.SamePlace d where
  type := H'.type.trans H.type
  device := H'.device.trans H.device
  address := H'.address.trans H.address
  isOwner := H'.isOwner.trans H.isOwner
  capacity := H'.capacity.trans H.capacity

/-- What a move leaves behind either lies where it was before or belongs to the buffer. -/
theorem Move.place (M : Move p q) : p.1.SamePlace q.1 ∨ q.1.isOwner = true := by
  cases M with
  | edit _ | clear | shape _ _ => exact .inl ⟨rfl, rfl, rfl, rfl, rfl⟩
  | letGo | retag | acquire _ _ _ => exact .inr rfl

theorem Moves.place (M : Moves p q) : p.1.SamePlace q.1 ∨ q.1.isOwner = true := by
  induction M with
  | refl => exact .inl .rfl
  | tail _ M ih =>
    rcases M.place with hplace | ho
    · exact ih.imp (fun H => H.trans hplace) hplace.isOwner.trans
    · exact .inr ho

end Buffer

end NdBuffer
