import NdBuffer.Proofs.Buffer.Operations
import NdBuffer.Proofs.Session.Slots

/-!
# Buffers in slots and buffers in hand

A command of a session takes buffers out of slots, builds new ones, changes them and puts them back.
A `Bench` is a state in the middle of this: the host, the slots, and the buffers in hand. A
`Bench.Move` is a primitive step between two such states. It may take the buffer out of a slot, put
one into it or give it another shape in its place only if the slot is in `touched`, and write
through the buffer of a slot only if the slot is in `edited`.
-/

namespace NdBuffer

/-- The host, the slots, and the buffers that are in hand, each with its lender. -/
structure Bench where
  host : Host
  slots : Table Slot
  hand : List Slot

def Session.bench (s : Session) : Bench := ⟨s.host, s.slots, []⟩

namespace Buffer

/-- The buffer that borrows the memory of this one. -/
def lent (b : Buffer) : Buffer := { b with isOwner := false, blockBytes := 0 }

/-- The buffer with another shape, for which there is room, or without one. -/
inductive Reshaped (b : Buffer) : Buffer → Prop
  | clear : Reshaped b b.clear
  | shape {s : Shape} {n : Nat} : s.count? = some n → n ≤ b.capacity → Reshaped b (b.setShape s)

variable {b c : Buffer}

theorem Reshaped.samePlace (R : b.Reshaped c) : b.SamePlace c := by
  cases R <;> exact ⟨rfl, rfl, rfl, rfl, rfl⟩

theorem Reshaped.valid (R : b.Reshaped c) (H : b.Valid) : c.Valid := by
  cases R with
  | clear => exact H.clear
  | shape hs hn => exact H.setShape hs hn

theorem Reshaped.holdings (R : b.Reshaped c) : c.holdings = b.holdings := by
  cases R <;> rfl

end Buffer

namespace Slot

@[simp] theorem buffer_settled (sl : Slot) : sl.settled.buffer = sl.buffer := by
  rw [settled]
  split <;> rfl

@[simp] theorem settled_settled (sl : Slot) : sl.settled.settled = sl.settled := by
  by_cases hs : sl.buffer.ownsMemory ∨ sl.buffer.capacity = 0 <;> simp [settled, hs]

theorem lender_settled {sl : Slot} {k : Nat} (h : sl.settled.lender = some k) :
    sl.lender = some k := by
  rw [settled] at h
  split at h
  · cases h
  · exact h

/-- A slot has its lender for as long as its buffer has the same memory. -/
theorem settled_of_samePlace {sl : Slot} {b : Buffer} (hs : sl.settled = sl)
    (hb : sl.buffer.SamePlace b) :
    Slot.settled { sl with buffer := b } = { sl with buffer := b } := by
  have howns : b.ownsMemory = sl.buffer.ownsMemory := by
    simp only [Buffer.ownsMemory, hb.isOwner, hb.address]
  by_cases hcond : sl.buffer.ownsMemory ∨ sl.buffer.capacity = 0
  · rw [settled, if_pos hcond] at hs
    rw [settled, if_pos (by rwa [howns, hb.capacity]), ← hs]
  · rw [settled, if_neg (by rwa [howns, hb.capacity])]

end Slot

/-- Whether memory for `n` elements at an address lies in one of the arrays, or in the memory of the
buffer that lends it. Memory of another device than the host is never touched, so nothing is asked
of it but its block. -/
inductive Lies (arrays : List HostArray) (t : Table Slot) (type : ElemType) (device : Device)
    (n : Nat) : Option Nat → Option Address → Prop
  | nowhere {lender : Option Nat} : (device = .cpu → n = 0) →
    Lies arrays t type device n lender none
  | array {lender : Option Nat} {a : Address} {arr : HostArray} : arr ∈ arrays →
    a.block = arr.block →
    (device = .cpu → a.offset + n * type.width ≤ arr.length * arr.type.width) →
    Lies arrays t type device n lender (some a)
  | lent {k : Nat} {a a' : Address} {sl : Slot} : t.get? k = some sl →
    sl.buffer.address? = some a' → a.block = a'.block → 0 < n →
    (device = .cpu → sl.buffer.device = .cpu ∧
      a.offset + n * type.width ≤ a'.offset + sl.buffer.capacity * sl.buffer.type.width) →
    Lies arrays t type device n (some k) (some a)

/-- Memory of another slot lies there also when a slot is empty. -/
theorem Lies.erase {arrays : List HostArray} {t : Table Slot} {type : ElemType} {device : Device}
    {n k : Nat} {lender : Option Nat} {address : Option Address}
    (H : Lies arrays t type device n lender address) (hk : lender ≠ some k) :
    Lies arrays (t.erase k) type device n lender address := by
  cases H with
  | nowhere hzero => exact .nowhere hzero
  | array harr hblock hfits => exact .array harr hblock hfits
  | lent hget ha hblock hpos hfits =>
    have hne := fun heq => hk (congrArg some heq)
    exact .lent ((t.get?_erase_of_ne hne).trans hget) ha hblock hpos hfits

namespace Bench

/-- A slot as it is on the bench, in the table or in hand. -/
def Has (x : Bench) (sl : Slot) : Prop := (∃ k, x.slots.get? k = some sl) ∨ sl ∈ x.hand

/-- Whether no buffer borrows from a slot. -/
def Free (x : Bench) (k : Nat) : Prop := ∀ sl, x.Has sl → sl.lender ≠ some k

/-- A primitive step in carrying out a command. -/
inductive Move (arrays : List HostArray) (touched edited : Nat → Prop) : Bench → Bench → Prop
  | log {h t hand} {e : Event} : e.isRemark = true →
    Move arrays touched edited ⟨h, t, hand⟩ ⟨h.record e, t, hand⟩
  | create {h t hand} (type : ElemType) (device : Device) :
    Move arrays touched edited ⟨h, t, hand⟩ ⟨h, t, ⟨.empty type device, none⟩ :: hand⟩
  | discard {h t hand} {sl : Slot} : sl.buffer.ownAddress? = none →
    Move arrays touched edited ⟨h, t, sl :: hand⟩ ⟨h, t, hand⟩
  | turn {h t hand} {sl sl' : Slot} :
    Move arrays touched edited ⟨h, t, sl :: sl' :: hand⟩ ⟨h, t, sl' :: sl :: hand⟩
  | act {h h' t hand} {b b' : Buffer} {lender : Option Nat} : Buffer.Move (b, h) (b', h') →
    Move arrays touched edited ⟨h, t, ⟨b, lender⟩ :: hand⟩ ⟨h', t, ⟨b', lender⟩ :: hand⟩
  | lend {h t hand} {k : Nat} {sl sl' : Slot} : sl.buffer.ownAddress? = none →
    t.get? k = some sl' →
    Move arrays touched edited ⟨h, t, sl :: hand⟩ ⟨h, t, ⟨sl'.buffer.lent, some k⟩ :: hand⟩
  | borrowAt {h t hand} {sl : Slot} {type : ElemType} {device : Device} {s : Shape} {n : Nat}
      {lender : Option Nat} {address : Option Address} : sl.buffer.ownAddress? = none →
    s.count? = some n → Lies arrays t type device n lender address →
    Move arrays touched edited ⟨h, t, sl :: hand⟩
      ⟨h, t, ⟨.borrower type device address s, lender⟩ :: hand⟩
  | pickUp {h t hand} {k : Nat} {sl : Slot} : touched k → t.get? k = some sl →
    Free ⟨h, t, hand⟩ k → Move arrays touched edited ⟨h, t, hand⟩ ⟨h, t.erase k, sl :: hand⟩
  | putDown {h t hand} {k : Nat} {sl : Slot} : touched k → t.get? k = none →
    Move arrays touched edited ⟨h, t, sl :: hand⟩ ⟨h, t.put k sl.settled, hand⟩
  | reshape {h t hand} {k : Nat} {sl : Slot} {b : Buffer} : touched k → t.get? k = some sl →
    sl.buffer.Reshaped b →
    Move arrays touched edited ⟨h, t, hand⟩ ⟨h, t.put k { sl with buffer := b }, hand⟩
  | edit {h h' t hand} {k : Nat} {sl : Slot} : edited k → t.get? k = some sl →
    Host.Edit sl.buffer.address? h h' →
    Move arrays touched edited ⟨h, t, hand⟩ ⟨h', t, hand⟩

abbrev Moves (arrays : List HostArray) (touched edited : Nat → Prop) : Bench → Bench → Prop :=
  Relation.ReflTransGen (Move arrays touched edited)

variable {x y : Bench} {h : Host} {t : Table Slot} {hand : List Slot} {sl sl' : Slot} {k : Nat}

/-! ### What is on the bench -/

theorem has_cons : Has ⟨h, t, sl :: hand⟩ sl' ↔ sl' = sl ∨ Has ⟨h, t, hand⟩ sl' := by
  simp only [Has, List.mem_cons]
  tauto

/-- Taking a buffer out of a slot changes where it is, not what there is. -/
theorem has_pickUp (hk : t.get? k = some sl) :
    Has ⟨h, t.erase k, sl :: hand⟩ sl' → Has ⟨h, t, hand⟩ sl' := by
  rintro (⟨j, hj⟩ | hmem)
  · rw [Table.get?_erase] at hj
    split at hj
    · cases hj
    · exact .inl ⟨j, hj⟩
  · rcases List.mem_cons.mp hmem with rfl | hmem
    · exact .inl ⟨k, hk⟩
    · exact .inr hmem

theorem has_put {sl₀ : Slot} :
    Has ⟨h, t.put k sl₀, hand⟩ sl' → sl' = sl₀ ∨ Has ⟨h, t, hand⟩ sl' := by
  rintro (⟨j, hj⟩ | hmem)
  · rw [Table.get?_put] at hj
    split at hj
    · cases hj; exact .inl rfl
    · exact .inr (.inl ⟨j, hj⟩)
  · exact .inr (.inr hmem)

/-! ### What the buffers on the bench add up to -/

section
variable {β : Type}

/-- What a function gives for the buffers on the bench, all together. -/
def gather (f : Buffer → List β) (x : Bench) : List β :=
  x.slots.entries.flatMap (f ·.2.buffer) ++ x.hand.flatMap (f ·.buffer)

variable (f : Buffer → List β)

theorem perm_gather_cons :
    ((Bench.mk h t (sl :: hand)).gather f).Perm
      (f sl.buffer ++ (Bench.mk h t hand).gather f) := by
  simp only [gather, List.flatMap_cons]
  rw [← List.append_assoc, ← List.append_assoc]
  exact List.perm_append_comm.append_right _

theorem perm_gather_turn :
    ((Bench.mk h t (sl :: sl' :: hand)).gather f).Perm
      ((Bench.mk h t (sl' :: sl :: hand)).gather f) := by
  simp only [gather, List.flatMap_cons]
  refine List.Perm.append_left _ ?_
  rw [← List.append_assoc, ← List.append_assoc]
  exact List.perm_append_comm.append_right _

theorem perm_gather_pickUp (hk : t.get? k = some sl) :
    ((Bench.mk h t hand).gather f).Perm ((Bench.mk h (t.erase k) (sl :: hand)).gather f) := by
  refine List.Perm.trans ?_ (perm_gather_cons f).symm
  have hperm := (Table.perm_erase hk).flatMap_right (f ·.2.buffer)
  simpa only [gather, List.flatMap_cons, List.append_assoc] using hperm.append_right _

theorem perm_gather_put (hk : t.get? k = none) {sl₀ : Slot} (hsl : f sl₀.buffer = f sl.buffer) :
    ((Bench.mk h t (sl :: hand)).gather f).Perm ((Bench.mk h (t.put k sl₀) hand).gather f) := by
  refine (perm_gather_cons f).trans ?_
  have hperm := (Table.perm_put hk sl₀).flatMap_right (f ·.2.buffer)
  rw [List.flatMap_cons, hsl] at hperm
  simpa only [gather, List.append_assoc] using hperm.symm.append_right _

/-- The buffer of a slot is replaced by one for which the function gives the same. -/
theorem perm_gather_reshape (hk : t.get? k = some sl) {b : Buffer} (hb : f b = f sl.buffer) :
    ((Bench.mk h t hand).gather f).Perm
      ((Bench.mk h (t.put k { sl with buffer := b }) hand).gather f) := by
  refine (perm_gather_pickUp f hk).trans ?_
  rw [← Table.put_erase]
  exact perm_gather_put f (t.get?_erase_self k) hb

end

/-- Everything that is to be returned by the buffers on the bench. -/
def holdings (x : Bench) : List Holding :=
  x.slots.entries.flatMap (·.2.buffer.holdings) ++ x.hand.flatMap (·.buffer.holdings)

theorem mem_holdings (hs : x.Has sl) {o : Holding} (ho : o ∈ sl.buffer.holdings) :
    o ∈ x.holdings := by
  rcases hs with ⟨k, hk⟩ | hs
  · exact List.mem_append_left _ (List.mem_flatMap.mpr ⟨(k, sl), Table.mem_entries.mpr hk, ho⟩)
  · exact List.mem_append_right _ (List.mem_flatMap.mpr ⟨sl, hs, ho⟩)

theorem exists_of_mem_holdings {o : Holding} (ho : o ∈ x.holdings) :
    ∃ sl, x.Has sl ∧ o ∈ sl.buffer.holdings := by
  rcases List.mem_append.mp ho with ho | ho
  · obtain ⟨⟨k, sl⟩, hmem, ho⟩ := List.mem_flatMap.mp ho
    exact ⟨sl, .inl ⟨k, Table.mem_entries.mp hmem⟩, ho⟩
  · obtain ⟨sl, hmem, ho⟩ := List.mem_flatMap.mp ho
    exact ⟨sl, .inr hmem, ho⟩

theorem perm_holdings_cons :
    (Bench.mk h t (sl :: hand)).holdings.Perm
      (sl.buffer.holdings ++ (Bench.mk h t hand).holdings) :=
  perm_gather_cons Buffer.holdings

theorem perm_holdings_pickUp (hk : t.get? k = some sl) :
    (Bench.mk h t hand).holdings.Perm (Bench.mk h (t.erase k) (sl :: hand)).holdings :=
  perm_gather_pickUp Buffer.holdings hk

/-! ### Slots that are not touched -/

section
variable {arrays : List HostArray} {touched edited : Nat → Prop}

theorem Move.get?_slots (M : Move arrays touched edited x y) (hk : ¬ touched k) :
    y.slots.get? k = x.slots.get? k := by
  have hne {j : Nat} (hj : touched j) : k ≠ j := by
    rintro rfl
    exact hk hj
  cases M with
  | pickUp hj _ _ => exact Table.get?_erase_of_ne _ (hne hj)
  | putDown hj _ => exact Table.get?_put_of_ne _ _ (hne hj)
  | reshape hj _ _ => exact Table.get?_put_of_ne _ _ (hne hj)
  | _ => rfl

/-- A slot that is not touched is left as it is. -/
theorem Moves.get?_slots (M : Moves arrays touched edited x y) (hk : ¬ touched k) :
    y.slots.get? k = x.slots.get? k := by
  induction M with
  | refl => rfl
  | tail _ M ih => exact (M.get?_slots hk).trans ih

end

end Bench

end NdBuffer
