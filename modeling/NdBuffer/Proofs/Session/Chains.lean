import NdBuffer.Proofs.Session.Endings
import NdBuffer.Proofs.Session.Sound

/-!
# Commands as chains of primitive steps

Carrying out a command is a chain of the steps of `Bench.Move`: buffers are taken out of slots that
lend nothing, new ones are built in hand, and all of them are put back or dropped
(`Session.moves_step`). A command touches no slots but its targets, and it edits memory only by
writing through the buffer of a slot.
-/

namespace NdBuffer

namespace Command

/-- The slots whose buffers a command may change, move or replace. -/
def targets : Command → List Nat
  | build slot (.take source) => [slot, source]
  | build slot _ => [slot]
  | change slot (.swap other) => [slot, other]
  | change slot _ => [slot]
  | query .. => []

/-- Whether a command writes elements through the buffer of a slot. -/
def Writes (c : Command) (k : Nat) : Prop := ∃ what, c = change k what ∧ what.isWrite = true

/-- Whether a command may change what a slot holds. A write does not. -/
def Touches (c : Command) (k : Nat) : Prop := k ∈ c.targets ∧ ¬ c.Writes k

theorem mem_exclusive {k : Nat} {what : Change} (h : what.isExclusive = true) :
    k ∈ (change k what).exclusive := by
  cases what <;> simp_all [exclusive, Change.isExclusive]

theorem touches_build {k j : Nat} {how : Build} (hj : j ∈ (build k how).targets) :
    (build k how).Touches j :=
  ⟨hj, fun ⟨_, heq, _⟩ => nomatch heq⟩

theorem touches_change {k j : Nat} {what : Change} (hw : what.isWrite = false)
    (hj : j ∈ (change k what).targets) : (change k what).Touches j := by
  refine ⟨hj, ?_⟩
  rintro ⟨what', heq, hw'⟩
  cases heq
  cases hw.symm.trans hw'

theorem mem_targets (k : Nat) (what : Change) : k ∈ (change k what).targets := by
  cases what <;> simp [targets]

end Command

namespace Bench

variable {arrays : List HostArray} {T E : Nat → Prop} {h h' : Host} {t : Table Slot}
  {hand : List Slot} {sl sl' : Slot} {k : Nat} {b b' : Buffer} {lender : Option Nat}

theorem moves_act {p q : Buffer × Host} (M : Buffer.Moves p q) :
    Moves arrays T E ⟨p.2, t, ⟨p.1, lender⟩ :: hand⟩ ⟨q.2, t, ⟨q.1, lender⟩ :: hand⟩ := by
  induction M with
  | refl => exact .refl
  | tail _ M ih => exact ih.tail (.act M)

theorem moves_edits (hE : E k) (hk : t.get? k = some sl)
    (D : Host.Edits sl.buffer.address? h h') : Moves arrays T E ⟨h, t, hand⟩ ⟨h', t, hand⟩ := by
  induction D with
  | refl => exact .refl
  | tail _ D ih => exact ih.tail (.edit hE hk D)

/-- Events are logged without a buffer. -/
theorem moves_logs (D : Host.Edits none h h') :
    Moves arrays T E ⟨h, t, hand⟩ ⟨h', t, hand⟩ := by
  induction D with
  | refl => exact .refl
  | tail _ D ih =>
    cases D with
    | log he => exact ih.tail (.log he)
    | write _ _ ha => cases ha

/-- A buffer in hand is dropped. -/
theorem moves_drop (sl : Slot) :
    Moves arrays T E ⟨h, t, sl :: hand⟩ ⟨(sl.buffer.release h).2, t, hand⟩ := by
  have hrelease : Moves arrays T E ⟨h, t, sl :: hand⟩
      ⟨(sl.buffer.release h).2, t, ⟨.empty sl.buffer.type sl.buffer.device, sl.lender⟩ :: hand⟩ :=
    .single (.act .letGo)
  exact hrelease.tail (.discard rfl)

theorem moves_built (B : Buffer.Built h (.ok b, h')) :
    Moves arrays T E ⟨h, t, hand⟩ ⟨h', t, ⟨b, none⟩ :: hand⟩ := by
  cases B with
  | @done type device _ _ M => exact .head (.create type device) (moves_act M)

theorem moves_built_error {e : Error} (B : Buffer.Built h (.error e, h')) :
    Moves arrays T E ⟨h, t, hand⟩ ⟨h', t, hand⟩ := by
  cases B with
  | @failed type type' device device' _ _ M =>
    have hact : Moves arrays T E ⟨h, t, ⟨.empty type device, none⟩ :: hand⟩
        ⟨h', t, ⟨.empty type' device', none⟩ :: hand⟩ := moves_act M
    exact .head (.create type device) (hact.tail (.discard rfl))

/-- The buffer of a slot is taken in hand, and what becomes of it is put back. -/
theorem moves_within (hT : T k) (hk : t.get? k = some sl) (hfree : Free ⟨h, t, hand⟩ k)
    (M : Moves arrays T E ⟨h, t.erase k, sl :: hand⟩ ⟨h', t.erase k, sl' :: hand⟩) :
    Moves arrays T E ⟨h, t, hand⟩ ⟨h', t.put k sl'.settled, hand⟩ := by
  rw [← Table.put_erase]
  exact .head (.pickUp hT hk hfree) (M.tail (.putDown hT (t.get?_erase_self k)))

/-- The buffer in hand is put into a slot, in place of what is there. -/
theorem moves_replace (hT : T k) (hfree : Free ⟨h, t, sl :: hand⟩ k) :
    Moves arrays T E ⟨h, t, sl :: hand⟩
      ⟨((t.get? k).elim h fun old => (old.buffer.release h).2), t.put k sl.settled, hand⟩ := by
  cases hk : t.get? k with
  | none => exact .single (.putDown hT hk)
  | some old =>
    rw [← Table.put_erase]
    have hdrop : Moves arrays T E ⟨h, t.erase k, sl :: old :: hand⟩
        ⟨(old.buffer.release h).2, t.erase k, sl :: hand⟩ :=
      .head .turn (moves_drop old)
    exact .head (.pickUp hT hk hfree) (.head .turn (hdrop.tail (.putDown hT (t.get?_erase_self k))))

end Bench

namespace Session

variable {s : Session} {T E : Nat → Prop} {h h' : Host} {hand : List Slot} {sl sl' : Slot}
  {k : Nat} {b : Buffer} {lender : Option Nat}

/-- The primitive steps of a session. -/
abbrev Moves (s : Session) (T E : Nat → Prop) (x y : Bench) : Prop := Bench.Moves s.arrays T E x y

theorem isLender_eq_false :
    s.isLender k = false ↔ ∀ j sl, s.slots.get? j = some sl → sl.lender ≠ some k := by
  simp only [isLender, List.any_eq_false, beq_iff_eq, Prod.forall, Table.mem_entries]

theorem free (hl : s.isLender k = false) (hhand : ∀ sl ∈ hand, sl.lender ≠ some k) :
    Bench.Free ⟨h, s.slots, hand⟩ k := by
  rintro sl (⟨j, hj⟩ | hmem)
  · exact isLender_eq_false.mp hl j sl hj
  · exact hhand sl hmem

theorem free_nil (hl : s.isLender k = false) : Bench.Free ⟨h, s.slots, []⟩ k := free hl nofun

theorem isLender_put (hl : s.isLender k = false) (hlender : lender ≠ some k) (j : Nat) :
    (s.put j b lender).isLender k = false := by
  refine isLender_eq_false.mpr fun i sl hi => ?_
  simp only [put, Table.get?_put] at hi
  split at hi
  · cases hi
    exact fun heq => hlender (Slot.lender_settled heq)
  · exact isLender_eq_false.mp hl i sl hi

theorem releaseSlot_eq (s : Session) (k : Nat) (h : Host) :
    s.releaseSlot k h = (s.slots.get? k).elim h fun old => (old.buffer.release h).2 := by
  unfold releaseSlot buffer?
  cases s.slots.get? k <;> rfl

/-! ### Building -/

theorem moves_install {x : Bench} (hT : T k) (hl : s.isLender k = false)
    (hlender : lender ≠ some k) (M : s.Moves T E x ⟨h, s.slots, [⟨b, lender⟩]⟩) :
    s.Moves T E x (s.install k lender (.ok b, h)).1.bench := by
  have hfree : Bench.Free ⟨h, s.slots, [⟨b, lender⟩]⟩ k :=
    free hl fun sl hsl => by
      rw [List.mem_singleton.mp hsl]
      exact hlender
  have hreplace := M.trans (Bench.moves_replace hT hfree)
  rwa [← releaseSlot_eq] at hreplace

/-- A new buffer is made to borrow memory. -/
theorem moves_borrower {type : ElemType} {device : Device} {shape : Shape} {n : Nat}
    {address : Option Address} (hs : shape.count? = some n)
    (hl : Lies s.arrays s.slots type device n lender address) :
    s.Moves T E ⟨h, s.slots, hand⟩
      ⟨h, s.slots, ⟨.borrower type device address shape, lender⟩ :: hand⟩ :=
  .head (.create type device) (.single (.borrowAt rfl hs hl))

/-- The buffer of a slot is moved to another slot, and an empty one is left behind. -/
theorem moves_take {source : Nat} (hk : s.slots.get? source = some ⟨b, lender⟩) (hT : T k)
    (hTsource : T source) (hl : s.isLender k = false) (hlsource : s.isLender source = false) :
    s.Moves T E s.bench
      ((s.put source b.emptied none).install k lender (.ok b, s.host)).1.bench := by
  have hpick : s.Moves T E s.bench ⟨s.host, s.slots.erase source, [⟨b, lender⟩]⟩ :=
    .single (.pickUp hTsource hk (free_nil hlsource))
  have hcreate : s.Moves T E s.bench
      ⟨s.host, s.slots.erase source, [⟨b.emptied, none⟩, ⟨b, lender⟩]⟩ :=
    hpick.tail (.create b.type b.device)
  have hput : s.Moves T E s.bench
      ⟨s.host, s.slots.put source (Slot.settled ⟨b.emptied, none⟩), [⟨b, lender⟩]⟩ := by
    rw [← Table.put_erase]
    exact hcreate.tail (.putDown hTsource (s.slots.get?_erase_self source))
  have hl' : (s.put source b.emptied none).isLender k = false :=
    isLender_put hl (fun hnone => Option.some_ne_none k hnone.symm) source
  exact moves_install hT hl' (isLender_eq_false.mp hl source _ hk) hput

theorem moves_building {how : Build} {r : Session × Reply} (B : s.Building k how r)
    (hT : ∀ j ∈ (Command.build k how).targets, T j)
    (hl : ∀ j ∈ (Command.build k how).targets, s.isLender j = false) :
    s.Moves T E s.bench r.1.bench := by
  have hself : k ∈ (Command.build k how).targets := by
    cases how <;> simp [Command.targets]
  have hTk := hT k hself
  have hlk := hl k hself
  have hnone : none ≠ some k := (Option.some_ne_none k).symm
  cases B with
  | refused => exact .refl
  | failed B => exact Bench.moves_built_error B
  | built B => exact moves_install hTk hlk hnone (Bench.moves_built B)
  | borrower hs hlender hlies => exact moves_install hTk hlk hlender (moves_borrower hs hlies)
  | @view source b hother =>
    obtain ⟨hne, l, hget⟩ := otherBuffer?_eq_some.mp hother
    have hlend : s.Moves T E s.bench ⟨s.host, s.slots, [⟨b.lent, some source⟩]⟩ :=
      .head (.create b.type b.device) (.single (.lend rfl hget))
    exact moves_install hTk hlk (by simpa using Ne.symm hne) hlend
  | @take source b l hne hget =>
    have hsource : source ∈ (Command.build k (.take source)).targets := by simp [Command.targets]
    exact moves_take hget hTk (hT source hsource) hlk (hl source hsource)

/-! ### Changing -/

theorem moves_conclude {α : Type} {o : Outcome α} {answer : α → Answer}
    (hk : s.slots.get? k = some ⟨b, lender⟩) (hT : T k) (hl : s.isLender k = false)
    (M : Buffer.Moves (b, s.host) o.after) :
    s.Moves T E s.bench (s.conclude k lender answer o).1.bench :=
  Bench.moves_within hT hk (free_nil hl) (Bench.moves_act M)

/-- An operation that has failed before it touched anything leaves the slot as it is. -/
theorem conclude_failed {α : Type} {answer : α → Answer} {e : Error}
    (hk : s.slots.get? k = some ⟨b, lender⟩)
    (hs : Slot.settled ⟨b, lender⟩ = ⟨b, lender⟩) :
    (s.conclude k lender answer (.failed e b s.host)).1.bench = s.bench := by
  simp only [conclude, Outcome.failed, put, bench, hs, Table.put_eq_self hk]

theorem moves_conclude_reshaped {α : Type} {answer : α → Answer} {v : α} {c : Buffer}
    (hk : s.slots.get? k = some ⟨b, lender⟩) (hT : T k)
    (hs : Slot.settled ⟨b, lender⟩ = ⟨b, lender⟩) (R : b.Reshaped c) :
    s.Moves T E s.bench (s.conclude k lender answer (.done v c s.host)).1.bench := by
  have hsettled : Slot.settled ⟨c, lender⟩ = ⟨c, lender⟩ :=
    Slot.settled_of_samePlace hs R.samePlace
  simp only [conclude, Outcome.done, put, bench, hsettled]
  exact .single (.reshape hT hk R)

/-- The buffer of a slot lets go of its memory and borrows other memory. -/
theorem moves_borrowAt {α : Type} {answer : α → Answer} {v : α} {shape : Shape} {n : Nat}
    {lending : Option Nat} {address : Option Address} (hk : s.slots.get? k = some ⟨b, lender⟩)
    (hT : T k) (hl : s.isLender k = false) (hs : shape.count? = some n)
    (hlending : lending = lender ∨ lending ≠ some k)
    (hlies : Lies s.arrays s.slots b.type b.device n lending address) :
    s.Moves T E s.bench (s.conclude k lending answer
      (.done v (.borrower b.type b.device address shape) (b.release s.host).2)).1.bench := by
  have hne : lending ≠ some k := by
    rcases hlending with rfl | hne
    · exact isLender_eq_false.mp hl k _ hk
    · exact hne
  refine Bench.moves_within hT hk (free_nil hl) ?_
  have hrelease : s.Moves T E ⟨s.host, s.slots.erase k, [⟨b, lender⟩]⟩
      ⟨(b.release s.host).2, s.slots.erase k, [⟨.empty b.type b.device, lender⟩]⟩ :=
    .single (.act .letGo)
  exact hrelease.tail (.borrowAt rfl hs (hlies.erase hne))

theorem moves_borrow {α : Type} {answer : α → Answer} {v : α} {other : Nat} {c : Buffer}
    {l : Option Nat} (hk : s.slots.get? k = some ⟨b, lender⟩)
    (hother : s.slots.get? other = some ⟨c, l⟩) (hne : k ≠ other) (hT : T k)
    (hl : s.isLender k = false) :
    s.Moves T E s.bench
      (s.conclude k (some other) answer (.done v c.lent (b.release s.host).2)).1.bench := by
  refine Bench.moves_within hT hk (free_nil hl) ?_
  have hrelease : s.Moves T E ⟨s.host, s.slots.erase k, [⟨b, lender⟩]⟩
      ⟨(b.release s.host).2, s.slots.erase k, [⟨.empty b.type b.device, lender⟩]⟩ :=
    .single (.act .letGo)
  have hother : (s.slots.erase k).get? other = some ⟨c, l⟩ :=
    (s.slots.get?_erase_of_ne (Ne.symm hne)).trans hother
  exact hrelease.tail (.lend rfl hother)

theorem moves_swap {other : Nat} {c : Buffer} {l : Option Nat}
    (hk : s.slots.get? k = some ⟨b, lender⟩) (hother : s.slots.get? other = some ⟨c, l⟩)
    (hne : k ≠ other) (hT : T k) (hTother : T other) (hl : s.isLender k = false)
    (hlother : s.isLender other = false) :
    s.Moves T E s.bench ((s.put k c l).put other b lender).bench := by
  let t := (s.slots.erase k).erase other
  have hpick : s.Moves T E s.bench ⟨s.host, t, [⟨c, l⟩, ⟨b, lender⟩]⟩ := by
    have hnone : Bench.Free ⟨s.host, s.slots, []⟩ other := free_nil hlother
    have hfree : Bench.Free ⟨s.host, s.slots.erase k, [⟨b, lender⟩]⟩ other := fun sl hs =>
      hnone sl (Bench.has_pickUp hk hs)
    exact .head (.pickUp hT hk (free_nil hl))
      (.single (.pickUp hTother ((s.slots.get?_erase_of_ne (Ne.symm hne)).trans hother) hfree))
  have hk' : t.get? k = none := by
    rw [Table.get?_erase_of_ne _ hne, Table.get?_erase_self]
  have hother' : (t.put k (Slot.settled ⟨c, l⟩)).get? other = none := by
    rw [Table.get?_put_of_ne _ _ (Ne.symm hne), Table.get?_erase_self]
  have hput : s.Moves T E s.bench
      ⟨s.host, (t.put k (Slot.settled ⟨c, l⟩)).put other (Slot.settled ⟨b, lender⟩), []⟩ :=
    (hpick.tail (.putDown hT hk')).tail (.putDown hTother hother')
  have htable : (t.put k (Slot.settled ⟨c, l⟩)).put other (Slot.settled ⟨b, lender⟩) =
      (s.slots.put k (Slot.settled ⟨c, l⟩)).put other (Slot.settled ⟨b, lender⟩) :=
    Table.ext_get? fun j => by
      simp only [t, Table.get?_put, Table.get?_erase]
      split
      · rfl
      · split <;> rfl
  rwa [htable] at hput

theorem moves_changing (H : Bench.Sound s.arrays s.bench) {what : Change} {r : Session × Reply}
    (hk : s.slots.get? k = some ⟨b, lender⟩) (C : s.Changing k b lender what r)
    (hT : what.isWrite = false → ∀ j ∈ (Command.change k what).targets, T j)
    (hE : what.isWrite = true → E k)
    (hl : ∀ j ∈ (Command.change k what).exclusive, s.isLender j = false) :
    s.Moves T E s.bench r.1.bench := by
  have hTk (hw : what.isWrite = false) : T k := hT hw k (Command.mem_targets k what)
  have hlk (hexcl : what.isExclusive = true) : s.isLender k = false :=
    hl k (Command.mem_exclusive hexcl)
  have hs : Slot.settled ⟨b, lender⟩ = ⟨b, lender⟩ := H.settled hk
  cases C with
  | refused => exact .refl
  | reshaped hwhat ho =>
    rcases ho with ⟨e, -, rfl⟩ | ⟨c, R, rfl⟩
    · rw [conclude_failed hk hs]
    · exact moves_conclude_reshaped hk (hTk (Change.isReshape_spec hwhat).1) hs R
  | resized hwhat ho =>
    obtain ⟨hw, -, hexcl⟩ := Change.isResize_spec hwhat
    exact moves_conclude hk (hTk hw) (hlk hexcl) (Buffer.moves_of_cases ho)
  | reserve => exact moves_conclude hk (hTk rfl) (hlk rfl) (b.moves_reserve _ s.host)
  | release => exact moves_conclude hk (hTk rfl) (hlk rfl) (.single .letGo)
  | duplicate hother => exact moves_conclude hk (hTk rfl) (hlk rfl) (b.moves_duplicate _ s.host)
  | borrow hother =>
    obtain ⟨hne, l, hget⟩ := otherBuffer?_eq_some.mp hother
    exact moves_borrow hk hget hne (hTk rfl) (hlk rfl)
  | unassigned hwhat _ => rw [conclude_failed hk hs]
  | assigned hwhat hcount hlending hlies =>
    obtain ⟨hw, -, hexcl⟩ := Change.isAssignment_spec hwhat
    exact moves_borrowAt hk (hTk hw) (hlk hexcl) hcount hlending hlies
  | @swap other c l hne hget =>
    exact moves_swap hk hget hne (hTk rfl) (hT rfl other (by simp [Command.targets])) (hlk rfl)
      (hl other (by simp [Command.exclusive]))
  | written hw hp W => exact Bench.moves_edits (hE hw) hk W.edits
  | unwritten hw D => exact Bench.moves_logs D
  | drop => exact .head (.pickUp (hTk rfl) hk (free_nil (hlk rfl))) (Bench.moves_drop ⟨b, lender⟩)

/-! ### Asking -/

theorem logs_toList (b : Buffer) (t : ElemType) (h : Host) :
    Host.Edits none h (b.toList t h).2 := by
  rw [Buffer.toList]
  split
  · exact .refl
  · split
    · exact .refl
    · split
      · exact .refl
      · split
        · exact .refl
        · split
          · exact .refl
          · exact Host.edits_log rfl

theorem logs_text (b : Buffer) (h : Host) : Host.Edits none h (b.text h).2 := by
  have hlist := logs_toList b b.type h
  rw [Buffer.text]
  split <;> simp_all

theorem moves_reportListing {α : Type} {answer : α → Answer} {r : Listing α × Host}
    (D : Host.Edits none s.host r.2) :
    s.Moves T E s.bench (s.reportListing answer r).1.bench := by
  unfold reportListing
  split <;> exact Bench.moves_logs D

/-- A comparison builds two copies in hand and drops them. -/
theorem moves_checkClose (got expected : Buffer) (tolerance : BitVec 64) :
    s.Moves T E s.bench (s.concludeCopy (got.checkClose expected tolerance s.host)).1.bench := by
  have hmoves : s.Moves T E ⟨s.host, s.slots, []⟩
      ⟨(got.checkClose expected tolerance s.host).2, s.slots, []⟩ := by
    rw [Buffer.checkClose]
    split
    · exact .refl
    · split
      · exact .refl
      · have B := got.built_copyTo .cpu s.host
        split
        · rename_i he
          rw [he] at B
          exact Bench.moves_built_error B
        · rename_i h' hg
          rw [hg] at B
          have B' := expected.built_copyTo .cpu h'
          split
          · rename_i he
            rw [he] at B'
            exact (Bench.moves_built B).trans
              ((Bench.moves_built_error B').trans (Bench.moves_drop _))
          · rename_i he
            rw [he] at B'
            exact (Bench.moves_built B).trans ((Bench.moves_built B').trans
              ((Bench.moves_drop _).trans (Bench.moves_drop _)))
  exact hmoves

theorem moves_queryBuffer (b : Buffer) (what : Query) :
    s.Moves T E s.bench (s.queryBuffer b what).1.bench := by
  cases what with
  | toList t => exact moves_reportListing (logs_toList b t s.host)
  | text => exact moves_reportListing (logs_text b s.host)
  | close other tolerance =>
    simp only [queryBuffer]
    split
    · exact moves_checkClose b _ tolerance
    · exact .refl
  | stride axis =>
    simp only [queryBuffer]
    split <;> exact .refl
  | samePlace other t =>
    simp only [queryBuffer]
    split <;> exact .refl
  | _ => exact .refl

/-! ### All commands -/

theorem moves_step (H : Bench.Sound s.arrays s.bench) (c : Command) :
    s.Moves c.Touches c.Writes s.bench (s.step c).1.bench := by
  unfold step
  split
  · exact .refl
  · rename_i hfrozen
    have hl : ∀ j ∈ c.exclusive, s.isLender j = false := by simpa using hfrozen
    cases c with
    | build k how =>
      refine moves_building (s.building k how) (fun _ hj => Command.touches_build hj)
        fun j hj => hl j ?_
      cases how <;> exact hj
    | change k what =>
      simp only [change]
      split
      · rename_i b lender hk
        have hv : b.Valid := H.valid (.inl ⟨k, hk⟩)
        exact moves_changing H hk (changing hv.size_le lender what)
          (fun hw _ hj => Command.touches_change hw hj) (fun hw => ⟨what, rfl, hw⟩) hl
      · exact .refl
    | query k what =>
      simp only [query]
      split
      · exact moves_queryBuffer _ what
      · exact .refl

section
variable {α : Type} {answer : α → Answer}

@[simp] theorem arrays_install (made : Except Error Buffer × Host) :
    (s.install k lender made).1.arrays = s.arrays := by
  unfold install
  split <;> rfl

@[simp] theorem arrays_conclude (o : Outcome α) :
    (s.conclude k lender answer o).1.arrays = s.arrays := rfl

@[simp] theorem arrays_concludeWrite (r : Except Error (α × Host)) :
    (s.concludeWrite answer r).1.arrays = s.arrays := by
  unfold concludeWrite
  split <;> rfl

@[simp] theorem arrays_reportListing (r : Listing α × Host) :
    (s.reportListing answer r).1.arrays = s.arrays := by
  unfold reportListing
  split <;> rfl

end

theorem arrays_build (k : Nat) (how : Build) : (s.build k how).1.arrays = s.arrays := by
  cases how <;> simp only [build] <;> (repeat' split) <;> simp [refuse, put]

theorem arrays_changeBuffer (k : Nat) (what : Change) :
    (s.changeBuffer k b lender what).1.arrays = s.arrays := by
  cases what <;> simp only [changeBuffer] <;> (repeat' split) <;>
    simp [refuse, put, concludeCopy]

theorem arrays_queryBuffer (b : Buffer) (what : Query) :
    (s.queryBuffer b what).1.arrays = s.arrays := by
  cases what <;> simp only [queryBuffer] <;> (repeat' split) <;>
    simp [refuse, report, concludeCopy]

/-- No command adds or loses an array. -/
theorem arrays_step (s : Session) (c : Command) : (s.step c).1.arrays = s.arrays := by
  unfold step
  split
  · rfl
  · cases c with
    | build k how => exact arrays_build k how
    | change k what =>
      simp only [change]
      split
      · exact arrays_changeBuffer k what
      · rfl
    | query k what =>
      simp only [query]
      split
      · exact arrays_queryBuffer _ what
      · rfl

end Session

end NdBuffer
