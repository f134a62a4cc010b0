import NdBuffer.Proofs.Session.Reachable

/-!
# What a failure leaves behind

A change of a buffer that fails has one of two outcomes. If a new block was asked for and not given,
the old memory has been let go of already, and the buffer is left empty (`Session.Emptied`). In all
other cases the failure comes before anything is touched (`Session.Untouched`). Only the changes of
shape and capacity that may allocate know the first outcome; making a duplicate, which is made of
several changes, is left out.
-/

namespace NdBuffer

namespace Buffer

variable {b : Buffer} {h : Host}

/-- The ways in which a change of shape or capacity fails. -/
inductive Failed (b : Buffer) (h : Host) : Outcome Unit → Prop
  | kept {e : Error} {h' : Host} : e.isRefusal = false → h'.heap = h.heap →
    Failed b h (.failed e b h')
  | emptied {e : Error} {h' : Host} : e.isRefusal = true → h'.heap = h.heap →
    Failed b h (.failed e (empty b.type b.device) (b.release h').2)

theorem failed_resize {s : Shape} {e : Error} (he : (b.resize s h).result = .error e) :
    Failed b h (b.resize s h) := by
  have R := b.resizing s h
  revert he
  generalize b.resize s h = o at R
  intro he
  cases R with
  | overflow _ | denied _ _ _ _ => exact .kept rfl rfl
  | tooLarge _ _ _ _ => exact .kept rfl (Eq.refl h.heap)
  | refused _ _ _ hrefusal => exact .emptied hrefusal rfl
  | kept _ _ => cases he
  | replaced _ _ _ _ _ _ => cases he

theorem failed_of_cases {o : Outcome Unit} {e : Error}
    (ho : (∃ e, e.isRefusal = false ∧ o = .failed e b h) ∨ ∃ s, o = b.resize s h)
    (he : o.result = .error e) : Failed b h o := by
  rcases ho with ⟨e, hrefusal, rfl⟩ | ⟨s, rfl⟩
  · exact .kept hrefusal rfl
  · exact failed_resize he

theorem failed_allocate {n : Nat} {e : Error} (he : (b.allocate n h).result = .error e) :
    Failed b h (b.allocate n h) := by
  have A := b.allocation n h
  revert he
  generalize b.allocate n h = o at A
  intro he
  cases A with
  | overflow _ => exact .kept rfl rfl
  | refused hrefusal => exact .emptied hrefusal rfl
  | nothing _ => cases he
  | granted _ _ _ _ => cases he

theorem failed_reserve {n : Nat} {e : Error} (he : (b.reserve n h).result = .error e) :
    Failed b h (b.reserve n h) := by
  by_cases hn : n ≤ b.capacity
  · rw [reserve, if_pos hn] at he
    cases he
  · rw [reserve, if_neg hn] at he ⊢
    exact failed_allocate he

/-- Memory that a buffer owns is returned under its own layout. -/
theorem heap_release_of_owned {a : Address} (hv : b.Valid) (ho : b.isOwner = true)
    (ha : b.address? = some a) (hl : Layout.Valid ⟨b.blockBytes, standardAlignment⟩) :
    (b.release h).2.heap = h.heap.giveBack a.block ⟨b.blockBytes, standardAlignment⟩ := by
  rw [release_snd_of_owned ho ha (hv.owned ho ha).1, Host.free, if_pos hl]
  rfl

end Buffer

namespace Session

variable {s s' : Session} {k : Nat} {b : Buffer} {lender : Option Nat} {what : Change} {e : Error}

/-- Nothing has changed but the log. -/
structure Untouched (s s' : Session) : Prop where
  slots : s'.slots = s.slots
  heap : s'.host.heap = s.host.heap

/-- The buffer of a slot has been left empty. A block that it owned has been returned, once, and no
other block has changed. -/
structure Emptied (s s' : Session) (k : Nat) (b : Buffer) : Prop where
  buffer : s'.buffer? k = some (.empty b.type b.device)
  others : ∀ j, j ≠ k → s'.slots.get? j = s.slots.get? j
  returned : ∀ id, s.Owns k id → ∃ block l, s.host.heap.blocks[id]? = some block ∧
    block.layout = some l ∧ block.returned = [] ∧
    s'.host.heap.blocks[id]? = some (block.giveBack l)
  kept : ∀ id, ¬ s.Owns k id → s'.host.heap.blocks[id]? = s.host.heap.blocks[id]?

theorem result_of_conclude {α : Type} {o : Outcome α} {answer : α → Answer}
    (hr : (s.conclude k lender answer o).2 = .answered (.error e)) : o.result = .error e := by
  cases ho : o.result with
  | error e' => simpa [conclude, ho, Except.map] using hr
  | ok v => simp [conclude, ho, Except.map] at hr

theorem untouched_conclude {α : Type} {answer : α → Answer} {h' : Host} (H : s.Sound)
    (hk : s.slots.get? k = some ⟨b, lender⟩) (hh : h'.heap = s.host.heap) :
    Untouched s (s.conclude k lender answer (.failed e b h')).1 where
  slots := by
    have hs : Slot.settled ⟨b, lender⟩ = ⟨b, lender⟩ := H.settled hk
    simp only [conclude, Outcome.failed, put, hs, Table.put_eq_self hk]
  heap := hh

theorem emptied_conclude {α : Type} {answer : α → Answer} {h' : Host} (H : s.Sound)
    (hk : s.slots.get? k = some ⟨b, lender⟩) (hh : h'.heap = s.host.heap) :
    Emptied s (s.conclude k lender answer
      (.failed e (.empty b.type b.device) (b.release h').2)).1 k b where
  buffer := buffer?_eq_some.mpr ⟨none, Table.get?_put_self ..⟩
  others j hj := Table.get?_put_of_ne _ _ hj
  returned id howns := by
    have hb : s.buffer? k = some b := buffer?_eq_some.mpr ⟨lender, hk⟩
    obtain ⟨block, hblock, hl, hr, -⟩ := Owns.block H howns hb
    obtain ⟨b', hb', howner, ha⟩ := howns
    obtain rfl : b = b' := Option.some.inj (hb.symm.trans hb')
    have ho : b.isOwner = true := ((Bool.and_eq_true _ _).mp howner).1
    rw [show b.reserved = b.blockBytes from if_pos ho] at hl
    have hvalid := ((H.ledger.accounted block (List.mem_of_getElem? hblock)).aligned hl).1
    have hv : b.Valid := H.valid (.inl ⟨k, hk⟩)
    have hheap : (b.release h').2.heap = s.host.heap.giveBack id ⟨b.blockBytes, 64⟩ := by
      rw [← hh]
      exact Buffer.heap_release_of_owned hv ho ha hvalid
    exact ⟨block, _, hblock, hl, hr, hheap ▸ Heap.blocks_giveBack_self hblock⟩
  kept id hid := by
    rw [← hh]
    cases ha : b.ownAddress? with
    | none => exact congrArg (·.heap.blocks[id]?) (Buffer.release_snd_of_not_owned ha h')
    | some a =>
      obtain ⟨ho, ha'⟩ := Buffer.ownAddress?_eq_some.mp ha
      have hmem := Buffer.mem_holdings.mpr ⟨a, ho, ha', rfl⟩
      refine Buffer.blocks_release_of_ne ho ha' (fun heq => hid ?_) h'
      exact (owns_iff H).mpr ⟨_, hk, _, hmem, heq⟩

/-- What is left in a session by a change of shape or capacity that fails. -/
theorem conclude_of_failed {o : Outcome Unit} {answer : Unit → Answer} (H : s.Sound)
    (hk : s.slots.get? k = some ⟨b, lender⟩)
    (F : o.result = .error e → b.Failed s.host o)
    (hr : (s.conclude k lender answer o).2 = .answered (.error e)) :
    if e.isRefusal then Emptied s (s.conclude k lender answer o).1 k b
    else Untouched s (s.conclude k lender answer o).1 := by
  have he := result_of_conclude hr
  cases F he with
  | kept hrefusal hh =>
    cases he
    rw [hrefusal]
    exact untouched_conclude H hk hh
  | emptied hrefusal hh =>
    cases he
    rw [hrefusal]
    exact emptied_conclude H hk hh

theorem changing_error {r : Session × Reply} (H : s.Sound)
    (hk : s.slots.get? k = some ⟨b, lender⟩) (C : s.Changing k b lender what r)
    (hdup : ∀ other, what ≠ .duplicate other) (hr : r.2 = .answered (.error e)) :
    if what.mayAllocate && e.isRefusal then Emptied s r.1 k b else Untouched s r.1 := by
  cases C with
  | refused => cases hr
  | reshaped hwhat ho =>
    rw [(Change.isReshape_spec hwhat).2]
    rcases ho with ⟨e', -, rfl⟩ | ⟨c, -, rfl⟩
    · exact untouched_conclude H hk rfl
    · cases hr
  | resized hwhat ho =>
    rw [(Change.isResize_spec hwhat).2.1]
    exact conclude_of_failed H hk (Buffer.failed_of_cases ho) hr
  | reserve => exact conclude_of_failed H hk Buffer.failed_reserve hr
  | release => cases hr
  | duplicate hother => exact absurd rfl (hdup _)
  | borrow hother => cases hr
  | unassigned hwhat he =>
    rw [(Change.isAssignment_spec hwhat).2.1]
    exact untouched_conclude H hk rfl
  | assigned _ _ _ _ => cases hr
  | swap hne hget => cases hr
  | written hw hp W => cases hr
  | unwritten hw D =>
    rw [Change.isWrite_spec hw]
    exact ⟨rfl, D.heap⟩
  | drop => cases hr

/-- A change that fails leaves everything as it was but the log, except that a change of shape or
capacity which is refused a new block has let go of the old one and leaves the buffer empty. -/
theorem failure_run (system : Allocator) (arrays : List ((t : ElemType) × List (Elem t)))
    (cs : List Command) (hdup : ∀ other, what ≠ .duplicate other)
    (hr : (((Session.start system arrays).run cs).step (.change k what)).2 = .answered (.error e)) :
    let s := (Session.start system arrays).run cs
    let s' := (s.step (.change k what)).1
    ∃ b, s.buffer? k = some b ∧
      if what.mayAllocate && e.isRefusal then Emptied s s' k b else Untouched s s' := by
  intro s s'
  have H : s.Sound := sound_run system arrays cs
  obtain ⟨b, lender, hk, C⟩ := changing_of_answered H hr
  exact ⟨b, buffer?_eq_some.mpr ⟨lender, hk⟩, changing_error H hk C hdup hr⟩

/-- A buffer of two bytes is resized to three on a host that gives one block in all. It is left
empty. -/
theorem failure_run_outOfMemory :
    let s := (Session.start (fun used _ => used.isEmpty) []).run
      [.build 0 (.ofShape ⟨[2]⟩ .i8 .cpu)]
    let resize : Command := .change 0 (.resize ⟨[3]⟩)
    (s.step resize).2 = .answered (.error (.memory (.outOfMemory ⟨64, 64⟩))) ∧
      ∃ b, s.buffer? 0 = some b ∧ b.size = 2 ∧ Emptied s (s.step resize).1 0 b := by
  intro s resize
  have hr : (s.step resize).2 = .answered (.error (.memory (.outOfMemory ⟨64, 64⟩))) := rfl
  have hdup (other : Nat) : Change.resize ⟨[3]⟩ ≠ .duplicate other := by
    intro h
    cases h
  obtain ⟨b, hb, hempty⟩ := failure_run (fun used _ => used.isEmpty) []
    [.build 0 (.ofShape ⟨[2]⟩ .i8 .cpu)] hdup hr
  obtain rfl := Option.some.inj hb
  exact ⟨hr, _, rfl, rfl, hempty⟩

end Session

end NdBuffer
