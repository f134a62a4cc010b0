import NdBuffer.Proofs.Session.Failure
import NdBuffer.Proofs.Session.Refitting

/-!
# Borrowers that are given other shapes

A buffer that borrows memory keeps to it: a shape for more elements than it has room for is refused,
and any other shape leaves the memory of the session as it is (`Session.Calls.sameMemory`). A buffer
that was made to borrow from one without memory has nothing to keep to. Within its capacity it is
like any other borrower, but a shape beyond it is not refused: the buffer grows as an empty one
does, and may end up with a block of its own (`Session.Outgrows.step`).
-/

namespace NdBuffer

/-- Whether every block is still there, with the same bytes. -/
def Heap.Keeps (h h' : Heap) : Prop :=
  ∀ (id : BlockId) (block : Block), h.blocks[id]? = some block → h'.blocks[id]? = some block

namespace Buffer

variable {b : Buffer} {s : Shape} {h : Host} {n : Nat}

theorem resize_of_borrowed (ho : b.isOwner = false) (hnull : b.isNull = false)
    (hs : s.count? = some n) (hn : b.capacity < n) :
    b.resize s h = .failed (.borrowedGrowth b.capacity n) b h := by
  have hborrowed : b.isBorrowed ∧ ¬ b.isNull := by simp [isBorrowed, ho, hnull]
  rw [resize, Shape.checkedCount_eq_ok.mpr hs]
  simp only [if_neg (Nat.not_le.mpr hn), if_pos hborrowed]

theorem resize_of_count?_eq_none (hs : s.count? = none) :
    b.resize s h = .failed (.shapeOverflow s.extents) b h := by
  rw [resize, Shape.checkedCount_eq_error.mpr ⟨hs, rfl⟩]

/-- A borrower without memory grows as an empty buffer does. Nothing is returned for it, and no
block is changed. -/
theorem resize_of_isNull (ho : b.isOwner = false) (hnull : b.isNull = true)
    (hs : s.count? = some n) (hn : b.capacity < n) :
    (∀ m m', (b.resize s h).result ≠ .error (.borrowedGrowth m m')) ∧
      h.heap.Keeps (b.resize s h).host.heap := by
  have hrelease (h : Host) : (b.release h).2 = h :=
    release_snd_of_not_owned (by simp [ownAddress?, ho]) h
  have R := b.resizing s h
  generalize b.resize s h = o at R
  cases R with
  | overflow hs' => cases hs.symm.trans hs'
  | kept hs' hle =>
    cases hs.symm.trans hs'
    exact absurd hn (Nat.not_lt.mpr hle)
  | denied _ _ _ hnull' => cases hnull.symm.trans hnull'
  | tooLarge _ _ _ _ =>
    refine ⟨?_, fun _ _ hid => hid⟩
    intro m m' heq
    cases heq
  | refused _ _ _ he =>
    rw [hrelease]
    refine ⟨?_, fun _ _ hid => hid⟩
    intro m m' heq
    cases heq
    cases he
  | replaced _ _ _ _ _ ha =>
    rw [hrelease] at ha ⊢
    obtain ⟨-, -, rfl⟩ := Heap.alloc_ok ha
    constructor
    · intro m m' heq
      cases heq
    · intro id block hid
      have hlt := (List.getElem?_eq_some_iff.mp hid).1
      simpa [Outcome.done, List.getElem?_append_left hlt] using hid

theorem SamePlace.isNull {c : Buffer} (H : b.SamePlace c) : c.isNull = b.isNull := by
  rw [Buffer.isNull, Buffer.isNull, H.address]

end Buffer

namespace Session

variable {s s' s'' : Session} {k n : Nat} {b c : Buffer} {lender : Option Nat} {what : Change}

/-- Whether a change of the resize family asks for more elements than there is room for. -/
structure Outgrows (s : Session) (k : Nat) (b : Buffer) (what : Change) (n : Nat) : Prop where
  isResize : what.isResize = true
  asked : ∃ shape, s.shapeAsked? k b what = some shape ∧ shape.count? = some n
  exceeds : b.capacity < n

/-- Calls on the buffer of a slot that are meant to change its shape, of which none asks for more
elements than there is room for while the buffer has no memory. -/
inductive Calls (k : Nat) : Session → List Change → Prop
  | nil {s : Session} : Calls k s []
  | cons {s : Session} {what : Change} {calls : List Change} :
    what.isReshape = true ∨ what.isResize = true →
    (∀ b n, s.buffer? k = some b → s.Outgrows k b what n → b.isNull = false) →
    Calls k (s.step (.change k what)).1 calls → Calls k s (what :: calls)

/-- Nothing is different but the shape of the buffer `b` of a slot. -/
structure SameMemory (s : Session) (k : Nat) (b : Buffer) (s' : Session) : Prop where
  host : s'.host = s.host
  others : ∀ j, j ≠ k → s'.slots.get? j = s.slots.get? j
  buffer : ∃ c, s'.buffer? k = some c ∧ b.SamePlace c

theorem SameMemory.rfl (hb : s.buffer? k = some b) : s.SameMemory k b s :=
  ⟨.refl _, fun _ _ => .refl _, b, hb, .rfl⟩

theorem SameMemory.trans (H : s.SameMemory k b s') (hc : s'.buffer? k = some c)
    (H' : s'.SameMemory k c s'') : s.SameMemory k b s'' where
  host := H'.host.trans H.host
  others j hj := (H'.others j hj).trans (H.others j hj)
  buffer := by
    obtain ⟨c', hc', hplace⟩ := H.buffer
    cases hc.symm.trans hc'
    obtain ⟨d, hd, hplace'⟩ := H'.buffer
    exact ⟨d, hd, hplace.trans hplace'⟩

/-! ### One call -/

theorem conclude_failed_eq {α : Type} {answer : α → Answer} {e : Error} (H : s.Sound)
    (hk : s.slots.get? k = some ⟨b, lender⟩) :
    s.conclude k lender answer (.failed e b s.host) = (s, .answered (.error e)) := by
  have hsettled : Slot.settled ⟨b, lender⟩ = ⟨b, lender⟩ := H.settled hk
  simp only [conclude, Outcome.failed, put, hsettled, Table.put_eq_self hk, Except.map]

theorem sameMemory_conclude {α : Type} {answer : α → Answer} {v : α} (hplace : b.SamePlace c) :
    s.SameMemory k b (s.conclude k lender answer (.done v c s.host)).1 where
  host := rfl
  others _ hj := Table.get?_put_of_ne _ _ hj
  buffer := by
    refine ⟨c, ?_, hplace⟩
    simp [conclude, Outcome.done, put, buffer?]

theorem samePlace_setShape (b : Buffer) (shape : Shape) : b.SamePlace (b.setShape shape) :=
  ⟨rfl, rfl, rfl, rfl, rfl⟩

theorem sameMemory_changeBuffer (H : s.Sound) (hk : s.slots.get? k = some ⟨b, lender⟩)
    (ho : b.isOwner = false) (hwhat : what.isReshape = true ∨ what.isResize = true)
    (hmem : ∀ n, s.Outgrows k b what n → b.isNull = false) :
    s.SameMemory k b (s.changeBuffer k b lender what).1 := by
  have hsame : s.SameMemory k b s := .rfl (buffer?_eq_some.mpr ⟨lender, hk⟩)
  have hfailed (e : Error) :
      s.SameMemory k b (s.conclude k lender nothing (.failed e b s.host)).1 := by
    rwa [conclude_failed_eq H hk]
  rcases hwhat with hwhat | hwhat
  · cases what with
    | reshape shape =>
      rw [changeBuffer]
      rcases b.reshape_cases shape s.host with ⟨e, -, he⟩ | ⟨-, he⟩
      · rw [he]
        exact hfailed e
      · rw [he]
        exact sameMemory_conclude (samePlace_setShape b shape)
    | clear => exact sameMemory_conclude ⟨rfl, rfl, rfl, rfl, rfl⟩
    | _ => cases hwhat
  · cases hs : s.shapeAsked? k b what with
    | none =>
      rcases changeBuffer_of_not_asked hwhat hs lender with he | ⟨e, he⟩
      · rw [he]
        exact hsame
      · rw [he]
        exact hfailed e
    | some shape =>
      rw [changeBuffer_of_isResize hwhat hs]
      cases hcount : shape.count? with
      | none =>
        rw [Buffer.resize_of_count?_eq_none hcount]
        exact hfailed _
      | some n =>
        rcases Nat.lt_or_ge b.capacity n with hlt | hle
        · have hnull := hmem n ⟨hwhat, ⟨shape, hs, hcount⟩, hlt⟩
          rw [Buffer.resize_of_borrowed ho hnull hcount hlt]
          exact hfailed _
        · rw [Buffer.resize_of_le hcount hle]
          exact sameMemory_conclude (samePlace_setShape b shape)

/-- A call that does not outgrow a borrower without memory changes the shape at most. -/
theorem sameMemory_step (H : s.Sound) (hb : s.buffer? k = some b) (ho : b.isOwner = false)
    (hwhat : what.isReshape = true ∨ what.isResize = true)
    (hmem : ∀ n, s.Outgrows k b what n → b.isNull = false) :
    s.SameMemory k b (s.step (.change k what)).1 := by
  obtain ⟨lender, hk⟩ := buffer?_eq_some.mp hb
  by_cases hl : ∀ j ∈ (Command.change k what).exclusive, s.isLender j = false
  · rw [step_change_of_get? hk hl]
    exact sameMemory_changeBuffer H hk ho hwhat hmem
  · rw [step_of_frozen hl]
    exact .rfl hb

/-- A call that outgrows the buffer is a resize. -/
theorem Outgrows.step_eq (O : s.Outgrows k b what n) (hk : s.slots.get? k = some ⟨b, lender⟩)
    (hl : s.isLender k = false) :
    ∃ shape, shape.count? = some n ∧
      s.step (.change k what) = s.conclude k lender nothing (b.resize shape s.host) := by
  obtain ⟨shape, hs, hcount⟩ := O.asked
  refine ⟨shape, hcount, ?_⟩
  rw [← changeBuffer_of_isResize O.isResize hs lender]
  apply step_change_of_get? hk
  rw [Change.exclusive_of_isResize O.isResize]
  simpa using hl

/-- What happens to a borrower that is to grow beyond its capacity. -/
theorem Outgrows.step (O : s.Outgrows k b what n) (H : s.Sound) (hb : s.buffer? k = some b)
    (ho : b.isOwner = false) (hl : s.isLender k = false) :
    (b.isNull = false →
        s.step (.change k what) = (s, .answered (.error (.borrowedGrowth b.capacity n)))) ∧
      (b.isNull = true →
        (∀ m m', (s.step (.change k what)).2 ≠ .answered (.error (.borrowedGrowth m m'))) ∧
        s.host.heap.Keeps (s.step (.change k what)).1.host.heap) := by
  obtain ⟨lender, hk⟩ := buffer?_eq_some.mp hb
  obtain ⟨shape, hcount, hstep⟩ := O.step_eq hk hl
  rw [hstep]
  constructor
  · intro hnull
    rw [Buffer.resize_of_borrowed ho hnull hcount O.exceeds]
    exact conclude_failed_eq H hk
  · intro hnull
    obtain ⟨hresult, hblocks⟩ := Buffer.resize_of_isNull (h := s.host) ho hnull hcount O.exceeds
    refine ⟨fun m m' heq => hresult m m' ?_, hblocks⟩
    exact result_of_conclude heq

/-! ### Runs of calls -/

theorem Calls.sameMemory {calls : List Change} (C : Calls k s calls) (H : s.Sound)
    (hb : s.buffer? k = some b) (ho : b.isOwner = false) :
    s.SameMemory k b (s.run (calls.map (.change k))) := by
  induction C generalizing b with
  | nil => exact .rfl hb
  | @cons s what calls hwhat hmem _ ih =>
    have hstep := sameMemory_step H hb ho hwhat (fun n => hmem b n hb)
    obtain ⟨c, hc, hplace⟩ := hstep.buffer
    exact hstep.trans hc (ih (sound_step H _) hc (hplace.isOwner.trans ho))

/-- A borrower that has memory keeps it, so none of the calls can outgrow one without. -/
theorem calls_of_isNull_eq_false {calls : List Change} (H : s.Sound) (hb : s.buffer? k = some b)
    (ho : b.isOwner = false) (hnull : b.isNull = false)
    (hcalls : ∀ what ∈ calls, what.isReshape = true ∨ what.isResize = true) :
    Calls k s calls := by
  induction calls generalizing s b with
  | nil => exact .nil
  | cons what calls ih =>
    have hwhat := hcalls what List.mem_cons_self
    obtain ⟨c, hc, hplace⟩ := (sameMemory_step H hb ho hwhat (fun _ _ => hnull)).buffer
    apply Calls.cons hwhat
    · intro b' n hb' _
      cases hb.symm.trans hb'
      exact hnull
    · exact ih (sound_step H _) hc (hplace.isOwner.trans ho) (hplace.isNull.trans hnull)
        fun what hmem => hcalls what (List.mem_cons_of_mem _ hmem)

/-- Giving other shapes to a buffer that borrows. As long as the buffer has memory or the shapes
need no more elements than there is room for, nothing of the session changes but the shape, whatever
succeeds or fails: no memory is allocated, returned or written, and the buffer goes on to borrow
what it borrows. A call that needs more is refused, and nothing changes at all. Only if the buffer
has no memory it is not refused as that of a borrower, and then too every block is left as it is. -/
theorem borrowing_run (system : Allocator) (arrays : List ((t : ElemType) × List (Elem t)))
    (cs : List Command)
    (hb : ((Session.start system arrays).run cs).buffer? k = some b) (ho : b.isOwner = false) :
    let s := (Session.start system arrays).run cs
    (b.isNull = false → ∀ calls : List Change,
      (∀ what ∈ calls, what.isReshape = true ∨ what.isResize = true) → Calls k s calls) ∧
    ∀ calls, Calls k s calls →
      let s' := s.run (calls.map (.change k))
      s.SameMemory k b s' ∧
        ∀ c what n, s'.buffer? k = some c → s'.Outgrows k c what n → s'.isLender k = false →
          (b.isNull = false →
            s'.step (.change k what) = (s', .answered (.error (.borrowedGrowth b.capacity n)))) ∧
          (b.isNull = true →
            (∀ m m', (s'.step (.change k what)).2 ≠ .answered (.error (.borrowedGrowth m m'))) ∧
            s'.host.heap.Keeps (s'.step (.change k what)).1.host.heap) := by
  intro s
  have H : s.Sound := sound_run system arrays cs
  refine ⟨fun hnull calls => calls_of_isNull_eq_false H hb ho hnull, fun calls C => ?_⟩
  intro s'
  have hsame : s.SameMemory k b s' := C.sameMemory H hb ho
  refine ⟨hsame, fun c what n hc O hl => ?_⟩
  obtain ⟨c', hc', hplace⟩ := hsame.buffer
  cases hc.symm.trans hc'
  have hstep := O.step (sound_foldl H _) hc (hplace.isOwner.trans ho) hl
  rwa [hplace.isNull, hplace.capacity] at hstep

/-- A buffer that borrows an array of two bytes is cleared and is refused room for three. -/
theorem borrowing_run_ofArray :
    let s := (Session.start (.below 4096) [⟨.u8, [1, 2]⟩]).run
      [.build 0 (.ofArray ⟨[2]⟩ ⟨0, none, none⟩)]
    let s' := s.run [.change 0 .clear]
    ∃ b, s.buffer? 0 = some b ∧ b.isOwner = false ∧ s.SameMemory 0 b s' ∧
      s'.step (.change 0 (.resize ⟨[3]⟩)) =
        (s', .answered (.error (.borrowedGrowth 2 3))) := by
  intro s s'
  obtain ⟨hcalls, hrun⟩ := borrowing_run (.below 4096) [⟨.u8, [1, 2]⟩]
    [.build 0 (.ofArray ⟨[2]⟩ ⟨0, none, none⟩)] (k := 0) rfl rfl
  obtain ⟨hsame, hstep⟩ := hrun [.clear] (hcalls rfl _ (by simp [Change.isReshape]))
  refine ⟨_, rfl, rfl, hsame, ?_⟩
  exact (hstep _ (.resize ⟨[3]⟩) 3 rfl ⟨rfl, ⟨_, rfl, rfl⟩, by decide⟩ rfl).1 rfl

/-- A view of a buffer without memory is given room for one byte, and owns it. -/
theorem borrower_becomes_owner :
    let s := (Session.start (.below 4096) []).run [.build 0 (.empty .u8 .cpu), .build 1 (.view 0)]
    let s' := (s.step (.change 1 (.resize ⟨[1]⟩))).1
    ∃ b, s.buffer? 1 = some b ∧ b.isOwner = false ∧ s.Outgrows 1 b (.resize ⟨[1]⟩) 1 ∧
      (s.step (.change 1 (.resize ⟨[1]⟩))).2 = .answered (.ok .nothing) ∧
      s'.host.log = [.growing .u8 .cpu 0 1, .allocated .u8 .cpu 64] ∧
      ∃ c, s'.buffer? 1 = some c ∧ c.ownsMemory = true :=
  ⟨_, rfl, rfl, ⟨rfl, ⟨_, rfl, rfl⟩, by decide⟩, rfl, rfl, _, rfl, rfl⟩

end Session

end NdBuffer
