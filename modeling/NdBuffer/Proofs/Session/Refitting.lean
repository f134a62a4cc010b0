import NdBuffer.Proofs.Buffer.Refitting
import NdBuffer.Proofs.Session.Reachable

/-!
# Runs of shapes for which there is room

A buffer is given one shape after the other, by any of the operations that do so, and none of the
shapes needs more elements than there is room for (`Session.Refits`). Such a run is one assignment:
nothing in the session is different but the shape of the buffer, and this is the last one that was
asked for (`Session.Refits.run_eq`).
-/

namespace NdBuffer

namespace Buffer

variable {b : Buffer} {s : Shape} {h : Host}

/-- A resize that succeeds within the room that there is. -/
theorem resize_of_ok (hok : (b.resize s h).result = .ok ()) (hn : s.count ≤ b.capacity) :
    b.resize s h = .done () (b.setShape s) h := by
  have R := b.resizing s h
  revert hok
  generalize b.resize s h = o at R
  intro hok
  cases R with
  | kept _ _ => rfl
  | overflow _ | denied _ _ _ _ | tooLarge _ _ _ _ | refused _ _ _ _ => cases hok
  | replaced hs hlt _ _ _ _ => exact absurd (Shape.count_eq hs ▸ hn) (Nat.not_le.mpr hlt)

/-- A buffer that lies where another one does and has a shape, whose elements are read from that
place. -/
structure Refitted (b : Buffer) (s : Shape) (m : Heap) (c : Buffer) : Prop where
  place : b.SamePlace c
  blockBytes : c.blockBytes = b.blockBytes
  shape : c.shape = s
  strides : c.strides = s.strides
  size : c.size = s.count
  contents : ∀ t, c.contents t m = match b.address? with
    | some a => m.elements t a s.count
    | none => []

theorem refitted_setShape (b : Buffer) (s : Shape) (m : Heap) : b.Refitted s m (b.setShape s) where
  place := ⟨rfl, rfl, rfl, rfl, rfl⟩
  blockBytes := rfl
  shape := rfl
  strides := rfl
  size := rfl
  contents t := b.contents_setShape s t m

end Buffer

namespace Session

variable {s : Session} {k : Nat} {b : Buffer} {lender : Option Nat} {what : Change} {shape : Shape}
  {a : Answer}

/-- The shape that a change gives to the buffer `b` of slot `k` if it succeeds, for the changes that
give a shape. -/
def shapeAsked? (s : Session) (k : Nat) (b : Buffer) : Change → Option Shape
  | .reshape shape | .resize shape => some shape
  | .resizeAxis axis extent =>
    if axis < b.rank then some ⟨b.shape.dims.set axis extent⟩ else none
  | .resizeLike other => (s.otherBuffer? k other).map Buffer.shape
  | .grow axis extra =>
    b.extents[axis]?.bind fun d => (Count.add? d extra).map (b.shapeWith axis)
  | .shrink axis amount =>
    b.extents[axis]?.bind fun d => if amount ≤ d then some (b.shapeWith axis (d - amount)) else none
  | .clear => some .empty
  | _ => none

/-- Calls on the buffer of a slot that succeed and give it one shape after the other, none of which
needs more elements than the buffer has room for. -/
inductive Refits (k : Nat) : Session → List Change → List Shape → Prop
  | nil {s : Session} : Refits k s [] []
  | cons {s : Session} {b : Buffer} {what : Change} {shape : Shape} {a : Answer}
      {calls : List Change} {shapes : List Shape} : s.buffer? k = some b →
    s.shapeAsked? k b what = some shape → shape.count ≤ b.capacity →
    (s.step (.change k what)).2 = .answered (.ok a) →
    Refits k (s.step (.change k what)).1 calls shapes →
    Refits k s (what :: calls) (shape :: shapes)

/-! ### One call -/

/-- A change of the resize family that asks for a shape is a resize to that shape. -/
theorem changeBuffer_of_isResize (hwhat : what.isResize = true)
    (hs : s.shapeAsked? k b what = some shape) (lender : Option Nat) :
    s.changeBuffer k b lender what = s.conclude k lender nothing (b.resize shape s.host) := by
  cases what with
  | resize _ => cases hs; rfl
  | resizeAxis axis extent =>
    obtain ⟨haxis, rfl⟩ : axis < b.rank ∧ _ = shape := by simpa [shapeAsked?] using hs
    have hset := Shape.setExtent_eq_ok.mpr
      ⟨haxis, Eq.refl (Shape.mk (b.shape.dims.set axis extent))⟩
    simp only [changeBuffer, Buffer.resizeAxis, hset]
  | resizeLike other =>
    obtain ⟨o, ho, rfl⟩ := Option.map_eq_some_iff.mp hs
    simp only [changeBuffer, ho, Buffer.resizeLike]
  | grow axis extra =>
    obtain ⟨d, hd, hs⟩ := Option.bind_eq_some_iff.mp hs
    obtain ⟨n, hn, rfl⟩ := Option.map_eq_some_iff.mp hs
    simp only [changeBuffer, Buffer.grow, Shape.extentAt_eq_ok.mpr hd, hn, Buffer.resizeAxis_eq hd]
  | shrink axis amount =>
    obtain ⟨d, hd, hs⟩ := Option.bind_eq_some_iff.mp hs
    obtain ⟨ha, hs⟩ := Option.ite_none_right_eq_some.mp hs
    cases hs
    simp only [changeBuffer, Buffer.shrink, Shape.extentAt_eq_ok.mpr hd, if_pos ha,
      Buffer.resizeAxis_eq hd]
  | _ => cases hwhat

/-- A change of the resize family that asks for no shape is refused, or it fails before it touches
anything. -/
theorem changeBuffer_of_not_asked (hwhat : what.isResize = true)
    (hs : s.shapeAsked? k b what = none) (lender : Option Nat) :
    s.changeBuffer k b lender what = s.refuse ∨
      ∃ e, s.changeBuffer k b lender what = s.conclude k lender nothing (.failed e b s.host) := by
  cases what with
  | resize _ => cases hs
  | resizeAxis axis extent =>
    have haxis : ¬ axis < b.rank := by simpa [shapeAsked?] using hs
    have hset : b.shape.setExtent axis extent =
        .error (.invalidAxis (Count.signed axis) b.shape.rank) := if_neg haxis
    exact .inr ⟨_, by simp only [changeBuffer, Buffer.resizeAxis, hset]; rfl⟩
  | resizeLike other =>
    have hother : s.otherBuffer? k other = none := by simpa [shapeAsked?] using hs
    refine .inl ?_
    simp only [changeBuffer, hother]
  | grow axis extra =>
    cases hd : b.shape.extentAt axis with
    | error e => exact .inr ⟨e, by simp only [changeBuffer, Buffer.grow, hd]⟩
    | ok d =>
      have hget : b.extents[axis]? = some d := Shape.extentAt_eq_ok.mp hd
      have hadd : Count.add? d extra = none := by simpa [shapeAsked?, hget] using hs
      exact .inr ⟨.shapeOverflow b.extents, by simp only [changeBuffer, Buffer.grow, hd, hadd]⟩
  | shrink axis amount =>
    cases hd : b.shape.extentAt axis with
    | error e => exact .inr ⟨e, by simp only [changeBuffer, Buffer.shrink, hd]⟩
    | ok d =>
      have hget : b.extents[axis]? = some d := Shape.extentAt_eq_ok.mp hd
      have hle : ¬ amount ≤ d := by simpa [shapeAsked?, hget] using hs
      exact .inr ⟨.invalidShrink axis d amount,
        by simp only [changeBuffer, Buffer.shrink, hd, if_neg hle]⟩
  | _ => cases hwhat

/-- A change that asks for a shape reshapes the buffer or ends as a resize to that shape. -/
theorem changeBuffer_of_shapeAsked? (hs : s.shapeAsked? k b what = some shape)
    (lender : Option Nat) :
    s.changeBuffer k b lender what = s.conclude k lender nothing (b.reshape shape s.host) ∨
      s.changeBuffer k b lender what = s.conclude k lender nothing (b.resize shape s.host) ∨
      s.changeBuffer k b lender what =
        s.conclude k lender nothing (.done () (b.setShape shape) s.host) := by
  cases hwhat : what.isResize with
  | true => exact .inr (.inl (changeBuffer_of_isResize hwhat hs lender))
  | false =>
    cases what with
    | reshape _ => cases hs; exact .inl rfl
    | clear => cases hs; exact .inr (.inr rfl)
    | resize _ | resizeAxis _ _ | resizeLike _ | grow _ _ | shrink _ _ => cases hwhat
    | _ => cases hs

/-- A call of a run replaces the shape of the buffer and leaves everything else. -/
theorem step_of_shapeAsked? (H : s.Sound) (hk : s.slots.get? k = some ⟨b, lender⟩)
    (hs : s.shapeAsked? k b what = some shape) (hn : shape.count ≤ b.capacity)
    (hr : (s.step (.change k what)).2 = .answered (.ok a)) :
    (s.step (.change k what)).1 = { s with slots := s.slots.put k ⟨b.setShape shape, lender⟩ } := by
  obtain ⟨b', lender', hk', hstep⟩ := change_of_answered hr
  cases hk.symm.trans hk'
  have hconclude : s.changeBuffer k b lender what =
      s.conclude k lender nothing (.done () (b.setShape shape) s.host) := by
    rw [hstep] at hr
    rcases changeBuffer_of_shapeAsked? hs lender with ho | ho | ho
    · rw [ho] at hr ⊢
      obtain ⟨v, hv⟩ := ok_of_conclude hr
      rcases b.reshape_cases shape s.host with ⟨e, -, he⟩ | ⟨-, hdone⟩
      · rw [he] at hv
        cases hv
      · rw [hdone]
    · rw [ho] at hr ⊢
      obtain ⟨v, hv⟩ := ok_of_conclude hr
      rw [Buffer.resize_of_ok hv hn]
    · exact ho
  have hsettled : Slot.settled ⟨b.setShape shape, lender⟩ = ⟨b.setShape shape, lender⟩ :=
    Slot.settled_of_samePlace (H.settled hk) (b.refitted_setShape shape s.host.heap).place
  rw [hstep, hconclude]
  simp only [conclude, Outcome.done, put, hsettled]

/-! ### Runs -/

/-- A run of shapes for which there is room leaves the last one behind and nothing else. -/
theorem Refits.run_eq {calls : List Change} {shapes : List Shape} (R : Refits k s calls shapes)
    (H : s.Sound) (hk : s.slots.get? k = some ⟨b, lender⟩) :
    s.run (calls.map (.change k)) = { s with
      slots := s.slots.put k ⟨b.setShape (shapes.getLastD b.shape), lender⟩ } := by
  induction R generalizing b with
  | nil =>
    have hv : b.Valid := H.valid (.inl ⟨k, hk⟩)
    simp [run, hv.setShape_self, Table.put_eq_self hk]
  | @cons s b' what shape a calls shapes hb hs hn hr R ih =>
    have hb' : s.buffer? k = some b := buffer?_eq_some.mpr ⟨lender, hk⟩
    obtain rfl : b = b' := Option.some.inj (hb'.symm.trans hb)
    have hstep := step_of_shapeAsked? H hk hs hn hr
    have hk' : (s.step (.change k what)).1.slots.get? k = some ⟨b.setShape shape, lender⟩ := by
      rw [hstep]
      exact Table.get?_put_self ..
    calc s.run ((what :: calls).map (.change k))
      _ = (s.step (.change k what)).1.run (calls.map (.change k)) := rfl
      _ = _ := ih (sound_step H _) hk'
      _ = _ := by
        rw [hstep, Buffer.setShape_setShape, List.getLastD_cons, Table.put_put]
        rfl

/-- Giving a buffer shapes that it has room for. A run of such calls allocates nothing, returns
nothing and changes no byte, and the buffer that it leaves depends on the place of the buffer and on
the last shape alone. In particular a shape for as many elements as there are is given alike by both
operations, an extent can always be made smaller, which leaves the beginning of the elements, and
making it as much larger again leaves the buffer that was there before. -/
theorem refitting_run (system : Allocator) (arrays : List ((t : ElemType) × List (Elem t)))
    (cs : List Command) {k : Nat}
    {b : Buffer} (hb : ((Session.start system arrays).run cs).buffer? k = some b) :
    let s := (Session.start system arrays).run cs
    (∀ calls shapes, s.Refits k calls shapes →
      let s' := s.run (calls.map (.change k))
      s'.host = s.host ∧ (∀ j, j ≠ k → s'.slots.get? j = s.slots.get? j) ∧
        ∃ c, s'.buffer? k = some c ∧
          b.Refitted (shapes.getLastD b.shape) s.host.heap c) ∧
    (∀ shape h, shape.count? = some b.size →
      b.reshape shape h = b.resize shape h ∧ (b.reshape shape h).result = .ok ()) ∧
    ∀ axis d amount h, b.extents[axis]? = some d → amount ≤ d →
      ∃ c, b.shrink axis amount h = .done () c h ∧ c.size ≤ b.size ∧
        (∀ t m, c.data t m = (b.data t m).map (List.take c.size)) ∧
        c.grow axis amount h = .done () b h := by
  intro s
  have H : s.Sound := sound_run system arrays cs
  obtain ⟨lender, hk⟩ := buffer?_eq_some.mp hb
  have hv : b.Valid := H.valid (.inl ⟨k, hk⟩)
  refine ⟨fun calls shapes R => ?_, fun shape h hs => ?_, fun axis d amount h hd ha => ?_⟩
  · rw [R.run_eq H hk]
    refine ⟨rfl, fun j hj => Table.get?_put_of_ne _ _ hj, _, ?_, b.refitted_setShape _ _⟩
    exact buffer?_eq_some.mpr ⟨lender, Table.get?_put_self ..⟩
  · rw [Buffer.reshape_of_eq hs, Buffer.resize_of_le hs hv.size_le]
    exact ⟨rfl, rfl⟩
  · obtain ⟨n, hn, hcount, hshrink⟩ := Buffer.shrink_eq (h := h) hv hd ha
    have hsize : (b.shapeWith axis (d - amount)).count ≤ b.size := Shape.count_eq hcount ▸ hn
    exact ⟨_, hshrink, hsize, fun t m => Buffer.data_setShape_of_le hsize,
      Buffer.grow_setShape hv hd ha⟩

/-- A buffer of six bytes is made smaller, cleared, and given five of its elements back. -/
theorem refitting_run_ofValues :
    let s := (Session.start (.below 4096) []).run
      [.build 0 (.ofValues ⟨[2, 3]⟩ (t := .u8) [1, 2, 3, 4, 5, 6] .cpu)]
    let calls : List Change := [.shrink 1 1, .clear, .resize ⟨[5]⟩]
    ∃ b, s.buffer? 0 = some b ∧ s.Refits 0 calls [⟨[2, 2]⟩, .empty, ⟨[5]⟩] ∧
      (s.run (calls.map (.change 0))).host = s.host ∧
      ∃ c, (s.run (calls.map (.change 0))).buffer? 0 = some c ∧
        b.Refitted ⟨[5]⟩ s.host.heap c := by
  intro s calls
  have R : s.Refits 0 calls [⟨[2, 2]⟩, .empty, ⟨[5]⟩] :=
    .cons rfl rfl (by decide) rfl
      (.cons rfl rfl (by decide) rfl (.cons rfl rfl (by decide) rfl .nil))
  obtain ⟨hhost, -, hbuffer⟩ := (refitting_run (.below 4096) []
    [.build 0 (.ofValues ⟨[2, 3]⟩ (t := .u8) [1, 2, 3, 4, 5, 6] .cpu)] rfl).1 calls _ R
  exact ⟨_, rfl, R, hhost, hbuffer⟩

end Session

end NdBuffer
