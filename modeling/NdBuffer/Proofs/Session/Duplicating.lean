import NdBuffer.Proofs.Buffer.Copying
import NdBuffer.Proofs.Session.Failure
import NdBuffer.Proofs.Session.LentMemory

/-!
# Duplicates that are too large

Whether the bytes of a new block can be counted is checked before the memory of a buffer is given
up, but a duplicate gives it up earlier: a buffer that borrows, or that has another type or device
than what is copied, makes way first (`Buffer.Akin`). So a duplicate that is too large leaves the
buffer as it was only if the two are akin. Otherwise the buffer is left empty, with the type and the
device of what was to be copied (`Session.Vacated`).
-/

namespace NdBuffer

namespace Buffer

variable {b c : Buffer} {h : Host} {n : Nat} {t : ElemType}

/-- A copy needs no new memory. -/
theorem transfer_ne_capacityOverflow {a? : Option Address} (count : Nat) (source : Device)
    (s : Source t) (target : Device) (h : Host) {t' : ElemType} :
    (transfer count source s target a? h).1 ≠ .error (.capacityOverflow n t') := by
  rw [transfer]
  split
  · intro he
    cases he
  · cases source <;> cases target <;> intro he <;> cases he

theorem copyFrom_ne_capacityOverflow (c b : Buffer) (h : Host) :
    (c.copyFrom b h).1 ≠ .error (.capacityOverflow n t) := by
  rw [copyFrom, copyElements]
  split
  · intro he
    cases he
  · split
    · intro he
      cases he
    · split
      · intro he
        cases he
      · exact transfer_ne_capacityOverflow _ _ _ _ _

/-- What takes over more elements than there can be memory for stays as it is. -/
theorem takeOver_of_capacityOverflow (hv : b.Valid) (ht : c.type = b.type)
    (he : (c.takeOver b h).result = .error (.capacityOverflow n t)) :
    (n = b.size ∧ t = b.type ∧ byteSize? b.type b.size = none) ∧
      c.takeOver b h = .failed (.capacityOverflow n t) c (h.record (c.growth n)) := by
  have R := c.resizing b.shape h
  revert he
  rw [takeOver, resizeLike]
  generalize c.resize b.shape h = o at R
  intro he
  cases R with
  | overflow _ | denied _ _ _ _ => cases he
  | kept _ _ | replaced _ _ _ _ _ _ => exact absurd he (copyFrom_ne_capacityOverflow _ b _)
  | refused _ _ _ hrefusal =>
    cases he
    cases hrefusal
  | tooLarge hs _ _ hbytes =>
    cases he
    obtain rfl := Option.some.inj (hs.symm.trans hv.count)
    exact ⟨⟨rfl, ht, ht ▸ hbytes⟩, rfl⟩

end Buffer

namespace Session

variable {s s' : Session} {k i n : Nat} {b c d : Buffer} {t : ElemType} {lender : Option Nat}

/-- The buffer of a slot has let go of its memory, and there is the buffer `c` in its place. A block
that it owned has been returned, once, and no other block has changed. -/
structure Vacated (s s' : Session) (k : Nat) (c : Buffer) : Prop where
  buffer : s'.buffer? k = some c
  others : ∀ j, j ≠ k → s'.slots.get? j = s.slots.get? j
  returned : ∀ id, s.Owns k id → ∃ block l, s.host.heap.blocks[id]? = some block ∧
    block.layout = some l ∧ block.returned = [] ∧
    s'.host.heap.blocks[id]? = some (block.giveBack l)
  kept : ∀ id, ¬ s.Owns k id → s'.host.heap.blocks[id]? = s.host.heap.blocks[id]?

theorem vacated_conclude {α : Type} {answer : α → Answer} {e : Error} {h' : Host} (H : s.Sound)
    (hk : s.slots.get? k = some ⟨d, lender⟩) (hh : h'.heap = (d.release s.host).2.heap) :
    Vacated s (s.conclude k lender answer (.failed e c h')).1 k c := by
  have E : Emptied s (s.conclude k lender answer
      (.failed e (.empty d.type d.device) (d.release s.host).2)).1 k d := emptied_conclude H hk rfl
  refine ⟨buffer?_put_self .., fun j hj => Table.get?_put_of_ne _ _ hj, ?_, ?_⟩
  · intro id howns
    obtain ⟨block, l, hblock, hl, hr, hback⟩ := E.returned id howns
    exact ⟨block, l, hblock, hl, hr, (congrArg (·.blocks[id]?) hh).trans hback⟩
  · intro id hid
    exact (congrArg (·.blocks[id]?) hh).trans (E.kept id hid)

/-- A duplicate that is too large. The buffer stays as it was, or it has made way. -/
theorem duplicate_of_capacityOverflow (H : s.Sound) (hd : s.buffer? k = some d)
    (hb : s.buffer? i = some b)
    (hr : (s.step (.change k (.duplicate i))).2 = .answered (.error (.capacityOverflow n t))) :
    (n = b.size ∧ t = b.type ∧ Buffer.byteSize? b.type b.size = none) ∧
      (d.Akin b → Untouched s (s.step (.change k (.duplicate i))).1) ∧
      (¬ d.Akin b → Vacated s (s.step (.change k (.duplicate i))).1 k
        (.empty b.type b.device)) := by
  have hv : b.Valid := valid_of_buffer? H hb
  obtain ⟨lender, hk, hstep⟩ := exists_lender_of_answered hd hr
  rw [hstep] at hr ⊢
  cases ho : s.otherBuffer? k i with
  | none => simp [changeBuffer, ho, refuse] at hr
  | some o =>
    obtain ⟨rfl, -⟩ := Tracked.eq_of_otherBuffer? hb ho
    simp only [changeBuffer, ho] at hr ⊢
    have he := result_of_conclude hr
    rw [Buffer.duplicate_eq] at he ⊢
    by_cases A : d.Akin o
    · rw [Buffer.makeWay_of_akin A] at he ⊢
      obtain ⟨hsize, hfailed⟩ := Buffer.takeOver_of_capacityOverflow hv A.type he
      rw [hfailed]
      exact ⟨hsize, fun _ => untouched_conclude H hk rfl, fun hno => absurd A hno⟩
    · rw [Buffer.makeWay_of_not_akin A] at he ⊢
      obtain ⟨hsize, hfailed⟩ := Buffer.takeOver_of_capacityOverflow
        (c := .empty o.type o.device) hv rfl he
      rw [hfailed]
      exact ⟨hsize, fun hyes => absurd hyes A, fun _ => vacated_conclude H hk rfl⟩

/-- Duplicates that are too large. The error tells how many elements of which type the source has,
and there can be no memory for so many. If the buffer owns what it has and is of the type and on the
device of the source, the failure leaves everything as it was but the log. In no other case does it
leave the buffer as it was: the buffer is empty then, of the type and on the device of the source,
its memory is given up, and everything else is as it was. -/
theorem duplicating_run (system : Allocator) (arrays : List ((t : ElemType) × List (Elem t)))
    (cs : List Command) {k i n : Nat} {t : ElemType} {d b : Buffer}
    (hd : ((Session.start system arrays).run cs).buffer? k = some d)
    (hb : ((Session.start system arrays).run cs).buffer? i = some b)
    (hr : (((Session.start system arrays).run cs).step (.change k (.duplicate i))).2 =
      .answered (.error (.capacityOverflow n t))) :
    let s := (Session.start system arrays).run cs
    let s' := (s.step (.change k (.duplicate i))).1
    (n = b.size ∧ t = b.type ∧ Buffer.byteSize? b.type b.size = none) ∧
      (d.Akin b → Untouched s s') ∧
      (¬ d.Akin b → Vacated s s' k (.empty b.type b.device)) ∧
      (s'.buffer? k = some d ↔ d.Akin b) := by
  intro s s'
  obtain ⟨hsize, hstays, hleaves⟩ :=
    duplicate_of_capacityOverflow (sound_run system arrays cs) hd hb hr
  refine ⟨hsize, hstays, hleaves, fun hsame => ?_, fun A => ?_⟩
  · by_contra A
    have hempty : .empty b.type b.device = d :=
      Option.some.inj ((hleaves A).buffer.symm.trans hsame)
    exact A (hempty ▸ ⟨rfl, rfl, rfl⟩)
  · rw [buffer?, (hstays A).slots]
    exact hd

/-- A buffer without memory on a device stays as it is when it is to be made a duplicate of more
elements there than can be counted in bytes. -/
theorem duplicating_run_empty :
    let s := (Session.start (.below 4096) []).run [.build 0 (.empty .f64 (.cuda 0)),
      .build 1 (.ofRaw ⟨[0x2000000000000001]⟩ (.null .f64) (.cuda 0))]
    (s.step (.change 0 (.duplicate 1))).2 =
        .answered (.error (.capacityOverflow 0x2000000000000001 .f64)) ∧
      Untouched s (s.step (.change 0 (.duplicate 1))).1 := by
  intro s
  obtain ⟨-, hstays, -⟩ := duplicating_run (.below 4096) [] [.build 0 (.empty .f64 (.cuda 0)),
    .build 1 (.ofRaw ⟨[0x2000000000000001]⟩ (.null .f64) (.cuda 0))] (k := 0) (i := 1)
    (n := 0x2000000000000001) (t := .f64) rfl rfl rfl
  exact ⟨rfl, hstays ⟨rfl, rfl, rfl⟩⟩

/-- A buffer of two doubles on the host is to be made a duplicate of more elements on a device than
can be counted in bytes. It is not as it was: its elements are gone, and it is on that device. -/
theorem elements_lost_by_duplicate :
    let s := (Session.start (.below 4096) []).run [
      .build 0 (.ofValues ⟨[2]⟩ (t := .f64) [0x3ff0000000000000, 0x4000000000000000] .cpu),
      .build 1 (.ofRaw ⟨[0x2000000000000001]⟩ (.null .f64) (.cuda 0))]
    let s' := (s.step (.change 0 (.duplicate 1))).1
    (s.step (.change 0 (.duplicate 1))).2 =
        .answered (.error (.capacityOverflow 0x2000000000000001 .f64)) ∧
      ∃ d, s.buffer? 0 = some d ∧
        d.data .f64 s.host.heap = .ok [0x3ff0000000000000, 0x4000000000000000] ∧
        s'.buffer? 0 = some (.empty .f64 (.cuda 0)) ∧ s'.buffer? 0 ≠ some d := by
  intro s s'
  refine ⟨rfl, _, rfl, by decide +kernel, rfl, fun hsame => ?_⟩
  cases hsame

end Session

end NdBuffer
