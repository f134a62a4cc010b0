import NdBuffer.Proofs.Buffer.Accessing
import NdBuffer.Proofs.Session.Supply

/-!
# Readers and writers agree

All that can be read of a buffer of the host is one list (`Session.Shows`), and everything that
writes elements makes another list of it (`Buffer.Writing`). So what is read after any number of
writes is what the lists say, in whichever ways the elements are written and read, and nothing else
in the session has changed.
-/

namespace NdBuffer

namespace Buffer

variable {b : Buffer} {vs vs' : List (Elem b.type)} {what : Change} {r : Except Error Answer}

/-- What a reader is answered with if the elements of the buffer are `vs`. A list of them needs room
in memory. -/
inductive Reading (b : Buffer) (m : Heap) (vs : List (Elem b.type)) :
    Query → Except Error Answer → Prop
  | data : Reading b m vs (.data b.type) (.ok (.elements vs))
  | toList : b.HasRoom m → Reading b m vs (.toList b.type) (.ok (.elements vs))
  | get {p : Nat} {v : Elem b.type} : vs[p]? = some v →
    Reading b m vs (.get b.type p) (.ok (.element v))
  | getOutside {p : Nat} : b.size ≤ p →
    Reading b m vs (.get b.type p) (.error (.outOfBounds p b.size))
  | getAt {is : List Nat} {p : Nat} {v : Elem b.type} : b.offset is = .ok p → vs[p]? = some v →
    Reading b m vs (.getAt b.type is) (.ok (.element v))
  | getAtError {is : List Nat} {e : Error} : b.offset is = .error e →
    Reading b m vs (.getAt b.type is) (.error e)
  | fetch {is : List Nat} {p : Nat} {v : Elem b.type} : b.offset is = .ok p → vs[p]? = some v →
    Reading b m vs (.fetch b.type is) (.ok (.element v))
  | fetchError {is : List Nat} {e : Error} : b.offset is = .error e →
    Reading b m vs (.fetch b.type is) (.error e)
  | dataFrom {is : List Nat} {p : Nat} : b.offset is = .ok p →
    Reading b m vs (.dataFrom b.type is) (.ok (.elements (vs.drop p)))
  | dataFromError {is : List Nat} {e : Error} : b.offset is = .error e →
    Reading b m vs (.dataFrom b.type is) (.error e)

/-- What a writer makes of the elements, and what it is answered with. -/
inductive Writing (b : Buffer) : List (Elem b.type) → Change → List (Elem b.type) →
    Except Error Answer → Prop
  | set {vs : List (Elem b.type)} {p : Nat} {old : Elem b.type} (v : Elem b.type) :
    vs[p]? = some old → Writing b vs (.set (t := b.type) p v) (vs.set p v) (.ok (.element old))
  | setOutside {vs : List (Elem b.type)} {p : Nat} (v : Elem b.type) : b.size ≤ p →
    Writing b vs (.set (t := b.type) p v) vs (.error (.outOfBounds p b.size))
  | setAt {vs : List (Elem b.type)} {is : List Nat} {p : Nat} {old : Elem b.type}
      (v : Elem b.type) : b.offset is = .ok p → vs[p]? = some old →
    Writing b vs (.setAt (t := b.type) is v) (vs.set p v) (.ok (.element old))
  | setAtError {vs : List (Elem b.type)} {is : List Nat} {e : Error} (v : Elem b.type) :
    b.offset is = .error e → Writing b vs (.setAt (t := b.type) is v) vs (.error e)
  | setDataFrom {vs : List (Elem b.type)} {is : List Nat} {p : Nat} (new : List (Elem b.type)) :
    b.offset is = .ok p →
    Writing b vs (.setDataFrom (t := b.type) is new) (overlay vs p new) (.ok (.number (b.size - p)))
  | setDataFromError {vs : List (Elem b.type)} {is : List Nat} {e : Error}
      (new : List (Elem b.type)) : b.offset is = .error e →
    Writing b vs (.setDataFrom (t := b.type) is new) vs (.error e)
  | setData {vs : List (Elem b.type)} (new : List (Elem b.type)) :
    Writing b vs (.setData (t := b.type) new) (overlay vs 0 new) (.ok (.number b.size))
  | fill {vs : List (Elem b.type)} (v : Elem b.type) :
    Writing b vs (.fill (t := b.type) v) (List.replicate b.size v) (.ok .nothing)
  | copyValues {vs new : List (Elem b.type)} : new.length = b.size →
    Writing b vs (.copyValues (t := b.type) new) new (.ok .nothing)
  | copyValuesError {vs new : List (Elem b.type)} : new.length ≠ b.size →
    Writing b vs (.copyValues (t := b.type) new) vs (.error (.sizeMismatch b.size new.length))

/-- What writers make of the elements, one after the other. -/
inductive Writings (b : Buffer) : List (Elem b.type) → List Change → List (Elem b.type) → Prop
  | nil {vs : List (Elem b.type)} : Writings b vs [] vs
  | cons {vs vs' vs'' : List (Elem b.type)} {what : Change} {calls : List Change}
      {r : Except Error Answer} : Writing b vs what vs' r → Writings b vs' calls vs'' →
    Writings b vs (what :: calls) vs''

/-- The ways to write one value at a position. Elements before it that are written with it are
those that are there. -/
inductive Puts (b : Buffer) (vs : List (Elem b.type)) (p : Nat) (v : Elem b.type) : Change → Prop
  | set : Puts b vs p v (.set (t := b.type) p v)
  | setAt {is : List Nat} : b.offset is = .ok p → Puts b vs p v (.setAt (t := b.type) is v)
  | setDataFrom {is : List Nat} {q : Nat} : b.offset is = .ok q → q ≤ p →
    Puts b vs p v (.setDataFrom (t := b.type) is ((vs.drop q).take (p - q) ++ [v]))
  | setData : Puts b vs p v (.setData (t := b.type) (vs.take p ++ [v]))

theorem Writing.isWrite (W : b.Writing vs what vs' r) : what.isWrite = true := by
  cases W <;> rfl

/-- One value that is written at a position replaces the element there. -/
theorem Puts.writing {p : Nat} {v : Elem b.type} (P : b.Puts vs p v what)
    (hlen : vs.length = b.size) (hp : p < b.size) :
    ∃ a, b.Writing vs what (vs.set p v) (.ok a) := by
  obtain ⟨old, hold⟩ : ∃ old, vs[p]? = some old := ⟨_, List.getElem?_eq_getElem (hlen ▸ hp)⟩
  cases P with
  | set => exact ⟨_, .set v hold⟩
  | setAt his => exact ⟨_, .setAt v his hold⟩
  | @setDataFrom is q his hle =>
    rw [← overlay_append_singleton hle (hlen ▸ hp) v]
    exact ⟨_, .setDataFrom _ his⟩
  | setData =>
    rw [← overlay_append_singleton (Nat.zero_le p) (hlen ▸ hp) v]
    exact ⟨_, .setData _⟩

end Buffer

namespace Session

variable {s s' : Session} {k : Nat} {b : Buffer} {vs vs' : List (Elem b.type)} {what : Change}
  {r : Except Error Answer} {lender : Option Nat}

/-- Whether the elements of the buffer `b` of slot `k` are `vs`, whoever reads them. -/
structure Shows (s : Session) (k : Nat) (b : Buffer) (vs : List (Elem b.type)) : Prop where
  length : vs.length = b.size
  read : ∀ {q r}, b.Reading s.host.heap vs q r → s.step (.query k q) = (s, .answered r)

/-! ### Reading -/

theorem shows_contents (H : s.Sound) (hb : s.buffer? k = some b) (hd : b.device = .cpu) :
    s.Shows k b (b.contents b.type s.host.heap) := by
  have hreach := reaches_size_of_buffer? H hb hd
  refine ⟨hreach.length_contents b.type, fun {q r} R => ?_⟩
  rw [step_query hb]
  cases R with
  | data => simp only [queryBuffer, report, Buffer.data_eq_ok rfl hd]; rfl
  | toList hroom => simp only [queryBuffer, Buffer.toList_eq_of_cpu hd hroom, reportListing]
  | get hv => simp only [queryBuffer, report, Buffer.get_eq_of_cpu hd, hv]; rfl
  | getOutside hp =>
    have hnone := List.getElem?_eq_none (hreach.length_contents b.type ▸ hp)
    simp only [queryBuffer, report, Buffer.get_eq_of_cpu hd, hnone]
    rfl
  | getAt his hv =>
    simp only [queryBuffer, report, Buffer.getAt_eq_of_cpu hd, his, Buffer.get_eq_of_cpu hd,
      bind, Except.bind, hv]
    rfl
  | getAtError his => simp only [queryBuffer, report, Buffer.getAt_eq_of_cpu hd, his]; rfl
  | fetch his hv =>
    simp only [queryBuffer, report, Buffer.fetch_eq_of_cpu hd hreach, his,
      Buffer.get_eq_of_cpu hd, bind, Except.bind, hv]
    rfl
  | fetchError his => simp only [queryBuffer, report, Buffer.fetch_eq_of_cpu hd hreach, his]; rfl
  | dataFrom his => simp only [queryBuffer, report, Buffer.dataFrom_eq_of_cpu hd, his]; rfl
  | dataFromError his => simp only [queryBuffer, report, Buffer.dataFrom_eq_of_cpu hd, his]; rfl

/-! ### Writing -/

/-- The session after elements of the buffer `b` have been overwritten. -/
def overwritten (s : Session) (b : Buffer) (p : Nat) (new : List (Elem b.type)) : Session :=
  { s with host := b.overwrite p new s.host }

theorem overwritten_nil (s : Session) (b : Buffer) (p : Nat) : s.overwritten b p [] = s := by
  rw [overwritten, Buffer.overwrite_nil]

/-- One element is overwritten. -/
theorem changeBuffer_set_eq (hd : b.device = .cpu) {p : Nat} {old : Elem b.type}
    (hold : (b.contents b.type s.host.heap)[p]? = some old) (v : Elem b.type) :
    s.changeBuffer k b lender (.set (t := b.type) p v) =
      (s.overwritten b p [v], .answered (.ok (.element old))) := by
  simp only [changeBuffer, Buffer.set_eq_map, Buffer.get_eq_of_cpu hd, hold]
  rfl

/-- A writer with indices that have an offset writes there. -/
theorem changeBuffer_setAt_eq {is : List Nat} {p : Nat} (his : b.offset is = .ok p)
    (v : Elem b.type) :
    s.changeBuffer k b lender (.setAt (t := b.type) is v) =
      s.changeBuffer k b lender (.set (t := b.type) p v) := by
  simp only [changeBuffer, Buffer.setAt_eq_bind, his]
  rfl

/-- However elements are written, some of them are overwritten, and that is all. -/
theorem step_of_writing (H : s.Sound) (hb : s.buffer? k = some b) (hd : b.device = .cpu)
    (W : b.Writing (b.contents b.type s.host.heap) what vs' r) :
    ∃ p new, p + new.length ≤ b.size ∧ vs' = overlay (b.contents b.type s.host.heap) p new ∧
      s.step (.change k what) = (s.overwritten b p new, .answered r) := by
  obtain ⟨lender, hk⟩ := buffer?_eq_some.mp hb
  have hreach := reaches_size_of_buffer? H hb hd
  have hlen := hreach.length_contents b.type
  have hstep : s.step (.change k what) = s.changeBuffer k b lender what :=
    step_change_of_get? hk (by simp [Change.exclusive_of_isWrite W.isWrite])
  rw [hstep]
  -- What is refused has the same form: nothing is overwritten.
  have hrefused (hr : s.changeBuffer k b lender what = (s, .answered r)) :
      ∃ p new, p + new.length ≤ b.size ∧ b.contents b.type s.host.heap =
          overlay (b.contents b.type s.host.heap) p new ∧
        s.changeBuffer k b lender what = (s.overwritten b p new, .answered r) :=
    ⟨0, [], Nat.zero_le _, (overlay_nil ..).symm, by rw [overwritten_nil, hr]⟩
  cases W with
  | @set p old v hold =>
    have hp := (List.getElem?_eq_some_iff.mp hold).1
    exact ⟨p, [v], hlen ▸ hp, (overlay_singleton hp v).symm, changeBuffer_set_eq hd hold v⟩
  | @setOutside p v hp =>
    have hnone := List.getElem?_eq_none (hlen ▸ hp)
    refine hrefused ?_
    simp only [changeBuffer, Buffer.set_eq_map, Buffer.get_eq_of_cpu hd, hnone]
    rfl
  | @setAt is p old v his hold =>
    have hp := (List.getElem?_eq_some_iff.mp hold).1
    rw [changeBuffer_setAt_eq his]
    exact ⟨p, [v], hlen ▸ hp, (overlay_singleton hp v).symm, changeBuffer_set_eq hd hold v⟩
  | setAtError v his =>
    refine hrefused ?_
    simp only [changeBuffer, Buffer.setAt_eq_bind, his]
    rfl
  | @setDataFrom is p new his =>
    refine ⟨p, new.take (b.size - p), ?_, ?_, ?_⟩
    · have hp := Buffer.offset_lt his
      rw [List.length_take]
      omega
    · rw [← hlen, overlay_take]
    · simp only [changeBuffer, Buffer.setDataFrom_eq_of_cpu hd hreach, his]
      rfl
  | setDataFromError new his =>
    refine hrefused ?_
    simp only [changeBuffer, Buffer.setDataFrom_eq_of_cpu hd hreach, his]
    rfl
  | setData new =>
    refine ⟨0, new.take b.size, ?_, ?_, ?_⟩
    · rw [List.length_take]
      omega
    · have htake := overlay_take (b.contents b.type s.host.heap) 0 new
      rw [Nat.sub_zero, hlen] at htake
      exact htake.symm
    · simp only [changeBuffer, Buffer.setData_eq_of_cpu hd hreach]
      rfl
  | fill v =>
    refine ⟨0, List.replicate b.size v, ?_, ?_, ?_⟩
    · rw [List.length_replicate]
      omega
    · exact (overlay_of_length_eq (by rw [List.length_replicate, hlen])).symm
    · simp only [changeBuffer, Buffer.fill_eq_of_cpu hd]
      rfl
  | copyValues hnew =>
    refine ⟨0, vs', by omega, (overlay_of_length_eq (by rw [hnew, hlen])).symm, ?_⟩
    simp only [changeBuffer, Buffer.copyValues_eq_of_cpu hd hnew]
    rfl
  | copyValuesError hnew =>
    refine hrefused ?_
    simp only [changeBuffer, Buffer.copyValues_of_length_ne hnew]
    rfl

/-- What a write leaves behind: another list of elements, and otherwise what there was. -/
structure Rewritten (s : Session) (k : Nat) (b : Buffer) (vs : List (Elem b.type)) (s' : Session) :
    Prop where
  shows : s'.Shows k b vs
  slots : s'.slots = s.slots
  bytes : ∀ x, ¬ b.Covers x → s'.host.heap.byte x = s.host.heap.byte x

theorem rewritten_of_writing (H : s.Sound) (hb : s.buffer? k = some b) (hd : b.device = .cpu)
    (W : b.Writing (b.contents b.type s.host.heap) what vs' r) :
    (s.step (.change k what)).2 = .answered r ∧
      b.contents b.type (s.step (.change k what)).1.host.heap = vs' ∧
      s.Rewritten k b vs' (s.step (.change k what)).1 := by
  have H' : (s.step (.change k what)).1.Sound := sound_step H _
  obtain ⟨p, new, hlen, rfl, hstep⟩ := step_of_writing H hb hd W
  rw [hstep] at H' ⊢
  have hb' : (s.overwritten b p new).buffer? k = some b := hb
  have hcontents : b.contents b.type (s.overwritten b p new).host.heap =
      overlay (b.contents b.type s.host.heap) p new :=
    Buffer.contents_overwrite_eq_overlay (reaches_size_of_buffer? H hb hd) p new
  refine ⟨rfl, hcontents, ?_, rfl, fun x hx => Buffer.byte_overwrite_of_not_covers hlen hx⟩
  rw [← hcontents]
  exact shows_contents H' hb' hd

/-- Writes one after the other. -/
theorem rewritten_of_writings {calls : List Change} (H : s.Sound) (hb : s.buffer? k = some b)
    (hd : b.device = .cpu) (W : b.Writings vs calls vs')
    (hvs : b.contents b.type s.host.heap = vs) :
    s.Rewritten k b vs' (s.run (calls.map (.change k))) := by
  -- The list that a write leaves is the one that the next write starts from, and it is what the
  -- buffer has in memory at that point.
  induction W generalizing s with
  | nil => exact ⟨hvs ▸ shows_contents H hb hd, rfl, fun _ _ => rfl⟩
  | @cons vs vs' vs'' what calls r W _ ih =>
    subst hvs
    obtain ⟨-, hcontents, hfirst⟩ := rewritten_of_writing H hb hd W
    have hb' : (s.step (.change k what)).1.buffer? k = some b := by
      rw [buffer?, hfirst.slots]
      exact hb
    have hrest := ih (sound_step H _) hb' hcontents
    exact ⟨hrest.shows, hrest.slots.trans hfirst.slots,
      fun x hx => (hrest.bytes x hx).trans (hfirst.bytes x hx)⟩

/-- The accessors of a buffer of the host. All readers read the same list of elements, and none of
them changes anything. A reader or a writer with indices succeeds exactly if the indices have an
offset, and one with a position if the position is below the number of elements. After any number of
writes every reader reads the list that the writes make of the first one, each of them replacing the
elements that it is meant for by the bits that are written; a single value that is written at a
position, in whichever way, replaces the element there. No byte is different that does not belong to
an element. The elements take no more than the arrays that the session began with and the blocks
that the system gives. So a list of them can always be asked for, unless an array took half of the
address space, and it is had unless the host has no room for it. A host that gives whatever keeps
below a bound, and nothing else, has room for all lists if the arrays keep below the bound too. -/
theorem accessing_run (system : Allocator) (arrays : List ((t : ElemType) × List (Elem t)))
    (cs : List Command) {k : Nat}
    {b : Buffer} (hb : ((Session.start system arrays).run cs).buffer? k = some b)
    (hd : b.device = .cpu) :
    let s := (Session.start system arrays).run cs
    let vs := b.contents b.type s.host.heap
    s.Shows k b vs ∧
      (∀ what vs' r, b.Writing vs what vs' r → (s.step (.change k what)).2 = .answered r) ∧
      (∀ calls vs', b.Writings vs calls vs' →
        s.Rewritten k b vs' (s.run (calls.map (.change k)))) ∧
      (∀ p v what, p < b.size → b.Puts vs p v what →
        ∃ a, b.Writing vs what (vs.set p v) (.ok a)) ∧
      (∀ n, 0 < n → system.GivesBelow n → (∀ a ∈ arrays, a.2.length * a.1.width < n) →
        b.size * b.type.width < n) ∧
      ((∀ a ∈ arrays, a.2.length * a.1.width < Layout.extent) → ¬ b.HasRoom s.host.heap →
        s.step (.query k (.toList b.type)) = (s, .aborted)) ∧
      (∀ n, 8 < n → system.GivesBelow n → system.GivesAll n →
        (∀ a ∈ arrays, a.2.length * a.1.width < min n Layout.extent) →
        b.HasRoom s.host.heap) := by
  intro s vs
  have H : s.Sound := sound_run system arrays cs
  have hshows : s.Shows k b vs := shows_contents H hb hd
  have hbounded (n : Nat) (hsystem : system.GivesBelow n)
      (harrays : ∀ a ∈ arrays, a.2.length * a.1.width < n) : s.host.heap.Bounded system n :=
    bounded_foldl (sound_start system arrays) (bounded_start hsystem harrays) cs
  have hsize (n : Nat) (hn : 0 < n) (hsystem : system.GivesBelow n)
      (harrays : ∀ a ∈ arrays, a.2.length * a.1.width < n) : b.size * b.type.width < n :=
    size_lt H (hbounded n hsystem harrays) hn hb hd
  refine ⟨hshows, fun what vs' r W => (rewritten_of_writing H hb hd W).1, fun calls vs' W => ?_,
    fun p v what hp P => P.writing hshows.length hp, hsize, fun harrays hroom => ?_,
    fun n hn hsystem hall harrays => ?_⟩
  · exact rewritten_of_writings H hb hd W rfl
  · have hlt := hsize _ (by decide) system.givesBelow_extent harrays
    rw [step_query hb, queryBuffer, Buffer.toList_of_not_grants hlt hroom]
    rfl
  · have hlt := hsize _ (by decide) system.givesBelow_extent fun a ha =>
      Nat.lt_of_lt_of_le (harrays a ha) (Nat.min_le_right ..)
    have B := hbounded n hsystem fun a ha => Nat.lt_of_lt_of_le (harrays a ha) (Nat.min_le_left ..)
    exact hasRoom H B hall hn hlt hb hd

/-- A half float that is no number is written at an index, and read back with all its bits. There is
room for one element more than the buffer has. -/
theorem accessing_run_nan :
    let s := (Session.start (.below 4096) []).run [
      .build 0 (.ofValues ⟨[3]⟩ (t := .f16) [0x3c00, 0x4000, 0x4200] .cpu),
      .change 0 (.resize ⟨[2]⟩)]
    let s' := (s.step (.change 0 (.setAt (t := .f16) [1] 0x7c01))).1
    s.buffer? 0 = some ⟨.f16, .cpu, some ⟨0, 0⟩, true, 3, 64, 2, ⟨[2]⟩, [1]⟩ ∧
      s'.step (.query 0 (.fetch .f16 [1])) =
        (s', .answered (.ok (.element (t := .f16) 0x7c01))) ∧
      s'.step (.query 0 (.toList .f16)) =
        (s', .answered (.ok (.elements (t := .f16) [0x3c00, 0x7c01]))) := by
  intro s s'
  let b : Buffer := ⟨.f16, .cpu, some ⟨0, 0⟩, true, 3, 64, 2, ⟨[2]⟩, [1]⟩
  have hcontents : b.contents .f16 s.host.heap = [0x3c00, 0x4000] := by decide +kernel
  obtain ⟨-, -, hwrites, -⟩ := accessing_run (.below 4096) [] [
    .build 0 (.ofValues ⟨[3]⟩ (t := .f16) [0x3c00, 0x4000, 0x4200] .cpu),
    .change 0 (.resize ⟨[2]⟩)] (k := 0) (b := b) rfl rfl
  obtain ⟨-, -, -, -, -, -, hroom⟩ := accessing_run (.below 4096) [] [
    .build 0 (.ofValues ⟨[3]⟩ (t := .f16) [0x3c00, 0x4000, 0x4200] .cpu),
    .change 0 (.resize ⟨[2]⟩), .change 0 (.setAt (t := .f16) [1] 0x7c01)] (k := 0) (b := b) rfl rfl
  have hwriting : b.Writing [0x3c00, 0x4000] (.setAt (t := .f16) [1] 0x7c01)
      [0x3c00, 0x7c01] (.ok (.element (t := .f16) 0x4000)) :=
    Buffer.Writing.setAt (b := b) (p := 1) (0x7c01 : Elem .f16) rfl rfl
  rw [← hcontents] at hwriting
  have R : s'.Shows 0 b [0x3c00, 0x7c01] := (hwrites _ _ (.cons hwriting .nil)).shows
  have hroom : b.HasRoom s'.host.heap := hroom 4096 (by decide) (Allocator.givesBelow_below 4096)
    (Allocator.givesAll_below 4096) nofun
  exact ⟨rfl, R.read (.fetch (p := 1) rfl rfl), R.read (.toList hroom)⟩

end Session

end NdBuffer
