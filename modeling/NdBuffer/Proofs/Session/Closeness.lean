import NdBuffer.Proofs.Buffer.Closeness
import NdBuffer.Proofs.Session.Copies

/-!
# Comparing two buffers

Asking whether two buffers of the host are close is answered with the verdict on them, and leaves
all buffers and their memory as they were. Neither where the buffers lie nor what else is in their
memory plays a part (`Session.closeness_run`). What is close for a tolerance is close for a larger
one as well, with the exception of infinities (`Session.tolerance_run`).
-/

namespace NdBuffer

open Binary

namespace Buffer

variable {b c got expected : Buffer} {h h' : Host} {held : List Holding}

/-- What has been built lies where it should. -/
theorem Built.placed (B : Built h (.ok c, h')) (H : h.Ledger held) : c.Placed h'.heap := by
  cases B with
  | @done type device _ _ M =>
    have hv := Moves.valid M (valid_empty type device)
    have hledger : h'.Ledger (c.holdings ++ held) :=
      Moves.ledger M (valid_empty type device) (by simpa using H)
    exact placed_of_isOwner hv (Moves.isOwner M rfl) hledger fun o ho =>
      List.mem_append_left _ ho

theorem Built.valid (B : Built h (.ok c, h')) : c.Valid := by
  cases B with
  | @done type device _ _ M => exact Moves.valid M (valid_empty type device)

/-- There is memory for two copies if, after the first one has been made, there is memory for the
second. -/
theorem affordsTwice_iff {m m' : Heap} {t : ElemType} {n : Nat} (ha : m.Affords t n)
    (huse : 0 < n → ∃ bytes, byteSize? t n = some bytes ∧
      (m.add (.zeroed ⟨bytes, standardAlignment⟩)).SameUse m') :
    m.AffordsTwice t n ↔ m'.Affords t n := by
  rcases Nat.eq_zero_or_pos n with hzero | hpos
  · exact iff_of_true (.inl hzero) (.inl hzero)
  · have hne : n ≠ 0 := Nat.ne_of_gt hpos
    obtain ⟨bytes, hbytes, S⟩ := huse hpos
    have hl : m.Grants ⟨bytes, standardAlignment⟩ := by
      simpa [Heap.Affords, hne, hbytes] using ha
    rw [S.affords_iff]
    simp [Heap.AffordsTwice, Heap.Affords, hne, hbytes, hl]

/-- The comparison gives the verdict. -/
theorem verdict_checkClose (H : h.Ledger held) (hv : got.Valid) (hv' : expected.Valid)
    (hd : got.device = .cpu) (hd' : expected.device = .cpu) (hreach : got.Reaches got.size h.heap)
    (hreach' : expected.Reaches expected.size h.heap) (tolerance : BitVec 64) :
    got.Verdict expected tolerance h.heap (got.checkClose expected tolerance h).1 := by
  rw [checkClose]
  by_cases ht : got.type = expected.type
  · rw [if_neg (not_not.mpr ht)]
    by_cases hs : got.shape = expected.shape
    · rw [if_neg (not_not.mpr hs)]
      have hsize : got.size = expected.size := hv.size_eq hv' hs
      have B := got.built_copyTo .cpu h
      rcases copyTo_cases hv hd hreach with ⟨ha, c, h', hc, G, -, huse⟩ | ⟨ha, h', hc⟩
      · rw [hc] at B ⊢
        have hexpected : expected.Reaches expected.size h'.heap := B.reaches hreach'
        have hcopied : c.Reaches c.size h'.heap :=
          ((B.placed H).reaches G.device).mono B.valid.size_le
        have B' := expected.built_copyTo .cpu h'
        have htwice : h.heap.AffordsTwice got.type got.size ↔
            h'.heap.Affords expected.type expected.size := by
          rw [← ht, ← hsize]
          exact affordsTwice_iff ha huse
        rcases copyTo_cases hv' hd' hexpected with ⟨ha', d, h'', he, E, -⟩ | ⟨ha', h'', he⟩
        · simp only [he] at B' ⊢
          -- the later copy is made after the earlier one, which stays as it is
          have G' : c.CopyOf h''.heap got h.heap :=
            { G with contents := (B'.contents hcopied _).trans G.contents }
          have E' : d.CopyOf h''.heap expected h.heap :=
            { E with contents := E.contents.trans (B.contents hreach' _) }
          refine .of_copies ⟨ht, hs, htwice.mpr ha'⟩ G' E' (hreach.length_contents _) ?_
          rw [hreach'.length_contents, hsize]
        · simp only [he]
          rw [← ht, ← hsize]
          exact .of_not_affordable ht hs (mt htwice.mp ha')
      · rw [hc]
        exact .of_not_affordable ht hs fun htwice => ha htwice.affords
    · rw [if_pos hs]
      exact .of_shape_ne ht hs
  · rw [if_pos ht]
    exact .of_type_ne ht

end Buffer

namespace Session

variable {s : Session} {i j k : Nat} {b got expected : Buffer} {tolerance : BitVec 64}

/-- Whether a slot holds a buffer of the host. -/
structure HasOnHost (s : Session) (i : Nat) (b : Buffer) : Prop where
  buffer : s.buffer? i = some b
  device : b.device = .cpu

/-- The comparison of two buffers is answered with the verdict on them. -/
theorem verdict_step (H : s.Sound) (G : s.HasOnHost i got) (E : s.HasOnHost j expected)
    (tolerance : BitVec 64) :
    ∃ r, (s.step (.query i (.close j tolerance))).2 = .answered (r.map fun _ => .nothing) ∧
      got.Verdict expected tolerance s.host.heap r := by
  refine ⟨(got.checkClose expected tolerance s.host).1, ?_, Buffer.verdict_checkClose H.ledger
    (valid_of_buffer? H G.buffer) (valid_of_buffer? H E.buffer) G.device E.device
    (reaches_size_of_buffer? H G.buffer G.device) (reaches_size_of_buffer? H E.buffer E.device)
    tolerance⟩
  simp [step, Command.exclusive, query, queryBuffer, G.buffer, E.buffer, concludeCopy]

theorem answered_nothing_iff {r : Except Error Unit} :
    Reply.answered (r.map fun _ => .nothing) = .answered (.ok .nothing) ↔ r = .ok () := by
  cases r <;> simp [Except.map]

/-- A question leaves all buffers and their memory as they are. -/
theorem buffer?_query (H : s.Sound) (what : Query) (hk : s.buffer? k = some b) :
    (s.step (.query i what)).1.buffer? k = some b ∧ ∀ a, b.address? = some a →
      (s.step (.query i what)).1.host.heap.blocks[a.block]? = s.host.heap.blocks[a.block]? := by
  have hnone : k ∉ (Command.query i what).targets := List.not_mem_nil
  constructor
  · rw [buffer?, get?_slots_step H hnone]
    exact hk
  · intro a ha
    obtain ⟨l, hget⟩ := buffer?_eq_some.mp hk
    refine blocks_step H (.inr ⟨k, _, a, fun ht => hnone ht.1, hget, ha, rfl⟩) ?_
    rintro k sl a ⟨_, hwrite, -⟩
    cases hwrite

/-- Comparing two buffers of the host. The answer is the verdict on them, all buffers and their
memory stay as they are, and the same is answered about any other two buffers of the same types and
shapes with the same elements, also on another system, if there is memory for the copies in both
cases or in neither. -/
theorem closeness_run (system : Allocator) (arrays : List ((t : ElemType) × List (Elem t)))
    (cs : List Command) {i j : Nat} {got expected : Buffer} (tolerance : BitVec 64)
    (G : ((Session.start system arrays).run cs).HasOnHost i got)
    (E : ((Session.start system arrays).run cs).HasOnHost j expected) :
    let s := (Session.start system arrays).run cs
    let s' := (s.step (.query i (.close j tolerance))).1
    let reply := (s.step (.query i (.close j tolerance))).2
    (∃ r, reply = .answered (r.map fun _ => .nothing) ∧
      got.Verdict expected tolerance s.host.heap r) ∧
    (∀ k b, s.buffer? k = some b → s'.buffer? k = some b ∧ ∀ a, b.address? = some a →
      s'.host.heap.blocks[a.block]? = s.host.heap.blocks[a.block]?) ∧
    ∀ system' arrays' cs' i' j' got' expected',
      let z := (Session.start system' arrays').run cs'
      z.HasOnHost i' got' → z.HasOnHost j' expected' → got.Alike s.host.heap got' z.host.heap →
      expected.Alike s.host.heap expected' z.host.heap →
      (s.host.heap.AffordsTwice got.type got.size ↔ z.host.heap.AffordsTwice got.type got.size) →
      (z.step (.query i' (.close j' tolerance))).2 = reply := by
  intro s s' reply
  have H : s.Sound := sound_run system arrays cs
  obtain ⟨r, hr, V⟩ := verdict_step H G E tolerance
  refine ⟨⟨r, hr, V⟩, fun k b hk => buffer?_query H _ hk, ?_⟩
  intro system' arrays' cs' i' j' got' expected' z G' E' hgot hexpected ha
  have H' : z.Sound := sound_run system' arrays' cs'
  obtain ⟨r', hr', V'⟩ := verdict_step H' G' E' tolerance
  have hsize := (valid_of_buffer? H G.buffer).size_eq (valid_of_buffer? H' G'.buffer) hgot.shape
  rw [hr', show reply = _ from hr, V'.unique (V.of_alike hgot hexpected hsize ha)]

/-- Bytes that differ are not close, however large the tolerance is. -/
theorem closeness_run_bytes :
    let s := (Session.start (.below 4096) []).run [
      .build 0 (.ofValues ⟨[2]⟩ (t := .u8) [1, 2] .cpu),
      .build 1 (.ofValues ⟨[2]⟩ (t := .u8) [1, 3] .cpu)]
    ∃ got expected, s.HasOnHost 0 got ∧ s.HasOnHost 1 expected ∧
      (s.step (.query 0 (.close 1 0x7ff0000000000000))).2 =
        .answered (.error (.valueMismatch 1 "2" "3")) := by
  intro s
  obtain ⟨⟨r, hr, V⟩, -⟩ := closeness_run (.below 4096) [] [
    .build 0 (.ofValues ⟨[2]⟩ (t := .u8) [1, 2] .cpu),
    .build 1 (.ofValues ⟨[2]⟩ (t := .u8) [1, 3] .cpu)] 0x7ff0000000000000 (i := 0) (j := 1)
    ⟨rfl, rfl⟩ ⟨rfl, rfl⟩
  refine ⟨_, _, ⟨rfl, rfl⟩, ⟨rfl, rfl⟩, ?_⟩
  have hverdict := V.mismatch ⟨rfl, rfl, .inr ⟨64, by decide, by decide, by decide⟩⟩ 1
  obtain ⟨x, y, hx, hy, rfl⟩ := hverdict (by
    refine ⟨⟨by decide, ?_⟩, ?_⟩
    · rintro ⟨x, y, hx, hy, H⟩
      cases hx
      cases hy
      cases H with
      | integer _ heq => exact absurd heq (by decide)
      | exact ht | near ht => cases ht
    · rintro i ⟨-, hi⟩
      refine Nat.one_le_iff_ne_zero.mpr ?_
      rintro rfl
      exact hi ⟨1, 1, by decide, by decide, .integer rfl rfl⟩)
  cases hx
  cases hy
  exact hr

/-! ### A larger tolerance -/

/-- Buffers that are close for a tolerance are close for a larger one as well, unless that one is
above zero and the buffers have the same infinity at some position. -/
theorem tolerance_run (system : Allocator) (arrays : List ((t : ElemType) × List (Elem t)))
    (cs : List Command) {i j : Nat} {got expected : Buffer} {t t' : BitVec 64} {z z' : EReal}
    (G : ((Session.start system arrays).run cs).HasOnHost i got)
    (E : ((Session.start system arrays).run cs).HasOnHost j expected) (hz : double? t = some z)
    (hz' : double? t' = some z') (hle : z ≤ z')
    (hok : (((Session.start system arrays).run cs).step (.query i (.close j t))).2 =
      .answered (.ok .nothing)) :
    let s := (Session.start system arrays).run cs
    (s.step (.query i (.close j t'))).2 = .answered (.ok .nothing) ↔
      ¬ (0 < z' ∧ got.SharesInfinity expected s.host.heap) := by
  intro s
  have H : s.Sound := sound_run system arrays cs
  obtain ⟨r, hr, V⟩ := verdict_step H G E t
  obtain ⟨r', hr', V'⟩ := verdict_step H G E t'
  obtain rfl := answered_nothing_iff.mp (hr.symm.trans hok)
  rw [hr', answered_nothing_iff]
  have hreach := reaches_size_of_buffer? H G.buffer G.device
  exact V.ok_iff_of_le V' (hreach.length_contents _) hz hz' hle

theorem double?_zero : double? 0 = some 0 := by
  have hdecode : Format.double.decode (0 : BitVec 64).toNat = .finite false 0 (-1074) := by decide
  rw [double?, hdecode]
  simp [Value.toEReal?, signed]

theorem double?_one : double? 0x3ff0000000000000 = some 1 := by
  have hdecode : Format.double.decode (0x3ff0000000000000 : BitVec 64).toNat =
      .finite false (2 ^ 52) (-52) := by decide
  have hone : signed false ((2 ^ 52 : Nat) * 2 ^ (-52 : Int)) = 1 := by norm_num [signed]
  rw [double?, hdecode, Value.toEReal?, hone, EReal.coe_one]

/-- The number one is close to itself for the tolerances zero and one. -/
theorem tolerance_run_one :
    let s := (Session.start (.below 4096) []).run [
      .build 0 (.ofValues ⟨[1]⟩ (t := .f64) [0x3ff0000000000000] .cpu),
      .build 1 (.ofValues ⟨[1]⟩ (t := .f64) [0x3ff0000000000000] .cpu)]
    ∃ got expected, s.HasOnHost 0 got ∧ s.HasOnHost 1 expected ∧ double? 0 = some 0 ∧
      double? 0x3ff0000000000000 = some 1 ∧ (0 : EReal) ≤ 1 ∧
      (s.step (.query 0 (.close 1 0))).2 = .answered (.ok .nothing) ∧
      (s.step (.query 0 (.close 1 0x3ff0000000000000))).2 = .answered (.ok .nothing) := by
  refine ⟨_, _, ⟨rfl, rfl⟩, ⟨rfl, rfl⟩, double?_zero, double?_one, zero_le_one, rfl, ?_⟩
  refine (tolerance_run (.below 4096) [] [
    .build 0 (.ofValues ⟨[1]⟩ (t := .f64) [0x3ff0000000000000] .cpu),
    .build 1 (.ofValues ⟨[1]⟩ (t := .f64) [0x3ff0000000000000] .cpu)] ⟨rfl, rfl⟩ ⟨rfl, rfl⟩
    double?_zero double?_one zero_le_one rfl).mpr ?_
  rintro ⟨-, i, x, y, hx, -, hsame⟩
  have hone : x.value = .finite false (2 ^ 52) (-52) := by
    cases i with
    | zero => cases hx; decide
    | succ => cases hx
  exact Elem.not_sameInfinity_of_finite hone hsame

/-- Two buffers with the same infinity are close for the tolerance zero and not for the tolerance
one. -/
theorem infinity_not_close :
    let s := (Session.start (.below 4096) []).run [
      .build 0 (.scalar (t := .f64) 0x7ff0000000000000 .cpu),
      .build 1 (.scalar (t := .f64) 0x7ff0000000000000 .cpu)]
    double? 0 = some 0 ∧ double? 0x3ff0000000000000 = some 1 ∧
      (∃ got expected, s.HasOnHost 0 got ∧ s.HasOnHost 1 expected) ∧
      (s.step (.query 0 (.close 1 0))).2 = .answered (.ok .nothing) ∧
      (s.step (.query 0 (.close 1 0x3ff0000000000000))).2 =
        .answered (.error (.valueMismatch 0 "inf" "inf")) := by
  exact ⟨double?_zero, double?_one, ⟨_, _, ⟨rfl, rfl⟩, ⟨rfl, rfl⟩⟩, rfl, rfl⟩

end Session

end NdBuffer
