import NdBuffer.Closeness
import NdBuffer.Proofs.Binary.Comparison
import NdBuffer.Proofs.Binary.Widening
import NdBuffer.Proofs.Buffer.Copying

/-!
# Closeness

Which elements are close (`Elem.Close`), and what the comparison of two buffers of the host results
in (`Buffer.Verdict`). The kinds of mismatch are looked for one after the other: first the type,
then the shape, and then the elements, of which the first that is not close is reported. The verdict
is determined by the types, the shapes and the elements (`Buffer.Verdict.unique`,
`Buffer.Verdict.of_alike`).
-/

namespace NdBuffer

open Binary

/-! ### Elements -/

namespace Elem

variable {t : ElemType} {tolerance : BitVec 64} {x y : Elem t}

/-- Whether two elements are close. Integers have to be equal. Floats have to be the same number if
the tolerance is not above zero, and otherwise the distance of the doubles that they are made must
not exceed it. -/
inductive Close (tolerance : BitVec 64) (x y : Elem t) : Prop
  | integer : t.isFloat = false → x = y → Close tolerance x y
  | exact {r : EReal} : t.isFloat = true → (∀ z, double? tolerance = some z → ¬ 0 < z) →
    x.value.toEReal? = some r → y.value.toEReal? = some r → Close tolerance x y
  | near {a b d z : EReal} : t.isFloat = true → double? tolerance = some z → 0 < z →
    x.widened? = some a → y.widened? = some b → IsDistance a b d → d ≤ z → Close tolerance x y

theorem Close.integer_iff (ht : t.isFloat = false) : Close tolerance x y ↔ x = y := by
  constructor
  · intro H
    cases H with
    | integer _ heq => exact heq
    | exact ht' | near ht' => cases ht.symm.trans ht'
  · exact .integer ht

theorem Close.exact_iff (ht : t.isFloat = true)
    (hno : ∀ z, double? tolerance = some z → ¬ 0 < z) :
    Close tolerance x y ↔ ∃ r, x.value.toEReal? = some r ∧ y.value.toEReal? = some r := by
  constructor
  · intro H
    cases H with
    | integer ht' => cases ht.symm.trans ht'
    | exact _ _ hx hy => exact ⟨_, hx, hy⟩
    | near _ hz hpos => exact absurd hpos (hno _ hz)
  · rintro ⟨r, hx, hy⟩
    exact .exact ht hno hx hy

theorem Close.near_iff {z : EReal} (ht : t.isFloat = true) (hz : double? tolerance = some z)
    (hpos : 0 < z) :
    Close tolerance x y ↔
      ∃ a b d, x.widened? = some a ∧ y.widened? = some b ∧ IsDistance a b d ∧ d ≤ z := by
  constructor
  · intro H
    cases H with
    | integer ht' => cases ht.symm.trans ht'
    | exact _ hno => exact absurd hpos (hno z hz)
    | near _ hz' _ ha hb H hle =>
      obtain rfl := Option.some.inj (hz.symm.trans hz')
      exact ⟨_, _, _, ha, hb, H, hle⟩
  · rintro ⟨a, b, d, ha, hb, H, hle⟩
    exact .near ht hz hpos ha hb H hle

/-- The test of two elements decides whether they are close. -/
theorem close_iff : x.close tolerance y = true ↔ Close tolerance x y := by
  rw [close]
  cases ht : t.isFloat with
  | false => rw [if_neg Bool.false_ne_true, beq_iff_eq, Close.integer_iff ht]
  | true =>
    rw [if_pos rfl]
    cases hpos : isPositive tolerance with
    | false =>
      have hno (z : EReal) (hz : double? tolerance = some z) : ¬ 0 < z := fun hlt =>
        Bool.false_ne_true (hpos.symm.trans (isPositive_iff.mpr ⟨z, hz, hlt⟩))
      obtain ⟨f, hf, -⟩ := ElemType.exists_format ht
      rw [if_neg Bool.false_ne_true, Close.exact_iff ht hno, value_eq_decode hf,
        value_eq_decode hf, Format.equals_decode_iff]
    | true =>
      obtain ⟨z, hz, hlt⟩ := isPositive_iff.mp hpos
      rw [if_pos rfl, Close.near_iff ht hz hlt, Value.within_iff hpos hz, widened?_eq ht,
        widened?_eq ht]

/-- Whether two elements are the same infinity. -/
def SameInfinity (x y : Elem t) : Prop :=
  ∃ r, (r = ⊥ ∨ r = ⊤) ∧ x.value.toEReal? = some r ∧ y.value.toEReal? = some r

theorem not_sameInfinity_of_finite {negative : Bool} {m : Nat} {e : Int}
    (hx : x.value = .finite negative m e) : ¬ SameInfinity x y := by
  rintro ⟨r, hr, hr', -⟩
  rw [hx] at hr'
  cases hr'
  simp at hr

theorem not_sameInfinity_of_integer (ht : t.isFloat = false) : ¬ SameInfinity x y := by
  cases t with
  | f32 | f16 | bf16 | f64 => cases ht
  | i8 | i16 | i32 | i64 | u8 => exact not_sameInfinity_of_finite rfl

/-- An infinity has no distance from itself, so it is not close to itself for a tolerance above
zero. -/
theorem Close.not_sameInfinity {z : EReal} (H : Close tolerance x y)
    (hz : double? tolerance = some z) (hpos : 0 < z) : ¬ SameInfinity x y := by
  intro S
  cases ht : t.isFloat with
  | false => exact not_sameInfinity_of_integer ht S
  | true =>
    obtain ⟨a, b, d, ha, hb, D, -⟩ := (near_iff ht hz hpos).mp H
    obtain ⟨r, hr, hx, hy⟩ := S
    rw [widened?_eq ht] at ha hb
    obtain rfl := Option.some.inj (hx.symm.trans ha)
    obtain rfl := Option.some.inj (hy.symm.trans hb)
    obtain ⟨hbot, htop, -⟩ := isDistance_self.mp D
    exact hr.elim hbot htop

/-- What is close stays close for a larger tolerance, except that the same infinities do not if it
is above zero. -/
theorem Close.iff_of_le {tolerance' : BitVec 64} {z z' : EReal} (hz : double? tolerance = some z)
    (hz' : double? tolerance' = some z') (hle : z ≤ z') (H : Close tolerance x y) :
    Close tolerance' x y ↔ ¬ (0 < z' ∧ SameInfinity x y) := by
  refine ⟨fun H' h => H'.not_sameInfinity hz' h.1 h.2, fun hno => ?_⟩
  cases H with
  | integer ht heq => exact .integer ht heq
  | near ht hlarge hpos ha hb D hd =>
    obtain rfl := Option.some.inj (hz.symm.trans hlarge)
    exact .near ht hz' (lt_of_lt_of_le hpos hle) ha hb D (le_trans hd hle)
  | @exact r ht _ hx hy =>
    by_cases hpos : 0 < z'
    · -- the difference of equal numbers is zero
      have hfinite : ¬ (r = ⊥ ∨ r = ⊤) := fun hr => hno ⟨hpos, r, hr, hx, hy⟩
      rw [not_or] at hfinite
      have D : IsDistance r r 0 := isDistance_self.mpr ⟨hfinite.1, hfinite.2, rfl⟩
      exact .near ht hz' hpos ((widened?_eq ht x).trans hx) ((widened?_eq ht y).trans hy) D hpos.le
    · refine .exact ht (fun z hz => ?_) hx hy
      obtain rfl := Option.some.inj (hz'.symm.trans hz)
      exact hpos

end Elem

/-! ### The first difference -/

section

variable {α : Type} {agree : α → α → Bool} {xs ys : List α} {i : Nat} {x y : α}

theorem firstDifference?_eq_none :
    firstDifference? agree xs ys = none ↔
      ∀ (i : Nat) (x y : α), xs[i]? = some x → ys[i]? = some y → agree x y = true := by
  fun_induction firstDifference? agree xs ys with
  | case1 x xs y ys hagree ih =>
    rw [Option.map_eq_none_iff, ih]
    constructor
    · rintro H (_ | i) x y hx hy
      · simp_all
      · exact H i x y hx hy
    · exact fun H i => H (i + 1)
  | case2 x xs y ys hagree =>
    refine ⟨nofun, fun H => absurd (H 0 x y rfl rfl) hagree⟩
  | case3 xs ys hne =>
    refine ⟨fun _ i x y hx hy => ?_, fun _ => rfl⟩
    cases xs with
    | nil => cases hx
    | cons =>
      cases ys with
      | nil => cases hy
      | cons => exact (hne _ _ _ _ rfl rfl).elim

theorem firstDifference?_eq_some (h : firstDifference? agree xs ys = some (i, x, y)) :
    xs[i]? = some x ∧ ys[i]? = some y ∧ agree x y = false ∧
      ∀ j < i, ∀ x y, xs[j]? = some x → ys[j]? = some y → agree x y = true := by
  fun_induction firstDifference? agree xs ys generalizing i with
  | case1 x' xs y' ys hagree ih =>
    obtain ⟨⟨i, z⟩, hz, heq⟩ := Option.map_eq_some_iff.mp h
    cases heq
    obtain ⟨hx, hy, hno, H⟩ := ih hz
    refine ⟨hx, hy, hno, ?_⟩
    rintro (_ | j) hj x y hx hy
    · simp_all
    · exact H j (Nat.lt_of_succ_lt_succ hj) x y hx hy
  | case2 x' xs y' ys hagree =>
    cases h
    exact ⟨rfl, rfl, Bool.eq_false_iff.mpr hagree, fun j hj => absurd hj (Nat.not_lt_zero j)⟩
  | case3 => cases h

end

/-! ### Buffers -/

namespace Buffer

variable {got expected got' expected' b c d : Buffer} {tolerance : BitVec 64} {m m' : Heap}
  {r r' : Except Error Unit} {t : ElemType} {i : Nat}

theorem Valid.size_eq (H : b.Valid) (H' : c.Valid) (hs : b.shape = c.shape) : b.size = c.size := by
  rw [← Shape.count_eq H.count, hs, Shape.count_eq H'.count]

/-- Whether two buffers have close elements at a position. -/
def CloseAt (got expected : Buffer) (tolerance : BitVec 64) (m : Heap) (i : Nat) : Prop :=
  ∃ x y, (got.contents got.type m)[i]? = some x ∧ (expected.contents got.type m)[i]? = some y ∧
    x.Close tolerance y

theorem closeAt_iff_close {x y : Elem got.type} (hx : (got.contents got.type m)[i]? = some x)
    (hy : (expected.contents got.type m)[i]? = some y) :
    got.CloseAt expected tolerance m i ↔ x.Close tolerance y := by
  constructor
  · rintro ⟨x', y', hx', hy', H⟩
    obtain rfl := Option.some.inj (hx.symm.trans hx')
    obtain rfl := Option.some.inj (hy.symm.trans hy')
    exact H
  · exact fun H => ⟨x, y, hx, hy, H⟩

/-- Whether the elements of two buffers are compared. There has to be memory for a copy of each. -/
structure Comparable (got expected : Buffer) (m : Heap) : Prop where
  type : got.type = expected.type
  shape : got.shape = expected.shape
  affordable : m.AffordsTwice got.type got.size

/-- What the comparison of two buffers of the host has to result in. -/
structure Verdict (got expected : Buffer) (tolerance : BitVec 64) (m : Heap)
    (r : Except Error Unit) : Prop where
  type : got.type ≠ expected.type → r = .error (.typeMismatch expected.type got.type)
  shape : got.type = expected.type → got.shape ≠ expected.shape →
    r = .error (.shapeMismatch expected.extents got.extents)
  shortage : got.type = expected.type → got.shape = expected.shape →
    ¬ m.AffordsTwice got.type got.size → r = .error (shortage got.type got.size)
  ok_iff : got.Comparable expected m →
    (r = .ok () ↔ ∀ i < got.size, got.CloseAt expected tolerance m i)
  mismatch : got.Comparable expected m → ∀ i,
    IsLeast {i | i < got.size ∧ ¬ got.CloseAt expected tolerance m i} i →
    ∃ x y, (got.contents got.type m)[i]? = some x ∧ (expected.contents got.type m)[i]? = some y ∧
      r = .error (.valueMismatch i x.text y.text)

theorem Verdict.of_type_ne (ht : got.type ≠ expected.type) :
    Verdict got expected tolerance m (.error (.typeMismatch expected.type got.type)) :=
  ⟨fun _ => rfl, fun h => absurd h ht, fun h => absurd h ht, fun C => absurd C.type ht,
    fun C => absurd C.type ht⟩

theorem Verdict.of_shape_ne (ht : got.type = expected.type) (hs : got.shape ≠ expected.shape) :
    Verdict got expected tolerance m (.error (.shapeMismatch expected.extents got.extents)) :=
  ⟨fun h => absurd ht h, fun _ _ => rfl, fun _ h => absurd h hs, fun C => absurd C.shape hs,
    fun C => absurd C.shape hs⟩

theorem Verdict.of_not_affordable (ht : got.type = expected.type)
    (hs : got.shape = expected.shape) (ha : ¬ m.AffordsTwice got.type got.size) :
    Verdict got expected tolerance m (.error (NdBuffer.shortage got.type got.size)) :=
  ⟨fun h => absurd ht h, fun _ h => absurd hs h, fun _ _ _ => rfl,
    fun C => absurd C.affordable ha, fun C => absurd C.affordable ha⟩

/-- There is only one verdict. -/
theorem Verdict.unique (V : Verdict got expected tolerance m r)
    (V' : Verdict got expected tolerance m r') : r = r' := by
  classical
  by_cases ht : got.type = expected.type
  · by_cases hs : got.shape = expected.shape
    · by_cases ha : m.AffordsTwice got.type got.size
      · have C : got.Comparable expected m := ⟨ht, hs, ha⟩
        by_cases hclose : ∀ i < got.size, got.CloseAt expected tolerance m i
        · rw [(V.ok_iff C).mpr hclose, (V'.ok_iff C).mpr hclose]
        · have hsome : ∃ i, i < got.size ∧ ¬ got.CloseAt expected tolerance m i := by
            simpa using hclose
          have hleast := Nat.isLeast_find hsome
          obtain ⟨x, y, hx, hy, hr⟩ := V.mismatch C _ hleast
          obtain ⟨x', y', hx', hy', hr'⟩ := V'.mismatch C _ hleast
          obtain rfl := Option.some.inj (hx.symm.trans hx')
          obtain rfl := Option.some.inj (hy.symm.trans hy')
          rw [hr, hr']
      · rw [V.shortage ht hs ha, V'.shortage ht hs ha]
    · rw [V.shape ht hs, V'.shape ht hs]
  · rw [V.type ht, V'.type ht]

/-- Whether two buffers have the same type, shape and elements. -/
structure Alike (b : Buffer) (m : Heap) (c : Buffer) (m' : Heap) : Prop where
  type : b.type = c.type
  shape : b.shape = c.shape
  contents : b.contents b.type m = c.contents b.type m'

theorem Alike.closeAt_iff (G : got.Alike m got' m') (E : expected.Alike m expected' m')
    (ht : got.type = expected.type) :
    got.CloseAt expected tolerance m i ↔ got'.CloseAt expected' tolerance m' i := by
  rw [CloseAt, CloseAt, ← G.type, G.contents, ht, E.contents]

/-- The verdict does not depend on anything else of the buffers, and of memory only on whether there
is enough for the copies. -/
theorem Verdict.of_alike (G : got.Alike m got' m') (E : expected.Alike m expected' m')
    (hsize : got.size = got'.size)
    (ha : m.AffordsTwice got.type got.size ↔ m'.AffordsTwice got.type got.size)
    (V : Verdict got expected tolerance m r) : Verdict got' expected' tolerance m' r := by
  rw [G.type, hsize] at ha
  have hcomparable (C : got'.Comparable expected' m') : got.Comparable expected m :=
    ⟨G.type.trans (C.type.trans E.type.symm), G.shape.trans (C.shape.trans E.shape.symm),
      G.type ▸ hsize ▸ ha.mpr C.affordable⟩
  refine ⟨fun ht => ?_, fun ht hs => ?_, fun ht hs hno => ?_, fun C => ?_, fun C i hi => ?_⟩
  · rw [← G.type, ← E.type] at ht ⊢
    exact V.type ht
  · rw [← G.shape, ← E.shape] at hs
    have hshape := V.shape (G.type.trans (ht.trans E.type.symm)) hs
    simpa only [extents, G.shape, E.shape] using hshape
  · rw [← ha, ← G.type, ← hsize] at hno
    rw [← G.type, ← hsize]
    exact V.shortage (G.type.trans (ht.trans E.type.symm))
      (G.shape.trans (hs.trans E.shape.symm)) hno
  · rw [V.ok_iff (hcomparable C), hsize]
    exact forall₂_congr fun i _ => G.closeAt_iff E (hcomparable C).type
  · have hleast : IsLeast {i | i < got.size ∧ ¬ got.CloseAt expected tolerance m i} i := by
      simpa only [hsize, G.closeAt_iff E (hcomparable C).type] using hi
    have hE : expected.contents got.type m = expected'.contents got.type m' := by
      rw [(hcomparable C).type]
      exact E.contents
    rw [← G.type, ← G.contents, ← hE]
    exact V.mismatch (hcomparable C) i hleast

/-- The comparison of elements stops at the first position at which they are not close. -/
theorem compareData_cases (hc : c.type = t) (hd : d.type = t) (hcpu : c.device = .cpu)
    (hcpu' : d.device = .cpu) (tolerance : BitVec 64) (m : Heap) :
    (c.compareData d tolerance m = .ok () ∧ ∀ (i : Nat) (x y : Elem t),
        (c.contents t m)[i]? = some x → (d.contents t m)[i]? = some y → x.Close tolerance y) ∨
      ∃ (i : Nat) (x y : Elem t),
        c.compareData d tolerance m = .error (.valueMismatch i x.text y.text) ∧
        (c.contents t m)[i]? = some x ∧ (d.contents t m)[i]? = some y ∧ ¬ x.Close tolerance y ∧
        ∀ j < i, ∀ x y, (c.contents t m)[j]? = some x → (d.contents t m)[j]? = some y →
          x.Close tolerance y := by
  subst hc
  rw [compareData, data_eq_ok rfl hcpu, data_eq_ok hd hcpu']
  simp only [bind, Except.bind]
  cases hdiff : firstDifference? (Elem.close tolerance) (c.contents c.type m)
      (d.contents c.type m) with
  | none =>
    refine .inl ⟨rfl, fun i x y hx hy => Elem.close_iff.mp ?_⟩
    exact firstDifference?_eq_none.mp hdiff i x y hx hy
  | some found =>
    obtain ⟨i, x, y⟩ := found
    obtain ⟨hx, hy, hno, hbefore⟩ := firstDifference?_eq_some hdiff
    refine .inr ⟨i, x, y, rfl, hx, hy, fun H => ?_, fun j hj x y hx hy => ?_⟩
    · exact Bool.false_ne_true (hno.symm.trans (Elem.close_iff.mpr H))
    · exact Elem.close_iff.mp (hbefore j hj x y hx hy)

/-- The comparison of two copies gives the verdict on what has been copied. -/
theorem Verdict.of_copies (C : got.Comparable expected m) (G : c.CopyOf m' got m)
    (E : d.CopyOf m' expected m) (hlen : (got.contents got.type m).length = got.size)
    (hlen' : (expected.contents got.type m).length = got.size) :
    Verdict got expected tolerance m (c.compareData d tolerance m') := by
  have hE : d.contents got.type m' = expected.contents got.type m := by
    rw [C.type]
    exact E.contents
  have hcases := compareData_cases G.type (E.type.trans C.type.symm) G.device E.device tolerance m'
  rw [G.contents, hE] at hcases
  generalize c.compareData d tolerance m' = r at hcases
  have hat {j : Nat} (hj : j < got.size) (hclose : ∀ x y, (got.contents got.type m)[j]? = some x →
      (expected.contents got.type m)[j]? = some y → x.Close tolerance y) :
      got.CloseAt expected tolerance m j := by
    have hx := List.getElem?_eq_getElem (Nat.lt_of_lt_of_eq hj hlen.symm)
    have hy := List.getElem?_eq_getElem (Nat.lt_of_lt_of_eq hj hlen'.symm)
    exact (closeAt_iff_close hx hy).mpr (hclose _ _ hx hy)
  refine ⟨fun ht => absurd C.type ht, fun _ hs => absurd C.shape hs,
    fun _ _ ha => absurd C.affordable ha, ?_, ?_⟩
  · intro _
    rcases hcases with ⟨rfl, hall⟩ | ⟨i, x, y, rfl, hx, hy, hno, -⟩
    · exact ⟨fun _ j hj => hat hj (hall j), fun _ => rfl⟩
    · have hi := (List.getElem?_eq_some_iff.mp hx).1
      exact ⟨nofun, fun hclose => absurd ((closeAt_iff_close hx hy).mp (hclose i (hlen ▸ hi))) hno⟩
  · rintro - i ⟨⟨hi, hfar⟩, hleast⟩
    rcases hcases with ⟨-, hall⟩ | ⟨j, x, y, rfl, hx, hy, hno, hbefore⟩
    · exact absurd (hat hi (hall i)) hfar
    · have hle : j ≤ i := Nat.le_of_not_lt fun hlt => hfar (hat hi (hbefore i hlt))
      have hj := (List.getElem?_eq_some_iff.mp hx).1
      have hle' : i ≤ j := hleast ⟨hlen ▸ hj, fun H => hno ((closeAt_iff_close hx hy).mp H)⟩
      obtain rfl := Nat.le_antisymm hle hle'
      exact ⟨x, y, hx, hy, rfl⟩

/-! ### Tolerances -/

theorem Verdict.comparable (V : Verdict got expected tolerance m (.ok ())) :
    got.Comparable expected m := by
  have ht : got.type = expected.type := by
    by_contra ht
    cases V.type ht
  have hs : got.shape = expected.shape := by
    by_contra hs
    cases V.shape ht hs
  refine ⟨ht, hs, ?_⟩
  by_contra ha
  cases V.shortage ht hs ha

/-- Whether two buffers have the same infinity at some position. -/
def SharesInfinity (got expected : Buffer) (m : Heap) : Prop :=
  ∃ (i : Nat) (x y : Elem got.type), (got.contents got.type m)[i]? = some x ∧
    (expected.contents got.type m)[i]? = some y ∧ x.SameInfinity y

/-- Buffers that are close stay close for a larger tolerance, unless it is above zero and they have
the same infinity at some position. -/
theorem Verdict.ok_iff_of_le {tolerance' : BitVec 64} {z z' : EReal}
    (V : Verdict got expected tolerance m (.ok ())) (V' : Verdict got expected tolerance' m r)
    (hlen : (got.contents got.type m).length = got.size) (hz : double? tolerance = some z)
    (hz' : double? tolerance' = some z') (hle : z ≤ z') :
    r = .ok () ↔ ¬ (0 < z' ∧ got.SharesInfinity expected m) := by
  have C := V.comparable
  have hclose := (V.ok_iff C).mp rfl
  rw [V'.ok_iff C]
  constructor
  · rintro hall ⟨hpos, i, x, y, hx, hy, hsame⟩
    have hi := (List.getElem?_eq_some_iff.mp hx).1
    exact ((closeAt_iff_close hx hy).mp (hall i (hlen ▸ hi))).not_sameInfinity hz' hpos hsame
  · intro hno i hi
    obtain ⟨x, y, hx, hy, H⟩ := hclose i hi
    refine ⟨x, y, hx, hy, (H.iff_of_le hz hz' hle).mpr fun h => hno ⟨h.1, ?_⟩⟩
    exact ⟨i, x, y, hx, hy, h.2⟩

end Buffer

end NdBuffer
