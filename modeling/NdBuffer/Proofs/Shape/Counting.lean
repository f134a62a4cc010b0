import Mathlib.Algebra.BigOperators.Ring.List
import Mathlib.Algebra.GroupWithZero.Nat
import Mathlib.Data.List.TakeWhile
import NdBuffer.Shape.Basic

/-!
# When a shape can be counted

The product of the extents is taken from the left, and each partial product must be a count. The
partial products do not get smaller up to the first zero, and from there on they are all zero. So
what decides is the product of the extents before the first zero (`Shape.checkedCount_eq`). Without
a zero this is the number of elements itself, and the order of the extents does not matter. With a
zero there are no elements, but the shape is counted only if the extents before the zero allow it
(`Shape.countedExactly_iff`).
-/

namespace NdBuffer.Shape

variable {s : Shape} {xs : List Nat} {a : Nat}

/-- The number of elements, however large. -/
def exactCount (s : Shape) : Nat := if s.dims = [] then 0 else s.extents.prod

/-- Whether the shape is counted by its number of elements, or not at all if that is too large. -/
structure CountedExactly (s : Shape) : Prop where
  checkedCount : s.checkedCount =
    if s.exactCount < Count.limit then .ok s.exactCount else .error (.shapeOverflow s.extents)
  count : s.count = Count.capped s.exactCount

/-- The extents before the first zero. -/
def leading (s : Shape) : List Nat := s.extents.takeWhile (· ≠ 0)

theorem mul?_eq_zero {x y : Nat} (h : x * y = 0) : Count.mul? x y = some 0 :=
  Count.checked_eq_some_iff.mpr ⟨h, h ▸ by decide⟩

theorem foldlM_mul?_zero (xs : List Nat) : xs.foldlM Count.mul? 0 = some 0 := by
  induction xs with
  | nil => rfl
  | cons x xs ih =>
    rw [List.foldlM_cons, mul?_eq_zero (Nat.zero_mul x)]
    exact ih

theorem prod_takeWhile_pos (xs : List Nat) : 0 < (xs.takeWhile (· ≠ 0)).prod := by
  apply Nat.pos_of_ne_zero
  apply List.prod_ne_zero
  intro hzero
  simpa using List.mem_takeWhile_imp hzero

/-- A product that is taken from the left is cut short by a partial product that is no count, unless
a zero comes first. -/
theorem foldlM_mul?_eq (ha : 0 < a) (hlt : a < Count.limit) :
    xs.foldlM Count.mul? a =
      if a * (xs.takeWhile (· ≠ 0)).prod < Count.limit then some (a * xs.prod) else none := by
  induction xs generalizing a with
  | nil => simp [hlt]
  | cons x xs ih =>
    rw [List.foldlM_cons, List.prod_cons]
    cases x with
    | zero =>
      rw [mul?_eq_zero (Nat.mul_zero a)]
      simpa [hlt] using foldlM_mul?_zero xs
    | succ d =>
      rw [List.takeWhile_cons_of_pos (by simp), List.prod_cons, ← Nat.mul_assoc, ← Nat.mul_assoc]
      by_cases hax : a * (d + 1) < Count.limit
      · have hmul : Count.mul? a (d + 1) = some (a * (d + 1)) :=
          Count.checked_eq_some_iff.mpr ⟨rfl, hax⟩
        rw [hmul]
        exact ih (Nat.mul_pos ha d.succ_pos) hax
      · have hmul : Count.mul? a (d + 1) = none :=
          Count.checked_eq_none_iff.mpr (Nat.not_lt.mp hax)
        have hle : a * (d + 1) ≤ a * (d + 1) * (xs.takeWhile (· ≠ 0)).prod :=
          Nat.le_mul_of_pos_right _ (prod_takeWhile_pos xs)
        rw [hmul, if_neg fun h => hax (Nat.lt_of_le_of_lt hle h)]
        rfl

theorem count?_eq (s : Shape) :
    s.count? = if s.leading.prod < Count.limit then some s.exactCount else none := by
  by_cases hs : s.dims = []
  · have hlead : s.leading.prod < Count.limit := by
      simp only [leading, extents, hs]
      decide
    rw [count?, if_pos hs, if_pos hlead, exactCount, if_pos hs]
  · rw [count?, if_neg hs, exactCount, if_neg hs, product?,
      foldlM_mul?_eq Nat.one_pos (by decide), Nat.one_mul, Nat.one_mul]
    rfl

/-- A shape is counted if the product of its extents before the first zero is a count. -/
theorem checkedCount_eq (s : Shape) :
    s.checkedCount = if s.leading.prod < Count.limit then .ok s.exactCount
      else .error (.shapeOverflow s.extents) := by
  rw [checkedCount, count?_eq]
  by_cases hlead : s.leading.prod < Count.limit
  · rw [if_pos hlead, if_pos hlead]
  · rw [if_neg hlead, if_neg hlead]

theorem count_eq_ite (s : Shape) :
    s.count = if s.leading.prod < Count.limit then s.exactCount else Count.top := by
  rw [count, count?_eq]
  by_cases hlead : s.leading.prod < Count.limit
  · rw [if_pos hlead, if_pos hlead]
    rfl
  · rw [if_neg hlead, if_neg hlead]
    rfl

/-! ### Shapes with a zero and without -/

theorem exactCount_of_zero_mem (h0 : 0 ∈ s.extents) : s.exactCount = 0 := by
  rw [exactCount]
  split
  · rfl
  · exact List.prod_eq_zero h0

theorem leading_of_zero_not_mem (h0 : 0 ∉ s.extents) : s.leading = s.extents := by
  refine List.takeWhile_eq_self_iff.mpr fun x hx => ?_
  simpa using fun hzero : x = 0 => h0 (hzero ▸ hx)

/-- Without a zero it is the number of elements that decides. -/
theorem exactCount_lt_iff (h0 : 0 ∉ s.extents) :
    s.exactCount < Count.limit ↔ s.leading.prod < Count.limit := by
  rw [leading_of_zero_not_mem h0, exactCount]
  split
  · rename_i hs
    rw [extents, hs]
    decide
  · rfl

theorem exactCount_perm {s' : Shape} (hperm : s'.extents.Perm s.extents) :
    s'.exactCount = s.exactCount := by
  have hlen : s'.dims = [] ↔ s.dims = [] := by
    rw [← List.length_eq_zero_iff, ← List.length_eq_zero_iff]
    have hlength := hperm.length_eq
    rw [length_extents, length_extents] at hlength
    rw [← rank, ← rank, hlength]
  simp only [exactCount, hlen, hperm.prod_eq]

theorem exactCount_lt (hlead : s.leading.prod < Count.limit) : s.exactCount < Count.limit := by
  by_cases h0 : 0 ∈ s.extents
  · rw [exactCount_of_zero_mem h0]
    decide
  · exact (exactCount_lt_iff h0).mpr hlead

theorem eq_exactCount_of_count? {n : Nat} (h : s.count? = some n) :
    n = s.exactCount ∧ n < Count.limit := by
  rw [count?_eq] at h
  obtain ⟨hlead, hn⟩ := Option.ite_none_right_eq_some.mp h
  cases hn
  exact ⟨rfl, exactCount_lt hlead⟩

theorem exactCount_of_rank_pos (h : 0 < s.rank) : s.exactCount = s.extents.prod :=
  if_neg (List.length_pos_iff.mp h)

theorem countedExactly_iff :
    s.CountedExactly ↔ (0 ∈ s.extents → s.leading.prod < Count.limit) := by
  constructor
  · intro H h0
    have hok := H.checkedCount
    rw [exactCount_of_zero_mem h0, if_pos (by decide), checkedCount_eq] at hok
    by_contra hlead
    rw [if_neg hlead] at hok
    cases hok
  · intro hzero
    by_cases hlead : s.leading.prod < Count.limit
    · have hlt := exactCount_lt hlead
      refine ⟨?_, ?_⟩
      · rw [checkedCount_eq, if_pos hlead, if_pos hlt]
      · rw [count_eq_ite, if_pos hlead, Count.capped_eq_self hlt]
    · have hge := mt (exactCount_lt_iff (mt hzero hlead)).mp hlead
      refine ⟨?_, ?_⟩
      · rw [checkedCount_eq, if_neg hlead, if_neg hge]
      · rw [count_eq_ite, if_neg hlead, Count.capped]
        have htop : Count.top ≤ s.exactCount :=
          Nat.le_trans (Nat.sub_le Count.limit 1) (Nat.not_lt.mp hge)
        exact (Nat.min_eq_right htop).symm

theorem leading_of_head? (h0 : s.extents.head? = some 0) : s.leading = [] := by
  obtain ⟨ds, hds⟩ := List.head?_eq_some_iff.mp h0
  rw [leading, hds]
  rfl

/-- Counting the elements of a shape. A number that is answered is the number of elements. A shape
is counted as exactly as it can be unless it has a zero, and so no elements, and the product of its
extents before the first zero is too large already. In particular a shape that has no zero is
counted exactly, whatever the order of its extents, and so is one that begins with a zero. -/
theorem counting (s : Shape) :
    (∀ n, s.checkedCount = .ok n → n = s.exactCount ∧ n < Count.limit) ∧
      (∀ e, s.checkedCount = .error e → e = .shapeOverflow s.extents ∧ s.count = Count.top) ∧
      (s.CountedExactly ↔ ¬ (0 ∈ s.extents ∧ Count.limit ≤ s.leading.prod)) ∧
      (0 ∉ s.extents → ∀ s' : Shape, s'.extents.Perm s.extents →
        s'.exactCount = s.exactCount ∧ s'.CountedExactly ∧ s.CountedExactly) ∧
      (s.extents.head? = some 0 → s.checkedCount = .ok 0) := by
  refine ⟨?_, ?_, ?_, ?_, ?_⟩
  · intro n hn
    rw [checkedCount_eq] at hn
    split at hn
    · rename_i hlead
      cases hn
      exact ⟨rfl, exactCount_lt hlead⟩
    · cases hn
  · intro e he
    obtain ⟨hnone, rfl⟩ := checkedCount_eq_error.mp he
    exact ⟨rfl, by rw [count, hnone]; rfl⟩
  · rw [countedExactly_iff, not_and, Nat.not_le]
  · intro h0 s' hperm
    have h0' : 0 ∉ s'.extents := fun h => h0 (hperm.mem_iff.mp h)
    exact ⟨exactCount_perm hperm, countedExactly_iff.mpr fun h => absurd h h0',
      countedExactly_iff.mpr fun h => absurd h h0⟩
  · intro h0
    rw [checkedCount_eq, leading_of_head? h0, if_pos (by decide),
      exactCount_of_zero_mem (List.mem_of_mem_head? h0)]

/-- A shape without elements that is not counted, because its first two extents are too large. With
the zero in front it is counted. -/
theorem zero_not_counted :
    let s : Shape := ⟨[0x8000000000000001, 2, 0]⟩
    s.exactCount = 0 ∧ s.checkedCount = .error (.shapeOverflow [0x8000000000000001, 2, 0]) ∧
      s.count = Count.top ∧ ¬ s.CountedExactly ∧
      checkedCount ⟨[0, 0x8000000000000001, 2]⟩ = .ok 0 := by
  intro s
  refine ⟨rfl, rfl, rfl, fun H => ?_, rfl⟩
  cases H.checkedCount

end NdBuffer.Shape
