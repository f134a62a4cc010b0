import Mathlib.Data.List.Forall2
import Mathlib.Data.List.Lex
import Mathlib.Data.Set.Function
import Mathlib.Order.Interval.Set.Defs
import NdBuffer.Proofs.Shape.Counting
import NdBuffer.Shape.Index

/-!
# Offsets of elements

The exact offset of a list of indices is the sum of each index times the product of the extents
after its axis. Strides are these products, cut off at the largest count, and an offset is weighed
with checks on every product and every sum. Neither is seen from outside: an offset that is answered
is the exact one, and what is too large for a count is cut off there (`Shape.capped_weigh`).

A list that names an element has an index below the extent for every axis. The exact offset numbers
these lists from zero on, in lexicographic order (`Shape.bijOn_place`, `Shape.place_lt_place_iff`).
-/

namespace NdBuffer

namespace Count

variable {m n k : Nat}

theorem capped_add_capped (m n : Nat) : capped (capped m + capped n) = capped (m + n) := by
  unfold capped
  omega

/-- Nothing is lost if one factor of a product is cut off first. -/
theorem capped_mul_capped (m n : Nat) : capped (m * capped n) = capped (m * n) := by
  cases m with
  | zero => rw [Nat.zero_mul, Nat.zero_mul]
  | succ m =>
    rcases Nat.le_total n top with hn | hn
    · rw [show capped n = n from Nat.min_eq_left hn]
    · have hcut : capped n = top := Nat.min_eq_right hn
      have htop : top ≤ (m + 1) * top := Nat.le_mul_of_pos_left top m.succ_pos
      have hprod : top ≤ (m + 1) * n := Nat.le_trans hn (Nat.le_mul_of_pos_left n m.succ_pos)
      rw [hcut]
      exact (Nat.min_eq_right htop).trans (Nat.min_eq_right hprod).symm

/-- A product and a sum, each of them checked, are checked together. -/
theorem mul?_bind_add? (m n k : Nat) :
    (mul? m n).bind (fun part => add? part k) = checked (m * n + k) := by
  rcases Nat.lt_or_ge (m * n) limit with hlt | hge
  · rw [mul?, checked_eq_some_iff.mpr ⟨rfl, hlt⟩]
    rfl
  · rw [mul?, checked_eq_none_iff.mpr hge, checked_eq_none_iff.mpr (by omega)]
    rfl

end Count

namespace Shape

variable {ds is js : List Nat} {n : Nat}

/-- The product of the extents after each axis, however large. -/
def weights : List Nat → List Nat
  | [] => []
  | _ :: ds => ds.prod :: weights ds

/-- The sum of each index times the product of the extents after its axis, however large. -/
def place (extents indices : List Nat) : Nat :=
  (List.zipWith (· * ·) indices (weights extents)).sum

/-- The offset of the element at some indices, however large. -/
def exactOffset (s : Shape) (indices : List Nat) : Nat := place s.extents indices

/-- Whether there is an index for every axis, and it is below the extent of the axis. -/
def Names (s : Shape) (indices : List Nat) : Prop := List.Forall₂ (· < ·) indices s.extents

/-! ### Checks and limits -/

theorem stride_eq (ds : List Nat) : stride ds = Count.capped ds.prod := by
  induction ds with
  | nil => rfl
  | cons d ds ih =>
    rw [stride, ih, Nat.mul_comm, Count.capped_mul_capped, List.prod_cons]

theorem stridesOf_eq (ds : List Nat) : stridesOf ds = (weights ds).map Count.capped := by
  induction ds with
  | nil => rfl
  | cons d ds ih => rw [stridesOf, stride_eq, ih, weights, List.map_cons]

/-- The product after an axis is no larger than that of all extents, unless this is zero. -/
theorem le_prod_of_mem_weights {w : Nat} (hpos : 0 < ds.prod) (hw : w ∈ weights ds) :
    w ≤ ds.prod := by
  induction ds with
  | nil => cases hw
  | cons d ds ih =>
    rw [List.prod_cons] at hpos ⊢
    have hle : ds.prod ≤ d * ds.prod := Nat.le_mul_of_pos_left _ (Nat.pos_of_mul_pos_right hpos)
    rcases List.mem_cons.mp hw with rfl | hw
    · exact hle
    · exact Nat.le_trans (ih (Nat.pos_of_mul_pos_left hpos) hw) hle

/-- If there are elements and they can be counted, no stride is cut off. -/
theorem strides_of_pos {s : Shape} (hs : s.count? = some n) (hn : 0 < n) :
    s.strides = weights s.extents := by
  obtain ⟨rfl, hlt⟩ := eq_exactCount_of_count? hs
  cases hrank : s.extents with
  | nil => rw [strides, hrank]; rfl
  | cons d ds =>
    have hcount : s.exactCount = s.extents.prod :=
      exactCount_of_rank_pos (by rw [← s.length_extents, hrank]; exact Nat.succ_pos _)
    rw [hcount] at hn hlt
    rw [← hrank, strides, stridesOf_eq]
    refine (List.map_congr_left fun w hw => ?_).trans (List.map_id _)
    exact Count.capped_eq_self (Nat.lt_of_le_of_lt (le_prod_of_mem_weights hn hw) hlt)

theorem foldlM_weigh {ws : List Nat} {sum : Nat} (hsum : sum < Count.limit) :
    (is.zip ws).foldlM
        (fun sum p => (Count.mul? p.1 p.2).bind fun part => Count.add? part sum) sum =
      Count.checked ((List.zipWith (· * ·) is ws).sum + sum) := by
  induction is generalizing ws sum with
  | nil =>
    have hchecked := Count.checked_eq_some_iff.mpr ⟨Nat.zero_add sum, by rwa [Nat.zero_add]⟩
    exact hchecked.symm
  | cons i is ih =>
    cases ws with
    | nil =>
      have hchecked := Count.checked_eq_some_iff.mpr ⟨Nat.zero_add sum, by rwa [Nat.zero_add]⟩
      exact hchecked.symm
    | cons w ws =>
      rw [List.zip_cons_cons, List.foldlM_cons, List.zipWith_cons_cons, List.sum_cons,
        Count.mul?_bind_add?]
      rcases Nat.lt_or_ge (i * w + sum) Count.limit with hlt | hge
      · rw [Count.checked_eq_some_iff.mpr ⟨rfl, hlt⟩]
        refine (ih hlt).trans (congrArg Count.checked ?_)
        omega
      · rw [Count.checked_eq_none_iff.mpr hge, Count.checked_eq_none_iff.mpr (by omega)]
        rfl

/-- The partial results are no larger than the whole one, so it alone decides. -/
theorem weigh?_eq (is ws : List Nat) :
    weigh? is ws = Count.checked (List.zipWith (· * ·) is ws).sum :=
  foldlM_weigh (by decide)

/-- Strides that are cut off are not seen in what is cut off itself. -/
theorem capped_sum_map (is ws : List Nat) :
    Count.capped (List.zipWith (· * ·) is (ws.map Count.capped)).sum =
      Count.capped (List.zipWith (· * ·) is ws).sum := by
  induction is generalizing ws with
  | nil => rfl
  | cons i is ih =>
    cases ws with
    | nil => rfl
    | cons w ws =>
      simp only [List.map_cons, List.zipWith_cons_cons, List.sum_cons]
      rw [← Count.capped_add_capped, Count.capped_mul_capped, ih, Count.capped_add_capped]

/-- What the strides weigh indices at, if it is cut off as well, is the exact offset cut off. -/
theorem capped_weigh (s : Shape) (is : List Nat) :
    Count.capped (List.zipWith (· * ·) is s.strides).sum = Count.capped (s.exactOffset is) := by
  rw [strides, stridesOf_eq, capped_sum_map]
  rfl

/-! ### Offsets as numbers of the elements -/

@[simp] theorem place_cons_cons (d i : Nat) (ds is : List Nat) :
    place (d :: ds) (i :: is) = i * ds.prod + place ds is := rfl

theorem place_lt (h : List.Forall₂ (· < ·) is ds) : place ds is < ds.prod := by
  induction h with
  | nil => decide
  | @cons i d is ds hi _ ih =>
    have hrow : (i + 1) * ds.prod ≤ d * ds.prod := Nat.mul_le_mul_right _ hi
    rw [Nat.succ_mul] at hrow
    rw [place_cons_cons, List.prod_cons]
    omega

/-- A list that comes first has the smaller offset. -/
theorem place_lt_place (hi : List.Forall₂ (· < ·) is ds) (hj : List.Forall₂ (· < ·) js ds)
    (hlex : List.Lex (· < ·) is js) : place ds is < place ds js := by
  induction hi generalizing js with
  | nil =>
    cases hj
    cases hlex
  | @cons i d is ds _ his ih =>
    cases hj with
    | @cons j _ js _ _ hjs =>
      rw [place_cons_cons, place_cons_cons]
      cases hlex with
      | cons hlex => exact Nat.add_lt_add_left (ih hjs hlex) _
      | rel hij =>
        have hrow : (i + 1) * ds.prod ≤ j * ds.prod := Nat.mul_le_mul_right _ hij
        rw [Nat.succ_mul] at hrow
        have hlt := place_lt his
        omega

theorem place_lt_place_iff (hi : List.Forall₂ (· < ·) is ds) (hj : List.Forall₂ (· < ·) js ds) :
    place ds is < place ds js ↔ List.Lex (· < ·) is js := by
  constructor
  · intro hlt
    rcases trichotomous_of (List.Lex (· < ·)) is js with hlex | rfl | hlex
    · exact hlex
    · exact absurd hlt (Nat.lt_irrefl _)
    · exact absurd hlt (Nat.lt_asymm (place_lt_place hj hi hlex))
  · exact place_lt_place hi hj

theorem place_injOn (hi : List.Forall₂ (· < ·) is ds) (hj : List.Forall₂ (· < ·) js ds)
    (heq : place ds is = place ds js) : is = js := by
  rcases trichotomous_of (List.Lex (· < ·)) is js with hlex | hsame | hlex
  · exact absurd heq (Nat.ne_of_lt (place_lt_place hi hj hlex))
  · exact hsame
  · exact absurd heq.symm (Nat.ne_of_lt (place_lt_place hj hi hlex))

/-- Every number below the product is the offset of some list: its first index is found by
division, the others from the remainder. -/
theorem exists_place_eq (hn : n < ds.prod) :
    ∃ is, List.Forall₂ (· < ·) is ds ∧ place ds is = n := by
  induction ds generalizing n with
  | nil =>
    have hzero : n = 0 := Nat.lt_one_iff.mp hn
    exact ⟨[], .nil, hzero.symm⟩
  | cons d ds ih =>
    rw [List.prod_cons] at hn
    have hpos : 0 < ds.prod := Nat.pos_of_mul_pos_left (Nat.zero_lt_of_lt hn)
    obtain ⟨is, his, hplace⟩ := ih (Nat.mod_lt n hpos)
    have hfirst : n / ds.prod < d := (Nat.div_lt_iff_lt_mul hpos).mpr hn
    refine ⟨n / ds.prod :: is, .cons hfirst his, ?_⟩
    rw [place_cons_cons, hplace, Nat.mul_comm]
    exact Nat.div_add_mod n ds.prod

/-- The lists that name an element and the numbers of the elements correspond to each other. -/
theorem bijOn_place (ds : List Nat) :
    Set.BijOn (place ds) {is | List.Forall₂ (· < ·) is ds} (Set.Iio ds.prod) :=
  ⟨fun _ hi => place_lt hi, fun _ hi _ hj => place_injOn hi hj, fun _ hn => exists_place_eq hn⟩

end Shape

end NdBuffer
