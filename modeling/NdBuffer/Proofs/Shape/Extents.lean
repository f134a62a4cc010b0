import Mathlib.Data.List.Forall2
import NdBuffer.Shape.Index

/-!
# Smaller extents

A product of extents is counted from the left, and the count fails as soon as a leading part is too
large, even if a zero follows. So it is not the product that decides. But every leading part gets
smaller with the extents, and a shape that can be counted stays so when one of its extents is made
smaller (`Shape.exists_count?_setExtent`).
-/

namespace NdBuffer.Shape

variable {s : Shape} {axis n : Nat}

theorem exists_foldlM_mul?_le {xs ys : List Nat} (hxy : List.Forall₂ (· ≤ ·) xs ys) {a b : Nat}
    (hab : a ≤ b) (hy : ys.foldlM Count.mul? b = some n) :
    ∃ m ≤ n, xs.foldlM Count.mul? a = some m := by
  induction hxy generalizing a b with
  | nil =>
    cases hy
    exact ⟨a, hab, rfl⟩
  | @cons x y xs ys hxy _ ih =>
    rw [List.foldlM_cons] at hy
    obtain ⟨p, hp, hy⟩ := Option.bind_eq_some_iff.mp hy
    obtain ⟨rfl, hlt⟩ := Count.checked_eq_some_iff.mp hp
    have hle : a * x ≤ b * y := Nat.mul_le_mul hab hxy
    have hchecked : Count.mul? a x = some (a * x) :=
      Count.checked_eq_some_iff.mpr ⟨rfl, Nat.lt_of_le_of_lt hle hlt⟩
    obtain ⟨m, hm, hx⟩ := ih hle hy
    refine ⟨m, hm, ?_⟩
    rw [List.foldlM_cons, hchecked]
    exact hx

theorem forall₂_set_le {xs : List Nat} {x v : Nat} (hx : xs[axis]? = some x) (hv : v ≤ x) :
    List.Forall₂ (· ≤ ·) (xs.set axis v) xs := by
  induction xs generalizing axis with
  | nil => cases hx
  | cons y ys ih =>
    cases axis with
    | zero =>
      cases hx
      exact .cons hv (List.forall₂_same.mpr fun _ _ => Nat.le_refl _)
    | succ axis => exact .cons (Nat.le_refl y) (ih hx)

theorem setExtent_eq_ok {size : UInt64} {s' : Shape} :
    s.setExtent axis size = .ok s' ↔ axis < s.rank ∧ s' = ⟨s.dims.set axis size⟩ := by
  rw [setExtent]
  split <;> simp [*, eq_comm]

theorem extentAt_eq_ok {d : Nat} : s.extentAt axis = .ok d ↔ s.extents[axis]? = some d := by
  rw [extentAt]
  split <;> simp [*]

theorem lt_rank_of_getElem? {d : Nat} (hd : s.extents[axis]? = some d) : axis < s.rank := by
  simpa using (List.getElem?_eq_some_iff.mp hd).1

theorem eq_of_extents {s' : Shape} (h : s.extents = s'.extents) : s = s' := by
  cases s
  cases s'
  exact congrArg Shape.mk (List.map_injective_iff.mpr (fun _ _ => UInt64.toNat_inj.mp) h)

theorem extents_set (s : Shape) (axis : Nat) (extent : UInt64) :
    extents ⟨s.dims.set axis extent⟩ = s.extents.set axis extent.toNat := by
  rw [extents, List.map_set]
  rfl

/-- Every extent is a count. -/
theorem lt_limit_of_mem_extents {d : Nat} (hd : d ∈ s.extents) : d < Count.limit := by
  obtain ⟨word, -, rfl⟩ := List.mem_map.mp hd
  exact word.toNat_lt

/-- An extent is the value of a word, so it survives the way back into one. -/
theorem getElem?_dims {d : Nat} (hd : s.extents[axis]? = some d) :
    d < Count.limit ∧ s.dims[axis]? = some (.ofNat d) := by
  rw [extents, List.getElem?_map] at hd
  obtain ⟨w, hw, rfl⟩ := Option.map_eq_some_iff.mp hd
  exact ⟨w.toNat_lt, by rw [hw, UInt64.ofNat_toNat]⟩

/-- A shape that can be counted stays so if one of its extents is made smaller. -/
theorem exists_count?_setExtent {d e : Nat} (hs : s.count? = some n)
    (hd : s.extents[axis]? = some d) (he : e ≤ d) :
    ∃ m ≤ n, count? ⟨s.dims.set axis (.ofNat e)⟩ = some m := by
  have hlt : e < Count.limit := Nat.lt_of_le_of_lt he (getElem?_dims hd).1
  have hne : s.dims ≠ [] := by
    rintro heq
    simp [extents, heq] at hd
  have hextents : extents ⟨s.dims.set axis (.ofNat e)⟩ = s.extents.set axis e := by
    rw [extents_set, UInt64.toNat_ofNat_of_lt' hlt]
  rw [count?, if_neg hne] at hs
  rw [count?, if_neg (by simpa using hne), hextents]
  exact exists_foldlM_mul?_le (forall₂_set_le hd he) (Nat.le_refl 1) hs

end NdBuffer.Shape
