import NdBuffer.Proofs.Shape.Offsets

/-!
# Strides of any shape

Strides are found from the last axis backwards, and each product is cut off as it is formed. This
comes to the same as cutting off the exact product of all extents after an axis
(`Shape.getElem?_strides`), also if an extent of zero follows after something has been cut off. If a
shape has elements and they can be counted, then nothing is cut off (`Shape.tight_of_pos`): the last
stride is one, and from each axis to the one before it the stride grows by the factor of the extent.
-/

namespace NdBuffer.Shape

variable {s : Shape} {ds : List Nat} {i d n : Nat}

theorem getElem?_weights (hi : i < ds.length) :
    (weights ds)[i]? = some (ds.drop (i + 1)).prod := by
  induction ds generalizing i with
  | nil => cases hi
  | cons d ds ih =>
    cases i with
    | zero => rfl
    | succ i => exact ih (Nat.lt_of_succ_lt_succ hi)

/-- The extents from an axis on are those after it and its own. -/
theorem prod_drop (hd : ds[i]? = some d) : (ds.drop i).prod = (ds.drop (i + 1)).prod * d := by
  obtain ⟨hi, rfl⟩ := List.getElem?_eq_some_iff.mp hd
  rw [List.drop_eq_getElem_cons hi, List.prod_cons, Nat.mul_comm]

theorem getElem?_strides (hi : i < s.rank) :
    s.strides[i]? = some (Count.capped (s.extents.drop (i + 1)).prod) := by
  rw [strides, stridesOf_eq, List.getElem?_map, getElem?_weights (by rwa [length_extents])]
  rfl

/-- How the strides of a shape with `n` elements fit together: every stride is the number of
elements in one step along its axis, as a count and not cut off. -/
structure Tight (s : Shape) (n : Nat) : Prop where
  exact : ∀ {i}, i < s.rank → (s.extents.drop (i + 1)).prod < Count.limit ∧
    s.strides[i]? = some (s.extents.drop (i + 1)).prod
  /-- The stride of an axis, as often as the axis has an index, is the stride of the axis before. -/
  step : ∀ {i d}, s.extents[i + 1]? = some d →
    ∃ w, s.strides[i + 1]? = some w ∧ s.strides[i]? = some (w * d)
  /-- And so it is the number of elements for the first axis. -/
  first : ∃ w d, s.strides[0]? = some w ∧ s.extents[0]? = some d ∧ w * d = n

theorem rank_pos_of_count? (hs : s.count? = some n) (hn : 0 < n) : 0 < s.rank := by
  obtain ⟨rfl, -⟩ := eq_exactCount_of_count? hs
  refine List.length_pos_iff.mpr fun hempty => ?_
  rw [exactCount, if_pos hempty] at hn
  exact Nat.lt_irrefl 0 hn

/-- If there are elements and they can be counted, nothing is cut off. -/
theorem tight_of_pos (hs : s.count? = some n) (hn : 0 < n) : s.Tight n := by
  have hrank : 0 < s.rank := rank_pos_of_count? hs hn
  obtain ⟨hcount, hlimit⟩ := eq_exactCount_of_count? hs
  rw [exactCount_of_rank_pos hrank] at hcount
  have hstrides {i : Nat} (hi : i < s.extents.length) :
      s.strides[i]? = some (s.extents.drop (i + 1)).prod := by
    rw [strides_of_pos hs hn, getElem?_weights hi]
  refine ⟨fun {i} hi => ?_, fun {i d} hd => ?_, ?_⟩
  · -- The extents after an axis have no larger product than all of them, which is a count.
    rw [← length_extents] at hi
    have hmem := List.mem_of_getElem? (getElem?_weights hi)
    have hle := le_prod_of_mem_weights (hcount ▸ hn) hmem
    exact ⟨Nat.lt_of_le_of_lt (hcount ▸ hle) hlimit, hstrides hi⟩
  · have hi := (List.getElem?_eq_some_iff.mp hd).1
    refine ⟨_, hstrides hi, ?_⟩
    rw [hstrides (Nat.lt_of_succ_lt hi), prod_drop hd]
  · rw [← length_extents] at hrank
    have hd := List.getElem?_eq_getElem hrank
    refine ⟨_, _, hstrides hrank, hd, ?_⟩
    rw [hcount, ← prod_drop hd, List.drop_zero]

/-- The strides of a shape, whether or not it can be counted. There is one for every axis, and it is
the product of the extents after the axis, or the largest count if the product is larger. If the
shape has elements and they can be counted, every stride is the product itself. -/
theorem striding (s : Shape) :
    s.strides.length = s.rank ∧
      (∀ i, i < s.rank → s.strides[i]? = some (min (s.extents.drop (i + 1)).prod Count.top)) ∧
      ∀ n, s.checkedCount = .ok n → 0 < n → s.Tight n :=
  ⟨s.length_strides, fun _ => getElem?_strides, fun _ hs => tight_of_pos (checkedCount_eq_ok.mp hs)⟩

/-- A stride that has been cut off does not stay so if a zero follows. -/
example : strides ⟨[5, 0, 0xffffffffffffffff, 2, 3]⟩ = [0, Count.top, 6, 3, 1] := by decide

end NdBuffer.Shape
