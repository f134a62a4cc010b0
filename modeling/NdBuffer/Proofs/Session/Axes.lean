import NdBuffer.Proofs.Session.Reachable
import NdBuffer.Proofs.Shape.Strides

/-!
# Axes of buffers

An axis is counted from the first one or, if it is negative, from behind the last one. Its extent is
looked up in the shape of a buffer, but its stride in a list that the buffer keeps beside the shape.
However the buffer has come about, that list has an entry for every axis
(`Buffer.Valid.strideAt_eq`), so that both are answered for the same axes.
-/

namespace NdBuffer

namespace Shape

variable {s : Shape} {axis : Int}

/-- The position of an axis, whether or not there is an axis at it. -/
def axisPlace (axis : Int) (rank : Nat) : Int := if axis < 0 then axis + rank else axis

/-- The position of an axis as it is found in signed words of 64 bits. -/
def axisWord (axis : Int64) (rank : Nat) : Int64 := if axis < 0 then axis + .ofNat rank else axis

theorem position_eq_ok (hge : -(s.rank : Int) ≤ axis) (hlt : axis < s.rank) :
    ∃ i : Fin s.rank, (i : Int) = axisPlace axis s.rank ∧ s.position axis = .ok i := by
  have hplace : 0 ≤ axisPlace axis s.rank ∧ axisPlace axis s.rank < s.rank := by
    unfold axisPlace
    split <;> omega
  exact ⟨⟨(axisPlace axis s.rank).toNat, by omega⟩, Int.toNat_of_nonneg hplace.1, dif_pos hplace⟩

theorem position_eq_error (h : ¬ (-(s.rank : Int) ≤ axis ∧ axis < s.rank)) :
    s.position axis = .error (.invalidAxis axis s.rank) := by
  refine dif_neg ?_
  split <;> omega

/-- An axis has the same position if it is counted from behind the last one instead. -/
theorem position_sub_rank (hge : 0 ≤ axis) (hlt : axis < s.rank) :
    s.position (axis - s.rank) = s.position axis := by
  obtain ⟨i, hi, hfirst⟩ : ∃ i : Fin s.rank, (i : Int) = axisPlace axis s.rank ∧
      s.position axis = .ok i := position_eq_ok (by omega) hlt
  obtain ⟨j, hj, hlast⟩ : ∃ j : Fin s.rank, (j : Int) = axisPlace (axis - s.rank) s.rank ∧
      s.position (axis - s.rank) = .ok j := position_eq_ok (by omega) (by omega)
  rw [axisPlace, if_neg (by omega)] at hi
  rw [axisPlace, if_pos (by omega)] at hj
  obtain rfl : j = i := by omega
  rw [hlast, hfirst]

/-- Words give the position as it is: the sum of a positive word and a negative one does not leave
the range of words. -/
theorem toInt_axisWord {rank : Nat} (h : rank < 2 ^ 63) (axis : Int64) :
    (axisWord axis rank).toInt = axisPlace axis.toInt rank := by
  have hsign : axis < 0 ↔ axis.toInt < 0 := Int64.lt_iff_toInt_lt
  have hlow := axis.le_toInt
  unfold axisWord axisPlace
  by_cases hneg : axis < 0
  · -- The sum is below the rank, and not below the axis.
    have hneg' := hsign.mp hneg
    rw [if_pos hneg, if_pos hneg', Int64.toInt_add, Int64.toInt_ofNat_of_lt h]
    exact Int.bmod_eq_of_le (by omega) (by omega)
  · rw [if_neg hneg, if_neg (mt hsign.mpr hneg)]

end Shape

namespace Buffer

variable {b : Buffer}

/-- The strides that the buffer has stored are as many as its axes, so there is always one to be
found. -/
theorem Valid.strideAt_eq (H : b.Valid) (axis : Int) :
    b.strideAt axis = some ((b.shape.position axis).map fun i =>
      Count.capped (b.extents.drop (i + 1)).prod) := by
  rw [strideAt, H.strides]
  cases b.shape.position axis with
  | error e => rfl
  | ok i =>
    simp only [Shape.getElem?_strides i.isLt]
    rfl

end Buffer

namespace Session

variable {s : Session} {k : Nat} {b : Buffer}

theorem step_extent (hb : s.buffer? k = some b) (axis : Int) :
    s.step (.query k (.extent axis)) = (s, .answered ((b.shape.extent axis).map .number)) := by
  rw [step_query hb]
  rfl

theorem step_stride (H : s.Sound) (hb : s.buffer? k = some b) (axis : Int) :
    s.step (.query k (.stride axis)) = (s, .answered
      (((b.shape.position axis).map fun i =>
        Count.capped (b.extents.drop (i + 1)).prod).map .number)) := by
  rw [step_query hb]
  simp only [queryBuffer, (valid_of_buffer? H hb).strideAt_eq axis]
  rfl

/-- The axes of a buffer. Extent and stride are answered for the same axes, from minus the rank up
to below the rank, and they are the extent and the stored stride at one position, which is the axis
itself or, if this is negative, its sum with the rank. For any other axis both fail, with the axis
that was asked for, and nothing else can happen. The position can be found in words, down to the
least of them, because the rank, as the length of a list in memory, is a positive word. -/
theorem axes_run (system : Allocator) (arrays : List ((t : ElemType) × List (Elem t)))
    (cs : List Command) {k : Nat}
    {b : Buffer} (hb : ((Session.start system arrays).run cs).buffer? k = some b) :
    let s := (Session.start system arrays).run cs
    (∀ axis : Int, -(b.rank : Int) ≤ axis → axis < b.rank → ∃ r d w : Nat,
        (r : Int) = Shape.axisPlace axis b.rank ∧ b.extents[r]? = some d ∧ b.strides[r]? = some w ∧
        w = Count.capped (b.extents.drop (r + 1)).prod ∧
        s.step (.query k (.extent axis)) = (s, .answered (.ok (.number d))) ∧
        s.step (.query k (.stride axis)) = (s, .answered (.ok (.number w)))) ∧
      (∀ axis : Int, ¬ (-(b.rank : Int) ≤ axis ∧ axis < b.rank) →
        s.step (.query k (.extent axis)) = (s, .answered (.error (.invalidAxis axis b.rank))) ∧
        s.step (.query k (.stride axis)) = (s, .answered (.error (.invalidAxis axis b.rank)))) ∧
      (∀ axis : Int, 0 ≤ axis → axis < b.rank →
        s.step (.query k (.extent (axis - b.rank))) = s.step (.query k (.extent axis)) ∧
        s.step (.query k (.stride (axis - b.rank))) = s.step (.query k (.stride axis))) ∧
      (b.rank < 2 ^ 63 → ∀ axis : Int64,
        (Shape.axisWord axis b.rank).toInt = Shape.axisPlace axis.toInt b.rank) := by
  intro s
  have H : s.Sound := sound_run system arrays cs
  have hb : s.buffer? k = some b := hb
  have hv : b.Valid := valid_of_buffer? H hb
  refine ⟨fun axis hge hlt => ?_, fun axis hout => ?_, fun axis hge hlt => ?_,
    Shape.toInt_axisWord⟩
  · obtain ⟨i, hi, hpos⟩ := Shape.position_eq_ok hge hlt
    have hd := List.getElem?_eq_getElem (i.cast b.shape.length_extents.symm).isLt
    refine ⟨i, _, _, hi, hd, ?_, rfl, ?_, ?_⟩
    · rw [hv.strides]
      exact Shape.getElem?_strides i.isLt
    · rw [step_extent hb, Shape.extent, hpos]
      rfl
    · rw [step_stride H hb, hpos]
      rfl
  · have herror := Shape.position_eq_error hout
    rw [step_extent hb, step_stride H hb, Shape.extent, herror]
    exact ⟨rfl, rfl⟩
  · have hsame := Shape.position_sub_rank hge hlt
    simp only [step_extent hb, step_stride H hb, Shape.extent, Buffer.rank, hsame, and_self]

/-- Two rows of three elements, after a growth that has failed. The first of the two axes is also
the last but one, and there is no axis as far behind the last one as a word can say. -/
theorem axes_run_matrix :
    let s := (Session.start (.below 4096) []).run [.build 0 (.ofShape ⟨[2, 3]⟩ .f32 .cpu),
      .change 0 (.grow 0 0xffffffffffffffff)]
    s.step (.query 0 (.extent (-2))) = (s, .answered (.ok (.number 2))) ∧
      s.step (.query 0 (.stride (-2))) = s.step (.query 0 (.stride 0)) ∧
      s.step (.query 0 (.stride (-9223372036854775808))) =
        (s, .answered (.error (.invalidAxis (-9223372036854775808) 2))) ∧
      (Shape.axisWord Int64.minValue 2).toInt = -9223372036854775806 := by
  intro s
  obtain ⟨hin, hout, hsame, hword⟩ := axes_run (.below 4096) []
    [.build 0 (.ofShape ⟨[2, 3]⟩ .f32 .cpu), .change 0 (.grow 0 0xffffffffffffffff)] (k := 0) rfl
  obtain ⟨r, d, w, hr, hd, -, -, hextent, -⟩ := hin (-2) (by decide) (by decide)
  obtain rfl : r = 0 := Int.ofNat.inj hr
  obtain rfl : 2 = d := Option.some.inj hd
  exact ⟨hextent, (hsame 0 (by decide) (by decide)).2, (hout _ (by decide)).2,
    hword (by decide) Int64.minValue⟩

end Session

end NdBuffer
