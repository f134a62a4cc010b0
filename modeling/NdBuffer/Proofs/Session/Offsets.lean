import NdBuffer.Proofs.Session.Reachable
import NdBuffer.Proofs.Shape.Counting
import NdBuffer.Proofs.Shape.Offsets

/-!
# Indices and offsets

Indices into a buffer are weighed with the strides that it has stored, and what comes out is
compared with its number of elements. However the buffer has come about, the answer is as if there
were no limits on the way (`Buffer.Valid.offset_eq`), and the lists with one index for every axis
are the names of its elements.
-/

namespace NdBuffer

namespace Buffer

variable {b : Buffer} {is js : List Nat}

theorem offset_of_rank_lt (h : b.rank < is.length) :
    b.offset is = .error (.invalidAxis (is.length - 1) b.rank) := if_pos h

/-- What the strides weigh the indices at is compared with the number of elements. It may have been
cut off, but not if it is below that number. -/
theorem Valid.offset_eq (H : b.Valid) (h : is.length ≤ b.rank) :
    b.offset is =
      if b.shape.exactOffset is < b.size then .ok (b.shape.exactOffset is)
      else .error (.outOfBounds (Count.capped (b.shape.exactOffset is)) b.size) := by
  have hsize : b.size < Count.limit := (Shape.eq_exactCount_of_count? H.count).2
  have hcapped := b.shape.capped_weigh is
  rw [offset, if_neg (Nat.not_lt.mpr h), H.strides, Shape.weigh?_eq]
  generalize (List.zipWith (· * ·) is b.shape.strides).sum = weighed at hcapped
  generalize b.shape.exactOffset is = exact at hcapped
  have hlimit : Count.top + 1 = Count.limit := rfl
  rcases Nat.lt_or_ge weighed Count.limit with hlt | hge
  · rw [Count.checked_eq_some_iff.mpr ⟨rfl, hlt⟩, ← hcapped, Count.capped_eq_self hlt]
    rw [Count.capped_eq_self hlt, Count.capped] at hcapped
    simp only []
    rcases Nat.lt_or_ge weighed b.size with hin | hout
    · have hsame : exact = weighed := by omega
      rw [if_pos hin, hsame, if_pos hin]
    · rw [if_neg (by omega), if_neg (by omega)]
  · have htop : Count.capped exact = Count.top := by
      rw [← hcapped]
      exact Nat.min_eq_right (by omega)
    rw [Count.checked_eq_none_iff.mpr hge, htop, if_neg]
    rw [Count.capped] at htop
    omega

theorem Valid.offset_eq_ok (H : b.Valid) {o : Nat} :
    b.offset is = .ok o ↔ is.length ≤ b.rank ∧ o = b.shape.exactOffset is ∧ o < b.size := by
  rcases Nat.lt_or_ge b.rank is.length with hlong | hfits
  · rw [offset_of_rank_lt hlong]
    constructor
    · intro h
      cases h
    · rintro ⟨hle, -⟩
      omega
  · rw [H.offset_eq hfits]
    split
    · rename_i hin
      constructor
      · intro h
        cases h
        exact ⟨hfits, rfl, hin⟩
      · rintro ⟨-, rfl, -⟩
        rfl
    · rename_i hout
      constructor
      · intro h
        cases h
      · rintro ⟨-, rfl, hin⟩
        exact absurd hin hout

theorem Valid.size_eq_prod (H : b.Valid) (h : 0 < b.rank) : b.size = b.extents.prod :=
  (Shape.eq_exactCount_of_count? H.count).1.trans (Shape.exactCount_of_rank_pos h)

/-- A list that names an element has an offset, unless there is no axis and so no element. -/
theorem Valid.offset_of_names (H : b.Valid) (h : 0 < b.rank) (his : b.shape.Names is) :
    b.offset is = .ok (b.shape.exactOffset is) := by
  have hlength : is.length = b.shape.extents.length := his.length_eq
  refine H.offset_eq_ok.mpr ⟨?_, rfl, ?_⟩
  · rw [hlength, Shape.length_extents]
    rfl
  · rw [H.size_eq_prod h]
    exact Shape.place_lt his

end Buffer

namespace Session

/-- Indices into a buffer. There is an offset exactly if there are not too many indices and the sum
of each of them times the product of the extents after its axis, which is computed without limits,
is below the number of elements; and then it is this sum. If the buffer has an axis, a list with an
index below the extent for every axis always has one, and so these lists correspond to the numbers
of the elements, the lexicographic order of the lists to the order of the numbers. -/
theorem offset_run (system : Allocator) (arrays : List ((t : ElemType) × List (Elem t)))
    (cs : List Command) {k : Nat}
    {b : Buffer} (hb : ((Session.start system arrays).run cs).buffer? k = some b) :
    (∀ is o, b.offset is = .ok o ↔
        is.length ≤ b.rank ∧ o = b.shape.exactOffset is ∧ o < b.size) ∧
      (∀ is, b.rank < is.length →
        b.offset is = .error (.invalidAxis (is.length - 1) b.rank)) ∧
      (∀ is, is.length ≤ b.rank → b.size ≤ b.shape.exactOffset is →
        b.offset is =
          .error (.outOfBounds (Count.capped (b.shape.exactOffset is)) b.size)) ∧
      (0 < b.rank →
        (∀ is, b.shape.Names is → b.offset is = .ok (b.shape.exactOffset is)) ∧
        Set.BijOn b.shape.exactOffset {is | b.shape.Names is} (Set.Iio b.size) ∧
        ∀ is js, b.shape.Names is → b.shape.Names js →
          (b.shape.exactOffset is < b.shape.exactOffset js ↔ List.Lex (· < ·) is js)) := by
  have hv : b.Valid := valid_of_buffer? (sound_run system arrays cs) hb
  refine ⟨fun is o => hv.offset_eq_ok, fun is => Buffer.offset_of_rank_lt, ?_, ?_⟩
  · intro is hfits hout
    rw [hv.offset_eq hfits, if_neg (Nat.not_lt.mpr hout)]
  · intro hrank
    refine ⟨fun is => hv.offset_of_names hrank, ?_, fun is js => Shape.place_lt_place_iff⟩
    rw [hv.size_eq_prod hrank]
    exact Shape.bijOn_place b.extents

/-- In a buffer of two rows of three elements the last element has the offset five, and the list
that begins a third row has none. -/
theorem offset_run_matrix :
    let s := (Session.start (.below 4096) []).run [.build 0 (.ofShape ⟨[2, 3]⟩ .f32 .cpu)]
    ∃ b, s.buffer? 0 = some b ∧
      b.offset [1, 2] = .ok 5 ∧ b.offset [2, 0] = .error (.outOfBounds 6 6) ∧
      b.offset [0, 0, 0] = .error (.invalidAxis 2 2) := by
  obtain ⟨hok, hlong, hout, -⟩ := offset_run (.below 4096) []
    [.build 0 (.ofShape ⟨[2, 3]⟩ .f32 .cpu)] (k := 0) rfl
  exact ⟨_, rfl, (hok [1, 2] 5).mpr (by decide), hout [2, 0] (by decide) (by decide),
    hlong [0, 0, 0] (by decide)⟩

/-- A buffer without axes has no elements. The empty list has an index for each of its axes, but it
is not the name of an element. -/
theorem empty_list_without_axes :
    ∃ b, ((Session.start (.below 4096) []).run [.build 0 (.empty .u8 .cpu)]).buffer? 0 = some b ∧
      b.rank = 0 ∧ b.shape.Names [] ∧ b.offset [] = .error (.outOfBounds 0 0) :=
  ⟨_, rfl, rfl, .nil, rfl⟩

end Session

end NdBuffer
