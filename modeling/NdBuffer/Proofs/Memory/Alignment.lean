import Mathlib.Order.Bounds.Basic
import NdBuffer.Alignment

/-!
# Rounding up to an alignment

Clearing the bits of a sum below a power of two rounds it down to a multiple. So `roundUp?` gives
the least multiple of the alignment that is not below a number, and it fails exactly if that
multiple is no count (`roundUp?_eq_checked`).
-/

namespace NdBuffer

variable {n r k : Nat}

theorem sub_and_eq_mul_div (sum k : Nat) :
    sum - (sum &&& ((1 <<< k) - 1)) = (1 <<< k) * (sum / (1 <<< k)) := by
  have h := Nat.div_add_mod sum (1 <<< k)
  rw [Nat.one_shiftLeft] at *
  rw [Nat.and_two_pow_sub_one_eq_mod]
  omega

/-- The least multiple of an alignment that is not below a number. -/
theorem isLeast_mul_div {a : Nat} (ha : 0 < a) (n : Nat) :
    IsLeast {m | a ∣ m ∧ n ≤ m} (a * ((n + (a - 1)) / a)) := by
  refine ⟨⟨Nat.dvd_mul_right .., ?_⟩, ?_⟩
  · have h := Nat.div_add_mod (n + (a - 1)) a
    have hlt := Nat.mod_lt (n + (a - 1)) ha
    omega
  · rintro _ ⟨⟨q, rfl⟩, hq⟩
    refine Nat.mul_le_mul_left a (Nat.lt_succ_iff.mp ((Nat.div_lt_iff_lt_mul ha).mpr ?_))
    rw [Nat.succ_mul, Nat.mul_comm]
    omega

theorem roundUp?_eq (n k : Nat) :
    roundUp? n (1 <<< k) = (Count.checked (n + ((1 <<< k) - 1))).map fun sum =>
      (1 <<< k) * (sum / (1 <<< k)) := by
  simp only [roundUp?, Count.add?, sub_and_eq_mul_div]

/-- What `roundUp?` gives is the least multiple. -/
theorem isLeast_of_roundUp? (h : roundUp? n (1 <<< k) = some r) :
    IsLeast {m | (1 <<< k) ∣ m ∧ n ≤ m} r := by
  rw [roundUp?_eq] at h
  obtain ⟨sum, hsum, rfl⟩ := Option.map_eq_some_iff.mp h
  obtain ⟨rfl, -⟩ := Count.checked_eq_some_iff.mp hsum
  exact isLeast_mul_div (by rw [Nat.one_shiftLeft]; exact Nat.two_pow_pos k) n

/-- Between two multiples of an alignment there is room for the alignment. -/
theorem add_le_of_dvd {a limit : Nat} (hlt : r < limit) (hr : a ∣ r) (hlimit : a ∣ limit) :
    r + a ≤ limit := by
  have hgap := Nat.le_of_dvd (Nat.sub_pos_of_lt hlt) (Nat.dvd_sub hlimit hr)
  omega

/-- Rounding up fails only if the multiple is no count. The alignment divides the limit, so the sum
that is cleared is a count whenever the multiple is. -/
theorem roundUp?_eq_checked (hk : k ≤ 64) (hr : IsLeast {m | (1 <<< k) ∣ m ∧ n ≤ m} r) :
    roundUp? n (1 <<< k) = Count.checked r := by
  have hpos : 0 < 1 <<< k := by rw [Nat.one_shiftLeft]; exact Nat.two_pow_pos k
  have hdvd : (1 <<< k) ∣ Count.limit := by
    rw [Count.limit, Nat.one_shiftLeft, Nat.one_shiftLeft]
    exact Nat.pow_dvd_pow 2 hk
  obtain rfl := hr.unique (isLeast_mul_div hpos n)
  obtain ⟨⟨hmultiple, hle⟩, -⟩ := hr
  have hsum := Nat.mul_div_le (n + ((1 <<< k) - 1)) (1 <<< k)
  rw [roundUp?_eq]
  by_cases hlt : (1 <<< k) * ((n + ((1 <<< k) - 1)) / (1 <<< k)) < Count.limit
  · have hroom := add_le_of_dvd hlt hmultiple hdvd
    rw [Count.checked_eq_some_iff.mpr ⟨rfl, by omega⟩, Count.checked_eq_some_iff.mpr ⟨rfl, hlt⟩]
    rfl
  · rw [Count.checked_eq_none_iff.mpr (by omega), Count.checked_eq_none_iff.mpr (by omega)]
    rfl

theorem isLeast_of_roundUp?_standard (h : roundUp? n standardAlignment = some r) :
    IsLeast {m | standardAlignment ∣ m ∧ n ≤ m} r :=
  isLeast_of_roundUp? (k := 6) h

end NdBuffer
