import Mathlib.Algebra.Order.Archimedean.Real.Basic
import Mathlib.Algebra.Order.Floor.Semifield
import Mathlib.Tactic.FieldSimp
import Mathlib.Tactic.Linarith
import Mathlib.Tactic.Positivity
import NdBuffer.Binary.Rounding
import NdBuffer.Proofs.Binary.Magnitudes

/-!
# Rounding to the nearest number

Rounding gives the nearest number of a format, and the one with the even last bit if two are equally
near (`Format.isNearest_round`). Infinity takes part as the first power of two that is too large, so
what lies at or above the middle between it and the greatest number is rounded to it. The bits of
consecutive numbers are consecutive, so a number has to be compared with its two neighbours only
(`Between`).
-/

namespace NdBuffer.Binary

/-- Whether a number of the format, given by its bits, is what another number is rounded to. -/
structure Format.IsNearest (f : Format) (x : ℝ) (bits : Nat) : Prop where
  le : bits ≤ f.infinity
  near : ∀ other ≤ f.infinity, |x - f.magnitude bits| ≤ |x - f.magnitude other|
  even : ∀ other ≤ f.infinity, other ≠ bits →
    |x - f.magnitude bits| = |x - f.magnitude other| → bits % 2 = 0

/-! ### Neighbours -/

/-- Whether a number is not beyond the middles between a member of an ascending sequence and its
neighbours. On a middle the member has to be an even one. -/
structure Between (g : Nat → ℝ) (k : Nat) (x : ℝ) : Prop where
  up : 2 * x ≤ g k + g (k + 1)
  down : ∀ j, j + 1 = k → g j + g k ≤ 2 * x
  even : 2 * x = g k + g (k + 1) ∨ (∃ j, j + 1 = k ∧ g j + g k = 2 * x) → k % 2 = 0

variable {g : Nat → ℝ} {x : ℝ} {k j : Nat}

theorem Between.near (H : Between g k x) (hg : StrictMono g) (j : Nat) :
    |x - g k| ≤ |x - g j| := by
  rcases Nat.lt_trichotomy j k with hlt | rfl | hgt
  · obtain ⟨i, rfl⟩ := Nat.exists_eq_add_one_of_ne_zero (Nat.ne_zero_of_lt hlt)
    have hdown := H.down i rfl
    have hji : g j ≤ g i := hg.monotone (Nat.le_of_lt_succ hlt)
    have hik : g i < g (i + 1) := hg (Nat.lt_succ_self i)
    rw [abs_of_nonneg (show (0 : ℝ) ≤ x - g j by linarith)]
    exact abs_le.mpr ⟨by linarith, by linarith⟩
  · rfl
  · have hup := H.up
    have hkj : g (k + 1) ≤ g j := hg.monotone hgt
    have hk : g k < g (k + 1) := hg (Nat.lt_succ_self k)
    rw [abs_of_nonpos (show x - g j ≤ 0 by linarith)]
    exact abs_le.mpr ⟨by linarith, by linarith⟩

theorem Between.even_of_eq (H : Between g k x) (hg : StrictMono g) (hne : j ≠ k)
    (heq : |x - g k| = |x - g j|) : k % 2 = 0 := by
  refine H.even ?_
  rcases Nat.lt_or_gt_of_ne hne with hlt | hgt
  · obtain ⟨i, rfl⟩ := Nat.exists_eq_add_one_of_ne_zero (Nat.ne_zero_of_lt hlt)
    have hdown := H.down i rfl
    have hji : g j ≤ g i := hg.monotone (Nat.le_of_lt_succ hlt)
    have hik : g i < g (i + 1) := hg (Nat.lt_succ_self i)
    refine .inr ⟨i, rfl, ?_⟩
    rw [abs_of_nonneg (show (0 : ℝ) ≤ x - g j by linarith)] at heq
    rcases abs_cases (x - g (i + 1)) with ⟨habs, -⟩ | ⟨habs, -⟩ <;> linarith
  · have hup := H.up
    have hkj : g (k + 1) ≤ g j := hg.monotone hgt
    have hk : g k < g (k + 1) := hg (Nat.lt_succ_self k)
    refine .inl ?_
    rw [abs_of_nonpos (show x - g j ≤ 0 by linarith)] at heq
    rcases abs_cases (x - g k) with ⟨habs, -⟩ | ⟨habs, -⟩ <;> linarith

namespace Format

variable {f : Format} {bits : Nat}

/-- What is rounded to a number that is too large for the format is rounded to infinity. -/
theorem isNearest_min (H : Between f.magnitude k x) : f.IsNearest x (min k f.infinity) := by
  have hg := f.magnitude_strictMono
  by_cases hle : k ≤ f.infinity
  · rw [Nat.min_eq_left hle]
    exact ⟨hle, fun j _ => H.near hg j, fun j _ hne => H.even_of_eq hg hne⟩
  · have hlt := Nat.not_le.mp hle
    rw [Nat.min_eq_right (Nat.le_of_lt hlt)]
    obtain ⟨i, rfl⟩ := Nat.exists_eq_add_one_of_ne_zero (Nat.ne_zero_of_lt hlt)
    have hdown := H.down i rfl
    have hi : f.magnitude f.infinity ≤ f.magnitude i := hg.monotone (Nat.le_of_lt_succ hlt)
    have hik : f.magnitude i < f.magnitude (i + 1) := hg (Nat.lt_succ_self i)
    refine ⟨Nat.le_refl _, fun j hj => ?_, fun j hj hne heq => ?_⟩
    · have hj' : f.magnitude j ≤ f.magnitude f.infinity := hg.monotone hj
      rw [abs_of_nonneg (by linarith), abs_of_nonneg (by linarith)]
      linarith
    · have hj' : f.magnitude j < f.magnitude f.infinity := hg (Nat.lt_of_le_of_ne hj hne)
      rw [abs_of_nonneg (by linarith), abs_of_nonneg (by linarith)] at heq
      linarith

/-- A number is rounded in one way. -/
theorem IsNearest.unique {i : Nat} (Hi : f.IsNearest x i) (Hj : f.IsNearest x j) : i = j := by
  -- between two even numbers there is an odd one, which would be nearer
  have hnot {i j : Nat} (Hi : f.IsNearest x i) (Hj : f.IsNearest x j) (hlt : i < j) : False := by
    have heq : |x - f.magnitude i| = |x - f.magnitude j| :=
      le_antisymm (Hi.near j Hj.le) (Hj.near i Hi.le)
    have hi := Hi.even j Hj.le (Nat.ne_of_gt hlt) heq
    have hj := Hj.even i Hi.le (Nat.ne_of_lt hlt) heq.symm
    have hmid : i + 1 < j := by omega
    have hnear := Hi.near (i + 1) (Nat.le_trans (Nat.le_of_lt hmid) Hj.le)
    have h₁ : f.magnitude i < f.magnitude (i + 1) := f.magnitude_strictMono (Nat.lt_succ_self i)
    have h₂ : f.magnitude (i + 1) < f.magnitude j := f.magnitude_strictMono hmid
    have hx : 2 * x = f.magnitude i + f.magnitude j := by
      rcases abs_cases (x - f.magnitude i) with ⟨ha, _⟩ | ⟨ha, _⟩ <;>
        rcases abs_cases (x - f.magnitude j) with ⟨hb, _⟩ | ⟨hb, _⟩ <;> linarith
    rw [abs_of_nonneg (show (0 : ℝ) ≤ x - f.magnitude i by linarith)] at hnear
    rcases le_abs.mp hnear with hle | hle <;> linarith
  rcases Nat.lt_trichotomy i j with hlt | heq | hgt
  · exact absurd hlt fun hlt => hnot Hi Hj hlt
  · exact heq
  · exact absurd hgt fun hgt => hnot Hj Hi hgt

end Format

/-! ### Rounding to a whole number -/

/-- Rounding goes down or up, whichever is nearer. On the middle it goes to the even number. -/
theorem shiftRounded_cases (n s : Nat) :
    (shiftRounded n s = n / 2 ^ s ∧ 2 * n ≤ (2 * (n / 2 ^ s) + 1) * 2 ^ s ∧
        (2 * n = (2 * (n / 2 ^ s) + 1) * 2 ^ s → n / 2 ^ s % 2 = 0)) ∨
      shiftRounded n s = n / 2 ^ s + 1 ∧ (2 * (n / 2 ^ s) + 1) * 2 ^ s ≤ 2 * n ∧
        (2 * n = (2 * (n / 2 ^ s) + 1) * 2 ^ s → (n / 2 ^ s + 1) % 2 = 0) := by
  have hrest : n % 2 ^ s < 2 ^ s := Nat.mod_lt _ (Nat.two_pow_pos s)
  have hsum := Nat.div_add_mod n (2 ^ s)
  have hmiddle : (2 * (n / 2 ^ s) + 1) * 2 ^ s = 2 * (2 ^ s * (n / 2 ^ s)) + 2 ^ s := by ring
  rw [shiftRounded, Nat.one_shiftLeft, Nat.shiftRight_eq_div_pow, hmiddle]
  generalize 2 ^ s * (n / 2 ^ s) = product at hsum
  split
  · exact .inr ⟨rfl, by omega, by omega⟩
  · exact .inl ⟨rfl, by omega, by omega⟩

theorem shiftRounded_zero (n : Nat) : shiftRounded n 0 = n := by
  rcases shiftRounded_cases n 0 with ⟨hn, -⟩ | ⟨-, hle, -⟩
  · simpa using hn
  · simp at hle

namespace Format

variable {f : Format} {n s m : Nat} {e : Int}

/-- A number as `n / 2 ^ s` units of the place `k`, of which the whole ones fit in the place. -/
structure Scaled (f : Format) (x : ℝ) (k n s : Nat) : Prop where
  value : x = n / 2 ^ s * f.unit k
  low : k = 0 ∨ f.leadingBit ≤ n / 2 ^ s
  high : n / 2 ^ s < 2 * f.leadingBit

namespace Scaled

variable (H : f.Scaled x k n s)
include H

theorem le_units_iff (units : Nat) : 2 * x ≤ units * f.unit k ↔ 2 * n ≤ units * 2 ^ s := by
  rw [H.value, ← mul_assoc, mul_le_mul_iff_left₀ (f.unit_pos k), ← mul_div_assoc,
    div_le_iff₀ (by positivity)]
  norm_cast

theorem units_le_iff (units : Nat) : units * f.unit k ≤ 2 * x ↔ units * 2 ^ s ≤ 2 * n := by
  rw [H.value, ← mul_assoc, mul_le_mul_iff_left₀ (f.unit_pos k), ← mul_div_assoc,
    le_div_iff₀ (by positivity)]
  norm_cast

/-- The number of the place that is not above the given one. -/
theorem magnitude_floor :
    f.magnitude (k * f.leadingBit + n / 2 ^ s) = (n / 2 ^ s : Nat) * f.unit k := by
  rw [magnitude_eq H.low (Nat.le_of_lt H.high)]

/-- The number after it. -/
theorem magnitude_ceil :
    f.magnitude (k * f.leadingBit + n / 2 ^ s + 1) = (n / 2 ^ s : Nat) * f.unit k + f.unit k := by
  rw [Nat.add_assoc, magnitude_eq (H.low.imp_right Nat.le_succ_of_le) H.high]
  push_cast
  ring

theorem floor_le : (n / 2 ^ s : Nat) * f.unit k ≤ x := by
  have hle := (H.units_le_iff (2 * (n / 2 ^ s))).mpr <| by
    rw [Nat.mul_assoc]
    exact Nat.mul_le_mul_left 2 (Nat.div_mul_le_self n (2 ^ s))
  push_cast at hle
  linarith

theorem lt_ceil : x < (n / 2 ^ s : Nat) * f.unit k + f.unit k := by
  have hlt := (H.units_le_iff (2 * (n / 2 ^ s + 1))).not.mpr <| by
    rw [Nat.mul_assoc, Nat.not_le]
    exact Nat.mul_lt_mul_of_pos_left (Nat.lt_mul_of_div_lt (Nat.lt_succ_self _) (Nat.two_pow_pos s))
      Nat.two_pos
  push_cast at hlt
  linarith

/-- The middle of the two numbers is reached in units if it is reached. -/
theorem eq_of_middle (heq : 2 * x = (2 * (n / 2 ^ s) + 1 : Nat) * f.unit k) :
    2 * n = (2 * (n / 2 ^ s) + 1) * 2 ^ s :=
  Nat.le_antisymm ((H.le_units_iff _).mp heq.le) ((H.units_le_iff _).mp heq.ge)

theorem between_floor (hle : 2 * n ≤ (2 * (n / 2 ^ s) + 1) * 2 ^ s)
    (htie : 2 * n = (2 * (n / 2 ^ s) + 1) * 2 ^ s → (k * f.leadingBit + n / 2 ^ s) % 2 = 0) :
    Between f.magnitude (k * f.leadingBit + n / 2 ^ s) x := by
  have hmiddle := (H.le_units_iff _).mpr hle
  have htied := H.eq_of_middle
  push_cast at hmiddle htied
  have hfloor := H.floor_le
  have hbelow {j : Nat} (hj : j + 1 = k * f.leadingBit + n / 2 ^ s) :
      f.magnitude j < (n / 2 ^ s : Nat) * f.unit k :=
    H.magnitude_floor ▸ f.magnitude_strictMono (hj ▸ Nat.lt_succ_self j)
  refine ⟨?_, fun j hj => ?_, ?_⟩
  · rw [H.magnitude_floor, H.magnitude_ceil]
    linarith
  · rw [H.magnitude_floor]
    linarith [hbelow hj]
  · rintro (heq | ⟨j, hj, heq⟩)
    · rw [H.magnitude_floor, H.magnitude_ceil] at heq
      exact htie (htied (by linarith))
    · rw [H.magnitude_floor] at heq
      linarith [hbelow hj]

theorem between_ceil (hle : (2 * (n / 2 ^ s) + 1) * 2 ^ s ≤ 2 * n)
    (htie : 2 * n = (2 * (n / 2 ^ s) + 1) * 2 ^ s → (k * f.leadingBit + n / 2 ^ s + 1) % 2 = 0) :
    Between f.magnitude (k * f.leadingBit + n / 2 ^ s + 1) x := by
  have hmiddle := (H.units_le_iff _).mpr hle
  have htied := H.eq_of_middle
  push_cast at hmiddle htied
  have hceil := H.lt_ceil
  have habove := f.magnitude_strictMono (Nat.lt_succ_self (k * f.leadingBit + n / 2 ^ s + 1))
  rw [H.magnitude_ceil] at habove
  refine ⟨?_, fun j hj => ?_, ?_⟩
  · rw [H.magnitude_ceil]
    linarith
  · obtain rfl := Nat.succ.inj hj
    rw [H.magnitude_floor, H.magnitude_ceil]
    linarith
  · rintro (heq | ⟨j, hj, heq⟩)
    · rw [H.magnitude_ceil] at heq
      linarith
    · obtain rfl := Nat.succ.inj hj
      rw [H.magnitude_floor, H.magnitude_ceil] at heq
      exact htie (htied (by linarith))

/-- Rounding to a whole number of units gives a number that is nearest. -/
theorem between (hf : 0 < f.fractionBits) :
    Between f.magnitude (k * f.leadingBit + shiftRounded n s) x := by
  have heven : k * f.leadingBit % 2 = 0 := by
    obtain ⟨b, hb⟩ := Nat.exists_eq_add_one_of_ne_zero (Nat.ne_of_gt hf)
    rw [leadingBit_eq, hb, Nat.pow_succ, ← Nat.mul_assoc, Nat.mul_mod_left]
  rcases shiftRounded_cases n s with ⟨hr, hle, htie⟩ | ⟨hr, hle, htie⟩ <;> rw [hr]
  · refine H.between_floor hle fun heq => ?_
    rw [Nat.add_mod, heven, htie heq]
  · refine H.between_ceil hle fun heq => ?_
    rw [Nat.add_assoc, Nat.add_mod, heven, htie heq]

end Scaled

/-- The place in which a number is rounded. Nothing is cut off from a number that fits in a
place. -/
theorem exists_scaled (hm : m ≠ 0) (e : Int) :
    ∃ k n s, f.Scaled (m * 2 ^ e) k n s ∧
      f.round m e = min (k * f.leadingBit + shiftRounded n s) f.infinity ∧
      (f.quantum ≤ e → m < 2 * f.leadingBit → s = 0) := by
  have hlog : 2 ^ m.log2 ≤ m := Nat.log2_self_le hm
  have hlog' : m < 2 ^ (m.log2 + 1) := Nat.lt_log2_self
  obtain ⟨last, hlast⟩ : ∃ last, f.lastPlace m e = last := ⟨_, rfl⟩
  have hmax : last = max (e + m.log2 - f.fractionBits) f.quantum := hlast.symm
  let a := (e - last).toNat
  let s := (last - e).toNat
  let k := (last - f.quantum).toNat
  have hround : f.round m e = min (k * f.leadingBit + shiftRounded (m * 2 ^ a) s) f.infinity := by
    simp only [round, if_neg hm, hlast, Nat.shiftLeft_eq, leadingBit_eq, k, a, s]
  refine ⟨k, m * 2 ^ a, s, ⟨?_, ?_, ?_⟩, hround, fun he hlt => ?_⟩
  · have hexp : e = (a : Int) - s + (k + f.quantum) := by omega
    rw [hexp, zpow_add₀ two_ne_zero, zpow_add₀ two_ne_zero, zpow_sub₀ two_ne_zero]
    push_cast
    rw [zpow_natCast, zpow_natCast, zpow_natCast, unit]
    ring
  · by_cases hk : k = 0
    · exact .inl hk
    · have hsum : f.fractionBits + s = m.log2 + a := by omega
      refine .inr ((Nat.le_div_iff_mul_le (Nat.two_pow_pos s)).mpr ?_)
      rw [leadingBit_eq, ← Nat.pow_add, hsum, Nat.pow_add]
      exact Nat.mul_le_mul_right _ hlog
  · have hsum : m.log2 + 1 + a ≤ f.fractionBits + 1 + s := by omega
    refine Nat.div_lt_of_lt_mul ?_
    calc m * 2 ^ a
      _ < 2 ^ (m.log2 + 1) * 2 ^ a := Nat.mul_lt_mul_of_pos_right hlog' (Nat.two_pow_pos a)
      _ = 2 ^ (m.log2 + 1 + a) := (Nat.pow_add ..).symm
      _ ≤ 2 ^ (f.fractionBits + 1 + s) := Nat.pow_le_pow_right Nat.two_pos hsum
      _ = 2 ^ s * (2 * f.leadingBit) := by
        rw [leadingBit_eq, Nat.pow_add, Nat.pow_succ]
        ring
  · have hfit : m.log2 < f.fractionBits + 1 := by
      rw [Nat.log2_lt hm, Nat.pow_succ, Nat.mul_comm, ← leadingBit_eq]
      exact hlt
    omega

theorem isNearest_magnitude (hj : j ≤ f.infinity) : f.IsNearest (f.magnitude j) j where
  le := hj
  near other _ := by
    rw [sub_self, abs_zero]
    exact abs_nonneg _
  even other _ hne heq := by
    rw [sub_self, abs_zero, eq_comm, abs_eq_zero, sub_eq_zero] at heq
    exact absurd (f.magnitude_strictMono.injective heq).symm hne

theorem round_le (f : Format) (m : Nat) (e : Int) : f.round m e ≤ f.infinity := by
  rw [round]
  split
  · exact Nat.zero_le _
  · exact Nat.min_le_right ..

/-- Rounding gives the nearest number. -/
theorem isNearest_round (hf : 0 < f.fractionBits) (m : Nat) (e : Int) :
    f.IsNearest (m * 2 ^ e) (f.round m e) := by
  by_cases hm : m = 0
  · rw [hm, round, if_pos rfl, Nat.cast_zero, zero_mul, ← f.magnitude_zero]
    exact isNearest_magnitude (Nat.zero_le _)
  · obtain ⟨k, n, s, H, hround, -⟩ := exists_scaled hm e
    rw [hround]
    exact isNearest_min (H.between hf)

/-- A number that fits in a place and is not too large is rounded to itself. -/
theorem magnitude_round (he : f.quantum ≤ e) (hm : m < 2 * f.leadingBit)
    (hlt : (m * 2 ^ e : ℝ) < f.magnitude f.infinity) :
    f.round m e < f.infinity ∧ f.magnitude (f.round m e) = m * 2 ^ e := by
  have hmono := f.magnitude_strictMono
  by_cases hzero : m = 0
  · rw [hzero, round, if_pos rfl, Nat.cast_zero, zero_mul]
    rw [hzero, Nat.cast_zero, zero_mul, ← f.magnitude_zero] at hlt
    exact ⟨hmono.lt_iff_lt.mp hlt, f.magnitude_zero⟩
  · obtain ⟨k, n, s, H, hround, hexact⟩ := exists_scaled hzero e
    obtain rfl := hexact he hm
    have hlow := H.low
    have hhigh := H.high
    rw [Nat.pow_zero, Nat.div_one] at hlow hhigh
    have heq : f.magnitude (k * f.leadingBit + n) = m * 2 ^ e := by
      rw [magnitude_eq hlow (Nat.le_of_lt hhigh), H.value, pow_zero, div_one]
    have hbits : k * f.leadingBit + n < f.infinity := hmono.lt_iff_lt.mp (heq ▸ hlt)
    rw [hround, shiftRounded_zero, Nat.min_eq_left (Nat.le_of_lt hbits)]
    exact ⟨hbits, heq⟩

end Format

end NdBuffer.Binary
