import Mathlib.Algebra.Order.Field.Power
import Mathlib.Data.EReal.Operations
import Mathlib.Order.Monotone.Basic
import NdBuffer.Binary.Format

/-!
# The numbers of a binary format

The bits of a magnitude, read as a number, count the magnitudes of the format in their order
(`Format.magnitude_strictMono`). Infinity is counted as well: its bits stand for the first power of
two that is too large. What a bit pattern stands for is then a number with a sign, or none
(`Format.toEReal?_decode`).
-/

namespace NdBuffer.Binary

/-- A number with a sign. -/
def signed (negative : Bool) (x : ℝ) : ℝ := if negative then -x else x

/-- The number that a value stands for, if it is a number or an infinity. -/
noncomputable def Value.toEReal? : Value → Option EReal
  | nan => none
  | infinite negative => some (if negative then ⊥ else ⊤)
  | finite negative m e => some (signed negative (m * 2 ^ e) : ℝ)

namespace Format

variable {f : Format} {k u n bits : Nat}

theorem leadingBit_eq (f : Format) : f.leadingBit = 2 ^ f.fractionBits := Nat.one_shiftLeft _

theorem leadingBit_pos (f : Format) : 0 < f.leadingBit := by
  rw [leadingBit_eq]
  exact Nat.two_pow_pos _

/-! ### Magnitudes in order -/

/-- The units that are in the number with the given magnitude bits. -/
def significand (f : Format) (bits : Nat) : Nat :=
  if bits / f.leadingBit = 0 then bits else f.leadingBit + bits % f.leadingBit

/-- The number of times that the unit is doubled for the given magnitude bits. -/
def place (f : Format) (bits : Nat) : Nat := bits / f.leadingBit - 1

/-- The magnitude with the given bits. -/
noncomputable def magnitude (f : Format) (bits : Nat) : ℝ :=
  (f.significand bits * 2 ^ f.place bits : Nat) * 2 ^ f.quantum

/-- The unit of a place. -/
noncomputable def unit (f : Format) (k : Nat) : ℝ := 2 ^ k * 2 ^ f.quantum

theorem unit_pos (f : Format) (k : Nat) : 0 < f.unit k := by
  unfold unit
  positivity

/-- Bits that are a whole number of steps of the exponent and some units stand for so many units,
also if a carry has made them one more than fit in a place. -/
theorem significand_mul_two_pow (hlow : k = 0 ∨ f.leadingBit ≤ u) (hhigh : u ≤ 2 * f.leadingBit) :
    f.significand (k * f.leadingBit + u) * 2 ^ f.place (k * f.leadingBit + u) = u * 2 ^ k := by
  have hpos := f.leadingBit_pos
  have hdiv : (k * f.leadingBit + u) / f.leadingBit = k + u / f.leadingBit := by
    rw [Nat.mul_comm, Nat.mul_add_div hpos]
  have hmod : (k * f.leadingBit + u) % f.leadingBit = u % f.leadingBit := by
    rw [Nat.mul_comm, Nat.mul_add_mod]
  rw [significand, place, hdiv, hmod]
  rcases Nat.lt_or_ge u f.leadingBit with hlt | hge
  · -- the numbers below the least leading bit
    obtain rfl : k = 0 := hlow.resolve_right (Nat.not_le.mpr hlt)
    rw [Nat.div_eq_of_lt hlt]
    simp
  · rcases Nat.lt_or_eq_of_le hhigh with hlt | rfl
    · have hone : u / f.leadingBit = 1 := by
        rw [Nat.div_eq_iff hpos]
        omega
      have hrest : u % f.leadingBit = u - f.leadingBit := by
        rw [Nat.mod_eq_sub_mod hge, Nat.mod_eq_of_lt (by omega)]
      rw [hone, hrest, if_neg (by omega), Nat.add_sub_cancel' hge, Nat.add_sub_cancel]
    · -- a carry: the same number in the next place
      have htwo : 2 * f.leadingBit / f.leadingBit = 2 := Nat.mul_div_cancel _ hpos
      rw [htwo, if_neg (by omega), Nat.mul_mod_left, Nat.add_zero, Nat.add_sub_assoc (by omega),
        Nat.pow_succ]
      ring

/-- Every number of bits is a whole number of steps of the exponent and some units. -/
theorem exists_place (f : Format) (n : Nat) :
    ∃ k u, n = k * f.leadingBit + u ∧ (k = 0 ∨ f.leadingBit ≤ u) ∧ u < 2 * f.leadingBit := by
  have hpos := f.leadingBit_pos
  rcases Nat.lt_or_ge n f.leadingBit with hlt | hge
  · exact ⟨0, n, by simp, .inl rfl, by omega⟩
  · refine ⟨n / f.leadingBit - 1, f.leadingBit + n % f.leadingBit, ?_, .inr (Nat.le_add_right ..),
      by have := Nat.mod_lt n hpos; omega⟩
    have hdiv : 1 ≤ n / f.leadingBit := (Nat.one_le_div_iff hpos).mpr hge
    have heq := Nat.div_add_mod' n f.leadingBit
    have hmul : (n / f.leadingBit - 1) * f.leadingBit + f.leadingBit =
        n / f.leadingBit * f.leadingBit := by
      rw [← Nat.succ_mul, Nat.succ_eq_add_one, Nat.sub_add_cancel hdiv]
    omega

theorem magnitude_eq (hlow : k = 0 ∨ f.leadingBit ≤ u) (hhigh : u ≤ 2 * f.leadingBit) :
    f.magnitude (k * f.leadingBit + u) = u * f.unit k := by
  rw [magnitude, significand_mul_two_pow hlow hhigh, unit]
  push_cast
  ring

/-- Bits are in the order of the magnitudes. -/
theorem magnitude_strictMono (f : Format) : StrictMono f.magnitude := by
  refine strictMono_nat_of_lt_succ fun n => ?_
  obtain ⟨k, u, rfl, hlow, hhigh⟩ := f.exists_place n
  have hunit := f.unit_pos k
  rw [Nat.add_assoc, magnitude_eq hlow (Nat.le_of_lt hhigh),
    magnitude_eq (hlow.imp_right Nat.le_succ_of_le) hhigh]
  push_cast
  nlinarith

@[simp] theorem magnitude_zero (f : Format) : f.magnitude 0 = 0 := by
  simp [magnitude, significand]

theorem magnitude_nonneg (f : Format) (bits : Nat) : 0 ≤ f.magnitude bits := by
  rw [← f.magnitude_zero]
  exact f.magnitude_strictMono.monotone (Nat.zero_le bits)

/-! ### Bit patterns -/

theorem infinity_lt_signBit (f : Format) : f.infinity < f.signBit := by
  have hpos : 0 < 2 ^ f.exponentBits := Nat.two_pow_pos _
  rw [infinity, signBit, Nat.one_shiftLeft, Nat.one_shiftLeft, Nat.shiftLeft_eq, Nat.pow_add]
  exact Nat.mul_lt_mul_of_pos_right (by omega) (Nat.two_pow_pos _)

/-- The exponent of the unit for the given magnitude bits. -/
def exponent (f : Format) (bits : Nat) : Int := f.quantum + f.place bits

theorem quantum_le_exponent (f : Format) (bits : Nat) : f.quantum ≤ f.exponent bits :=
  Int.le_add_of_nonneg_right (Int.natCast_nonneg _)

theorem significand_lt (f : Format) (bits : Nat) : f.significand bits < 2 * f.leadingBit := by
  have hmod := Nat.mod_lt bits f.leadingBit_pos
  rw [significand]
  split
  · have hlt := (Nat.div_eq_zero_iff_lt f.leadingBit_pos).mp ‹_›
    omega
  · omega

theorem decode_eq (f : Format) (bits : Nat) :
    f.decode bits =
      if f.magnitudeBits bits = f.infinity then .infinite (f.isNegative bits)
      else if f.infinity < f.magnitudeBits bits then .nan
      else .finite (f.isNegative bits) (f.significand (f.magnitudeBits bits))
        (f.exponent (f.magnitudeBits bits)) := by
  rw [decode]
  generalize f.magnitudeBits bits = rest
  simp only [significand, exponent, place]
  split
  · rfl
  · split
    · rfl
    · split
      · rename_i hzero
        have hlt : rest < f.leadingBit := (Nat.div_eq_zero_iff_lt f.leadingBit_pos).mp hzero
        simp [hzero, Nat.mod_eq_of_lt hlt]
      · rename_i hbiased
        rw [Nat.cast_sub (Nat.pos_of_ne_zero hbiased), Nat.cast_one]

theorem significand_mul_zpow (f : Format) (bits : Nat) :
    (f.significand bits : ℝ) * 2 ^ f.exponent bits = f.magnitude bits := by
  rw [exponent, magnitude, zpow_add₀ two_ne_zero, zpow_natCast]
  push_cast
  ring

/-- The kinds of values that a format has. -/
theorem decode_cases (f : Format) (bits : Nat) :
    f.decode bits = .nan ∨ (∃ s, f.decode bits = .infinite s) ∨
      ∃ s n, n < f.infinity ∧ f.decode bits = .finite s (f.significand n) (f.exponent n) := by
  rw [decode_eq]
  split
  · exact .inr (.inl ⟨_, rfl⟩)
  · split
    · exact .inl rfl
    · exact .inr (.inr ⟨_, _, Nat.lt_of_le_of_ne (Nat.not_lt.mp ‹_›) ‹_›, rfl⟩)

/-- The number with the given magnitude bits, which are at most those of infinity. -/
noncomputable def number (f : Format) (bits : Nat) : EReal :=
  if bits = f.infinity then ⊤ else (f.magnitude bits : ℝ)

@[simp] theorem number_infinity (f : Format) : f.number f.infinity = ⊤ := if_pos rfl

theorem number_le_iff {i j : Nat} (hi : i ≤ f.infinity) (hj : j ≤ f.infinity) :
    f.number i ≤ f.number j ↔ i ≤ j := by
  rw [number, number]
  by_cases hi' : i = f.infinity <;> by_cases hj' : j = f.infinity
  · simp [hi', hj']
  · simp [hi', hj', Nat.lt_of_le_of_ne hj hj']
  · simp [hj', hi]
  · simp [hi', hj', EReal.coe_le_coe_iff, f.magnitude_strictMono.le_iff_le]

theorem number_zero {f : Format} (hf : 0 < f.infinity) : f.number 0 = 0 := by
  rw [number, if_neg (Nat.ne_of_lt hf), magnitude_zero, EReal.coe_zero]

theorem double_infinity_pos : 0 < double.infinity := by decide

theorem number_nonneg (f : Format) (bits : Nat) : 0 ≤ f.number bits := by
  rw [number]
  split
  · exact le_top
  · exact EReal.coe_nonneg.mpr (f.magnitude_nonneg bits)

theorem number_pos_iff (hf : 0 < f.infinity) (hbits : bits ≤ f.infinity) :
    0 < f.number bits ↔ 0 < bits := by
  rw [← number_zero hf, lt_iff_not_ge, number_le_iff hbits (Nat.zero_le _), Nat.not_le]

/-- What a bit pattern stands for is a number with a sign, unless it is none. -/
theorem toEReal?_decode (f : Format) (bits : Nat) :
    (f.decode bits).toEReal? =
      if f.infinity < f.magnitudeBits bits then none
      else some (if f.isNegative bits then -f.number (f.magnitudeBits bits)
        else f.number (f.magnitudeBits bits)) := by
  rw [decode_eq, number]
  by_cases hinf : f.magnitudeBits bits = f.infinity
  · cases hneg : f.isNegative bits <;> simp [hinf, Value.toEReal?]
  · rw [if_neg hinf, if_neg hinf]
    split
    · rfl
    · rw [Value.toEReal?, significand_mul_zpow, signed]
      cases hneg : f.isNegative bits <;> simp

/-- Bits that are no more than those of infinity have no sign bit. -/
theorem magnitudeBits_of_le (hbits : bits ≤ f.infinity) :
    f.magnitudeBits bits = bits ∧ f.isNegative bits = false := by
  have hlt : bits < f.signBit := Nat.lt_of_le_of_lt hbits f.infinity_lt_signBit
  exact ⟨Nat.mod_eq_of_lt hlt, by rw [isNegative, Nat.div_eq_of_lt hlt]; rfl⟩

/-- Bits without the sign bit are those of a magnitude. -/
theorem magnitudeBits_of_not_isNegative (hbits : bits < 2 * f.signBit)
    (hneg : f.isNegative bits = false) : f.magnitudeBits bits = bits := by
  have hpos : 0 < f.signBit := Nat.zero_lt_of_lt f.infinity_lt_signBit
  have hquotient : bits / f.signBit < 2 := Nat.div_lt_of_lt_mul (Nat.mul_comm .. ▸ hbits)
  have hodd : bits / f.signBit % 2 ≠ 1 := by simpa [isNegative] using hneg
  refine Nat.mod_eq_of_lt ((Nat.div_eq_zero_iff_lt hpos).mp ?_)
  generalize bits / f.signBit = quotient at hquotient hodd
  omega

end Format

/-- The number that a double stands for, if it is a number or an infinity. -/
noncomputable def double? (d : BitVec 64) : Option EReal := (Format.double.decode d.toNat).toEReal?

end NdBuffer.Binary
