import NdBuffer.Element
import NdBuffer.Proofs.Binary.Nearest

/-!
# Widening

A wider format has all the numbers of a narrower one, so a value that is rounded to a wider format
stays the same number (`Format.toEReal?_decode_encode`). In particular every float stands for the
same number after it has been made a double (`Elem.widened?_eq`).
-/

namespace NdBuffer

namespace Binary.Format

variable {f g : Format} {bits i : Nat}

/-- The first power of two that is too large for a format. -/
theorem magnitude_infinity (hpos : 0 < f.exponentBits) :
    f.magnitude f.infinity = 2 ^ 2 ^ (f.exponentBits - 1) := by
  obtain ⟨w, hw⟩ := Nat.exists_eq_add_one_of_ne_zero (Nat.ne_of_gt hpos)
  have htwo : 1 ≤ 2 ^ w := Nat.two_pow_pos w
  have hsucc : 2 ^ (w + 1) = 2 * 2 ^ w := Nat.pow_succ'
  have hbits : f.infinity = (2 * 2 ^ w - 2) * f.leadingBit + f.leadingBit := by
    rw [infinity, Nat.one_shiftLeft, Nat.shiftLeft_eq, ← leadingBit_eq, hw, hsucc,
      ← Nat.succ_mul, Nat.succ_eq_add_one]
    congr 1
    omega
  rw [hbits, magnitude_eq (.inr (Nat.le_refl _)) (by omega), unit, leadingBit_eq, hw,
    Nat.add_sub_cancel, quantum, hw, Nat.add_sub_cancel, Nat.one_shiftLeft]
  push_cast
  rw [← zpow_natCast, ← zpow_natCast, ← zpow_natCast, ← zpow_add₀ two_ne_zero,
    ← zpow_add₀ two_ne_zero]
  congr 1
  push_cast [Nat.cast_sub (show 2 ≤ 2 * 2 ^ w by omega)]
  ring

/-- What the bits of a magnitude stand for after the sign bit has been put before them. -/
theorem toEReal?_decode_add (hbits : bits ≤ f.infinity) (negative : Bool) :
    (f.decode (bits + if negative then f.signBit else 0)).toEReal? =
      some (if negative then -f.number bits else f.number bits) := by
  have hlt : bits < f.signBit := Nat.lt_of_le_of_lt hbits f.infinity_lt_signBit
  have hrest : f.magnitudeBits (bits + if negative then f.signBit else 0) = bits := by
    cases negative <;> simp [magnitudeBits, Nat.mod_eq_of_lt hlt]
  have hsign : f.isNegative (bits + if negative then f.signBit else 0) = negative := by
    have hpos := Nat.zero_lt_of_lt hlt
    cases negative <;> simp [isNegative, Nat.div_eq_of_lt hlt, Nat.add_div_right _ hpos]
  rw [toEReal?_decode, hrest, hsign, if_neg (Nat.not_lt.mpr hbits)]

/-- A finite number of a format is one of a format that is at least as wide. -/
theorem magnitude_round_significand (hpos : 0 < f.exponentBits)
    (hexponent : f.exponentBits ≤ g.exponentBits) (hfraction : f.fractionBits ≤ g.fractionBits)
    (hi : i < f.infinity) :
    g.round (f.significand i) (f.exponent i) < g.infinity ∧
      g.magnitude (g.round (f.significand i) (f.exponent i)) = f.magnitude i := by
  have hexp : 2 ^ (f.exponentBits - 1) ≤ 2 ^ (g.exponentBits - 1) :=
    Nat.pow_le_pow_right Nat.two_pos (Nat.sub_le_sub_right hexponent 1)
  have hquantum : g.quantum ≤ f.exponent i := by
    refine Int.le_trans ?_ (f.quantum_le_exponent i)
    rw [quantum, quantum, Nat.one_shiftLeft, Nat.one_shiftLeft]
    omega
  have hunits : f.significand i < 2 * g.leadingBit := by
    refine Nat.lt_of_lt_of_le (f.significand_lt i) (Nat.mul_le_mul_left 2 ?_)
    rw [leadingBit_eq, leadingBit_eq]
    exact Nat.pow_le_pow_right Nat.two_pos hfraction
  have hlt : f.magnitude i < g.magnitude g.infinity := by
    refine lt_of_lt_of_le (f.magnitude_strictMono hi) ?_
    rw [magnitude_infinity hpos, magnitude_infinity (Nat.lt_of_lt_of_le hpos hexponent)]
    exact pow_le_pow_right₀ one_le_two hexp
  rw [← significand_mul_zpow f] at hlt ⊢
  exact magnitude_round hquantum hunits hlt

/-- A value that is rounded to a format that is at least as wide stays the same number. -/
theorem toEReal?_decode_encode (hpos : 0 < f.exponentBits)
    (hexponent : f.exponentBits ≤ g.exponentBits) (hfraction : f.fractionBits ≤ g.fractionBits)
    (h : g.encode? (f.decode i) = some bits) :
    (g.decode bits).toEReal? = (f.decode i).toEReal? := by
  rcases f.decode_cases i with hi | ⟨s, hi⟩ | ⟨s, n, hn, hi⟩ <;> rw [hi] at h ⊢ <;> cases h
  · rw [toEReal?_decode_add (Nat.le_refl _), number_infinity, Value.toEReal?, EReal.neg_top]
  · obtain ⟨hlt, heq⟩ := magnitude_round_significand hpos hexponent hfraction hn
    rw [toEReal?_decode_add (Nat.le_of_lt hlt), number, if_neg (Nat.ne_of_lt hlt), heq,
      Value.toEReal?, significand_mul_zpow, signed]
    cases s <;> simp

theorem encode?_lt {v : Value} (h : f.encode? v = some bits) : bits < 2 * f.signBit := by
  have hinf := f.infinity_lt_signBit
  cases v with
  | nan => cases h
  | infinite s => cases h; grind
  | finite s m e => have hround := f.round_le m e; cases h; grind

theorem encode?_eq_none {v : Value} : f.encode? v = none ↔ v = .nan := by
  cases v <;> simp [encode?]

end Binary.Format

/-- The double format is as wide as any in which floats are kept. -/
theorem ElemType.exists_format {t : ElemType} (ht : t.isFloat = true) :
    ∃ f, t.format? = some f ∧ 0 < f.exponentBits ∧
      f.exponentBits ≤ Binary.Format.double.exponentBits ∧
      f.fractionBits ≤ Binary.Format.double.fractionBits := by
  cases t with
  | f32 | f16 | bf16 | f64 => exact ⟨_, rfl, by decide, by decide, by decide⟩
  | i8 | i16 | i32 | i64 | u8 => cases ht

namespace Elem

open Binary

variable {t : ElemType}

theorem value_eq_decode {f : Format} (hf : t.format? = some f) (v : Elem t) :
    v.value = f.decode v.toNat := by
  simp only [value, hf]

/-- The number that an element stands for after it has been made a double. -/
noncomputable def widened? (v : Elem t) : Option EReal := v.toDouble?.bind double?

/-- A float stays the same number when it is made a double. -/
theorem widened?_eq (ht : t.isFloat = true) (v : Elem t) : v.widened? = v.value.toEReal? := by
  obtain ⟨f, hf, hpos, hexponent, hfraction⟩ := ElemType.exists_format ht
  rw [widened?, toDouble?, value_eq_decode hf]
  cases hbits : Format.double.encode? (f.decode v.toNat) with
  | none =>
    rw [Format.encode?_eq_none] at hbits
    rw [hbits]
    rfl
  | some bits =>
    have hlt : bits < 2 ^ 64 := Format.encode?_lt hbits
    rw [Option.map_some, Option.bind_some, double?, BitVec.toNat_ofNat, Nat.mod_eq_of_lt hlt]
    exact Format.toEReal?_decode_encode hpos hexponent hfraction hbits

end Elem

end NdBuffer
