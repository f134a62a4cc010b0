import NdBuffer.Binary.Distance
import NdBuffer.Proofs.Binary.Nearest

/-!
# Comparing values

What the comparisons of values mean for the numbers that they stand for. Two values of one format
are equal if they stand for the same number (`Format.equals_decode_iff`), and they are within a
tolerance if their distance in double arithmetic does not exceed it (`Value.within_iff`). What is no
number is neither equal to anything nor within a tolerance of it.
-/

namespace NdBuffer.Binary

/-- The distance of two numbers in double arithmetic: their difference without its sign, rounded.
Two infinities of the same sign have no distance. -/
inductive IsDistance : EReal → EReal → EReal → Prop
  | real {x y : ℝ} {d : Nat} : Format.double.IsNearest |x - y| d →
    IsDistance x y (Format.double.number d)
  | infinite {x y : EReal} : x = ⊥ ∨ x = ⊤ ∨ y = ⊥ ∨ y = ⊤ → x ≠ y → IsDistance x y ⊤

variable {x y z d : EReal}

theorem isDistance_coe {x y : ℝ} :
    IsDistance x y d ↔ ∃ bits, Format.double.IsNearest |x - y| bits ∧
      d = Format.double.number bits := by
  constructor
  · intro H
    generalize hx : (x : EReal) = x' at H
    generalize hy : (y : EReal) = y' at H
    cases H with
    | @real x' y' bits H =>
      obtain rfl := EReal.coe_injective hx
      obtain rfl := EReal.coe_injective hy
      exact ⟨bits, H, rfl⟩
    | infinite H _ =>
      subst hx hy
      simp at H
  · rintro ⟨bits, H, rfl⟩
    exact .real H

theorem isDistance_of_infinite (h : x = ⊥ ∨ x = ⊤ ∨ y = ⊥ ∨ y = ⊤) :
    IsDistance x y d ↔ x ≠ y ∧ d = ⊤ := by
  constructor
  · rintro (H | ⟨-, hne⟩)
    · simp at h
    · exact ⟨hne, rfl⟩
  · rintro ⟨hne, rfl⟩
    exact .infinite h hne

/-- A finite number has the distance zero from itself, and an infinity has none. -/
theorem isDistance_self : IsDistance x x d ↔ x ≠ ⊥ ∧ x ≠ ⊤ ∧ d = 0 := by
  induction x with
  | bot => simp [isDistance_of_infinite]
  | top => simp [isDistance_of_infinite]
  | coe r =>
    have H : Format.double.IsNearest |r - r| 0 := by
      rw [sub_self, abs_zero, ← Format.double.magnitude_zero]
      exact Format.isNearest_magnitude (Nat.zero_le _)
    rw [isDistance_coe]
    constructor
    · rintro ⟨bits, H', rfl⟩
      obtain rfl := H.unique H'
      exact ⟨EReal.coe_ne_bot r, EReal.coe_ne_top r, Format.number_zero Format.double_infinity_pos⟩
    · rintro ⟨-, -, rfl⟩
      exact ⟨0, H, (Format.number_zero Format.double_infinity_pos).symm⟩

/-! ### The tolerance -/

/-- A double that is above zero has the bits of its magnitude. -/
theorem double?_of_isPositive {t : BitVec 64} (ht : isPositive t = true) :
    t.toNat ≤ Format.double.infinity ∧ double? t = some (Format.double.number t.toNat) := by
  simp only [isPositive, Bool.and_eq_true, decide_eq_true_eq] at ht
  obtain ⟨hbits, hneg⟩ := Format.magnitudeBits_of_le ht.2
  refine ⟨ht.2, ?_⟩
  rw [double?, Format.toEReal?_decode, hbits, hneg, if_neg (Nat.not_lt.mpr ht.2)]
  rfl

theorem isPositive_iff {t : BitVec 64} :
    isPositive t = true ↔ ∃ x, double? t = some x ∧ 0 < x := by
  constructor
  · intro ht
    obtain ⟨hle, hnumber⟩ := double?_of_isPositive ht
    simp only [isPositive, Bool.and_eq_true, decide_eq_true_eq] at ht
    exact ⟨_, hnumber, (Format.number_pos_iff Format.double_infinity_pos hle).mpr ht.1⟩
  · rintro ⟨x, hx, hpos⟩
    rw [double?, Format.toEReal?_decode, Option.ite_none_left_eq_some, Nat.not_lt] at hx
    obtain ⟨hle, hx⟩ := hx
    cases hneg : Format.double.isNegative t.toNat with
    | true =>
      rw [hneg] at hx
      cases hx
      have hnonneg := Format.double.number_nonneg (Format.double.magnitudeBits t.toNat)
      exact absurd hpos (not_lt.mpr (EReal.neg_le_zero.mpr hnonneg))
    | false =>
      have hbits := Format.magnitudeBits_of_not_isNegative t.isLt hneg
      rw [hneg, hbits] at hx
      rw [hbits] at hle
      cases hx
      simp only [isPositive, Bool.and_eq_true, decide_eq_true_eq]
      exact ⟨(Format.number_pos_iff Format.double_infinity_pos hle).mp hpos, hle⟩

/-! ### The distance -/

namespace Value

variable {a b : Value}

/-- The units of a finite value make up its number. -/
theorem units_mul_zpow {base e : Int} (hbase : base ≤ e) (negative : Bool) (m : Nat) :
    (units base negative m e : ℝ) * 2 ^ base = signed negative (m * 2 ^ e) := by
  have hexp : e = ((e - base).toNat : Int) + base := by omega
  have hscale : ((m <<< (e - base).toNat : Nat) : ℝ) * 2 ^ base = m * 2 ^ e := by
    rw [Nat.shiftLeft_eq]
    conv_rhs => rw [hexp, zpow_add₀ two_ne_zero, zpow_natCast]
    push_cast
    ring
  rw [units, signed, ← hscale]
  cases negative <;> simp only [if_true, if_false, Bool.false_eq_true, Int.cast_neg, neg_mul,
    Int.cast_natCast]

/-- The units by which two finite values differ make up the difference of their numbers. -/
theorem natAbs_units_mul_zpow (s s' : Bool) (m m' : Nat) (e e' : Int) :
    ((units (min e e') s m e - units (min e e') s' m' e').natAbs : ℝ) * 2 ^ min e e' =
      |signed s (m * 2 ^ e) - signed s' (m' * 2 ^ e')| := by
  have hpos : (0 : ℝ) < 2 ^ min e e' := by positivity
  rw [← units_mul_zpow (min_le_left e e'), ← units_mul_zpow (min_le_right e e'), ← sub_mul, abs_mul,
    abs_of_pos hpos, Nat.cast_natAbs]
  push_cast
  rfl

/-- The distance that is computed is that of the numbers. -/
theorem isDistance_iff (ha : a.toEReal? = some x) (hb : b.toEReal? = some y) :
    IsDistance x y d ↔ ∃ bits, a.distance? b = some bits ∧ d = Format.double.number bits := by
  match a, b with
  | nan, _ => cases ha
  | _, nan => cases hb
  | infinite s, infinite s' =>
    cases ha
    cases hb
    rw [isDistance_of_infinite (by cases s <;> simp)]
    cases s <;> cases s' <;> simp [distance?, Format.number_infinity]
  | infinite s, finite s' m e =>
    cases ha
    cases hb
    rw [isDistance_of_infinite (by cases s <;> simp)]
    cases s <;> simp [distance?, Format.number_infinity]
  | finite s m e, infinite s' =>
    cases ha
    cases hb
    rw [isDistance_of_infinite (by cases s' <;> simp)]
    cases s' <;> simp [distance?, Format.number_infinity]
  | finite s m e, finite s' m' e' =>
    cases ha
    cases hb
    have H := Format.isNearest_round (f := .double) (by decide)
      (units (min e e') s m e - units (min e e') s' m' e').natAbs (min e e')
    rw [natAbs_units_mul_zpow] at H
    rw [isDistance_coe]
    constructor
    · rintro ⟨bits, H', hd⟩
      obtain rfl := H.unique H'
      exact ⟨_, rfl, hd⟩
    · rintro ⟨bits, hbits, hd⟩
      obtain rfl := Option.some.inj hbits
      exact ⟨_, H, hd⟩

/-- Only numbers have a distance, and it is not greater than infinity. -/
theorem of_distance?_eq {bits : Nat} (h : a.distance? b = some bits) :
    (∃ x y, a.toEReal? = some x ∧ b.toEReal? = some y) ∧ bits ≤ Format.double.infinity := by
  match a, b with
  | nan, _ => cases h
  | infinite _, nan | finite .., nan => cases h
  | infinite s, infinite s' =>
    refine ⟨⟨_, _, rfl, rfl⟩, ?_⟩
    cases s <;> cases s' <;> cases h <;> exact Nat.le_refl _
  | infinite _, finite .. | finite .., infinite _ =>
    cases h
    exact ⟨⟨_, _, rfl, rfl⟩, Nat.le_refl _⟩
  | finite .., finite .. =>
    cases h
    exact ⟨⟨_, _, rfl, rfl⟩, Format.round_le _ _ _⟩

/-- Values are within a tolerance if they have a distance and it is not greater. -/
theorem within_iff {t : BitVec 64} (ht : isPositive t = true) (hz : double? t = some z) :
    a.within t b = true ↔ ∃ x y d, a.toEReal? = some x ∧ b.toEReal? = some y ∧
      IsDistance x y d ∧ d ≤ z := by
  obtain ⟨hle, hnumber⟩ := double?_of_isPositive ht
  obtain rfl := Option.some.inj (hnumber.symm.trans hz)
  rw [within]
  cases hdist : a.distance? b with
  | none =>
    constructor
    · exact nofun
    · rintro ⟨x, y, d, ha, hb, H, -⟩
      obtain ⟨bits, hbits, -⟩ := (isDistance_iff ha hb).mp H
      cases hdist.symm.trans hbits
  | some bits =>
    obtain ⟨⟨x, y, ha, hb⟩, hbits⟩ := of_distance?_eq hdist
    simp only [decide_eq_true_eq]
    rw [← Format.number_le_iff hbits hle]
    constructor
    · intro hd
      exact ⟨x, y, _, ha, hb, (isDistance_iff ha hb).mpr ⟨bits, hdist, rfl⟩, hd⟩
    · rintro ⟨x', y', d, ha', hb', H, hd⟩
      obtain ⟨bits', hdist', rfl⟩ := (isDistance_iff ha' hb').mp H
      obtain rfl := Option.some.inj (hdist.symm.trans hdist')
      exact hd

/-! ### Equality -/

theorem equals_finite {s s' : Bool} {m m' : Nat} {e e' : Int} :
    (finite s m e).equals (finite s' m' e') = true ↔
      m = 0 ∧ m' = 0 ∨ s = s' ∧ m = m' ∧ e = e' := by
  cases m <;> cases m' <;> simp [equals, and_assoc]

end Value

theorem signed_eq_iff (s s' : Bool) {x y : ℝ} (hx : 0 ≤ x) (hy : 0 ≤ y) :
    signed s x = signed s' y ↔ x = 0 ∧ y = 0 ∨ s = s' ∧ x = y := by
  rw [signed, signed]
  cases s <;> cases s' <;> simp only [if_true, if_false, Bool.false_eq_true] <;> grind

namespace Format

variable {f : Format} {i j : Nat}

/-- The units and their exponent determine the bits. -/
theorem significand_exponent_inj :
    f.significand i = f.significand j ∧ f.exponent i = f.exponent j ↔ i = j := by
  constructor
  · rintro ⟨hm, he⟩
    refine f.magnitude_strictMono.injective ?_
    rw [← significand_mul_zpow, hm, he, significand_mul_zpow]
  · rintro rfl
    exact ⟨rfl, rfl⟩

theorem magnitude_eq_zero : f.magnitude i = 0 ↔ f.significand i = 0 := by
  rw [← significand_mul_zpow, mul_eq_zero, Nat.cast_eq_zero]
  exact or_iff_left (by positivity)

/-- Two values of a format are equal if they stand for the same number. -/
theorem equals_decode_iff :
    (f.decode i).equals (f.decode j) = true ↔
      ∃ x, (f.decode i).toEReal? = some x ∧ (f.decode j).toEReal? = some x := by
  rcases f.decode_cases i with ha | ⟨s, ha⟩ | ⟨s, n, -, ha⟩ <;>
    rcases f.decode_cases j with hb | ⟨s', hb⟩ | ⟨s', n', -, hb⟩ <;> rw [ha, hb]
  case inr.inr.inr.inr =>
    have hfinite := signed_eq_iff s s' (f.magnitude_nonneg n) (f.magnitude_nonneg n')
    rw [Value.equals_finite, significand_exponent_inj, ← magnitude_eq_zero, ← magnitude_eq_zero,
      ← f.magnitude_strictMono.injective.eq_iff, ← hfinite]
    simp only [Value.toEReal?, significand_mul_zpow, Option.some.injEq, exists_eq_left',
      EReal.coe_eq_coe_iff]
    exact eq_comm
  case inr.inl.inr.inl => cases s <;> cases s' <;> simp [Value.equals, Value.toEReal?]
  case inr.inl.inr.inr => cases s <;> simp [Value.equals, Value.toEReal?]
  case inr.inr.inr.inl => cases s' <;> simp [Value.equals, Value.toEReal?]
  all_goals simp [Value.equals, Value.toEReal?]

end Format

end NdBuffer.Binary
