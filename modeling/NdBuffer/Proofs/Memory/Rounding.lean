import NdBuffer.Proofs.Memory.Alignment

/-!
# Rounding in words

What `roundUp?` gives is determined by the least multiple alone: this is less than one alignment
above the number, it is rounded to itself, and a larger number does not have a smaller one. In words
of 64 bits the bits below the alignment are cleared by a mask. That comes to the same
(`roundUp?_toNat`), because the sum before it is a word whenever the multiple is.
-/

namespace NdBuffer

variable {n r a : Nat}

/-! ### Least multiples -/

theorem lt_add_of_isLeast (ha : 0 < a) (hr : IsLeast {m | a ∣ m ∧ n ≤ m} r) : r < n + a := by
  obtain rfl := hr.unique (isLeast_mul_div ha n)
  have hle := Nat.mul_div_le (n + (a - 1)) a
  omega

theorem isLeast_self (hr : a ∣ r) : IsLeast {m | a ∣ m ∧ r ≤ m} r :=
  ⟨⟨hr, Nat.le_refl r⟩, fun _ hm => hm.2⟩

/-- A power of two that is a count has one bit of the 64. -/
theorem exists_shift_of_isPowerOfTwo (ha : a.isPowerOfTwo) (hlt : a < Count.limit) :
    ∃ k ≤ 64, a = 1 <<< k := by
  obtain ⟨k, rfl⟩ := ha
  rw [Count.limit, Nat.one_shiftLeft] at hlt
  have hk : k < 64 := (Nat.pow_lt_pow_iff_right (by decide)).mp hlt
  exact ⟨k, Nat.le_of_lt hk, (Nat.one_shiftLeft k).symm⟩

theorem roundUp?_of_isLeast (ha : a.isPowerOfTwo) (hlt : a < Count.limit)
    (hr : IsLeast {m | a ∣ m ∧ n ≤ m} r) : roundUp? n a = Count.checked r := by
  obtain ⟨k, hk, rfl⟩ := exists_shift_of_isPowerOfTwo ha hlt
  exact roundUp?_eq_checked hk hr

/-! ### Words -/

/-- The bits of a word inside a mask and those outside of it add up to the word, without a carry. -/
theorem toNat_and_not_add_toNat_and {w : Nat} (x mask : BitVec w) :
    (x &&& ~~~mask).toNat + (x &&& mask).toNat = x.toNat := by
  have hdisjoint : (x &&& ~~~mask) &&& (x &&& mask) = 0#w := by
    ext i
    simp only [BitVec.getElem_and, BitVec.getElem_not, BitVec.getElem_zero]
    cases x[i] <;> cases mask[i] <;> rfl
  have hjoined : (x &&& ~~~mask) ||| (x &&& mask) = x := by
    ext i
    simp only [BitVec.getElem_or, BitVec.getElem_and, BitVec.getElem_not]
    cases x[i] <;> cases mask[i] <;> rfl
  rw [← BitVec.toNat_add_of_and_eq_zero hdisjoint, BitVec.add_eq_or_of_and_eq_zero _ _ hdisjoint,
    hjoined]

theorem toNat_and_not (x mask : UInt64) :
    (x &&& ~~~mask).toNat = x.toNat - (x.toNat &&& mask.toNat) := by
  have hsplit := toNat_and_not_add_toNat_and x.toBitVec mask.toBitVec
  exact Nat.eq_sub_of_add_eq hsplit

/-- Rounding up is the sum of words, as long as it is one, with the bits below the alignment cleared
by a mask. -/
theorem roundUp?_toNat (n a : UInt64) (ha : 0 < a.toNat) :
    roundUp? n.toNat a.toNat =
      if n.toNat + (a.toNat - 1) < Count.limit then
        some ((n + (a - 1)) &&& ~~~(a - 1)).toNat
      else none := by
  have hone : (a - 1).toNat = a.toNat - 1 := UInt64.toNat_sub_of_le a 1 ha
  rw [roundUp?, Count.add?, Count.checked]
  split
  · rename_i hlt
    have hsum : (n + (a - 1)).toNat = n.toNat + (a.toNat - 1) := by
      rw [UInt64.toNat_add, hone]
      exact Nat.mod_eq_of_lt hlt
    rw [toNat_and_not, hsum, hone]
    rfl
  · rfl

/-- Rounding a count `n` up to a power of two `a`. There is a least multiple of `a` that is not
below `n`, and it is less than `n + a`. It is what is given if it is a count, and otherwise there is
nothing to be given. In words it is then the sum of `n` and `a - 1`, cleared in the bits below `a`.
It is rounded to itself, and rounding keeps the order of counts: a count that is not below `n` has
no smaller multiple, and has none if `n` has none. -/
theorem rounding (n a : UInt64) (ha : a.toNat.isPowerOfTwo) :
    ∃ r, IsLeast {m | a.toNat ∣ m ∧ n.toNat ≤ m} r ∧
      n.toNat ≤ r ∧ r < n.toNat + a.toNat ∧
      roundUp? n.toNat a.toNat = (if r < 1 <<< 64 then some r else none) ∧
      (r < 1 <<< 64 → ((n + (a - 1)) &&& ~~~(a - 1)).toNat = r ∧
        roundUp? r a.toNat = some r) ∧
      ∀ (m : UInt64) (q : Nat), n ≤ m → roundUp? m.toNat a.toNat = some q →
        roundUp? n.toNat a.toNat = some r ∧ r ≤ q := by
  have hpos : 0 < a.toNat := Nat.pos_of_isPowerOfTwo ha
  have hround {n r : Nat} := roundUp?_of_isLeast (n := n) (r := r) ha a.toNat_lt
  obtain ⟨r, hr⟩ : ∃ r, IsLeast {m | a.toNat ∣ m ∧ n.toNat ≤ m} r := ⟨_, isLeast_mul_div hpos _⟩
  have hn : roundUp? n.toNat a.toNat = Count.checked r := hround hr
  refine ⟨r, hr, hr.1.2, lt_add_of_isLeast hpos hr, hn, fun hlt => ⟨?_, ?_⟩, fun m q hle hq => ?_⟩
  · -- Since something is given, the sum was a word.
    rw [Count.checked_eq_some_iff.mpr ⟨rfl, hlt⟩, roundUp?_toNat n a hpos] at hn
    exact Option.some.inj (Option.ite_none_right_eq_some.mp hn).2
  · rw [hround (isLeast_self hr.1.1)]
    exact Count.checked_eq_some_iff.mpr ⟨rfl, hlt⟩
  · have hm := isLeast_mul_div hpos m.toNat
    rw [hround hm] at hq
    obtain ⟨rfl, hlt⟩ := Count.checked_eq_some_iff.mp hq
    -- The multiples that are not below `m` are among those that are not below `n`.
    have hrq := hm.mono hr fun k hk => ⟨hk.1, Nat.le_trans hle hk.2⟩
    rw [hn]
    exact ⟨Count.checked_eq_some_iff.mpr ⟨rfl, Nat.lt_of_le_of_lt hrq hlt⟩, hrq⟩

/-- The largest count that is a multiple of 64. A count above it is not rounded. -/
theorem rounding_largest :
    IsLeast {m | 64 ∣ m ∧ 0xffffffffffffffbf ≤ m} 0xffffffffffffffc0 ∧
      roundUp? 0xffffffffffffffc0 64 = some 0xffffffffffffffc0 ∧
      roundUp? 0xffffffffffffffc1 64 = none := by
  obtain ⟨r, hr, -, -, hround, hself, -⟩ := rounding 0xffffffffffffffbf 64 ⟨6, rfl⟩
  have hsome : roundUp? 0xffffffffffffffbf 64 = some 0xffffffffffffffc0 := by decide
  obtain ⟨hlt, heq⟩ := Option.ite_none_right_eq_some.mp (hround.symm.trans hsome)
  obtain rfl : r = 0xffffffffffffffc0 := Option.some.inj heq
  exact ⟨hr, (hself hlt).2, by decide⟩

end NdBuffer
