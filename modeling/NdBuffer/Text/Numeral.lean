import NdBuffer.Count

/-! Decimal numerals of counts. A numeral is one or more ASCII digits, leading zeros included, and
may be led by one plus sign. -/

namespace NdBuffer.Text

/-- The count that a numeral denotes, if the text is a numeral and denotes a count. -/
def readCount? (cs : List Char) : Option Nat :=
  let digits := match cs with
    | '+' :: rest => rest
    | _ => cs
  if digits ≠ [] ∧ digits.all Char.isDigit then Count.checked (Nat.ofDigitChars 10 digits 0)
  else none

theorem readCount?_toDigits {n : Nat} (h : n < Count.limit) :
    readCount? (Nat.toDigits 10 n) = some n := by
  have hdigit : ∀ c ∈ Nat.toDigits 10 n, c.isDigit = true :=
    fun c hc => Nat.isDigit_of_mem_toDigits (by decide) (by decide) hc
  have hplus : ∀ rest, Nat.toDigits 10 n ≠ '+' :: rest := fun rest hrest =>
    absurd (hdigit '+' (by simp [hrest])) (by decide)
  unfold readCount?
  split
  · exact absurd ‹_› (hplus _)
  · have hall : (Nat.toDigits 10 n).all Char.isDigit = true := by simpa using hdigit
    simp [Nat.toDigits_ne_nil, hall, Nat.ofDigitChars_toDigits, Count.checked_eq_some_iff, h]

end NdBuffer.Text
