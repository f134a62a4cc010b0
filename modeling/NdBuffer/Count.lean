/-! Counts, sizes and offsets. They are natural numbers, and every sum or product that must stay
below `Count.limit` is computed exactly first and compared with the limit afterwards. -/

namespace NdBuffer.Count

/-- The first number that is too large for a count. -/
def limit : Nat := 1 <<< 64

/-- The largest count. -/
def top : Nat := limit - 1

/-- A number, provided that it is a count. -/
def checked (n : Nat) : Option Nat := if n < limit then some n else none

/-- The count nearest to a number. -/
def capped (n : Nat) : Nat := min n top

def add? (m n : Nat) : Option Nat := checked (m + n)

def mul? (m n : Nat) : Option Nat := checked (m * n)

/-- The signed number with the same 64 bits. -/
def signed (n : Nat) : Int := Int.bmod n limit

theorem checked_eq_some_iff {n m : Nat} : checked n = some m ↔ n = m ∧ n < limit := by
  unfold checked
  split <;> simp <;> omega

theorem checked_eq_none_iff {n : Nat} : checked n = none ↔ limit ≤ n := by
  unfold checked
  split <;> simp <;> omega

theorem capped_eq_self {n : Nat} (h : n < limit) : capped n = n := by
  unfold capped top
  omega

end NdBuffer.Count
