import NdBuffer.Binary.Format

/-! Rounding to a binary format: to the nearest number, and to the one with the even last bit if two
are equally near. -/

namespace NdBuffer.Binary

/-- `n / 2 ^ shift` rounded to the nearest whole number, halves to the even one. -/
def shiftRounded (n shift : Nat) : Nat :=
  let quotient := n >>> shift
  let rest := n % (1 <<< shift)
  if 1 <<< shift < 2 * rest ∨ (1 <<< shift = 2 * rest ∧ quotient % 2 = 1) then quotient + 1
  else quotient

namespace Format

/-- The exponent of the last bit that the format has for `magnitude * 2 ^ exponent`. -/
def lastPlace (f : Format) (magnitude : Nat) (exponent : Int) : Int :=
  max (exponent + magnitude.log2 - f.fractionBits) f.quantum

/-- The bits of `magnitude * 2 ^ exponent` rounded. A number is its units in the last place, plus
one step of the exponent for each place that the last one stands above the lowest, so a rounding
that carries into the next power of two needs no case of its own. -/
def round (f : Format) (magnitude : Nat) (exponent : Int) : Nat :=
  if magnitude = 0 then 0 else
  let last := f.lastPlace magnitude exponent
  let units := shiftRounded (magnitude <<< (exponent - last).toNat) (last - exponent).toNat
  min ((last - f.quantum).toNat <<< f.fractionBits + units) f.infinity

/-- The bits of a value that is a number, rounded. -/
def encode? (f : Format) : Value → Option Nat
  | .nan => none
  | .infinite negative => some (f.infinity + if negative then f.signBit else 0)
  | .finite negative magnitude exponent =>
    some (f.round magnitude exponent + if negative then f.signBit else 0)

end Format

end NdBuffer.Binary
