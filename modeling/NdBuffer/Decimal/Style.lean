import NdBuffer.Decimal.Shortest

/-! How a decimal is written: with a point between its digits, or with one digit before the point
and a power of ten after an `e`. -/

namespace NdBuffer.Decimal

/-- The powers of ten of the first digit for which a decimal is written with its point in place:
from `least`, and below `bound`. -/
structure Style where
  least : Int
  bound : Int

def zeros (n : Nat) : String := String.ofList (List.replicate n '0')

/-- The digits with the point in place and at least one digit on both sides of it. -/
def positional (digits : List Char) (exponent : Int) : String :=
  let whole : Int := digits.length + exponent
  if 0 ≤ exponent then String.ofList digits ++ zeros exponent.toNat ++ ".0"
  else if 0 < whole then
    String.ofList (digits.take whole.toNat) ++ "." ++ String.ofList (digits.drop whole.toNat)
  else "0." ++ zeros (-whole).toNat ++ String.ofList digits

/-- The first digit, the others after a point if there are any, and the power of ten. -/
def scientific (digits : List Char) (power : Int) : String :=
  let rest := digits.drop 1
  String.ofList (digits.take 1) ++ (if rest = [] then "" else "." ++ String.ofList rest) ++
    "e" ++ toString power

def write (style : Style) (d : Decimal) : String :=
  let digits := Nat.toDigits 10 d.coefficient
  let power : Int := digits.length + d.exponent - 1
  if style.least ≤ power ∧ power < style.bound then positional digits d.exponent
  else scientific digits power

end NdBuffer.Decimal
