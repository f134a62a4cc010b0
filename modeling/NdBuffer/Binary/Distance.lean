import NdBuffer.Binary.Rounding

/-! Equality of floating-point values, and the distance between them as it is computed in the double
format. -/

namespace NdBuffer.Binary

namespace Value

/-- Equality of numbers: the two zeros are one number, and what is no number equals nothing. The
two values are taken to be of one format. -/
def equals : Value → Value → Bool
  | finite _ 0 _, finite _ 0 _ => true
  | finite s m e, finite s' m' e' => s == s' && m == m' && e == e'
  | infinite s, infinite s' => s == s'
  | _, _ => false

/-- The signed number of units of `2 ^ base` in a finite value with an exponent not below `base`. -/
def units (base : Int) (negative : Bool) (magnitude : Nat) (exponent : Int) : Int :=
  let n : Nat := magnitude <<< (exponent - base).toNat
  if negative then -n else n

/-- The magnitude bits of the rounded difference of two values in the double format, if the
difference is a number. -/
def distance? : Value → Value → Option Nat
  | nan, _ => none
  | _, nan => none
  | infinite s, infinite s' => if s = s' then none else some Format.double.infinity
  | infinite _, finite .. => some Format.double.infinity
  | finite .., infinite _ => some Format.double.infinity
  | finite s m e, finite s' m' e' =>
    let base := min e e'
    some (Format.double.round (units base s m e - units base s' m' e').natAbs base)

end Value

/-- Whether a double is a number above zero. -/
def isPositive (bits : BitVec 64) : Bool := 0 < bits.toNat && bits.toNat ≤ Format.double.infinity

/-- Whether two values are at most `tolerance` apart, which is a double above zero. -/
def Value.within (tolerance : BitVec 64) (a b : Value) : Bool :=
  match a.distance? b with
  | some d => d ≤ tolerance.toNat
  | none => false

end NdBuffer.Binary
