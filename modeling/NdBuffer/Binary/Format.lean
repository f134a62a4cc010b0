/-! Binary floating-point formats. A finite number of a format is a whole number of units times a
power of two, and the bits of its magnitude, read as a number, are in the order of the
magnitudes. -/

namespace NdBuffer.Binary

/-- The number of bits of the exponent and of the fraction. One more bit before them is the
sign. -/
structure Format where
  exponentBits : Nat
  fractionBits : Nat
  deriving DecidableEq

/-- What a bit pattern stands for: `magnitude * 2 ^ exponent` if it is finite. -/
inductive Value where
  | nan
  | infinite (negative : Bool)
  | finite (negative : Bool) (magnitude : Nat) (exponent : Int)
  deriving DecidableEq

namespace Format

def half : Format := ⟨5, 10⟩
def brain : Format := ⟨8, 7⟩
def single : Format := ⟨8, 23⟩
def double : Format := ⟨11, 52⟩

/-- The exponent of the smallest positive number. -/
def quantum (f : Format) : Int :=
  2 - (1 <<< (f.exponentBits - 1) : Nat) - f.fractionBits

/-- The bit before the fraction, which every number has except those with the least exponent. -/
def leadingBit (f : Format) : Nat := 1 <<< f.fractionBits

/-- The magnitude bits of infinity. Larger ones belong to no number. -/
def infinity (f : Format) : Nat := (1 <<< f.exponentBits - 1) <<< f.fractionBits

def signBit (f : Format) : Nat := 1 <<< (f.exponentBits + f.fractionBits)

def isNegative (f : Format) (bits : Nat) : Bool := bits / f.signBit % 2 == 1

/-- The bits without the sign. -/
def magnitudeBits (f : Format) (bits : Nat) : Nat := bits % f.signBit

def decode (f : Format) (bits : Nat) : Value :=
  let negative := f.isNegative bits
  let rest := f.magnitudeBits bits
  let fraction := rest % f.leadingBit
  let biased := rest / f.leadingBit
  if rest = f.infinity then .infinite negative
  else if f.infinity < rest then .nan
  else if biased = 0 then .finite negative fraction f.quantum
  else .finite negative (f.leadingBit + fraction) (f.quantum + (biased - 1))

end Format

end NdBuffer.Binary
