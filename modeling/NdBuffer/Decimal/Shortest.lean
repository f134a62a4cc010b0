import NdBuffer.Binary.Format

/-! The shortest decimal of a floating-point number: the one with the fewest digits among those that
round to the number, and of these the nearest to it, or the upper one if two are equally near. -/

namespace NdBuffer

/-- The decimal `coefficient * 10 ^ exponent`. -/
structure Decimal where
  coefficient : Nat
  exponent : Int
  deriving DecidableEq

namespace Decimal

/-- The reals that round to a number, in quarters of its unit `2 ^ exponent`. The ends belong to
them if `closed`. -/
structure Interval where
  lower : Nat
  middle : Nat
  upper : Nat
  closed : Bool

/-- The reals that round to `magnitude * 2 ^ exponent`. Below a power of two the numbers of a format
lie twice as close. -/
def interval (f : Binary.Format) (magnitude : Nat) (exponent : Int) : Interval where
  lower :=
    if magnitude = f.leadingBit ∧ f.quantum < exponent then 4 * magnitude - 1
    else 4 * magnitude - 2
  middle := 4 * magnitude
  upper := 4 * magnitude + 2
  closed := magnitude % 2 = 0

/-- The point of the decimal grid with step `grid` that stands for the interval scaled by `scale`:
the neighbour of the middle that is inside, and the nearer one if both are. -/
def pick? (i : Interval) (scale grid : Nat) : Option Nat :=
  let below := i.middle * scale / grid
  let inside (c : Nat) : Bool :=
    (i.lower * scale < c * grid && c * grid < i.upper * scale) ||
      (i.closed && (i.lower * scale == c * grid || c * grid == i.upper * scale))
  let lowerIsNearer : Bool := 2 * (i.middle * scale) < (2 * below + 1) * grid
  match inside below, inside (below + 1) with
  | true, true => some (if lowerIsNearer then below else below + 1)
  | true, false => some below
  | false, true => some (below + 1)
  | false, false => none

/-- The first grid, from the step `10 ^ place` downward, that has a point in an interval whose
quarter units are `2 ^ unit`. -/
def search (i : Interval) (unit : Int) : Nat → Int → Decimal
  | 0, place => ⟨0, place⟩
  | fuel + 1, place =>
    let scale := Nat.pow 10 (-place).toNat <<< unit.toNat
    let grid := Nat.pow 10 place.toNat <<< (-unit).toNat
    match pick? i scale grid with
    | some c => ⟨c, place⟩
    | none => search i unit fuel (place - 1)

/-- A decimal place above every digit of a positive number below `2 ^ bits`. -/
def placeAbove (bits : Int) : Int := bits * 30103 / 100000 + 2

/-- The shortest decimal of `magnitude * 2 ^ exponent`, a positive number of the format. Its digits
begin at most three places below `placeAbove`, and seventeen of them always suffice. -/
def shortest (f : Binary.Format) (magnitude : Nat) (exponent : Int) : Decimal :=
  search (interval f magnitude exponent) (exponent - 2) 24
    (placeAbove (magnitude.log2 + 1 + exponent))

end Decimal

end NdBuffer
