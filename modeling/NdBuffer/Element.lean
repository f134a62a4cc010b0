import NdBuffer.Binary.Distance
import NdBuffer.Bytes
import NdBuffer.Decimal.Style
import NdBuffer.ElemType

/-! Elements: their bits, the bytes that hold them in memory, the values that they stand for, and
their text. -/

namespace NdBuffer

/-- An element is its bits. Copies keep them all, also those of a float that is no number. -/
abbrev Elem (t : ElemType) : Type := BitVec (8 * t.width)

/-- The format of a float type. -/
def ElemType.format? : ElemType → Option Binary.Format
  | f32 => some .single
  | f16 => some .half
  | bf16 => some .brain
  | f64 => some .double
  | i8 | i16 | i32 | i64 | u8 => none

def ElemType.isSigned : ElemType → Bool
  | u8 => false
  | _ => true

namespace Elem

variable {t : ElemType}

/-- The bytes of an element, least significant first. -/
def bytes (v : Elem t) : List UInt8 := Bytes.ofNat t.width v.toNat

def ofBytes (t : ElemType) (bs : List UInt8) : Elem t := BitVec.ofNat _ (Bytes.toNat bs)

/-- The whole number that the bits of an integer type stand for. -/
def toInt (v : Elem t) : Int := if t.isSigned then BitVec.toInt v else v.toNat

/-- What an element stands for. -/
def value (v : Elem t) : Binary.Value :=
  match t.format? with
  | some f => f.decode v.toNat
  | none => .finite (v.toInt < 0) v.toInt.natAbs 0

/-- The element as a double: exact for a float, rounded for an integer, and nothing for what is no
number. -/
def toDouble? (v : Elem t) : Option (BitVec 64) :=
  (Binary.Format.double.encode? v.value).map (BitVec.ofNat 64)

/-- Floats are written in place from a ten thousandth up to below ten to the sixteenth. -/
def style : Decimal.Style := ⟨-4, 16⟩

/-- The format in which a float is written. Half and brain floats are written as singles. -/
def writtenFormat (f : Binary.Format) : Binary.Format := if f = .double then .double else .single

/-- The text of a value of a float type. The decimal is the shortest in the written format, whose
numbers include those of the narrower formats. -/
def floatText (f : Binary.Format) : Binary.Value → String
  | .nan => "NaN"
  | .infinite negative => if negative then "-inf" else "inf"
  | .finite negative magnitude exponent =>
    let sign := if negative then "-" else ""
    match f.decode (f.round magnitude exponent) with
    | .finite _ m e => if m = 0 then sign ++ "0.0" else sign ++ (Decimal.shortest f m e).write style
    | _ => sign ++ "inf"

def text (v : Elem t) : String :=
  match t.format? with
  | some f => floatText (writtenFormat f) v.value
  | none => toString v.toInt

@[simp] theorem length_bytes (v : Elem t) : v.bytes.length = t.width := Bytes.length_ofNat _ _

theorem ofBytes_bytes (v : Elem t) : ofBytes t v.bytes = v := by
  apply BitVec.eq_of_toNat_eq
  simp [ofBytes, bytes, Bytes.toNat_ofNat, Nat.one_shiftLeft]

end Elem

end NdBuffer
