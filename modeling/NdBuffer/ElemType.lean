/-! The element types that a buffer can hold. -/

namespace NdBuffer

/-- The type of the elements of a buffer: four binary floating-point formats, four signed integer
widths and the unsigned byte. -/
inductive ElemType where
  | f32 | f16 | bf16 | f64 | i8 | i16 | i32 | i64 | u8
  deriving DecidableEq

namespace ElemType

def all : List ElemType := [f32, f16, bf16, f64, i8, i16, i32, i64, u8]

/-- Bytes of one element. -/
def width : ElemType → Nat
  | i8 | u8 => 1
  | f16 | bf16 | i16 => 2
  | f32 | i32 => 4
  | f64 | i64 => 8

def isFloat : ElemType → Bool
  | f32 | f16 | bf16 | f64 => true
  | i8 | i16 | i32 | i64 | u8 => false

def isInteger (t : ElemType) : Bool := !t.isFloat

/-- The short name, which is also how the type is written in messages. -/
def name : ElemType → String
  | f32 => "f32"
  | f16 => "f16"
  | bf16 => "bf16"
  | f64 => "f64"
  | i8 => "i8"
  | i16 => "i16"
  | i32 => "i32"
  | i64 => "i64"
  | u8 => "u8"

/-- The name in capitals. -/
def label (t : ElemType) : String := t.name.toUpper

/-- The names under which the type may be asked for. -/
def aliases : ElemType → List String
  | f32 => ["f32", "float", "float32"]
  | f16 => ["f16", "float16"]
  | bf16 => ["bf16", "bfloat16"]
  | f64 => ["f64", "float64"]
  | i8 => ["i8", "int8"]
  | i16 => ["i16", "int16"]
  | i32 => ["i32", "int32"]
  | i64 => ["i64", "int64"]
  | u8 => ["u8", "uint8"]

/-- The element type whose short name is exactly `s`. -/
def ofName? (s : String) : Option ElemType := all.find? (·.name == s)

/-- The element type that goes by `s`. -/
def ofAlias? (s : String) : Option ElemType := all.find? (·.aliases.contains s)

theorem width_pos (t : ElemType) : 0 < t.width := by cases t <;> decide

theorem width_le (t : ElemType) : t.width ≤ 8 := by cases t <;> decide

theorem ofName?_name (t : ElemType) : ofName? t.name = some t := by cases t <;> decide

end ElemType

end NdBuffer
