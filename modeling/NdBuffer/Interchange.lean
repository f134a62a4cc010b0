import NdBuffer.Count
import NdBuffer.Device
import NdBuffer.ElemType

/-! Element types and devices as documents of a data format. An element type is its short name, a
device is `"Cpu"` or an object with the one key `Cuda` and the index. A name that stands alone may
also be given as an object with that one key and nothing under it. -/

namespace NdBuffer

/-- A document of nested lists and objects. A number with a fraction or an exponent is a real, even
if its value is whole. -/
inductive Document where
  | null
  | boolean (value : Bool)
  | integer (value : Int)
  | real (written : String)
  | text (value : String)
  | list (items : List Document)
  | object (entries : List (String × Document))

namespace Document

/-- The name that a document stands for, if it is a name with nothing under it. -/
def bareName? : Document → Option String
  | text name => some name
  | object [(name, null)] => some name
  | _ => none

/-- The count that a document stands for, if it is one of 64 bits. -/
def index? : Document → Option UInt64
  | integer value =>
    if 0 ≤ value ∧ value < Count.limit then some (.ofNat value.toNat) else none
  | _ => none

end Document

def ElemType.toDocument (t : ElemType) : Document := .text t.name

def ElemType.ofDocument? (d : Document) : Option ElemType := d.bareName?.bind ElemType.ofName?

def Device.toDocument : Device → Document
  | cpu => .text "Cpu"
  | cuda index => .object [("Cuda", .integer index.toNat)]

def Device.ofDocument? (d : Document) : Option Device :=
  match d with
  | .object [("Cuda", index)] => index.index?.map Device.cuda
  | _ => if d.bareName? = some "Cpu" then some .cpu else none

theorem ElemType.ofDocument?_toDocument (t : ElemType) : ofDocument? t.toDocument = some t :=
  ElemType.ofName?_name t

theorem Device.ofDocument?_toDocument (d : Device) : ofDocument? d.toDocument = some d := by
  cases d with
  | cpu => rfl
  | cuda index =>
    have := index.toNat_lt
    simp [toDocument, ofDocument?, Document.index?, Count.limit]
    omega

end NdBuffer
