import NdBuffer.Error
import NdBuffer.Text.Blank
import NdBuffer.Text.Numeral

/-! Reading the written names of element types and devices. Letters may be capital or small. A
device may have blanks around it; an element type may not. -/

namespace NdBuffer

open Text

def ElemType.parse (s : String) : Except Error ElemType :=
  let text := String.ofList (lower s.toList)
  match ElemType.ofAlias? text with
  | some t => .ok t
  | none => .error (.parse s!"unknown dtype '{text}'")

/-- A device name split at its first colon: what stands before, and what stands after if there is a
colon. -/
def splitAtColon (cs : List Char) : List Char × Option (List Char) :=
  (cs.takeWhile (· ≠ ':'), (cs.dropWhile (· ≠ ':')).tail?)

/-- The device of a name that is trimmed and in small letters. An accelerator without an index is
the first one. -/
def Device.ofName (name : List Char) (written : String) : Except Error Device :=
  match splitAtColon name with
  | (kind, none) =>
    if kind = "cpu".toList then .ok .cpu
    else if kind = "cuda".toList then .ok (.cuda 0)
    else .error (.parse s!"unknown device '{written}'")
  | (kind, some index) =>
    if kind = "cuda".toList then
      match readCount? index with
      | some n => .ok (.cuda (.ofNat n))
      | none => .error (.parse s!"invalid CUDA device index in '{written}'")
    else .error (.parse s!"unknown device '{written}'")

def Device.parse (s : String) : Except Error Device :=
  Device.ofName (lower (trim s.toList)) s

end NdBuffer
