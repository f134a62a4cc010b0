import NdBuffer.Buffer.Copy

/-! The elements of a buffer on any device as a list of the host, and the text of a buffer. -/

namespace NdBuffer

/-- What comes of asking for a list. The room for the list is made before the device is asked for
the elements, and if it cannot be made the program does not go on. -/
inductive Listing (α : Type) where
  | listed (value : α)
  | failed (error : Error)
  /-- There can be no such list, because it would take more than half of the address space. -/
  | panicked
  /-- The host does not give the room. -/
  | aborted

namespace Buffer

/-- The room that a list of the elements takes. -/
def listLayout (b : Buffer) (t : ElemType) : Layout := ⟨b.size * t.width, t.width⟩

/-- The elements as a list. No room is needed for none. -/
def toList (b : Buffer) (t : ElemType) (h : Host) : Listing (List (Elem t)) × Host :=
  if t ≠ b.type then (.failed (.typeMismatch b.type t), h)
  else if b.size = 0 then (.listed [], h)
  else if ¬ (b.listLayout t).Valid then (.panicked, h)
  else if ¬ h.heap.Grants (b.listLayout t) then (.aborted, h)
  else match b.device with
    | .cpu => (.listed (b.contents t h.heap), h)
    | .cuda _ =>
      (.failed (.deviceUnavailable b.device), h.record (.crossing b.device .cpu b.size t))

/-- The number of elements that the text of a buffer shows. -/
def preview : Nat := 6

/-- The first line of the text: the first elements, with a mark if there are more. -/
def previewLine {t : ElemType} (b : Buffer) (vs : List (Elem t)) : String :=
  " ".intercalate ((vs.take preview).map Elem.text ++ if preview < b.size then ["..."] else [])

/-- The last line of the text. -/
def caption (b : Buffer) : String :=
  let extents := "x".intercalate (b.extents.map Nat.repr)
  s!"[{b.device.name} {b.type.name} buffer viewed as {extents}]"

/-- The text of a buffer: its first elements, and what it is. -/
def text (b : Buffer) (h : Host) : Listing String × Host :=
  match b.toList b.type h with
  | (.listed vs, h) => (.listed (" " ++ b.previewLine vs ++ "\n" ++ b.caption), h)
  | (.failed _, h) => (.listed (" <unreadable>\n" ++ b.caption), h)
  | (.panicked, h) => (.panicked, h)
  | (.aborted, h) => (.aborted, h)

end Buffer

end NdBuffer
