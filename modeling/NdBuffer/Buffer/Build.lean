import NdBuffer.Buffer.Copy

/-! Building buffers. If the building fails half-way, what has been allocated for it is returned. -/

namespace NdBuffer

/-- The buffer of an operation that has succeeded. After a failure the buffer is dropped. -/
def Outcome.built {α : Type} (o : Outcome α) : Except Error Buffer × Host :=
  match o.result with
  | .ok _ => (.ok o.buffer, o.host)
  | .error e => (.error e, (o.buffer.release o.host).2)

namespace Buffer

variable {t : ElemType}

/-- The outcome of a write. -/
def written (b : Buffer) (h : Host) (r : Except Error Host) : Outcome Unit :=
  match r with
  | .ok h => .done () b h
  | .error e => .failed e b h

/-- A buffer of zeros. -/
def ofShape (s : Shape) (type : ElemType) (device : Device) (h : Host) :
    Except Error Buffer × Host :=
  ((empty type device).resize s h).built

/-- A buffer whose elements are all the same. -/
def full (s : Shape) (v : Elem t) (device : Device) (h : Host) : Except Error Buffer × Host :=
  (((empty t device).resize s h).andThen fun b h => b.written h (b.fill v h)).built

/-- A buffer that holds values, as many as the shape has elements. -/
def ofValues (s : Shape) (vs : List (Elem t)) (device : Device) (h : Host) :
    Except Error Buffer × Host :=
  (((empty t device).resize s h).andThen fun b h => b.unchanged (b.copyValues vs h)).built

/-- A buffer with one element. -/
def scalar (v : Elem t) (device : Device) (h : Host) : Except Error Buffer × Host :=
  full (.line 1) v device h

/-- A buffer that borrows an array of the host. -/
def ofArray (s : Shape) (t : ElemType) (address : Address) (length : Nat) (h : Host) :
    Except Error Buffer × Host :=
  ((empty t .cpu).borrowArray t address length s h).built

/-- A buffer that borrows memory of a device. -/
def ofRaw (s : Shape) (t : ElemType) (address : Option Address) (device : Device) (h : Host) :
    Except Error Buffer × Host :=
  ((empty t device).borrowAt t address s h).built

/-- A copy on a device, with memory of its own. -/
def copyTo (b : Buffer) (device : Device) (h : Host) : Except Error Buffer × Host :=
  let h := if device = b.device then h
    else h.record (.transfer b.device device b.type b.size)
  (((empty b.type device).resize b.shape h).andThen fun copy h =>
    copy.unchanged (copy.copyFrom b h)).built

/-- A copy on the same device. -/
def clone (b : Buffer) (h : Host) : Except Error Buffer × Host := b.copyTo b.device h

end Buffer

end NdBuffer
