import NdBuffer.Buffer.Basic

/-! What can be done in a session: build a buffer into a slot, change the buffer of a slot, or ask
something about it. Slots are named by numbers. -/

namespace NdBuffer

/-- A part of an array, from its beginning and to its end unless said otherwise. -/
structure Part where
  array : Nat
  offset : Option Nat
  length : Option Nat

/-- What a pointer leads to. -/
inductive Memory where
  /-- Nothing. -/
  | null (t : ElemType)
  | part (p : Part)
  /-- The memory of a buffer, from an element on. -/
  | within (slot : Nat) (offset : Nat)
  /-- The same memory, as elements of another type. -/
  | cast (m : Memory) (t : ElemType)

/-- The ways to build a buffer. -/
inductive Build where
  | empty (type : ElemType) (device : Device)
  | ofShape (shape : Shape) (type : ElemType) (device : Device)
  | full (shape : Shape) {t : ElemType} (v : Elem t) (device : Device)
  | ofValues (shape : Shape) {t : ElemType} (vs : List (Elem t)) (device : Device)
  | scalar {t : ElemType} (v : Elem t) (device : Device)
  | ofArray (shape : Shape) (part : Part)
  | ofRaw (shape : Shape) (memory : Memory) (device : Device)
  | view (source : Nat)
  | clone (source : Nat)
  | copyTo (source : Nat) (device : Device)
  | take (source : Nat)

/-- The ways to change a buffer. -/
inductive Change where
  | reshape (shape : Shape)
  | resize (shape : Shape)
  | resizeAxis (axis : Nat) (extent : UInt64)
  | resizeLike (other : Nat)
  | grow (axis extra : Nat)
  | shrink (axis amount : Nat)
  | reserve (count : Nat)
  | clear
  | release
  | borrow (other : Nat)
  | duplicate (other : Nat)
  | copyFrom (other : Nat)
  | swap (other : Nat)
  | fill {t : ElemType} (v : Elem t)
  | copyValues {t : ElemType} (vs : List (Elem t))
  | copyElements (memory : Memory) (count : Nat) (device : Device)
  | borrowArray (part : Part) (shape : Shape)
  | borrowAt (memory : Memory) (shape : Shape)
  | set {t : ElemType} (offset : Nat) (v : Elem t)
  | setAt {t : ElemType} (indices : List Nat) (v : Elem t)
  | setDataFrom {t : ElemType} (indices : List Nat) (vs : List (Elem t))
  | setData {t : ElemType} (vs : List (Elem t))
  | drop

/-- What can be asked about a buffer. -/
inductive Query where
  | buffer
  | shape
  | data (t : ElemType)
  | toList (t : ElemType)
  | get (t : ElemType) (offset : Nat)
  | getAt (t : ElemType) (indices : List Nat)
  | dataFrom (t : ElemType) (indices : List Nat)
  | fetch (t : ElemType) (indices : List Nat)
  | offset (indices : List Nat)
  | extent (axis : Int)
  | stride (axis : Int)
  | text
  | label
  | isNull (t : ElemType)
  | samePlace (other : Nat) (t : ElemType)
  | close (other : Nat) (tolerance : BitVec 64)

inductive Command where
  | build (slot : Nat) (how : Build)
  | change (slot : Nat) (what : Change)
  | query (slot : Nat) (what : Query)

/-- What a command that succeeds is answered with. -/
inductive Answer where
  | nothing
  | number (n : Nat)
  | flag (b : Bool)
  | text (s : String)
  | element {t : ElemType} (v : Elem t)
  | elements {t : ElemType} (vs : List (Elem t))
  | buffer (b : Buffer)

inductive Reply where
  /-- A slot that lends its memory stands in the way. -/
  | frozen
  /-- The command does not keep to the rules: it names what is not there, or reaches beyond an
  array. -/
  | misuse
  /-- The program panics: there can be no list of so many bytes, or an axis has no stride. -/
  | panicked
  /-- The program is ended, because the host does not give the room for a list. -/
  | aborted
  | answered (result : Except Error Answer)

/-- Whether a change may only be made while nothing borrows from the slot. -/
def Change.isExclusive : Change → Bool
  | reshape _ | clear | copyFrom _ | fill _ | copyValues _ | copyElements .. | set .. | setAt ..
  | setDataFrom .. | setData _ => false
  | resize _ | resizeAxis .. | resizeLike _ | grow .. | shrink .. | reserve _ | release
  | borrow _ | duplicate _ | swap _ | borrowArray .. | borrowAt .. | drop => true

/-- The slots from which nothing may be borrowed while the command is carried out. -/
def Command.exclusive : Command → List Nat
  | build slot (.take source) => [slot, source]
  | build slot _ => [slot]
  | change slot (.swap other) => [slot, other]
  | change slot what => if what.isExclusive then [slot] else []
  | query .. => []

end NdBuffer
