import NdBuffer.Buffer.Listing
import NdBuffer.Session.Basic

/-! Carrying out commands. A command that needs a slot for itself is refused while that slot lends
its memory, before anything else is looked at. -/

namespace NdBuffer.Session

/-- The reply to a command that does not keep to the rules. -/
def refuse (s : Session) : Session × Reply := (s, .misuse)

/-- Puts a new buffer into a slot. What the slot held is dropped after the new buffer is built; if
the building has failed the slot keeps it. -/
def install (s : Session) (slot : Nat) (lender : Option Nat)
    (made : Except Error Buffer × Host) : Session × Reply :=
  match made with
  | (.error e, h) => ({ s with host := h }, .answered (.error e))
  | (.ok b, h) =>
    ({ s with host := s.releaseSlot slot h }.put slot b lender, .answered (.ok .nothing))

/-- Whether elements on the host would reach beyond the memory that is there for them. -/
def overruns (device : Device) (count : Nat) (r : Option Region) : Bool :=
  device.isCpu && r.elim 0 Region.length < count

/-- Whether the buffer of a slot cannot borrow elements. They must not reach beyond the memory that
is there for them, and memory of a buffer must be that of another one, which lends some of it. -/
def escapes (slot : Nat) (device : Device) (count : Nat) (r : Option Region) : Bool :=
  overruns device count r || r.any fun r => r.lender == some slot || r.lender.isSome && count == 0

/-- Builds a buffer into a slot. -/
def build (s : Session) (slot : Nat) : Build → Session × Reply
  | .empty type device => s.install slot none (.ok (.empty type device), s.host)
  | .ofShape shape type device => s.install slot none (Buffer.ofShape shape type device s.host)
  | .full shape v device => s.install slot none (Buffer.full shape v device s.host)
  | .ofValues shape vs device => s.install slot none (Buffer.ofValues shape vs device s.host)
  | .scalar v device => s.install slot none (Buffer.scalar v device s.host)
  | .ofArray shape part =>
    match s.region? part with
    | some r => s.install slot none (Buffer.ofArray shape r.type r.address r.length s.host)
    | none => s.refuse
  | .ofRaw shape memory device =>
    match s.memory? memory with
    | some (t, r) =>
      match Buffer.ofRaw shape t (r.map Region.address) device s.host with
      | (.ok b, h) =>
        if escapes slot device b.size r then s.refuse
        else s.install slot (r.bind Region.lender) (.ok b, h)
      | made => s.install slot none made
    | none => s.refuse
  | .view source =>
    match s.otherBuffer? slot source with
    | some b =>
      let (view, h) := b.view s.host
      s.install slot (some source) (.ok view, h)
    | none => s.refuse
  | .clone source =>
    match s.buffer? source with
    | some b => s.install slot none (b.clone s.host)
    | none => s.refuse
  | .copyTo source device =>
    match s.buffer? source with
    | some b => s.install slot none (b.copyTo device s.host)
    | none => s.refuse
  | .take source =>
    match s.otherBuffer? slot source with
    | some b =>
      let lender := (s.slots.get? source).bind Slot.lender
      (s.put source b.emptied none).install slot lender (.ok b, s.host)
    | none => s.refuse

/-- Leaves in a slot what an operation has made of its buffer. -/
def conclude {α : Type} (s : Session) (slot : Nat) (lender : Option Nat) (answer : α → Answer)
    (o : Outcome α) : Session × Reply :=
  ({ s with host := o.host }.put slot o.buffer lender, .answered (o.result.map answer))

/-- Leaves the effect of a write. The buffer of the slot is as it was. -/
def concludeWrite {α : Type} (s : Session) (answer : α → Answer)
    (r : Except Error (α × Host)) : Session × Reply :=
  match r with
  | .ok (value, h) => ({ s with host := h }, .answered (.ok (answer value)))
  | .error e => (s, .answered (.error e))

/-- Leaves the effect of a copy. The buffer of the slot is as it was. -/
def concludeCopy (s : Session) (r : Except Error Unit × Host) : Session × Reply :=
  ({ s with host := r.2 }, .answered (r.1.map fun _ => .nothing))

def nothing (_ : Unit) : Answer := .nothing

/-- Changes the buffer of a slot. The slot keeps its lender when its buffer is made to borrow an
array instead, or nothing. -/
def changeBuffer (s : Session) (slot : Nat) (b : Buffer) (lender : Option Nat) :
    Change → Session × Reply
  | .reshape shape => s.conclude slot lender nothing (b.reshape shape s.host)
  | .resize shape => s.conclude slot lender nothing (b.resize shape s.host)
  | .resizeAxis axis extent => s.conclude slot lender nothing (b.resizeAxis axis extent s.host)
  | .resizeLike other =>
    match s.otherBuffer? slot other with
    | some o => s.conclude slot lender nothing (b.resizeLike o s.host)
    | none => s.refuse
  | .grow axis extra => s.conclude slot lender nothing (b.grow axis extra s.host)
  | .shrink axis amount => s.conclude slot lender nothing (b.shrink axis amount s.host)
  | .reserve count => s.conclude slot lender nothing (b.reserve count s.host)
  | .clear => s.conclude slot lender nothing (.done () b.clear s.host)
  | .release =>
    let (b, h) := b.release s.host
    s.conclude slot lender nothing (.done () b h)
  | .borrow other =>
    match s.otherBuffer? slot other with
    | some o =>
      let (b, h) := b.borrow o s.host
      s.conclude slot (some other) nothing (.done () b h)
    | none => s.refuse
  | .duplicate other =>
    match s.otherBuffer? slot other with
    | some o => s.conclude slot lender nothing (b.duplicate o s.host)
    | none => s.refuse
  | .copyFrom other =>
    match s.otherBuffer? slot other with
    | some o => s.concludeCopy (b.copyFrom o s.host)
    | none => s.refuse
  | .swap other =>
    match s.otherBuffer? slot other with
    | some o =>
      let otherLender := (s.slots.get? other).bind Slot.lender
      ((s.put slot o otherLender).put other b lender, .answered (.ok .nothing))
    | none => s.refuse
  | .fill v => s.concludeWrite nothing ((b.fill v s.host).map fun h => ((), h))
  | .copyValues vs => s.concludeCopy (b.copyValues vs s.host)
  | .copyElements memory count device =>
    match s.memory? memory with
    | some (t, r) =>
      let source : Source t := .memory (r.map Region.address)
      let copied := b.copyElements source count device s.host
      if copied.1.isOk ∧ overruns device count r then s.refuse else s.concludeCopy copied
    | none => s.refuse
  | .borrowArray part shape =>
    match s.region? part with
    | some r =>
      s.conclude slot lender nothing (b.borrowArray r.type r.address r.length shape s.host)
    | none => s.refuse
  | .borrowAt memory shape =>
    match s.memory? memory with
    | some (t, r) =>
      let o := b.borrowAt t (r.map Region.address) shape s.host
      if ¬ o.result.isOk then s.conclude slot lender nothing o
      else if escapes slot b.device shape.count r then s.refuse
      else s.conclude slot ((r.bind Region.lender).or lender) nothing o
    | none => s.refuse
  | .set offset v => s.concludeWrite .element (b.set offset v s.host)
  | .setAt indices v => s.concludeWrite .element (b.setAt indices v s.host)
  | .setDataFrom indices vs => s.concludeWrite .number (b.setDataFrom indices vs s.host)
  | .setData vs => s.concludeWrite .number (b.setData vs s.host)
  | .drop =>
    ({ s with host := (b.release s.host).2, slots := s.slots.erase slot },
      .answered (.ok .nothing))

def change (s : Session) (slot : Nat) (what : Change) : Session × Reply :=
  match s.slots.get? slot with
  | some ⟨b, lender⟩ => s.changeBuffer slot b lender what
  | none => s.refuse

/-- A reading that changes nothing. -/
def report {α : Type} (s : Session) (answer : α → Answer) (r : Except Error α) : Session × Reply :=
  (s, .answered (r.map answer))

/-- A reading that may have been logged, or may have ended the program. -/
def reportListing {α : Type} (s : Session) (answer : α → Answer) (r : Listing α × Host) :
    Session × Reply :=
  match r with
  | (.listed value, h) => ({ s with host := h }, .answered (.ok (answer value)))
  | (.failed e, h) => ({ s with host := h }, .answered (.error e))
  | (.panicked, h) => ({ s with host := h }, .panicked)
  | (.aborted, h) => ({ s with host := h }, .aborted)

def queryBuffer (s : Session) (b : Buffer) : Query → Session × Reply
  | .buffer => s.report .buffer (.ok b)
  | .shape => s.report .text (.ok b.shape.text)
  | .data t => s.report .elements (b.data t s.host.heap)
  | .toList t => s.reportListing .elements (b.toList t s.host)
  | .get t offset => s.report .element (b.get t offset s.host.heap)
  | .getAt t indices => s.report .element (b.getAt t indices s.host.heap)
  | .dataFrom t indices => s.report .elements (b.dataFrom t indices s.host.heap)
  | .fetch t indices => s.report .element (b.fetch t indices s.host.heap)
  | .offset indices => s.report .number (b.offset indices)
  | .extent axis => s.report .number (b.shape.extent axis)
  | .stride axis =>
    match b.strideAt axis with
    | some r => s.report .number r
    | none => (s, .panicked)
  | .text => s.reportListing .text (b.text s.host)
  | .label => s.report .text (.ok b.label)
  | .isNull t => s.report (fun _ => .flag b.isNull) (b.expectType t)
  | .samePlace other t =>
    match s.buffer? other with
    | some o =>
      let answer (_ : Unit) : Answer :=
        if b.capacity = 0 ∨ o.capacity = 0 then .nothing else .flag (b.address? == o.address?)
      s.report answer (do b.expectType t; o.expectType t)
    | none => s.refuse
  | .close other tolerance =>
    match s.buffer? other with
    | some o => s.concludeCopy (b.checkClose o tolerance s.host)
    | none => s.refuse

def query (s : Session) (slot : Nat) (what : Query) : Session × Reply :=
  match s.buffer? slot with
  | some b => s.queryBuffer b what
  | none => s.refuse

/-- Carries out a command. -/
def step (s : Session) (c : Command) : Session × Reply :=
  if c.exclusive.any s.isLender then (s, .frozen)
  else match c with
    | .build slot how => s.build slot how
    | .change slot what => s.change slot what
    | .query slot what => s.query slot what

/-- Carries out commands one after the other. -/
def run (s : Session) (cs : List Command) : Session := cs.foldl (fun s c => (s.step c).1) s

/-- Drops the buffers of all slots in ascending order. -/
def finish (s : Session) : Session :=
  { s with
    host := s.slots.entries.foldl (fun h e => (e.2.buffer.release h).2) s.host
    slots := ∅ }

end NdBuffer.Session
