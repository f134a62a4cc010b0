import NdBuffer.Buffer.Listing
import NdBuffer.Proofs.Buffer.Move
import NdBuffer.Proofs.Buffer.Resizing

/-!
# The operations on buffers as chains of moves

The resize family, `reserve`, `clear`, `release` and `duplicate` are chains of moves of the buffer.
Writes and copies leave the buffer as it is, and they edit the host at the address of the buffer
only (`edits_copyElements`, `edits_fill`). A constructor is a chain of moves from an empty buffer,
and if it fails nothing of it is left (`Built`).
-/

namespace NdBuffer

open Relation

/-- The buffer and the host that an operation leaves behind. -/
def Outcome.after {α : Type} (o : Outcome α) : Buffer × Host := (o.buffer, o.host)

namespace Host

variable {a? : Option Address} {h h' : Host}

theorem edits_log {e : Event} (he : e.isRemark = true) : Edits a? h (h.record e) :=
  .single (.log he)

theorem edits_write {a : Address} (ha : a? = some a) (bytes : List UInt8) :
    Edits a? h { h with heap := h.heap.write a bytes } :=
  .single (.write 0 bytes ha)

theorem edits_deliver {t : ElemType} (s : Source t) (count : Nat) (h : Host) :
    Edits a? h (h.onHeap (s.deliver a? count)) := by
  rw [onHeap]
  cases s with
  | memory address =>
    cases address with
    | none => exact .refl
    | some source =>
      cases a? with
      | none => exact .refl
      | some a => exact edits_write rfl (h.heap.bytesAt source (count * t.width))
  | values vs =>
    cases a? with
    | none => exact .refl
    | some a => exact edits_write rfl (vs.flatMap Elem.bytes)

theorem edits_transfer {t : ElemType} (count : Nat) (source : Device) (s : Source t)
    (target : Device) (h : Host) : Edits a? h (transfer count source s target a? h).2 := by
  rw [transfer]
  split
  · exact .refl
  · have hlog : Edits a? h
        (if source = target then h else h.record (.crossing source target count t)) := by
      split
      · exact .refl
      · exact edits_log rfl
    cases source with
    | cuda index => exact hlog
    | cpu =>
      cases target with
      | cuda index => exact hlog
      | cpu => exact hlog.trans (edits_deliver s count _)

end Host

namespace Buffer

variable {b : Buffer} {h h' : Host} {t : ElemType}

theorem edits_copyElements (s : Source t) (count : Nat) (source : Device) (h : Host) :
    Host.Edits b.address? h (b.copyElements s count source h).2 := by
  rw [copyElements]
  split
  · exact .refl
  · split
    · exact .refl
    · exact Host.edits_transfer ..

theorem edits_copyFrom (b other : Buffer) (h : Host) :
    Host.Edits b.address? h (b.copyFrom other h).2 := by
  rw [copyFrom]
  split
  · exact .refl
  · exact edits_copyElements ..

theorem edits_overwrite (b : Buffer) (offset : Nat) (vs : List (Elem t)) (h : Host) :
    Host.Edits b.address? h (b.overwrite offset vs h) := by
  rw [overwrite]
  split
  · exact .single (.write _ _ ‹_›)
  · exact .refl

theorem edits_fill {v : Elem t} (hok : b.fill v h = .ok h') : Host.Edits b.address? h h' := by
  rw [fill] at hok
  cases ht : b.expectType t with
  | error e => simp [ht, bind, Except.bind] at hok
  | ok u =>
    simp only [ht, bind, Except.bind, pure, Except.pure] at hok
    split at hok
    · cases hok; exact .refl
    · split at hok
      · cases hok
      · cases hok
        exact edits_overwrite ..

/-- What an owner edits is its own memory. -/
theorem Moves.of_edits (hb : b.isOwner = true) (E : Host.Edits b.address? h h') :
    Moves (b, h) (b, h') := by
  induction E with
  | refl => exact .refl
  | tail _ E ih => exact ih.tail (.edit (by rwa [ownAddress?, if_pos hb]))

theorem moves_log {e : Event} (he : e.isRemark = true) : Moves (b, h) (b, h.record e) :=
  .single (.edit (.log he))

theorem Moves.andThen {α β : Type} {p : Buffer × Host} {o : Outcome α}
    {next : Buffer → Host → Outcome β} (M : Moves p o.after)
    (hnext : ∀ v, o.result = .ok v → Moves o.after (next o.buffer o.host).after) :
    Moves p (o.andThen next).after := by
  rw [Outcome.andThen]
  split
  · exact M.trans (hnext _ ‹_›)
  · exact M

theorem moves_allocate (b : Buffer) (n : Nat) (h : Host) :
    Moves (b, h) (b.allocate n h).after := by
  have A := b.allocation n h
  generalize b.allocate n h = o at A
  cases A with
  | overflow _ => exact .refl
  | refused _ => exact .single .letGo
  | nothing _ => exact .single .letGo
  | granted hn hd hbytes ha =>
    have hrelease : Moves (b, h) (empty b.type .cpu, (b.release h).2) := by
      rw [← hd]
      exact .single .letGo
    exact hrelease.tail (.acquire hn hbytes ha)

theorem moves_resize (b : Buffer) (s : Shape) (h : Host) : Moves (b, h) (b.resize s h).after := by
  have hgrow (n : Nat) : Moves (b, h) (b, h.record (b.growth n)) :=
    moves_log rfl
  have R := b.resizing s h
  generalize b.resize s h = o at R
  cases R with
  | overflow _ | denied _ _ _ _ => exact .refl
  | kept hs hn => exact .single (.shape hs hn)
  | @tooLarge n _ _ _ _ => exact hgrow n
  | @refused n _ _ _ _ _ => exact (hgrow n).tail .letGo
  | @replaced n bytes block heap hs hn _ hd hbytes ha =>
    have hrelease : Moves (b, h) (empty b.type .cpu, (b.release (h.record (b.growth n))).2) := by
      rw [← hd]
      exact (hgrow n).tail .letGo
    exact (hrelease.tail (.acquire (Nat.zero_lt_of_lt hn) hbytes ha)).tail
      (.shape hs (Nat.le_refl n))

/-- An operation of the resize family fails before it touches anything, or ends as a resize. -/
theorem moves_of_cases {o : Outcome Unit}
    (ho : (∃ e, e.isRefusal = false ∧ o = .failed e b h) ∨ ∃ s, o = b.resize s h) :
    Moves (b, h) o.after := by
  rcases ho with ⟨e, -, rfl⟩ | ⟨s, rfl⟩
  · exact .refl
  · exact b.moves_resize s h

theorem moves_reserve (b : Buffer) (n : Nat) (h : Host) : Moves (b, h) (b.reserve n h).after := by
  rw [reserve]
  split
  · exact .refl
  · exact b.moves_allocate n h

/-- An owner stays one through a chain of moves. -/
theorem Moves.isOwner {p q : Buffer × Host} (M : Moves p q) (hp : p.1.isOwner = true) :
    q.1.isOwner = true := by
  rcases M.place with hplace | ho
  · exact hplace.isOwner.trans hp
  · exact ho

/-- Giving an owner the shape of another buffer and then its elements. -/
theorem moves_resizeLike_copyFrom (hb : b.isOwner = true) (other : Buffer) (h : Host) :
    Moves (b, h)
      ((b.resizeLike other h).andThen fun b h => b.unchanged (b.copyFrom other h)).after := by
  have M : Moves (b, h) (b.resizeLike other h).after := b.moves_resize other.shape h
  exact M.andThen fun _ _ => .of_edits (Moves.isOwner M hb) (edits_copyFrom ..)

theorem makeWay_cases (b other : Buffer) (h : Host) :
    b.makeWay other h = (empty other.type other.device, (b.release h).2) ∨
      b.type = other.type ∧ b.device = other.device ∧ b.isOwner = true ∧
        b.makeWay other h = (b, h) := by
  rw [makeWay]
  split
  · exact .inl rfl
  · rename_i hb
    simp only [not_or, not_not, Bool.not_eq_true, isBorrowed, Bool.not_eq_false'] at hb
    exact .inr ⟨hb.1, hb.2.1, hb.2.2, rfl⟩

theorem moves_duplicate (b other : Buffer) (h : Host) :
    Moves (b, h) (b.duplicate other h).after := by
  rw [duplicate]
  rcases b.makeWay_cases other h with he | ⟨-, -, hb, he⟩
  · have hrelease : Moves (b, h) (empty other.type other.device, (b.release h).2) :=
      (ReflTransGen.single .letGo).tail .retag
    rw [he]
    exact hrelease.trans (moves_resizeLike_copyFrom rfl other _)
  · rw [he]
    exact moves_resizeLike_copyFrom hb other h

/-! ### Constructors -/

/-- The result of building a buffer: an empty buffer has moved on, and what has been built is given
back if the building fails. -/
inductive Built (h : Host) : Except Error Buffer × Host → Prop
  | done {type : ElemType} {device : Device} {b : Buffer} {h' : Host} :
    Moves (empty type device, h) (b, h') → Built h (.ok b, h')
  | failed {type type' : ElemType} {device device' : Device} {e : Error} {h' : Host} :
    Moves (empty type device, h) (empty type' device', h') → Built h (.error e, h')

theorem built_of_moves {α : Type} {type : ElemType} {device : Device} {o : Outcome α}
    (M : Moves (empty type device, h) o.after) : Built h o.built := by
  rw [Outcome.built]
  split
  · exact .done M
  · exact .failed (M.tail .letGo)

/-- Filling or copying into a buffer that has just got its shape. -/
theorem built_resize_andThen {α : Type} {type : ElemType} {device : Device} {s : Shape}
    {next : Buffer → Host → Outcome α}
    (hnext : ∀ b h, b.isOwner = true → Moves (b, h) (next b h).after) :
    Built h (((empty type device).resize s h).andThen next).built := by
  have M := (empty type device).moves_resize s h
  exact built_of_moves (M.andThen fun _ _ => hnext _ _ (Moves.isOwner M rfl))

theorem built_ofShape (s : Shape) (type : ElemType) (device : Device) (h : Host) :
    Built h (ofShape s type device h) :=
  built_of_moves ((empty type device).moves_resize s h)

theorem built_full (s : Shape) (v : Elem t) (device : Device) (h : Host) :
    Built h (full s v device h) :=
  built_resize_andThen fun b h hb => by
    cases hf : b.fill v h with
    | error e => exact .refl
    | ok h' => exact Moves.of_edits hb (edits_fill hf)

theorem built_ofValues (s : Shape) (vs : List (Elem t)) (device : Device) (h : Host) :
    Built h (ofValues s vs device h) :=
  built_resize_andThen fun _ _ hb => .of_edits hb (edits_copyElements ..)

theorem built_copyTo (b : Buffer) (device : Device) (h : Host) : Built h (b.copyTo device h) := by
  have hcopy (h : Host) : Built h (((empty b.type device).resize b.shape h).andThen
      fun copy h => copy.unchanged (copy.copyFrom b h)).built :=
    built_resize_andThen fun _ _ hb => .of_edits hb (edits_copyFrom ..)
  rw [copyTo]
  split
  · exact hcopy h
  · have hlog {type : ElemType} {device' : Device} : Moves (empty type device', h)
        (empty type device', h.record (.transfer b.device device b.type b.size)) :=
      moves_log rfl
    have hbuilt := hcopy (h.record (.transfer b.device device b.type b.size))
    revert hbuilt
    generalize Outcome.built _ = made
    rintro ⟨M⟩
    · exact .done (hlog.trans ‹_›)
    · exact .failed (hlog.trans ‹_›)

end Buffer

end NdBuffer
