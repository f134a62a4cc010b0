import NdBuffer.Proofs.Buffer.Accessing
import NdBuffer.Proofs.Session.Unavailable

/-!
# Lists of elements on a device that is not there

Whoever asks for the elements of a buffer on an accelerator as a list, or for the text of such a
buffer, is to be told that the device is not available, or that nothing can be read. But the room
for the list is made before the device is asked, although none of the elements would be read. There
can be no list of half of the address space or more (`Session.Lists.panicked`), and a smaller one is
for the host to give or to refuse (`Session.Lists.aborted`); in either case the program does not get
to the device. Buffers of every size get to an accelerator, since memory that is never read is not
measured when it is borrowed (`Session.Admits.step`).
-/

namespace NdBuffer

namespace Buffer

variable {b : Buffer} {i : UInt64} {h : Host}

/-- The text of a buffer that cannot be read. -/
def unreadable (b : Buffer) : String :=
  " <unreadable>\n" ++ ("[" ++ b.device.name ++ " " ++ b.type.name ++ " buffer viewed as " ++
    "x".intercalate (b.extents.map Nat.repr) ++ "]")

section
variable (hd : b.device = .cuda i) (hn : 0 < b.size) (hl : h.heap.Grants (b.listLayout b.type))
include hd hn hl

theorem toList_of_cuda :
    b.toList b.type h = (.failed (.deviceUnavailable b.device),
      h.noting (crossings b.device .cpu b.size b.type)) := by
  have hne : b.device ≠ .cpu := by rw [hd]; nofun
  rw [toList, if_neg (not_not.mpr rfl), if_neg (Nat.ne_of_gt hn), if_neg (not_not.mpr hl.1),
    if_neg (not_not.mpr hl), crossings, if_neg hne]
  simp only [hd]
  rfl

theorem text_of_cuda :
    b.text h = (.listed b.unreadable, h.noting (crossings b.device .cpu b.size b.type)) := by
  rw [text, toList_of_cuda hd hn hl, unreadable]
  simp only [caption, toString]

end

end Buffer

namespace Session

variable {s : Session} {k n : Nat} {b : Buffer} {i : UInt64} {t : ElemType} {q : Query}
  {r : Except Error Answer} {m : Heap}

/-! ### The two questions -/

/-- The questions that take a list of all elements, and what they are answered with if there is room
for the list but the elements are on a device that is not there. -/
inductive Lists (b : Buffer) : Query → Except Error Answer → Prop
  | toList : Lists b (.toList b.type) (.error (.deviceUnavailable b.device))
  | text : Lists b .text (.ok (.text b.unreadable))

/-- If the host has room for the list, the answer is that there is no such device. That the elements
were to be copied is remarked in the log, but memory is not looked at. -/
theorem Lists.answered (L : Lists b q r) (hb : s.buffer? k = some b) (hd : b.device = .cuda i)
    (hn : 0 < b.size) (hl : m.Grants (b.listLayout b.type)) :
    (s.withHeap m).step (.query k q) =
      ({ s with host := ⟨m, s.host.log ++ crossings b.device .cpu b.size b.type⟩ },
        .answered r) := by
  have hb : (s.withHeap m).buffer? k = some b := hb
  have hl : (s.withHeap m).host.heap.Grants (b.listLayout b.type) := hl
  rw [step_query hb]
  cases L with
  | toList => rw [queryBuffer, Buffer.toList_of_cuda hd hn hl]; rfl
  | text => rw [queryBuffer, Buffer.text_of_cuda hd hn hl]; rfl

/-- There can be no list of half of the address space. -/
theorem Lists.panicked (L : Lists b q r) (hb : s.buffer? k = some b)
    (hlarge : Layout.extent ≤ b.size * b.type.width) : s.step (.query k q) = (s, .panicked) := by
  rw [step_query hb]
  cases L with
  | toList => rw [queryBuffer, Buffer.toList_of_extent_le hlarge]; rfl
  | text => rw [queryBuffer, Buffer.text, Buffer.toList_of_extent_le hlarge]; rfl

/-- A list that the host has no room for. -/
theorem Lists.aborted (L : Lists b q r) (hb : s.buffer? k = some b) (hn : 0 < b.size)
    (hlt : b.size * b.type.width < Layout.extent)
    (hl : ¬ s.host.heap.Grants (b.listLayout b.type)) :
    s.step (.query k q) = (s, .aborted) := by
  have hroom : ¬ b.HasRoom s.host.heap := not_or.mpr ⟨Nat.ne_of_gt hn, hl⟩
  rw [step_query hb]
  cases L with
  | toList => rw [queryBuffer, Buffer.toList_of_not_grants hlt hroom]; rfl
  | text => rw [queryBuffer, Buffer.text, Buffer.toList_of_not_grants hlt hroom]; rfl

/-! ### Buffers of every size -/

/-- Whether memory of another buffer may be borrowed in a slot, if it is of a buffer at all. Some of
it has to be borrowed then. -/
def MayLend (k n : Nat) (r : Option Region) : Prop :=
  ∀ j, r.bind Region.lender = some j → j ≠ k ∧ 0 < n

/-- On an accelerator it is not asked how much memory there is. -/
theorem MayLend.escapes_eq_false {r : Option Region} (M : MayLend k n r) :
    escapes k (.cuda i) n r = false := by
  have hover : overruns (.cuda i) n r = false := rfl
  rw [escapes, hover, Bool.false_or]
  cases r with
  | none => rfl
  | some r =>
    cases hr : r.lender with
    | none => simp [hr]
    | some j =>
      obtain ⟨hne, hpos⟩ := M j hr
      simp [hr, hne, Nat.ne_of_gt hpos]

/-- The commands that make the buffer of slot `k` borrow memory of an accelerator, in a shape of `n`
elements. -/
inductive Admits (s : Session) (k : Nat) (i : UInt64) (t : ElemType) (shape : Shape) (n : Nat) :
    Command → Prop
  | ofRaw {memory : Memory} {r : Option Region} : s.memory? memory = some (t, r) →
    MayLend k n r → Admits s k i t shape n (.build k (.ofRaw shape memory (.cuda i)))
  | borrowAt {memory : Memory} {r : Option Region} {b : Buffer} :
    s.memory? memory = some (t, r) → MayLend k n r → s.buffer? k = some b → b.type = t →
    b.device = .cuda i → Admits s k i t shape n (.change k (.borrowAt memory shape))

/-- However many elements the shape has, they are taken to be there. -/
theorem Admits.step {c : Command} {shape : Shape} (A : s.Admits k i t shape n c)
    (hs : shape.count? = some n) (hl : s.isLender k = false) :
    (s.step c).2 = .answered (.ok .nothing) ∧ ∃ b, (s.step c).1.buffer? k = some b ∧
      b.type = t ∧ b.device = .cuda i ∧ b.shape = shape ∧ b.size = n := by
  have hn : shape.count = n := Shape.count_eq hs
  cases A with
  | @ofRaw memory r hr M =>
    have hmade : Buffer.ofRaw shape t (r.map Region.address) (.cuda i) s.host =
        (.ok (.borrower t (.cuda i) (r.map Region.address) shape), s.host) := by
      rw [Buffer.ofRaw, Buffer.borrowAt_eq (b := .empty t (.cuda i)) (t := t) rfl hs]
      rfl
    have hsize : (Buffer.borrower t (.cuda i) (r.map Region.address) shape).size = n := hn
    rw [step_build (by simpa [Command.exclusive] using hl)]
    simp only [build, hr, hmade, hsize, M.escapes_eq_false, Bool.false_eq_true, if_false]
    exact ⟨rfl, _, buffer?_put_self .., rfl, rfl, rfl, hn⟩
  | @borrowAt memory r b hr M hb ht hd =>
    obtain ⟨lender, hk⟩ := buffer?_eq_some.mp hb
    have hfits : escapes k b.device shape.count r = false := by
      rw [hd, hn]
      exact M.escapes_eq_false
    rw [step_change_of_get? hk (by simpa [Command.exclusive, Change.isExclusive] using hl)]
    simp only [changeBuffer, hr, Buffer.borrowAt_eq ht.symm hs, hfits, Bool.false_eq_true, if_false]
    exact ⟨rfl, _, buffer?_put_self .., ht, hd, rfl, hn⟩

/-- Lists and texts of the elements of a buffer on an accelerator, of which there is none. A buffer
of any number of elements can be made to borrow there. Whatever is in memory, it is answered that
the device is not available, or that the elements cannot be read, if the host has room for a list of
them. If it has none, the program ends: it panics if there can be no such list at all, because it
would take half of the address space or more, and it is aborted if the host refuses a smaller one.
So there is an answer exactly if the list is smaller and the host gives it. -/
theorem listing_run (system : Allocator) (arrays : List ((t : ElemType) × List (Elem t)))
    (cs : List Command) :
    let s := (Session.start system arrays).run cs
    (∀ k i t shape n c, s.Admits k i t shape n c → shape.checkedCount = .ok n →
      s.isLender k = false →
      (s.step c).2 = .answered (.ok .nothing) ∧ ∃ b, (s.step c).1.buffer? k = some b ∧
        b.type = t ∧ b.device = .cuda i ∧ b.shape = shape ∧ b.size = n) ∧
    ∀ k b i, s.buffer? k = some b → b.device = .cuda i → 0 < b.size → ∀ q r, Lists b q r →
      (∃ es, (∀ e ∈ es, e.isRemark = true) ∧ ∀ m : Heap, m.Grants (b.listLayout b.type) →
        (s.withHeap m).step (.query k q) =
          ({ s with host := ⟨m, s.host.log ++ es⟩ }, .answered r)) ∧
      (∀ m, Layout.extent ≤ b.size * b.type.width →
        (s.withHeap m).step (.query k q) = (s.withHeap m, .panicked)) ∧
      (∀ m : Heap, b.size * b.type.width < Layout.extent → ¬ m.Grants (b.listLayout b.type) →
        (s.withHeap m).step (.query k q) = (s.withHeap m, .aborted)) ∧
      ((s.step (.query k q)).2 = .answered r ↔ b.size * b.type.width < Layout.extent ∧
        s.host.heap.system s.host.heap.usage (b.listLayout b.type) = true) := by
  intro s
  refine ⟨fun k i t shape n c A hs hl => A.step (Shape.checkedCount_eq_ok.mp hs) hl, ?_⟩
  intro k b i hb hd hn q r L
  have hb (m : Heap) : (s.withHeap m).buffer? k = some b := hb
  have hanswered (m : Heap) (hl : m.Grants (b.listLayout b.type)) := L.answered (hb m) hd hn hl
  have hpanicked (m : Heap) (hlarge : Layout.extent ≤ b.size * b.type.width) :=
    L.panicked (hb m) hlarge
  have haborted (m : Heap) (hlt : b.size * b.type.width < Layout.extent)
      (hl : ¬ m.Grants (b.listLayout b.type)) := L.aborted (hb m) hn hlt hl
  refine ⟨⟨_, isRemark_crossings, hanswered⟩, hpanicked, haborted, ?_⟩
  have hgrants : s.host.heap.Grants (b.listLayout b.type) ↔
      b.size * b.type.width < Layout.extent ∧
        s.host.heap.system s.host.heap.usage (b.listLayout b.type) = true := by
    rw [Heap.Grants, Buffer.valid_listLayout_iff hn]
  rw [← hgrants]
  constructor
  · intro hr
    by_contra hl
    rcases Nat.lt_or_ge (b.size * b.type.width) Layout.extent with hlt | hlarge
    · cases (congrArg Prod.snd (haborted s.host.heap hlt hl)).symm.trans hr
    · cases (congrArg Prod.snd (hpanicked s.host.heap hlarge)).symm.trans hr
  · exact fun hl => congrArg Prod.snd (hanswered s.host.heap hl)

/-- A buffer on an accelerator has as many bytes as half of the address space. Asking for a list of
them ends the program, and so does asking for the text, before it is said that there is no such
device. This is so even if the host gives all that can be asked for. -/
theorem panicked_before_device :
    let s := (Session.start (fun _ _ => true) []).run
      [.build 0 (.ofRaw ⟨[0x8000000000000000]⟩ (.null .u8) (.cuda 0))]
    ∃ b, s.buffer? 0 = some b ∧ b.type = .u8 ∧ b.device = .cuda 0 ∧ b.size = 2 ^ 63 ∧
      (s.step (.query 0 (.toList .u8))).2 = .panicked ∧
      (s.step (.query 0 .text)).2 = .panicked ∧
      (s.step (.query 0 (.toList .u8))).2 ≠
        .answered (.error (.deviceUnavailable (.cuda 0))) ∧
      (s.step (.query 0 .text)).2 ≠ .answered (.ok (.text b.unreadable)) := by
  intro s
  have hlist : (s.step (.query 0 (.toList .u8))).2 = .panicked := rfl
  have htext : (s.step (.query 0 .text)).2 = .panicked := rfl
  refine ⟨_, rfl, rfl, rfl, rfl, hlist, htext, ?_, ?_⟩
  · rw [hlist]
    nofun
  · rw [htext]
    nofun

end Session

end NdBuffer
