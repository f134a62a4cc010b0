import NdBuffer.Proofs.Session.Copies
import NdBuffer.Proofs.Session.Refitting
import NdBuffer.Proofs.Shape.Offsets

/-!
# Resizes that succeed

A buffer that is given a shape either keeps its memory, with every byte in it, or gets a new block
of zeros in its place, and what decides is whether there is room for the elements
(`Buffer.Resized`). The other operations of the resize family work out a shape first, without
limits on the way, and then are a resize to that shape (`Session.Asks.step_eq`).
-/

namespace NdBuffer

namespace Buffer

variable {b c : Buffer} {s : Shape} {n : Nat} {h : Host}

/-- The ways in which a resize to `n` elements can succeed. -/
inductive Resized (b : Buffer) (s : Shape) (n : Nat) (h : Host) : Outcome Unit → Prop
  | kept : n ≤ b.capacity → Resized b s n h (.done () (b.setShape s) h)
  | renewed {bytes : Nat} {h' : Host} : b.capacity < n → b.device = .cpu →
    h'.heap.blocks = (b.release h).2.heap.blocks ++ [.zeroed ⟨bytes, standardAlignment⟩] →
    Resized b s n h (.done () ((owner b.type h.heap.blocks.length n bytes).setShape s) h')

theorem resized_of_ok {u : Unit} (hs : s.count? = some n)
    (hok : (b.resize s h).result = .ok u) : b.Resized s n h (b.resize s h) := by
  have R := b.resizing s h
  revert hok
  generalize b.resize s h = o at R
  intro hok
  cases R with
  | kept hs' hn =>
    cases hs.symm.trans hs'
    exact .kept hn
  | replaced hs' hn _ hd _ halloc =>
    cases hs.symm.trans hs'
    obtain ⟨-, rfl, rfl⟩ := Heap.alloc_ok halloc
    have hheap := heap_release_congr (h.heap_record (b.growth n)) b
    have hlength : (b.release (h.record (b.growth n))).2.heap.blocks.length =
        h.heap.blocks.length := by rw [length_blocks_release, Host.heap_record]
    rw [hlength]
    refine .renewed hn hd ?_
    rw [Host.heap_record]
    simp only [hheap, Heap.blocks_add]
  | overflow _ | denied _ _ _ _ | tooLarge _ _ _ _ | refused _ _ _ _ => cases hok

/-- A buffer that has got a shape of `n` elements, whatever has become of the memory. -/
structure Shaped (b : Buffer) (s : Shape) (n : Nat) (c : Buffer) : Prop where
  type : c.type = b.type
  device : c.device = b.device
  shape : c.shape = s
  size : c.size = n
  strides : c.strides = (Shape.weights s.extents).map Count.capped
  exact : 0 < n → c.strides = Shape.weights s.extents
  capacity : c.capacity = max b.capacity n

theorem shaped_setShape (hs : s.count? = some n) (ht : c.type = b.type)
    (hd : c.device = b.device) (hn : c.capacity = max b.capacity n) :
    b.Shaped s n (c.setShape s) where
  type := ht
  device := hd
  shape := rfl
  size := Shape.count_eq hs
  strides := Shape.stridesOf_eq s.extents
  exact := Shape.strides_of_pos hs
  capacity := hn

theorem Resized.shaped {o : Outcome Unit} (R : b.Resized s n h o) (hs : s.count? = some n) :
    b.Shaped s n o.buffer := by
  cases R with
  | kept hn => exact shaped_setShape hs rfl rfl (Nat.max_eq_left hn).symm
  | renewed hn hd _ =>
    exact shaped_setShape hs rfl hd.symm (Nat.max_eq_right (Nat.le_of_lt hn)).symm

/-- Elements that there are before and after a change of shape are the same ones. -/
theorem getElem?_contents_setShape (hs : s.count? = some n) {t : ElemType} {m : Heap} {i : Nat}
    (hi : i < b.size) (hn : i < n) :
    ((b.setShape s).contents t m)[i]? = (b.contents t m)[i]? := by
  rw [contents_setShape, contents, Shape.count_eq hs]
  cases b.address? with
  | none => rfl
  | some a => rw [Heap.getElem?_elements hi, Heap.getElem?_elements hn]

end Buffer

namespace Session

variable {s s' : Session} {k n : Nat} {b c : Buffer} {what : Change} {shape : Shape} {a : Answer}

/-- The shape that a change of the resize family asks for: the one that it names, that of another
buffer, or that of the buffer with one extent replaced, increased or decreased. -/
inductive Asks (s : Session) (k : Nat) (b : Buffer) : Change → Shape → Prop
  | resize {shape : Shape} : Asks s k b (.resize shape) shape
  | resizeAxis {axis : Nat} {extent : UInt64} {shape : Shape} : axis < b.rank →
    shape.extents = b.extents.set axis extent.toNat →
    Asks s k b (.resizeAxis axis extent) shape
  | resizeLike {other : Nat} {o : Buffer} : s.otherBuffer? k other = some o →
    Asks s k b (.resizeLike other) o.shape
  | grow {axis extra d : Nat} {shape : Shape} : b.extents[axis]? = some d →
    shape.extents = b.extents.set axis (d + extra) → Asks s k b (.grow axis extra) shape
  | shrink {axis amount d : Nat} {shape : Shape} : b.extents[axis]? = some d → amount ≤ d →
    shape.extents = b.extents.set axis (d - amount) → Asks s k b (.shrink axis amount) shape

/-! ### The shape that is asked for -/

theorem extents_shapeWith (b : Buffer) (axis : Nat) {extent : Nat} (h : extent < Count.limit) :
    (b.shapeWith axis extent).extents = b.extents.set axis extent := by
  rw [Buffer.shapeWith, Shape.extents_set, UInt64.toNat_ofNat_of_lt' h]
  rfl

/-- What stands in for an extent of a shape is a count as well. -/
theorem lt_limit_of_extents_set {axis d extent : Nat} (hd : b.extents[axis]? = some d)
    (hs : shape.extents = b.extents.set axis extent) : extent < Count.limit := by
  have haxis : axis < b.extents.length := (List.getElem?_eq_some_iff.mp hd).1
  exact Shape.lt_limit_of_mem_extents (hs ▸ List.mem_set haxis extent)

theorem Asks.isResize (A : s.Asks k b what shape) : what.isResize = true := by
  cases A <;> rfl

theorem Asks.shapeAsked?_eq (A : s.Asks k b what shape) :
    s.shapeAsked? k b what = some shape := by
  cases A with
  | resize => rfl
  | resizeAxis haxis hs =>
    rw [shapeAsked?, if_pos haxis, Shape.eq_of_extents ((Shape.extents_set ..).trans hs.symm)]
  | resizeLike ho => rw [shapeAsked?, ho]; rfl
  | grow hd hs =>
    have hlt := lt_limit_of_extents_set hd hs
    have hadd := Count.checked_eq_some_iff.mpr ⟨rfl, hlt⟩
    rw [shapeAsked?, hd, Option.bind_some, Count.add?, hadd, Option.map_some,
      Shape.eq_of_extents ((extents_shapeWith b _ hlt).trans hs.symm)]
  | shrink hd hle hs =>
    have hlt := lt_limit_of_extents_set hd hs
    rw [shapeAsked?, hd, Option.bind_some, if_pos hle,
      Shape.eq_of_extents ((extents_shapeWith b _ hlt).trans hs.symm)]

theorem asks_of_shapeAsked? (hwhat : what.isResize = true)
    (hs : s.shapeAsked? k b what = some shape) : s.Asks k b what shape := by
  cases what with
  | resize _ => cases hs; exact .resize
  | resizeAxis axis extent =>
    obtain ⟨haxis, rfl⟩ : axis < b.rank ∧ _ = shape := by simpa [shapeAsked?] using hs
    exact .resizeAxis haxis (Shape.extents_set ..)
  | resizeLike other =>
    obtain ⟨o, ho, rfl⟩ := Option.map_eq_some_iff.mp hs
    exact .resizeLike ho
  | grow axis extra =>
    obtain ⟨d, hd, hs⟩ := Option.bind_eq_some_iff.mp hs
    obtain ⟨n, hn, rfl⟩ := Option.map_eq_some_iff.mp hs
    obtain ⟨rfl, hlt⟩ := Count.checked_eq_some_iff.mp hn
    exact .grow hd (extents_shapeWith b axis hlt)
  | shrink axis amount =>
    obtain ⟨d, hd, hs⟩ := Option.bind_eq_some_iff.mp hs
    obtain ⟨hle, hs⟩ := Option.ite_none_right_eq_some.mp hs
    cases hs
    have hlt : d - amount < Count.limit := Nat.lt_of_le_of_lt (Nat.sub_le d amount)
      (Shape.lt_limit_of_mem_extents (List.mem_of_getElem? hd))
    exact .shrink hd hle (extents_shapeWith b axis hlt)
  | _ => cases hwhat

/-- A change that asks for a shape does what a resize to that shape does. -/
theorem Asks.step_eq (A : s.Asks k b what shape) (hb : s.buffer? k = some b) :
    s.step (.change k what) = s.step (.change k (.resize shape)) := by
  obtain ⟨lender, hk⟩ := buffer?_eq_some.mp hb
  have hexclusive : (Command.change k what).exclusive =
      (Command.change k (.resize shape)).exclusive := Change.exclusive_of_isResize A.isResize k
  by_cases hl : ∀ j ∈ (Command.change k what).exclusive, s.isLender j = false
  · rw [step_change_of_get? hk hl, changeBuffer_of_isResize A.isResize A.shapeAsked?_eq]
    rw [hexclusive] at hl
    exact (step_change_of_get? hk hl).symm
  · rw [step_of_frozen hl]
    rw [hexclusive] at hl
    exact (step_of_frozen hl).symm

/-- A change that succeeds has asked for a shape. -/
theorem exists_asks (hb : s.buffer? k = some b) (hwhat : what.isResize = true)
    (hr : (s.step (.change k what)).2 = .answered (.ok a)) : ∃ shape, s.Asks k b what shape := by
  obtain ⟨lender, hk, hstep⟩ := exists_lender_of_answered hb hr
  cases hs : s.shapeAsked? k b what with
  | some shape => exact ⟨shape, asks_of_shapeAsked? hwhat hs⟩
  | none =>
    rw [hstep] at hr
    rcases changeBuffer_of_not_asked hwhat hs lender with he | ⟨e, he⟩
    · rw [he] at hr
      cases hr
    · rw [he] at hr
      cases hr

/-! ### What a resize leaves behind -/

/-- Nothing in the session is different but the shape of the buffer `b` of slot `k`. -/
structure Kept (s : Session) (k : Nat) (b : Buffer) (shape : Shape) (s' : Session) (c : Buffer) :
    Prop where
  host : s'.host = s.host
  others : ∀ j, j ≠ k → s'.slots.get? j = s.slots.get? j
  refitted : b.Refitted shape s.host.heap c
  /-- The elements that there were before are still there, as far as the new shape has them. -/
  elements : ∀ t i, i < b.size → i < c.size →
    (c.contents t s'.host.heap)[i]? = (b.contents t s.host.heap)[i]?

/-- The buffer of slot `k` has a block of zeros, which there was not before and which nothing else
in the session has a part in. -/
structure Renewed (s : Session) (k : Nat) (s' : Session) (c : Buffer) : Prop where
  ownsMemory : c.ownsMemory = true
  address : c.address? = some ⟨s.host.heap.blocks.length, 0⟩
  alone : s'.HasAlone k s.host.heap.blocks.length
  zeroed : s'.host.heap.blocks[s.host.heap.blocks.length]? = some (.zeroed ⟨c.reserved, 64⟩)
  data : c.data c.type s'.host.heap = .ok (List.replicate c.size 0)

/-- A slot that is given a buffer of its own lends nothing, if it lent nothing before. -/
theorem isLender_conclude {α : Type} {o : Outcome α} {answer : α → Answer} {lender : Option Nat}
    (hl : s.isLender k = false) (hlender : lender ≠ some k) :
    (s.conclude k lender answer o).1.isLender k = false :=
  isLender_put (s := { s with host := o.host }) hl hlender k

theorem resize_of_answered (H : s.Sound) (hb : s.buffer? k = some b) (hs : shape.count? = some n)
    (hr : (s.step (.change k (.resize shape))).2 = .answered (.ok a)) :
    let s' := (s.step (.change k (.resize shape))).1
    ∃ c, s'.buffer? k = some c ∧ b.Shaped shape n c ∧
      (n ≤ b.capacity → s.Kept k b shape s' c) ∧ (b.capacity < n → s.Renewed k s' c) := by
  have hl : s.isLender k = false := not_frozen_of_answered hr k List.mem_cons_self
  have H' : (s.step (.change k (.resize shape))).1.Sound := sound_step H _
  obtain ⟨lender, hk, hstep⟩ := exists_lender_of_answered hb hr
  have hlender : (s.conclude k lender nothing (b.resize shape s.host)).1.isLender k = false :=
    isLender_conclude hl (isLender_eq_false.mp hl k _ hk)
  rw [hstep] at hr H' ⊢
  obtain ⟨u, hok⟩ := ok_of_conclude hr
  have R := Buffer.resized_of_ok hs hok
  simp only [changeBuffer] at hr H' ⊢
  have hself : (s.conclude k lender nothing (b.resize shape s.host)).1.buffer? k =
      some (b.resize shape s.host).buffer := buffer?_put_self ..
  refine ⟨_, hself, R.shaped hs, fun hle => ?_, fun hlt => ?_⟩
  · rw [Buffer.resize_of_le hs hle]
    refine ⟨rfl, fun j hj => Table.get?_put_of_ne _ _ hj, b.refitted_setShape _ _, ?_⟩
    intro t i hi hin
    exact Buffer.getElem?_contents_setShape hs hi (Shape.count_eq hs ▸ hin)
  · revert hself H' hlender
    generalize b.resize shape s.host = o at R
    intro H' hlender hself
    cases R with
    | kept hn => exact absurd hlt (Nat.not_lt.mpr hn)
    | @renewed bytes h' _ hd hblocks =>
      have hblock : h'.heap.blocks[s.host.heap.blocks.length]? =
          some (.zeroed ⟨bytes, standardAlignment⟩) := by
        rw [hblocks, ← b.length_blocks_release s.host]
        simp
      have hcontents := Heap.elements_of_zeroed (t := b.type)
        (a := ⟨s.host.heap.blocks.length, 0⟩) hblock shape.count
      refine ⟨rfl, rfl, hasAlone_of_isOwner H' hself hlender rfl rfl, hblock, ?_⟩
      exact (Buffer.data_eq_ok rfl rfl).trans (congrArg _ hcontents)

/-! ### All of it -/

/-- Resizing. After a resize that has succeeded the buffer has the shape, its type and its device
are what they were, and its capacity has not shrunk. If there was room for the elements, nothing but
the shape is different, and the elements are what the memory held before. If there was none, the
buffer owns a new block, which is no other's, and all elements are zero. The other operations of the
resize family do what a resize does to the shape that they ask for, and they fail if there is no
such shape. -/
theorem resizing_run (system : Allocator) (arrays : List ((t : ElemType) × List (Elem t)))
    (cs : List Command) {k : Nat}
    {b : Buffer} (hb : ((Session.start system arrays).run cs).buffer? k = some b) :
    let s := (Session.start system arrays).run cs
    (∀ shape n a, shape.checkedCount = .ok n →
      (s.step (.change k (.resize shape))).2 = .answered (.ok a) →
      let s' := (s.step (.change k (.resize shape))).1
      ∃ c, s'.buffer? k = some c ∧ b.Shaped shape n c ∧
        (n ≤ b.capacity → s.Kept k b shape s' c) ∧ (b.capacity < n → s.Renewed k s' c)) ∧
    (∀ what shape, s.Asks k b what shape →
      s.step (.change k what) = s.step (.change k (.resize shape))) ∧
    ∀ what a, what.isResize = true → (s.step (.change k what)).2 = .answered (.ok a) →
      ∃ shape, s.Asks k b what shape := by
  intro s
  have H : s.Sound := sound_run system arrays cs
  refine ⟨fun shape n a hs hr => ?_, fun what shape A => A.step_eq hb, fun what a => exists_asks hb⟩
  exact resize_of_answered H hb (Shape.checkedCount_eq_ok.mp hs) hr

/-- Two bytes that have been made one are still in memory, and one more than two are all zero. -/
theorem resizing_run_ofValues :
    let s := (Session.start (.below 4096) []).run
      [.build 0 (.ofValues ⟨[2]⟩ (t := .u8) [1, 2] .cpu)]
    let small := (s.step (.change 0 (.shrink 0 1))).1
    let large := (s.step (.change 0 (.grow 0 1))).1
    ∃ b, s.buffer? 0 = some b ∧
      (∃ c, small.buffer? 0 = some c ∧ s.Kept 0 b ⟨[1]⟩ small c) ∧
      ∃ c, large.buffer? 0 = some c ∧ b.Shaped ⟨[3]⟩ 3 c ∧ s.Renewed 0 large c := by
  intro s small large
  obtain ⟨hresize, hasks, -⟩ := resizing_run (.below 4096) []
    [.build 0 (.ofValues ⟨[2]⟩ (t := .u8) [1, 2] .cpu)] (k := 0) rfl
  have hsmall := hasks (.shrink 0 1) ⟨[1]⟩ (.shrink rfl (by decide) rfl)
  have hlarge := hasks (.grow 0 1) ⟨[3]⟩ (.grow rfl rfl)
  obtain ⟨c, hc, -, hkept, -⟩ := hresize ⟨[1]⟩ 1 .nothing rfl rfl
  obtain ⟨d, hd, hshaped, -, hrenewed⟩ := hresize ⟨[3]⟩ 3 .nothing rfl rfl
  rw [← hsmall] at hc hkept
  rw [← hlarge] at hd hrenewed
  exact ⟨_, rfl, ⟨c, hc, hkept (by decide)⟩, d, hd, hshaped, hrenewed (by decide)⟩

end Session

end NdBuffer
