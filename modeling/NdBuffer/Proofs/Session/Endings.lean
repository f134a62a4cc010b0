import NdBuffer.Proofs.Buffer.Writing
import NdBuffer.Proofs.Session.Bench
import NdBuffer.Session.Step

/-!
# How commands end

One inductive predicate for building and one for changing lists every way in which a command of that
kind can end, with the session and the reply that it leaves behind. The commands that end alike
share a constructor, so what is said about all commands is proved by a handful of cases
(`Session.building`, `Session.changing`).
-/

namespace NdBuffer

/-! ### Kinds of changes -/

namespace Change

/-- Whether a change writes elements and leaves the buffer itself as it is. -/
def isWrite : Change → Bool
  | fill _ | copyFrom _ | copyValues _ | copyElements .. | set .. | setAt .. | setDataFrom ..
  | setData _ => true
  | _ => false

/-- Whether a change may replace the memory of the buffer by a new block. -/
def mayAllocate : Change → Bool
  | resize _ | resizeAxis .. | resizeLike _ | grow .. | shrink .. | reserve _ => true
  | _ => false

/-- Whether a change keeps the memory and gives the buffer another shape, or none. -/
def isReshape : Change → Bool
  | reshape _ | clear => true
  | _ => false

/-- Whether a change ends as a resize does. -/
def isResize : Change → Bool
  | resize _ | resizeAxis .. | resizeLike _ | grow .. | shrink .. => true
  | _ => false

/-- Whether a change makes the buffer borrow memory of the host that is no buffer's. -/
def isAssignment : Change → Bool
  | borrowArray .. | borrowAt .. => true
  | _ => false

variable {what : Change}

theorem isReshape_spec (h : what.isReshape = true) :
    what.isWrite = false ∧ what.mayAllocate = false := by
  cases what <;> first | exact ⟨rfl, rfl⟩ | cases h

theorem isResize_spec (h : what.isResize = true) :
    what.isWrite = false ∧ what.mayAllocate = true ∧ what.isExclusive = true := by
  cases what <;> first | exact ⟨rfl, rfl, rfl⟩ | cases h

theorem isAssignment_spec (h : what.isAssignment = true) :
    what.isWrite = false ∧ what.mayAllocate = false ∧ what.isExclusive = true := by
  cases what <;> first | exact ⟨rfl, rfl, rfl⟩ | cases h

theorem isWrite_spec (h : what.isWrite = true) : what.mayAllocate = false := by
  cases what <;> first | rfl | cases h

theorem exclusive_of_isWrite (h : what.isWrite = true) (k : Nat) :
    (Command.change k what).exclusive = [] := by
  cases what <;> first | rfl | cases h

theorem exclusive_of_isResize (h : what.isResize = true) (k : Nat) :
    (Command.change k what).exclusive = [k] := by
  cases what <;> first | rfl | cases h

end Change

/-- Elements to be written, from a position on. -/
structure Patch where
  type : ElemType
  position : Nat
  values : List (Elem type)

/-- The elements that a change writes through the buffer `b` of slot `k`, and from which position
on. -/
def Session.patch? (s : Session) (k : Nat) (b : Buffer) : Change → Option Patch
  | .fill v => some ⟨_, 0, List.replicate b.size v⟩
  | .copyValues vs => some ⟨_, 0, vs⟩
  | .copyFrom other =>
    (s.otherBuffer? k other).map fun o => ⟨b.type, 0, o.contents b.type s.host.heap⟩
  | .copyElements memory count _ =>
    (s.memory? memory).map fun (t, r) =>
      let source : Source t := .memory (r.map Region.address)
      ⟨t, 0, source.elements s.host.heap count⟩
  | .set position v => some ⟨_, position, [v]⟩
  | .setAt indices v => (b.offset indices).toOption.map fun position => ⟨_, position, [v]⟩
  | .setDataFrom indices vs =>
    (b.offset indices).toOption.map fun position => ⟨_, position, vs.take (b.size - position)⟩
  | .setData vs => some ⟨_, 0, vs.take b.size⟩
  | _ => none

namespace Session

variable {s : Session} {k : Nat} {b : Buffer} {lender : Option Nat} {what : Change}

/-! ### Parts of arrays and other buffers -/

theorem otherBuffer?_eq_some {other : Nat} :
    s.otherBuffer? k other = some b ↔ k ≠ other ∧ ∃ l, s.slots.get? other = some ⟨b, l⟩ := by
  unfold otherBuffer? buffer?
  split
  · simp [*]
  · rename_i hne
    simp only [Option.map_eq_some_iff, ne_eq, hne, not_false_eq_true, true_and]
    constructor
    · rintro ⟨⟨b, l⟩, hget, rfl⟩
      exact ⟨l, hget⟩
    · rintro ⟨l, hget⟩
      exact ⟨_, hget, rfl⟩

/-- A part of an array lies in the array. -/
theorem exists_of_region? {p : Part} {r : Region} (hr : s.region? p = some r) :
    ∃ arr ∈ s.arrays, r.address.block = arr.block ∧
      r.address.offset + r.length * r.type.width ≤ arr.length * arr.type.width := by
  rw [region?] at hr
  split at hr
  · cases hr
  · rename_i arr harr
    dsimp only at hr
    split at hr
    · rename_i hle
      cases hr
      refine ⟨arr, List.mem_of_getElem? harr, rfl, ?_⟩
      simpa only [← Nat.add_mul] using Nat.mul_le_mul_right arr.type.width hle
    · cases hr

/-- A part of an array lies there for whoever borrows no more of it than there is. -/
theorem lies_of_region? {p : Part} {r : Region} {device : Device} {n : Nat} {lender : Option Nat}
    (hr : s.region? p = some r) (hn : device = .cpu → n ≤ r.length) :
    Lies s.arrays s.slots r.type device n lender (some r.address) := by
  obtain ⟨arr, harr, hblock, hle⟩ := exists_of_region? hr
  refine .array harr hblock fun hd => Nat.le_trans ?_ hle
  exact Nat.add_le_add_left (Nat.mul_le_mul_right _ (hn hd)) _

/-- The memory that a pointer leads to, if it leads anywhere: it lies in an array, or in the memory
of the buffer of a slot. -/
inductive Within (s : Session) (r : Region) : Prop
  | array {arr : HostArray} : arr ∈ s.arrays → r.lender = none → r.address.block = arr.block →
    r.address.offset + r.length * r.type.width ≤ arr.length * arr.type.width → Within s r
  | slot {j : Nat} {sl : Slot} {a : Address} : s.slots.get? j = some sl → r.lender = some j →
    sl.buffer.address? = some a → r.address.block = a.block →
    (0 < r.length → sl.buffer.device = .cpu ∧ r.address.offset + r.length * r.type.width ≤
      a.offset + sl.buffer.capacity * sl.buffer.type.width) → Within s r

theorem within_of_region? {p : Part} {r : Region} (hr : s.region? p = some r) : s.Within r := by
  obtain ⟨arr, harr, hblock, hle⟩ := exists_of_region? hr
  refine .array harr ?_ hblock hle
  rw [region?] at hr
  split at hr
  · cases hr
  · dsimp only at hr
    split at hr <;> cases hr
    rfl

theorem within_of_lentRegion? {j offset : Nat} {type : ElemType} {r : Region}
    (hr : s.lentRegion? j offset = some (type, some r)) : r.type = type ∧ s.Within r := by
  rw [lentRegion?, buffer?] at hr
  cases hj : s.slots.get? j with
  | none => simp [hj] at hr
  | some sl =>
    simp only [hj, Option.map_some] at hr
    cases ha : sl.buffer.address? with
    | none =>
      simp only [ha] at hr
      split at hr <;> cases hr
    | some a =>
      simp only [ha] at hr
      split at hr
      · rename_i hle
        cases hr
        refine ⟨rfl, .slot hj rfl ha rfl fun hpos => ?_⟩
        cases hd : sl.buffer.device with
        | cuda index => simp [hd, Device.isCpu] at hpos
        | cpu =>
          have hsum : offset + (sl.buffer.capacity - offset) = sl.buffer.capacity := by omega
          refine ⟨rfl, Nat.le_of_eq ?_⟩
          simp only [Address.advance, Device.isCpu, if_true]
          rw [Nat.add_assoc, ← Nat.add_mul, hsum]
      · cases hr

/-- Read as elements of another type, the memory is no larger. -/
theorem Within.cast? {t : ElemType} {r r' : Region} (H : s.Within r) (hr : r.cast? t = some r') :
    r'.type = t ∧ s.Within r' := by
  rw [Region.cast?] at hr
  split at hr
  · cases hr
    have hle : r.length * r.type.width / t.width * t.width ≤ r.length * r.type.width :=
      Nat.div_mul_le_self ..
    refine ⟨rfl, ?_⟩
    cases H with
    | array harr hlender hblock hfits =>
      exact .array harr hlender hblock (Nat.le_trans (Nat.add_le_add_left hle _) hfits)
    | slot hj hlender ha hblock hfits =>
      refine .slot hj hlender ha hblock fun hpos => ?_
      have hlength : 0 < r.length := Nat.pos_of_ne_zero fun hzero => by
        simp [hzero] at hpos
      obtain ⟨hd, hfits⟩ := hfits hlength
      exact ⟨hd, Nat.le_trans (Nat.add_le_add_left hle _) hfits⟩
  · cases hr

theorem within_of_memory? {m : Memory} {type : ElemType} {r : Region}
    (hm : s.memory? m = some (type, some r)) : r.type = type ∧ s.Within r := by
  induction m generalizing type r with
  | null t => cases hm
  | part p =>
    obtain ⟨r', hr, hm⟩ := Option.map_eq_some_iff.mp hm
    cases hm
    exact ⟨rfl, within_of_region? hr⟩
  | within j offset => exact within_of_lentRegion? hm
  | cast m t ih =>
    rw [memory?] at hm
    split at hm
    · cases hm
    · rename_i r' hm'
      obtain ⟨r'', hcast, hm⟩ := Option.map_eq_some_iff.mp hm
      cases hm
      exact (ih hm').2.cast? hcast
    · cases hm

/-- Memory that a buffer may borrow lies where it should, and belongs to another slot if to any. -/
theorem lies_of_memory? {m : Memory} {type : ElemType} {r : Option Region} {device : Device}
    {n : Nat} (hm : s.memory? m = some (type, r)) (hn : escapes k device n r = false)
    (lender : Option Nat) :
    Lies s.arrays s.slots type device n ((r.bind Region.lender).or lender)
      (r.map Region.address) := by
  rw [escapes, Bool.or_eq_false_iff] at hn
  obtain ⟨hover, hescape⟩ := hn
  have hle (hd : device = .cpu) : n ≤ r.elim 0 Region.length := by
    simpa [overruns, hd, Device.isCpu] using hover
  cases r with
  | none => exact .nowhere fun hd => Nat.eq_zero_of_le_zero (hle hd)
  | some r =>
    have hfits (hd : device = .cpu) : n * r.type.width ≤ r.length * r.type.width :=
      Nat.mul_le_mul_right _ (hle hd)
    obtain ⟨rfl, hwithin⟩ := within_of_memory? hm
    cases hwithin with
    | array harr hlender hblock hle =>
      exact .array harr hblock fun hd => Nat.le_trans (Nat.add_le_add_left (hfits hd) _) hle
    | @slot j sl a hj hlender ha hblock hslot =>
      have hpos : 0 < n := by
        refine Nat.pos_of_ne_zero fun hzero => ?_
        simp [hlender, hzero] at hescape
      rw [Option.bind_some, hlender, Option.some_or]
      refine .lent hj ha hblock hpos fun hd => ?_
      obtain ⟨hd', hroom⟩ := hslot (Nat.lt_of_lt_of_le hpos (hle hd))
      exact ⟨hd', Nat.le_trans (Nat.add_le_add_left (hfits hd) _) hroom⟩

theorem lender_ne_of_escapes {device : Device} {n : Nat} {r : Option Region}
    (hn : escapes k device n r = false) : r.bind Region.lender ≠ some k := by
  cases r with
  | none => nofun
  | some r =>
    intro hlender
    have hlender : r.lender = some k := hlender
    simp [escapes, hlender] at hn

/-! ### Building -/

/-- The ways in which building a buffer into slot `k` ends. -/
inductive Building (s : Session) (k : Nat) : Build → Session × Reply → Prop
  | refused {how : Build} : Building s k how s.refuse
  | failed {how : Build} {e : Error} {h : Host} : Buffer.Built s.host (.error e, h) →
    Building s k how ({ s with host := h }, .answered (.error e))
  | built {how : Build} {b : Buffer} {h : Host} : Buffer.Built s.host (.ok b, h) →
    Building s k how (s.install k none (.ok b, h))
  | borrower {how : Build} {type : ElemType} {device : Device} {lender : Option Nat}
      {address : Option Address} {shape : Shape} {n : Nat} : shape.count? = some n →
    lender ≠ some k → Lies s.arrays s.slots type device n lender address →
    Building s k how (s.install k lender (.ok (.borrower type device address shape), s.host))
  | view {source : Nat} {b : Buffer} : s.otherBuffer? k source = some b →
    Building s k (.view source) (s.install k (some source) (.ok b.lent, s.host))
  | take {source : Nat} {b : Buffer} {l : Option Nat} : k ≠ source →
    s.slots.get? source = some ⟨b, l⟩ →
    Building s k (.take source) ((s.put source b.emptied none).install k l (.ok b, s.host))

theorem building_install {how : Build} {made : Except Error Buffer × Host}
    (B : Buffer.Built s.host made) : s.Building k how (s.install k none made) := by
  obtain ⟨e | b, h⟩ := made
  · exact .failed B
  · exact .built B

theorem building (s : Session) (k : Nat) (how : Build) : s.Building k how (s.build k how) := by
  cases how with
  | empty type device => exact .built (.done .refl)
  | ofShape shape type device => exact building_install (Buffer.built_ofShape shape type device _)
  | full shape v device => exact building_install (Buffer.built_full shape v device _)
  | ofValues shape vs device => exact building_install (Buffer.built_ofValues shape vs device _)
  | scalar v device => exact building_install (Buffer.built_full (.line 1) v device _)
  | ofArray shape part =>
    simp only [build, Buffer.ofArray]
    split
    · rename_i r hr
      rcases (Buffer.empty r.type .cpu).borrowArray_cases r.type r.address r.length shape
        s.host with ⟨e, -, ho⟩ | ⟨-, -, hs, ho⟩
      · rw [ho]
        exact building_install (Buffer.built_of_moves .refl)
      · rw [ho]
        exact .borrower hs nofun (lies_of_region? hr fun _ => Nat.le_refl r.length)
    · exact .refused
  | ofRaw shape memory device =>
    simp only [build, Buffer.ofRaw]
    split
    · rename_i t r hm
      rcases (Buffer.empty t device).borrowAt_cases t (r.map Region.address) shape s.host with
        ⟨e, -, ho⟩ | ⟨-, ⟨n, hs⟩, ho⟩
      · rw [ho]
        exact building_install
          (Buffer.built_of_moves (o := Outcome.failed e (.empty t device) s.host) .refl)
      · have hn : (Buffer.borrower t device (r.map Region.address) shape).size = n :=
          Shape.count_eq hs
        rw [ho]
        simp only [Outcome.done, Outcome.built]
        split
        · exact .refused
        · rename_i hescape
          have hescape : escapes k device n r = false := hn ▸ Bool.eq_false_iff.mpr hescape
          have hlies := lies_of_memory? hm hescape none
          rw [Option.or_none] at hlies
          exact .borrower hs (lender_ne_of_escapes hescape) hlies
    · exact .refused
  | view source =>
    simp only [build]
    split
    · exact .view ‹_›
    · exact .refused
  | clone source =>
    simp only [build]
    split
    · exact building_install (Buffer.built_copyTo ..)
    · exact .refused
  | copyTo source device =>
    simp only [build]
    split
    · exact building_install (Buffer.built_copyTo ..)
    · exact .refused
  | take source =>
    simp only [build]
    split
    · rename_i b hother
      obtain ⟨hne, l, hget⟩ := otherBuffer?_eq_some.mp hother
      simp only [hget, Option.bind_some]
      exact .take hne hget
    · exact .refused

/-! ### Changing -/

/-- The ways in which a change of the buffer `b` of slot `k` ends. -/
inductive Changing (s : Session) (k : Nat) (b : Buffer) (lender : Option Nat) :
    Change → Session × Reply → Prop
  | refused {what : Change} : Changing s k b lender what s.refuse
  | reshaped {what : Change} {o : Outcome Unit} : what.isReshape = true →
    ((∃ e, e.isRefusal = false ∧ o = .failed e b s.host) ∨
      ∃ c, b.Reshaped c ∧ o = .done () c s.host) →
    Changing s k b lender what (s.conclude k lender nothing o)
  | resized {what : Change} {o : Outcome Unit} : what.isResize = true →
    ((∃ e, e.isRefusal = false ∧ o = .failed e b s.host) ∨ ∃ shape, o = b.resize shape s.host) →
    Changing s k b lender what (s.conclude k lender nothing o)
  | reserve {n : Nat} :
    Changing s k b lender (.reserve n) (s.conclude k lender nothing (b.reserve n s.host))
  | release : Changing s k b lender .release
      (s.conclude k lender nothing (.done () (.empty b.type b.device) (b.release s.host).2))
  | duplicate {other : Nat} {c : Buffer} : s.otherBuffer? k other = some c →
    Changing s k b lender (.duplicate other)
      (s.conclude k lender nothing (b.duplicate c s.host))
  | borrow {other : Nat} {c : Buffer} : s.otherBuffer? k other = some c →
    Changing s k b lender (.borrow other)
      (s.conclude k (some other) nothing (.done () c.lent (b.release s.host).2))
  | unassigned {what : Change} {e : Error} : what.isAssignment = true → e.isRefusal = false →
    Changing s k b lender what (s.conclude k lender nothing (.failed e b s.host))
  | assigned {what : Change} {lending : Option Nat} {address : Option Address} {shape : Shape}
      {n : Nat} : what.isAssignment = true → shape.count? = some n →
    (lending = lender ∨ lending ≠ some k) →
    Lies s.arrays s.slots b.type b.device n lending address →
    Changing s k b lender what (s.conclude k lending nothing
      (.done () (.borrower b.type b.device address shape) (b.release s.host).2))
  | swap {other : Nat} {c : Buffer} {l : Option Nat} : k ≠ other →
    s.slots.get? other = some ⟨c, l⟩ → Changing s k b lender (.swap other)
      ((s.put k c l).put other b lender, .answered (.ok .nothing))
  | written {what : Change} {p : Patch} {h : Host} {a : Answer} : what.isWrite = true →
    s.patch? k b what = some p → Buffer.Written b s.host p.type p.position p.values h →
    Changing s k b lender what ({ s with host := h }, .answered (.ok a))
  | unwritten {what : Change} {e : Error} {h : Host} : what.isWrite = true →
    Host.Edits none s.host h →
    Changing s k b lender what ({ s with host := h }, .answered (.error e))
  | drop : Changing s k b lender .drop
      ({ s with host := (b.release s.host).2, slots := s.slots.erase k },
        .answered (.ok .nothing))

theorem changing_concludeWrite {α : Type} {answer : α → Answer} {r : Except Error (α × Host)}
    (hw : what.isWrite = true) (hr : ∀ v h, r = .ok (v, h) → ∃ p, s.patch? k b what = some p ∧
      Buffer.Written b s.host p.type p.position p.values h) :
    s.Changing k b lender what (s.concludeWrite answer r) := by
  unfold concludeWrite
  split
  · obtain ⟨p, hp, W⟩ := hr _ _ rfl
    exact .written hw hp W
  · exact .unwritten hw .refl

/-- A copy succeeds and writes, or it fails and logs at most that it was to be made. -/
theorem changing_concludeCopy {t : ElemType} {vs : List (Elem t)} {r : Except Error Unit × Host}
    (hw : what.isWrite = true) (hp : s.patch? k b what = some ⟨t, 0, vs⟩)
    (F : (∃ e, r.1 = .error e ∧ Host.Edits none s.host r.2) ∨
      r.1 = .ok () ∧ Buffer.Written b s.host t 0 vs r.2) :
    s.Changing k b lender what (s.concludeCopy r) := by
  rw [concludeCopy]
  rcases F with ⟨e, he, D⟩ | ⟨hok, W⟩
  · rw [he]
    exact .unwritten hw D
  · rw [hok]
    exact .written hw hp W

/-! #### The kinds of changes, one after the other -/

/-- A change that is about the buffer of another slot as well is refused if there is none. -/
theorem changing_of_other {other : Nat} {r : Buffer → Session × Reply}
    (h : ∀ c, s.otherBuffer? k other = some c → s.Changing k b lender what (r c)) :
    s.Changing k b lender what
      (match s.otherBuffer? k other with
      | some c => r c
      | none => s.refuse) := by
  split
  · exact h _ ‹_›
  · exact .refused

theorem changing_of_isReshape (hwhat : what.isReshape = true) (hn : b.size ≤ b.capacity) :
    s.Changing k b lender what (s.changeBuffer k b lender what) := by
  cases what with
  | reshape shape =>
    refine .reshaped rfl ((b.reshape_cases shape s.host).imp_right fun hs => ?_)
    exact ⟨_, .shape hs.1 hn, hs.2⟩
  | clear => exact .reshaped rfl (.inr ⟨_, .clear, rfl⟩)
  | _ => cases hwhat

theorem changing_of_isResize (hwhat : what.isResize = true) :
    s.Changing k b lender what (s.changeBuffer k b lender what) := by
  cases what with
  | resize shape => exact .resized rfl (.inr ⟨shape, rfl⟩)
  | resizeAxis axis extent => exact .resized rfl (b.resizeAxis_cases axis extent s.host)
  | resizeLike other => exact changing_of_other fun _ _ => .resized rfl (.inr ⟨_, rfl⟩)
  | grow axis extra => exact .resized rfl (b.grow_cases axis extra s.host)
  | shrink axis amount => exact .resized rfl (b.shrink_cases axis amount s.host)
  | _ => cases hwhat

theorem changing_borrowArray (part : Part) (shape : Shape) :
    s.Changing k b lender (.borrowArray part shape)
      (s.changeBuffer k b lender (.borrowArray part shape)) := by
  simp only [changeBuffer]
  split
  · rename_i r hr
    rcases b.borrowArray_cases r.type r.address r.length shape s.host with
      ⟨e, he, ho⟩ | ⟨ht, -, hs, ho⟩
    · rw [ho]
      exact .unassigned rfl he
    · rw [ho]
      exact .assigned rfl hs (.inl rfl) (ht ▸ lies_of_region? hr fun _ => Nat.le_refl r.length)
  · exact .refused

theorem changing_borrowAt (memory : Memory) (shape : Shape) :
    s.Changing k b lender (.borrowAt memory shape)
      (s.changeBuffer k b lender (.borrowAt memory shape)) := by
  simp only [changeBuffer]
  split
  · rename_i t r hm
    rcases b.borrowAt_cases t (r.map Region.address) shape s.host with
      ⟨e, he, ho⟩ | ⟨ht, ⟨n, hs⟩, ho⟩
    · rw [ho]
      exact .unassigned rfl he
    · rw [ho]
      split
      · rename_i hno
        exact absurd rfl hno
      · split
        · exact .refused
        · rename_i hescape
          have hescape : escapes k b.device n r = false := by
            rw [← Shape.count_eq hs]
            exact Bool.eq_false_iff.mpr hescape
          refine .assigned rfl hs ?_ (ht ▸ lies_of_memory? hm hescape lender)
          cases hlender : r.bind Region.lender with
          | none => exact .inl rfl
          | some j =>
            rw [Option.some_or]
            exact .inr (hlender ▸ lender_ne_of_escapes hescape)
  · exact .refused

/-- Who copies from an address copies what is there. -/
theorem changing_copyElements (memory : Memory) (count : Nat) (device : Device) :
    s.Changing k b lender (.copyElements memory count device)
      (s.changeBuffer k b lender (.copyElements memory count device)) := by
  cases hm : s.memory? memory with
  | none =>
    simp only [changeBuffer, hm]
    exact .refused
  | some m =>
    simp only [changeBuffer, hm]
    split
    · exact .refused
    · refine changing_concludeCopy rfl ?_ (b.copyElements_written
        (.memory (m.2.map Region.address)) device (Source.length_elements_memory_le ..))
      simp only [patch?, hm, Option.map_some]

theorem changing_copyFrom (other : Nat) :
    s.Changing k b lender (.copyFrom other) (s.changeBuffer k b lender (.copyFrom other)) := by
  refine changing_of_other fun o ho => changing_concludeCopy rfl ?_ (b.copyFrom_written o s.host)
  simp only [patch?, ho, Option.map_some]

theorem changing_of_isWrite (hwhat : what.isWrite = true) :
    s.Changing k b lender what (s.changeBuffer k b lender what) := by
  cases what with
  | fill v =>
    refine changing_concludeWrite rfl fun u h hr => ?_
    cases hfill : b.fill v s.host with
    | error e => simp [hfill, Except.map] at hr
    | ok h' =>
      obtain rfl : h' = h := by simpa [hfill, Except.map] using hr
      exact ⟨_, rfl, Buffer.written_fill hfill⟩
  | set position v =>
    exact changing_concludeWrite rfl fun _ _ hr => ⟨_, rfl, Buffer.written_set hr⟩
  | setAt indices v =>
    refine changing_concludeWrite rfl fun _ _ hr => ?_
    obtain ⟨p, hp, W⟩ := Buffer.written_setAt hr
    exact ⟨_, by simp only [patch?, hp]; rfl, W⟩
  | setDataFrom indices vs =>
    refine changing_concludeWrite rfl fun _ _ hr => ?_
    obtain ⟨p, hp, W⟩ := Buffer.written_setDataFrom hr
    exact ⟨_, by simp only [patch?, hp]; rfl, W⟩
  | setData vs =>
    exact changing_concludeWrite rfl fun _ _ hr => ⟨_, rfl, Buffer.written_setData hr⟩
  | copyValues vs => exact changing_concludeCopy rfl rfl (b.copyValues_written s.host vs)
  | copyFrom other => exact changing_copyFrom other
  | copyElements memory count device => exact changing_copyElements memory count device
  | _ => cases hwhat

theorem changing (hn : b.size ≤ b.capacity) (lender : Option Nat) (what : Change) :
    s.Changing k b lender what (s.changeBuffer k b lender what) := by
  cases what with
  | reshape _ | clear => exact changing_of_isReshape rfl hn
  | resize _ | resizeAxis _ _ | resizeLike _ | grow _ _ | shrink _ _ =>
    exact changing_of_isResize rfl
  | reserve count => exact .reserve
  | release => exact .release
  | borrow other => exact changing_of_other fun _ ho => .borrow ho
  | duplicate other => exact changing_of_other fun _ ho => .duplicate ho
  | swap other =>
    refine changing_of_other fun c ho => ?_
    obtain ⟨hne, l, hget⟩ := otherBuffer?_eq_some.mp ho
    simp only [hget, Option.bind_some]
    exact .swap hne hget
  | borrowArray part shape => exact changing_borrowArray part shape
  | borrowAt memory shape => exact changing_borrowAt memory shape
  | fill _ | copyFrom _ | copyValues _ | copyElements _ _ _ | set _ _ | setAt _ _
  | setDataFrom _ _ | setData _ => exact changing_of_isWrite rfl
  | drop => exact .drop

/-- A change that writes elements writes its patch and succeeds, or it changes no byte. -/
theorem Changing.write_cases {r : Session × Reply} (C : s.Changing k b lender what r)
    (hw : what.isWrite = true) :
    (r.1.host.heap = s.host.heap ∧ ∀ a, r.2 ≠ .answered (.ok a)) ∨
      ∃ p a, s.patch? k b what = some p ∧ r.2 = .answered (.ok a) ∧
        Buffer.Written b s.host p.type p.position p.values r.1.host := by
  have hnot {P : Prop} (hw' : what.isWrite = false) : P :=
    absurd (hw'.symm.trans hw) Bool.false_ne_true
  cases C with
  | refused => exact .inl ⟨rfl, fun _ hr => by cases hr⟩
  | reshaped hwhat _ => exact hnot (Change.isReshape_spec hwhat).1
  | resized hwhat _ => exact hnot (Change.isResize_spec hwhat).1
  | unassigned hwhat _ | assigned hwhat _ _ _ => exact hnot (Change.isAssignment_spec hwhat).1
  | written _ hp W => exact .inr ⟨_, _, hp, rfl, W⟩
  | unwritten _ D => exact .inl ⟨D.heap, fun _ hr => by cases hr⟩
  | reserve | release | duplicate _ | borrow _ | swap _ _ | drop => cases hw

/-! ### Carrying out a command -/

section
variable {c : Command}

theorem step_of_frozen (h : ¬ ∀ j ∈ c.exclusive, s.isLender j = false) :
    s.step c = (s, .frozen) := by
  have hany : c.exclusive.any s.isLender = true := by simpa using h
  unfold step
  rw [if_pos hany]

theorem step_build {how : Build}
    (hl : ∀ j ∈ (Command.build k how).exclusive, s.isLender j = false) :
    s.step (.build k how) = s.build k how := by
  have hany : ¬ (Command.build k how).exclusive.any s.isLender = true := by simpa using hl
  rw [step, if_neg hany]

theorem step_change (hl : ∀ j ∈ (Command.change k what).exclusive, s.isLender j = false) :
    s.step (.change k what) = s.change k what := by
  have hany : ¬ (Command.change k what).exclusive.any s.isLender = true := by simpa using hl
  rw [step, if_neg hany]

theorem step_change_of_get? (hk : s.slots.get? k = some ⟨b, lender⟩)
    (hl : ∀ j ∈ (Command.change k what).exclusive, s.isLender j = false) :
    s.step (.change k what) = s.changeBuffer k b lender what := by
  rw [step_change hl, change, hk]

/-- A question is answered whatever is lent. -/
theorem step_query {q : Query} (hb : s.buffer? k = some b) :
    s.step (.query k q) = s.queryBuffer b q := by
  have hany : ¬ (Command.query k q).exclusive.any s.isLender = true := by simp [Command.exclusive]
  rw [step, if_neg hany]
  simp only [query, hb]

/-- A command that is answered has not been refused because of a lender. -/
theorem not_frozen_of_answered {r : Except Error Answer} (hr : (s.step c).2 = .answered r) :
    ∀ j ∈ c.exclusive, s.isLender j = false := by
  by_contra hl
  rw [step_of_frozen hl] at hr
  cases hr

theorem build_of_answered {how : Build} {r : Except Error Answer}
    (hr : (s.step (.build k how)).2 = .answered r) :
    s.step (.build k how) = s.build k how :=
  step_build (not_frozen_of_answered hr)

theorem change_of_answered {r : Except Error Answer}
    (hr : (s.step (.change k what)).2 = .answered r) :
    ∃ b lender, s.slots.get? k = some ⟨b, lender⟩ ∧
      s.step (.change k what) = s.changeBuffer k b lender what := by
  have hstep := step_change (not_frozen_of_answered hr)
  rw [hstep] at hr ⊢
  cases hk : s.slots.get? k with
  | none => simp [change, hk, refuse] at hr
  | some sl => exact ⟨sl.buffer, sl.lender, rfl, by simp [change, hk]⟩

theorem ok_of_conclude {α : Type} {o : Outcome α} {answer : α → Answer} {a : Answer}
    (hr : (s.conclude k lender answer o).2 = .answered (.ok a)) : ∃ v, o.result = .ok v := by
  cases ho : o.result with
  | ok v => exact ⟨v, rfl⟩
  | error e => simp [conclude, ho, Except.map] at hr

end

end Session

end NdBuffer
