import NdBuffer.Proofs.Session.Frame

/-!
# Lent memory

A buffer that has been made to borrow is followed from slot to slot (`Tracked`): taking and swapping
move it. As long as no command detaches it, it holds what has been lent to it (`Tracked.Holds`);
once it has been detached it lies elsewhere until it is made to borrow again (`Tracked.Apart`). The
lemmas here are about one command each; `LentMemory` puts them together.
-/

namespace NdBuffer

/-- Memory that is lent, with room for some elements of a type. -/
structure Loan where
  type : ElemType
  device : Device
  address? : Option Address
  capacity : Nat

/-- Whether a byte lies in the memory. -/
def Loan.Covers (l : Loan) (x : Address) : Prop :=
  ∃ a, l.address? = some a ∧ x.block = a.block ∧ a.offset ≤ x.offset ∧
    x.offset < a.offset + l.capacity * l.type.width

/-- The memory of a buffer. -/
def Buffer.loan (b : Buffer) : Loan := ⟨b.type, b.device, b.address?, b.capacity⟩

/-- The memory of a part of an array. -/
def Region.loan (r : Region) : Loan := ⟨r.type, .cpu, some r.address, r.length⟩

/-- Whether a command makes the buffer of slot `k` borrow: from the buffer of another slot, or from
an array of the host. -/
inductive Session.Lends (s : Session) (k : Nat) : Command → Option Nat → Loan → Prop
  | view {source : Nat} {b : Buffer} : s.buffer? source = some b →
    Lends s k (.build k (.view source)) (some source) b.loan
  | borrow {source : Nat} {b : Buffer} : s.buffer? source = some b →
    Lends s k (.change k (.borrow source)) (some source) b.loan
  | ofArray {shape : Shape} {part : Part} {r : Region} : s.region? part = some r →
    Lends s k (.build k (.ofArray shape part)) none r.loan
  | borrowArray {shape : Shape} {part : Part} {r : Region} : s.region? part = some r →
    Lends s k (.change k (.borrowArray part shape)) none r.loan

/-- Whether a buffer borrows what is lent, all of it. -/
structure Buffer.Holds (b : Buffer) (l : Loan) : Prop where
  loan : b.loan = l
  borrowed : b.isOwner = false

/-- Whether a buffer has no byte in common with what is lent. -/
def Buffer.Apart (b : Buffer) (l : Loan) : Prop := ∀ x, b.loan.Covers x → ¬ l.Covers x

namespace Command

/-- Whether a command leaves the lender alone. -/
def Spares (c : Command) (source : Option Nat) : Prop := ∀ i, source = some i → i ∉ c.targets

theorem spares_none (c : Command) : c.Spares none := nofun

/-- Whether a command may make the buffer of a slot borrow, or put another buffer in its place. -/
def MayBorrow (c : Command) (k : Nat) : Prop :=
  match c with
  | build slot _ => slot = k
  | change slot (.borrow _) | change slot (.borrowArray ..) | change slot (.borrowAt ..) => slot = k
  | _ => False

end Command

theorem Command.mayBorrow_of_isAssignment {k : Nat} {what : Change}
    (h : what.isAssignment = true) : (Command.change k what).MayBorrow k := by
  cases what <;> first | rfl | cases h

/-- A session in which one buffer is followed from slot to slot. -/
structure Tracked where
  session : Session
  slot : Nat

namespace Tracked

/-- Where the buffer is after a command. Taking and swapping move it, if they are carried out. -/
def place (x : Tracked) (c : Command) : Nat :=
  match c, (x.session.step c).2 with
  | .build slot (.take source), .answered (.ok _) => if x.slot = source then slot else x.slot
  | .change slot (.swap other), .answered (.ok _) =>
    if x.slot = slot then other else if x.slot = other then slot else x.slot
  | _, _ => x.slot

def after (x : Tracked) (c : Command) : Tracked := ⟨(x.session.step c).1, x.place c⟩

def buffer? (x : Tracked) : Option Buffer := x.session.buffer? x.slot

def heap (x : Tracked) : Heap := x.session.host.heap

/-- Commands are carried out one after the other, each of which is as it has to be. -/
abbrev Run (admits : Tracked → Command → Prop) : Tracked → Tracked → Prop :=
  Relation.ReflTransGen fun x y => ∃ c, admits x c ∧ y = x.after c

/-- Whether a command takes away from the buffer the memory that it has borrowed. Reserving more
than there is room for does so unless the bytes of the new block cannot be counted, whether or not
the block is given; making the buffer a duplicate does so whether or not that succeeds. -/
inductive Detaches (x : Tracked) : Command → Prop
  | release {r : Except Error Answer} :
    (x.session.step (.change x.slot .release)).2 = .answered r →
    Detaches x (.change x.slot .release)
  | reserve {n : Nat} {b : Buffer} {r : Except Error Answer} : x.buffer? = some b → b.capacity < n →
    (x.session.step (.change x.slot (.reserve n))).2 = .answered r →
    r ≠ .error (.capacityOverflow n b.type) → Detaches x (.change x.slot (.reserve n))
  | duplicate {other : Nat} {r : Except Error Answer} :
    (x.session.step (.change x.slot (.duplicate other))).2 = .answered r →
    Detaches x (.change x.slot (.duplicate other))
  | borrow {other : Nat} {r : Except Error Answer} :
    (x.session.step (.change x.slot (.borrow other))).2 = .answered r →
    Detaches x (.change x.slot (.borrow other))
  | borrowArray {part : Part} {shape : Shape} {a : Answer} :
    (x.session.step (.change x.slot (.borrowArray part shape))).2 = .answered (.ok a) →
    Detaches x (.change x.slot (.borrowArray part shape))
  | borrowAt {memory : Memory} {shape : Shape} {a : Answer} :
    (x.session.step (.change x.slot (.borrowAt memory shape))).2 = .answered (.ok a) →
    Detaches x (.change x.slot (.borrowAt memory shape))
  | drop {r : Except Error Answer} : (x.session.step (.change x.slot .drop)).2 = .answered r →
    Detaches x (.change x.slot .drop)
  | build {how : Build} {a : Answer} : (x.session.step (.build x.slot how)).2 = .answered (.ok a) →
    Detaches x (.build x.slot how)

theorem detaches_of_isAssignment {x : Tracked} {what : Change} {a : Answer}
    (hwhat : what.isAssignment = true)
    (hr : (x.session.step (.change x.slot what)).2 = .answered (.ok a)) :
    x.Detaches (.change x.slot what) := by
  cases what with
  | borrowArray part shape => exact .borrowArray hr
  | borrowAt memory shape => exact .borrowAt hr
  | _ => cases hwhat

/-- A change that keeps the memory of the buffer, or only looks for more room for a shape, does not
detach it. -/
theorem not_detaches {x : Tracked} {k : Nat} {what : Change}
    (hwhat : what.isReshape = true ∨ what.isResize = true ∨ what.isWrite = true) :
    ¬ x.Detaches (.change k what) := by
  intro H
  cases H <;> simp [Change.isReshape, Change.isResize, Change.isWrite] at hwhat

/-- A command that detaches the buffer is carried out. -/
theorem Detaches.exists_answer {x : Tracked} {c : Command} (H : x.Detaches c) :
    ∃ r, (x.session.step c).2 = .answered r := by
  cases H with
  | release hr | reserve _ _ hr _ | duplicate hr | borrow hr | borrowArray hr | borrowAt hr
  | drop hr | build hr => exact ⟨_, hr⟩

/-- Whether the buffer holds what is lent. -/
def Holds (x : Tracked) (l : Loan) : Prop := ∃ b, x.buffer? = some b ∧ b.Holds l

/-- Whether the buffer has no byte in common with what is lent, or has been dropped. -/
def Apart (x : Tracked) (l : Loan) : Prop := ∀ b, x.buffer? = some b → b.Apart l

/-- Whether a command makes the buffer borrow some of what is lent again. -/
def Reborrows (x : Tracked) (l : Loan) (c : Command) : Prop :=
  c.MayBorrow x.slot ∧ ¬ (x.after c).Apart l

end Tracked

namespace Buffer

variable {b : Buffer} {h : Host}

/-- Memory that is borrowed is not replaced by a resize. -/
theorem samePlace_resize (hb : b.isOwner = false) (ha : b.isNull = false) (s : Shape) :
    b.SamePlace (b.resize s h).buffer := by
  have hguard : ¬ (b.isBorrowed = true → b.isNull = true) := by simp [isBorrowed, hb, ha]
  have R := b.resizing s h
  generalize b.resize s h = o at R
  cases R with
  | overflow _ | denied _ _ _ _ => exact .rfl
  | kept _ _ => exact ⟨rfl, rfl, rfl, rfl, rfl⟩
  | tooLarge _ _ _ _ => exact .rfl
  | refused _ _ hnull _ => exact absurd hnull hguard
  | replaced _ _ hnull _ _ _ => exact absurd hnull hguard

theorem samePlace_of_cases {o : Outcome Unit} (hb : b.isOwner = false) (ha : b.isNull = false)
    (ho : (∃ e, e.isRefusal = false ∧ o = .failed e b h) ∨ ∃ s, o = b.resize s h) :
    b.SamePlace o.buffer := by
  rcases ho with ⟨e, -, rfl⟩ | ⟨s, rfl⟩
  · exact .rfl
  · exact samePlace_resize hb ha s

/-- A buffer that reserves more than it has room for gets an own block, is left empty, or stays as
it is because the bytes cannot be counted. -/
theorem reserve_cases {n : Nat} (hn : b.capacity < n) :
    b.reserve n h = .failed (.capacityOverflow n b.type) b h ∨
      (b.reserve n h).buffer.isOwner = true ∧
        (b.reserve n h).result ≠ .error (.capacityOverflow n b.type) := by
  have A := b.allocation n h
  rw [reserve, if_neg (Nat.not_le.mpr hn)]
  generalize b.allocate n h = o at A
  cases A with
  | overflow _ => exact .inl rfl
  | refused he =>
    refine .inr ⟨rfl, ?_⟩
    rintro ⟨⟩
    cases he
  | nothing _ | granted _ _ _ _ =>
    refine .inr ⟨rfl, ?_⟩
    intro hr
    cases hr

/-- A duplicate has no borrowed memory, whether or not it is complete. -/
theorem isOwner_duplicate (b other : Buffer) (h : Host) :
    (b.duplicate other h).buffer.isOwner = true := by
  have howner {c : Buffer} {h : Host} (hc : c.isOwner = true) :
      ((c.resizeLike other h).andThen fun b h => b.unchanged (b.copyFrom other h)).buffer.isOwner =
        true :=
    Moves.isOwner (moves_resizeLike_copyFrom hc other h) hc
  rw [duplicate]
  rcases b.makeWay_cases other h with he | ⟨-, -, hb, he⟩
  · rw [he]
    exact howner rfl
  · rw [he]
    exact howner hb

theorem SamePlace.loan {b c : Buffer} (H : b.SamePlace c) : c.loan = b.loan := by
  simp only [Buffer.loan, H.type, H.device, H.address, H.capacity]

theorem SamePlace.apart {b c : Buffer} {l : Loan} (H : b.SamePlace c) (hb : b.Apart l) :
    c.Apart l := by
  rw [Apart, H.loan]
  exact hb

theorem apart_of_address?_eq_none {l : Loan} (ha : b.address? = none) : b.Apart l := by
  rintro x ⟨a, ha', -⟩
  cases ha.symm.trans ha'

/-- After a chain of moves a buffer is apart from a block that did not belong to it, unless it has
shared bytes with it before. -/
theorem Moves.apart {p q : Buffer × Host} (M : Moves p q) {l : Loan} {a : Address} {c : Block}
    (ha : l.address? = some a) (hc : p.2.heap.blocks[a.block]? = some c)
    (hm : ∀ o ∈ p.1.holdings, o.block ≠ a.block) (hq : q.1.isOwner = true ∨ p.1.Apart l) :
    q.1.Apart l := by
  have howner (ho : q.1.isOwner = true) : q.1.Apart l := by
    rintro x ⟨a₁, ha₁, hx₁, -⟩ ⟨a₂, ha₂, hx₂, -⟩
    have hne : a₁.block ≠ a.block :=
      (M.frame hc hm).2 ⟨a₁.block, q.1.blockBytes⟩ (mem_holdings.mpr ⟨a₁, ho, ha₁, rfl⟩)
    obtain rfl : a = a₂ := Option.some.inj (ha.symm.trans ha₂)
    exact hne (hx₁.symm.trans hx₂)
  rcases hq with ho | hapart
  · exact howner ho
  · rcases M.place with hplace | ho
    · exact hplace.apart hapart
    · exact howner ho

end Buffer

namespace Session

variable {s : Session} {k j : Nat} {b : Buffer} {lender : Option Nat} {c : Command}

/-- A buffer that could not be built has changed no slot. -/
theorem slots_building {how : Build} {r : Session × Reply} (B : s.Building k how r)
    (hr : ∀ a, r.2 ≠ .answered (.ok a)) : r.1.slots = s.slots := by
  cases B with
  | refused | failed _ => rfl
  | built _ | borrower _ _ | view _ | take _ _ => exact absurd rfl (hr .nothing)

end Session

namespace Tracked

variable {x : Tracked} {c : Command} {b : Buffer} {l : Loan} {a : Address} {m : BlockId}

/-! ### Where the buffer goes -/

/-- The slot of the buffer as a command leaves it, if the command does not move the buffer. -/
theorem place_of_not_mem (hc : x.slot ∉ c.targets) : x.place c = x.slot := by
  unfold place
  split
  · rename_i slot source _ _
    have hne : x.slot ≠ source := fun h => hc (by simp [Command.targets, h])
    rw [if_neg hne]
  · rename_i slot other _ _
    have hne : x.slot ≠ slot := fun h => hc (by simp [Command.targets, h])
    have hne' : x.slot ≠ other := fun h => hc (by simp [Command.targets, h])
    rw [if_neg hne, if_neg hne']
  · rfl

theorem buffer?_after_of_not_mem (H : x.session.Sound) (hc : x.slot ∉ c.targets) :
    (x.after c).buffer? = x.buffer? := by
  simp only [buffer?, after, place_of_not_mem hc, Session.buffer?]
  rw [Session.get?_slots_step H hc]

theorem buffer?_after_of_frozen (hc : ¬ ∀ j ∈ c.exclusive, x.session.isLender j = false) :
    (x.after c).buffer? = x.buffer? := by
  have hstep := Session.step_of_frozen hc
  have hplace : x.place c = x.slot := by
    unfold place
    rw [hstep]
    split <;> simp_all
  simp only [buffer?, after, hplace, hstep]

/-- A command that is answered otherwise than with success moves no buffer. -/
theorem place_of_not_ok (hr : ∀ a, (x.session.step c).2 ≠ .answered (.ok a)) :
    x.place c = x.slot := by
  unfold place
  split
  · exact absurd ‹_› (hr _)
  · exact absurd ‹_› (hr _)
  · rfl

/-- A buffer that is taken moves to the other slot. -/
theorem buffer?_after_take (slot : Nat) :
    (x.after (.build slot (.take x.slot))).buffer? = x.buffer? := by
  by_cases hl : ∀ j ∈ (Command.build slot (.take x.slot)).exclusive, x.session.isLender j = false
  · have hstep := Session.step_build hl
    cases ho : x.session.otherBuffer? slot x.slot with
    | none =>
      have hs : x.session.step (.build slot (.take x.slot)) = (x.session, .misuse) := by
        rw [hstep]
        simp [Session.build, ho, Session.refuse]
      simp [buffer?, after, place, hs]
    | some b =>
      obtain ⟨-, l, hget⟩ := Session.otherBuffer?_eq_some.mp ho
      have hx : x.buffer? = some b := Session.buffer?_eq_some.mpr ⟨l, hget⟩
      have hbuild : x.session.build slot (.take x.slot) =
          (x.session.put x.slot b.emptied none).install slot l (.ok b, x.session.host) := by
        simp [Session.build, ho, hget]
      simp only [buffer?, after, place, hstep, hbuild, Session.install]
      exact (Session.buffer?_put_self ..).trans hx.symm
  · exact buffer?_after_of_frozen hl

theorem buffer?_after_of_misuse (hs : x.session.step c = (x.session, .misuse)) :
    (x.after c).buffer? = x.buffer? := by
  have hplace : x.place c = x.slot := place_of_not_ok fun a => by simp [hs]
  simp only [buffer?, after, hplace, hs]

/-- Two buffers that are swapped change places. -/
theorem buffer?_after_swap {slot other : Nat} (hx : x.slot = slot ∨ x.slot = other) :
    (x.after (.change slot (.swap other))).buffer? = x.buffer? := by
  by_cases hl : ∀ j ∈ (Command.change slot (.swap other)).exclusive, x.session.isLender j = false
  · have hstep := Session.step_change hl
    cases hk : x.session.slots.get? slot with
    | none =>
      refine buffer?_after_of_misuse ?_
      rw [hstep]
      simp [Session.change, hk, Session.refuse]
    | some sl =>
      obtain ⟨b, l⟩ := sl
      cases ho : x.session.otherBuffer? slot other with
      | none =>
        refine buffer?_after_of_misuse ?_
        rw [hstep]
        simp [Session.change, hk, Session.changeBuffer, ho, Session.refuse]
      | some o =>
        obtain ⟨hne, l', hget⟩ := Session.otherBuffer?_eq_some.mp ho
        have hchange : x.session.change slot (.swap other) =
            ((x.session.put slot o l').put other b l, .answered (.ok .nothing)) := by
          simp [Session.change, hk, Session.changeBuffer, ho, hget]
        simp only [buffer?, after, place, hstep, hchange]
        rcases hx with rfl | rfl
        · rw [if_pos rfl]
          exact (Session.buffer?_put_self ..).trans
            (Session.buffer?_eq_some.mpr ⟨l, hk⟩).symm
        · rw [if_neg (Ne.symm hne), if_pos rfl, Session.buffer?_put_of_ne _ _ _ hne]
          exact (Session.buffer?_put_self ..).trans
            (Session.buffer?_eq_some.mpr ⟨l', hget⟩).symm
  · exact buffer?_after_of_frozen hl

/-- Building into the slot of the buffer replaces it or changes nothing. -/
theorem after_build {k : Nat} {how : Build}
    (hl : ∀ j ∈ (Command.build k how).exclusive, x.session.isLender j = false)
    (hmem : x.slot ∈ (Command.build k how).targets) :
    (x.after (.build k how)).buffer? = x.buffer? ∨
      k = x.slot ∧ ∃ a, (x.session.step (.build k how)).2 = .answered (.ok a) := by
  by_cases htake : how = .take x.slot
  · subst htake
    exact .inl (buffer?_after_take k)
  · have hk : k = x.slot := by
      cases how with
      | take source =>
        have hne : x.slot ≠ source := fun h => htake (h ▸ rfl)
        exact ((List.mem_pair.mp hmem).resolve_right hne).symm
      | _ => exact (List.mem_singleton.mp hmem).symm
    by_cases hok : ∃ a, (x.session.step (.build k how)).2 = .answered (.ok a)
    · exact .inr ⟨hk, hok⟩
    · have hr := not_exists.mp hok
      have hplace := place_of_not_ok hr
      rw [Session.step_build hl] at hr
      refine .inl ?_
      simp only [buffer?, after, hplace, Session.step_build hl, Session.buffer?,
        Session.slots_building (Session.building _ _ _) hr]

theorem place_change {k : Nat} {what : Change} (hswap : ∀ other, what ≠ .swap other) :
    x.place (.change k what) = x.slot := by
  unfold place
  split
  · rename_i heq _
    cases heq
  · rename_i heq _
    cases heq
    exact absurd rfl (hswap _)
  · rfl

/-- The commands that may change the buffer itself are those of its slot that are carried out: it is
replaced by a new one, or it is changed. -/
theorem after_cases (H : x.session.Sound) (c : Command) :
    (x.after c).buffer? = x.buffer? ∨
      (∃ how a, c = .build x.slot how ∧ (x.session.step c).2 = .answered (.ok a)) ∨
      ∃ what b l, c = .change x.slot what ∧ (∀ other, what ≠ .swap other) ∧
        (∀ j ∈ c.exclusive, x.session.isLender j = false) ∧
        x.session.slots.get? x.slot = some ⟨b, l⟩ ∧
        x.session.Changing x.slot b l what (x.session.step c) := by
  by_cases hmem : x.slot ∈ c.targets
  · by_cases hl : ∀ j ∈ c.exclusive, x.session.isLender j = false
    · cases c with
      | query k what => cases hmem
      | build k how =>
        rcases after_build hl hmem with hsame | ⟨rfl, a, hok⟩
        · exact .inl hsame
        · exact .inr (.inl ⟨how, a, rfl, hok⟩)
      | change k what =>
        by_cases hswap : ∃ other, what = .swap other
        · obtain ⟨other, rfl⟩ := hswap
          exact .inl (buffer?_after_swap (by simpa [Command.targets] using hmem))
        · have hswap := not_exists.mp hswap
          obtain rfl : k = x.slot := by cases what <;> simp_all [Command.targets]
          have hstep := Session.step_change hl
          cases hk : x.session.slots.get? x.slot with
          | none =>
            refine .inl (buffer?_after_of_misuse ?_)
            rw [hstep]
            simp [Session.change, hk, Session.refuse]
          | some sl =>
            obtain ⟨b, l⟩ := sl
            have hv : b.Valid := H.valid (.inl ⟨x.slot, hk⟩)
            refine .inr (.inr ⟨what, b, l, rfl, hswap, hl, rfl, ?_⟩)
            rw [hstep]
            simp only [Session.change, hk]
            exact Session.changing hv.size_le l what
    · exact .inl (buffer?_after_of_frozen hl)
  · exact .inl (buffer?_after_of_not_mem H hmem)

/-! ### Holding what is lent -/

section
variable {s : Session} {k : Nat} {lender : Option Nat} {what : Change} {s' : Session}

/-- Whether the buffer in a slot has the same memory as a buffer. -/
def KeepsPlace (s' : Session) (k : Nat) (b : Buffer) : Prop :=
  ∃ c, s'.buffer? k = some c ∧ b.SamePlace c

theorem keepsPlace_of_slots (hk : s.slots.get? k = some ⟨b, lender⟩) (hs : s'.slots = s.slots) :
    KeepsPlace s' k b :=
  ⟨b, Session.buffer?_eq_some.mpr ⟨lender, hs ▸ hk⟩, .rfl⟩

theorem keepsPlace_conclude {α : Type} {o : Outcome α} {answer : α → Answer}
    (hb : b.SamePlace o.buffer) : KeepsPlace (s.conclude k lender answer o).1 k b :=
  ⟨o.buffer, Session.buffer?_put_self .., hb⟩

/-- A change of a borrower that does not detach it leaves it where it is. -/
theorem keepsPlace_changing (hk : s.slots.get? k = some ⟨b, lender⟩) (hb : b.isOwner = false)
    (ha : b.isNull = false) (hswap : ∀ other, what ≠ .swap other)
    (C : s.Changing k b lender what (s.step (.change k what)))
    (hd : ¬ Detaches ⟨s, k⟩ (.change k what)) :
    KeepsPlace (s.step (.change k what)).1 k b := by
  generalize hstep : s.step (.change k what) = r at C ⊢
  have hreply : (s.step (.change k what)).2 = r.2 := congrArg Prod.snd hstep
  cases C with
  | refused => exact keepsPlace_of_slots hk rfl
  | reshaped hwhat ho =>
    rcases ho with ⟨e, -, rfl⟩ | ⟨c, R, rfl⟩
    · exact keepsPlace_conclude .rfl
    · exact keepsPlace_conclude R.samePlace
  | resized hwhat ho => exact keepsPlace_conclude (Buffer.samePlace_of_cases hb ha ho)
  | @reserve n =>
    refine keepsPlace_conclude ?_
    by_cases hn : n ≤ b.capacity
    · rw [Buffer.reserve, if_pos hn]
      exact .rfl
    · have hn := Nat.not_le.mp hn
      have hbuffer : s.buffer? k = some b := Session.buffer?_eq_some.mpr ⟨lender, hk⟩
      rcases Buffer.reserve_cases (h := s.host) hn with ho | ⟨-, hr⟩
      · rw [ho]
        exact .rfl
      · refine absurd (.reserve hbuffer hn hreply ?_) hd
        cases hresult : (b.reserve n s.host).result with
        | ok u =>
          intro heq
          cases heq
        | error e =>
          rw [hresult] at hr
          exact fun heq => hr (congrArg Except.error (Except.error.inj heq))
  | release => exact absurd (.release hreply) hd
  | duplicate hother => exact absurd (.duplicate hreply) hd
  | borrow hother => exact absurd (.borrow hreply) hd
  | unassigned _ _ => exact keepsPlace_conclude .rfl
  | assigned hwhat _ _ _ => exact absurd (detaches_of_isAssignment hwhat hreply) hd
  | swap hne hget => exact absurd rfl (hswap _)
  | written hw hp W => exact keepsPlace_of_slots hk rfl
  | unwritten hw D => exact keepsPlace_of_slots hk rfl
  | drop => exact absurd (.drop hreply) hd

/-! ### Lying elsewhere -/

/-- Whether the buffer in a slot has no byte in common with what is lent. -/
def LeavesApart (s' : Session) (k : Nat) (l : Loan) : Prop :=
  ∀ c, s'.buffer? k = some c → c.Apart l

theorem leavesApart_of_slots (hk : s.slots.get? k = some ⟨b, lender⟩) (hb : b.Apart l)
    (hs : s'.slots = s.slots) : LeavesApart s' k l := by
  intro c hc
  have hb' : s'.buffer? k = some b := Session.buffer?_eq_some.mpr ⟨lender, hs ▸ hk⟩
  cases hb'.symm.trans hc
  exact hb

theorem leavesApart_conclude {α : Type} {o : Outcome α} {answer : α → Answer}
    (hb : o.buffer.Apart l) : LeavesApart (s.conclude k lender answer o).1 k l := by
  intro c hc
  have ho : (s.conclude k lender answer o).1.buffer? k = some o.buffer :=
    Session.buffer?_put_self ..
  cases ho.symm.trans hc
  exact hb

/-- A guarded block does not belong to the buffer of a slot that lends nothing. -/
theorem block_ne_of_guarded {T : Nat → Prop} {sl : Slot} (H : s.Sound)
    (hk : s.slots.get? k = some sl) (hl : s.isLender k = false) (hT : T k)
    (G : Bench.Guarded T s.bench m) : ∀ o ∈ sl.buffer.holdings, o.block ≠ m := by
  have M : Bench.Move s.arrays T (fun _ => False) s.bench ⟨s.host, s.slots.erase k, [sl]⟩ :=
    .pickUp hT hk (Session.free_nil hl)
  exact fun o => (G.move M rfl).block_ne (M.sound H)

/-- A change that makes nothing borrow leaves the buffer apart from what is lent, if it was so
before or if the change detaches it. -/
theorem leavesApart_changing (H : s.Sound) (hk : s.slots.get? k = some ⟨b, lender⟩)
    (hl : ∀ j ∈ (Command.change k what).exclusive, s.isLender j = false)
    (hswap : ∀ other, what ≠ .swap other) (hborrow : ¬ (Command.change k what).MayBorrow k)
    (C : s.Changing k b lender what (s.step (.change k what)))
    (ha : l.address? = some a) (G : Bench.Guarded (Command.change k what).Touches s.bench a.block)
    (hb : b.Apart l ∨ Detaches ⟨s, k⟩ (.change k what)) :
    LeavesApart (s.step (.change k what)).1 k l := by
  have hmoves {o : Outcome Unit} (hexcl : what.isExclusive = true) (hw : what.isWrite = false)
      (M : Buffer.Moves (b, s.host) o.after) (ho : o.buffer.isOwner = true ∨ b.Apart l) :
      LeavesApart (s.conclude k lender Session.nothing o).1 k l := by
    obtain ⟨c, hc⟩ := G.exists_block H
    have hne := block_ne_of_guarded H hk (hl k (Command.mem_exclusive hexcl))
      (Command.touches_change hw (Command.mem_targets k what)) G
    exact leavesApart_conclude (M.apart ha hc hne ho)
  have hsame (hd : ¬ Detaches ⟨s, k⟩ (.change k what)) : b.Apart l := hb.resolve_right hd
  generalize hstep : s.step (.change k what) = r at C ⊢
  have hreply : (s.step (.change k what)).2 = r.2 := congrArg Prod.snd hstep
  cases C with
  | refused =>
    refine leavesApart_of_slots hk (hsame fun hd => ?_) rfl
    obtain ⟨r, hr⟩ := hd.exists_answer
    cases hreply.symm.trans hr
  | reshaped hwhat ho =>
    have hapart : b.Apart l := hsame (not_detaches (.inl hwhat))
    rcases ho with ⟨e, -, rfl⟩ | ⟨c, R, rfl⟩
    · exact leavesApart_conclude hapart
    · exact leavesApart_conclude (R.samePlace.apart hapart)
  | resized hwhat ho =>
    obtain ⟨hw, -, hexcl⟩ := Change.isResize_spec hwhat
    have hapart : b.Apart l := hsame (not_detaches (.inr (.inl hwhat)))
    exact hmoves hexcl hw (Buffer.moves_of_cases ho) (.inr hapart)
  | @reserve n =>
    refine hmoves rfl rfl (b.moves_reserve n s.host) ?_
    rcases hb with hb | hd
    · exact .inr hb
    · cases hd with
      | reserve hb' hn hr hne =>
        obtain ⟨l, hk'⟩ := Session.buffer?_eq_some.mp hb'
        cases hk.symm.trans hk'
        rcases Buffer.reserve_cases (h := s.host) hn with ho | ⟨ho, -⟩
        · rw [ho] at hreply
          exact absurd (Reply.answered.inj (hreply.symm.trans hr)).symm hne
        · exact .inl ho
  | release => exact leavesApart_conclude (Buffer.apart_of_address?_eq_none rfl)
  | @duplicate other o hother =>
    exact hmoves rfl rfl (b.moves_duplicate o s.host) (.inl (b.isOwner_duplicate o s.host))
  | borrow hother => exact absurd rfl hborrow
  | unassigned hwhat _ => exact absurd (Command.mayBorrow_of_isAssignment hwhat) hborrow
  | assigned hwhat _ _ _ => exact absurd (Command.mayBorrow_of_isAssignment hwhat) hborrow
  | swap hne hget => exact absurd rfl (hswap _)
  | written hw hp W =>
    exact leavesApart_of_slots hk (hsame (not_detaches (.inr (.inr hw)))) rfl
  | unwritten hw D =>
    exact leavesApart_of_slots hk (hsame (not_detaches (.inr (.inr hw)))) rfl
  | drop =>
    intro c hc
    simp [Session.buffer?] at hc

end

/-! ### One command -/

/-- The buffer holds what has been lent to it until a command detaches it. -/
theorem Holds.after (H : x.session.Sound) {l : Loan} (hx : x.Holds l)
    (ha : l.address?.isSome = true) (hd : ¬ x.Detaches c) : (x.after c).Holds l := by
  obtain ⟨b, hb, rfl, ho⟩ := hx
  rcases after_cases H c with
    hsame | ⟨how, a, rfl, hok⟩ | ⟨what, b', lender, rfl, hswap, -, hk, C⟩
  · exact ⟨b, hsame.trans hb, rfl, ho⟩
  · exact absurd (.build hok) hd
  · cases hb.symm.trans (Session.buffer?_eq_some.mpr ⟨lender, hk⟩)
    have hnull : b.isNull = false := by simpa [Buffer.isNull, Buffer.loan] using ha
    obtain ⟨c, hc, hplace⟩ := keepsPlace_changing hk ho hnull hswap C hd
    refine ⟨c, ?_, hplace.loan, hplace.isOwner.trans ho⟩
    simp only [buffer?, Tracked.after, place_change hswap]
    exact hc

/-- A command that detaches the buffer puts another one in its place or is a change of it. -/
theorem Detaches.mayBorrow_or (hd : x.Detaches c) :
    c.MayBorrow x.slot ∨ ∃ what, c = .change x.slot what ∧ ∀ other, what ≠ .swap other := by
  cases hd with
  | build _ | borrow _ | borrowArray _ | borrowAt _ => exact .inl rfl
  | release _ | reserve _ _ _ _ | duplicate _ | drop _ =>
    refine .inr ⟨_, rfl, ?_⟩
    intro other h
    cases h

/-- The buffer has no byte in common with what was lent once it has been detached, until it is made
to borrow some of it again. -/
theorem apart_after (H : x.session.Sound) (ha : l.address? = some a)
    (G : Bench.Guarded c.Touches x.session.bench a.block) (hx : x.Apart l ∨ x.Detaches c)
    (hborrow : ¬ x.Reborrows l c) : (x.after c).Apart l := by
  by_cases hmay : c.MayBorrow x.slot
  · by_contra hapart
    exact hborrow ⟨hmay, hapart⟩
  have hchange {what : Change} {b : Buffer} {lender : Option Nat} (hc : c = .change x.slot what)
      (hswap : ∀ other, what ≠ .swap other)
      (hl : ∀ j ∈ c.exclusive, x.session.isLender j = false)
      (hk : x.session.slots.get? x.slot = some ⟨b, lender⟩)
      (C : x.session.Changing x.slot b lender what (x.session.step c)) :
      (x.after c).Apart l := by
    subst hc
    have hb : b.Apart l ∨ x.Detaches (.change x.slot what) :=
      hx.imp_left fun h => h b (Session.buffer?_eq_some.mpr ⟨lender, hk⟩)
    have hapart := leavesApart_changing H hk hl hswap hmay C ha G hb
    simp only [Apart, buffer?, Tracked.after, place_change hswap]
    exact hapart
  rcases hx with hx | hd
  · rcases after_cases H c with
      hsame | ⟨how, a, rfl, -⟩ | ⟨what, b, lender, hc, hswap, hl, hk, C⟩
    · rw [Apart, hsame]
      exact hx
    · exact absurd rfl hmay
    · exact hchange hc hswap hl hk C
  · rcases hd.mayBorrow_or with hmay' | ⟨what, rfl, hswap⟩
    · exact absurd hmay' hmay
    · obtain ⟨r, hr⟩ := hd.exists_answer
      obtain ⟨b, lender, hk, C⟩ := Session.changing_of_answered H hr
      exact hchange rfl hswap (Session.not_frozen_of_answered hr) hk C

end Tracked

end NdBuffer
