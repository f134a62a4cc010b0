import NdBuffer.Proofs.Session.Lending

/-!
# Writing through borrowed memory

What is written through a borrower is written to the memory that has been lent, element by element
(`Patch.Applied`), and nothing else that is done with the borrower changes a byte of it. The lender
itself stays as it is and keeps its memory. Once the borrower has been detached, nothing that is
done with it changes a byte of what was lent, until it is made to borrow the memory again.
-/

namespace NdBuffer

/-- Whether memory that is lent is that of a slot, or lies in an array. -/
def Loan.LentBy (l : Loan) (s : Session) : Option Nat → Prop
  | some i => ∃ b, s.buffer? i = some b ∧ b.loan = l
  | none => ∀ a, l.address? = some a → ∃ arr ∈ s.arrays, arr.block = a.block

/-- Whether a patch of the `n` elements at an address makes one memory from another: the elements
that it covers are its values, and all other bytes are as before. -/
structure Patch.Applied (p : Patch) (a : Address) (n : Nat) (h h' : Heap) : Prop where
  within : p.position + p.values.length ≤ n
  elements : h'.elements p.type a n = overlay (h.elements p.type a n) p.position p.values
  elsewhere : ∀ x : Address, ¬ (x.block = a.block ∧
    a.offset + p.position * p.type.width ≤ x.offset ∧
    x.offset < a.offset + (p.position + p.values.length) * p.type.width) → h'.byte x = h.byte x

namespace Buffer

variable {b : Buffer} {h h' : Host} {t : ElemType} {p : Nat} {vs : List (Elem t)} {a : Address}

/-- A write changes no byte outside the memory of the buffer. -/
theorem Written.byte (W : Written b h t p vs h') (hn : b.size ≤ b.capacity) {x : Address}
    (hx : ¬ b.loan.Covers x) : h'.heap.byte x = h.heap.byte x := by
  rw [W.host]
  cases ha : b.address? with
  | none => simp only [overwrite, ha]
  | some a =>
    simp only [overwrite, ha]
    apply Heap.byte_store_of_outside
    intro hin
    obtain ⟨hblock, hle, hlt⟩ := hin
    have hwidth : (p + vs.length) * t.width ≤ b.capacity * b.type.width := by
      rw [← W.type]
      exact Nat.mul_le_mul_right _ (Nat.le_trans W.within hn)
    exact hx ⟨a, ha, hblock, Nat.le_trans (Nat.le_add_right ..) hle,
      Nat.lt_of_lt_of_le hlt (Nat.add_le_add_left hwidth _)⟩

/-- What a successful write through a buffer with memory does. -/
theorem Written.applied (W : Written b h t p vs h') (ha : b.address? = some a)
    (hp : b.Placed h.heap) (hn : b.size ≤ b.capacity) :
    Patch.Applied ⟨t, p, vs⟩ a b.capacity h.heap h'.heap := by
  have hheap : h'.heap = h.heap.store (a.advance (p * t.width)) vs := by
    rw [W.host]
    simp [overwrite, ha, Host.onHeap]
  refine ⟨Nat.le_trans W.within hn, ?_, fun x hx => ?_⟩
  · rw [hheap]
    by_cases hvs : vs = []
    · subst hvs
      simp [Heap.store, Heap.write_nil]
    · have hfits := hp.fits ha (W.device hvs)
      rw [← W.type] at hfits
      exact Heap.elements_store vs hfits
  · rw [hheap]
    exact Heap.byte_store_of_outside hx

end Buffer

namespace Tracked

variable {s : Session} {x : Tracked} {c : Command} {source : Option Nat} {l : Loan} {a : Address}

/-- What is the same in a session as in an earlier one for as long as the lender is left alone. -/
structure Kept (s : Session) (source : Option Nat) (s' : Session) : Prop where
  sound : s'.Sound
  arrays : s'.arrays = s.arrays
  lender : ∀ i, source = some i → s'.slots.get? i = s.slots.get? i

theorem Kept.step {s' : Session} (K : Kept s source s') (hc : c.Spares source) :
    Kept s source (s'.step c).1 where
  sound := Session.sound_step K.sound c
  arrays := (Session.arrays_step s' c).trans K.arrays
  lender i hi := (Session.get?_slots_step K.sound (hc i hi)).trans (K.lender i hi)

theorem Kept.run {admits : Tracked → Command → Prop} {y : Tracked} (K : Kept s source x.session)
    (hadmits : ∀ x c, admits x c → c.Spares source) (R : x.Run admits y) :
    Kept s source y.session := by
  induction R with
  | refl => exact K
  | tail _ hstep ih =>
    obtain ⟨c, hc, rfl⟩ := hstep
    exact ih.step (hadmits _ c hc)

/-- Memory that is lent is guarded from every command that spares the lender. -/
theorem Kept.guarded (K : Kept s source x.session) (hl : l.LentBy s source)
    (ha : l.address? = some a) {T : Nat → Prop} (hT : ∀ i, source = some i → ¬ T i) :
    Bench.Guarded T x.session.bench a.block := by
  cases source with
  | none =>
    obtain ⟨arr, harr, hblock⟩ := hl a ha
    obtain ⟨block, hb, hl, -⟩ := K.sound.arrays arr (K.arrays.symm ▸ harr)
    exact .inl ⟨block, hblock ▸ hb, hl⟩
  | some i =>
    obtain ⟨b, hb, rfl⟩ := hl
    obtain ⟨lender, hk⟩ := Session.buffer?_eq_some.mp hb
    exact .inr ⟨i, _, a, hT i rfl, (K.lender i rfl).trans hk, ha, rfl⟩

theorem Kept.exists_block (K : Kept s source x.session) (hl : l.LentBy s source)
    (ha : l.address? = some a) :
    ∃ block, x.heap.blocks[a.block]? = some block ∧ block.returned = [] := by
  cases source with
  | none =>
    obtain ⟨arr, harr, hblock⟩ := hl a ha
    obtain ⟨block, hb, hl, -⟩ := K.sound.arrays arr (K.arrays.symm ▸ harr)
    have hacc := K.sound.ledger.accounted block (List.mem_of_getElem? hb)
    exact ⟨block, hblock ▸ hb, hacc.array hl⟩
  | some i =>
    obtain ⟨b, hb, rfl⟩ := hl
    obtain ⟨lender, hk⟩ := Session.buffer?_eq_some.mp hb
    exact Bench.Sound.exists_block K.sound (.inl ⟨i, (K.lender i rfl).trans hk⟩) ha

/-- Whatever spares the lender and is not a write changes nothing in the block of what is lent. -/
theorem Kept.block (K : Kept s source x.session) (hl : l.LentBy s source) (ha : l.address? = some a)
    (hc : c.Spares source) (hw : ∀ k, ¬ c.Writes k) :
    (x.after c).heap.blocks[a.block]? = x.heap.blocks[a.block]? :=
  Session.blocks_step K.sound (K.guarded hl ha fun i hi ht => hc i hi ht.1) fun hk =>
    absurd hk (hw _)

/-! ### Lending -/

theorem holds_put {s : Session} {k : Nat} {b : Buffer} {lender : Option Nat}
    (ho : b.isOwner = false) : Holds ⟨s.put k b lender, k⟩ b.loan :=
  ⟨b, Session.buffer?_put_self .., rfl, ho⟩

theorem lentBy_of_region? {s : Session} {part : Part} {r : Region}
    (hp : s.region? part = some r) : r.loan.LentBy s none := by
  intro a ha
  cases ha
  obtain ⟨arr, harr, hblock, -⟩ := Session.exists_of_region? hp
  exact ⟨arr, harr, hblock.symm⟩

theorem loan_borrower {shape : Shape} {r : Region} (hs : shape.count? = some r.length) :
    (Buffer.borrower r.type .cpu (some r.address) shape).loan = r.loan := by
  simp only [Buffer.loan, Region.loan, Buffer.borrower, Shape.count_eq hs]
  rfl

theorem eq_of_otherBuffer? {s : Session} {k i : Nat} {b o : Buffer} (hb : s.buffer? i = some b)
    (ho : s.otherBuffer? k i = some o) : o = b ∧ k ≠ i := by
  obtain ⟨hne, l, hget⟩ := Session.otherBuffer?_eq_some.mp ho
  have ho' : s.buffer? i = some o := Session.buffer?_eq_some.mpr ⟨l, hget⟩
  exact ⟨Option.some.inj (ho'.symm.trans hb), hne⟩

theorem spares_of_targets {k i : Nat} (hc : c.targets = [k]) (hne : k ≠ i) :
    c.Spares (some i) := by
  intro j hj hmem
  cases hj
  rw [hc, List.mem_singleton] at hmem
  exact hne hmem.symm

/-- What is lent is that of another slot or of an array, and the borrower holds all of it. -/
theorem lent_of_answered {k : Nat} {v : Answer} (L : s.Lends k c source l)
    (hr : (s.step c).2 = .answered (.ok v)) :
    l.LentBy s source ∧ c.Spares source ∧ Holds ⟨(s.step c).1, k⟩ l := by
  cases L with
  | @view i b hb =>
    have hstep := Session.build_of_answered hr
    rw [hstep] at hr ⊢
    cases ho : s.otherBuffer? k i with
    | none => simp [Session.build, ho, Session.refuse] at hr
    | some o =>
      obtain ⟨rfl, hne⟩ := eq_of_otherBuffer? hb ho
      refine ⟨⟨o, hb, rfl⟩, spares_of_targets rfl hne, ?_⟩
      simp only [Session.build, ho, Session.install]
      exact holds_put rfl
  | @borrow i b hb =>
    obtain ⟨b', lender, hk, hstep⟩ := Session.change_of_answered hr
    rw [hstep] at hr ⊢
    cases ho : s.otherBuffer? k i with
    | none => simp [Session.changeBuffer, ho, Session.refuse] at hr
    | some o =>
      obtain ⟨rfl, hne⟩ := eq_of_otherBuffer? hb ho
      refine ⟨⟨o, hb, rfl⟩, spares_of_targets rfl hne, ?_⟩
      simp only [Session.changeBuffer, ho, Session.conclude]
      exact holds_put rfl
  | @ofArray shape part r hp =>
    have hstep := Session.build_of_answered hr
    rw [hstep] at hr ⊢
    refine ⟨lentBy_of_region? hp, Command.spares_none _, ?_⟩
    simp only [Session.build, hp, Buffer.ofArray] at hr ⊢
    rcases (Buffer.empty r.type .cpu).borrowArray_cases r.type r.address r.length shape s.host with
      ⟨e, -, ho⟩ | ⟨-, -, hs, ho⟩
    · rw [ho] at hr
      cases hr
    · rw [ho, ← loan_borrower hs]
      exact holds_put rfl
  | @borrowArray shape part r hp =>
    obtain ⟨b, lender, hk, hstep⟩ := Session.change_of_answered hr
    rw [hstep] at hr ⊢
    refine ⟨lentBy_of_region? hp, Command.spares_none _, ?_⟩
    simp only [Session.changeBuffer, hp] at hr ⊢
    rcases b.borrowArray_cases r.type r.address r.length shape s.host with
      ⟨e, -, ho⟩ | ⟨ht, hd, hs, ho⟩
    · rw [ho] at hr
      cases hr
    · rw [ho, ← loan_borrower hs, ht, hd]
      exact holds_put rfl

/-! ### Writing -/

/-- A write changes no byte if it does not succeed or is not even tried. -/
theorem write_cases (H : x.session.Sound) {what : Change} (hw : what.isWrite = true) :
    ((x.after (.change x.slot what)).heap = x.heap ∧
        ∀ v, (x.session.step (.change x.slot what)).2 ≠ .answered (.ok v)) ∨
      ∃ b lender p v, x.session.slots.get? x.slot = some ⟨b, lender⟩ ∧
        x.session.patch? x.slot b what = some p ∧
        (x.session.step (.change x.slot what)).2 = .answered (.ok v) ∧
        Buffer.Written b x.session.host p.type p.position p.values
          (x.after (.change x.slot what)).session.host := by
  simp only [heap, after]
  by_cases hl : ∀ j ∈ (Command.change x.slot what).exclusive, x.session.isLender j = false
  · rw [Session.step_change hl]
    cases hk : x.session.slots.get? x.slot with
    | none => exact .inl (by simp [Session.change, hk, Session.refuse])
    | some sl =>
      obtain ⟨b, lender⟩ := sl
      have hv : b.Valid := H.valid (.inl ⟨x.slot, hk⟩)
      simp only [Session.change, hk]
      rcases (Session.changing hv.size_le lender what).write_cases hw with
        hno | ⟨p, v, hp, hr, W⟩
      · exact .inl hno
      · exact .inr ⟨b, lender, p, v, rfl, hp, hr, W⟩
  · rw [Session.step_of_frozen hl]
    exact .inl ⟨rfl, fun _ hr => by cases hr⟩

/-- How the buffer works on memory that has been lent to it. -/
structure WritesThrough (x : Tracked) (source : Option Nat) (l : Loan) (a : Address) : Prop where
  /-- What is written through the buffer is written at the same positions of what is lent. -/
  write : ∀ {what v}, what.isWrite = true →
    (x.session.step (.change x.slot what)).2 = .answered (.ok v) →
    ∃ b p, x.buffer? = some b ∧ x.session.patch? x.slot b what = some p ∧ p.type = l.type ∧
      p.Applied a l.capacity x.heap (x.after (.change x.slot what)).heap
  /-- A write that fails, and whatever is not a write, changes nothing in what is lent. -/
  quiet : ∀ {c}, c.Spares source →
    (∀ k, c.Writes k → k = x.slot ∧ ∀ v, (x.session.step c).2 ≠ .answered (.ok v)) →
    (x.after c).heap.blocks[a.block]? = x.heap.blocks[a.block]?

theorem Kept.writesThrough (K : Kept s source x.session) (hl : l.LentBy s source)
    (ha : l.address? = some a) (hx : x.Holds l) : x.WritesThrough source l a where
  write {what v} hw hr := by
    obtain ⟨b, hb, rfl, -⟩ := hx
    rcases write_cases K.sound hw with ⟨-, hno⟩ | ⟨b', lender, p, -, hk, hp, -, W⟩
    · exact absurd hr (hno v)
    · cases hb.symm.trans (Session.buffer?_eq_some.mpr ⟨lender, hk⟩)
      have hn : b.size ≤ b.capacity := (K.sound.valid (.inl ⟨_, hk⟩)).size_le
      have hplaced : b.Placed x.heap := K.sound.placed (.inl ⟨_, hk⟩)
      exact ⟨b, p, hb, hp, W.type, W.applied ha hplaced hn⟩
  quiet {c} hc hw := by
    by_cases hwrites : ∃ k, c.Writes k
    · obtain ⟨k, what, rfl, hwrite⟩ := hwrites
      obtain ⟨rfl, hr⟩ := hw k ⟨what, rfl, hwrite⟩
      rcases write_cases K.sound hwrite with ⟨hheap, -⟩ | ⟨-, -, -, v, -, -, hok, -⟩
      · rw [hheap]
      · exact absurd hok (hr v)
    · exact K.block hl ha hc (not_exists.mp hwrites)

/-- A buffer that has no byte in common with what was lent changes none of it. -/
theorem Kept.byte (K : Kept s source x.session) (hl : l.LentBy s source) (hc : c.Spares source)
    (hx : x.Apart l ∨ ∀ k, ¬ c.Writes k) (hw : ∀ k, c.Writes k → k = x.slot) {z : Address}
    (hz : l.Covers z) : (x.after c).heap.byte z = x.heap.byte z := by
  by_cases hwrites : ∃ k, c.Writes k
  · obtain ⟨k, what, rfl, hwrite⟩ := hwrites
    obtain rfl := hw k ⟨what, rfl, hwrite⟩
    rcases write_cases K.sound hwrite with ⟨hheap, -⟩ | ⟨b, lender, p, -, hk, -, -, W⟩
    · rw [hheap]
    · have hn : b.size ≤ b.capacity := (K.sound.valid (.inl ⟨_, hk⟩)).size_le
      have hapart : b.Apart l :=
        (hx.resolve_right fun h => h _ ⟨what, rfl, hwrite⟩) b
          (Session.buffer?_eq_some.mpr ⟨lender, hk⟩)
      exact W.byte hn fun hb => hapart z hb hz
  · obtain ⟨a, ha, hblock, -⟩ := hz
    have hsame := K.block hl ha hc (not_exists.mp hwrites)
    simp only [Heap.byte, hblock, hsame]

theorem Detaches.not_writes {k : Nat} (hd : x.Detaches c) : ¬ c.Writes k := by
  rintro ⟨what, rfl, hw⟩
  cases hd <;> cases hw

/-- Whatever is done with a buffer that has been detached, short of having it borrow again. -/
def Detached (source : Option Nat) (l : Loan) (x : Tracked) (c : Command) : Prop :=
  c.Spares source ∧ (∀ k, c.Writes k → k = x.slot) ∧ ¬ x.Reborrows l c

theorem Kept.byte_run {y : Tracked} (K : Kept s source x.session) (hl : l.LentBy s source)
    (hx : x.Apart l) (R : x.Run (Detached source l) y) {z : Address} (hz : l.Covers z) :
    y.heap.byte z = x.heap.byte z := by
  obtain ⟨a, ha, -⟩ := id hz
  have hboth : y.Apart l ∧ y.heap.byte z = x.heap.byte z := by
    -- both are kept together: the buffer writes elsewhere only while it is apart
    induction R with
    | refl => exact ⟨hx, rfl⟩
    | tail R hstep ih =>
      obtain ⟨c, ⟨hc, hw, hborrow⟩, rfl⟩ := hstep
      have K' := K.run (fun _ _ h => h.1) R
      have G := K'.guarded hl ha (T := c.Touches) fun i hi ht => hc i hi ht.1
      exact ⟨apart_after K'.sound ha G (.inl ih.1) hborrow,
        (K'.byte hl hc (.inl ih.1) hw hz).trans ih.2⟩
  exact hboth.2

end Tracked

namespace Session

/-- Memory that has been lent. Whatever is done that spares the lender, the lender stays as it is
and what it has lent is not returned. As long as no command detaches it, the borrower holds what has
been lent to it and is written through. Once it has been detached, nothing that is done with it
changes a byte of what was lent, until it is made to borrow some of it again. -/
theorem lending_run (system : Allocator) (arrays : List ((t : ElemType) × List (Elem t)))
    (cs : List Command) {k : Nat}
    {c : Command} {source : Option Nat} {l : Loan} {v : Answer}
    (L : ((Session.start system arrays).run cs).Lends k c source l)
    (hr : (((Session.start system arrays).run cs).step c).2 = .answered (.ok v)) :
    let s := (Session.start system arrays).run cs
    let lent : Tracked := ⟨(s.step c).1, k⟩
    (∀ x, lent.Run (fun _ c => c.Spares source) x →
      (∀ i, source = some i → x.session.slots.get? i = s.slots.get? i) ∧
        ∀ a, l.address? = some a →
          ∃ block, x.heap.blocks[a.block]? = some block ∧ block.returned = []) ∧
    (∀ a, l.address? = some a →
      ∀ x, lent.Run (fun x c => c.Spares source ∧ ¬ x.Detaches c) x →
        x.Holds l ∧ x.WritesThrough source l a) ∧
    ∀ x d y, lent.Run (fun _ c => c.Spares source) x → d.Spares source → x.Detaches d →
      ¬ x.Reborrows l d → (x.after d).Run (Tracked.Detached source l) y →
        ∀ z, l.Covers z → y.heap.byte z = x.heap.byte z := by
  intro s lent
  obtain ⟨hl, hc, hlent⟩ := Tracked.lent_of_answered L hr
  have K₀ : Tracked.Kept s source s := ⟨sound_run system arrays cs, rfl, fun _ _ => rfl⟩
  have K : Tracked.Kept s source lent.session := K₀.step hc
  refine ⟨fun x R => ?_, fun a ha x R => ?_, fun x d y R hd hdetach hborrow R' z hz => ?_⟩
  · have K' := K.run (fun _ _ h => h) R
    exact ⟨K'.lender, fun a => K'.exists_block hl⟩
  · have K' := K.run (fun _ _ h => h.1) R
    have hx : x.Holds l := by
      induction R with
      | refl => exact hlent
      | tail R hstep ih =>
        obtain ⟨c, ⟨-, hd⟩, rfl⟩ := hstep
        have K₁ := K.run (fun _ _ h => h.1) R
        exact (ih K₁).after K₁.sound (ha ▸ rfl) hd
    exact ⟨hx, K'.writesThrough hl ha hx⟩
  · have K' := K.run (fun _ _ h => h) R
    obtain ⟨a, ha, -⟩ := id hz
    have G := K'.guarded hl ha (T := d.Touches) fun i hi ht => hd i hi ht.1
    have hapart := Tracked.apart_after K'.sound ha G (.inr hdetach) hborrow
    have hwrites (k : Nat) : ¬ d.Writes k := hdetach.not_writes
    calc y.heap.byte z
      _ = (x.after d).heap.byte z := (K'.step hd).byte_run hl hapart R' hz
      _ = x.heap.byte z := K'.byte hl hd (.inr hwrites) (fun k hk => absurd hk (hwrites k)) hz

/-- A buffer of slot 0 is viewed in slot 1. What is written through the view is written to it. -/
theorem lending_run_view :
    let s := (Session.start (.below 4096) []).run
      [.build 0 (.ofValues ⟨[2]⟩ (t := .u8) [1, 2] .cpu)]
    ∃ l, s.Lends 1 (.build 1 (.view 0)) (some 0) l ∧
      (s.step (.build 1 (.view 0))).2 = .answered (.ok .nothing) ∧
      let lent : Tracked := ⟨(s.step (.build 1 (.view 0))).1, 1⟩
      lent.Holds l ∧ lent.WritesThrough (some 0) l ⟨0, 0⟩ :=
  let H := lending_run (.below 4096) [] [.build 0 (.ofValues ⟨[2]⟩ (t := .u8) [1, 2] .cpu)]
    (@Session.Lends.view _ 1 0 _ rfl) rfl
  ⟨_, .view rfl, rfl, H.2.1 ⟨0, 0⟩ rfl _ .refl⟩

/-- Reserving more than there is room for does not always detach: if the bytes of the new block
cannot be counted, the buffer goes on to borrow, and the next write goes to what was lent. -/
theorem reserve_keeps_borrowing :
    let s := (Session.start (.below 4096) [⟨.u8, [1, 2]⟩]).run
      [.build 0 (.ofArray ⟨[2]⟩ ⟨0, none, none⟩)]
    let x : Tracked := ⟨s, 0⟩
    let y := x.after (.change 0 (.reserve Count.top))
    (∃ b, x.buffer? = some b ∧ b.capacity < Count.top) ∧
      (s.step (.change 0 (.reserve Count.top))).2 =
        .answered (.error (.capacityOverflow Count.top .u8)) ∧
      x.heap.content 0 = [1, 2] ∧
      (y.after (.change 0 (.fill (t := .u8) 9))).heap.content 0 = [9, 9] :=
  ⟨⟨_, rfl, by decide⟩, rfl, by decide, by decide⟩

end Session

end NdBuffer
