import NdBuffer.Proofs.Session.Chains

/-!
# Reachable sessions

A session that starts with arrays and carries out commands satisfies the invariant of `Bench.Sound`
at every point (`Session.sound_run`), and so the slots, the host and the representation of every
buffer are as they should be, whatever has failed on the way. In the end all buffers are dropped,
and then nothing is left to be returned (`Session.ledger_finish`).
-/

namespace NdBuffer

namespace Session

variable {s : Session} {h : Host} {k : Nat} {sl : Slot} {b : Buffer}

/-- The invariant of a session between two commands. -/
def Sound (s : Session) : Prop := Bench.Sound s.arrays s.bench

theorem sound_step (H : s.Sound) (c : Command) : (s.step c).1.Sound := by
  rw [Sound, arrays_step]
  exact Bench.Moves.sound (moves_step H c) H

theorem sound_foldl (H : s.Sound) (cs : List Command) : (s.run cs).Sound := by
  induction cs generalizing s with
  | nil => exact H
  | cons c cs ih => exact ih (sound_step H c)

theorem sound_addArray (H : s.Sound) {t : ElemType} (vs : List (Elem t)) :
    (s.addArray vs).Sound := by
  have hold {m : BlockId} {c : Block} (hc : s.host.heap.blocks[m]? = some c) :
      (s.host.heap.adopt (vs.flatMap Elem.bytes)).2.blocks[m]? = some c := by
    have hlt := (List.getElem?_eq_some_iff.mp hc).1
    simpa [Heap.adopt, List.getElem?_append_left hlt] using hc
  have halike := Bench.Sound.alike H (fun m c hc => ⟨c, hold hc, .rfl⟩)
    (H.ledger.adopt (vs.flatMap Elem.bytes))
  refine ⟨halike.valid, halike.ledger, halike.traced, halike.placed, halike.settled, ?_⟩
  intro arr harr
  rcases List.mem_append.mp harr with harr | harr
  · exact halike.arrays arr harr
  · obtain rfl := List.mem_singleton.mp harr
    refine ⟨.ofBytes (vs.flatMap Elem.bytes), by simp [bench, addArray, Heap.adopt], rfl, ?_⟩
    simp [Block.ofBytes]

theorem sound_start (system : Allocator) (arrays : List ((t : ElemType) × List (Elem t))) :
    (Session.start system arrays).Sound := by
  have hempty : (Session.mk (.empty system) [] ∅).Sound := by
    have hnothing {sl : Slot} : ¬ (Bench.mk (.empty system) ∅ []).Has sl := by
      rintro (⟨k, hk⟩ | hmem)
      · cases hk
      · cases hmem
    refine ⟨fun hs => absurd hs hnothing, Host.Ledger.empty system, fun hs => absurd hs hnothing,
      fun hs => absurd hs hnothing, ?_, ?_⟩
    · intro k sl hk
      cases hk
    · intro arr harr
      cases harr
  have hfold (s : Session) (H : s.Sound) :
      (arrays.foldl (fun s a => s.addArray a.2) s).Sound := by
    induction arrays generalizing s with
    | nil => exact H
    | cons a arrays ih => exact ih _ (sound_addArray H a.2)
  exact hfold _ hempty

/-- Whatever commands are carried out, the invariant holds afterwards. -/
theorem sound_run (system : Allocator) (arrays : List ((t : ElemType) × List (Elem t)))
    (cs : List Command) :
    ((Session.start system arrays).run cs).Sound :=
  sound_foldl (sound_start system arrays) cs

/-- A change that is answered is one of the buffer in its slot. -/
theorem changing_of_answered (H : s.Sound) {what : Change} {r : Except Error Answer}
    (hr : (s.step (.change k what)).2 = .answered r) :
    ∃ b lender, s.slots.get? k = some ⟨b, lender⟩ ∧
      s.Changing k b lender what (s.step (.change k what)) := by
  obtain ⟨b, lender, hk, hstep⟩ := change_of_answered hr
  have hv : b.Valid := H.valid (.inl ⟨k, hk⟩)
  rw [hstep]
  exact ⟨b, lender, hk, changing hv.size_le lender what⟩

/-! ### The memory that buffers own -/

theorem buffer?_eq_some : s.buffer? k = some b ↔ ∃ l, s.slots.get? k = some ⟨b, l⟩ := by
  rw [buffer?]
  constructor
  · intro h
    obtain ⟨⟨b, l⟩, hget, rfl⟩ := Option.map_eq_some_iff.mp h
    exact ⟨l, hget⟩
  · rintro ⟨l, hget⟩
    rw [hget]
    rfl

theorem buffer?_put_self (s : Session) (k : Nat) (b : Buffer) (l : Option Nat) :
    (s.put k b l).buffer? k = some b := by
  simp [buffer?, put]

theorem buffer?_put_of_ne (s : Session) {j : Nat} (b : Buffer) (l : Option Nat) (h : j ≠ k) :
    (s.put k b l).buffer? j = s.buffer? j := by
  simp [buffer?, put, Table.get?_put_of_ne _ _ h]

theorem valid_of_buffer? (H : s.Sound) (hb : s.buffer? k = some b) : b.Valid :=
  let ⟨_, hk⟩ := buffer?_eq_some.mp hb
  H.valid (.inl ⟨k, hk⟩)

/-- A change of a slot that is answered is one of the buffer that is there. -/
theorem exists_lender_of_answered {what : Change} {r : Except Error Answer}
    (hb : s.buffer? k = some b) (hr : (s.step (.change k what)).2 = .answered r) :
    ∃ lender, s.slots.get? k = some ⟨b, lender⟩ ∧
      s.step (.change k what) = s.changeBuffer k b lender what := by
  obtain ⟨c, lender, hk, hstep⟩ := change_of_answered hr
  obtain rfl : b = c := Option.some.inj (hb.symm.trans (buffer?_eq_some.mpr ⟨lender, hk⟩))
  exact ⟨lender, hk, hstep⟩

/-- Whether the buffer of a slot owns a block. -/
def Owns (s : Session) (k : Nat) (id : BlockId) : Prop :=
  ∃ b, s.buffer? k = some b ∧ b.ownsMemory = true ∧ b.address? = some ⟨id, 0⟩

theorem owns_iff (H : s.Sound) {id : BlockId} :
    s.Owns k id ↔ ∃ sl, s.slots.get? k = some sl ∧ ∃ o ∈ sl.buffer.holdings, o.block = id := by
  constructor
  · rintro ⟨b, hb, ho, ha⟩
    obtain ⟨l, hk⟩ := buffer?_eq_some.mp hb
    have ho : b.isOwner = true := by simpa [Buffer.ownsMemory, ha] using ho
    exact ⟨_, hk, _, Buffer.mem_holdings.mpr ⟨_, ho, ha, rfl⟩, rfl⟩
  · rintro ⟨⟨b, l⟩, hk, o, hmem, rfl⟩
    obtain ⟨⟨block, offset⟩, ho, ha, rfl⟩ := Buffer.mem_holdings.mp hmem
    have ho : b.isOwner = true := ho
    have ha : b.address? = some ⟨block, offset⟩ := ha
    have hzero : offset = 0 := ((H.valid (.inl ⟨k, hk⟩)).owned ho ha).2.2.1
    exact ⟨b, buffer?_eq_some.mpr ⟨l, hk⟩, by simp [Buffer.ownsMemory, ho, ha], hzero ▸ ha⟩

theorem mem_outstanding_iff (H : s.Sound) {id : BlockId} :
    id ∈ s.host.heap.outstanding ↔ ∃ k, s.Owns k id := by
  rw [show s.host = s.bench.host from rfl, H.ledger.mem_outstanding_iff]
  constructor
  · rintro ⟨o, ho, rfl⟩
    obtain ⟨sl, ⟨k, hk⟩ | hmem, ho⟩ := Bench.exists_of_mem_holdings ho
    · exact ⟨k, (owns_iff H).mpr ⟨sl, hk, o, ho, rfl⟩⟩
    · cases hmem
  · rintro ⟨k, howns⟩
    obtain ⟨sl, hk, o, ho, rfl⟩ := (owns_iff H).mp howns
    exact ⟨o, Bench.mem_holdings (.inl ⟨k, hk⟩) ho, rfl⟩

/-- A block has one owner. -/
theorem Owns.unique (H : s.Sound) {j : Nat} {id : BlockId} (howns : s.Owns j id)
    (howns' : s.Owns k id) : j = k := by
  obtain ⟨sl, hj, o, ho, rfl⟩ := (owns_iff H).mp howns
  obtain ⟨sl', hk, p, hp, heq⟩ := (owns_iff H).mp howns'
  by_contra hne
  have hledger := (H.ledger.perm (Bench.perm_holdings_pickUp hj)).perm Bench.perm_holdings_cons
  have hdistinct := hledger.distinct
  rw [List.map_append] at hdistinct
  have hk : (s.slots.erase j).get? k = some sl' :=
    (s.slots.get?_erase_of_ne (Ne.symm hne)).trans hk
  have hp : p ∈ (Bench.mk s.host (s.slots.erase j) []).holdings :=
    Bench.mem_holdings (.inl ⟨k, hk⟩) hp
  exact (List.nodup_append.mp hdistinct).2.2 _ (List.mem_map_of_mem ho) _
    (List.mem_map_of_mem hp) heq.symm

/-- The block of an owner has been allocated for the bytes that the owner has recorded, and it has
not been returned. -/
theorem Owns.block (H : s.Sound) {id : BlockId} (howns : s.Owns k id) (hb : s.buffer? k = some b) :
    ∃ block, s.host.heap.blocks[id]? = some block ∧
      block.layout = some ⟨b.reserved, standardAlignment⟩ ∧ block.returned = [] ∧
      block.bytes.size = b.reserved := by
  obtain ⟨sl, hk, o, ho, rfl⟩ := (owns_iff H).mp howns
  obtain ⟨l, hb⟩ := buffer?_eq_some.mp hb
  cases hk.symm.trans hb
  have hblock := H.ledger.outstanding o (Bench.mem_holdings (.inl ⟨k, hk⟩) ho)
  obtain ⟨a, howner, -, rfl⟩ := Buffer.mem_holdings.mp ho
  have hreserved : b.reserved = b.blockBytes := if_pos howner
  rw [hreserved]
  exact hblock

/-- The memory of a buffer has not been returned, whether it is owned or borrowed. -/
theorem returned_eq_nil (H : s.Sound) (hb : s.buffer? k = some b) {a : Address}
    (ha : b.address? = some a) :
    ∃ block, s.host.heap.blocks[a.block]? = some block ∧ block.returned = [] := by
  obtain ⟨l, hk⟩ := buffer?_eq_some.mp hb
  exact Bench.Sound.exists_block H (.inl ⟨k, hk⟩) ha

/-- Dropping all buffers returns everything. -/
theorem ledger_foldl_release {es : List (Nat × Slot)} {rest : List Holding}
    (hv : ∀ e ∈ es, e.2.buffer.Valid)
    (H : h.Ledger (es.flatMap (·.2.buffer.holdings) ++ rest)) :
    (es.foldl (fun h e => (e.2.buffer.release h).2) h).Ledger rest := by
  induction es generalizing h with
  | nil => exact H
  | cons e es ih =>
    refine ih (fun e he => hv e (List.mem_cons_of_mem _ he)) ?_
    rw [List.flatMap_cons, List.append_assoc] at H
    exact Buffer.ledger_release (hv e List.mem_cons_self) H

theorem ledger_finish (H : s.Sound) : s.finish.host.Ledger [] := by
  refine ledger_foldl_release (fun e he => ?_) H.ledger
  exact H.valid (.inl ⟨e.1, Table.mem_entries.mp he⟩)

/-- A slot that a command does not target keeps its buffer. -/
theorem get?_slots_step (H : s.Sound) {c : Command} (hk : k ∉ c.targets) :
    (s.step c).1.slots.get? k = s.slots.get? k :=
  Bench.Moves.get?_slots (moves_step H c) fun ht => hk ht.1

/-! ### The ledger of a session -/

/-- How the blocks of the host are accounted for between two commands. -/
structure Accounted (s : Session) : Prop where
  /-- The blocks that have been allocated and not been returned are those that buffers own. -/
  outstanding : ∀ {id}, id ∈ s.host.heap.outstanding ↔ ∃ k, s.Owns k id
  /-- A buffer that owns memory owns a block. -/
  owner : ∀ {k b}, s.buffer? k = some b → b.ownsMemory = true → ∃ id, s.Owns k id
  /-- No block has two owners. -/
  unique : ∀ {j k id}, s.Owns j id → s.Owns k id → j = k
  /-- A block has been allocated for the bytes that its owner will return it with. -/
  layout : ∀ {k id b}, s.Owns k id → s.buffer? k = some b →
    ∃ block, s.host.heap.blocks[id]? = some block ∧ block.layout = some ⟨b.reserved, 64⟩
  /-- Memory of a buffer, owned or borrowed, has not been returned. -/
  alive : ∀ {k b a}, s.buffer? k = some b → b.address? = some a →
    ∃ block, s.host.heap.blocks[a.block]? = some block ∧ block.returned = []
  /-- What has been returned has been returned once, under the layout that it was allocated with. -/
  once : ∀ {block l}, block ∈ s.host.heap.blocks → block.layout = some l →
    l.alignment = 64 ∧ (block.returned = [] ∨ block.returned = [l])
  /-- An array of the caller is never returned. -/
  array : ∀ {block}, block ∈ s.host.heap.blocks → block.layout = none → block.returned = []
  quiet : ∀ l, .leaking l ∉ s.host.log

theorem Sound.accounted (H : s.Sound) : s.Accounted where
  outstanding := mem_outstanding_iff H
  owner {k b} hb ho := by
    obtain ⟨l, hk⟩ := buffer?_eq_some.mp hb
    have ho := (Bool.and_eq_true _ _).mp ho
    obtain ⟨a, ha⟩ := Option.isSome_iff_exists.mp ho.2
    have hmem := Buffer.mem_holdings.mpr ⟨a, ho.1, ha, rfl⟩
    exact ⟨a.block, (owns_iff H).mpr ⟨_, hk, _, hmem, rfl⟩⟩
  unique := Owns.unique H
  layout howns hb :=
    let ⟨block, hblock, hl, _⟩ := Owns.block H howns hb
    ⟨block, hblock, hl⟩
  alive hb := returned_eq_nil H hb
  once hblock hl :=
    let hacc := H.ledger.accounted _ hblock
    ⟨(hacc.aligned hl).2, hacc.once hl⟩
  array hblock := (H.ledger.accounted _ hblock).array
  quiet := H.ledger.quiet

/-- A block that a command returns was owned by a buffer that the command targets. -/
theorem exists_owns_of_returned (H : s.Sound) {c : Command} {id : BlockId}
    (hid : id ∈ s.host.heap.outstanding) (hid' : id ∉ (s.step c).1.host.heap.outstanding) :
    ∃ k ∈ c.targets, s.Owns k id := by
  obtain ⟨k, howns⟩ := (mem_outstanding_iff H).mp hid
  refine ⟨k, ?_, howns⟩
  by_contra hk
  refine hid' ((mem_outstanding_iff (sound_step H c)).mpr ⟨k, ?_⟩)
  rwa [Owns, buffer?, get?_slots_step H hk]

/-- The ledger of memory: at every point of a session the blocks of the host are accounted for,
whatever is returned was owned by a buffer, and once all buffers are dropped every block that was
allocated has been returned, once and under its own layout. -/
theorem ledger_run (system : Allocator) (arrays : List ((t : ElemType) × List (Elem t)))
    (cs : List Command) :
    let s := (Session.start system arrays).run cs
    s.Accounted ∧
      (∀ c id, id ∈ s.host.heap.outstanding → id ∉ (s.step c).1.host.heap.outstanding →
        ∃ k ∈ c.targets, s.Owns k id) ∧
      s.finish.host.heap.outstanding = [] ∧
      (∀ block ∈ s.finish.host.heap.blocks, block.returned = block.layout.toList) ∧
      ∀ l, .leaking l ∉ s.finish.host.log := by
  intro s
  have H : s.Sound := sound_run system arrays cs
  have hfinish := ledger_finish H
  refine ⟨H.accounted, fun c id => exists_owns_of_returned H, ?_, ?_, hfinish.quiet⟩
  · refine List.eq_nil_iff_forall_not_mem.mpr fun id hid => ?_
    obtain ⟨o, ho, -⟩ := hfinish.covered id hid
    cases ho
  · exact fun block => hfinish.returned_eq

/-- A buffer is duplicated into another one, which has to exchange its block for that, and moved to
a third slot, and the duplicate is dropped. One block is in use then, and it is the first one. -/
theorem ledger_run_moved :
    let cs : List Command := [.build 0 (.ofValues ⟨[2]⟩ (t := .u8) [1, 2] .cpu),
      .build 1 (.ofShape ⟨[17]⟩ .f32 .cpu), .change 1 (.duplicate 0), .build 2 (.take 0),
      .change 1 .drop]
    let s := (Session.start (.below 4096) []).run cs
    s.host.heap.usage = [⟨some ⟨64, 64⟩, []⟩, ⟨some ⟨128, 64⟩, [⟨128, 64⟩]⟩,
        ⟨some ⟨64, 64⟩, [⟨64, 64⟩]⟩] ∧
      s.host.heap.outstanding = [0] ∧ (∀ k, s.Owns k 0 ↔ k = 2) ∧
      s.finish.host.heap.outstanding = [] := by
  intro cs s
  obtain ⟨H, -, hfinish, -⟩ := ledger_run (.below 4096) [] cs
  have howns : s.Owns 2 0 := ⟨_, rfl, rfl, rfl⟩
  refine ⟨by decide +kernel, by decide +kernel, fun k => ⟨fun h => H.unique h howns, ?_⟩, hfinish⟩
  rintro rfl
  exact howns

/-! ### The representation of buffers -/

/-- However a buffer has come about, its fields fit together. -/
theorem representation_run (system : Allocator) (arrays : List ((t : ElemType) × List (Elem t)))
    (cs : List Command)
    {k : Nat} {b : Buffer} (hb : ((Session.start system arrays).run cs).buffer? k = some b) :
    b.shape.checkedCount = .ok b.size ∧ (b.rank = 0 → b.size = 0) ∧
      b.strides = b.shape.strides ∧ b.strides.length = b.rank ∧ b.size ≤ b.capacity ∧
      (b.ownsMemory = true → b.device = .cpu ∧ 0 < b.capacity ∧
        IsLeast {m | 64 ∣ m ∧ b.capacity * b.type.width ≤ m} b.reserved) ∧
      (b.isOwner = true → b.address? = none → b.capacity = 0 ∧ b.reserved = 0) ∧
      (b.isOwner = false → b.blockBytes = 0) := by
  obtain ⟨l, hk⟩ := buffer?_eq_some.mp hb
  have hv : b.Valid := (sound_run system arrays cs).valid (.inl ⟨k, hk⟩)
  have hrank : b.strides.length = b.rank := by rw [hv.strides, Shape.length_strides, Buffer.rank]
  refine ⟨Shape.checkedCount_eq_ok.mpr hv.count, fun h0 => ?_, hv.strides, hrank, hv.size_le,
    fun ho => ?_, fun ho ha => ?_, hv.borrowed⟩
  · have hdims : b.shape.dims = [] := List.length_eq_zero_iff.mp h0
    have hcount := hv.count
    rw [Shape.count?, if_pos hdims] at hcount
    exact (Option.some.inj hcount).symm
  · obtain ⟨ho, ha⟩ := (Bool.and_eq_true _ _).mp ho
    obtain ⟨a, ha⟩ := Option.isSome_iff_exists.mp ha
    obtain ⟨hd, hn, -, hbytes⟩ := hv.owned ho ha
    have hreserved : b.reserved = b.blockBytes := if_pos ho
    exact ⟨hd, hn, hreserved ▸ Buffer.isLeast_of_byteSize? hbytes⟩
  · obtain ⟨hn, hbytes⟩ := hv.bare ho ha
    exact ⟨hn, (if_pos ho).trans hbytes⟩

theorem representation_run_ofShape :
    let s := (Session.start (.below 4096) []).run [.build 0 (.ofShape ⟨[2, 3]⟩ .f32 .cpu)]
    ∃ b, s.buffer? 0 = some b ∧
      b.size = 6 ∧ b.shape.checkedCount = .ok b.size ∧
      IsLeast {m | 64 ∣ m ∧ b.capacity * b.type.width ≤ m} b.reserved :=
  have H := representation_run (.below 4096) []
    [.build 0 (.ofShape ⟨[2, 3]⟩ .f32 .cpu)] (k := 0) rfl
  ⟨_, rfl, rfl, H.1, (H.2.2.2.2.2.1 rfl).2.2⟩

end Session

end NdBuffer
