import NdBuffer.Proofs.Buffer.Accessing
import NdBuffer.Proofs.Session.Copies

/-!
# Sizes of blocks

If a system gives only blocks of fewer bytes than some bound (`Allocator.GivesBelow`), and the
arrays that a session starts with keep below it as well, then no block ever reaches it, and neither
do the elements of a buffer of the host (`Session.size_lt`). No system gives half of the address
space (`Allocator.givesBelow_extent`). If a system gives exactly what keeps below a bound, there is
room for a list of the elements of every such buffer (`Session.hasRoom`).
-/

namespace NdBuffer

/-- Whether all that a system gives keeps below a bound. -/
def Allocator.GivesBelow (system : Allocator) (n : Nat) : Prop :=
  ∀ used l, l.Valid → system used l = true → l.bytes < n

/-- Whether a system gives all that keeps below a bound, in its bytes and in its alignment. -/
def Allocator.GivesAll (system : Allocator) (n : Nat) : Prop :=
  ∀ used l, l.Valid → l.bytes < n → l.alignment < n → system used l = true

theorem Allocator.givesBelow_below (n : Nat) : (below n).GivesBelow n := by
  intro used l _ hl
  exact of_decide_eq_true (Bool.and_eq_true_iff.mp hl).1

theorem Allocator.givesAll_below (n : Nat) : (below n).GivesAll n := by
  intro used l _ hbytes halign
  exact Bool.and_eq_true_iff.mpr ⟨decide_eq_true hbytes, decide_eq_true halign⟩

/-- What is valid leaves as much of half of the address space as its alignment needs. -/
theorem Allocator.givesBelow_extent (system : Allocator) : system.GivesBelow Layout.extent := by
  rintro used l ⟨-, halign, hextent⟩ -
  have hpos : 0 < l.alignment := by
    rw [← halign, Nat.one_shiftLeft]
    exact Nat.two_pow_pos _
  omega

namespace Heap

variable {m m' : Heap} {system : Allocator} {l : Layout} {id : BlockId} {n : Nat}

/-- Whether the blocks are from a system that keeps below a bound, and keep below it themselves. -/
structure Bounded (m : Heap) (system : Allocator) (n : Nat) : Prop where
  block : ∀ block ∈ m.blocks, block.bytes.size < n
  system_eq : m.system = system
  givesBelow : system.GivesBelow n

theorem Bounded.add (B : m.Bounded system n) {block : Block} (h : block.bytes.size < n) :
    (m.add block).Bounded system n := by
  refine ⟨fun c hc => ?_, B.system_eq, B.givesBelow⟩
  rcases List.mem_append.mp hc with hc | hc
  · exact B.block c hc
  · rw [List.mem_singleton.mp hc]
    exact h

theorem Bounded.modify (B : m.Bounded system n) {f : Block → Block}
    (hf : ∀ block, (f block).bytes.size ≤ block.bytes.size) (id : BlockId) :
    Bounded { m with blocks := m.blocks.modify id f } system n := by
  refine ⟨fun c hc => ?_, B.system_eq, B.givesBelow⟩
  obtain ⟨i, hi⟩ := List.mem_iff_getElem?.mp hc
  rw [List.getElem?_modify] at hi
  obtain ⟨block, hblock, rfl⟩ := Option.map_eq_some_iff.mp hi
  have hlt := B.block block (List.mem_of_getElem? hblock)
  split
  · exact Nat.lt_of_le_of_lt (hf block) hlt
  · exact hlt

theorem Bounded.write (B : m.Bounded system n) (a : Address) (new : List UInt8) :
    (m.write a new).Bounded system n :=
  B.modify (fun block => Nat.le_of_eq (block.size_overwrite ..)) a.block

theorem Bounded.giveBack (B : m.Bounded system n) (id : BlockId) (l : Layout) :
    (m.giveBack id l).Bounded system n :=
  B.modify (fun _ => Nat.zero_le _) id

theorem Bounded.alloc (B : m.Bounded system n) (h : m.alloc l = .ok (id, m')) :
    m'.Bounded system n := by
  obtain ⟨hl, -, rfl⟩ := alloc_ok h
  refine B.add ?_
  have hlt : l.bytes < n := B.givesBelow _ _ hl.1 (B.system_eq ▸ hl.2)
  simpa [Block.zeroed] using hlt

theorem Bounded.size_lt (B : m.Bounded system n) (hn : 0 < n) (id : BlockId) : m.size id < n := by
  rw [size]
  cases hblock : m.blocks[id]? with
  | none => exact hn
  | some block => exact B.block block (List.mem_of_getElem? hblock)

end Heap

/-! ### Every step keeps to a bound -/

section
variable {system : Allocator} {n : Nat}

theorem Host.Edit.bounded {a? : Option Address} {h h' : Host} (E : Host.Edit a? h h')
    (B : h.heap.Bounded system n) : h'.heap.Bounded system n := by
  cases E with
  | log _ => exact B
  | write k bytes _ => exact B.write _ bytes

theorem Buffer.bounded_release (b : Buffer) {h : Host} (B : h.heap.Bounded system n) :
    (b.release h).2.heap.Bounded system n := by
  cases ha : b.ownAddress? with
  | none => rwa [release_snd_of_not_owned ha]
  | some a =>
    obtain ⟨ho, ha⟩ := ownAddress?_eq_some.mp ha
    cases hd : b.device with
    | cuda index => simpa [release, ha, ho, hd, returnBlock] using B
    | cpu =>
      rw [release_snd_of_owned ho ha hd, Host.free]
      split
      · exact B.giveBack a.block _
      · exact B

theorem Buffer.Move.bounded {p q : Buffer × Host} (M : Buffer.Move p q)
    (B : p.2.heap.Bounded system n) : q.2.heap.Bounded system n := by
  cases M with
  | edit E => exact E.bounded B
  | letGo => exact Buffer.bounded_release _ B
  | acquire _ _ ha => exact B.alloc ha
  | clear | shape _ _ | retag => exact B

end

namespace Bench

variable {arrays : List HostArray} {touched edited : Nat → Prop} {x y : Bench}
  {system : Allocator} {n : Nat}

theorem Move.bounded (M : Move arrays touched edited x y) (B : x.host.heap.Bounded system n) :
    y.host.heap.Bounded system n := by
  cases M with
  | act M => exact M.bounded B
  | edit _ _ E => exact E.bounded B
  | _ => exact B

theorem Moves.bounded (M : Moves arrays touched edited x y) (B : x.host.heap.Bounded system n) :
    y.host.heap.Bounded system n := by
  induction M with
  | refl => exact B
  | tail _ M ih => exact M.bounded ih

end Bench

namespace Session

variable {s : Session} {k n : Nat} {b : Buffer} {system : Allocator}

theorem bounded_step (H : s.Sound) (B : s.host.heap.Bounded system n) (c : Command) :
    (s.step c).1.host.heap.Bounded system n :=
  Bench.Moves.bounded (moves_step H c) B

theorem bounded_foldl (H : s.Sound) (B : s.host.heap.Bounded system n) (cs : List Command) :
    (s.run cs).host.heap.Bounded system n := by
  induction cs generalizing s with
  | nil => exact B
  | cons c cs ih => exact ih (sound_step H c) (bounded_step H B c)

theorem bounded_start {arrays : List ((t : ElemType) × List (Elem t))}
    (hsystem : system.GivesBelow n) (harrays : ∀ a ∈ arrays, a.2.length * a.1.width < n) :
    (Session.start system arrays).host.heap.Bounded system n := by
  have hfold (s : Session) (B : s.host.heap.Bounded system n) :
      (arrays.foldl (fun s a => s.addArray a.2) s).host.heap.Bounded system n := by
    induction arrays generalizing s with
    | nil => exact B
    | cons a arrays ih =>
      refine ih (fun a ha => harrays a (List.mem_cons_of_mem _ ha)) _ (B.add ?_)
      simpa [Block.ofBytes, Elem.length_flatMap_bytes] using harrays a List.mem_cons_self
  refine hfold _ ⟨fun block hblock => ?_, rfl, hsystem⟩
  cases hblock

/-- The elements of a buffer of the host keep below a bound that all blocks keep below. -/
theorem size_lt (H : s.Sound) (B : s.host.heap.Bounded system n) (hn : 0 < n)
    (hb : s.buffer? k = some b) (hd : b.device = .cpu) : b.size * b.type.width < n := by
  rcases Nat.eq_zero_or_pos b.size with hzero | hpos
  · rw [hzero, Nat.zero_mul]
    exact hn
  · obtain ⟨a, -, hfits⟩ := reaches_size_of_buffer? H hb hd hpos
    have hlt := B.size_lt hn a.block
    omega

/-- A list of elements takes as much as the elements do, so it keeps below the same bound. -/
theorem hasRoom (H : s.Sound) (B : s.host.heap.Bounded system n) (hall : system.GivesAll n)
    (hn : 8 < n) (hlt : b.size * b.type.width < Layout.extent) (hb : s.buffer? k = some b)
    (hd : b.device = .cpu) : b.HasRoom s.host.heap := by
  rcases Nat.eq_zero_or_pos b.size with hzero | hpos
  · exact .inl hzero
  · have hv : (b.listLayout b.type).Valid := (Buffer.valid_listLayout_iff hpos).mpr hlt
    refine .inr ⟨hv, ?_⟩
    rw [B.system_eq]
    exact hall _ _ hv (size_lt H B (Nat.zero_lt_of_lt hn) hb hd)
      (Nat.lt_of_le_of_lt b.type.width_le hn)

end Session

end NdBuffer
