import NdBuffer.Proofs.Buffer.Unavailable
import NdBuffer.Proofs.Memory.Copying
import NdBuffer.Proofs.Session.Accessing

/-!
# Copies that overlap

Elements are sent to a buffer in three ways (`Session.Sends`), and they may come from where they are
sent to: two buffers can borrow parts of one array that overlap, and a pointer from which elements
are copied into a buffer can lead anywhere, also into the memory of this buffer. What arrives is
what the source held before, because all three ways do what is done with a list of values that has
been read already (`Session.Sends.step_eq`).
-/

namespace NdBuffer

namespace Session

variable {s : Session} {k : Nat} {b : Buffer} {what : Change} {vs : List (Elem b.type)}

/-- The ways to send elements to the buffer `b` of slot `k`, as many as it has: values in the hand
of the caller, the elements of another buffer, or those that a pointer leads to. A pointer to
nothing does for none. -/
inductive Sends (s : Session) (k : Nat) (b : Buffer) : Change → List (Elem b.type) → Prop
  | values {vs : List (Elem b.type)} : vs.length = b.size →
    Sends s k b (.copyValues (t := b.type) vs) vs
  | buffer {other : Nat} {o : Buffer} : s.otherBuffer? k other = some o → o.type = b.type →
    o.size = b.size → o.device = .cpu →
    Sends s k b (.copyFrom other) (o.contents b.type s.host.heap)
  | memory {memory : Memory} {r : Region} : s.memory? memory = some (b.type, some r) →
    b.size ≤ r.length →
    Sends s k b (.copyElements memory b.size .cpu) (s.host.heap.elements b.type r.address b.size)
  | null {memory : Memory} : s.memory? memory = some (b.type, none) → b.size = 0 →
    Sends s k b (.copyElements memory b.size .cpu) []

theorem Sends.isWrite (S : s.Sends k b what vs) : what.isWrite = true := by
  cases S <;> rfl

theorem Sends.length_eq (S : s.Sends k b what vs) (H : s.Sound) : vs.length = b.size := by
  cases S with
  | values hlen => exact hlen
  | @buffer other o ho ht hn hd =>
    obtain ⟨-, ho⟩ := otherBuffer?_eq_some.mp ho
    have ho : s.buffer? other = some o := buffer?_eq_some.mpr ho
    exact ((reaches_size_of_buffer? H ho hd).length_contents b.type).trans hn
  | memory _ _ => exact s.host.heap.length_elements ..
  | null _ hzero => exact hzero.symm

/-- However elements are sent, it is as if they had been read before and were sent as values. -/
theorem Sends.step_eq (S : s.Sends k b what vs) (H : s.Sound) (hb : s.buffer? k = some b)
    (hd : b.device = .cpu) :
    s.step (.change k what) = s.step (.change k (.copyValues (t := b.type) vs)) := by
  have hvalues := Buffer.copyValues_eq_of_cpu hd (S.length_eq H)
  obtain ⟨lender, hk⟩ := buffer?_eq_some.mp hb
  rw [step_change_of_get? hk (by simp [Change.exclusive_of_isWrite S.isWrite]),
    step_change_of_get? hk (by simp [Command.exclusive, Change.isExclusive])]
  cases S with
  | values _ => rfl
  | buffer ho ht hn ho' => simp only [changeBuffer, ho, Buffer.copyFrom_eq ht hn hd ho', hvalues]
  | @memory memory r hr hn =>
    have hfits : overruns .cpu b.size (some r) = false :=
      Bool.and_eq_false_iff.mpr (.inr (decide_eq_false (Nat.not_lt.mpr hn)))
    simp only [changeBuffer, hr, Option.map_some, Buffer.copyElements_eq_of_cpu hd, hfits, hvalues,
      Bool.false_eq_true, and_false, if_false]
  | @null memory hr hzero =>
    have hfits : overruns .cpu 0 none = false := rfl
    simp only [changeBuffer, hr, hzero, Buffer.copyElements_of_size_eq_zero hzero rfl, hfits,
      hvalues, Buffer.overwrite_nil, Bool.false_eq_true, and_false, if_false]

/-- What is sent arrives, and nothing else is different. -/
theorem Sends.rewritten (S : s.Sends k b what vs) (H : s.Sound) (hb : s.buffer? k = some b)
    (hd : b.device = .cpu) :
    (s.step (.change k what)).2 = .answered (.ok .nothing) ∧
      s.Rewritten k b vs (s.step (.change k what)).1 := by
  rw [S.step_eq H hb hd]
  obtain ⟨hreply, -, R⟩ := rewritten_of_writing H hb hd (.copyValues (S.length_eq H))
  exact ⟨hreply, R⟩

/-- Copies in which source and target may overlap. Whatever a memory holds and wherever the two
places lie in it, the target of a copy holds afterwards what the source held before, and nothing
else is different. A fill writes the bytes of the value, the least significant one first, over and
over, and each time the value can be read back. So if as many elements as a buffer of the host has
are copied into it, from anywhere in memory, or sent to it in one of the three ways, it has the
elements from then on that the source had before, and no byte is different that does not belong to
one of them. -/
theorem overlapping_run (system : Allocator) (arrays : List ((t : ElemType) × List (Elem t)))
    (cs : List Command) :
    (∀ (m : Heap) t (source target : Address) n,
      target.offset + n * t.width ≤ m.size target.block →
      let m' := m.copy source target (n * t.width)
      m'.elements t target n = m.elements t source n ∧ m.SameBut m' t target n) ∧
    (∀ (m : Heap) t (a : Address) (v : Elem t) n, a.offset + n * t.width ≤ m.size a.block →
      let m' := m.fill a v n
      (∀ i < n, m'.element t (a.advance (i * t.width)) = v ∧ ∀ j < t.width,
        m'.byte (a.advance (i * t.width + j)) = UInt8.ofNat (v.toNat / 256 ^ j)) ∧
      m.SameBut m' t a n) ∧
    let s := (Session.start system arrays).run cs
    ∀ k b, s.buffer? k = some b → b.device = .cpu →
      (∀ a,
        let r := b.copyElements (.memory (some a) : Source b.type) b.size .cpu s.host
        r.1 = .ok () ∧ b.data b.type r.2.heap = .ok (s.host.heap.elements b.type a b.size) ∧
        ∀ x, ¬ b.Covers x → r.2.heap.byte x = s.host.heap.byte x) ∧
      ∀ what vs, s.Sends k b what vs →
        (s.step (.change k what)).2 = .answered (.ok .nothing) ∧
        s.Rewritten k b vs (s.step (.change k what)).1 := by
  refine ⟨fun m t source target n hfits => ⟨Heap.elements_copy hfits, m.sameBut_copy ..⟩,
    fun m t a v n hfits => ⟨fun i hi => ⟨Heap.element_fill hi hfits, fun j hj => ?_⟩,
      m.sameBut_fill ..⟩, ?_⟩
  · exact Heap.byte_fill hi hj hfits
  · intro s k b hb hd
    have H : s.Sound := sound_run system arrays cs
    refine ⟨fun a => ?_, fun what vs S => S.rewritten H hb hd⟩
    have hlen : (s.host.heap.elements b.type a b.size).length = b.size :=
      s.host.heap.length_elements ..
    rw [Buffer.copyElements_eq_of_cpu hd]
    refine ⟨rfl, ?_, fun x hx => Buffer.byte_overwrite_of_not_covers (by omega) hx⟩
    rw [Buffer.data_eq_ok rfl hd,
      Buffer.contents_overwrite (reaches_size_of_buffer? H hb hd) hlen]

/-- The first four of five bytes are copied to the last four of them, which a buffer borrows. -/
theorem overlapping_run_part :
    let s := (Session.start (.below 4096) [⟨.u8, [1, 2, 3, 4, 5]⟩]).run
      [.build 0 (.ofArray ⟨[4]⟩ ⟨0, some 1, none⟩)]
    let r := s.step (.change 0 (.copyElements (.part ⟨0, none, some 4⟩) 4 .cpu))
    ∃ b, s.buffer? 0 = some b ∧ r.2 = .answered (.ok .nothing) ∧
      r.1.Shows 0 b (s.host.heap.elements b.type ⟨0, 0⟩ 4) ∧
      r.1.host.heap.elements .u8 ⟨0, 0⟩ 5 = [1, 1, 2, 3, 4] := by
  intro s r
  obtain ⟨-, -, hsessions⟩ := overlapping_run (.below 4096) [⟨.u8, [1, 2, 3, 4, 5]⟩]
    [.build 0 (.ofArray ⟨[4]⟩ ⟨0, some 1, none⟩)]
  obtain ⟨-, hsends⟩ := hsessions 0 _ rfl rfl
  obtain ⟨hreply, R⟩ := hsends (.copyElements (.part ⟨0, none, some 4⟩) 4 .cpu) _
    (.memory (r := ⟨.u8, ⟨0, 0⟩, 4, 1, none⟩) rfl (Nat.le_refl 4))
  exact ⟨_, rfl, hreply, R.shows, by decide +kernel⟩

/-- Two pointers into the memory of a buffer. Through one its bytes are borrowed in another slot,
and through the other the last two of three numbers are copied to where the first two are. -/
example :
    let s := (Session.start (.below 4096) []).run [
      .build 0 (.ofValues ⟨[3]⟩ (t := .i16) [1, 2, 3] .cpu), .change 0 (.resize ⟨[2]⟩),
      .build 1 (.ofRaw ⟨[6]⟩ (.cast (.within 0 0) .u8) .cpu),
      .change 0 (.copyElements (.within 0 1) 2 .cpu)]
    s.host.heap.elements .i16 ⟨0, 0⟩ 3 = [2, 3, 3] ∧
      s.host.heap.elements .u8 ⟨0, 0⟩ 6 = [2, 0, 3, 0, 3, 0] ∧ s.isLender 0 = true := by
  decide +kernel

end Session

end NdBuffer
