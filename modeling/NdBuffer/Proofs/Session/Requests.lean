import NdBuffer.Proofs.Buffer.Refusals
import NdBuffer.Proofs.Session.Resizing

/-!
# What is asked of the allocator

Three limits stand between a number of elements and a block for them: their bytes must be a count,
so must the multiple of the alignment that they are rounded up to, and a layout must not pass half
of the address space. They are checked at three places, but all of them can be read off the multiple
(`Buffer.request_allocate`, `Layout.valid_iff_of_dvd`). Making room and resizing ask for a block in
the same way (`Session.Needs.exists_request`).
-/

namespace NdBuffer

/-- A layout of whole multiples of the alignment is valid if it keeps below half of the address
space. -/
theorem Layout.valid_iff_of_dvd {bytes : Nat} (hpos : 0 < bytes) (h : standardAlignment ∣ bytes) :
    Layout.Valid ⟨bytes, standardAlignment⟩ ↔ bytes < extent := by
  have hpower : 1 <<< standardAlignment.log2 = standardAlignment := by decide
  have hextent : standardAlignment ∣ extent := ⟨2 ^ 57, rfl⟩
  have hstandard : 0 < standardAlignment := by decide
  rw [Valid, and_iff_right hpos, and_iff_right hpower]
  constructor
  · intro hle
    exact Nat.lt_of_lt_of_le (Nat.lt_add_of_pos_right hstandard) hle
  · intro hlt
    exact add_le_of_dvd hlt h hextent

namespace Buffer

variable {b : Buffer} {s : Shape} {n bytes : Nat} {h : Host} {m : Heap} {o : Outcome Unit}

/-- How it can end that a buffer is to get `bytes` bytes for `n` elements: they are no count, the
allocator refuses a block of this size, or it gives one. -/
inductive Request (b : Buffer) (n bytes : Nat) (m : Heap) : Outcome Unit → Prop
  | overflow {h : Host} : Count.limit ≤ bytes →
    Request b n bytes m (.failed (.capacityOverflow n b.type) b h)
  | refused {e : MemoryError} {c : Buffer} {h : Host} : bytes < Count.limit →
    m.alloc ⟨bytes, standardAlignment⟩ = .error e → Request b n bytes m (.failed (.memory e) c h)
  | granted {block : BlockId} {c : Buffer} {h : Host} : bytes < Count.limit →
    m.alloc ⟨bytes, standardAlignment⟩ = .ok (block, h.heap) → c.type = b.type →
    c.address? = some ⟨block, 0⟩ → c.capacity = n → c.reserved = bytes →
    Request b n bytes m (.done () c h)

/-- The capacity is said to overflow if the bytes are no count. -/
theorem Request.result_eq_overflow_iff (R : Request b n bytes m o) {n' : Nat} {t : ElemType} :
    o.result = .error (.capacityOverflow n' t) ↔
      (n' = n ∧ t = b.type) ∧ Count.limit ≤ bytes := by
  cases R with
  | overflow hle => simp [Outcome.failed, hle, eq_comm]
  | refused hlt _ => simp [Outcome.failed, Nat.not_le.mpr hlt]
  | granted hlt _ _ _ _ _ => simp [Outcome.done, Nat.not_le.mpr hlt]

/-- The layout is said to be invalid if the bytes are a count but not below half of the address
space. -/
theorem Request.result_eq_invalidLayout_iff (R : Request b n bytes m o) (hpos : 0 < bytes)
    (hdvd : standardAlignment ∣ bytes) {l : Layout} :
    o.result = .error (.memory (.invalidLayout l)) ↔
      l = ⟨bytes, standardAlignment⟩ ∧ Layout.extent ≤ bytes ∧ bytes < Count.limit := by
  have hvalid := Layout.valid_iff_of_dvd hpos hdvd
  cases R with
  | overflow hle => simp [Outcome.failed, Nat.not_lt.mpr hle]
  | @refused e c h hlt halloc =>
    have hsame : (Outcome.failed (.memory e) c h : Outcome Unit).result =
          .error (.memory (.invalidLayout l)) ↔
        m.alloc ⟨bytes, standardAlignment⟩ = .error (.invalidLayout l) := by
      simp [Outcome.failed, halloc]
    rw [hsame, Heap.alloc_eq_invalidLayout_iff, hvalid, Nat.not_lt, and_iff_left hlt, and_comm]
  | granted hlt halloc _ _ _ _ =>
    have hv : Layout.Valid ⟨bytes, standardAlignment⟩ := (Heap.alloc_ok halloc).1.1
    simp [Outcome.done, hvalid.mp hv]

theorem request_allocate (hd : b.device = .cpu) (hn : 0 < n)
    (hbytes : IsLeast {m | standardAlignment ∣ m ∧ n * b.type.width ≤ m} bytes) (h : Host) :
    Request b n bytes (b.release h).2.heap (b.allocate n h) := by
  have hhost : (empty b.type b.device).device.isCuda = false := Device.isCuda_eq_false.mpr hd
  rw [allocate, byteSize?_eq hbytes]
  cases hcount : Count.checked bytes with
  | none => exact .overflow (Count.checked_eq_none_iff.mp hcount)
  | some total =>
    obtain ⟨rfl, hlt⟩ := Count.checked_eq_some_iff.mp hcount
    rw [release_eq]
    simp only [if_neg (Nat.ne_of_gt hn), hhost, Bool.false_eq_true, if_false]
    cases halloc : (b.release h).2.heap.alloc ⟨bytes, standardAlignment⟩ with
    | error e => exact .refused hlt halloc
    | ok given => exact .granted hlt halloc rfl rfl rfl rfl

theorem Request.setShape (R : Request b n bytes m o) (s : Shape) :
    Request b n bytes m (o.andThen fun c h => .done () (c.setShape s) h) := by
  cases R with
  | overflow hle => exact .overflow hle
  | refused hlt halloc => exact .refused hlt halloc
  | granted hlt halloc ht ha hc hr => exact .granted hlt halloc ht ha hc hr

theorem request_reserve (hd : b.device = .cpu) (hlt : b.capacity < n)
    (hbytes : IsLeast {m | standardAlignment ∣ m ∧ n * b.type.width ≤ m} bytes) (h : Host) :
    Request b n bytes (b.release h).2.heap (b.reserve n h) := by
  rw [reserve, if_neg (Nat.not_le.mpr hlt)]
  exact request_allocate hd (Nat.zero_lt_of_lt hlt) hbytes h

/-- A resize gives up its memory as an allocation does. That it is announced in the log does not
matter to the allocator. -/
theorem request_resize (hd : b.device = .cpu) (hs : s.count? = some n) (hlt : b.capacity < n)
    (hnull : b.isBorrowed = true → b.isNull = true)
    (hbytes : IsLeast {m | standardAlignment ∣ m ∧ n * b.type.width ≤ m} bytes) (h : Host) :
    Request b n bytes (b.release h).2.heap (b.resize s h) := by
  have hkeeps : ¬ (b.isBorrowed = true ∧ ¬ b.isNull = true) := fun hb => hb.2 (hnull hb.1)
  have R := request_allocate hd (Nat.zero_lt_of_lt hlt) hbytes (h.record (b.growth n))
  rw [heap_release_congr (h.heap_record (b.growth n))] at R
  rw [resize, Shape.checkedCount_eq_ok.mpr hs]
  simp only [if_neg (Nat.not_le.mpr hlt), if_neg hkeeps]
  exact R.setShape s

end Buffer

namespace Session

variable {s : Session} {k n bytes : Nat} {b : Buffer} {what : Change}

/-- The changes that need memory for `n` elements if there is no room for them: making room, and
resizing to a shape of so many elements, unless the memory is borrowed. -/
inductive Needs (s : Session) (k : Nat) (b : Buffer) (n : Nat) : Change → Prop
  | reserve : Needs s k b n (.reserve n)
  | resize {what : Change} {shape : Shape} : s.Asks k b what shape →
    shape.checkedCount = .ok n → (b.isBorrowed = true → b.isNull = true) → Needs s k b n what

theorem Needs.exists_request (N : s.Needs k b n what) (hb : s.buffer? k = some b)
    (hd : b.device = .cpu) (hl : s.isLender k = false) (hlt : b.capacity < n)
    (hbytes : IsLeast {m | standardAlignment ∣ m ∧ n * b.type.width ≤ m} bytes) :
    ∃ lender o, b.Request n bytes (b.release s.host).2.heap o ∧
      s.step (.change k what) = s.conclude k lender nothing o := by
  obtain ⟨lender, hk⟩ := buffer?_eq_some.mp hb
  have hfree : ∀ j ∈ [k], s.isLender j = false := fun j hj => List.mem_singleton.mp hj ▸ hl
  cases N with
  | reserve =>
    exact ⟨lender, _, Buffer.request_reserve hd hlt hbytes s.host, step_change_of_get? hk hfree⟩
  | @resize what shape A hs hnull =>
    have hs := Shape.checkedCount_eq_ok.mp hs
    rw [A.step_eq hb]
    exact ⟨lender, _, Buffer.request_resize hd hs hlt hnull hbytes s.host,
      step_change_of_get? hk hfree⟩

/-- The allocator is asked for a block at the alignment, after the buffer of slot `k` has let go of
its memory. What the allocator says is what is answered. If there is such a block, it is that of the
buffer from now on, and the buffer has room for `n` elements. -/
inductive Asked (s : Session) (k : Nat) (b : Buffer) (n bytes : Nat) : Session × Reply → Prop
  | refused {s' : Session} {e : MemoryError} :
    (b.release s.host).2.heap.alloc ⟨bytes, 64⟩ = .error e →
    Asked s k b n bytes (s', .answered (.error (.memory e)))
  | granted {s' : Session} {block : BlockId} {c : Buffer} :
    (b.release s.host).2.heap.alloc ⟨bytes, 64⟩ = .ok (block, s'.host.heap) →
    s'.buffer? k = some c → c.type = b.type → c.address? = some ⟨block, 0⟩ → c.capacity = n →
    c.reserved = bytes → Asked s k b n bytes (s', .answered (.ok .nothing))

theorem Asked.of_request {lender : Option Nat} {o : Outcome Unit}
    (R : b.Request n bytes (b.release s.host).2.heap o) (hlt : bytes < Count.limit) :
    s.Asked k b n bytes (s.conclude k lender nothing o) := by
  cases R with
  | overflow hle => exact absurd hlt (Nat.not_lt.mpr hle)
  | refused _ halloc => exact .refused halloc
  | granted _ halloc ht ha hc hr => exact .granted halloc (buffer?_put_self ..) ht ha hc hr

theorem reply_conclude_eq_error_iff {lender : Option Nat} {o : Outcome Unit} {e : Error} :
    (s.conclude k lender nothing o).2 = .answered (.error e) ↔ o.result = .error e := by
  rw [conclude, Reply.answered.injEq]
  cases o.result <;> simp [Except.map]

/-- How much is asked of the allocator. A buffer of the host is to have room for more elements than
there is, and `bytes` is the least multiple of 64 bytes that they fit into. If this is no count, it
is said that the capacity overflows. If it is one but not below half of the address space, it is
said that the layout is invalid. And otherwise a block of exactly so many bytes is asked for, which
are not none. -/
theorem requests_run (system : Allocator) (arrays : List ((t : ElemType) × List (Elem t)))
    (cs : List Command) {k n bytes : Nat} {b : Buffer} {what : Change}
    (hb : ((Session.start system arrays).run cs).buffer? k = some b) (hd : b.device = .cpu)
    (hl : ((Session.start system arrays).run cs).isLender k = false)
    (N : ((Session.start system arrays).run cs).Needs k b n what) (hlt : b.capacity < n)
    (hbytes : IsLeast {m | 64 ∣ m ∧ n * b.type.width ≤ m} bytes) :
    let s := (Session.start system arrays).run cs
    let r := s.step (.change k what)
    (∀ n' t, r.2 = .answered (.error (.capacityOverflow n' t)) ↔
      (n' = n ∧ t = b.type) ∧ 2 ^ 64 ≤ bytes) ∧
    (∀ l, r.2 = .answered (.error (.memory (.invalidLayout l))) ↔
      l = ⟨bytes, 64⟩ ∧ 2 ^ 63 ≤ bytes ∧ bytes < 2 ^ 64) ∧
    (bytes < 2 ^ 63 → 0 < bytes ∧ n * b.type.width ≤ bytes ∧ s.Asked k b n bytes r) := by
  intro s r
  obtain ⟨lender, o, R, hr⟩ := N.exists_request hb hd hl hlt hbytes
  obtain ⟨⟨hdvd, hle⟩, -⟩ := hbytes
  have hpos : 0 < bytes :=
    Nat.lt_of_lt_of_le (Nat.mul_pos (Nat.zero_lt_of_lt hlt) b.type.width_pos) hle
  rw [show r = s.conclude k lender nothing o from hr]
  refine ⟨fun n' t => ?_, fun l => ?_, fun hbelow => ⟨hpos, hle, ?_⟩⟩
  · rw [reply_conclude_eq_error_iff]
    exact R.result_eq_overflow_iff
  · rw [reply_conclude_eq_error_iff]
    exact R.result_eq_invalidLayout_iff hpos hdvd
  · exact .of_request R (Nat.lt_trans hbelow (by decide))

/-- A block of 64 bytes is asked for if there is to be room for three elements of two bytes, and it
is given. The other two requests are for bytes that are below half of the address space, or below
the limit, until they are rounded up. -/
theorem requests_run_empty :
    let s := (Session.start (.below 4096) []).run [.build 0 (.empty .i16 .cpu)]
    let r := s.step (.change 0 (.reserve 3))
    ∃ b, s.buffer? 0 = some b ∧ s.Asked 0 b 3 64 r ∧ r.2 = .answered (.ok .nothing) ∧
      (∃ c, r.1.buffer? 0 = some c ∧ c.capacity = 3 ∧ c.reserved = 64) ∧
      (s.step (.change 0 (.reserve (2 ^ 62 - 31)))).2 =
        .answered (.error (.memory (.invalidLayout ⟨2 ^ 63, 64⟩))) ∧
      (s.step (.change 0 (.resize ⟨[0x7fffffffffffffe1]⟩))).2 =
        .answered (.error (.capacityOverflow (2 ^ 63 - 31) .i16)) := by
  intro s r
  have halign : 0 < 64 := by decide
  have hshape : Shape.checkedCount ⟨[0x7fffffffffffffe1]⟩ = .ok (2 ^ 63 - 31) := rfl
  obtain ⟨-, -, hgranted⟩ := requests_run (.below 4096) [] [.build 0 (.empty .i16 .cpu)]
    (k := 0) (n := 3) rfl rfl rfl .reserve (by decide) (isLeast_mul_div halign (3 * 2))
  obtain ⟨-, hinvalid, -⟩ := requests_run (.below 4096) [] [.build 0 (.empty .i16 .cpu)] (k := 0)
    (n := 2 ^ 62 - 31) rfl rfl rfl .reserve (by decide)
    (isLeast_mul_div halign ((2 ^ 62 - 31) * 2))
  obtain ⟨hoverflow, -, -⟩ := requests_run (.below 4096) [] [.build 0 (.empty .i16 .cpu)] (k := 0)
    (n := 2 ^ 63 - 31) rfl rfl rfl (.resize .resize hshape nofun) (by decide)
    (isLeast_mul_div halign ((2 ^ 63 - 31) * 2))
  exact ⟨_, rfl, (hgranted (by decide)).2.2, rfl, ⟨_, rfl, rfl, rfl⟩,
    (hinvalid _).mpr (by decide), (hoverflow _ _).mpr (by decide)⟩

end Session

end NdBuffer
