import NdBuffer.Proofs.Buffer.Unavailable
import NdBuffer.Proofs.Session.Reachable

/-!
# Commands on a device that is not there

A command that needs the elements of a buffer on an accelerator is denied (`Session.Denied`), and
one that needs none of them, because the buffer is empty, is done (`Session.Idle`). In neither case
is host memory looked at: whatever it holds, the answer is the same, and it holds the same
afterwards (`Session.Blind`). Only host memory is ever given to a buffer, so one on an accelerator
owns none.
-/

namespace NdBuffer

namespace Session

variable {s : Session} {k j : Nat} {b : Buffer} {i : UInt64} {c : Command} {e : Error} {a : Answer}
  {r : Except Error Answer} {what : Change} {q : Query} {es : List Event}

/-- The session with other host memory. -/
def withHeap (s : Session) (m : Heap) : Session := { s with host := { s.host with heap := m } }

theorem memory?_withHeap (s : Session) (m : Heap) (memory : Memory) :
    (s.withHeap m).memory? memory = s.memory? memory := by
  induction memory with
  | null t | part p | within slot offset => rfl
  | cast memory t ih => simp only [memory?, ih]

/-- Whether a command is answered in this way whatever is in memory. Nothing changes but the log, to
which only remarks are added. -/
def Blind (s : Session) (c : Command) (r : Except Error Answer) : Prop :=
  ∃ es : List Event, (∀ e ∈ es, e.isRemark = true) ∧
    ∀ m, (s.withHeap m).step c = ({ s with host := ⟨m, s.host.log ++ es⟩ }, .answered r)

/-- The commands that are denied because of the device of the buffer `b` of slot `k`, with the error
that they are denied with. They name the type of the buffer, and elements are copied into it or out
of it only as many as it has. -/
inductive Denied (s : Session) (k : Nat) (b : Buffer) : Command → Error → Prop
  | data : Denied s k b (.query k (.data b.type)) (.notHostAddressable b.device)
  | get {offset : Nat} :
    Denied s k b (.query k (.get b.type offset)) (.notHostAddressable b.device)
  | getAt {indices : List Nat} :
    Denied s k b (.query k (.getAt b.type indices)) (.notHostAddressable b.device)
  | dataFrom {indices : List Nat} :
    Denied s k b (.query k (.dataFrom b.type indices)) (.notHostAddressable b.device)
  | setData {vs : List (Elem b.type)} :
    Denied s k b (.change k (.setData vs)) (.notHostAddressable b.device)
  | set {offset : Nat} {v : Elem b.type} :
    Denied s k b (.change k (.set offset v)) (.notHostAddressable b.device)
  | setAt {indices : List Nat} {offset : Nat} {v : Elem b.type} : b.offset indices = .ok offset →
    Denied s k b (.change k (.setAt indices v)) (.notHostAddressable b.device)
  | setDataFrom {indices : List Nat} {offset : Nat} {vs : List (Elem b.type)} :
    b.offset indices = .ok offset →
    Denied s k b (.change k (.setDataFrom indices vs)) (.notHostAddressable b.device)
  | fetch {indices : List Nat} {offset : Nat} : b.offset indices = .ok offset →
    Denied s k b (.query k (.fetch b.type indices)) (.deviceUnavailable b.device)
  | fill {v : Elem b.type} : 0 < b.size →
    Denied s k b (.change k (.fill v)) (.deviceUnavailable b.device)
  | copyValues {vs : List (Elem b.type)} : 0 < b.size → vs.length = b.size →
    Denied s k b (.change k (.copyValues vs)) (.deviceUnavailable b.device)
  | copyElements {memory : Memory} {r : Option Region} {device : Device} : 0 < b.size →
    s.memory? memory = some (b.type, r) →
    Denied s k b (.change k (.copyElements memory b.size device))
      (.deviceUnavailable (device.lacking b.device))
  | copyFrom {other : Nat} {o : Buffer} : 0 < b.size → s.otherBuffer? k other = some o →
    o.type = b.type → o.size = b.size →
    Denied s k b (.change k (.copyFrom other)) (.deviceUnavailable (o.device.lacking b.device))
  | copyOut {other : Nat} {o : Buffer} : 0 < b.size → s.buffer? other = some o → other ≠ k →
    b.type = o.type → b.size = o.size →
    Denied s k b (.change other (.copyFrom k)) (.deviceUnavailable b.device)

/-- The commands that have nothing to do if the buffer `b` of slot `k` has no elements, and what
they are answered with. -/
inductive Idle (s : Session) (k : Nat) (b : Buffer) : Command → Answer → Prop
  | toList : Idle s k b (.query k (.toList b.type)) (.elements ([] : List (Elem b.type)))
  | fill {v : Elem b.type} : Idle s k b (.change k (.fill v)) .nothing
  | copyValues : Idle s k b (.change k (.copyValues ([] : List (Elem b.type)))) .nothing
  | copyElements {memory : Memory} {r : Option Region} {device : Device} :
    s.memory? memory = some (b.type, r) →
    Idle s k b (.change k (.copyElements memory 0 device)) .nothing
  | copyFrom {other : Nat} {o : Buffer} : s.otherBuffer? k other = some o → o.type = b.type →
    o.size = 0 → Idle s k b (.change k (.copyFrom other)) .nothing

/-! ### Commands that are denied -/

theorem blind_query (hb : s.buffer? k = some b)
    (h : ∀ m, (s.withHeap m).queryBuffer b q = (s.withHeap m, .answered r)) :
    s.Blind (.query k q) r := by
  refine ⟨[], nofun, fun m => ?_⟩
  have hb : (s.withHeap m).buffer? k = some b := hb
  rw [step_query hb, h, List.append_nil]
  rfl

theorem blind_change (es : List Event) (hes : ∀ e ∈ es, e.isRemark = true)
    (hb : s.buffer? k = some b) (hw : what.isWrite = true)
    (h : ∀ m lender, (s.withHeap m).changeBuffer k b lender what =
      ({ s with host := (s.withHeap m).host.noting es }, .answered r)) :
    s.Blind (.change k what) r := by
  refine ⟨es, hes, fun m => ?_⟩
  obtain ⟨lender, hk⟩ := buffer?_eq_some.mp hb
  have hk : (s.withHeap m).slots.get? k = some ⟨b, lender⟩ := hk
  rw [step_change_of_get? hk (by rw [Change.exclusive_of_isWrite hw]; nofun), h]
  rfl

/-- A write that changes nothing and logs nothing. -/
theorem blind_write (hb : s.buffer? k = some b) (hw : what.isWrite = true)
    (h : ∀ m lender, (s.withHeap m).changeBuffer k b lender what =
      (s.withHeap m, .answered r)) : s.Blind (.change k what) r := by
  refine blind_change [] nofun hb hw fun m lender => ?_
  rw [h, Host.noting_nil]
  rfl

/-- A denied command does not look at memory. -/
theorem Denied.blind (D : s.Denied k b c e) (hb : s.buffer? k = some b)
    (hd : b.device = .cuda i) : s.Blind c (.error e) := by
  have hcuda : b.device.isCuda = true := by rw [hd]; rfl
  cases D with
  | data =>
    refine blind_query hb fun m => ?_
    rw [queryBuffer, Buffer.data_of_cuda hd]
    rfl
  | get =>
    refine blind_query hb fun m => ?_
    rw [queryBuffer, Buffer.get_of_cuda hd]
    rfl
  | getAt =>
    refine blind_query hb fun m => ?_
    rw [queryBuffer, Buffer.getAt_of_cuda hd]
    rfl
  | dataFrom =>
    refine blind_query hb fun m => ?_
    rw [queryBuffer, Buffer.dataFrom_of_cuda hd]
    rfl
  | fetch ho =>
    refine blind_query hb fun m => ?_
    rw [queryBuffer, Buffer.fetch_of_cuda hd ho]
    rfl
  | setData =>
    refine blind_write hb rfl fun m lender => ?_
    rw [changeBuffer, Buffer.setData_of_cuda hd]
    rfl
  | set =>
    refine blind_write hb rfl fun m lender => ?_
    rw [changeBuffer, Buffer.set_of_cuda hd]
    rfl
  | setAt ho =>
    refine blind_write hb rfl fun m lender => ?_
    rw [changeBuffer, Buffer.setAt_of_cuda hd ho]
    rfl
  | setDataFrom ho =>
    refine blind_write hb rfl fun m lender => ?_
    rw [changeBuffer, Buffer.setDataFrom_of_cuda hd ho]
    rfl
  | fill hn =>
    refine blind_write hb rfl fun m lender => ?_
    rw [changeBuffer, Buffer.fill_of_cuda hd hn]
    rfl
  | copyValues hn hlen =>
    refine blind_change (crossings .cpu b.device b.size b.type) isRemark_crossings hb rfl
      fun m lender => ?_
    rw [changeBuffer, Buffer.copyValues, hlen, Buffer.copyElements_unavailable hn (.inr hcuda) rfl]
    rfl
  | @copyElements memory r device hn hr =>
    refine blind_change (crossings device b.device b.size b.type) isRemark_crossings hb rfl
      fun m lender => ?_
    have hr := (s.memory?_withHeap m memory).trans hr
    simp only [changeBuffer, hr, Buffer.copyElements_unavailable hn (.inr hcuda) rfl]
    rfl
  | @copyFrom other o hn ho ht hsize =>
    refine blind_change (crossings o.device b.device b.size b.type) isRemark_crossings hb rfl
      fun m lender => ?_
    have ho : (s.withHeap m).otherBuffer? k other = some o := ho
    simp only [changeBuffer, ho, Buffer.copyFrom_unavailable hn (.inr hcuda) ht hsize]
    rfl
  | @copyOut other o hn ho hne ht hsize =>
    refine blind_change (crossings b.device o.device o.size o.type) isRemark_crossings ho rfl
      fun m lender => ?_
    have hb : (s.withHeap m).otherBuffer? other k = some b := (if_neg hne).trans hb
    have hlacking : b.device.lacking o.device = b.device := if_pos hcuda
    simp only [changeBuffer, hb,
      Buffer.copyFrom_unavailable (hsize ▸ hn) (.inl hcuda) ht hsize, hlacking]
    rfl

/-- A command that has nothing to do does nothing. -/
theorem Idle.blind (I : s.Idle k b c a) (hb : s.buffer? k = some b) (h0 : b.size = 0) (m : Heap) :
    (s.withHeap m).step c = (s.withHeap m, .answered (.ok a)) := by
  obtain ⟨lender, hk⟩ := buffer?_eq_some.mp hb
  have hk : (s.withHeap m).slots.get? k = some ⟨b, lender⟩ := hk
  have hstep {what : Change} (hw : what.isWrite = true) :
      (s.withHeap m).step (.change k what) = (s.withHeap m).changeBuffer k b lender what :=
    step_change_of_get? hk (by rw [Change.exclusive_of_isWrite hw]; nofun)
  cases I with
  | toList =>
    have hb : (s.withHeap m).buffer? k = some b := hb
    rw [step_query hb, queryBuffer, Buffer.toList_of_size_eq_zero h0]
    rfl
  | fill =>
    rw [hstep rfl, changeBuffer, Buffer.fill_of_size_eq_zero h0]
    rfl
  | copyValues =>
    rw [hstep rfl, changeBuffer, Buffer.copyValues, List.length_nil,
      Buffer.copyElements_of_size_eq_zero h0 rfl]
    rfl
  | @copyElements memory r device hr =>
    have hr := (s.memory?_withHeap m memory).trans hr
    have hover : overruns device 0 r = false := by simp [overruns]
    rw [hstep rfl]
    simp only [changeBuffer, hr, Buffer.copyElements_of_size_eq_zero h0 rfl, hover]
    rfl
  | @copyFrom other o ho ht hsize =>
    have ho : (s.withHeap m).otherBuffer? k other = some o := ho
    rw [hstep rfl]
    simp only [changeBuffer, ho, Buffer.copyFrom_of_size_eq_zero h0 ht hsize]
    rfl

/-! ### Copies of empty buffers -/

/-- Whether a buffer of a slot is built as a copy of the buffer `b` of slot `k`, and on which
device. -/
inductive CopiesTo (k : Nat) (b : Buffer) : Build → Device → Prop
  | copyTo {device : Device} : CopiesTo k b (.copyTo k device) device
  | clone : CopiesTo k b (.clone k) b.device

theorem build_of_copiesTo {how : Build} {device : Device} (C : CopiesTo k b how device)
    (hv : b.Valid) (hb : s.buffer? k = some b) (h0 : b.size = 0) :
    s.build j how =
      s.install j none (.ok (b.emptyCopy device),
        s.host.noting (transfers b.device device b.type)) := by
  cases C with
  | copyTo => simp only [build, hb, Buffer.copyTo_of_size_eq_zero hv h0]
  | clone => simp only [build, hb, Buffer.clone, Buffer.copyTo_of_size_eq_zero hv h0]

theorem step_of_copiesTo {how : Build} {device : Device} (C : CopiesTo k b how device)
    (hv : b.Valid) (hb : s.buffer? k = some b) (h0 : b.size = 0) (hl : s.isLender j = false) :
    s.step (.build j how) =
      s.install j none (.ok (b.emptyCopy device),
        s.host.noting (transfers b.device device b.type)) := by
  rw [← build_of_copiesTo C hv hb h0]
  apply step_build
  cases C <;> simpa [Command.exclusive] using hl

/-! ### Runs -/

/-- Buffers on an accelerator, of which there is none. However such a buffer has come about, it owns
no memory. What needs its elements is denied with an error that follows from the command, and no
memory is looked at or changed. If it has no elements, what needs none is done and changes nothing;
and a copy on any device has the same extents and no memory either. -/
theorem unavailable_run (system : Allocator) (arrays : List ((t : ElemType) × List (Elem t)))
    (cs : List Command)
    (hb : ((Session.start system arrays).run cs).buffer? k = some b) (hd : b.device = .cuda i) :
    let s := (Session.start system arrays).run cs
    b.ownsMemory = false ∧
      (∀ c e, s.Denied k b c e → s.Blind c (.error e)) ∧
      (b.size = 0 → ∀ m : Heap,
        (∀ c a, s.Idle k b c a → (s.withHeap m).step c = (s.withHeap m, .answered (.ok a))) ∧
        ∀ how device j, CopiesTo k b how device → s.isLender j = false →
          let r := (s.withHeap m).step (.build j how)
          r.2 = .answered (.ok .nothing) ∧
            r.1.host = (s.withHeap m).releaseSlot j
              ((s.withHeap m).host.noting (transfers b.device device b.type)) ∧
            ∃ c, r.1.buffer? j = some c ∧ c.type = b.type ∧ c.device = device ∧
              c.extents = b.extents ∧ c.size = 0 ∧ c.isNull = true) := by
  intro s
  have hv : b.Valid := valid_of_buffer? (sound_run system arrays cs) hb
  refine ⟨?_, fun c e D => D.blind hb hd, fun h0 m => ⟨fun c a I => I.blind hb h0 m, ?_⟩⟩
  · by_contra howns
    obtain ⟨ho, ha⟩ := (Bool.and_eq_true _ _).mp (Bool.not_eq_false _ ▸ howns)
    obtain ⟨a, ha⟩ := Option.isSome_iff_exists.mp ha
    cases hd.symm.trans (hv.owned ho ha).1
  · intro how device j C hl
    have hstep := step_of_copiesTo (s := s.withHeap m) (j := j) C hv hb h0 hl
    intro r
    have hr : r = _ := hstep
    rw [hr]
    refine ⟨rfl, rfl, b.emptyCopy device, buffer?_put_self .., rfl, rfl, rfl, ?_, rfl⟩
    exact Shape.count_eq (h0 ▸ hv.count)

/-- A buffer of two bytes on an accelerator cannot be filled. -/
theorem unavailable_run_ofRaw :
    let s := (Session.start (.below 4096) []).run [.build 0 (.ofRaw ⟨[2]⟩ (.null .u8) (.cuda 0))]
    ∃ b, s.buffer? 0 = some b ∧ b.device = .cuda 0 ∧ b.size = 2 ∧ b.ownsMemory = false ∧
      s.Blind (.change 0 (.fill (t := .u8) 7)) (.error (.deviceUnavailable (.cuda 0))) := by
  intro s
  obtain ⟨howns, hdenied, -⟩ := unavailable_run (.below 4096) []
    [.build 0 (.ofRaw ⟨[2]⟩ (.null .u8) (.cuda 0))] (k := 0) (i := 0) rfl rfl
  exact ⟨_, rfl, rfl, rfl, howns, hdenied _ _ (.fill (by decide))⟩

end Session

end NdBuffer
