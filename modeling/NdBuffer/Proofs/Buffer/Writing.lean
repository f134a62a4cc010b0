import NdBuffer.Proofs.Buffer.Operations
import NdBuffer.Proofs.Memory.Elements

/-!
# What writes and copies do to memory

An operation that writes elements changes memory in one way only: it overwrites elements of the
buffer, from a position on, with values of the buffer's type. There is one lemma for each of the
operations, which says which position and which values these are, and that they lie within the
buffer. An operation that fails changes no byte.
-/

namespace NdBuffer

variable {t : ElemType} {h h' : Host} {b : Buffer}

/-- Edits at no address are events. -/
theorem Host.Edits.heap (E : Host.Edits none h h') : h'.heap = h.heap := by
  induction E with
  | refl => rfl
  | tail _ E ih =>
    cases E with
    | log _ => exact ih
    | write _ _ ha => cases ha

/-- The elements that a copy reads. -/
def Source.elements (s : Source t) (h : Heap) (count : Nat) : List (Elem t) :=
  match s with
  | memory (some a) => h.elements t a count
  | memory none => []
  | values vs => vs

theorem Source.length_elements_memory_le (address : Option Address) (h : Heap) (count : Nat) :
    ((memory address : Source t).elements h count).length ≤ count := by
  cases address <;> simp [elements]

theorem transfer_cases {a? : Option Address} (count : Nat) (source : Device) (s : Source t)
    (target : Device) (h : Host) :
    (∃ e, (transfer count source s target a? h).1 = .error e ∧
        Host.Edits none h (transfer count source s target a? h).2) ∨
      transfer count source s target a? h = (.ok (), h) ∧ count = 0 ∨
      transfer count source s target a? h = (.ok (), h.onHeap (s.deliver a? count)) ∧
        target = .cpu := by
  rw [transfer]
  split
  · exact .inr (.inl ⟨rfl, ‹_›⟩)
  · have hlog : Host.Edits none h
        (if source = target then h else h.record (.crossing source target count t)) := by
      split
      · exact .refl
      · exact Host.edits_log rfl
    cases source with
    | cuda index => exact .inl ⟨_, rfl, hlog⟩
    | cpu =>
      cases target with
      | cuda index => exact .inl ⟨_, rfl, hlog⟩
      | cpu => exact .inr (.inr ⟨by simp, rfl⟩)

namespace Buffer

theorem overwrite_nil (b : Buffer) (p : Nat) (h : Host) :
    b.overwrite p ([] : List (Elem t)) h = h := by
  rw [overwrite]
  split
  · simp [Host.onHeap, Heap.store, Heap.write_nil]
  · rfl

/-- What a copy delivers to a buffer are the elements that it has read. -/
theorem onHeap_deliver (b : Buffer) (s : Source t) (count : Nat) (h : Host) :
    h.onHeap (s.deliver b.address? count) = b.overwrite 0 (s.elements h.heap count) h := by
  rw [overwrite]
  cases b.address? with
  | none => cases s <;> simp [Source.deliver, Host.onHeap]
  | some target =>
    cases s with
    | values vs => simp [Source.deliver, Source.elements, Host.onHeap]
    | memory address =>
      cases address with
      | none => simp [Source.deliver, Source.elements, Host.onHeap, Heap.store, Heap.write_nil]
      | some source =>
        simp [Source.deliver, Source.elements, Host.onHeap, Heap.store, Heap.copy,
          Heap.flatMap_elements]

theorem copyElements_cases (s : Source t) {count : Nat} (source : Device)
    (hs : (s.elements h.heap count).length ≤ count) :
    (∃ e, (b.copyElements s count source h).1 = .error e ∧
        Host.Edits none h (b.copyElements s count source h).2) ∨
      t = b.type ∧ count = b.size ∧ (0 < count → b.device = .cpu) ∧
        b.copyElements s count source h =
          (.ok (), b.overwrite 0 (s.elements h.heap count) h) := by
  rw [copyElements]
  split
  · exact .inl ⟨_, rfl, .refl⟩
  · rename_i ht
    split
    · exact .inl ⟨_, rfl, .refl⟩
    · rename_i hn
      have hn := not_not.mp hn
      rcases transfer_cases count source s b.device h with he | ⟨ho, h0⟩ | ⟨ho, hd⟩
      · exact .inl he
      · refine .inr ⟨not_not.mp ht, hn, fun hpos => by omega, ?_⟩
        have hnil : s.elements h.heap count = [] := List.length_eq_zero_iff.mp (by omega)
        rw [ho, hnil, overwrite_nil]
      · exact .inr ⟨not_not.mp ht, hn, fun _ => hd, by rw [ho, onHeap_deliver]⟩

theorem expectType_eq_ok {u : Unit} : b.expectType t = .ok u ↔ t = b.type := by
  rw [expectType]
  split <;> simp [*]

theorem expectHost_eq_ok {u : Unit} : b.expectHost = .ok u ↔ b.device = .cpu := by
  rw [expectHost]
  split <;> simp_all [← Device.isHost_iff]

theorem offset_lt {indices : List Nat} {p : Nat} (hp : b.offset indices = .ok p) : p < b.size := by
  rw [offset] at hp
  split at hp
  · cases hp
  · split at hp
    · cases hp
    · split at hp
      · cases hp
        assumption
      · cases hp

theorem data_ok {vs : List (Elem t)} {m : Heap} (hok : b.data t m = .ok vs) :
    t = b.type ∧ b.device = .cpu ∧ vs = b.contents t m := by
  rw [data] at hok
  cases ht : b.expectType t with
  | error e => simp [ht, bind, Except.bind] at hok
  | ok u =>
    cases hd : b.expectHost with
    | error e => simp [ht, hd, bind, Except.bind] at hok
    | ok u =>
      simp only [ht, hd, bind, Except.bind, pure, Except.pure, Except.ok.injEq] at hok
      exact ⟨expectType_eq_ok.mp ht, expectHost_eq_ok.mp hd, hok.symm⟩

theorem length_contents_le (b : Buffer) (t : ElemType) (m : Heap) :
    (b.contents t m).length ≤ b.size := by
  rw [contents]
  split <;> simp

theorem get_ok {v : Elem t} {p : Nat} {m : Heap} (hok : b.get t p m = .ok v) :
    t = b.type ∧ b.device = .cpu ∧ p < b.size := by
  rw [get] at hok
  cases hdata : b.data t m with
  | error e => simp [hdata, bind, Except.bind] at hok
  | ok vs =>
    obtain ⟨ht, hd, rfl⟩ := data_ok hdata
    simp only [hdata, bind, Except.bind] at hok
    split at hok
    · rename_i hv
      have hlt := (List.getElem?_eq_some_iff.mp hv).1
      exact ⟨ht, hd, Nat.lt_of_lt_of_le hlt (b.length_contents_le t m)⟩
    · cases hok

/-! ### The writing operations one by one -/

/-- What an operation does that writes elements through a buffer, when it succeeds: values of the
buffer's type replace as many of its elements. -/
structure Written (b : Buffer) (h : Host) (t : ElemType) (p : Nat) (vs : List (Elem t))
    (h' : Host) : Prop where
  type : t = b.type
  device : vs ≠ [] → b.device = .cpu
  within : p + vs.length ≤ b.size
  host : h' = b.overwrite p vs h

theorem written_fill {v : Elem t} (hok : b.fill v h = .ok h') :
    Written b h t 0 (List.replicate b.size v) h' := by
  rw [fill] at hok
  cases ht : b.expectType t with
  | error e => simp [ht, bind, Except.bind] at hok
  | ok u =>
    have ht' := expectType_eq_ok.mp ht
    simp only [ht, bind, Except.bind, pure, Except.pure] at hok
    split at hok
    · rename_i h0
      cases hok
      exact ⟨ht', by simp [h0], by simp, by rw [h0, List.replicate_zero, overwrite_nil]⟩
    · split at hok
      · cases hok
      · rename_i hd
        cases hok
        have hd := Device.isCuda_eq_false.mp (Bool.eq_false_iff.mpr hd)
        exact ⟨ht', fun _ => hd, by simp, rfl⟩

theorem written_set {v old : Elem t} {p : Nat} (hok : b.set p v h = .ok (old, h')) :
    Written b h t p [v] h' := by
  rw [set] at hok
  cases hget : b.get t p h.heap with
  | error e => simp [hget, bind, Except.bind] at hok
  | ok w =>
    obtain ⟨ht, hd, hp⟩ := get_ok hget
    simp only [hget, bind, Except.bind, pure, Except.pure, Except.ok.injEq, Prod.mk.injEq] at hok
    exact ⟨ht, fun _ => hd, hp, hok.2.symm⟩

theorem written_setAt {v old : Elem t} {indices : List Nat}
    (hok : b.setAt indices v h = .ok (old, h')) :
    ∃ p, b.offset indices = .ok p ∧ Written b h t p [v] h' := by
  rw [setAt] at hok
  cases hp : b.offset indices with
  | error e => simp [hp, bind, Except.bind] at hok
  | ok p =>
    simp only [hp, bind, Except.bind] at hok
    exact ⟨p, rfl, written_set hok⟩

/-- Values are written from a position on, as far as there are elements. -/
theorem written_overwrite_take {vs : List (Elem t)} {p : Nat} (hp : p ≤ b.size) (ht : t = b.type)
    (hd : b.device = .cpu)
    (hh : h' = b.overwrite p (vs.take ((b.contents t h.heap).length - p)) h) :
    Written b h t p (vs.take (b.size - p)) h' := by
  refine ⟨ht, fun _ => hd, by simp only [List.length_take]; omega, hh.trans ?_⟩
  unfold overwrite contents
  cases b.address? with
  | none => rfl
  | some a => simp

theorem written_setDataFrom {vs : List (Elem t)} {n : Nat} {indices : List Nat}
    (hok : b.setDataFrom indices vs h = .ok (n, h')) :
    ∃ p, b.offset indices = .ok p ∧ Written b h t p (vs.take (b.size - p)) h' := by
  rw [setDataFrom] at hok
  cases hp : b.offset indices with
  | error e => simp [hp, bind, Except.bind] at hok
  | ok p =>
    cases hdata : b.data t h.heap with
    | error e => simp [hp, hdata, bind, Except.bind] at hok
    | ok old =>
      obtain ⟨ht, hd, rfl⟩ := data_ok hdata
      simp only [hp, hdata, bind, Except.bind, pure, Except.pure, Except.ok.injEq,
        Prod.mk.injEq] at hok
      exact ⟨p, rfl, written_overwrite_take (Nat.le_of_lt (offset_lt hp)) ht hd hok.2.symm⟩

theorem written_setData {vs : List (Elem t)} {n : Nat} (hok : b.setData vs h = .ok (n, h')) :
    Written b h t 0 (vs.take b.size) h' := by
  rw [setData] at hok
  cases hdata : b.data t h.heap with
  | error e => simp [hdata, bind, Except.bind] at hok
  | ok old =>
    obtain ⟨ht, hd, rfl⟩ := data_ok hdata
    simp only [hdata, bind, Except.bind, pure, Except.pure, Except.ok.injEq, Prod.mk.injEq] at hok
    exact written_overwrite_take (Nat.zero_le _) ht hd hok.2.symm

/-- A copy fails without a change of memory, or it writes the elements that it has read. -/
theorem copyElements_written (b : Buffer) (s : Source t) {count : Nat} (source : Device)
    (hs : (s.elements h.heap count).length ≤ count) :
    (∃ e, (b.copyElements s count source h).1 = .error e ∧
        Host.Edits none h (b.copyElements s count source h).2) ∨
      (b.copyElements s count source h).1 = .ok () ∧
        Written b h t 0 (s.elements h.heap count) (b.copyElements s count source h).2 := by
  rcases copyElements_cases s source hs with he | ⟨ht, hn, hd, ho⟩
  · exact .inl he
  · rw [ho]
    have hd : s.elements h.heap count ≠ [] → b.device = .cpu := fun hne =>
      hd (Nat.lt_of_lt_of_le (List.length_pos_iff.mpr hne) hs)
    exact .inr ⟨rfl, ht, hd, by omega, rfl⟩

theorem copyValues_written (b : Buffer) (h : Host) (vs : List (Elem t)) :
    (∃ e, (b.copyValues vs h).1 = .error e ∧ Host.Edits none h (b.copyValues vs h).2) ∨
      (b.copyValues vs h).1 = .ok () ∧ Written b h t 0 vs (b.copyValues vs h).2 :=
  b.copyElements_written (.values vs) .cpu (Nat.le_refl _)

/-- What a copy from a buffer reads are the elements of the buffer. -/
theorem elements_memory (b : Buffer) (t : ElemType) (m : Heap) :
    (Source.memory b.address? : Source t).elements m b.size = b.contents t m := by
  unfold contents Source.elements
  cases b.address? <;> rfl

theorem copyFrom_written (b other : Buffer) (h : Host) :
    (∃ e, (b.copyFrom other h).1 = .error e ∧ Host.Edits none h (b.copyFrom other h).2) ∨
      (b.copyFrom other h).1 = .ok () ∧
        Written b h b.type 0 (other.contents b.type h.heap) (b.copyFrom other h).2 := by
  rw [copyFrom]
  split
  · exact .inl ⟨_, rfl, .refl⟩
  · have hlen : ((Source.memory other.address? : Source b.type).elements h.heap
        other.size).length ≤ other.size := by
      rw [elements_memory]
      exact other.length_contents_le b.type h.heap
    have hwritten := b.copyElements_written _ other.device hlen
    rwa [elements_memory] at hwritten

/-- A write edits the host at the address of the buffer. -/
theorem Written.edits {p : Nat} {vs : List (Elem t)} (W : Written b h t p vs h') :
    Host.Edits b.address? h h' := by
  rw [W.host]
  exact edits_overwrite ..

end Buffer

end NdBuffer
