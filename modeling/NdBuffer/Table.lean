/-! Tables: values under numbers, in ascending order of the numbers. -/

namespace NdBuffer

structure Table (α : Type) where
  entries : List (Nat × α)
  ascending : entries.Pairwise (·.1 < ·.1)

namespace Table

variable {α : Type}

def empty : Table α := ⟨[], .nil⟩

instance : EmptyCollection (Table α) := ⟨empty⟩

def get? (t : Table α) (k : Nat) : Option α := (t.entries.find? (·.1 == k)).map Prod.snd

def contains (t : Table α) (k : Nat) : Bool := (t.get? k).isSome

def erase (t : Table α) (k : Nat) : Table α where
  entries := t.entries.filter (·.1 != k)
  ascending := t.ascending.filter _

/-- The entries with a value put under a number, in place of what is there. -/
def place (k : Nat) (v : α) : List (Nat × α) → List (Nat × α)
  | [] => [(k, v)]
  | e :: es =>
    if k < e.1 then (k, v) :: e :: es
    else if k = e.1 then (k, v) :: es
    else e :: place k v es

theorem mem_place {k : Nat} {v : α} {x : Nat × α} {es : List (Nat × α)} (h : x ∈ place k v es) :
    x = (k, v) ∨ x ∈ es := by
  induction es with
  | nil => simpa [place] using h
  | cons e es ih =>
    unfold place at h
    split at h
    · simpa using h
    · split at h
      · rcases List.mem_cons.mp h with h | h <;> simp [h]
      · rcases List.mem_cons.mp h with h | h
        · simp [h]
        · rcases ih h with h | h <;> simp [h]

theorem pairwise_place {k : Nat} {v : α} {es : List (Nat × α)} (h : es.Pairwise (·.1 < ·.1)) :
    (place k v es).Pairwise (·.1 < ·.1) := by
  induction es with
  | nil => simp [place]
  | cons e es ih =>
    obtain ⟨he, hes⟩ := List.pairwise_cons.mp h
    unfold place
    split
    · refine List.pairwise_cons.mpr ⟨fun x hx => ?_, h⟩
      rcases List.mem_cons.mp hx with rfl | hx
      · assumption
      · exact Nat.lt_trans ‹_› (he x hx)
    · split
      · subst k
        exact List.pairwise_cons.mpr ⟨he, hes⟩
      · refine List.pairwise_cons.mpr ⟨fun x hx => ?_, ih hes⟩
        rcases mem_place hx with rfl | hx
        · show e.1 < k
          omega
        · exact he x hx

def put (t : Table α) (k : Nat) (v : α) : Table α where
  entries := place k v t.entries
  ascending := pairwise_place t.ascending

@[simp] theorem get?_put_self (t : Table α) (k : Nat) (v : α) : (t.put k v).get? k = some v := by
  have (es : List (Nat × α)) : (place k v es).find? (·.1 == k) = some (k, v) := by
    induction es with
    | nil => simp [place]
    | cons e es ih =>
      unfold place
      split
      · simp
      · split
        · simp
        · have : (e.1 == k) = false := by simp; omega
          simp [this, ih]
  simp [get?, put, this]

theorem get?_put_of_ne (t : Table α) {k j : Nat} (v : α) (h : j ≠ k) :
    (t.put k v).get? j = t.get? j := by
  have (es : List (Nat × α)) : (place k v es).find? (·.1 == j) = es.find? (·.1 == j) := by
    have hk : (k == j) = false := by simpa using Ne.symm h
    induction es with
    | nil => simp [place, hk]
    | cons e es ih =>
      unfold place
      split
      · simp [List.find?_cons, hk]
      · split
        · subst k
          simp [hk]
        · simp [List.find?_cons, ih]
  simp [get?, put, this]

@[simp] theorem get?_erase_self (t : Table α) (k : Nat) : (t.erase k).get? k = none := by
  simp [get?, erase]

theorem get?_erase_of_ne (t : Table α) {k j : Nat} (h : j ≠ k) :
    (t.erase k).get? j = t.get? j := by
  unfold get? erase
  rw [List.find?_filter]
  congr 2
  funext e
  by_cases he : e.1 = j <;> simp [he, h]

end Table

end NdBuffer
