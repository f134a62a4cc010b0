import Mathlib.Data.List.Nodup
import NdBuffer.Session.Basic

/-!
# Tables as functions on numbers

A table is determined by what is found in it (`Table.ext_get?`). So two ways of filling slots are
compared by looking at one number at a time, and the entries of a table are those of a smaller table
and one more, in some order.
-/

namespace NdBuffer.Table

variable {α : Type} {t u : Table α} {k j : Nat} {v w : α}

theorem mem_entries : (k, v) ∈ t.entries ↔ t.get? k = some v := by
  have hkeys : ∀ {x y : Nat × α}, x ∈ t.entries → y ∈ t.entries → x.1 = y.1 → x = y :=
    fun {x y} hx hy hxy => List.inj_on_of_nodup_map
      (List.pairwise_map.mpr (t.ascending.imp fun h => Nat.ne_of_lt h)) hx hy hxy
  rw [get?]
  constructor
  · intro hmem
    cases hf : t.entries.find? (·.1 == k) with
    | none =>
      have := List.find?_eq_none.mp hf _ hmem
      simp at this
    | some x =>
      have hx : x.1 = k := by simpa using List.find?_some hf
      rw [hkeys (List.mem_of_find?_eq_some hf) hmem hx]
      rfl
  · intro hf
    obtain ⟨x, hx, rfl⟩ := Option.map_eq_some_iff.mp hf
    have hk : x.1 = k := by simpa using List.find?_some hx
    rw [← hk]
    exact List.mem_of_find?_eq_some hx

theorem nodup_entries (t : Table α) : t.entries.Nodup :=
  t.ascending.imp fun {x y} (h : x.1 < y.1) => fun heq : x = y => Nat.ne_of_lt h (congrArg _ heq)

/-- Tables in which the same is found are the same. -/
theorem ext_get? (h : ∀ k, t.get? k = u.get? k) : t = u := by
  have hperm : t.entries.Perm u.entries := by
    refine (List.perm_ext_iff_of_nodup t.nodup_entries u.nodup_entries).mpr ?_
    rintro ⟨k, v⟩
    rw [mem_entries, mem_entries, h k]
  have heq : t.entries = u.entries :=
    hperm.eq_of_pairwise (fun x y _ _ hxy hyx => absurd hyx (Nat.lt_asymm hxy))
      t.ascending u.ascending
  cases t
  cases u
  congr

theorem get?_put (t : Table α) (k j : Nat) (v : α) :
    (t.put k v).get? j = if j = k then some v else t.get? j := by
  split
  · subst j
    exact t.get?_put_self k v
  · exact t.get?_put_of_ne v ‹_›

theorem get?_erase (t : Table α) (k j : Nat) :
    (t.erase k).get? j = if j = k then none else t.get? j := by
  split
  · subst j
    exact t.get?_erase_self k
  · exact t.get?_erase_of_ne ‹_›

/-- A value that is found, and the rest. -/
theorem perm_erase (h : t.get? k = some v) : t.entries.Perm ((k, v) :: (t.erase k).entries) := by
  have hnot : (k, v) ∉ (t.erase k).entries := by
    rw [mem_entries, get?_erase, if_pos rfl]
    intro h
    cases h
  refine (List.perm_ext_iff_of_nodup t.nodup_entries
    (List.nodup_cons.mpr ⟨hnot, (t.erase k).nodup_entries⟩)).mpr ?_
  rintro ⟨j, w⟩
  rw [List.mem_cons, mem_entries, mem_entries, get?_erase]
  by_cases hj : j = k
  · subst hj
    simp [h, eq_comm]
  · simp [hj]

theorem perm_put (h : t.get? k = none) (v : α) :
    (t.put k v).entries.Perm ((k, v) :: t.entries) := by
  have herase : (t.put k v).erase k = t := ext_get? fun j => by
    rw [get?_erase, get?_put]
    split
    · subst j
      exact h.symm
    · rfl
  have hperm := perm_erase (t.get?_put_self k v)
  rwa [herase] at hperm

/-- The entries under some numbers are the same in tables that agree on these numbers. -/
theorem perm_filter {p : Nat → Bool} (h : ∀ k, p k = true → t.get? k = u.get? k) :
    (t.entries.filter (p ·.1)).Perm (u.entries.filter (p ·.1)) := by
  refine (List.perm_ext_iff_of_nodup (t.nodup_entries.filter _) (u.nodup_entries.filter _)).mpr ?_
  intro e
  rw [List.mem_filter, List.mem_filter, mem_entries, mem_entries]
  exact and_congr_left fun hp => by rw [h e.1 hp]

theorem put_erase (t : Table α) (k : Nat) (v : α) : (t.erase k).put k v = t.put k v :=
  ext_get? fun j => by
    rw [get?_put, get?_put, get?_erase]
    split <;> rfl

theorem put_put (t : Table α) (k : Nat) (v w : α) : (t.put k v).put k w = t.put k w :=
  ext_get? fun j => by
    simp only [get?_put]
    split <;> rfl

theorem put_eq_self (h : t.get? k = some v) : t.put k v = t :=
  ext_get? fun j => by
    rw [get?_put]
    split
    · subst j
      exact h.symm
    · rfl

end NdBuffer.Table
