import Mathlib.Algebra.Group.Nat.Defs
import NdBuffer.Heap.Basic

/-!
# Elements in memory

Writes and reads go through bytes. Here they are lifted to elements: storing values over a run of
elements replaces those values, from a position on, and leaves the other elements as they are
(`Heap.elements_store`), and a block that is not written to keeps all of its elements. The elements
of a new block are zero (`Heap.elements_of_zeroed`).
-/

namespace NdBuffer

/-- The list with the values from a position on replaced, as far as it reaches. -/
def overlay {α : Type} (old : List α) (position : Nat) (new : List α) : List α :=
  old.mapIdx fun k v => if position ≤ k then (new[k - position]?).getD v else v

@[simp] theorem overlay_nil {α : Type} (old : List α) (position : Nat) :
    overlay old position [] = old := by
  refine List.ext_getElem? fun k => ?_
  cases hk : old[k]? <;> simp [overlay, hk]

/-- Values that are as many as the old ones replace them all. -/
theorem overlay_of_length_eq {α : Type} {old new : List α} (h : new.length = old.length) :
    overlay old 0 new = new := by
  refine List.ext_getElem? fun k => ?_
  by_cases hk : k < old.length
  · have hk' : k < new.length := h ▸ hk
    simp [overlay, hk, hk']
  · have hk' : ¬ k < new.length := h ▸ hk
    simp [overlay, hk, hk']

section
variable {α : Type} {old : List α} {p : Nat}

theorem getElem?_overlay (old : List α) (p : Nat) (new : List α) (k : Nat) :
    (overlay old p new)[k]? =
      old[k]?.map fun w => if p ≤ k then (new[k - p]?).getD w else w := by
  simp [overlay]

/-- A value that is written behind elements that are there replaces one element. -/
theorem overlay_append_singleton {q : Nat} (hq : q ≤ p) (hp : p < old.length) (v : α) :
    overlay old q ((old.drop q).take (p - q) ++ [v]) = old.set p v := by
  have hlen : ((old.drop q).take (p - q)).length = p - q := by
    rw [List.length_take, List.length_drop]
    omega
  refine List.ext_getElem? fun k => ?_
  rw [getElem?_overlay, List.getElem?_set]
  rcases Nat.lt_trichotomy k p with hlt | rfl | hgt
  · have hk : k < old.length := Nat.lt_trans hlt hp
    rw [if_neg (Nat.ne_of_gt hlt), List.getElem?_eq_getElem hk, Option.map_some]
    split
    · rename_i hle
      have hsame : ((old.drop q).take (p - q) ++ [v])[k - q]? = some old[k] := by
        rw [List.getElem?_append_left (by omega), List.getElem?_take_of_lt (by omega),
          List.getElem?_drop, Nat.add_sub_cancel' hle, List.getElem?_eq_getElem hk]
      rw [hsame]
      rfl
    · rfl
  · have hlast : ((old.drop q).take (k - q) ++ [v])[k - q]? = some v := by
      rw [List.getElem?_append_right (by omega), hlen, Nat.sub_self]
      rfl
    rw [if_pos rfl, if_pos hp, List.getElem?_eq_getElem hp, Option.map_some, if_pos hq, hlast]
    rfl
  · have hbehind : ((old.drop q).take (p - q) ++ [v])[k - q]? = none := by
      refine List.getElem?_eq_none ?_
      rw [List.length_append, hlen, List.length_singleton]
      omega
    rw [if_neg (Nat.ne_of_lt hgt), hbehind]
    cases old[k]? <;> simp

/-- One value replaces one element. -/
theorem overlay_singleton (hp : p < old.length) (v : α) : overlay old p [v] = old.set p v := by
  have h := overlay_append_singleton (Nat.le_refl p) hp v
  rwa [Nat.sub_self, List.take_zero, List.nil_append] at h

/-- Values for which there is no place left do not count. -/
theorem overlay_take (old : List α) (p : Nat) (new : List α) :
    overlay old p (new.take (old.length - p)) = overlay old p new := by
  refine List.ext_getElem? fun k => ?_
  rw [getElem?_overlay, getElem?_overlay]
  cases hk : old[k]? with
  | none => rfl
  | some w =>
    have hlt := (List.getElem?_eq_some_iff.mp hk).1
    by_cases hp : p ≤ k
    · rw [Option.map_some, Option.map_some, if_pos hp, if_pos hp,
        List.getElem?_take_of_lt (by omega)]
    · rw [Option.map_some, Option.map_some, if_neg hp, if_neg hp]

end

namespace Bytes

theorem toNat_lt (bs : List UInt8) : toNat bs < 2 ^ (8 * bs.length) := by
  induction bs with
  | nil => simp [toNat]
  | cons b bs ih =>
    have hpow : 2 ^ (8 * (bs.length + 1)) = 256 * 2 ^ (8 * bs.length) := by
      rw [Nat.mul_add, Nat.pow_add, Nat.mul_comm]
    have hb := b.toNat_lt
    rw [toNat, List.length_cons, hpow]
    omega

theorem ofNat_toNat (bs : List UInt8) : ofNat bs.length (toNat bs) = bs := by
  induction bs with
  | nil => rfl
  | cons b bs ih =>
    have hb := b.toNat_lt
    have hlow : UInt8.ofNat (b.toNat + 256 * toNat bs) = b := by
      apply UInt8.toNat_inj.mp
      rw [UInt8.toNat_ofNat']
      omega
    have hhigh : (b.toNat + 256 * toNat bs) / 256 = toNat bs := by omega
    rw [List.length_cons, toNat, ofNat, hlow, hhigh, ih]

end Bytes

namespace Elem

variable {t : ElemType}

theorem bytes_ofBytes {bs : List UInt8} (hbs : bs.length = t.width) :
    (ofBytes t bs).bytes = bs := by
  have hlt := Bytes.toNat_lt bs
  rw [hbs] at hlt
  rw [bytes, ofBytes, BitVec.toNat_ofNat, Nat.mod_eq_of_lt hlt, ← hbs, Bytes.ofNat_toNat]

theorem length_flatMap_bytes (vs : List (Elem t)) :
    (vs.flatMap bytes).length = vs.length * t.width := by
  induction vs with
  | nil => simp
  | cons v vs ih =>
    rw [List.flatMap_cons, List.length_append, ih, length_bytes, List.length_cons, Nat.succ_mul,
      Nat.add_comm]

/-- The bytes of values lie one value after the other. -/
theorem getElem?_flatMap_bytes (vs : List (Elem t)) (k : Nat) {i : Nat} (hi : i < t.width) :
    (vs.flatMap bytes)[k * t.width + i]? = vs[k]?.bind fun v => v.bytes[i]? := by
  induction vs generalizing k with
  | nil => simp
  | cons v vs ih =>
    cases k with
    | zero => simp [List.getElem?_append_left, hi]
    | succ k =>
      have hlen : v.bytes.length ≤ (k + 1) * t.width + i := by
        rw [length_bytes, Nat.succ_mul]
        omega
      have hsub : (k + 1) * t.width + i - v.bytes.length = k * t.width + i := by
        rw [length_bytes, Nat.succ_mul]
        omega
      rw [List.flatMap_cons, List.getElem?_append_right hlen, hsub, ih, List.getElem?_cons_succ]

end Elem

namespace Heap

variable {t : ElemType} {h : Heap} {a : Address} {n : Nat}

@[simp] theorem length_bytesAt (h : Heap) (a : Address) (n : Nat) : (h.bytesAt a n).length = n := by
  simp [bytesAt]

@[simp] theorem length_elements (h : Heap) (t : ElemType) (a : Address) (n : Nat) :
    (h.elements t a n).length = n := by
  simp [elements]

@[simp] theorem advance_zero (a : Address) : a.advance 0 = a := rfl

theorem advance_advance (a : Address) (m n : Nat) :
    (a.advance m).advance n = a.advance (m + n) := by
  simp [Address.advance, Nat.add_assoc]

theorem bytesAt_add (h : Heap) (a : Address) (m n : Nat) :
    h.bytesAt a (m + n) = h.bytesAt a m ++ h.bytesAt (a.advance m) n := by
  simp [bytesAt, List.range_add, advance_advance]

/-- The bytes of the elements in memory are the bytes in memory. -/
theorem flatMap_elements (h : Heap) (t : ElemType) (a : Address) (n : Nat) :
    (h.elements t a n).flatMap Elem.bytes = h.bytesAt a (n * t.width) := by
  induction n with
  | zero => simp [elements, bytesAt]
  | succ n ih =>
    have hlast : (h.element t (a.advance (n * t.width))).bytes =
        h.bytesAt (a.advance (n * t.width)) t.width := Elem.bytes_ofBytes (by simp)
    rw [elements, List.range_succ, List.map_append, List.flatMap_append, Nat.succ_mul, bytesAt_add,
      ← ih, ← hlast]
    simp [elements]

theorem write_nil (h : Heap) (a : Address) : h.write a [] = h := by
  have hid : (fun b : Block => b.overwrite a.offset #[]) = id := by
    funext b
    have hbytes : (b.overwrite a.offset #[]).bytes = b.bytes := by
      apply Array.ext
      · simp
      · intro i _ _
        simp [Block.overwrite]
    exact congrArg (fun bytes => { b with bytes }) hbytes
  simp [write, hid]

/-- Storing over elements replaces one of them as a whole or leaves it as it is. -/
theorem element_store {p k : Nat} (vs : List (Elem t)) (hk : k < n)
    (hfits : a.offset + n * t.width ≤ h.size a.block) :
    (h.store (a.advance (p * t.width)) vs).element t (a.advance (k * t.width)) =
      if p ≤ k then (vs[k - p]?).getD (h.element t (a.advance (k * t.width)))
      else h.element t (a.advance (k * t.width)) := by
  have hend : (k + 1) * t.width ≤ n * t.width := Nat.mul_le_mul_right _ hk
  rw [Nat.succ_mul] at hend
  have hbyte {i : Nat} (hi : i < t.width) :
      (h.store (a.advance (p * t.width)) vs).byte ((a.advance (k * t.width)).advance i) =
        if p ≤ k then (vs[k - p]?.bind fun v => v.bytes[i]?).getD
          (h.byte ((a.advance (k * t.width)).advance i))
        else h.byte ((a.advance (k * t.width)).advance i) := by
    rw [store, byte_write]
    simp only [Address.advance, true_and]
    by_cases hp : p ≤ k
    · have hle : p * t.width ≤ k * t.width := Nat.mul_le_mul_right _ hp
      have hsub : a.offset + k * t.width + i - (a.offset + p * t.width) =
          (k - p) * t.width + i := by
        rw [Nat.sub_mul]
        omega
      rw [if_pos (by omega), if_pos hp, hsub, Elem.getElem?_flatMap_bytes vs _ hi]
    · have hle : (k + 1) * t.width ≤ p * t.width := Nat.mul_le_mul_right _ (Nat.not_le.mp hp)
      rw [Nat.succ_mul] at hle
      rw [if_neg (by omega), if_neg hp]
  have hsame (hold : ∀ i < t.width, (h.store (a.advance (p * t.width)) vs).byte
        ((a.advance (k * t.width)).advance i) = h.byte ((a.advance (k * t.width)).advance i)) :
      (h.store (a.advance (p * t.width)) vs).element t (a.advance (k * t.width)) =
        h.element t (a.advance (k * t.width)) :=
    congrArg (Elem.ofBytes t) (List.map_congr_left fun i hi => hold i (List.mem_range.mp hi))
  by_cases hp : p ≤ k
  · rw [if_pos hp]
    cases hv : vs[k - p]? with
    | none => exact hsame fun i hi => by rw [hbyte hi, if_pos hp, hv]; rfl
    | some v =>
      have hbytes : (h.store (a.advance (p * t.width)) vs).bytesAt (a.advance (k * t.width))
          t.width = v.bytes := by
        refine List.ext_getElem (by simp) fun i _ hi => ?_
        simp only [bytesAt, List.getElem_map, List.getElem_range]
        rw [hbyte (by simpa using hi), if_pos hp, hv]
        simp [List.getElem?_eq_getElem hi]
      rw [element, hbytes, Elem.ofBytes_bytes]
      rfl
  · rw [if_neg hp]
    exact hsame fun i hi => by rw [hbyte hi, if_neg hp]

theorem getElem?_elements {k : Nat} (hk : k < n) :
    (h.elements t a n)[k]? = some (h.element t (a.advance (k * t.width))) := by
  simp [elements, hk]

/-- Storing over a run of elements replaces those from a position on. -/
theorem elements_store {p : Nat} (vs : List (Elem t))
    (hfits : a.offset + n * t.width ≤ h.size a.block) :
    (h.store (a.advance (p * t.width)) vs).elements t a n = overlay (h.elements t a n) p vs := by
  refine List.ext_getElem? fun k => ?_
  by_cases hk : k < n
  · rw [getElem?_elements hk, element_store vs hk hfits, overlay, List.getElem?_mapIdx,
      getElem?_elements hk]
    rfl
  · have hlen : n ≤ k := Nat.not_lt.mp hk
    rw [List.getElem?_eq_none (by simpa using hlen),
      List.getElem?_eq_none (by simpa [overlay] using hlen)]

/-- Elements are the same in memories that have the same bytes where they are. -/
theorem elements_congr {m m' : Heap} (hm : ∀ x : Address, x.block = a.block → a.offset ≤ x.offset →
    x.offset < a.offset + n * t.width → m'.byte x = m.byte x) :
    m'.elements t a n = m.elements t a n := by
  refine List.map_congr_left fun k hk => ?_
  have hend : (k + 1) * t.width ≤ n * t.width := Nat.mul_le_mul_right _ (List.mem_range.mp hk)
  rw [Nat.succ_mul] at hend
  refine congrArg (Elem.ofBytes t) (List.map_congr_left fun i hi => hm _ rfl ?_ ?_)
  · simp only [Address.advance]
    omega
  · have hi := List.mem_range.mp hi
    simp only [Address.advance]
    omega

/-- Storing over a run of elements leaves every byte before and behind it. -/
theorem byte_store_of_outside {p : Nat} {vs : List (Elem t)} {x : Address}
    (hx : ¬ (x.block = a.block ∧ a.offset + p * t.width ≤ x.offset ∧
      x.offset < a.offset + (p + vs.length) * t.width)) :
    (h.store (a.advance (p * t.width)) vs).byte x = h.byte x := by
  rw [store, byte_write]
  split
  · rename_i hin
    obtain ⟨hblock, hle, -⟩ := hin
    simp only [Address.advance] at hblock hle ⊢
    have hlen : (vs.flatMap Elem.bytes).length ≤ x.offset - (a.offset + p * t.width) := by
      have hbehind : a.offset + (p + vs.length) * t.width ≤ x.offset :=
        Nat.not_lt.mp fun hlt => hx ⟨hblock, hle, hlt⟩
      rw [Nat.add_mul] at hbehind
      rw [Elem.length_flatMap_bytes]
      omega
    rw [List.getElem?_eq_none hlen]
    rfl
  · rfl

end Heap

/-! ### Blocks of zeros -/

theorem Bytes.toNat_replicate_zero (n : Nat) : toNat (List.replicate n 0) = 0 := by
  induction n with
  | zero => rfl
  | succ n ih => rw [List.replicate_succ, toNat, ih]; rfl

namespace Heap

variable {m : Heap} {l : Layout} {t : ElemType} {a : Address}

theorem byte_of_zeroed (hm : m.blocks[a.block]? = some (.zeroed l)) : m.byte a = 0 := by
  rw [byte, hm]
  by_cases ha : a.offset < l.bytes <;> simp [Block.byte, Block.zeroed, ha]

theorem elements_of_zeroed (hm : m.blocks[a.block]? = some (.zeroed l)) (n : Nat) :
    m.elements t a n = List.replicate n 0 := by
  refine List.eq_replicate_iff.mpr ⟨m.length_elements t a n, fun v hv => ?_⟩
  obtain ⟨i, -, rfl⟩ := List.mem_map.mp hv
  have hbytes : m.bytesAt (a.advance (i * t.width)) t.width = List.replicate t.width 0 := by
    refine List.eq_replicate_iff.mpr ⟨m.length_bytesAt _ _, fun byte hbyte => ?_⟩
    obtain ⟨j, -, rfl⟩ := List.mem_map.mp hbyte
    exact byte_of_zeroed hm
  rw [element, hbytes, Elem.ofBytes, Bytes.toNat_replicate_zero]
  rfl

end Heap

end NdBuffer
