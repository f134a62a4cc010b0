import NdBuffer.Proofs.Memory.Elements

/-!
# Copies and fills of memory

A copy reads all of its bytes before it writes the first one, and so it stores the elements that the
source had (`Heap.copy_eq_store`), however source and target lie to each other. A fill stores one
value over and over. What is stored is what is read from then on, and nothing else is different
(`Heap.elements_store_self`, `Heap.sameBut_store`).
-/

namespace NdBuffer

variable {t : ElemType} {n i j : Nat}

theorem Bytes.getElem?_ofNat {width : Nat} (m : Nat) (hj : j < width) :
    (ofNat width m)[j]? = some (UInt8.ofNat (m / 256 ^ j)) := by
  induction width generalizing m j with
  | zero => exact absurd hj (Nat.not_lt_zero j)
  | succ width ih =>
    cases j with
    | zero => simp [ofNat]
    | succ j =>
      rw [ofNat, List.getElem?_cons_succ, ih _ (Nat.lt_of_succ_lt_succ hj),
        Nat.div_div_eq_div_mul, Nat.pow_succ']

namespace Heap

variable {h : Heap} {a b : Address} {v : Elem t} {vs : List (Elem t)}

/-- Nothing is different between two memories but some elements of a type, from an address on. -/
structure SameBut (h h' : Heap) (t : ElemType) (a : Address) (n : Nat) : Prop where
  size : ∀ id, h'.size id = h.size id
  byte : ∀ x : Address, ¬ (x.block = a.block ∧ a.offset ≤ x.offset ∧
    x.offset < a.offset + n * t.width) → h'.byte x = h.byte x

theorem sameBut_store (hlen : vs.length = n) : h.SameBut (h.store a vs) t a n where
  size _ := h.size_write ..
  byte x hx := by
    have hout : ¬ (x.block = a.block ∧ a.offset + 0 * t.width ≤ x.offset ∧
        x.offset < a.offset + (0 + vs.length) * t.width) := by
      rwa [Nat.zero_mul, Nat.add_zero, Nat.zero_add, hlen]
    have hstore := byte_store_of_outside (h := h) hout
    rwa [Nat.zero_mul, advance_zero] at hstore

/-- Values that are stored are read back. -/
theorem elements_store_self (hlen : vs.length = n)
    (hfits : a.offset + n * t.width ≤ h.size a.block) : (h.store a vs).elements t a n = vs := by
  have hstore := elements_store (p := 0) vs hfits
  rw [Nat.zero_mul, advance_zero] at hstore
  rw [hstore]
  exact overlay_of_length_eq (hlen.trans (h.length_elements t a n).symm)

theorem copy_eq_store (h : Heap) (t : ElemType) (a b : Address) (n : Nat) :
    h.copy a b (n * t.width) = h.store b (h.elements t a n) := by
  rw [copy, store, flatMap_elements]

theorem bytes_element (h : Heap) (t : ElemType) (a : Address) :
    (h.element t a).bytes = h.bytesAt a t.width :=
  Elem.bytes_ofBytes (h.length_bytesAt a t.width)

/-- The target of a copy holds what the source held before. -/
theorem elements_copy (hfits : b.offset + n * t.width ≤ h.size b.block) :
    (h.copy a b (n * t.width)).elements t b n = h.elements t a n := by
  rw [copy_eq_store]
  exact elements_store_self (h.length_elements t a n) hfits

theorem sameBut_copy (h : Heap) (t : ElemType) (a b : Address) (n : Nat) :
    h.SameBut (h.copy a b (n * t.width)) t b n := by
  rw [copy_eq_store]
  exact sameBut_store (h.length_elements t a n)

theorem sameBut_fill (h : Heap) (a : Address) (v : Elem t) (n : Nat) :
    h.SameBut (h.fill a v n) t a n :=
  sameBut_store List.length_replicate

theorem element_fill (hi : i < n) (hfits : a.offset + n * t.width ≤ h.size a.block) :
    (h.fill a v n).element t (a.advance (i * t.width)) = v := by
  have hread : (h.fill a v n).elements t a n = List.replicate n v :=
    elements_store_self List.length_replicate hfits
  have hget := getElem?_elements (h := h.fill a v n) (t := t) (a := a) hi
  rw [hread, List.getElem?_replicate_of_lt hi] at hget
  exact (Option.some.inj hget).symm

/-- A fill writes the bytes of the value, the least significant byte of each element first. -/
theorem byte_fill (hi : i < n) (hj : j < t.width)
    (hfits : a.offset + n * t.width ≤ h.size a.block) :
    (h.fill a v n).byte (a.advance (i * t.width + j)) = UInt8.ofNat (v.toNat / 256 ^ j) := by
  have hbytes : (h.fill a v n).bytesAt (a.advance (i * t.width)) t.width = v.bytes := by
    rw [← bytes_element, element_fill hi hfits]
  have hget : v.bytes[j]? = some ((h.fill a v n).byte (a.advance (i * t.width + j))) := by
    rw [← hbytes, ← advance_advance]
    simp [bytesAt, hj]
  rw [Elem.bytes, Bytes.getElem?_ofNat _ hj] at hget
  exact (Option.some.inj hget).symm

end Heap

end NdBuffer
