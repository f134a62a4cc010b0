import NdBuffer.Proofs.Buffer.Copying

/-!
# The accessors of a buffer of the host

On a buffer of the host that has memory for its elements, every reader gives what stands at its
place in one list, `Buffer.contents`, and every writer overwrites elements of this list from its
place on. A place that is given by indices is found by `Buffer.offset`, and an accessor with indices
fails as this does. Overwriting replaces elements of the list
(`Buffer.contents_overwrite_eq_overlay`) and leaves every byte that does not belong to an element
(`Buffer.byte_overwrite_of_not_covers`). A list of all elements needs room of its own, on whichever
device the buffer is, and if there is none the program ends (`Buffer.toList_of_extent_le`,
`Buffer.toList_of_not_grants`).
-/

namespace NdBuffer

namespace Buffer

variable {b : Buffer} {h : Host} {m : Heap} {p : Nat} {is : List Nat}

/-- Whether a byte belongs to an element of the buffer. -/
def Covers (b : Buffer) (x : Address) : Prop :=
  ∃ a, b.address? = some a ∧ x.block = a.block ∧ a.offset ≤ x.offset ∧
    x.offset < a.offset + b.size * b.type.width

/-! ### Overwriting -/

theorem byte_overwrite_of_not_covers {vs : List (Elem b.type)} (hlen : p + vs.length ≤ b.size)
    {x : Address} (hx : ¬ b.Covers x) : (b.overwrite p vs h).heap.byte x = h.heap.byte x := by
  rw [overwrite]
  cases ha : b.address? with
  | none => rfl
  | some a =>
    refine Heap.byte_store_of_outside fun hin => hx ⟨a, ha, hin.1, ?_, ?_⟩
    · exact Nat.le_trans (Nat.le_add_right ..) hin.2.1
    · have hend : (p + vs.length) * b.type.width ≤ b.size * b.type.width :=
        Nat.mul_le_mul_right _ hlen
      omega

/-! ### Room for a list -/

/-- Whether there is room for a list of the elements. None is needed if there are no elements. -/
def HasRoom (b : Buffer) (m : Heap) : Prop := b.size = 0 ∨ m.Grants (b.listLayout b.type)

/-- A list of some elements can be asked for if it takes less than half of the address space. The
width of an element divides that half, so there is as much left as the alignment needs. -/
theorem valid_listLayout_iff (hn : 0 < b.size) :
    (b.listLayout b.type).Valid ↔ b.size * b.type.width < Layout.extent := by
  generalize b.type = t
  have halign : 1 <<< t.width.log2 = t.width := by cases t <;> decide
  simp only [listLayout, Layout.Valid, halign, Nat.mul_pos hn t.width_pos, true_and]
  cases t <;> simp only [ElemType.width, Layout.extent] <;> omega

theorem toList_of_extent_le (hlarge : Layout.extent ≤ b.size * b.type.width) (h : Host) :
    b.toList b.type h = (.panicked, h) := by
  have hn : 0 < b.size := by
    refine Nat.pos_of_ne_zero fun hzero => ?_
    rw [hzero, Nat.zero_mul] at hlarge
    exact absurd hlarge (by decide)
  have hv : ¬ (b.listLayout b.type).Valid :=
    mt (valid_listLayout_iff hn).mp (Nat.not_lt.mpr hlarge)
  rw [toList, if_neg (not_not.mpr rfl), if_neg (Nat.ne_of_gt hn), if_pos hv]

theorem toList_of_not_grants (hlt : b.size * b.type.width < Layout.extent)
    (hroom : ¬ b.HasRoom h.heap) : b.toList b.type h = (.aborted, h) := by
  obtain ⟨hne, hl⟩ := not_or.mp hroom
  have hv := (valid_listLayout_iff (Nat.pos_of_ne_zero hne)).mpr hlt
  rw [toList, if_neg (not_not.mpr rfl), if_neg hne, if_neg (not_not.mpr hv), if_pos hl]

/-! ### Readers -/

section
variable (hd : b.device = .cpu)
include hd

theorem get_eq_of_cpu (p : Nat) (m : Heap) :
    b.get b.type p m = match (b.contents b.type m)[p]? with
      | some v => .ok v
      | none => .error (.outOfBounds p b.size) := by
  simp only [get, data_eq_ok rfl hd, bind, Except.bind]
  cases (b.contents b.type m)[p]? <;> rfl

theorem getAt_eq_of_cpu (is : List Nat) (m : Heap) :
    b.getAt b.type is m = b.offset is >>= fun p => b.get b.type p m := by
  simp only [getAt, get, data_eq_ok rfl hd]
  cases b.offset is <;> rfl

theorem dataFrom_eq_of_cpu (is : List Nat) (m : Heap) :
    b.dataFrom b.type is m = (b.offset is).map fun p => (b.contents b.type m).drop p := by
  rw [dataFrom, data_eq_ok rfl hd]
  cases b.offset is <;> rfl

/-- On the host it makes no difference whether an element is read through the device. -/
theorem fetch_eq_of_cpu (H : b.Reaches b.size m) (is : List Nat) :
    b.fetch b.type is m = b.offset is >>= fun p => b.get b.type p m := by
  rw [fetch, expectType, if_pos rfl]
  cases hp : b.offset is with
  | error e => rfl
  | ok p =>
    have hlt := offset_lt hp
    obtain ⟨a, ha, -⟩ := H (Nat.zero_lt_of_lt hlt)
    have hget : (b.contents b.type m)[p]? =
        some (m.element b.type (a.advance (p * b.type.width))) := by
      simp only [contents, ha, Heap.getElem?_elements hlt]
    have hhost : ¬ b.device.isCuda = true := by rw [hd]; decide
    simp only [bind, Except.bind, if_neg hhost, ha, get_eq_of_cpu hd, hget]
    rfl

theorem toList_eq_of_cpu (hroom : b.HasRoom h.heap) :
    b.toList b.type h = (.listed (b.contents b.type h.heap), h) := by
  rw [toList, if_neg (not_not.mpr rfl)]
  split
  · rw [contents_of_size ‹_›]
  · have hl := hroom.resolve_left ‹_›
    rw [if_neg (not_not.mpr hl.1), if_neg (not_not.mpr hl), hd]

/-! ### Writers -/

theorem setDataFrom_eq_of_cpu (H : b.Reaches b.size h.heap) (is : List Nat)
    (vs : List (Elem b.type)) :
    b.setDataFrom is vs h = (b.offset is).map fun p =>
      (b.size - p, b.overwrite p (vs.take (b.size - p)) h) := by
  rw [setDataFrom, data_eq_ok rfl hd]
  cases b.offset is with
  | error e => rfl
  | ok p => simp only [bind, Except.bind, H.length_contents]; rfl

theorem setData_eq_of_cpu (H : b.Reaches b.size h.heap) (vs : List (Elem b.type)) :
    b.setData vs h = .ok (b.size, b.overwrite 0 (vs.take b.size) h) := by
  rw [setData, data_eq_ok rfl hd]
  simp only [bind, Except.bind, H.length_contents]
  rfl

theorem fill_eq_of_cpu (v : Elem b.type) (h : Host) :
    b.fill v h = .ok (b.overwrite 0 (List.replicate b.size v) h) := by
  have hhost : ¬ b.device.isCuda = true := by rw [hd]; decide
  rw [fill, expectType, if_pos rfl, if_neg hhost]
  split
  · rename_i hzero
    rw [hzero, List.replicate_zero, overwrite_nil]
    rfl
  · rfl

theorem copyValues_eq_of_cpu {vs : List (Elem b.type)} (hlen : vs.length = b.size) (h : Host) :
    b.copyValues vs h = (.ok (), b.overwrite 0 vs h) := by
  rw [copyValues, copyElements, if_neg (not_not.mpr rfl), if_neg (not_not.mpr hlen), transfer]
  split
  · rename_i hzero
    rw [List.length_eq_zero_iff.mp hzero, overwrite_nil]
  · rw [hd]
    exact congrArg _ (b.onHeap_deliver (.values vs) vs.length h)

/-- Elements that are copied from memory are read first and then overwrite those of the buffer. -/
theorem copyElements_eq_of_cpu (a : Address) (h : Host) :
    b.copyElements (.memory (some a) : Source b.type) b.size .cpu h =
      (.ok (), b.overwrite 0 (h.heap.elements b.type a b.size) h) := by
  rw [copyElements, if_neg (not_not.mpr rfl), if_neg (not_not.mpr rfl), transfer]
  split
  · rename_i hzero
    have hnil : h.heap.elements b.type a b.size = [] :=
      List.length_eq_zero_iff.mp ((h.heap.length_elements ..).trans hzero)
    rw [hnil, overwrite_nil]
  · rw [hd]
    exact congrArg _ (b.onHeap_deliver (.memory (some a)) b.size h)

end

theorem set_eq_map (p : Nat) (v : Elem b.type) (h : Host) :
    b.set p v h = (b.get b.type p h.heap).map fun old => (old, b.overwrite p [v] h) := by
  rw [set]
  cases b.get b.type p h.heap <;> rfl

theorem setAt_eq_bind (is : List Nat) (v : Elem b.type) (h : Host) :
    b.setAt is v h = b.offset is >>= fun p => b.set p v h := rfl

theorem copyValues_of_length_ne {vs : List (Elem b.type)} (hlen : vs.length ≠ b.size) (h : Host) :
    b.copyValues vs h = (.error (.sizeMismatch b.size vs.length), h) := by
  rw [copyValues, copyElements, if_neg (not_not.mpr rfl), if_pos hlen]

end Buffer

end NdBuffer
