import NdBuffer.Buffer.Listing
import NdBuffer.Proofs.Buffer.Refitting
import NdBuffer.Proofs.Memory.Balance

/-!
# Buffers on a device that is not there

The elements of a buffer on an accelerator can neither be addressed nor copied. Every operation that
needs them is denied, and for no other reason than the devices that are involved. An operation that
needs no elements, because the buffer has none, is done all the same, and so an empty buffer can be
copied to any device (`Buffer.copyTo_of_size_eq_zero`). None of the equations here asks for anything
of the host, so whatever is in memory is neither looked at nor changed.
-/

namespace NdBuffer

/-- The host with more events in its log. -/
def Host.noting (h : Host) (es : List Event) : Host := { h with log := h.log ++ es }

@[simp] theorem Host.noting_nil (h : Host) : h.noting [] = h := by
  simp [noting]

/-- The device on account of which elements are not copied from one to the other. -/
def Device.lacking (source target : Device) : Device := if source.isCuda then source else target

/-- What is logged when elements are to be copied. -/
def crossings (source target : Device) (count : Nat) (t : ElemType) : List Event :=
  if source = target then [] else [.crossing source target count t]

/-- What is logged when a copy of an empty buffer is made. -/
def transfers (source target : Device) (t : ElemType) : List Event :=
  if target = source then [] else [.transfer source target t 0]

theorem isRemark_crossings {source target : Device} {count : Nat} {t : ElemType} :
    ∀ e ∈ crossings source target count t, e.isRemark = true := by
  intro e he
  rw [crossings] at he
  split at he
  · cases he
  · rw [List.mem_singleton.mp he]
    rfl

theorem transfer_unavailable {t : ElemType} {count : Nat} (hn : 0 < count) {source target : Device}
    (hd : source.isCuda = true ∨ target.isCuda = true) (s : Source t) (a? : Option Address)
    (h : Host) :
    transfer count source s target a? h =
      (.error (.deviceUnavailable (source.lacking target)),
        h.noting (crossings source target count t)) := by
  have hlog : (if source = target then h else h.record (.crossing source target count t)) =
      h.noting (crossings source target count t) := by
    rw [crossings]
    split
    · exact h.noting_nil.symm
    · rfl
  rw [transfer, if_neg (Nat.pos_iff_ne_zero.mp hn), hlog]
  cases source with
  | cuda _ => rfl
  | cpu =>
    cases target with
    | cuda _ => rfl
    | cpu => rcases hd with hd | hd <;> cases hd

namespace Buffer

variable {b : Buffer} {t : ElemType} {i : UInt64} {indices : List Nat} {offset : Nat}

/-! ### Elements that cannot be addressed -/

theorem data_of_cuda (hd : b.device = .cuda i) (m : Heap) :
    b.data b.type m = .error (.notHostAddressable b.device) := by
  rw [data_eq_map, expectType, if_pos rfl, expectHost, hd]
  rfl

theorem get_of_cuda (hd : b.device = .cuda i) (offset : Nat) (m : Heap) :
    b.get b.type offset m = .error (.notHostAddressable b.device) := by
  rw [get, data_of_cuda hd]
  rfl

theorem getAt_of_cuda (hd : b.device = .cuda i) (indices : List Nat) (m : Heap) :
    b.getAt b.type indices m = .error (.notHostAddressable b.device) := by
  rw [getAt, data_of_cuda hd]
  rfl

theorem dataFrom_of_cuda (hd : b.device = .cuda i) (indices : List Nat) (m : Heap) :
    b.dataFrom b.type indices m = .error (.notHostAddressable b.device) := by
  rw [dataFrom, data_of_cuda hd]
  rfl

theorem set_of_cuda (hd : b.device = .cuda i) (offset : Nat) (v : Elem b.type) (h : Host) :
    b.set offset v h = .error (.notHostAddressable b.device) := by
  rw [set, get_of_cuda hd]
  rfl

theorem setData_of_cuda (hd : b.device = .cuda i) (vs : List (Elem b.type)) (h : Host) :
    b.setData vs h = .error (.notHostAddressable b.device) := by
  rw [setData, data_of_cuda hd]
  rfl

theorem setAt_of_cuda (hd : b.device = .cuda i) (ho : b.offset indices = .ok offset)
    (v : Elem b.type) (h : Host) :
    b.setAt indices v h = .error (.notHostAddressable b.device) := by
  rw [setAt, ho]
  simp only [bind, Except.bind, get_of_cuda hd]

theorem setDataFrom_of_cuda (hd : b.device = .cuda i) (ho : b.offset indices = .ok offset)
    (vs : List (Elem b.type)) (h : Host) :
    b.setDataFrom indices vs h = .error (.notHostAddressable b.device) := by
  rw [setDataFrom, ho]
  simp only [bind, Except.bind, data_of_cuda hd]

theorem fill_of_cuda (hd : b.device = .cuda i) (hn : 0 < b.size) (v : Elem b.type) (h : Host) :
    b.fill v h = .error (.deviceUnavailable b.device) := by
  have hcuda : b.device.isCuda = true := by rw [hd]; rfl
  rw [fill, expectType, if_pos rfl]
  simp only [bind, Except.bind, if_neg (Nat.pos_iff_ne_zero.mp hn), if_pos hcuda]
  rfl

theorem fetch_of_cuda (hd : b.device = .cuda i) (ho : b.offset indices = .ok offset) (m : Heap) :
    b.fetch b.type indices m = .error (.deviceUnavailable b.device) := by
  have hcuda : b.device.isCuda = true := by rw [hd]; rfl
  rw [fetch, expectType, if_pos rfl, ho]
  simp only [bind, Except.bind, if_pos hcuda]
  rfl

theorem copyElements_unavailable {source : Device} (hn : 0 < b.size)
    (hd : source.isCuda = true ∨ b.device.isCuda = true) (ht : t = b.type) (s : Source t)
    (h : Host) :
    b.copyElements s b.size source h =
      (.error (.deviceUnavailable (source.lacking b.device)),
        h.noting (crossings source b.device b.size t)) := by
  rw [copyElements, if_neg (not_not.mpr ht), if_neg (not_not.mpr rfl)]
  exact transfer_unavailable hn hd s b.address? h

theorem copyFrom_unavailable {other : Buffer} (hn : 0 < b.size)
    (hd : other.device.isCuda = true ∨ b.device.isCuda = true) (ht : other.type = b.type)
    (hsize : other.size = b.size) (h : Host) :
    b.copyFrom other h =
      (.error (.deviceUnavailable (other.device.lacking b.device)),
        h.noting (crossings other.device b.device b.size b.type)) := by
  rw [copyFrom, if_neg (not_not.mpr ht), hsize]
  exact copyElements_unavailable hn hd rfl _ h

/-! ### Buffers without elements -/

theorem fill_of_size_eq_zero (h0 : b.size = 0) (v : Elem b.type) (h : Host) :
    b.fill v h = .ok h := by
  rw [fill, expectType, if_pos rfl]
  simp only [bind, Except.bind, if_pos h0]
  rfl

theorem copyElements_of_size_eq_zero (h0 : b.size = 0) (ht : t = b.type) (s : Source t)
    (source : Device) (h : Host) : b.copyElements s 0 source h = (.ok (), h) := by
  rw [copyElements, if_neg (not_not.mpr ht), if_neg (not_not.mpr h0.symm), transfer, if_pos rfl]

theorem copyFrom_of_size_eq_zero {other : Buffer} (h0 : b.size = 0) (ht : other.type = b.type)
    (hother : other.size = 0) (h : Host) : b.copyFrom other h = (.ok (), h) := by
  rw [copyFrom, if_neg (not_not.mpr ht), hother]
  exact copyElements_of_size_eq_zero h0 rfl _ _ h

theorem toList_of_size_eq_zero (h0 : b.size = 0) (h : Host) :
    b.toList b.type h = (.listed [], h) := by
  rw [toList, if_neg (not_not.mpr rfl), if_pos h0]

/-- The copy of an empty buffer on a device: a buffer of the same shape without memory. -/
def emptyCopy (b : Buffer) (device : Device) : Buffer := (empty b.type device).setShape b.shape

theorem copyTo_of_size_eq_zero (hv : b.Valid) (h0 : b.size = 0) (device : Device) (h : Host) :
    b.copyTo device h =
      (.ok (b.emptyCopy device), h.noting (transfers b.device device b.type)) := by
  have hlog : (if device = b.device then h
      else h.record (.transfer b.device device b.type b.size)) =
        h.noting (transfers b.device device b.type) := by
    rw [transfers, h0]
    split
    · exact h.noting_nil.symm
    · rfl
  have hcount : b.shape.count? = some 0 := h0 ▸ hv.count
  have hsize : (b.emptyCopy device).size = 0 := Shape.count_eq hcount
  have htype : b.type = (b.emptyCopy device).type := rfl
  have hresize (h : Host) :
      (empty b.type device).resize b.shape h = .done () (b.emptyCopy device) h :=
    resize_of_le hcount (Nat.le_refl 0)
  rw [copyTo, hlog]
  simp only [hresize, Outcome.andThen, Outcome.done, copyFrom_of_size_eq_zero hsize htype h0]
  rfl

end Buffer

end NdBuffer
