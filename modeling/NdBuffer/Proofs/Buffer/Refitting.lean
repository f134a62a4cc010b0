import NdBuffer.Proofs.Buffer.Resizing
import NdBuffer.Proofs.Shape.Extents

/-!
# Shapes for which there is room

Giving a buffer a shape that it has room for writes the three fields that belong to the shape and
nothing else (`resize_of_le`). So the last shape decides, and the shapes before it leave no trace:
an extent that is made smaller and then larger again leaves the buffer that was there before
(`shrink_eq`, `grow_setShape`).
-/

namespace NdBuffer.Buffer

variable {b : Buffer} {s : Shape} {h : Host} {axis amount d n : Nat} {t : ElemType} {m : Heap}

@[simp] theorem setShape_setShape (b : Buffer) (s s' : Shape) :
    (b.setShape s).setShape s' = b.setShape s' := rfl

@[simp] theorem extents_setShape (b : Buffer) (s : Shape) : (b.setShape s).extents = s.extents :=
  rfl

theorem Valid.setShape_self (H : b.Valid) : b.setShape b.shape = b := by
  have hsize : b.shape.count = b.size := Shape.count_eq H.count
  rw [Buffer.setShape, hsize, ← H.strides]

theorem resize_of_le (hs : s.count? = some n) (hn : n ≤ b.capacity) :
    b.resize s h = .done () (b.setShape s) h := by
  rw [resize, Shape.checkedCount_eq_ok.mpr hs]
  exact if_pos hn

theorem reshape_of_eq (hs : s.count? = some b.size) :
    b.reshape s h = .done () (b.setShape s) h := by
  rw [reshape, Shape.checkedCount_eq_ok.mpr hs]
  exact if_pos rfl

/-- The shape with one extent replaced. -/
def shapeWith (b : Buffer) (axis extent : Nat) : Shape := ⟨b.shape.dims.set axis (.ofNat extent)⟩

theorem resizeAxis_eq (hd : b.extents[axis]? = some d) (extent : Nat) :
    b.resizeAxis axis (.ofNat extent) h = b.resize (b.shapeWith axis extent) h := by
  have hok := Shape.setExtent_eq_ok.mpr
    ⟨Shape.lt_rank_of_getElem? hd, Eq.refl (b.shapeWith axis extent)⟩
  rw [resizeAxis, hok]

/-- Making an extent smaller always succeeds and needs no new memory. -/
theorem shrink_eq (H : b.Valid) (hd : b.extents[axis]? = some d) (ha : amount ≤ d) :
    ∃ n ≤ b.size, (b.shapeWith axis (d - amount)).count? = some n ∧
      b.shrink axis amount h = .done () (b.setShape (b.shapeWith axis (d - amount))) h := by
  obtain ⟨n, hn, hcount⟩ : ∃ n ≤ b.size, (b.shapeWith axis (d - amount)).count? = some n :=
    Shape.exists_count?_setExtent H.count hd (Nat.sub_le d amount)
  refine ⟨n, hn, hcount, ?_⟩
  rw [shrink, Shape.extentAt_eq_ok.mpr hd]
  simp only [if_pos ha]
  rw [resizeAxis_eq hd, resize_of_le hcount (Nat.le_trans hn H.size_le)]

/-- An extent that has been made smaller is made larger again. -/
theorem grow_setShape (H : b.Valid) (hd : b.extents[axis]? = some d) (ha : amount ≤ d) :
    (b.setShape (b.shapeWith axis (d - amount))).grow axis amount h = .done () b h := by
  obtain ⟨hlt, hdims⟩ := Shape.getElem?_dims hd
  have haxis : axis < b.shape.dims.length := Shape.lt_rank_of_getElem? hd
  have hsmall : (b.setShape (b.shapeWith axis (d - amount))).extents[axis]? =
      some (d - amount) := by
    have hword : (UInt64.ofNat (d - amount)).toNat = d - amount :=
      UInt64.toNat_ofNat_of_lt' (Nat.lt_of_le_of_lt (Nat.sub_le d amount) hlt)
    simp [shapeWith, Shape.extents, haxis, hword]
  have hadd : Count.add? (d - amount) amount = some d :=
    Count.checked_eq_some_iff.mpr ⟨Nat.sub_add_cancel ha, by rwa [Nat.sub_add_cancel ha]⟩
  have hback : (b.setShape (b.shapeWith axis (d - amount))).shapeWith axis d = b.shape := by
    obtain ⟨_, hget⟩ := List.getElem?_eq_some_iff.mp hdims
    have hset : b.shape.dims.set axis (.ofNat d) = b.shape.dims := by
      rw [← hget, List.set_getElem_self]
    simp only [shapeWith, setShape, List.set_set, hset]
  rw [grow, Shape.extentAt_eq_ok.mpr hsmall]
  simp only [hadd]
  have hroom : b.size ≤ (b.setShape (b.shapeWith axis (d - amount))).capacity := H.size_le
  rw [resizeAxis_eq hsmall, hback, resize_of_le H.count hroom, setShape_setShape,
    H.setShape_self]

/-! ### What is read -/

theorem contents_setShape (b : Buffer) (s : Shape) (t : ElemType) (m : Heap) :
    (b.setShape s).contents t m = match b.address? with
      | some a => m.elements t a s.count
      | none => [] := rfl

/-- Fewer elements in the same place are the first ones. -/
theorem contents_setShape_of_le (hs : s.count ≤ b.size) :
    (b.setShape s).contents t m = (b.contents t m).take s.count := by
  rw [contents_setShape, contents]
  cases b.address? with
  | none => simp
  | some a => simp [Heap.elements, ← List.map_take, List.take_range, Nat.min_eq_left hs]

theorem data_eq_map (b : Buffer) (t : ElemType) (m : Heap) :
    b.data t m = (b.expectType t >>= fun _ => b.expectHost).map fun _ => b.contents t m := by
  rw [data]
  cases b.expectType t with
  | error e => rfl
  | ok u => cases b.expectHost <;> rfl

theorem data_eq_ok (hb : b.type = t) (hd : b.device = .cpu) :
    b.data t m = .ok (b.contents t m) := by
  rw [data, expectType, if_pos hb.symm, expectHost, hd]
  rfl

/-- What is read after an extent has been made smaller is the beginning of what was read before. -/
theorem data_setShape_of_le (hs : s.count ≤ b.size) :
    (b.setShape s).data t m = (b.data t m).map (List.take s.count) := by
  rw [data_eq_map, data_eq_map, contents_setShape_of_le hs,
    show (b.setShape s).expectType t = b.expectType t from rfl,
    show (b.setShape s).expectHost = b.expectHost from rfl]
  cases b.expectType t >>= fun _ => b.expectHost <;> rfl

end NdBuffer.Buffer
