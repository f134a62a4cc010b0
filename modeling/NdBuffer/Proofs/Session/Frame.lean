import NdBuffer.Proofs.Session.Reachable

/-!
# Blocks that a command leaves alone

An array of the host, and the memory of a buffer whose slot is not touched, can only be changed by a
write through some buffer that lies in the same block (`Bench.Moves.frame`). So every other command
leaves all of their bytes as they are (`Session.blocks_step`).
-/

namespace NdBuffer

namespace Bench

variable {arrays : List HostArray} {touched edited : Nat → Prop} {x y : Bench} {h : Host}
  {t : Table Slot} {hand : List Slot} {sl : Slot} {m : BlockId}

/-- Whether a block is an array, or is the memory of a buffer in a slot that is not touched. -/
def Guarded (touched : Nat → Prop) (x : Bench) (m : BlockId) : Prop :=
  x.host.heap.IsArray m ∨ ∃ k sl a, ¬ touched k ∧ x.slots.get? k = some sl ∧
    sl.buffer.address? = some a ∧ a.block = m

theorem Guarded.exists_block (G : Guarded touched x m) (H : Sound arrays x) :
    ∃ c, x.host.heap.blocks[m]? = some c := by
  rcases G with ⟨c, hc, -⟩ | ⟨k, sl, a, -, hk, ha, rfl⟩
  · exact ⟨c, hc⟩
  · obtain ⟨c, hc, -⟩ := H.exists_block (.inl ⟨k, hk⟩) ha
    exact ⟨c, hc⟩

/-- A guarded block does not belong to the buffer in hand. -/
theorem Guarded.block_ne (G : Guarded touched ⟨h, t, sl :: hand⟩ m)
    (H : Sound arrays ⟨h, t, sl :: hand⟩) {o : Holding} (ho : o ∈ sl.buffer.holdings) :
    o.block ≠ m := by
  rcases G with hm | ⟨k, sl', a, -, hk, ha, rfl⟩
  · exact H.block_ne_of_isArray hm (mem_holdings (has_cons.mpr (.inl rfl)) ho)
  · exact H.block_ne_of_hand (.inl ⟨k, hk⟩) ha ho

theorem Move.frame (M : Move arrays touched edited x y) (H : Sound arrays x)
    (G : Guarded touched x m)
    (hedit : ∀ {k sl a}, edited k → x.slots.get? k = some sl → sl.buffer.address? = some a →
      a.block ≠ m) : y.host.heap.blocks[m]? = x.host.heap.blocks[m]? := by
  cases M with
  | act M =>
    obtain ⟨c, hc⟩ := G.exists_block H
    exact (M.frame hc fun o ho => G.block_ne H ho).1.trans hc.symm
  | edit hk hget E =>
    cases E with
    | log _ => rfl
    | write k bytes ha =>
      have hne := hedit hk hget ha
      exact Heap.blocks_write_of_ne _ _ _ hne
  | _ => rfl

theorem Guarded.move (G : Guarded touched x m) (M : Move arrays touched edited x y)
    (hblock : y.host.heap.blocks[m]? = x.host.heap.blocks[m]?) : Guarded touched y m := by
  rcases G with ⟨c, hc, hl⟩ | ⟨k, sl, a, hk, hget, rest⟩
  · exact .inl ⟨c, hblock.trans hc, hl⟩
  · exact .inr ⟨k, sl, a, hk, (M.get?_slots hk).trans hget, rest⟩

/-- A guarded block is left as it is unless somebody writes to it. The slots that are written
through are not touched otherwise. -/
theorem Moves.frame (M : Moves arrays touched edited x y) (H : Sound arrays x)
    (hdisjoint : ∀ k, edited k → ¬ touched k) (G : Guarded touched x m)
    (hedit : ∀ {k sl a}, edited k → x.slots.get? k = some sl → sl.buffer.address? = some a →
      a.block ≠ m) : y.host.heap.blocks[m]? = x.host.heap.blocks[m]? := by
  have hboth : Guarded touched y m ∧ y.host.heap.blocks[m]? = x.host.heap.blocks[m]? := by
    induction M with
    | refl => exact ⟨G, rfl⟩
    | tail M M' ih =>
      have hblock := M'.frame (Moves.sound M H) ih.1 fun hk hget =>
        hedit hk ((Moves.get?_slots M (hdisjoint _ hk)).symm.trans hget)
      exact ⟨ih.1.move M' hblock, hblock.trans ih.2⟩
  exact hboth.2

end Bench

namespace Session

variable {s : Session} {m : BlockId}

/-- A guarded block stays as it is if no buffer is written through that lies in it. -/
theorem blocks_step (H : s.Sound) {c : Command} (G : Bench.Guarded c.Touches s.bench m)
    (hwrite : ∀ {k sl a}, c.Writes k → s.slots.get? k = some sl → sl.buffer.address? = some a →
      a.block ≠ m) : (s.step c).1.host.heap.blocks[m]? = s.host.heap.blocks[m]? :=
  (moves_step H c).frame H (fun _ hk ht => ht.2 hk) G hwrite

end Session

end NdBuffer
