import Mathlib.Tactic.Abel
import NdBuffer.Proofs.Memory.Balance
import NdBuffer.Proofs.Session.Reachable

/-!
# The account of a session

What has been allocated according to the log, and not been released, is what the buffers in the
slots own: type, device and bytes alike. A buffer changes its type and its device only while it owns
nothing, and takes both along when it is moved. So the event that is logged when it lets go of
memory names the grant that was logged when it got that memory, and every primitive step keeps the
account (`Bench.Move.balanced`). The buffers that a command does not target have no part in it, so
what the command logs is the account of its targets (`Session.account_step`).
-/

namespace NdBuffer

namespace Host

variable {a? : Option Address} {h h' : Host} {held : Multiset Grant}

theorem Edit.prefix_log (E : Edit a? h h') : h.log <+: h'.log := by
  cases E with
  | log _ => exact List.prefix_append ..
  | write _ _ _ => exact List.prefix_rfl

theorem Edit.balanced (E : Edit a? h h') (H : Balanced h.log held) : Balanced h'.log held := by
  cases E with
  | log he => exact H.skip (Event.granted?_of_isRemark he) (Event.returned?_of_isRemark he)
  | write _ _ _ => exact H

theorem balanced_free (H : Balanced h.log held) (id : BlockId) (l : Layout) :
    Balanced (h.free id l).log held := by
  rw [free]
  split
  · exact H
  · exact H.skip rfl rfl

end Host

namespace Buffer

variable {b : Buffer} {h : Host} {p q : Buffer × Host} {rest : List Grant}

/-- A release logs no allocation. -/
theorem exists_log_release (b : Buffer) (h : Host) :
    ∃ es, (b.release h).2.log = h.log ++ es ∧ granted es = 0 := by
  cases ha : b.ownAddress? with
  | none => exact ⟨[], by rw [release_snd_of_not_owned ha, List.append_nil], rfl⟩
  | some a =>
    obtain ⟨ho, ha⟩ := ownAddress?_eq_some.mp ha
    cases hd : b.device with
    | cuda index =>
      exact ⟨[.releasing b.type b.device b.blockBytes],
        by simp [release, returnBlock, ho, ha, hd], rfl⟩
    | cpu =>
      rw [release_snd_of_owned ho ha hd, Host.free]
      split
      · exact ⟨[.releasing b.type .cpu b.blockBytes], rfl, rfl⟩
      · exact ⟨[.releasing b.type .cpu b.blockBytes, .leaking ⟨b.blockBytes, standardAlignment⟩],
          by simp, rfl⟩

theorem Move.prefix_log (M : Move p q) : p.2.log <+: q.2.log := by
  cases M with
  | edit E => exact E.prefix_log
  | @letGo b h =>
    obtain ⟨es, hlog, -⟩ := b.exists_log_release h
    exact ⟨es, hlog.symm⟩
  | acquire _ _ _ => exact List.prefix_append ..
  | _ => exact List.prefix_rfl

/-- What the memory of the buffer was logged with. -/
def grant (b : Buffer) : Grant := ⟨b.type, b.device, b.reserved⟩

/-- The grants that the buffer keeps open. -/
def grants (b : Buffer) : List Grant := if b.ownsMemory then [b.grant] else []

theorem ownsMemory_eq (b : Buffer) : b.ownsMemory = b.ownAddress?.isSome := by
  cases hb : b.isOwner <;> simp [ownsMemory, ownAddress?, hb]

theorem grants_of_not_owned (hb : b.ownAddress? = none) : b.grants = [] := by
  simp [grants, ownsMemory_eq, hb]

theorem grants_of_owned {a : Address} (hb : b.ownAddress? = some a) :
    b.grants = [⟨b.type, b.device, b.blockBytes⟩] := by
  have ho := (ownAddress?_eq_some.mp hb).1
  simp [grants, ownsMemory_eq, hb, grant, reserved, ho]

theorem Reshaped.grants {c : Buffer} (R : b.Reshaped c) : c.grants = b.grants := by
  cases R <;> rfl

theorem balanced_release (hv : b.Valid) (H : Balanced h.log ↑(b.grants ++ rest)) :
    Balanced (b.release h).2.log ↑rest := by
  cases ha : b.ownAddress? with
  | none =>
    rw [release_snd_of_not_owned ha]
    rwa [grants_of_not_owned ha] at H
  | some a =>
    obtain ⟨ho, ha'⟩ := ownAddress?_eq_some.mp ha
    have hd := (hv.owned ho ha').1
    rw [release_snd_of_owned ho ha' hd]
    rw [grants_of_owned ha, hd] at H
    exact Host.balanced_free H.releasing ..

theorem Move.balanced (M : Move p q) (hv : p.1.Valid)
    (H : Balanced p.2.log ↑(p.1.grants ++ rest)) : Balanced q.2.log ↑(q.1.grants ++ rest) := by
  cases M with
  | edit E => exact E.balanced H
  | letGo => exact balanced_release hv H
  | clear => exact H
  | shape _ _ => exact H
  | retag => exact H
  | acquire _ _ _ => exact H.allocated ..

end Buffer

namespace Bench

variable {arrays : List HostArray} {touched edited : Nat → Prop} {x y : Bench}

/-- The grants that the buffers on the bench keep open. -/
def grants (x : Bench) : List Grant := x.gather Buffer.grants

theorem Move.balanced (M : Move arrays touched edited x y) (Hs : Sound arrays x)
    (H : Balanced x.host.log x.grants) : Balanced y.host.log y.grants := by
  have hdiscard {h t hand} {sl : Slot} (ho : sl.buffer.ownAddress? = none)
      (H : Balanced h.log (Bench.mk h t (sl :: hand)).grants) :
      Balanced h.log (Bench.mk h t hand).grants := by
    have H := H.perm (perm_gather_cons Buffer.grants)
    rwa [Buffer.grants_of_not_owned ho] at H
  have htake {h t hand} {sl : Slot} (ho : sl.buffer.ownAddress? = none)
      (H : Balanced h.log (Bench.mk h t hand).grants) :
      Balanced h.log (Bench.mk h t (sl :: hand)).grants := by
    refine Balanced.perm ?_ (perm_gather_cons Buffer.grants).symm
    rwa [Buffer.grants_of_not_owned ho]
  cases M with
  | log he => exact H.skip (Event.granted?_of_isRemark he) (Event.returned?_of_isRemark he)
  | create type device => exact htake rfl H
  | discard ho => exact hdiscard ho H
  | turn => exact H.perm (perm_gather_turn Buffer.grants)
  | @act h h' t hand b b' lender M =>
    have hv : b.Valid := Hs.valid (has_cons.mpr (.inl rfl))
    have hafter : (Bench.mk h' t (⟨b', lender⟩ :: hand)).grants.Perm
        (b'.grants ++ (Bench.mk h' t hand).grants) := perm_gather_cons Buffer.grants
    exact (M.balanced hv (H.perm (perm_gather_cons Buffer.grants))).perm hafter.symm
  | lend ho hk => exact htake rfl (hdiscard ho H)
  | borrowAt ho _ _ => exact htake rfl (hdiscard ho H)
  | pickUp _ hk _ => exact H.perm (perm_gather_pickUp Buffer.grants hk)
  | putDown _ hk =>
    exact H.perm (perm_gather_put Buffer.grants hk (by rw [Slot.buffer_settled]))
  | reshape _ hk R => exact H.perm (perm_gather_reshape Buffer.grants hk R.grants)
  | edit _ _ E => exact E.balanced H

theorem Moves.balanced (M : Moves arrays touched edited x y) (Hs : Sound arrays x)
    (H : Balanced x.host.log x.grants) : Balanced y.host.log y.grants := by
  induction M with
  | refl => exact H
  | tail M M' ih => exact M'.balanced (Moves.sound M Hs) ih

/-- Nothing is ever taken out of the log. -/
theorem Moves.prefix_log (M : Moves arrays touched edited x y) : x.host.log <+: y.host.log := by
  induction M with
  | refl => exact List.prefix_rfl
  | tail _ M ih =>
    refine ih.trans ?_
    cases M with
    | log _ => exact List.prefix_append ..
    | act M => exact M.prefix_log
    | edit _ _ E => exact E.prefix_log
    | _ => exact List.prefix_rfl

end Bench

/-- Whether a command makes a buffer borrow. -/
def Command.isBorrowing : Command → Bool
  | build _ (.view _) | build _ (.ofArray ..) | build _ (.ofRaw ..)
  | change _ (.borrow _) | change _ (.borrowArray ..) | change _ (.borrowAt ..) => true
  | _ => false

namespace Session

variable {s s' : Session} {c : Command} {h : Host} {rest : List Grant}

/-- The grants that the buffers of some slots keep open. -/
def grantsOf (s : Session) (ks : List Nat) : Multiset Grant :=
  (s.slots.entries.filter fun e => e.1 ∈ ks).flatMap (·.2.buffer.grants)

/-- The grants that the buffers of all slots keep open. -/
def grants (s : Session) : Multiset Grant := s.slots.entries.flatMap (·.2.buffer.grants)

theorem grants_bench (s : Session) : (s.bench.grants : Multiset Grant) = s.grants := by
  simp [Bench.grants, Bench.gather, bench, grants]

theorem balanced_step (H : s.Sound) (Hb : Balanced s.host.log s.grants) (c : Command) :
    Balanced (s.step c).1.host.log (s.step c).1.grants := by
  rw [← grants_bench] at Hb ⊢
  exact (moves_step H c).balanced H Hb

theorem balanced_foldl (H : s.Sound) (Hb : Balanced s.host.log s.grants) (cs : List Command) :
    Balanced (s.run cs).host.log (s.run cs).grants := by
  induction cs generalizing s with
  | nil => exact Hb
  | cons c cs ih => exact ih (sound_step H c) (balanced_step H Hb c)

theorem balanced_start (system : Allocator) (arrays : List ((t : ElemType) × List (Elem t))) :
    Balanced (start system arrays).host.log (start system arrays).grants := by
  have hfold (s : Session) (Hb : Balanced s.host.log s.grants) :
      let s := arrays.foldl (fun s a => s.addArray a.2) s
      Balanced s.host.log s.grants := by
    induction arrays generalizing s with
    | nil => exact Hb
    | cons a arrays ih => exact ih (s.addArray a.2) Hb
  exact hfold _ .nil

/-- Dropping all buffers closes all grants. -/
theorem balanced_foldl_release {es : List (Nat × Slot)} (hv : ∀ e ∈ es, e.2.buffer.Valid)
    (Hb : Balanced h.log ↑(es.flatMap (·.2.buffer.grants))) :
    Balanced (es.foldl (fun h e => (e.2.buffer.release h).2) h).log 0 := by
  induction es generalizing h with
  | nil => exact Hb
  | cons e es ih =>
    refine ih (fun e he => hv e (List.mem_cons_of_mem _ he)) ?_
    rw [List.flatMap_cons] at Hb
    exact Buffer.balanced_release (hv e List.mem_cons_self) Hb

theorem balanced_finish (H : s.Sound) (Hb : Balanced s.host.log s.grants) :
    Balanced s.finish.host.log 0 := by
  refine balanced_foldl_release (fun e he => ?_) Hb
  exact H.valid (.inl ⟨e.1, Table.mem_entries.mp he⟩)

/-! ### The account of one command -/

/-- Sessions that agree outside some slots have the same grants there. -/
theorem exists_grants_eq {ks : List Nat}
    (hslots : ∀ k, k ∉ ks → s'.slots.get? k = s.slots.get? k) :
    ∃ others, s.grants = s.grantsOf ks + others ∧ s'.grants = s'.grantsOf ks + others := by
  let outside (s : Session) : List (Nat × Slot) :=
    s.slots.entries.filter fun e => !decide (e.1 ∈ ks)
  have hsplit (s : Session) : s.grants =
      s.grantsOf ks + ((outside s).flatMap (·.2.buffer.grants) : List Grant) := by
    rw [grants, grantsOf, Multiset.coe_add, ← List.flatMap_append]
    exact Multiset.coe_eq_coe.mpr ((List.filter_append_perm _ _).symm.flatMap_right _)
  have hsame : (outside s').Perm (outside s) :=
    Table.perm_filter (p := fun k => !decide (k ∈ ks)) fun k hk => hslots k (by simpa using hk)
  refine ⟨_, hsplit s, ?_⟩
  rw [hsplit s', Multiset.coe_eq_coe.mpr (hsame.flatMap_right _)]

/-- What a command logs is the account of its targets. -/
theorem account_step (H : s.Sound) (Hb : Balanced s.host.log s.grants) {es : List Event}
    (hlog : (s.step c).1.host.log = s.host.log ++ es) :
    s.grantsOf c.targets + granted es = returned es + (s.step c).1.grantsOf c.targets := by
  obtain ⟨others, hbefore, hafter⟩ := exists_grants_eq (fun k hk => get?_slots_step H (c := c) hk)
  have haccount := (balanced_step H Hb c).account
  rw [hlog, granted_append, returned_append, Hb.account, hbefore, hafter] at haccount
  have hcancel : returned s.host.log + others + (s.grantsOf c.targets + granted es) =
      returned s.host.log + others + (returned es + (s.step c).1.grantsOf c.targets) := by
    calc _ = returned s.host.log + (s.grantsOf c.targets + others) + granted es := by abel
      _ = _ := haccount
      _ = _ := by abel
  exact add_left_cancel hcancel

/-- Putting a buffer into a slot lets go of the buffer that was there. -/
theorem host_install (k : Nat) (lender : Option Nat) (b : Buffer) :
    let s' := (s.install k lender (.ok b, s.host)).1
    s'.host = s.host ∨ ∃ old : Buffer, s'.host = (old.release s.host).2 := by
  change s.releaseSlot k s.host = s.host ∨ ∃ old : Buffer, s.releaseSlot k s.host = _
  rw [releaseSlot_eq]
  cases s.slots.get? k with
  | none => exact .inl rfl
  | some old => exact .inr ⟨old.buffer, rfl⟩

theorem host_build_of_isBorrowing {k : Nat} {how : Build}
    (hc : (Command.build k how).isBorrowing = true) :
    (s.build k how).1.host = s.host ∨
      ∃ old : Buffer, (s.build k how).1.host = (old.release s.host).2 := by
  cases how with
  | view source =>
    simp only [build]
    split
    · exact host_install ..
    · exact .inl rfl
  | ofArray shape part =>
    simp only [build, Buffer.ofArray]
    split
    · rename_i r _
      rcases (Buffer.empty r.type .cpu).borrowArray_cases r.type r.address r.length shape
        s.host with ⟨e, -, ho⟩ | ⟨-, -, -, ho⟩
      · rw [ho]
        exact .inl rfl
      · rw [ho]
        exact host_install ..
    · exact .inl rfl
  | ofRaw shape memory device =>
    simp only [build, Buffer.ofRaw]
    split
    · rename_i t r _
      rcases (Buffer.empty t device).borrowAt_cases t (r.map Region.address) shape s.host with
        ⟨e, -, ho⟩ | ⟨-, -, ho⟩
      · rw [ho]
        exact .inl rfl
      · rw [ho]
        simp only [Outcome.done, Outcome.built]
        split
        · exact .inl rfl
        · exact host_install ..
    · exact .inl rfl
  | _ => cases hc

theorem host_changeBuffer_of_isBorrowing {k : Nat} {b : Buffer} {lender : Option Nat}
    {what : Change} (hc : (Command.change k what).isBorrowing = true) :
    (s.changeBuffer k b lender what).1.host = s.host ∨
      (s.changeBuffer k b lender what).1.host = (b.release s.host).2 := by
  cases what with
  | borrow other =>
    simp only [changeBuffer]
    split
    · exact .inr rfl
    · exact .inl rfl
  | borrowArray part shape =>
    simp only [changeBuffer]
    split
    · rename_i r _
      rcases b.borrowArray_cases r.type r.address r.length shape s.host with
        ⟨e, -, ho⟩ | ⟨-, -, -, ho⟩
      · rw [ho]
        exact .inl rfl
      · rw [ho]
        exact .inr rfl
    · exact .inl rfl
  | borrowAt memory shape =>
    simp only [changeBuffer]
    split
    · rename_i t r _
      rcases b.borrowAt_cases t (r.map Region.address) shape s.host with ⟨e, -, ho⟩ | ⟨-, -, ho⟩
      · rw [ho]
        exact .inl rfl
      · rw [ho]
        split
        · exact .inr rfl
        · split
          · exact .inl rfl
          · exact .inr rfl
    · exact .inl rfl
  | _ => cases hc

/-- A command that makes a buffer borrow changes the host at most by letting go of a buffer. -/
theorem host_step_of_isBorrowing (hc : c.isBorrowing = true) :
    (s.step c).1.host = s.host ∨
      ∃ old : Buffer, (s.step c).1.host = (old.release s.host).2 := by
  unfold step
  split
  · exact .inl rfl
  · cases c with
    | build k how => exact host_build_of_isBorrowing hc
    | change k what =>
      simp only [change]
      split
      · exact (host_changeBuffer_of_isBorrowing hc).imp_right fun h => ⟨_, h⟩
      · exact .inl rfl
    | query k what => cases hc

/-- Making a buffer borrow logs no allocation. -/
theorem granted_of_isBorrowing (hc : c.isBorrowing = true) {es : List Event}
    (hlog : (s.step c).1.host.log = s.host.log ++ es) : granted es = 0 := by
  rcases host_step_of_isBorrowing hc with hsame | ⟨old, hrelease⟩
  · rw [hsame, List.self_eq_append_right] at hlog
    rw [hlog]
    rfl
  · obtain ⟨es', hes', hnone⟩ := old.exists_log_release s.host
    rw [hrelease, hes', List.append_cancel_left_eq] at hlog
    rwa [← hlog]

/-- The log of a session is the account of its buffers. At every point the allocations that have
been logged are the releases and the grants of the buffers that own memory, whatever has been
released was open at that moment, and once all buffers are dropped nothing is open. What one command
logs is the account of its targets alone; making a buffer borrow logs no allocation, and letting go
of borrowed memory logs nothing. -/
theorem balance_run (system : Allocator) (arrays : List ((t : ElemType) × List (Elem t)))
    (cs : List Command) :
    let s := (Session.start system arrays).run cs
    Balanced s.host.log s.grants ∧ Balanced s.finish.host.log 0 ∧
      (∀ c, ∃ es, (s.step c).1.host.log = s.host.log ++ es ∧
        s.grantsOf c.targets + granted es = returned es + (s.step c).1.grantsOf c.targets ∧
        (c.isBorrowing = true → granted es = 0)) ∧
      ∀ b h, b.isOwner = false → (Buffer.release b h).2 = h := by
  intro s
  have H : s.Sound := sound_run system arrays cs
  have Hb : Balanced s.host.log s.grants :=
    balanced_foldl (sound_start system arrays) (balanced_start system arrays) cs
  refine ⟨Hb, balanced_finish H Hb, ?_, ?_⟩
  · intro c
    obtain ⟨es, hlog⟩ : s.host.log <+: (s.step c).1.host.log := (moves_step H c).prefix_log
    exact ⟨es, hlog.symm, account_step H Hb hlog.symm,
      fun hc => granted_of_isBorrowing hc hlog.symm⟩
  · intro b h ho
    apply Buffer.release_snd_of_not_owned
    simp [Buffer.ownAddress?, ho]

/-- Three blocks are allocated, of which one is exchanged for another and one is dropped. What is
open is what the buffer has been moved with. -/
theorem balance_run_moved :
    let cs : List Command := [.build 0 (.ofValues ⟨[2]⟩ (t := .u8) [1, 2] .cpu),
      .build 1 (.ofShape ⟨[17]⟩ .f32 .cpu), .change 1 (.duplicate 0), .build 2 (.take 0),
      .change 1 .drop]
    let s := (Session.start (.below 4096) []).run cs
    granted s.host.log = {⟨.u8, .cpu, 64⟩, ⟨.f32, .cpu, 128⟩, ⟨.u8, .cpu, 64⟩} ∧
      returned s.host.log = {⟨.f32, .cpu, 128⟩, ⟨.u8, .cpu, 64⟩} ∧
      s.grants = {⟨.u8, .cpu, 64⟩} ∧ Balanced s.host.log s.grants ∧
      Balanced s.finish.host.log 0 := by
  intro cs s
  obtain ⟨hlog, hfinish, -⟩ := balance_run (.below 4096) [] cs
  exact ⟨by decide +kernel, by decide +kernel, by decide +kernel, hlog, hfinish⟩
end Session

end NdBuffer
