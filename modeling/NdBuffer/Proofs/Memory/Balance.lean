import Mathlib.Algebra.Order.Group.Multiset
import NdBuffer.Host

/-!
# The log as an account of memory

An allocation and a release are logged with the type, the device and the bytes that they are for (a
`Grant`). A log is `Balanced` for some grants if these are what has been allocated and not been
released, and if at every point of the log only such memory has been released that had been
allocated before and was still open. Logging an allocation opens a grant, logging a release closes
one, and any other event leaves the account as it is.
-/

namespace NdBuffer

/-- What an allocation or a release is logged with. -/
structure Grant where
  type : ElemType
  device : Device
  bytes : Nat
  deriving DecidableEq

namespace Event

/-- Whether an event is only a remark: no memory is taken, given back or lost. -/
def isRemark : Event → Bool
  | growing .. | transfer .. | crossing .. => true
  | allocated .. | releasing .. | leaking _ => false

/-- What an event says has been allocated. -/
def granted? : Event → Option Grant
  | allocated type device bytes => some ⟨type, device, bytes⟩
  | _ => none

/-- What an event says has been released. -/
def returned? : Event → Option Grant
  | releasing type device bytes => some ⟨type, device, bytes⟩
  | _ => none

variable {e : Event}

theorem ne_leaking_of_isRemark (he : e.isRemark = true) (l : Layout) : e ≠ .leaking l := by
  rintro rfl
  cases he

theorem granted?_of_isRemark (he : e.isRemark = true) : e.granted? = none := by
  cases e <;> first | rfl | cases he

theorem returned?_of_isRemark (he : e.isRemark = true) : e.returned? = none := by
  cases e <;> first | rfl | cases he

theorem granted?_of_returned? {g : Grant} (he : e.returned? = some g) : e.granted? = none := by
  cases e <;> first | rfl | cases he

end Event

/-- All that has been allocated according to a log. -/
def granted (log : List Event) : Multiset Grant := log.filterMap Event.granted?

/-- All that has been released according to a log. -/
def returned (log : List Event) : Multiset Grant := log.filterMap Event.returned?

variable {log log' : List Event} {e : Event} {g : Grant} {held : Multiset Grant}

theorem granted_append : granted (log ++ log') = granted log + granted log' := by
  simp [granted, List.filterMap_append]

theorem returned_append : returned (log ++ log') = returned log + returned log' := by
  simp [returned, List.filterMap_append]

theorem granted_singleton : granted [e] = e.granted?.toList := by
  cases h : e.granted? <;> simp [granted, h]

theorem returned_singleton : returned [e] = e.returned?.toList := by
  cases h : e.returned? <;> simp [returned, h]

/-- The grants in `held` are open at the end of a log, and whatever has been released was open just
before. -/
structure Balanced (log : List Event) (held : Multiset Grant) : Prop where
  account : granted log = returned log + held
  ordered : ∀ {earlier e later g}, log = earlier ++ e :: later → e.returned? = some g →
    g ∈ granted earlier - returned earlier

namespace Balanced

theorem nil : Balanced [] 0 where
  account := rfl
  ordered h := by simp at h

/-- One more event. An event that releases a grant must find it open. -/
theorem concat (H : Balanced log held) {held' : Multiset Grant}
    (haccount : held + e.granted?.toList = e.returned?.toList + held') :
    Balanced (log ++ [e]) held' where
  account := by
    rw [granted_append, returned_append, granted_singleton, returned_singleton, H.account,
      add_assoc, haccount, add_assoc]
  ordered {earlier e' later g} hlog he := by
    rcases List.eq_nil_or_concat later with rfl | ⟨later, last, rfl⟩
    · obtain ⟨rfl, hlast⟩ := List.append_inj' hlog rfl
      cases hlast
      have hheld : held = g ::ₘ held' := by
        simpa [he, Event.granted?_of_returned? he] using haccount
      rw [H.account, add_tsub_cancel_left, hheld]
      exact Multiset.mem_cons_self g held'
    · have hinit : log ++ [e] = (earlier ++ e' :: later) ++ [last] := by simpa using hlog
      exact H.ordered (List.append_inj' hinit rfl).1 he

theorem perm {held held' : List Grant} (H : Balanced log held) (hp : held.Perm held') :
    Balanced log held' :=
  Multiset.coe_eq_coe.mpr hp ▸ H

/-- An event that neither allocates nor releases. -/
theorem skip (H : Balanced log held) (hg : e.granted? = none) (hr : e.returned? = none) :
    Balanced (log ++ [e]) held :=
  H.concat (by simp [hg, hr])

theorem allocated (H : Balanced log held) (type : ElemType) (device : Device) (bytes : Nat) :
    Balanced (log ++ [.allocated type device bytes]) (⟨type, device, bytes⟩ ::ₘ held) := by
  refine H.concat ?_
  rw [← Multiset.singleton_add, Multiset.add_comm]
  exact (Multiset.zero_add _).symm

theorem releasing {type : ElemType} {device : Device} {bytes : Nat}
    (H : Balanced log (⟨type, device, bytes⟩ ::ₘ held)) :
    Balanced (log ++ [.releasing type device bytes]) held :=
  H.concat (by simp [Event.granted?, Event.returned?])

end Balanced

end NdBuffer
