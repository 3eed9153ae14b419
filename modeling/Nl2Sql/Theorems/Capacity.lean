import Nl2Sql.Lemmas.Capacity

/-!
# The law of a bounded capacity

What holds in every state that calls of `acquire`, their cancellations, their timeouts, their resumptions and their ends can bring a
capacity to, in any order.
-/

namespace Nl2Sql

open Py CapacityAux

namespace CapacityAux

/-- The slots are those of the calls in their bodies and those granted to calls that have not resumed. -/
theorem countP_occupies (calls : List CallPhase) :
    calls.countP CallPhase.occupies = calls.countP CallPhase.isHolding + calls.countP CallPhase.isGranted := by
  induction calls with
  | nil => rfl
  | cons p calls ih =>
    rw [List.countP_cons, List.countP_cons, List.countP_cons, ih]
    have hp : (if p.occupies then 1 else 0) = (if p.isHolding then 1 else 0) + (if p.isGranted then 1 else 0) := by
      cases p with
      | waiting w => exact (Nat.zero_add _).symm
      | _ => rfl
    omega

end CapacityAux

/-- The law of a capacity. In every state reached by any interleaving of acquisitions, ends of bodies, cancellations and timeouts:
the active slots never exceed the limit; they are those of the holders and of the waiters granted but not resumed; the queue never
exceeds its size; a live waiter is queued, and then no slot is free; slots are granted in the order of arrival, each time to the
first live waiter, or to an arrival when nobody waits; a slot granted is given back once its call is over, and only once; and
`_release` never raises. -/
theorem capacity_law (c : CapacityLimits) (s : CapacityState) (h : CapacityReachable c s) :
    s.active ≤ c.activeLimit ∧
    s.active = s.calls.countP CallPhase.isHolding + s.calls.countP CallPhase.isGranted ∧
    s.waiters.length ≤ c.waitQueueSize ∧
    (∀ t, s.Live t → t ∈ s.waiters ∧ s.active = c.activeLimit) ∧
    s.grants.Pairwise (· < ·) ∧
    (∀ t : Nat, t ∈ s.grants → ∃ p, s.calls[t]? = some p ∧ (p.occupies = true ∧ s.releases.count t = 0 ∨
      p.finished = true ∧ s.releases.count t = 1)) ∧
    (∀ (t : Nat) p, s.calls[t]? = some p → p.occupies = true → t ∈ s.grants) ∧
    (∀ t ∈ s.releases, t ∈ s.grants) ∧
    ∀ event r, capacityStep c s event = some r →
      FifoStep s (stateAfter r) ∧ ∀ s', r ≠ .error .releasedWithoutHolder s' := by
  have hinv := inv_of_reachable h
  refine ⟨hinv.active_le, hinv.active_eq.trans (countP_occupies s.calls), hinv.waiters_le, ?_, hinv.grants_sorted, ?_,
    hinv.occupied, hinv.releases_granted, ?_⟩
  · exact fun t ht => ⟨hinv.live_queued t ht, hinv.live_full t ht⟩
  · intro t ht
    obtain ⟨p, hp, ⟨ho, hr⟩ | ⟨hf, hr⟩⟩ := hinv.granted t ht
    · exact ⟨p, hp, .inl ⟨ho, List.count_eq_zero.mpr hr⟩⟩
    · exact ⟨p, hp, .inr ⟨hf, by rw [hinv.releases_nodup.count, if_pos hr]⟩⟩
  · intro event r hstep
    have hok := event_ok hinv hstep
    exact ⟨hok.fifo, hok.noUnderflow⟩

/-- One slot and a queue of two. -/
def oneSlot : CapacityLimits := ⟨1, 2, Nat.one_pos⟩

/-- A run of `oneSlot`: the second call is granted the slot of the first and cancelled before it resumes; the slot passes to the
third. -/
def cancelledAfterGrant : CapacityState :=
  ⟨1, [], [.released, .cancelled, .waiting ⟨.result, true, false, false⟩], [0, 1, 2], [0, 1]⟩

theorem cancelledAfterGrant_reachable : CapacityReachable oneSlot cancelledAfterGrant := by
  have h0 := CapacityReachable.initial (c := oneSlot)
  have h1 := h0.step .acquire rfl
  have h2 := h1.step .acquire rfl
  have h3 := h2.step .acquire rfl
  have h4 := h3.step (.exit 0) rfl
  have h5 := h4.step (.cancel 1) rfl
  exact h5.step (.resume 1) rfl

/-- In that run the slot was given back once by each of the two calls that are over. -/
theorem capacity_law_cancelledAfterGrant : cancelledAfterGrant.releases.count 1 = 1 ∧
    cancelledAfterGrant.active = cancelledAfterGrant.calls.countP CallPhase.isHolding +
      cancelledAfterGrant.calls.countP CallPhase.isGranted :=
  ⟨by decide, (capacity_law oneSlot cancelledAfterGrant cancelledAfterGrant_reachable).2.1⟩

end Nl2Sql
