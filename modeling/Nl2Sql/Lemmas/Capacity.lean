import Mathlib.Data.List.Basic
import Nl2Sql.Capacity

/-!
# The invariant of a bounded capacity

`CapacityInv` is what holds of a capacity between two events. Every event is one or two of a few changes: entries that are not live
leave the queue, one call changes its phase, a call arrives, a slot is given back and, where a waiter is live, goes to the first one.
Each change keeps the invariant, and so does every event.
-/

namespace Nl2Sql

open Py

/-- A call that has a slot: one in its body, or one granted and not yet resumed. -/
def CallPhase.occupies : CallPhase → Bool
  | .holding => true
  | .waiting w => w.granted
  | _ => false

/-- A call in its body. -/
def CallPhase.isHolding : CallPhase → Bool
  | .holding => true
  | _ => false

/-- A call granted a slot that has not resumed. -/
def CallPhase.isGranted : CallPhase → Bool
  | .waiting w => w.granted
  | _ => false

/-- A call that is over. -/
def CallPhase.finished : CallPhase → Bool
  | .holding => false
  | .waiting _ => false
  | _ => true

namespace CapacityState

/-- A live waiter: a suspended call whose future is not done. -/
def Live (s : CapacityState) (t : Nat) : Prop := ∃ w, s.calls[t]? = some (.waiting w) ∧ w.future = .pending

end CapacityState

/-- A waiter of a suspended call, as far as its own fields go: granted is having a result, and only a cancellation or an expiry
cancels its future or leaves it not pending and not granted. -/
structure WaiterOk (w : CapacityWaiter) : Prop where
  granted_iff : w.granted = true ↔ w.future = .result
  interrupted : w.future = .cancelled → w.cancelRequested = true ∨ w.expired = true

/-- What holds of a capacity at every moment, also after a slot is given back and before it goes to a waiter. -/
structure SlotInv (c : CapacityLimits) (s : CapacityState) : Prop where
  active_eq : s.active = s.calls.countP CallPhase.occupies
  active_le : s.active ≤ c.activeLimit
  waiters_sorted : s.waiters.Pairwise (· < ·)
  waiters_le : s.waiters.length ≤ c.waitQueueSize
  queued : ∀ t : Nat, t ∈ s.waiters → ∃ w, s.calls[t]? = some (.waiting w) ∧ w.granted = false
  waiter_ok : ∀ (t : Nat) w, s.calls[t]? = some (.waiting w) → WaiterOk w
  live_queued : ∀ t, s.Live t → t ∈ s.waiters
  grants_sorted : s.grants.Pairwise (· < ·)
  grants_before : ∀ t ∈ s.grants, ∀ u, s.Live u → t < u
  granted : ∀ t : Nat, t ∈ s.grants → ∃ p, s.calls[t]? = some p ∧
    (p.occupies = true ∧ t ∉ s.releases ∨ p.finished = true ∧ t ∈ s.releases)
  occupied : ∀ (t : Nat) p, s.calls[t]? = some p → p.occupies = true → t ∈ s.grants
  releases_nodup : s.releases.Nodup
  releases_granted : ∀ t ∈ s.releases, t ∈ s.grants

/-- What holds of a capacity between two events: no slot is free while a waiter is live. -/
structure CapacityInv (c : CapacityLimits) (s : CapacityState) : Prop extends SlotInv c s where
  live_full : ∀ t, s.Live t → s.active = c.activeLimit

/-- A slot goes only to a call that arrives while nobody is live, or to the live waiter that arrived first. -/
def FifoStep (s s' : CapacityState) : Prop :=
  ∀ t ∈ s'.grants, t ∉ s.grants → (t = s.calls.length ∧ ∀ u, ¬ s.Live u) ∨ (s.Live t ∧ ∀ u, s.Live u → t ≤ u)

namespace CapacityAux

variable {c : CapacityLimits} {s : CapacityState}

theorem waiter?_eq_some_iff {t : Nat} {w : CapacityWaiter} : s.waiter? t = some w ↔ s.calls[t]? = some (.waiting w) := by
  unfold CapacityState.waiter?
  split
  · rename_i w' h
    rw [h]
    simp
  · rename_i h
    simp only [reduceCtorEq, false_iff]
    exact h w

theorem slot_initial (c : CapacityLimits) : SlotInv c .initial := by
  refine ⟨rfl, Nat.zero_le _, List.Pairwise.nil, Nat.zero_le _, ?_, ?_, ?_, List.Pairwise.nil, ?_, ?_, ?_, List.nodup_nil, ?_⟩
  all_goals simp [CapacityState.initial, CapacityState.Live]

/-- A call has a number below the number of calls. -/
theorem lt_of_phase {t : Nat} {p : CallPhase} (h : s.calls[t]? = some p) : t < s.calls.length := by
  by_contra hlt
  rw [List.getElem?_eq_none (by omega)] at h
  nomatch h

theorem lt_of_granted (h : SlotInv c s) {t : Nat} (ht : t ∈ s.grants) : t < s.calls.length := by
  obtain ⟨p, hp, -⟩ := h.granted t ht
  exact lt_of_phase hp

/-- Entries that are not live may leave the queue. -/
theorem slot_shrink (h : SlotInv c s) {ws : List Nat} (hsub : ws.Sublist s.waiters) (hlive : ∀ t, s.Live t → t ∈ ws) :
    SlotInv c { s with waiters := ws } where
  active_eq := h.active_eq
  active_le := h.active_le
  waiters_sorted := h.waiters_sorted.sublist hsub
  waiters_le := Nat.le_trans hsub.length_le h.waiters_le
  queued := fun t ht => h.queued t (hsub.subset ht)
  waiter_ok := h.waiter_ok
  live_queued := hlive
  grants_sorted := h.grants_sorted
  grants_before := h.grants_before
  granted := h.granted
  occupied := h.occupied
  releases_nodup := h.releases_nodup
  releases_granted := h.releases_granted

/-- A call granted a slot that is not over has not given it back. -/
theorem occupies_of_granted (h : SlotInv c s) {t : Nat} {p : CallPhase} (hp : s.calls[t]? = some p)
    (hf : p.finished = false) (ht : t ∈ s.grants) : p.occupies = true ∧ t ∉ s.releases := by
  obtain ⟨p', hp', hor⟩ := h.granted t ht
  rw [hp] at hp'
  cases hp'
  rcases hor with hor | ⟨hf', -⟩
  · exact hor
  · rw [hf] at hf'
    nomatch hf'

/-- The number of occupied slots after one call changes its phase. -/
theorem countP_set_occupies {t : Nat} {p q : CallPhase} (hp : s.calls[t]? = some p) :
    (s.calls.set t q).countP CallPhase.occupies + (if p.occupies then 1 else 0) =
      s.calls.countP CallPhase.occupies + (if q.occupies then 1 else 0) := by
  have hlt := lt_of_phase hp
  have hget : s.calls[t] = p := by
    rw [List.getElem?_eq_getElem hlt] at hp
    exact Option.some.inj hp
  rw [List.countP_set hlt, hget]
  by_cases hpo : p.occupies = true
  · have hpos : 0 < s.calls.countP CallPhase.occupies :=
      List.countP_pos_iff.mpr ⟨p, hget ▸ List.getElem_mem hlt, hpo⟩
    simp only [hpo, if_true]
    omega
  · simp [hpo]

/-- What the calls are after one changes its phase. -/
theorem getElem?_set_phase {t u : Nat} {p q r : CallPhase} (hp : s.calls[t]? = some p) (h : (s.calls.set t q)[u]? = some r) :
    u = t ∧ r = q ∨ u ≠ t ∧ s.calls[u]? = some r := by
  by_cases hut : t = u
  · subst hut
    rw [List.getElem?_set_self (lt_of_phase hp)] at h
    exact .inl ⟨rfl, (Option.some.inj h).symm⟩
  · rw [List.getElem?_set_ne hut] at h
    exact .inr ⟨fun e => hut e.symm, h⟩

/-- A call that is not over and changes nothing but its phase, neither taking a slot nor giving one back. -/
theorem slot_setPhase (h : SlotInv c s) {t : Nat} {p q : CallPhase} (hp : s.calls[t]? = some p) (hf : p.finished = false)
    (ho : q.occupies = p.occupies) (hq : t ∈ s.waiters → ∃ w, q = .waiting w ∧ w.granted = false)
    (hw : ∀ w, q = .waiting w → WaiterOk w) (hl : ∀ w, q = .waiting w → w.future = .pending → s.Live t) :
    SlotInv c (s.setPhase t q) := by
  have hlt := lt_of_phase hp
  have hset : ∀ {u}, u ≠ t → (s.calls.set t q)[u]? = s.calls[u]? := fun hu => List.getElem?_set_ne fun e => hu e.symm
  have hself : (s.calls.set t q)[t]? = some q := List.getElem?_set_self hlt
  -- nothing becomes live
  have hlive : ∀ u, (s.setPhase t q).Live u → s.Live u := by
    rintro u ⟨w, hu, hpend⟩
    rcases getElem?_set_phase hp hu with ⟨rfl, hr⟩ | ⟨-, hr⟩
    · exact hl w hr.symm hpend
    · exact ⟨w, hr, hpend⟩
  constructor
  case active_eq =>
    have hc := countP_set_occupies (q := q) hp
    rw [ho] at hc
    change s.active = (s.calls.set t q).countP _
    rw [h.active_eq]
    omega
  case active_le => exact h.active_le
  case waiters_sorted => exact h.waiters_sorted
  case waiters_le => exact h.waiters_le
  case queued =>
    intro u hu
    by_cases hut : u = t
    · subst hut
      obtain ⟨w, rfl, hg⟩ := hq hu
      exact ⟨w, hself, hg⟩
    · obtain ⟨w, hw', hg⟩ := h.queued u hu
      exact ⟨w, (hset hut).trans hw', hg⟩
  case waiter_ok =>
    intro u w hu
    rcases getElem?_set_phase hp hu with ⟨-, hr⟩ | ⟨-, hr⟩
    · exact hw w hr.symm
    · exact h.waiter_ok u w hr
  case live_queued => exact fun u hu => h.live_queued u (hlive u hu)
  case grants_sorted => exact h.grants_sorted
  case grants_before => exact fun u hu v hv => h.grants_before u hu v (hlive v hv)
  case granted =>
    intro u hu
    by_cases hut : u = t
    · subst hut
      obtain ⟨hpo, hr⟩ := occupies_of_granted h hp hf hu
      exact ⟨q, hself, .inl ⟨ho.trans hpo, hr⟩⟩
    · obtain ⟨r, hr, hor⟩ := h.granted u hu
      exact ⟨r, (hset hut).trans hr, hor⟩
  case occupied =>
    intro u r hu hro
    rcases getElem?_set_phase hp hu with ⟨rfl, rfl⟩ | ⟨-, hr⟩
    · exact h.occupied u p hp (ho ▸ hro)
    · exact h.occupied u r hr hro
  case releases_nodup => exact h.releases_nodup
  case releases_granted => exact h.releases_granted

/-! ## A call arrives -/

/-- What the calls are after one arrives. -/
theorem getElem?_append_phase {u : Nat} {q r : CallPhase} (h : (s.calls ++ [q])[u]? = some r) :
    s.calls[u]? = some r ∨ u = s.calls.length ∧ r = q := by
  by_cases hu : u < s.calls.length
  · rw [List.getElem?_append_left hu] at h
    exact .inl h
  · rw [List.getElem?_append_right (by omega)] at h
    have hz : u - s.calls.length = 0 := by
      by_contra hne
      rw [List.getElem?_eq_none (by simp; omega)] at h
      nomatch h
    rw [hz] at h
    exact .inr ⟨by omega, (Option.some.inj h).symm⟩

theorem phase_append {u : Nat} {r : CallPhase} (q : CallPhase) (h : s.calls[u]? = some r) : (s.calls ++ [q])[u]? = some r := by
  rw [List.getElem?_append_left (lt_of_phase h)]
  exact h

/-- A call that arrives and whose waiter is not live makes nothing live. -/
theorem live_append {q : CallPhase} {s' : CapacityState} (hc : s'.calls = s.calls ++ [q])
    (hq : ∀ w, q = .waiting w → w.future ≠ .pending) {u : Nat} (hu : s'.Live u) : s.Live u := by
  obtain ⟨w, hw, hpend⟩ := hu
  rw [hc] at hw
  rcases getElem?_append_phase hw with hw | ⟨-, hw⟩
  · exact ⟨w, hw, hpend⟩
  · exact absurd hpend (hq w hw.symm)

/-- A call that is refused. -/
theorem slot_refuse (h : SlotInv c s) : SlotInv c { s with calls := s.calls ++ [CallPhase.queueFull] } := by
  have hlive : ∀ u, CapacityState.Live { s with calls := s.calls ++ [CallPhase.queueFull] } u → s.Live u :=
    fun u hu => live_append rfl (by simp) hu
  constructor
  case active_eq =>
    rw [List.countP_append]
    exact h.active_eq
  case active_le => exact h.active_le
  case waiters_sorted => exact h.waiters_sorted
  case waiters_le => exact h.waiters_le
  case queued =>
    intro t ht
    obtain ⟨w, hw, hg⟩ := h.queued t ht
    exact ⟨w, phase_append _ hw, hg⟩
  case waiter_ok =>
    intro t w ht
    rcases getElem?_append_phase ht with ht | ⟨-, ht⟩
    · exact h.waiter_ok t w ht
    · nomatch ht
  case live_queued => exact fun t ht => h.live_queued t (hlive t ht)
  case grants_sorted => exact h.grants_sorted
  case grants_before => exact fun t ht u hu => h.grants_before t ht u (hlive u hu)
  case granted =>
    intro t ht
    obtain ⟨p, hp, hor⟩ := h.granted t ht
    exact ⟨p, phase_append _ hp, hor⟩
  case occupied =>
    intro t p ht hpo
    rcases getElem?_append_phase ht with ht | ⟨-, rfl⟩
    · exact h.occupied t p ht hpo
    · nomatch hpo
  case releases_nodup => exact h.releases_nodup
  case releases_granted => exact h.releases_granted

/-- A call that takes a free slot: no waiter is live. -/
theorem slot_reserve (h : SlotInv c s) (hlt : s.active < c.activeLimit) (hnone : ∀ u, ¬ s.Live u) :
    SlotInv c { s with active := s.active + 1, grants := s.grants ++ [s.calls.length], calls := s.calls ++ [CallPhase.holding] } := by
  have hself : (s.calls ++ [CallPhase.holding])[s.calls.length]? = some CallPhase.holding := by simp
  have hlive : ∀ u, ¬ CapacityState.Live
      { s with active := s.active + 1, grants := s.grants ++ [s.calls.length], calls := s.calls ++ [CallPhase.holding] } u :=
    fun u hu => hnone u (live_append rfl (by simp) hu)
  constructor
  case active_eq =>
    rw [List.countP_append, ← h.active_eq]
    rfl
  case active_le => exact hlt
  case waiters_sorted => exact h.waiters_sorted
  case waiters_le => exact h.waiters_le
  case queued =>
    intro t ht
    obtain ⟨w, hw, hg⟩ := h.queued t ht
    exact ⟨w, phase_append _ hw, hg⟩
  case waiter_ok =>
    intro t w ht
    rcases getElem?_append_phase ht with ht | ⟨-, ht⟩
    · exact h.waiter_ok t w ht
    · nomatch ht
  case live_queued => exact fun t ht => absurd ht (hlive t)
  case grants_sorted =>
    refine List.pairwise_append.mpr ⟨h.grants_sorted, List.pairwise_singleton _ _, ?_⟩
    intro t ht u hu
    rw [List.mem_singleton] at hu
    rw [hu]
    exact lt_of_granted h ht
  case grants_before => exact fun t ht u hu => absurd hu (hlive u)
  case granted =>
    intro t ht
    rcases List.mem_append.mp ht with ht | ht
    · obtain ⟨p, hp, hor⟩ := h.granted t ht
      exact ⟨p, phase_append _ hp, hor⟩
    · rw [List.mem_singleton.mp ht]
      refine ⟨.holding, hself, .inl ⟨rfl, fun hr => ?_⟩⟩
      exact absurd (lt_of_granted h (h.releases_granted _ hr)) (Nat.lt_irrefl _)
  case occupied =>
    intro t p ht hpo
    rcases getElem?_append_phase ht with ht | ⟨rfl, -⟩
    · exact List.mem_append_left _ (h.occupied t p ht hpo)
    · exact List.mem_append_right _ (List.mem_singleton.mpr rfl)
  case releases_nodup => exact h.releases_nodup
  case releases_granted => exact fun t ht => List.mem_append_left _ (h.releases_granted t ht)

/-- A call that is enqueued: the queue has room. -/
theorem slot_enqueue (h : SlotInv c s) (hroom : s.waiters.length < c.waitQueueSize) :
    SlotInv c { s with waiters := s.waiters ++ [s.calls.length], calls := s.calls ++ [CallPhase.waiting .fresh] } := by
  have hself : (s.calls ++ [CallPhase.waiting .fresh])[s.calls.length]? = some (CallPhase.waiting .fresh) := by simp
  have hlive : ∀ u, CapacityState.Live
      { s with waiters := s.waiters ++ [s.calls.length], calls := s.calls ++ [CallPhase.waiting .fresh] } u →
        s.Live u ∨ u = s.calls.length := by
    rintro u ⟨w, hw, hpend⟩
    rcases getElem?_append_phase hw with hw | ⟨hu, -⟩
    · exact .inl ⟨w, hw, hpend⟩
    · exact .inr hu
  constructor
  case active_eq =>
    rw [List.countP_append, ← h.active_eq]
    rfl
  case active_le => exact h.active_le
  case waiters_sorted =>
    refine List.pairwise_append.mpr ⟨h.waiters_sorted, List.pairwise_singleton _ _, ?_⟩
    intro t ht u hu
    obtain ⟨w, hw, -⟩ := h.queued t ht
    rw [List.mem_singleton.mp hu]
    exact lt_of_phase hw
  case waiters_le =>
    rw [List.length_append]
    exact hroom
  case queued =>
    intro t ht
    rcases List.mem_append.mp ht with ht | ht
    · obtain ⟨w, hw, hg⟩ := h.queued t ht
      exact ⟨w, phase_append _ hw, hg⟩
    · rw [List.mem_singleton.mp ht]
      exact ⟨.fresh, hself, rfl⟩
  case waiter_ok =>
    intro t w ht
    rcases getElem?_append_phase ht with ht | ⟨-, ht⟩
    · exact h.waiter_ok t w ht
    · cases ht
      exact ⟨by decide, by decide⟩
  case live_queued =>
    intro t ht
    rcases hlive t ht with ht | rfl
    · exact List.mem_append_left _ (h.live_queued t ht)
    · exact List.mem_append_right _ (List.mem_singleton.mpr rfl)
  case grants_sorted => exact h.grants_sorted
  case grants_before =>
    intro t ht u hu
    rcases hlive u hu with hu | rfl
    · exact h.grants_before t ht u hu
    · exact lt_of_granted h ht
  case granted =>
    intro t ht
    obtain ⟨p, hp, hor⟩ := h.granted t ht
    exact ⟨p, phase_append _ hp, hor⟩
  case occupied =>
    intro t p ht hpo
    rcases getElem?_append_phase ht with ht | ⟨-, rfl⟩
    · exact h.occupied t p ht hpo
    · nomatch hpo
  case releases_nodup => exact h.releases_nodup
  case releases_granted => exact h.releases_granted

/-! ## A slot is given back -/

/-- A slot given back while no waiter is live. -/
theorem slot_giveBack (h : SlotInv c s) {t : Nat} {p q : CallPhase} (hp : s.calls[t]? = some p) (hpo : p.occupies = true)
    (hq : q.finished = true) :
    SlotInv c { s with active := s.active - 1, calls := s.calls.set t q, releases := s.releases ++ [t] } := by
  have hlt := lt_of_phase hp
  have hset : ∀ {u}, u ≠ t → (s.calls.set t q)[u]? = s.calls[u]? := fun hu => List.getElem?_set_ne fun e => hu e.symm
  have hself : (s.calls.set t q)[t]? = some q := List.getElem?_set_self hlt
  have hqo : q.occupies = false := by cases q <;> first | rfl | nomatch hq
  have hgrant := h.occupied t p hp hpo
  have hpf : p.finished = false := by cases p <;> first | rfl | nomatch hpo
  obtain ⟨-, hfresh⟩ := occupies_of_granted h hp hpf hgrant
  have hlive : ∀ u, CapacityState.Live
      { s with active := s.active - 1, calls := s.calls.set t q, releases := s.releases ++ [t] } u → s.Live u := by
    rintro u ⟨w, hw, hpend⟩
    rcases getElem?_set_phase hp hw with ⟨-, rfl⟩ | ⟨-, hw⟩
    · nomatch hq
    · exact ⟨w, hw, hpend⟩
  constructor
  case active_eq =>
    have hc := countP_set_occupies (q := q) hp
    rw [hpo, hqo] at hc
    change s.active - 1 = (s.calls.set t q).countP _
    rw [h.active_eq]
    simp only [if_true, Bool.false_eq_true, if_false] at hc
    omega
  case active_le => exact Nat.le_trans (Nat.sub_le _ _) h.active_le
  case waiters_sorted => exact h.waiters_sorted
  case waiters_le => exact h.waiters_le
  case queued =>
    intro u hu
    obtain ⟨w, hw, hg⟩ := h.queued u hu
    have hut : u ≠ t := by
      rintro rfl
      rw [hp] at hw
      cases hw
      rw [CallPhase.occupies, hg] at hpo
      nomatch hpo
    exact ⟨w, (hset hut).trans hw, hg⟩
  case waiter_ok =>
    intro u w hu
    rcases getElem?_set_phase hp hu with ⟨-, rfl⟩ | ⟨-, hu⟩
    · nomatch hq
    · exact h.waiter_ok u w hu
  case live_queued => exact fun u hu => h.live_queued u (hlive u hu)
  case grants_sorted => exact h.grants_sorted
  case grants_before => exact fun v hv u hu => h.grants_before v hv u (hlive u hu)
  case granted =>
    intro u hu
    by_cases hut : u = t
    · subst hut
      exact ⟨q, hself, .inr ⟨hq, List.mem_append_right _ (List.mem_singleton.mpr rfl)⟩⟩
    · obtain ⟨r, hr, hor⟩ := h.granted u hu
      refine ⟨r, (hset hut).trans hr, ?_⟩
      rw [List.mem_append, List.mem_singleton]
      simpa [hut] using hor
  case occupied =>
    intro u r hu hro
    rcases getElem?_set_phase hp hu with ⟨-, rfl⟩ | ⟨-, hr⟩
    · rw [hqo] at hro
      nomatch hro
    · exact h.occupied u r hr hro
  case releases_nodup =>
    exact List.nodup_append.mpr ⟨h.releases_nodup, List.pairwise_singleton _ _, fun u hu v hv e =>
      hfresh (List.mem_singleton.mp hv ▸ e ▸ hu)⟩
  case releases_granted =>
    intro u hu
    rcases List.mem_append.mp hu with hu | hu
    · exact h.releases_granted u hu
    · rw [List.mem_singleton.mp hu]
      exact hgrant

/-- The first live waiter is granted a free slot. -/
theorem slot_grant (h : SlotInv c s) {t : Nat} {rest : List Nat} {w : CapacityWaiter} (hws : s.waiters = t :: rest)
    (hw : s.calls[t]? = some (.waiting w)) (hpend : w.future = .pending) (hfree : s.active < c.activeLimit) :
    SlotInv c { s.setPhase t (.waiting { w with granted := true, future := .result }) with
      waiters := rest, active := s.active + 1, grants := s.grants ++ [t] } := by
  generalize hq : CallPhase.waiting { w with granted := true, future := .result } = q
  have hlt := lt_of_phase hw
  have hset : ∀ {u}, u ≠ t → (s.calls.set t q)[u]? = s.calls[u]? := fun hu => List.getElem?_set_ne fun e => hu e.symm
  have hself : (s.calls.set t q)[t]? = some q := List.getElem?_set_self hlt
  have hsorted := h.waiters_sorted
  rw [hws, List.pairwise_cons] at hsorted
  have hqo : q.occupies = true := by rw [← hq]; rfl
  have hwo : (CallPhase.waiting w).occupies = false := by
    obtain ⟨w', hw', hg⟩ := h.queued t (by rw [hws]; exact List.mem_cons_self)
    rw [hw] at hw'
    cases hw'
    exact hg
  have hlive : ∀ u, CapacityState.Live
      { s.setPhase t q with waiters := rest, active := s.active + 1, grants := s.grants ++ [t] } u → s.Live u ∧ u ≠ t := by
    rintro u ⟨w', hu, hpend'⟩
    rcases getElem?_set_phase hw hu with ⟨-, hr⟩ | ⟨hne, hr⟩
    · rw [← hq] at hr
      cases hr
      nomatch hpend'
    · exact ⟨⟨w', hr, hpend'⟩, hne⟩
  have hbefore : ∀ u ∈ s.grants, u < t := fun u hu => h.grants_before u hu t ⟨w, hw, hpend⟩
  constructor
  case active_eq =>
    have hc := countP_set_occupies (q := q) hw
    rw [hqo, hwo] at hc
    change s.active + 1 = (s.calls.set t q).countP _
    rw [h.active_eq]
    simp only [if_true, Bool.false_eq_true, if_false] at hc
    omega
  case active_le => exact hfree
  case waiters_sorted => exact hsorted.2
  case waiters_le =>
    have hle := h.waiters_le
    rw [hws, List.length_cons] at hle
    exact Nat.le_of_succ_le hle
  case queued =>
    intro u hu
    obtain ⟨w', hw', hg⟩ := h.queued u (by rw [hws]; exact List.mem_cons_of_mem _ hu)
    exact ⟨w', (hset (Nat.ne_of_gt (hsorted.1 u hu))).trans hw', hg⟩
  case waiter_ok =>
    intro u w' hu
    rcases getElem?_set_phase hw hu with ⟨-, hr⟩ | ⟨-, hr⟩
    · rw [← hq] at hr
      cases hr
      exact ⟨by simp, nofun⟩
    · exact h.waiter_ok u w' hr
  case live_queued =>
    intro u hu
    obtain ⟨hl, hne⟩ := hlive u hu
    have hmem := h.live_queued u hl
    rw [hws] at hmem
    exact (List.mem_cons.mp hmem).resolve_left hne
  case grants_sorted =>
    refine List.pairwise_append.mpr ⟨h.grants_sorted, List.pairwise_singleton _ _, ?_⟩
    intro u hu v hv
    rw [List.mem_singleton.mp hv]
    exact hbefore u hu
  case grants_before =>
    intro u hu v hv
    obtain ⟨hl, hne⟩ := hlive v hv
    rcases List.mem_append.mp hu with hu | hu
    · exact h.grants_before u hu v hl
    · rw [List.mem_singleton.mp hu]
      have hmem := h.live_queued v hl
      rw [hws] at hmem
      exact hsorted.1 v ((List.mem_cons.mp hmem).resolve_left hne)
  case granted =>
    intro u hu
    by_cases hut : u = t
    · subst hut
      refine ⟨q, hself, .inl ⟨hqo, fun hr => ?_⟩⟩
      exact absurd (hbefore u (h.releases_granted u hr)) (Nat.lt_irrefl _)
    · rcases List.mem_append.mp hu with hu | hu
      · obtain ⟨r, hr, hor⟩ := h.granted u hu
        exact ⟨r, (hset hut).trans hr, hor⟩
      · exact absurd (List.mem_singleton.mp hu) hut
  case occupied =>
    intro u r hu hro
    rcases getElem?_set_phase hw hu with ⟨rfl, -⟩ | ⟨-, hr⟩
    · exact List.mem_append_right _ (List.mem_singleton.mpr rfl)
    · exact List.mem_append_left _ (h.occupied u r hr hro)
  case releases_nodup => exact h.releases_nodup
  case releases_granted => exact fun u hu => List.mem_append_left _ (h.releases_granted u hu)

/-! ## What the methods do -/

theorem isDone_eq_false_iff {t : Nat} : s.isDone t = false ↔ s.Live t := by
  unfold CapacityState.isDone CapacityState.Live
  cases hw : s.waiter? t with
  | none =>
    simp only [Option.map_none, Option.getD_none, Bool.true_eq_false, false_iff]
    rintro ⟨w, hw', -⟩
    rw [waiter?_eq_some_iff.mpr hw'] at hw
    nomatch hw
  | some w =>
    have hc := waiter?_eq_some_iff.mp hw
    simp only [Option.map_some, Option.getD_some]
    constructor
    · intro hd
      refine ⟨w, hc, ?_⟩
      cases hf : w.future <;> rw [hf] at hd <;> first | rfl | nomatch hd
    · rintro ⟨w', hc', hp⟩
      rw [hc] at hc'
      cases hc'
      rw [hp]
      rfl

theorem discard_eq (s : CapacityState) :
    discardCancelledWaiters s = { s with waiters := s.waiters.filter fun t => !s.isDone t } := by
  unfold discardCancelledWaiters
  split
  · rfl
  · rename_i h
    have hself : (s.waiters.filter fun t => !s.isDone t) = s.waiters := by
      rw [List.filter_eq_self]
      intro t ht
      rw [Bool.not_eq_true']
      by_contra hd
      exact h (List.any_eq_true.mpr ⟨t, ht, by simpa using hd⟩)
    rw [hself]

/-- `_discard_cancelled_waiters` leaves the live waiters, and nothing else, in the queue. -/
theorem mem_discard (h : SlotInv c s) {t : Nat} : t ∈ (discardCancelledWaiters s).waiters ↔ s.Live t := by
  rw [discard_eq, ← isDone_eq_false_iff]
  simp only [List.mem_filter, Bool.not_eq_true']
  exact ⟨fun ht => ht.2, fun hd => ⟨h.live_queued t (isDone_eq_false_iff.mp hd), hd⟩⟩

theorem slot_discard (h : SlotInv c s) : SlotInv c (discardCancelledWaiters s) := by
  have hmem := fun t => mem_discard (t := t) h
  rw [discard_eq] at hmem ⊢
  exact slot_shrink h List.filter_sublist fun t ht => (hmem t).mpr ht

/-- What `acquire` does up to its `yield` or its await, after the dead entries have left the queue. -/
theorem run_acquire (c : CapacityLimits) (s : CapacityState) :
    (acquire c).run s =
      let s' := discardCancelledWaiters s
      if s'.active < c.activeLimit ∧ s'.waiters = [] then
        .ok () { s' with active := s'.active + 1, grants := s'.grants ++ [s'.calls.length], calls := s'.calls ++ [CallPhase.holding] }
      else if c.waitQueueSize ≤ s'.waiters.length then
        .error .queueFull { s' with calls := s'.calls ++ [CallPhase.queueFull] }
      else
        .ok () { s' with waiters := s'.waiters ++ [s'.calls.length], calls := s'.calls ++ [CallPhase.waiting .fresh] } := by
  unfold acquire reserveOrEnqueue
  simp only [EStateM.run_bind, run_tryCatch, EStateM.run_modify, EStateM.run_get]
  by_cases hfree : (discardCancelledWaiters s).active < c.activeLimit ∧ (discardCancelledWaiters s).waiters = []
  · rw [if_pos hfree, if_pos hfree]
    rfl
  · rw [if_neg hfree, if_neg hfree]
    by_cases hroom : c.waitQueueSize ≤ (discardCancelledWaiters s).waiters.length
    · rw [if_pos hroom, if_pos hroom]
      rfl
    · rw [if_neg hroom, if_neg hroom]
      rfl

/-- What the loop of `_release` does: no entry is live, or the first live one is granted. -/
theorem grantNext_cases (s : CapacityState) (ws : List Nat) :
    (∀ t ∈ ws, ¬ s.Live t) ∧ grantNext s ws = { s with waiters := [] } ∨
    ∃ dead t rest w, ws = dead ++ t :: rest ∧ (∀ u ∈ dead, ¬ s.Live u) ∧ s.calls[t]? = some (.waiting w) ∧
      w.future = .pending ∧
      grantNext s ws = { s.setPhase t (.waiting { w with granted := true, future := .result }) with
        waiters := rest, active := s.active + 1, grants := s.grants ++ [t] } := by
  induction ws with
  | nil => exact .inl ⟨nofun, rfl⟩
  | cons t ws ih =>
    by_cases hl : s.Live t
    · obtain ⟨w, hw, hp⟩ := hl
      refine .inr ⟨[], t, ws, w, rfl, nofun, hw, hp, ?_⟩
      rw [grantNext, waiter?_eq_some_iff.mpr hw]
      simp only [hp, FutureState.done, Bool.false_eq_true, if_false]
    · have hskip : grantNext s (t :: ws) = grantNext s ws := by
        cases hw : s.waiter? t with
        | none => simp only [grantNext, hw]
        | some w =>
          have hd : w.future.done = true := by
            cases hf : w.future with
            | pending => exact absurd ⟨w, waiter?_eq_some_iff.mp hw, hf⟩ hl
            | result => rfl
            | cancelled => rfl
          simp only [grantNext, hw, hd, if_true]
      rw [hskip]
      rcases ih with ⟨hnone, heq⟩ | ⟨dead, u, rest, w, rfl, hdead, hw, hp, heq⟩
      · exact .inl ⟨List.forall_mem_cons.mpr ⟨hl, hnone⟩, heq⟩
      · exact .inr ⟨t :: dead, u, rest, w, rfl, List.forall_mem_cons.mpr ⟨hl, hdead⟩, hw, hp, heq⟩

/-! ## The events -/

theorem fifo_of_grants_eq {s' : CapacityState} (h : s'.grants = s.grants) : FifoStep s s' := by
  intro t ht hn
  rw [h] at ht
  exact absurd ht hn

/-- A call that occupies a slot and ends: `_release` does not raise, the slot goes to the first live waiter if there is one. -/
theorem giveBack_then (h : CapacityInv c s) {u : Nat} {p q : CallPhase} (hp : s.calls[u]? = some p) (hpo : p.occupies = true)
    (hq : q.finished = true) :
    ∃ s', (giveBack u).run s = .ok () s' ∧ CapacityInv c (s'.setPhase u q) ∧ FifoStep s s' := by
  have hlt := lt_of_phase hp
  have hpos : 1 ≤ s.active := by
    rw [h.active_eq]
    exact List.countP_pos_iff.mpr ⟨p, List.mem_of_getElem? hp, hpo⟩
  have hrun : (giveBack u).run s = .ok ()
      { grantNext { s with active := s.active - 1 } s.waiters with releases := s.releases ++ [u] } := by
    have hrel : (grantNext { s with active := s.active - 1 } s.waiters).releases = s.releases := by
      rcases grantNext_cases { s with active := s.active - 1 } s.waiters with ⟨-, heq⟩ | ⟨_, _, _, _, -, -, -, -, heq⟩
      · rw [heq]
      · rw [heq]
        rfl
    unfold giveBack release
    simp only [EStateM.run_bind, EStateM.run_get, Nat.not_lt.mpr hpos, if_false, EStateM.run_set, EStateM.run_modify, hrel]
  have hback : SlotInv c { s with active := s.active - 1, calls := s.calls.set u q, releases := s.releases ++ [u] } :=
    slot_giveBack h.toSlotInv hp hpo hq
  have hlive : ∀ {v}, CapacityState.Live
      { s with active := s.active - 1, calls := s.calls.set u q, releases := s.releases ++ [u] } v → s.Live v := by
    rintro v ⟨w, hw, hpend⟩
    rcases getElem?_set_phase hp hw with ⟨-, rfl⟩ | ⟨-, hw⟩
    · nomatch hq
    · exact ⟨w, hw, hpend⟩
  refine ⟨_, hrun, ?_⟩
  rcases grantNext_cases { s with active := s.active - 1 } s.waiters with ⟨hnone, heq⟩ | ⟨dead, t, rest, w, hws, hdead, hw, hpend, heq⟩
  · rw [heq]
    have hnone' : ∀ v, ¬ s.Live v := fun v hv => hnone v (h.live_queued v hv) hv
    refine ⟨⟨slot_shrink hback (List.nil_sublist _) fun v hv => absurd (hlive hv) (hnone' v), ?_⟩, fifo_of_grants_eq rfl⟩
    exact fun v hv => absurd (hlive hv) (hnone' v)
  · rw [heq]
    have htl : s.Live t := ⟨w, hw, hpend⟩
    have htu : t ≠ u := by
      rintro rfl
      obtain ⟨w', hw', hg⟩ := h.queued t (h.live_queued t htl)
      rw [hp] at hw'
      cases hw'
      rw [CallPhase.occupies, hg] at hpo
      nomatch hpo
    -- every live waiter is the first one or behind it
    have hfirst : ∀ v, s.Live v → v ∈ t :: rest := by
      intro v hv
      have hmem := h.live_queued v hv
      rw [hws, List.mem_append] at hmem
      exact hmem.resolve_left fun hd => hdead v hd hv
    have hsub : (t :: rest).Sublist s.waiters := by
      rw [hws]
      exact List.sublist_append_right _ _
    have hshrunk := slot_shrink hback hsub fun v hv => hfirst v (hlive hv)
    have hgrant := slot_grant hshrunk rfl ((List.getElem?_set_ne fun e => htu e.symm).trans hw) hpend
      (by have := h.active_le; change s.active - 1 < _; omega)
    have hcomm : (s.calls.set u q).set t (.waiting { w with granted := true, future := .result }) =
        (s.calls.set t (.waiting { w with granted := true, future := .result })).set u q := List.set_comm _ _ fun e => htu e.symm
    simp only [CapacityState.setPhase] at hgrant ⊢
    rw [hcomm] at hgrant
    refine ⟨⟨hgrant, ?_⟩, ?_⟩
    · intro v _
      have hfull := h.live_full t htl
      change s.active - 1 + 1 = _
      omega
    · intro v hv hn
      have hvt := List.mem_singleton.mp ((List.mem_append.mp hv).resolve_left hn)
      subst hvt
      refine .inr ⟨htl, fun x hx => ?_⟩
      have hsorted := hshrunk.waiters_sorted
      rcases List.mem_cons.mp (hfirst x hx) with rfl | hx
      · exact Nat.le_refl _
      · exact Nat.le_of_lt ((List.pairwise_cons.mp hsorted).1 x hx)

/-- What an event does to a capacity on which the invariant holds. -/
structure EventOk (c : CapacityLimits) (s : CapacityState) (r : EStateM.Result CapacityError CapacityState Unit) : Prop where
  inv : CapacityInv c (stateAfter r)
  fifo : FifoStep s (stateAfter r)
  noUnderflow : ∀ s', r ≠ .error .releasedWithoutHolder s'

section

variable (h : CapacityInv c s)
include h

theorem acquire_ok : EventOk c s ((acquire c).run s) := by
  have hslot := slot_discard h.toSlotInv
  have hmem := fun t => mem_discard (t := t) h.toSlotInv
  have hcalls : (discardCancelledWaiters s).calls = s.calls := by rw [discard_eq]
  have hgrants : (discardCancelledWaiters s).grants = s.grants := by rw [discard_eq]
  have hactive : (discardCancelledWaiters s).active = s.active := by rw [discard_eq]
  have hlive : ∀ t, (discardCancelledWaiters s).Live t ↔ s.Live t := by
    intro t
    unfold CapacityState.Live
    rw [hcalls]
  rw [run_acquire]
  generalize discardCancelledWaiters s = s1 at *
  by_cases hfree : s1.active < c.activeLimit ∧ s1.waiters = []
  · have hnone : ∀ u, ¬ s1.Live u := by
      intro u hu
      have hm := (hmem u).mpr ((hlive u).mp hu)
      rw [hfree.2] at hm
      nomatch hm
    simp only [if_pos hfree]
    refine ⟨⟨slot_reserve hslot hfree.1 hnone, ?_⟩, ?_, nofun⟩
    · exact fun u hu => absurd (live_append rfl (by simp) hu) (hnone u)
    · intro t ht hn
      have hmem' := List.mem_append.mp ht
      rw [hgrants] at hmem'
      have htl := List.mem_singleton.mp (hmem'.resolve_left hn)
      exact .inl ⟨by rw [htl, hcalls], fun u hu => hnone u ((hlive u).mpr hu)⟩
  · simp only [hfree, if_false]
    by_cases hroom : c.waitQueueSize ≤ s1.waiters.length
    · simp only [hroom, if_true]
      refine ⟨⟨slot_refuse hslot, ?_⟩, fifo_of_grants_eq hgrants, nofun⟩
      intro u hu
      exact hactive.trans (h.live_full u ((hlive u).mp (live_append rfl (by simp) hu)))
    · simp only [hroom, if_false]
      refine ⟨⟨slot_enqueue hslot (by omega), ?_⟩, fifo_of_grants_eq hgrants, nofun⟩
      -- the queue is not empty, and what is in it is live, or no slot was free
      have hfull : s1.active = c.activeLimit := by
        by_cases hempty : s1.waiters = []
        · have hle := hslot.active_le
          have hnlt : ¬ s1.active < c.activeLimit := fun hlt => hfree ⟨hlt, hempty⟩
          omega
        · obtain ⟨t, ht⟩ := List.exists_mem_of_ne_nil _ hempty
          exact hactive.trans (h.live_full t ((hmem t).mp ht))
      exact fun _ _ => hfull

/-- A cancellation, or the expiry of the timeout, of a suspended call. -/
theorem interrupt_ok {t : Nat} {w w' : CapacityWaiter} (hw : s.calls[t]? = some (.waiting w))
    (hf : w'.future = w.future.cancel) (hg : w'.granted = w.granted)
    (hi : w'.cancelRequested = true ∨ w'.expired = true) : EventOk c s (.ok () (s.setPhase t (.waiting w'))) := by
  have hok := h.waiter_ok t w hw
  have hdone : w'.future ≠ .pending := by
    rw [hf]
    cases w.future <;> decide
  have hok' : WaiterOk w' := by
    refine ⟨?_, fun _ => hi⟩
    rw [hg, hok.granted_iff, hf]
    cases w.future <;> decide
  have hslot : SlotInv c (s.setPhase t (.waiting w')) := by
    refine slot_setPhase h.toSlotInv hw rfl hg ?_ ?_ ?_
    · intro ht
      obtain ⟨w0, hw0, hg0⟩ := h.queued t ht
      rw [hw] at hw0
      cases hw0
      exact ⟨w', rfl, hg.trans hg0⟩
    · intro w0 he
      cases he
      exact hok'
    · intro w0 he hp
      cases he
      exact absurd hp hdone
  refine ⟨⟨hslot, ?_⟩, fifo_of_grants_eq rfl, nofun⟩
  rintro u ⟨w0, hu, hp⟩
  rcases getElem?_set_phase hw hu with ⟨-, hr⟩ | ⟨-, hr⟩
  · cases hr
    exact absurd hp hdone
  · exact h.live_full u ⟨w0, hr, hp⟩

/-- The withdrawal of a call that was interrupted, and its end: a slot granted to it in the meantime is given back. -/
theorem withdraw_then {t : Nat} {w : CapacityWaiter} {q : CallPhase} (hw : s.calls[t]? = some (.waiting w))
    (hd : w.future.done = true) (hq : q.finished = true) :
    ∃ s', (withdraw t w).run s = .ok () s' ∧ CapacityInv c (s'.setPhase t q) ∧ FifoStep s s' := by
  by_cases hg : w.granted = true
  · obtain ⟨s', hrun, hrest⟩ := giveBack_then h hw hg hq
    refine ⟨s', ?_, hrest⟩
    unfold withdraw
    simp only [hg, if_true, EStateM.run_bind, hrun]
    rfl
  · have hrun : (withdraw t w).run s = .ok () { s with waiters := s.waiters.erase t } := by
      unfold withdraw
      simp only [hg, Bool.false_eq_true, if_false, EStateM.run_bind, EStateM.run_modify, hd, Bool.not_true]
      rfl
    have hndead : ∀ u, s.Live u → u ≠ t := by
      rintro u ⟨w', hu, hp⟩ rfl
      rw [hw] at hu
      cases hu
      rw [hp] at hd
      nomatch hd
    have hnodup : s.waiters.Nodup := h.waiters_sorted.imp Nat.ne_of_lt
    have hshrunk := slot_shrink h.toSlotInv (List.erase_sublist (l := s.waiters) (a := t)) fun u hu =>
      (List.mem_erase_of_ne (hndead u hu)).mpr (h.live_queued u hu)
    have hqo : q.occupies = false := by cases q <;> first | rfl | nomatch hq
    refine ⟨_, hrun, ⟨slot_setPhase hshrunk hw rfl ?_ ?_ ?_ ?_, ?_⟩, fifo_of_grants_eq rfl⟩
    · rw [hqo]
      simpa [CallPhase.occupies] using hg
    · exact fun hmem => absurd hmem hnodup.not_mem_erase
    · rintro _ rfl
      nomatch hq
    · rintro _ rfl
      nomatch hq
    · rintro u ⟨w', hu, hp⟩
      rcases getElem?_set_phase hw hu with ⟨-, rfl⟩ | ⟨-, hr⟩
      · nomatch hq
      · exact h.live_full u ⟨w', hr, hp⟩

theorem resume_ok {t : Nat} {w : CapacityWaiter} (hw : s.calls[t]? = some (.waiting w))
    (hd : w.future.done = true) : EventOk c s ((resume t w).run s) := by
  have hok := h.waiter_ok t w hw
  unfold resume
  by_cases hc : w.cancelRequested = true
  · obtain ⟨s', hrun, hinv, hfifo⟩ := withdraw_then (q := .cancelled) h hw hd rfl
    simp only [hc, if_true, EStateM.run_bind, hrun, EStateM.run_modify, EStateM.run_throw]
    exact ⟨hinv, hfifo, nofun⟩
  · by_cases he : w.expired = true
    · obtain ⟨s', hrun, hinv, hfifo⟩ := withdraw_then (q := .waitTimeout) h hw hd rfl
      simp only [hc, Bool.false_eq_true, if_false, he, if_true, EStateM.run_bind, hrun, EStateM.run_modify, EStateM.run_throw]
      exact ⟨hinv, hfifo, nofun⟩
    · have hg : w.granted = true := by
        rw [hok.granted_iff]
        cases hf : w.future with
        | pending =>
          rw [hf] at hd
          nomatch hd
        | result => rfl
        | cancelled => exact absurd (hok.interrupted hf) (by simp [hc, he])
      simp only [hc, he, Bool.false_eq_true, if_false, EStateM.run_modify]
      refine ⟨⟨slot_setPhase h.toSlotInv hw rfl hg.symm ?_ nofun nofun, ?_⟩, fifo_of_grants_eq rfl, nofun⟩
      · intro ht
        obtain ⟨w', hw', hg'⟩ := h.queued t ht
        rw [hw] at hw'
        cases hw'
        rw [hg] at hg'
        nomatch hg'
      · rintro u ⟨w', hu, hp⟩
        rcases getElem?_set_phase hw hu with ⟨-, hr⟩ | ⟨-, hr⟩
        · nomatch hr
        · exact h.live_full u ⟨w', hr, hp⟩

theorem exit_ok {t : Nat} (hp : s.calls[t]? = some .holding) : EventOk c s ((exit t).run s) := by
  obtain ⟨s', hrun, hinv, hfifo⟩ := giveBack_then (q := .released) h hp rfl rfl
  unfold exit
  simp only [EStateM.run_bind, hrun, EStateM.run_modify]
  exact ⟨hinv, hfifo, nofun⟩

/-- Every event keeps the invariant. -/
theorem event_ok {event : CapacityEvent} {r : EStateM.Result CapacityError CapacityState Unit}
    (hstep : capacityStep c s event = some r) : EventOk c s r := by
  cases event with
  | acquire =>
    cases hstep
    exact acquire_ok h
  | cancel t =>
    obtain ⟨w, hw, rfl⟩ := Option.map_eq_some_iff.mp hstep
    exact interrupt_ok h (waiter?_eq_some_iff.mp hw) rfl rfl (.inl rfl)
  | expire t =>
    unfold capacityStep at hstep
    cases hw : s.waiter? t with
    | none => simp [hw] at hstep
    | some w =>
      simp only [hw] at hstep
      split at hstep
      · nomatch hstep
      · cases hstep
        exact interrupt_ok h (waiter?_eq_some_iff.mp hw) rfl rfl (.inr rfl)
  | resume t =>
    unfold capacityStep at hstep
    cases hw : s.waiter? t with
    | none => simp [hw] at hstep
    | some w =>
      simp only [hw] at hstep
      split at hstep
      · rename_i hd
        cases hstep
        exact resume_ok h (waiter?_eq_some_iff.mp hw) hd
      · nomatch hstep
  | exit t =>
    simp only [capacityStep] at hstep
    split at hstep
    · rename_i hp
      cases hstep
      exact exit_ok h hp
    · nomatch hstep

end

/-- The invariant holds in every state a capacity can reach. -/
theorem inv_of_reachable (h : CapacityReachable c s) : CapacityInv c s := by
  induction h with
  | initial => exact ⟨slot_initial c, fun t ⟨w, hw, _⟩ => by simp [CapacityState.initial] at hw⟩
  | step _ _ hstep ih => exact (event_ok ih hstep).inv

end CapacityAux

end Nl2Sql
