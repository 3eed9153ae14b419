import Nl2Sql.Llm.Gateway
import Mathlib.Tactic.Linarith

/-!
# The model gateway, method by method

What each method of the gateway does to the log, and that it keeps the circuits at what the log says of their providers.
-/

namespace Nl2Sql.Llm

open Py

variable {G : ModelGateway} {E : Environment} {maxAttempts : Nat → Nat} {budget : Nat} {target : ModelTarget} {request : ModelRequest}

/-! ## Logs -/

@[simp] theorem providerCalls_append (log log' : List GatewayEvent) :
    providerCalls (log ++ log') = providerCalls log ++ providerCalls log' := List.filterMap_append

@[simp] theorem answers_append (log log' : List GatewayEvent) : answers (log ++ log') = answers log ++ answers log' :=
  List.filterMap_append

@[simp] theorem charges_append (log log' : List GatewayEvent) : charges (log ++ log') = charges log ++ charges log' :=
  List.filterMap_append

theorem callsOn_append (b : Nat) (log log' : List GatewayEvent) : callsOn b (log ++ log') = callsOn b log + callsOn b log' := by
  unfold callsOn
  rw [providerCalls_append, List.countP_append]

theorem standingOf_append_singleton (provider : String) (log : List GatewayEvent) (event : GatewayEvent) :
    standingOf provider (log ++ [event]) = (standingOf provider log).after provider event := by
  unfold standingOf
  rw [List.foldl_append]
  rfl

/-- The calls of a log: each is made while its provider's circuit is closed, on a budget that counts it. -/
def LawfulCalls (maxAttempts : Nat → Nat) (log : List GatewayEvent) : Prop :=
  ∀ before call after, log = before ++ GatewayEvent.complete call :: after →
    ¬CircuitOpen call.target.provider before call.time ∧ callsOn call.budget before + 1 ≤ call.attempts ∧
      call.attempts ≤ maxAttempts call.budget

theorem lawfulCalls_nil : LawfulCalls maxAttempts [] := fun before _ _ h => by
  cases before <;> nomatch h

theorem LawfulCalls.snoc {log : List GatewayEvent} {event : GatewayEvent} (h : LawfulCalls maxAttempts log)
    (hevent : ∀ call, event = .complete call → ¬CircuitOpen call.target.provider log call.time ∧
      callsOn call.budget log + 1 ≤ call.attempts ∧ call.attempts ≤ maxAttempts call.budget) :
    LawfulCalls maxAttempts (log ++ [event]) := by
  intro before call after heq
  rcases List.eq_nil_or_concat after with rfl | ⟨after, last, rfl⟩
  · obtain ⟨rfl, hlast⟩ := List.append_inj' heq rfl
    exact hevent call (List.cons.inj hlast).1
  · rw [List.concat_eq_append, ← List.cons_append, ← List.append_assoc] at heq
    exact h before call after (List.append_inj' heq rfl).1

/-! ## Circuits -/

/-- The circuit of a provider; one that was not made is closed. -/
def GatewayState.circuitAt (s : GatewayState) (provider : String) : Circuit := (s.circuits.get? provider).getD {}

/-- A circuit tells what its provider's standing is. -/
structure Agrees (circuit : Circuit) (standing : Standing) : Prop where
  failures : circuit.failures = standing.failures
  opened : ∀ opened, circuit.openedAt = some opened → 3 ≤ standing.failures ∧ ∃ time ∈ standing.lastFailure, time ≤ opened
  closed : circuit.openedAt = none → standing.failures < 3

theorem circuitAt_set_self (s : GatewayState) (provider : String) (circuit : Circuit) :
    GatewayState.circuitAt { s with circuits := s.circuits.set provider circuit } provider = circuit := by
  unfold GatewayState.circuitAt
  rw [Dict.get?_set_self]
  rfl

theorem circuitAt_set_of_ne (s : GatewayState) {provider other : String} (circuit : Circuit) (h : provider ≠ other) :
    GatewayState.circuitAt { s with circuits := s.circuits.set provider circuit } other = s.circuitAt other := by
  unfold GatewayState.circuitAt
  rw [Dict.get?_set_of_ne _ _ h]

/-! ## The invariant -/

/-- The log is lawful, and the budgets count its calls. -/
structure Core (maxAttempts : Nat → Nat) (s : GatewayState) : Prop where
  lawful : LawfulCalls maxAttempts s.log
  bound : ∀ b, (s.budgets b).maxAttempts = maxAttempts b
  counted : ∀ b, callsOn b s.log ≤ (s.budgets b).attempts
  within : ∀ b, callsOn b s.log ≤ maxAttempts b

/-- The circuits tell the standings of the log. -/
def Told (s : GatewayState) : Prop := ∀ provider, Agrees (s.circuitAt provider) (standingOf provider s.log)

/-- The circuits of all providers but one do. -/
def ToldBut (but : String) (s : GatewayState) : Prop :=
  ∀ provider, but ≠ provider → Agrees (s.circuitAt provider) (standingOf provider s.log)

/-- A state with the invariant, some events after a log. -/
structure Reached (maxAttempts : Nat → Nat) (log events : List GatewayEvent) (s : GatewayState) : Prop where
  core : Core maxAttempts s
  told : Told s
  log_eq : s.log = log ++ events

theorem reached_initial (budgets : Nat → CallBudget) :
    Reached (fun b => (budgets b).maxAttempts) [] [] (GatewayState.initial budgets) where
  core := ⟨lawfulCalls_nil, fun _ => rfl, fun _ => Nat.zero_le _, fun _ => Nat.zero_le _⟩
  told _ := ⟨rfl, nofun, fun _ => (by decide : 0 < 3)⟩
  log_eq := rfl

/-- An event that is no call to a provider leaves the calls as they are. -/
theorem Core.record {s : GatewayState} {event : GatewayEvent} (h : Core maxAttempts s) (hevent : ∀ call, event ≠ .complete call) :
    Core maxAttempts { s with log := s.log ++ [event] } := by
  have hcalls : ∀ b, callsOn b (s.log ++ [event]) = callsOn b s.log := by
    intro b
    rw [callsOn_append]
    cases event with
    | complete call => exact absurd rfl (hevent call)
    | _ => rfl
  refine ⟨h.lawful.snoc fun call hcall => absurd hcall (hevent call), h.bound, fun b => ?_, fun b => ?_⟩
  · change callsOn b (s.log ++ [event]) ≤ _
    rw [hcalls]
    exact h.counted b
  · change callsOn b (s.log ++ [event]) ≤ _
    rw [hcalls]
    exact h.within b

/-- An event that says nothing of any provider. -/
theorem Reached.silent {log events : List GatewayEvent} {s : GatewayState} {event : GatewayEvent} (h : Reached maxAttempts log events s)
    (hevent : ∀ provider standing, Standing.after provider standing event = standing) (hcall : ∀ call, event ≠ .complete call) :
    Reached maxAttempts log (events ++ [event]) { s with log := s.log ++ [event] } where
  core := h.core.record hcall
  told provider := by
    change Agrees (s.circuitAt provider) (standingOf provider (s.log ++ [event]))
    rw [standingOf_append_singleton, hevent]
    exact h.told provider
  log_eq := by
    change s.log ++ [event] = _
    rw [h.log_eq, List.append_assoc]

theorem Reached.tick {log events : List GatewayEvent} {s : GatewayState} (h : Reached maxAttempts log events s) :
    Reached maxAttempts log events { s with instants := s.instants + 1 } :=
  ⟨⟨h.core.lawful, h.core.bound, h.core.counted, h.core.within⟩, h.told, h.log_eq⟩

/-! ## Primitive methods -/

section Primitive

variable {P : GatewayState → Prop} {R : GatewayError → GatewayState → Prop}

theorem triple_monotonic {Q : ℚ → GatewayState → Prop}
    (h : ∀ s, P s → Q (E.clock.read s.instants) { s with instants := s.instants + 1 }) : Triple P (monotonic E) Q R := fun s hs => h s hs

theorem triple_record {Q : Unit → GatewayState → Prop} {event : GatewayEvent}
    (h : ∀ s, P s → Q () { s with log := s.log ++ [event] }) : Triple P (record event) Q R := fun s hs => h s hs

theorem triple_budgetOf {Q : CallBudget → GatewayState → Prop} (h : ∀ s, P s → Q (s.budgets budget) s) :
    Triple P (budgetOf budget) Q R := fun s hs => h s hs

theorem triple_setBudget {Q : Unit → GatewayState → Prop} {value : CallBudget}
    (h : ∀ s, P s → Q () { s with budgets := Function.update s.budgets budget value }) : Triple P (setBudget budget value) Q R :=
  fun s hs => h s hs

theorem triple_setCircuit {Q : Unit → GatewayState → Prop} {provider : String} {circuit : Circuit}
    (h : ∀ s, P s → Q () { s with circuits := s.circuits.set provider circuit }) :
    Triple P (modify fun s => { s with circuits := s.circuits.set provider circuit } : GatewayM Unit) Q R := fun s hs => h s hs

theorem triple_orRaise {α : Type} {Q : α → GatewayState → Prop} {x : Except GatewayError α}
    (hok : ∀ a, x = .ok a → ∀ s, P s → Q a s) (herror : ∀ e, x = .error e → ∀ s, P s → R e s) : Triple P (orRaise x) Q R := by
  cases x with
  | ok a => exact Triple.pure (hok a rfl)
  | error e => exact Triple.throw (herror e rfl)

theorem triple_raiseIf {Q : Unit → GatewayState → Prop} {p : Prop} [Decidable p] {e : GatewayError} (hnot : ¬p → ∀ s, P s → Q () s)
    (hp : p → ∀ s, P s → R e s) : Triple P (raiseIf p e) Q R := by
  unfold raiseIf
  split
  · rename_i h
    exact Triple.throw (hp h)
  · rename_i h
    exact Triple.pure (hnot h)

end Primitive

/-! ## Circuits, opened and closed -/

variable {log events : List GatewayEvent}

variable {s : GatewayState}

theorem circuitAt_setDefault {provider : String} (h : s.circuits.get? provider = none) (other : String) :
    GatewayState.circuitAt { s with circuits := s.circuits.set provider {} } other = s.circuitAt other := by
  by_cases hne : provider = other
  · subst hne
    rw [circuitAt_set_self]
    unfold GatewayState.circuitAt
    rw [h]
    rfl
  · exact circuitAt_set_of_ne s {} hne

/-- The circuit of a provider is read, and no circuit is changed. -/
theorem triple_circuitOf {P : GatewayState → Prop} {R : GatewayError → GatewayState → Prop} {provider : String}
    (hP : ∀ s circuits, P s → (∀ other, GatewayState.circuitAt { s with circuits := circuits } other = s.circuitAt other) →
      P { s with circuits := circuits }) :
    Triple P (circuitOf provider) (fun circuit s => P s ∧ circuit = s.circuitAt provider) R := by
  intro s hs
  unfold circuitOf
  cases hget : s.circuits.get? provider with
  | some circuit =>
    have hrun : EStateM.run (circuitOf provider) s = .ok circuit s := by
      unfold circuitOf
      simp only [EStateM.run_bind, EStateM.run_get, hget, EStateM.run_pure]
    unfold circuitOf at hrun
    rw [hrun]
    refine ⟨hs, ?_⟩
    unfold GatewayState.circuitAt
    rw [hget]
    rfl
  | none =>
    have hrun : EStateM.run (circuitOf provider) s = .ok {} { s with circuits := s.circuits.set provider {} } := by
      unfold circuitOf
      simp only [EStateM.run_bind, EStateM.run_get, hget, EStateM.run_modify, EStateM.run_pure]
    unfold circuitOf at hrun
    rw [hrun]
    exact ⟨hP s _ hs (circuitAt_setDefault hget), (circuitAt_set_self s provider {}).symm⟩

theorem Reached.circuits {circuits : Dict String Circuit} (h : Reached maxAttempts log events s)
    (hsame : ∀ other, GatewayState.circuitAt { s with circuits := circuits } other = s.circuitAt other) :
    Reached maxAttempts log events { s with circuits := circuits } :=
  ⟨⟨h.core.lawful, h.core.bound, h.core.counted, h.core.within⟩, fun provider => by rw [hsame]; exact h.told provider, h.log_eq⟩

/-- The circuit of a provider is closed at every instant from the next on. -/
def Passed (E : Environment) (provider : String) (s : GatewayState) : Prop :=
  ∀ n, s.instants ≤ n → ¬CircuitOpen provider s.log (E.clock.read n)

/-- What is raised is no unavailability. -/
def Other (e : GatewayError) : Prop := ∀ failure, e ≠ .providerUnavailable failure

theorem triple_refuseOpen (provider : String) :
    Triple (Reached maxAttempts log events) (refuseOpen E provider) (fun _ s => Reached maxAttempts log events s ∧ Passed E provider s)
      (fun e s => (∃ failure, e = .providerUnavailable failure) ∧ Reached maxAttempts log events s) := by
  refine Triple.bind (triple_circuitOf fun s circuits h hsame => h.circuits hsame) fun circuit => ?_
  cases hopened : circuit.openedAt with
  | none =>
    refine Triple.pure ?_
    rintro s ⟨h, rfl⟩
    refine ⟨h, fun n _ hopen => ?_⟩
    have := (h.told provider).closed hopened
    have := hopen.1
    omega
  | some opened =>
    refine Triple.bind (Q := fun now s => Reached maxAttempts log events s ∧ circuit = s.circuitAt provider ∧
      ∀ n, s.instants ≤ n → now ≤ E.clock.read n) (triple_monotonic ?_) fun now => triple_raiseIf ?_ ?_
    · rintro s ⟨h, hcircuit⟩
      refine ⟨h.tick, hcircuit, fun n hn => E.clock.mono ?_⟩
      change s.instants + 1 ≤ n at hn
      omega
    · rintro hnow s ⟨h, hcircuit, hlater⟩
      refine ⟨h, fun n hn hopen => ?_⟩
      obtain ⟨-, time, htime, hle⟩ := (h.told provider).opened opened (hcircuit ▸ hopened)
      obtain ⟨-, time', htime', hlt⟩ := hopen
      obtain rfl : time = time' := Option.some.inj (htime.symm.trans htime')
      have := hlater n hn
      linarith
    · rintro - s ⟨h, -⟩
      exact ⟨⟨_, rfl⟩, h⟩

/-! ## A call to a provider -/

theorem Reached.complete {call : ProviderCall} (h : Reached maxAttempts log events s)
    (hclosed : ¬CircuitOpen call.target.provider s.log call.time) (hcounted : callsOn call.budget s.log + 1 ≤ call.attempts)
    (hwithin : call.attempts ≤ maxAttempts call.budget) (hattempts : call.attempts ≤ (s.budgets call.budget).attempts) :
    Reached maxAttempts log (events ++ [GatewayEvent.complete call]) { s with log := s.log ++ [GatewayEvent.complete call] } := by
  have hcalls : ∀ b, callsOn b (s.log ++ [GatewayEvent.complete call]) = callsOn b s.log + if call.budget = b then 1 else 0 := by
    intro b
    rw [callsOn_append]
    by_cases hb : call.budget = b
    · subst hb
      simp [callsOn, providerCalls]
    · simp [callsOn, providerCalls, hb]
  have hb : ∀ b, callsOn b s.log + (if call.budget = b then 1 else 0) ≤ (s.budgets b).attempts ∧
      callsOn b s.log + (if call.budget = b then 1 else 0) ≤ maxAttempts b := by
    intro b
    split
    · rename_i heq
      subst heq
      omega
    · exact ⟨h.core.counted b, h.core.within b⟩
  refine ⟨⟨h.core.lawful.snoc ?_, h.core.bound, fun b => ?_, fun b => ?_⟩, fun provider => ?_, ?_⟩
  · rintro other heq
    cases heq
    exact ⟨hclosed, hcounted, hwithin⟩
  · change callsOn b (s.log ++ [GatewayEvent.complete call]) ≤ _
    rw [hcalls]
    exact (hb b).1
  · change callsOn b (s.log ++ [GatewayEvent.complete call]) ≤ _
    rw [hcalls]
    exact (hb b).2
  · change Agrees (s.circuitAt provider) (standingOf provider (s.log ++ [GatewayEvent.complete call]))
    rw [standingOf_append_singleton]
    exact h.told provider
  · change s.log ++ [GatewayEvent.complete call] = _
    rw [h.log_eq, List.append_assoc]

/-- A call of a target on a budget. -/
def ProviderCall.On (call : ProviderCall) (budget : Nat) (target : ModelTarget) : Prop := call.budget = budget ∧ call.target = target

/-- A state in which a call to a provider may be made. -/
structure Ready (E : Environment) (maxAttempts : Nat → Nat) (log events : List GatewayEvent) (budget : Nat) (provider : String)
    (s : GatewayState) : Prop where
  reached : Reached maxAttempts log events s
  passed : Passed E provider s
  counted : callsOn budget s.log + 1 ≤ (s.budgets budget).attempts
  within : (s.budgets budget).attempts ≤ maxAttempts budget

/-- After an answer the log has it, and only the circuit of the provider is not told of it yet. -/
structure JustAnswered (maxAttempts : Nat → Nat) (log events : List GatewayEvent) (answer : Answer) (s : GatewayState) : Prop where
  core : Core maxAttempts s
  told : ToldBut answer.target.provider s
  log_eq : s.log = log ++ (events ++ [GatewayEvent.answered answer])

theorem after_answered_of_ne {provider : String} {answer : Answer} (h : answer.target.provider ≠ provider) (standing : Standing) :
    standing.after provider (.answered answer) = standing := if_neg h

theorem Reached.answered {answer : Answer} (h : Reached maxAttempts log events s) :
    JustAnswered maxAttempts log events answer { s with log := s.log ++ [GatewayEvent.answered answer] } := by
  refine ⟨h.core.record (fun call hcall => by cases hcall), fun provider hne => ?_, ?_⟩
  · change Agrees (s.circuitAt provider) (standingOf provider (s.log ++ [GatewayEvent.answered answer]))
    rw [standingOf_append_singleton, after_answered_of_ne hne]
    exact h.told provider
  · change s.log ++ [GatewayEvent.answered answer] = _
    rw [h.log_eq, List.append_assoc]

/-- What a call to a provider ends with: an answer, or an error after the call. -/
theorem triple_complete (timeoutMs remainingTokens : Int) :
    Triple (Ready E maxAttempts log events budget target.provider) (complete E budget target request timeoutMs remainingTokens)
      (fun response s => ∃ call : ProviderCall, call.On budget target ∧
        JustAnswered maxAttempts log (events ++ [GatewayEvent.complete call]) ⟨target, response⟩ s)
      (fun e s => ∃ call : ProviderCall, call.On budget target ∧ Reached maxAttempts log (events ++ [GatewayEvent.complete call]) s ∧
        (e = .raised ∨ ∃ failure, e = .providerUnavailable failure)) := by
  unfold complete
  refine Triple.bind (Q := fun time s => Ready E maxAttempts log events budget target.provider s ∧
    ¬CircuitOpen target.provider s.log time) (triple_monotonic ?_) fun time => ?_
  · intro s h
    exact ⟨⟨h.reached.tick, fun n hn => h.passed n (Nat.le_of_succ_le hn), h.counted, h.within⟩, h.passed _ le_rfl⟩
  refine Triple.bind (Q := fun b s => (Ready E maxAttempts log events budget target.provider s ∧
    ¬CircuitOpen target.provider s.log time) ∧ b = s.budgets budget) (triple_budgetOf fun s hs => ⟨hs, rfl⟩) fun b => ?_
  refine Triple.bind (Q := fun _ s => ∃ call : ProviderCall, call.On budget target ∧
    Reached maxAttempts log (events ++ [GatewayEvent.complete call]) s) (triple_record ?_) fun _ => ?_
  · rintro s ⟨⟨h, hclosed⟩, rfl⟩
    exact ⟨_, ⟨rfl, rfl⟩, h.reached.complete hclosed h.counted h.within le_rfl⟩
  refine Triple.bind (Q := fun current s => current = s ∧ ∃ call : ProviderCall, call.On budget target ∧
    Reached maxAttempts log (events ++ [GatewayEvent.complete call]) s) (fun s hs => ⟨rfl, hs⟩) fun current => ?_
  refine Triple.bind (Q := fun _ s => ∃ call : ProviderCall, call.On budget target ∧
    Reached maxAttempts log (events ++ [GatewayEvent.complete call]) s) ?_ fun _ => ?_
  · rintro s ⟨rfl, call, hon, h⟩
    exact ⟨call, hon, ⟨h.core.lawful, h.core.bound, h.core.counted, h.core.within⟩, h.told, h.log_eq⟩
  cases E.complete current.completions ⟨target.provider, target.model, request.messages, timeoutMs, remainingTokens, request.toolSchema⟩ with
  | answered response =>
    refine Triple.bind (Q := fun _ s => ∃ call : ProviderCall, call.On budget target ∧
      JustAnswered maxAttempts log (events ++ [GatewayEvent.complete call]) ⟨target, response⟩ s) (triple_record ?_) fun _ => Triple.pure fun _ h => h
    rintro s ⟨call, hon, h⟩
    exact ⟨call, hon, h.answered⟩
  | unavailable failure =>
    refine Triple.throw ?_
    rintro s ⟨call, hon, h⟩
    exact ⟨call, hon, h, .inr ⟨failure, rfl⟩⟩
  | raised =>
    refine Triple.throw ?_
    rintro s ⟨call, hon, h⟩
    exact ⟨call, hon, h, .inl rfl⟩

/-! ## One target -/

/-- A method that begins an attempt counts it, within the bound. -/
theorem beginAttempt_ok {b begun : CallBudget} (h : b.beginAttempt = .ok begun) :
    begun.attempts = b.attempts + 1 ∧ begun.maxAttempts = b.maxAttempts ∧ begun.attempts ≤ begun.maxAttempts := by
  unfold CallBudget.beginAttempt at h
  split at h
  · nomatch h
  · rename_i hlt
    obtain rfl := Except.ok.inj h
    exact ⟨rfl, rfl, Nat.lt_of_not_le hlt⟩

theorem beginAttempt_error {b : CallBudget} {e : GatewayError} (h : b.beginAttempt = .error e) : Other e := by
  unfold CallBudget.beginAttempt at h
  split at h
  · cases h
    exact fun _ h => nomatch h
  · nomatch h

/-- Writing a budget whose attempts are no fewer. -/
theorem Reached.setBudget {value : CallBudget} (h : Reached maxAttempts log events s)
    (hbound : value.maxAttempts = (s.budgets budget).maxAttempts) (hattempts : (s.budgets budget).attempts ≤ value.attempts) :
    Reached maxAttempts log events { s with budgets := Function.update s.budgets budget value } := by
  have hb : ∀ b, (Function.update s.budgets budget value b).maxAttempts = (s.budgets b).maxAttempts ∧
      (s.budgets b).attempts ≤ (Function.update s.budgets budget value b).attempts := by
    intro b
    by_cases heq : b = budget
    · subst heq
      rw [Function.update_self]
      exact ⟨hbound, hattempts⟩
    · rw [Function.update_of_ne heq]
      exact ⟨rfl, le_rfl⟩
  exact ⟨⟨h.core.lawful, fun b => (hb b).1.trans (h.core.bound b), fun b => (h.core.counted b).trans (hb b).2, h.core.within⟩,
    h.told, h.log_eq⟩

/-- What the body of the `try` raises: before the call, for want of the provider, or after the call. -/
def AttemptFailed (maxAttempts : Nat → Nat) (log events : List GatewayEvent) (budget : Nat) (target : ModelTarget) (e : GatewayError)
    (s : GatewayState) : Prop :=
  (Reached maxAttempts log events s ∧ (Other e ∨ ∃ failure, e = .providerUnavailable failure ∧ failure.retryable = false)) ∨
    ∃ call : ProviderCall, call.On budget target ∧ Reached maxAttempts log (events ++ [GatewayEvent.complete call]) s ∧
      (e = .raised ∨ ∃ failure, e = .providerUnavailable failure)

theorem triple_attempt (timeoutMs : Int) :
    Triple (fun s => Reached maxAttempts log events s ∧ Passed E target.provider s) (attempt G E budget target request timeoutMs)
      (fun response s => ∃ call : ProviderCall, call.On budget target ∧
        JustAnswered maxAttempts log (events ++ [GatewayEvent.complete call]) ⟨target, response⟩ s)
      (AttemptFailed maxAttempts log events budget target) := by
  unfold attempt
  refine Triple.bind (Q := fun b s => (Reached maxAttempts log events s ∧ Passed E target.provider s) ∧ b = s.budgets budget)
    (triple_budgetOf fun s hs => ⟨hs, rfl⟩) fun b => ?_
  refine Triple.bind (Q := fun _ s => (Reached maxAttempts log events s ∧ Passed E target.provider s) ∧ b = s.budgets budget)
    (triple_raiseIf (fun _ s hs => hs) fun _ s hs => .inl ⟨hs.1.1, .inl fun _ h => nomatch h⟩) fun _ => ?_
  refine Triple.bind (Q := fun begun s => (Reached maxAttempts log events s ∧ Passed E target.provider s) ∧
    b.beginAttempt = .ok begun ∧ b = s.budgets budget) (triple_orRaise (fun _ hok s hs => ⟨hs.1, hok, hs.2⟩)
      fun e he s hs => .inl ⟨hs.1.1, .inl (beginAttempt_error he)⟩) fun begun => ?_
  refine Triple.bind (Q := fun _ => Ready E maxAttempts log events budget target.provider) (triple_setBudget ?_) fun _ => ?_
  · rintro s ⟨⟨h, hpassed⟩, hbegun, rfl⟩
    obtain ⟨hattempts, hbound, hle⟩ := beginAttempt_ok hbegun
    refine ⟨h.setBudget hbound (by omega), hpassed, ?_, ?_⟩
    · change callsOn budget s.log + 1 ≤ (Function.update s.budgets budget begun budget).attempts
      rw [Function.update_self]
      have := h.core.counted budget
      omega
    · change (Function.update s.budgets budget begun budget).attempts ≤ _
      rw [Function.update_self, ← h.core.bound budget]
      omega
  refine Triple.bind (Q := fun _ => Ready E maxAttempts log events budget target.provider) (triple_raiseIf (fun _ s hs => hs)
    fun _ s hs => .inl ⟨hs.reached, .inr ⟨_, rfl, rfl⟩⟩) fun _ => ?_
  exact (triple_complete timeoutMs _).weaken (fun _ h => h) (fun _ _ h => h) fun _ _ h => .inr h

theorem after_failed (provider : String) (failure : ModelFailure) (time : ℚ) (standing : Standing) :
    standing.after provider (.failed provider failure time) = ⟨standing.failures + 1, some time⟩ := if_pos rfl

theorem after_failed_of_ne {provider other : String} (h : provider ≠ other) (failure : ModelFailure) (time : ℚ) (standing : Standing) :
    standing.after other (.failed provider failure time) = standing := if_neg h

/-- A failure that the log has and the circuit of its provider is not told of yet. -/
structure JustFailed (maxAttempts : Nat → Nat) (log events : List GatewayEvent) (provider : String) (failure : ModelFailure) (time : ℚ)
    (s : GatewayState) : Prop where
  core : Core maxAttempts s
  told : ToldBut provider s
  behind : ∃ standing, Agrees (s.circuitAt provider) standing ∧ standingOf provider s.log = ⟨standing.failures + 1, some time⟩
  log_eq : s.log = log ++ (events ++ [GatewayEvent.failed provider failure time])

theorem Reached.failed {provider : String} {failure : ModelFailure} {time : ℚ} (h : Reached maxAttempts log events s) :
    JustFailed maxAttempts log events provider failure time { s with log := s.log ++ [GatewayEvent.failed provider failure time] } := by
  refine ⟨h.core.record (fun call hcall => by cases hcall), fun other hne => ?_, ⟨standingOf provider s.log, h.told provider, ?_⟩, ?_⟩
  · change Agrees (s.circuitAt other) (standingOf other (s.log ++ [GatewayEvent.failed provider failure time]))
    rw [standingOf_append_singleton, after_failed_of_ne hne]
    exact h.told other
  · change standingOf provider (s.log ++ [GatewayEvent.failed provider failure time]) = _
    rw [standingOf_append_singleton, after_failed]
  · change s.log ++ [GatewayEvent.failed provider failure time] = _
    rw [h.log_eq, List.append_assoc]

theorem JustFailed.circuits {provider : String} {failure : ModelFailure} {time : ℚ} {circuits : Dict String Circuit}
    (h : JustFailed maxAttempts log events provider failure time s)
    (hsame : ∀ other, GatewayState.circuitAt { s with circuits := circuits } other = s.circuitAt other) :
    JustFailed maxAttempts log events provider failure time { s with circuits := circuits } :=
  ⟨⟨h.core.lawful, h.core.bound, h.core.counted, h.core.within⟩, fun other hne => by rw [hsame]; exact h.told other hne,
    by rw [hsame]; exact h.behind, h.log_eq⟩

/-- The circuit is told of the failure. -/
theorem JustFailed.tell {provider : String} {failure : ModelFailure} {time : ℚ} {openedAt : Option ℚ}
    (h : JustFailed maxAttempts log events provider failure time s)
    (hopened : ∀ opened, openedAt = some opened → 3 ≤ (s.circuitAt provider).failures + 1 ∧ time ≤ opened)
    (hclosed : openedAt = none → (s.circuitAt provider).failures + 1 < 3) :
    Reached maxAttempts log (events ++ [GatewayEvent.failed provider failure time])
      { s with circuits := s.circuits.set provider ⟨(s.circuitAt provider).failures + 1, openedAt⟩ } := by
  refine ⟨⟨h.core.lawful, h.core.bound, h.core.counted, h.core.within⟩, fun other => ?_, h.log_eq⟩
  by_cases hne : provider = other
  · subst hne
    obtain ⟨standing, hagrees, heq⟩ := h.behind
    rw [circuitAt_set_self]
    change Agrees _ (standingOf provider s.log)
    rw [heq]
    rw [hagrees.failures] at hopened hclosed ⊢
    exact ⟨rfl, fun opened ho => ⟨(hopened opened ho).1, time, rfl, (hopened opened ho).2⟩, hclosed⟩
  · rw [circuitAt_set_of_ne _ _ hne]
    exact h.told other hne

/-- A circuit of a provider with fewer than two failures has not been opened. -/
theorem JustFailed.unopened {provider : String} {failure : ModelFailure} {time opened : ℚ}
    (h : JustFailed maxAttempts log events provider failure time s) (hfew : ¬3 ≤ (s.circuitAt provider).failures + 1) :
    (s.circuitAt provider).openedAt ≠ some opened := by
  obtain ⟨standing, hagrees, -⟩ := h.behind
  intro hopened
  have := (hagrees.opened opened hopened).1
  rw [hagrees.failures] at hfew
  omega

/-- The handler records the failure, tells the circuit and raises it again. -/
theorem triple_onUnavailable (provider : String) (failure : ModelFailure) :
    Triple (Reached maxAttempts log events) (onUnavailable E provider (.providerUnavailable failure)) (fun _ _ => False)
      (fun e s => e = .providerUnavailable failure ∧ ∃ time, Reached maxAttempts log (events ++ [GatewayEvent.failed provider failure time]) s) := by
  unfold onUnavailable
  refine Triple.bind (Q := fun time s => Reached maxAttempts log events s ∧ time ≤ E.clock.read s.instants) (triple_monotonic ?_)
    fun time => ?_
  · intro s h
    exact ⟨h.tick, E.clock.mono (Nat.le_succ _)⟩
  refine Triple.bind (Q := fun _ s => JustFailed maxAttempts log events provider failure time s ∧ time ≤ E.clock.read s.instants)
    (triple_record fun s hs => ⟨hs.1.failed, hs.2⟩) fun _ => ?_
  refine Triple.bind (triple_circuitOf fun s circuits hs hsame => ⟨hs.1.circuits hsame, hs.2⟩) fun circuit => ?_
  refine Triple.bind (Q := fun _ s => ∃ time, Reached maxAttempts log (events ++ [GatewayEvent.failed provider failure time]) s) ?_
    fun _ => Triple.throw fun s hs => ⟨rfl, hs⟩
  unfold countFailure
  by_cases hfailures : 3 ≤ circuit.failures + 1
  · rw [if_pos hfailures]
    refine Triple.bind (Q := fun opened s => (JustFailed maxAttempts log events provider failure time s ∧
      circuit = s.circuitAt provider) ∧ time ≤ opened) (triple_monotonic ?_) fun opened => triple_setCircuit ?_
    · rintro s ⟨⟨h, htime⟩, hcircuit⟩
      exact ⟨⟨⟨⟨h.core.lawful, h.core.bound, h.core.counted, h.core.within⟩, h.told, h.behind, h.log_eq⟩, hcircuit⟩, htime⟩
    · rintro s ⟨⟨h, rfl⟩, htime⟩
      refine ⟨time, h.tell (fun o ho => ?_) nofun⟩
      obtain rfl := Option.some.inj ho
      exact ⟨hfailures, htime⟩
  · rw [if_neg hfailures]
    refine triple_setCircuit ?_
    rintro s ⟨⟨h, -⟩, rfl⟩
    exact ⟨time, h.tell (fun o ho => absurd ho (h.unopened hfailures)) fun _ => Nat.lt_of_not_le hfailures⟩

/-- What a target that did not answer did, and what was raised. -/
inductive TargetFailed (G : ModelGateway) (E : Environment) (budget : Nat) (target : ModelTarget) (request : ModelRequest) :
    List GatewayEvent → GatewayError → Prop where
  | refused {e : GatewayError} (h : Other e) : TargetFailed G E budget target request [] e
  | open {failure : ModelFailure} (hp : Permitted G E target request) :
    TargetFailed G E budget target request [] (.providerUnavailable failure)
  | unconfigured {failure : ModelFailure} {time : ℚ} (hp : Permitted G E target request) (h : failure.retryable = false) :
    TargetFailed G E budget target request [.failed target.provider failure time] (.providerUnavailable failure)
  | unavailable {call : ProviderCall} {failure : ModelFailure} {time : ℚ} (hp : Permitted G E target request)
    (h : call.On budget target) :
    TargetFailed G E budget target request [.complete call, .failed target.provider failure time] (.providerUnavailable failure)
  | raised {call : ProviderCall} (hp : Permitted G E target request) (h : call.On budget target) :
    TargetFailed G E budget target request [.complete call] .raised

theorem decision_error {policy : ModelInputPolicy} {outcome : EgressOutcome} {reason : Option String} {categories : List String}
    {e : GatewayError} (h : policy.decision E target request outcome reason categories = .error e) : Other e := by
  unfold ModelInputPolicy.decision at h
  split at h
  · nomatch h
  · cases h
    exact fun _ h => nomatch h

/-- The policy decides, or refuses with an error that is no unavailability. -/
theorem evaluate_error {policy : ModelInputPolicy} {e : GatewayError} (h : policy.evaluate E target request = .error e) : Other e := by
  unfold ModelInputPolicy.evaluate at h
  simp only at h
  split at h
  · exact decision_error h
  · split at h
    · exact decision_error h
    · exact decision_error h

/-- After an answer the circuit of its provider is closed. -/
theorem JustAnswered.close {answer : Answer} (h : JustAnswered maxAttempts log events answer s) :
    Reached maxAttempts log (events ++ [GatewayEvent.answered answer]) { s with circuits := s.circuits.set answer.target.provider {} } := by
  refine ⟨⟨h.core.lawful, h.core.bound, h.core.counted, h.core.within⟩, fun provider => ?_, h.log_eq⟩
  by_cases hne : answer.target.provider = provider
  · subst hne
    rw [circuitAt_set_self]
    change Agrees {} (standingOf answer.target.provider s.log)
    have hstanding : standingOf answer.target.provider s.log = {} := by
      rw [h.log_eq, ← List.append_assoc, standingOf_append_singleton]
      exact if_pos rfl
    rw [hstanding]
    exact ⟨rfl, nofun, fun _ => (by decide : 0 < 3)⟩
  · rw [circuitAt_set_of_ne _ _ hne]
    exact h.told provider hne

theorem other_or_unavailable (e : GatewayError) : Other e ∨ ∃ failure, e = .providerUnavailable failure := by
  cases e with
  | providerUnavailable failure => exact .inr ⟨failure, rfl⟩
  | _ => exact .inl fun _ h => nomatch h

theorem onUnavailable_other {provider : String} {e : GatewayError} (h : Other e) : onUnavailable E provider e = throw e := by
  cases e with
  | providerUnavailable failure => exact absurd rfl (h failure)
  | _ => rfl

/-- What the `try` of `_invoke_target` ends with. -/
theorem triple_tried (hp : Permitted G E target request) (timeoutMs : Int) :
    Triple (fun s => Reached maxAttempts log events s ∧ Passed E target.provider s)
      (tryCatch (attempt G E budget target request timeoutMs) (onUnavailable E target.provider))
      (fun response s => ∃ call : ProviderCall, call.On budget target ∧
        JustAnswered maxAttempts log (events ++ [GatewayEvent.complete call]) ⟨target, response⟩ s)
      (fun e s => ∃ added, TargetFailed G E budget target request added e ∧ Reached maxAttempts log (events ++ added) s) := by
  refine Triple.tryCatch (triple_attempt timeoutMs) fun e => ?_
  rcases other_or_unavailable e with hother | ⟨failure, rfl⟩
  · rw [onUnavailable_other hother]
    refine Triple.throw ?_
    rintro s (⟨h, -⟩ | ⟨call, hon, h, rfl | ⟨failure, rfl⟩⟩)
    · exact ⟨[], .refused hother, by rw [List.append_nil]; exact h⟩
    · exact ⟨_, .raised hp hon, h⟩
    · exact absurd rfl (hother failure)
  · intro s hs
    rcases hs with ⟨h, hother | ⟨f, hf, hretry⟩⟩ | ⟨call, hon, h, -⟩
    · exact absurd rfl (hother failure)
    · obtain rfl := GatewayError.providerUnavailable.inj hf
      refine ((triple_onUnavailable target.provider failure).weaken (fun _ h => h) (fun _ _ h => h.elim) ?_) s h
      rintro e s' ⟨rfl, time, h'⟩
      exact ⟨_, .unconfigured hp hretry, h'⟩
    · refine ((triple_onUnavailable target.provider failure).weaken (fun _ h => h) (fun _ _ h => h.elim) ?_) s h
      rintro e s' ⟨rfl, time, h'⟩
      rw [List.append_assoc] at h'
      exact ⟨_, .unavailable hp hon, h'⟩

/-- What a target that may be sent the data ends with. -/
theorem triple_invokeTarget (hdata : request.dataClassification ∈ target.allowedDataClassifications) :
    Triple (Reached maxAttempts log events) (invokeTarget G E budget target request)
      (fun a s => Permitted G E target request ∧ ∃ call : ProviderCall, call.On budget target ∧
        Reached maxAttempts log (events ++ [GatewayEvent.complete call, .answered ⟨target, a.1⟩]) s)
      (fun e s => ∃ added, TargetFailed G E budget target request added e ∧ Reached maxAttempts log (events ++ added) s) := by
  have hnone : ∀ {s e}, Reached maxAttempts log events s → TargetFailed G E budget target request [] e →
      ∃ added, TargetFailed G E budget target request added e ∧ Reached maxAttempts log (events ++ added) s := by
    intro s e h hfailed
    exact ⟨[], hfailed, by rw [List.append_nil]; exact h⟩
  unfold invokeTarget
  refine Triple.bind (Q := fun decision s => G.inputPolicy.evaluate E target request = .ok decision ∧ Reached maxAttempts log events s)
    (triple_orRaise (fun _ hok _ hs => ⟨hok, hs⟩) fun _ herror _ hs => hnone hs (.refused (evaluate_error herror))) fun decision => ?_
  refine Triple.bind (Q := fun _ s => Permitted G E target request ∧ Reached maxAttempts log events s) (triple_raiseIf ?_ ?_) fun _ => ?_
  · rintro hallow s ⟨hdecision, h⟩
    refine ⟨⟨hdata, decision, hdecision, ?_⟩, h⟩
    cases houtcome : decision.outcome with
    | allow => rfl
    | deny => exact absurd houtcome hallow
  · rintro - s ⟨-, h⟩
    exact hnone h (.refused fun _ h => nomatch h)
  refine Triple.of_fact fun hp => ?_
  refine Triple.bind ((triple_refuseOpen target.provider).weaken (fun _ h => h) (fun _ _ h => h) ?_) fun _ => ?_
  · rintro e s ⟨⟨failure, rfl⟩, h⟩
    exact hnone h (.open hp)
  refine Triple.bind (Q := fun _ s => Reached maxAttempts log events s ∧ Passed E target.provider s) (triple_monotonic ?_) fun now => ?_
  · rintro s ⟨h, hpassed⟩
    exact ⟨h.tick, fun n hn => hpassed n (Nat.le_of_succ_le hn)⟩
  refine Triple.bind (Q := fun _ s => Reached maxAttempts log events s ∧ Passed E target.provider s) (triple_budgetOf fun s hs => hs)
    fun b => ?_
  refine Triple.bind (Q := fun _ s => Reached maxAttempts log events s ∧ Passed E target.provider s)
    (triple_raiseIf (fun _ s hs => hs) fun _ s hs => hnone hs.1 (.refused fun _ h => nomatch h)) fun _ => ?_
  refine Triple.bind (triple_tried hp _) fun response => ?_
  refine Triple.bind (Q := fun _ s => ∃ call : ProviderCall, call.On budget target ∧
    Reached maxAttempts log (events ++ [GatewayEvent.complete call, .answered ⟨target, response⟩]) s) (triple_setCircuit ?_)
    fun _ => Triple.pure fun s hs => ⟨hp, hs⟩
  rintro s ⟨call, hon, h⟩
  have hclose := h.close
  rw [List.append_assoc] at hclose
  exact ⟨call, hon, hclose⟩

/-! ## An invocation -/

/-- What was done before a target was tried: nothing before the primary, and before the fallback a primary that was unavailable in a
retryable way, and the turn. -/
inductive Turned (G : ModelGateway) (E : Environment) (budget : Nat) (profile : ModelProfile) (request : ModelRequest) :
    List GatewayEvent → ModelTarget → Prop where
  | primary : Turned G E budget profile request [] profile.primary
  | fallback {target : ModelTarget} {failure : ModelFailure} {events : List GatewayEvent}
    (hfallback : profile.fallback = some target) (hretry : failure.retryable = true)
    (hfailed : TargetFailed G E budget profile.primary request events (.providerUnavailable failure)) :
    Turned G E budget profile request (events ++ [GatewayEvent.fallback target]) target

/-- What is charged for an answer: its usage where its cost is a float. -/
def Charged (budget : Nat) (answer : Answer) (events : List GatewayEvent) : Prop :=
  (∃ price, cost answer.target answer.response.inputTokens answer.response.outputTokens = .ok price ∧
      events = [GatewayEvent.charge ⟨budget, answer.response.inputTokens, answer.response.outputTokens, price⟩]) ∨
    cost answer.target answer.response.inputTokens answer.response.outputTokens = .error .overflowError ∧ events = []

/-- What an invocation does. -/
inductive Shape (G : ModelGateway) (E : Environment) (budget : Nat) (profile : ModelProfile) (request : ModelRequest) :
    List GatewayEvent → Prop where
  | refused : Shape G E budget profile request []
  | failed {turned events : List GatewayEvent} {target : ModelTarget} {e : GatewayError}
    (hturned : Turned G E budget profile request turned target) (hfailed : TargetFailed G E budget target request events e) :
    Shape G E budget profile request (turned ++ events)
  | answered {turned charged : List GatewayEvent} {target : ModelTarget} {call : ProviderCall} {response : ProviderResponse}
    (hturned : Turned G E budget profile request turned target) (hp : Permitted G E target request) (hon : call.On budget target)
    (hcharged : Charged budget ⟨target, response⟩ charged) :
    Shape G E budget profile request (turned ++ [GatewayEvent.complete call, .answered ⟨target, response⟩] ++ charged)

theorem enforceTargetPolicy_ok {u : Unit} (h : enforceTargetPolicy target request = .ok u) :
    request.dataClassification ∈ target.allowedDataClassifications := by
  unfold enforceTargetPolicy at h
  split at h
  · nomatch h
  · rename_i hmem
    exact not_not.mp hmem

theorem enforceTargetPolicy_error {e : GatewayError} (h : enforceTargetPolicy target request = .error e) : Other e := by
  unfold enforceTargetPolicy at h
  split_ifs at h
  · cases h
    exact fun _ h => nomatch h
  · cases h
    exact fun _ h => nomatch h
  · cases h
    exact fun _ h => nomatch h

theorem enforcePolicy_ok {profile : ModelProfile} {u : Unit} (h : enforcePolicy profile request = .ok u) :
    request.dataClassification ∈ profile.primary.allowedDataClassifications := by
  unfold enforcePolicy at h
  split at h
  · nomatch h
  · exact enforceTargetPolicy_ok h

/-- What an invocation that got its answer has done. -/
def GotAnswer (G : ModelGateway) (E : Environment) (maxAttempts : Nat → Nat) (log : List GatewayEvent) (budget : Nat)
    (profile : ModelProfile) (request : ModelRequest) (answer : Answer) (s : GatewayState) : Prop :=
  ∃ turned call, Turned G E budget profile request turned answer.target ∧ Permitted G E answer.target request ∧
    ProviderCall.On call budget answer.target ∧ Reached maxAttempts log (turned ++ [GatewayEvent.complete call, .answered answer]) s

/-- What an invocation that got none has done. -/
def GotNone (G : ModelGateway) (E : Environment) (maxAttempts : Nat → Nat) (log : List GatewayEvent) (budget : Nat)
    (profile : ModelProfile) (request : ModelRequest) (s : GatewayState) : Prop :=
  ∃ events, Shape G E budget profile request events ∧ Reached maxAttempts log events s

theorem triple_invokeFallback {profile : ModelProfile} {e : GatewayError} :
    Triple (fun s => ∃ events, TargetFailed G E budget profile.primary request events e ∧ Reached maxAttempts log events s)
      (invokeFallback G E budget profile request e)
      (fun answered s => GotAnswer G E maxAttempts log budget profile request answered.answer s)
      (fun _ s => GotNone G E maxAttempts log budget profile request s) := by
  have hthrow : ∀ {e : GatewayError},
      Triple (fun s => ∃ events, TargetFailed G E budget profile.primary request events e ∧ Reached maxAttempts log events s)
        (throw e : GatewayM Answered) (fun answered s => GotAnswer G E maxAttempts log budget profile request answered.answer s)
        (fun _ s => GotNone G E maxAttempts log budget profile request s) := by
    intro e
    refine Triple.throw ?_
    rintro s ⟨events, hfailed, h⟩
    exact ⟨_, .failed .primary hfailed, h⟩
  unfold invokeFallback
  split
  · rename_i failure
    split
    · rename_i target hfallback hretry
      intro s hs
      obtain ⟨events, hfailed, h⟩ := hs
      have hturned : Turned G E budget profile request (events ++ [GatewayEvent.fallback target]) target := .fallback hfallback hretry hfailed
      refine (Triple.bind (Q := fun _ => Reached maxAttempts log (events ++ [GatewayEvent.fallback target])) (triple_record ?_) fun _ => ?_) s h
      · exact fun s h => h.silent (fun _ _ => rfl) fun call hcall => by cases hcall
      refine Triple.bind (Q := fun _ s => request.dataClassification ∈ target.allowedDataClassifications ∧
        Reached maxAttempts log (events ++ [GatewayEvent.fallback target]) s)
        (triple_orRaise (fun _ hok s hs => ⟨enforceTargetPolicy_ok hok, hs⟩) ?_) fun _ => Triple.of_fact fun hdata => ?_
      · intro e herror s hs
        have hrefused : TargetFailed G E budget target request [] e := .refused (enforceTargetPolicy_error herror)
        refine ⟨_, .failed hturned hrefused, ?_⟩
        rw [List.append_nil]
        exact hs
      refine Triple.bind (Triple.tryCatch (triple_invokeTarget hdata) fun e => Triple.throw ?_) fun a => Triple.pure ?_
      · rintro s ⟨added, hfailed', h'⟩
        exact ⟨_, .failed hturned hfailed', h'⟩
      · rintro s ⟨hp, call, hon, h'⟩
        exact ⟨_, call, hturned, hp, hon, h'⟩
    · exact hthrow
  · exact hthrow

theorem triple_invokeTargets {profile : ModelProfile} (hdata : request.dataClassification ∈ profile.primary.allowedDataClassifications) :
    Triple (Reached maxAttempts log []) (invokeTargets G E budget profile request)
      (fun answered s => GotAnswer G E maxAttempts log budget profile request answered.answer s)
      (fun _ s => GotNone G E maxAttempts log budget profile request s) := by
  unfold invokeTargets
  refine Triple.tryCatch (Triple.bind (triple_invokeTarget hdata) fun a => Triple.pure ?_) fun e => triple_invokeFallback
  rintro s ⟨hp, call, hon, h⟩
  exact ⟨[], call, .primary, hp, hon, h⟩

theorem triple_admitted :
    Triple (Reached maxAttempts log []) (admitted G E budget request)
      (fun profile s => (G.profiles.get? request.modelAlias = some profile ∧
        request.dataClassification ∈ profile.primary.allowedDataClassifications) ∧ Reached maxAttempts log [] s)
      (fun _ s => Reached maxAttempts log [] s) := by
  unfold admitted
  cases hprofile : G.profiles.get? request.modelAlias with
  | none => exact Triple.throw fun s hs => hs
  | some profile =>
    refine Triple.bind (Q := fun _ s => request.dataClassification ∈ profile.primary.allowedDataClassifications ∧
      Reached maxAttempts log [] s) (triple_orRaise (fun _ hok s hs => ⟨enforcePolicy_ok hok, hs⟩) fun _ _ s hs => hs) fun _ =>
      Triple.of_fact fun hdata => ?_
    refine Triple.bind (Q := fun _ => Reached maxAttempts log []) (triple_budgetOf fun s hs => hs) fun b => ?_
    refine Triple.bind (Q := fun _ => Reached maxAttempts log []) (triple_orRaise (fun _ _ s hs => hs) fun _ _ s hs => hs) fun _ => ?_
    refine Triple.bind (Q := fun _ => Reached maxAttempts log []) (triple_monotonic fun s hs => hs.tick) fun now => ?_
    cases b.shouldStop now with
    | some reason => exact Triple.throw fun s hs => hs
    | none =>
      refine Triple.bind (Q := fun _ => Reached maxAttempts log []) (triple_raiseIf (fun _ s hs => hs) fun _ s hs => hs) fun _ => ?_
      refine Triple.bind (Q := fun _ => Reached maxAttempts log []) (triple_monotonic fun s hs => hs.tick) fun _ => ?_
      exact Triple.pure fun s hs => ⟨⟨rfl, hdata⟩, hs⟩

theorem charge_ok {b charged : CallBudget} {inputTokens outputTokens : Int} {price : ℚ}
    (h : b.charge inputTokens outputTokens price = .ok charged) : charged.maxAttempts = b.maxAttempts ∧ charged.attempts = b.attempts := by
  unfold CallBudget.charge at h
  split at h
  · obtain rfl := Except.ok.inj h
    exact ⟨rfl, rfl⟩
  · nomatch h

theorem triple_chargeBudget (inputTokens outputTokens : Int) (price : ℚ) :
    Triple (Reached maxAttempts log events) (chargeBudget budget inputTokens outputTokens price)
      (fun _ => Reached maxAttempts log (events ++ [GatewayEvent.charge ⟨budget, inputTokens, outputTokens, price⟩]))
      (fun _ => Reached maxAttempts log (events ++ [GatewayEvent.charge ⟨budget, inputTokens, outputTokens, price⟩])) := by
  unfold chargeBudget
  refine Triple.bind (Q := fun _ => Reached maxAttempts log (events ++ [GatewayEvent.charge ⟨budget, inputTokens, outputTokens, price⟩]))
    (triple_record ?_) fun _ => ?_
  · exact fun s h => h.silent (fun _ _ => rfl) fun call hcall => by cases hcall
  refine Triple.bind (Q := fun b s => Reached maxAttempts log (events ++ [GatewayEvent.charge ⟨budget, inputTokens, outputTokens, price⟩]) s ∧
    b = s.budgets budget) (triple_budgetOf fun s hs => ⟨hs, rfl⟩) fun b => ?_
  refine Triple.bind (Q := fun charged s => Reached maxAttempts log (events ++ [GatewayEvent.charge ⟨budget, inputTokens, outputTokens, price⟩]) s ∧
    charged.maxAttempts = (s.budgets budget).maxAttempts ∧ charged.attempts = (s.budgets budget).attempts)
    (triple_orRaise ?_ fun _ _ s hs => hs.1) fun charged => triple_setBudget ?_
  · rintro charged hok s ⟨h, rfl⟩
    exact ⟨h, charge_ok hok⟩
  · rintro s ⟨h, hbound, hattempts⟩
    exact h.setBudget hbound (le_of_eq hattempts.symm)

/-- What an invocation did, whether it returned or raised. -/
def InvocationDone (G : ModelGateway) (E : Environment) (maxAttempts : Nat → Nat) (log : List GatewayEvent) (call : InvokeCall)
    (s : GatewayState) : Prop :=
  ∃ events, Reached maxAttempts log events s ∧
    (events = [] ∨ ∃ profile, G.profiles.get? call.request.modelAlias = some profile ∧ Shape G E call.budget profile call.request events)

theorem cost_error {e : GatewayError} {inputTokens outputTokens : Int} (h : cost target inputTokens outputTokens = .error e) :
    e = .overflowError := by
  unfold cost at h
  split at h
  · nomatch h
  · exact (Except.error.inj h).symm

theorem triple_invoke (call : InvokeCall) :
    Triple (Reached maxAttempts log []) (invoke G E call.budget call.request) (fun _ => InvocationDone G E maxAttempts log call)
      (fun _ => InvocationDone G E maxAttempts log call) := by
  unfold invoke
  refine Triple.bind (triple_admitted.weaken (fun _ h => h) (fun _ _ h => h) fun _ s h => ⟨[], h, .inl rfl⟩) fun profile =>
    Triple.of_fact fun ⟨hprofile, hdata⟩ => ?_
  refine Triple.bind ((triple_invokeTargets hdata).weaken (fun _ h => h) (fun _ _ h => h) ?_) fun answered => ?_
  · rintro - s ⟨events, hshape, h⟩
    exact ⟨events, h, .inr ⟨profile, hprofile, hshape⟩⟩
  intro s hs
  obtain ⟨turned, made, hturned, hp, hon, h⟩ := hs
  refine (Triple.bind (Q := fun price s => cost answered.answer.target answered.answer.response.inputTokens
    answered.answer.response.outputTokens = .ok price ∧ Reached maxAttempts log (turned ++ [GatewayEvent.complete made, .answered answered.answer]) s)
    (triple_orRaise (fun _ hok s hs => ⟨hok, hs⟩) ?_) fun price => Triple.of_fact fun hprice => ?_) s h
  · intro e hprice s h
    obtain rfl := cost_error hprice
    have hshape : Shape G E call.budget profile call.request (turned ++ [GatewayEvent.complete made, .answered answered.answer] ++ []) :=
      .answered hturned hp hon (.inr ⟨hprice, rfl⟩)
    rw [List.append_nil] at hshape
    exact ⟨_, h, .inr ⟨profile, hprofile, hshape⟩⟩
  have hshape : Shape G E call.budget profile call.request (turned ++ [GatewayEvent.complete made, .answered answered.answer] ++
      [.charge ⟨call.budget, answered.answer.response.inputTokens, answered.answer.response.outputTokens, price⟩]) :=
    .answered hturned hp hon (.inl ⟨price, hprice, rfl⟩)
  have hdone : ∀ s, Reached maxAttempts log (turned ++ [GatewayEvent.complete made, .answered answered.answer] ++
      [.charge ⟨call.budget, answered.answer.response.inputTokens, answered.answer.response.outputTokens, price⟩]) s →
      InvocationDone G E maxAttempts log call s := fun s h => ⟨_, h, .inr ⟨profile, hprofile, hshape⟩⟩
  refine Triple.bind (Q := fun _ => InvocationDone G E maxAttempts log call) ((triple_chargeBudget _ _ price).weaken (fun _ h => h)
    (fun _ s h => hdone s h) fun _ s h => hdone s h) fun _ => ?_
  refine Triple.bind (Q := fun _ => InvocationDone G E maxAttempts log call) (triple_monotonic ?_) fun _ =>
    triple_orRaise (fun _ _ s hs => hs) fun _ _ s hs => hs
  rintro s ⟨events, h, hdone⟩
  exact ⟨events, h.tick, hdone⟩

/-- An invocation leaves the invariant, and its log is what it did. -/
theorem invoked_done (hcore : Core maxAttempts s) (htold : Told s) (call : InvokeCall) :
    (invoked G E s call).2.call = call ∧ (invoked G E s call).1.log = s.log ++ (invoked G E s call).2.log ∧
      Core maxAttempts (invoked G E s call).1 ∧ Told (invoked G E s call).1 ∧
      ((invoked G E s call).2.log = [] ∨ ∃ profile, G.profiles.get? call.request.modelAlias = some profile ∧
        Shape G E call.budget profile call.request (invoked G E s call).2.log) := by
  have hrun := triple_invoke (G := G) (E := E) call s (⟨hcore, htold, (List.append_nil _).symm⟩ : Reached maxAttempts s.log [] s)
  unfold invoked
  revert hrun
  cases (invoke G E call.budget call.request).run s with
  | ok receipt s' =>
    rintro ⟨events, h, hshape⟩
    simp only [h.log_eq, List.drop_left]
    exact ⟨trivial, trivial, h.core, h.told, hshape⟩
  | error e s' =>
    rintro ⟨events, h, hshape⟩
    simp only [h.log_eq, List.drop_left]
    exact ⟨trivial, trivial, h.core, h.told, hshape⟩

end Nl2Sql.Llm
