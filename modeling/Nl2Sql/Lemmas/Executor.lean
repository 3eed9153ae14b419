import Nl2Sql.Lemmas.Budget
import Nl2Sql.Lemmas.Plan
import Nl2Sql.Plan.Executor

/-!
# Runs of the executor

First the order of the steps, which exists because the plan is a DAG; then what one step writes to the log and to the ledger; then
what a run has done when it ends, by induction over the steps that are left.
-/

namespace Nl2Sql

open Py

/-- A reason that a receipt and a record accept. -/
def FitsReason (reason : String) : Prop := 1 ≤ reason.length ∧ reason.length ≤ 128

/-- An answer of a runner whose error fits a receipt. -/
def BoundedAnswer {α : Type} (good : α → Prop) : Except StepFailure α → Prop
  | .ok a => good a
  | .error (.stepError error) => error.code.length ≤ 128
  | .error (.budgetExceeded message) => FitsReason (strip message)
  | .error _ => True

/-- Runners whose errors fit a receipt: a `PlanStepError` and the taxonomy of a gateway's receipt have at most 128 characters, and a
`BudgetExceeded` has a message of 1 to 128 characters. Nothing is asked of any other exception or of a cancellation. -/
structure PlanRunners.Bounded {D : CalculationDigests} (R : PlanRunners D) : Prop where
  prepare : ∀ calls step queryPlan context, BoundedAnswer (fun _ => True) (R.prepare calls step queryPlan context)
  execute : ∀ calls prepared timeoutMs,
    BoundedAnswer (fun result => ∀ taxonomy ∈ result.receipt.errorTaxonomy, (strip taxonomy).length ≤ 128)
      (R.execute calls prepared timeoutMs)
  trusted : ∀ runner, R.trusted = some runner → ∀ calls step inputs, BoundedAnswer (fun _ => True) (runner calls step inputs)
  adHoc : ∀ runner, R.adHoc = some runner → ∀ calls step inputs, BoundedAnswer (fun _ => True) (runner calls step inputs)
  verify : ∀ calls step inputs, BoundedAnswer (fun _ => True) (R.verify calls step inputs)

namespace ExecutorAux

theorem fitsReason_ofList {cs : List Char} (h : (cs.all (fun c => !isSpace c) && decide (1 ≤ cs.length ∧ cs.length ≤ 128)) = true) :
    FitsReason (strip (String.ofList cs)) := by
  simp only [Bool.and_eq_true, List.all_eq_true, Bool.not_eq_true', decide_eq_true_eq] at h
  rw [strip_of_no_space h.1, FitsReason, String.length_ofList]
  exact h.2

attribute [local irreducible] strip

/-! ## The order of the steps -/

section Order

variable {D : CalculationDigests}

/-- Every dependency of a step stands before it. -/
def Topological (ordered : List (PlanStep D)) : Prop :=
  ∀ before step after, ordered = before ++ step :: after → ∀ d ∈ step.dependsOn, d ∈ before.map (·.stepId)

/-- Steps whose dependencies stand before them may follow. -/
theorem Topological.append {ordered ready : List (PlanStep D)} (h : Topological ordered)
    (hready : ∀ step ∈ ready, ∀ d ∈ step.dependsOn, d ∈ ordered.map (·.stepId)) : Topological (ordered ++ ready) := by
  intro before step after heq d hd
  rcases List.append_eq_append_iff.mp heq with ⟨middle, hbefore, hready'⟩ | ⟨middle, hordered, hmiddle⟩
  · have hmem : step ∈ ready := by
      rw [hready']
      simp
    rw [hbefore, List.map_append]
    exact List.mem_append_left _ (hready step hmem d hd)
  · cases middle with
    | nil =>
      have hmem : step ∈ ready := by
        rw [List.nil_append] at hmiddle
        rw [← hmiddle]
        exact List.mem_cons_self
      rw [List.append_nil] at hordered
      rw [← hordered]
      exact hready step hmem d hd
    | cons step' middle =>
      rw [List.cons_append] at hmiddle
      injection hmiddle with hstep hrest
      subst hstep
      exact h before step middle hordered d hd

theorem mem_readySteps {steps : List (PlanStep D)} {resolved : List PlanStepId} {step : PlanStep D} :
    step ∈ readySteps steps resolved ↔ step ∈ steps ∧ step.stepId ∉ resolved ∧ ∀ d ∈ step.dependsOn, d ∈ resolved := by
  rw [readySteps, List.mem_insertionSort, List.mem_filter, decide_eq_true_eq]

theorem orderedLoop_done {steps ordered : List (PlanStep D)} (h : steps.length ≤ ordered.length) (rounds : Nat)
    (resolved : List PlanStepId) : orderedLoop steps rounds resolved ordered = some ordered := by
  unfold orderedLoop
  rw [if_neg (by omega)]

theorem orderedLoop_round {steps ordered : List (PlanStep D)} (h : ordered.length < steps.length) (rounds : Nat)
    {resolved : List PlanStepId} (hready : readySteps steps resolved ≠ []) :
    orderedLoop steps (rounds + 1) resolved ordered =
      orderedLoop steps rounds (resolved ++ (readySteps steps resolved).map (·.stepId)) (ordered ++ readySteps steps resolved) := by
  rw [orderedLoop, if_pos h]
  split
  · rename_i hnil
    exact absurd hnil hready
  · rfl

/-- The loop of the contract's cycle check and the loop that orders the steps go round together: the steps that are pending in the
one are those not yet ordered in the other, so the second does not raise where the first did not. -/
theorem orderedLoop_of_dagLoop {steps : List (PlanStep D)} (hunique : (steps.map (·.stepId)).Nodup) {rounds : Nat}
    {pending : List (PlanStep D)} {resolved : List PlanStepId} (hdag : dagLoop rounds pending resolved = true)
    {ordered : List (PlanStep D)}
    (hresolved : ∀ d, d ∈ resolved ↔ d ∈ ordered.map (·.stepId))
    (hpending : pending = steps.filter fun step => step.stepId ∉ ordered.map (·.stepId))
    (hperm : (ordered ++ pending).Perm steps) (htop : Topological ordered) :
    ∃ out, orderedLoop steps rounds (ordered.map (·.stepId)) ordered = some out ∧ out.Perm steps ∧ Topological out := by
  induction rounds generalizing pending resolved ordered with
  | zero =>
    cases pending with
    | nil =>
      rw [List.append_nil] at hperm
      exact ⟨ordered, orderedLoop_done (Nat.le_of_eq hperm.length_eq.symm) _ _, hperm, htop⟩
    | cons step rest => cases hdag
  | succ rounds ih =>
    by_cases hnil : pending = []
    · rw [hnil, List.append_nil] at hperm
      exact ⟨ordered, orderedLoop_done (Nat.le_of_eq hperm.length_eq.symm) _ _, hperm, htop⟩
    have hlt : ordered.length < steps.length := by
      have hpos := List.length_pos_iff.mpr hnil
      rw [← hperm.length_eq, List.length_append]
      omega
    obtain ⟨ready, hready⟩ : ∃ ready, ready = pending.filter fun step => step.dependsOn.all (· ∈ resolved) := ⟨_, rfl⟩
    have hround : ready ≠ [] ∧ dagLoop rounds (pending.filter fun step => !step.dependsOn.all (· ∈ resolved))
        (resolved ++ ready.map (·.stepId)) = true := by
      cases pending with
      | nil => exact absurd rfl hnil
      | cons first rest =>
        simp only [dagLoop, ← hready] at hdag
        split at hdag
        · cases hdag
        · rename_i hne
          exact ⟨fun h => hne (List.isEmpty_iff.mpr h), hdag⟩
    -- the ready steps of both loops are the same, up to the order of their ids
    have hsame : (readySteps steps (ordered.map (·.stepId))).Perm ready := by
      refine (List.perm_insertionSort _ _).trans (List.Perm.of_eq ?_)
      rw [hready, hpending, List.filter_filter]
      refine List.filter_congr fun step _ => ?_
      rw [Bool.eq_iff_iff]
      simp only [hresolved, decide_eq_true_eq, Bool.and_eq_true, List.all_eq_true]
      exact and_comm
    have hne : readySteps steps (ordered.map (·.stepId)) ≠ [] := fun h => hround.1 (by rw [h] at hsame; exact hsame.nil_eq.symm)
    have hids : ∀ d, d ∈ (readySteps steps (ordered.map (·.stepId))).map (·.stepId) ↔ d ∈ ready.map (·.stepId) :=
      fun d => (hsame.map _).mem_iff
    rw [orderedLoop_round hlt rounds hne, ← List.map_append]
    refine ih hround.2 ?_ ?_ ?_ (htop.append fun step hstep d hd => (mem_readySteps.mp hstep).2.2 d hd)
    · intro d
      rw [List.map_append, List.mem_append, List.mem_append, hresolved, hids]
    · rw [hpending, List.filter_filter]
      refine List.filter_congr fun step hstep => ?_
      rw [Bool.eq_iff_iff]
      simp only [Bool.and_eq_true, Bool.not_eq_true', decide_eq_true_eq, List.map_append, List.mem_append, not_or, hids]
      rw [and_comm]
      refine and_congr_right fun hnot => ?_
      rw [Bool.eq_false_iff, ne_eq, not_iff_not]
      constructor
      · intro hall
        refine List.mem_map_of_mem ?_
        rw [hready, hpending, List.filter_filter, List.mem_filter, Bool.and_eq_true, decide_eq_true_eq]
        exact ⟨hstep, hall, hnot⟩
      · intro hmem
        obtain ⟨other, hother, hid⟩ := List.mem_map.mp hmem
        rw [hready, hpending, List.filter_filter, List.mem_filter, Bool.and_eq_true] at hother
        rw [← List.inj_on_of_nodup_map hunique hother.1 hstep hid]
        exact hother.2.1
    · rw [List.append_assoc]
      refine List.Perm.trans (List.Perm.append_left ordered ?_) hperm
      refine List.Perm.trans (hsame.append_right _) ?_
      rw [hready]
      exact List.filter_append_perm _ pending

/-- Every plan has its order: the steps of the plan, each after its dependencies. -/
theorem orderedSteps_eq_some (plan : ExecutionPlan D) :
    ∃ ordered, orderedSteps plan = some ordered ∧ ordered.Perm plan.steps ∧ Topological ordered := by
  have hempty : Topological ([] : List (PlanStep D)) := fun before step after h => absurd h (by simp)
  exact orderedLoop_of_dagLoop plan.dag.ids_unique plan.dag.resolves (fun d => Iff.rfl) (by simp) (List.Perm.refl _) hempty

end Order

/-! ## Reasons that fit a record

A run raises where the code of a failed step does not fit its receipt. When the ledger's stop reason fits, and so does whatever the
runners raise, then every code does. -/

section Fits

/-- The ledger's stop reason fits. -/
def Fits (l : RouteBudgetLedger) : Prop := validStopReason l.stopReason

/-- What a ledger that stopped raises. -/
def Stopped (e : LedgerError) (l : RouteBudgetLedger) : Prop := Fits l ∧ ∀ reason, e = .budgetExceeded reason → l.stopReason ≠ none

theorem Fits.of_some {l : RouteBudgetLedger} {reason : String} (h : FitsReason reason) :
    Fits { l with stopReason := some reason } := by
  intro r hr
  cases hr
  exact h

theorem strip_ne_of_fits {reason : String} (h : FitsReason (strip reason)) : strip reason ≠ "" := by
  intro hnil
  rw [hnil] at h
  exact absurd h.1 (by decide)

open RouteBudgetLedger BudgetAux

theorem triple_increment (c : LedgerCounter) (n : Nat) (reason : String) (h : FitsReason (strip reason)) :
    Triple Fits (increment c n reason) (fun _ l => Fits l) Stopped := by
  intro l hl
  rcases increment_cases l c n (strip_ne_of_fits h) with ⟨r, hs, hrun⟩ | ⟨hs, hrun⟩ | ⟨hs, hn, hrun⟩
  · rw [hrun]
    exact ⟨hl, fun _ _ => by rw [hs]; nofun⟩
  · rw [hrun]
    exact ⟨.of_some h, fun _ _ => nofun⟩
  · rw [hrun]
    cases c <;> exact hl

theorem triple_recordSqlCandidate (fingerprint : String) :
    Triple Fits (recordSqlCandidate fingerprint) (fun stop l => Fits l ∧ l.stopReason = stop) Stopped := by
  intro l hl
  rcases recordSqlCandidate_cases l fingerprint with ⟨message, h⟩ | ⟨r, hs, h⟩ | ⟨hs, h⟩ | ⟨hs, hf, hn⟩
  · rw [h]
    exact ⟨hl, fun _ he => nomatch he⟩
  · rw [h]
    exact ⟨hl, fun _ _ => by rw [hs]; nofun⟩
  · rw [h]
    exact ⟨.of_some (fitsReason_ofList rfl), fun _ _ => nofun⟩
  · obtain ⟨stop, h, -, hstop⟩ := recordSqlCandidate_below hs hf hn
    rw [h]
    refine ⟨fun r hr => ?_, rfl⟩
    rw [hstop r hr]
    decide

theorem triple_observeJoinHops (hops : Int) : Triple Fits (observeJoinHops hops) (fun _ l => Fits l) Stopped := by
  intro l hl
  rcases observeJoinHops_cases l hops with ⟨r, hs, h⟩ | ⟨message, h⟩ | ⟨hs, h⟩ | ⟨hs, hlim, h⟩
  · rw [h]
    exact ⟨hl, fun _ _ => by rw [hs]; nofun⟩
  · rw [h]
    exact ⟨hl, fun _ he => nomatch he⟩
  · rw [h]
    exact ⟨.of_some (fitsReason_ofList rfl), fun _ _ => nofun⟩
  · rw [h]
    exact hl

theorem triple_beginSqlExecution : Triple Fits beginSqlExecution (fun _ l => Fits l) Stopped := by
  intro l hl
  exact triple_increment .sqlExecutions l.limits.maxSqlExecutions "sql_execution_budget_exhausted" (fitsReason_ofList rfl) l hl

variable {D : CalculationDigests} {R : PlanRunners D}

/-- The stop reason of the run's ledger fits. -/
def FitsState (s : RunState D) : Prop := Fits s.ledger

/-- What a step raises fits a receipt. -/
def FitsFailure (e : StepFailure) (s : RunState D) : Prop :=
  FitsState s ∧
    match e with
    | .stepError error => error.code.length ≤ 128
    | .budgetExceeded message => s.ledger.stopReason ≠ none ∨ FitsReason (strip message)
    | _ => True

theorem triple_useLedger {α : Type} {m : LedgerM α} {Q : α → RouteBudgetLedger → Prop} (h : Triple Fits m Q Stopped) :
    Triple (FitsState (D := D)) (useLedger m) (fun a s => Q a s.ledger) FitsFailure := by
  intro s hs
  have hm := h s.ledger hs
  simp only [EStateM.run, useLedger] at hm ⊢
  cases hr : m s.ledger with
  | ok a l =>
    simp only [hr] at hm ⊢
    exact hm
  | error e l =>
    simp only [hr] at hm
    cases e with
    | budgetExceeded reason => exact ⟨hm.1, .inl (hm.2 reason rfl)⟩
    | valueError message => exact ⟨hm.1, trivial⟩
    | validationError => exact ⟨hm.1, trivial⟩

theorem triple_callRunner {α : Type} {good : α → Prop} {answer : List (RunnerCall D) → Except StepFailure α}
    (h : ∀ calls, BoundedAnswer good (answer calls)) (call : RunnerCall D) :
    Triple (FitsState (D := D)) (callRunner call answer) (fun a s => FitsState s ∧ good a) FitsFailure := by
  intro s hs
  have ha := h s.calls
  simp only [EStateM.run, callRunner]
  cases hr : answer s.calls with
  | ok a =>
    rw [hr] at ha
    exact ⟨hs, ha⟩
  | error e =>
    rw [hr] at ha
    cases e with
    | stepError error => exact ⟨hs, ha⟩
    | budgetExceeded message => exact ⟨hs, .inr ha⟩
    | raised => exact ⟨hs, trivial⟩
    | cancelled => exact ⟨hs, trivial⟩

theorem triple_raiseStep {α : Type} {Q : α → RunState D → Prop} {code : String} (hcode : strip code = code ∧ code ≠ "")
    (h : code.length ≤ 128) : Triple (FitsState (D := D)) (raiseStep code hcode) Q FitsFailure :=
  Triple.throw fun _ hs => ⟨hs, h⟩

theorem triple_raiseStepIf (c : Prop) [Decidable c] {code : String} (hcode : strip code = code ∧ code ≠ "")
    (h : code.length ≤ 128) : Triple (FitsState (D := D)) (raiseStepIf c code hcode) (fun _ => FitsState) FitsFailure := by
  unfold raiseStepIf
  split
  · exact triple_raiseStep hcode h
  · exact Triple.pure fun _ hs => hs

theorem triple_jsonValue (value : Option Json) :
    Triple (FitsState (D := D)) (jsonValue value) (fun _ => FitsState) FitsFailure := by
  cases value with
  | none => exact triple_raiseStep _ (length_ofList_le (by decide))
  | some value => exact Triple.pure fun _ hs => hs

theorem triple_orMissing {α : Type} (value : Option α) :
    Triple (FitsState (D := D)) (orMissing value) (fun _ => FitsState) FitsFailure := by
  cases value with
  | none => exact triple_raiseStep _ (length_ofList_le (by decide))
  | some value => exact Triple.pure fun _ hs => hs

theorem code_of? {code : String} {error : PlanStepError} (h : PlanStepError.of? code = some error) : error.code = strip code := by
  unfold PlanStepError.of? at h
  split at h
  · nomatch h
  · rw [← Option.some.inj h]

theorem triple_raiseTaxonomy {taxonomy : Option String} (h : ∀ text ∈ taxonomy, (strip text).length ≤ 128) :
    Triple (FitsState (D := D)) (raiseTaxonomy taxonomy) (fun _ => FitsState) FitsFailure := by
  have hcode : (strip (taxonomyCode taxonomy)).length ≤ 128 := by
    cases taxonomy with
    | none => decide +kernel
    | some text =>
      by_cases hempty : text = ""
      · rw [hempty]
        decide +kernel
      · simp only [taxonomyCode, hempty, if_false]
        exact h text rfl
  unfold raiseTaxonomy
  split
  · rename_i error herror
    rw [← code_of? herror] at hcode
    exact Triple.throw fun _ hs => ⟨hs, hcode⟩
  · exact Triple.throw fun _ hs => ⟨hs, trivial⟩

theorem triple_checkReceipt (prepared : PreparedMetricStep) {receipt : ExecutionReceipt}
    (h : ∀ taxonomy ∈ receipt.errorTaxonomy, (strip taxonomy).length ≤ 128) :
    Triple (FitsState (D := D)) (checkReceipt prepared receipt) (fun _ => FitsState) FitsFailure := by
  unfold checkReceipt
  refine Triple.bind (triple_raiseStepIf _ _ (length_ofList_le (by decide))) fun _ => ?_
  refine Triple.bind (triple_raiseStepIf _ _ (length_ofList_le (by decide))) fun _ => ?_
  refine Triple.bind (triple_raiseStepIf _ _ (length_ofList_le (by decide))) fun _ => ?_
  split
  · exact triple_raiseTaxonomy h
  · exact Triple.pure fun _ hs => hs

/-- A step of bounded runners keeps the ledger's reason fitting, and what it raises fits. -/
theorem triple_executeStep (hR : R.Bounded) (queryPlan : QueryPlan) (context : ContextBundle) (timeoutMs : Int)
    (outputs : Dict PlanStepId Json) (step : PlanStep D) :
    Triple (FitsState (D := D)) (executeStep R queryPlan context timeoutMs outputs step)
      (fun _ => FitsState) FitsFailure := by
  cases step with
  | fetch step =>
    unfold executeStep executeFetch
    refine Triple.bind (triple_callRunner (fun calls => hR.prepare calls step queryPlan context) _) fun prepared => ?_
    refine Triple.bind ((triple_useLedger (triple_recordSqlCandidate _)).weaken (fun _ hs => hs.1) (fun _ _ h => h)
      fun _ _ h => h) fun stop => ?_
    refine Triple.bind (Q := fun _ => FitsState) ?_ fun _ => ?_
    · cases stop with
      | some reason => exact Triple.throw fun s hs => ⟨hs.1, .inl (by rw [hs.2]; nofun)⟩
      | none => exact Triple.pure fun s hs => hs.1
    refine Triple.bind (triple_useLedger (triple_observeJoinHops _)) fun _ => ?_
    refine Triple.bind (triple_useLedger triple_beginSqlExecution) fun _ => ?_
    refine Triple.bind (triple_callRunner (fun calls => hR.execute calls prepared timeoutMs) _) fun result => ?_
    intro s hs
    refine (Triple.bind (triple_checkReceipt prepared hs.2) fun _ => ?_) s hs.1
    refine Triple.bind (Q := fun _ => FitsState) (fun s hs => hs) fun _ => triple_jsonValue _
  | trusted step =>
    unfold executeStep executeTrusted
    cases hr : R.trusted with
    | none => exact triple_raiseStep _ (length_ofList_le (by decide))
    | some runner =>
      refine Triple.bind (triple_orMissing _) fun inputs => ?_
      refine Triple.bind (triple_callRunner (fun calls => hR.trusted runner hr calls step inputs) _) fun output => ?_
      exact (triple_jsonValue output).weaken (fun _ hs => hs.1) (fun _ _ h => h) fun _ _ h => h
  | adHoc step =>
    unfold executeStep executeAdHoc
    cases hr : R.adHoc with
    | none => exact triple_raiseStep _ (length_ofList_le (by decide))
    | some runner =>
      refine Triple.bind (triple_orMissing _) fun inputs => ?_
      refine Triple.bind (triple_raiseStepIf _ _ (length_ofList_le (by decide))) fun _ => ?_
      refine Triple.bind (triple_callRunner (fun calls => hR.adHoc runner hr calls step inputs) _) fun output => ?_
      exact (triple_jsonValue output).weaken (fun _ hs => hs.1) (fun _ _ h => h) fun _ _ h => h
  | verify step =>
    unfold executeStep executeVerify
    refine Triple.bind (triple_orMissing _) fun inputs => ?_
    refine Triple.bind (triple_callRunner (fun calls => hR.verify calls step inputs) _) fun output => ?_
    exact (triple_jsonValue output).weaken (fun _ hs => hs.1) (fun _ _ h => h) fun _ _ h => h

end Fits

/-! ## The programs that touch nothing -/

section Still

variable {D : CalculationDigests}

theorem still_raiseStep {α : Type} {code : String} (hcode : strip code = code ∧ code ≠ "") :
    Still (raiseStep code hcode : StepM D α) := Still.throw _

theorem still_raiseStepIf (c : Prop) [Decidable c] {code : String} (hcode : strip code = code ∧ code ≠ "") :
    Still (raiseStepIf c code hcode : StepM D Unit) := by
  unfold raiseStepIf
  split
  · exact still_raiseStep hcode
  · exact Still.pure ()

theorem still_jsonValue (value : Option Json) : Still (jsonValue value : StepM D Json) := by
  cases value with
  | none => exact still_raiseStep _
  | some value => exact Still.pure value

theorem still_orMissing {α : Type} (value : Option α) : Still (orMissing value : StepM D α) := by
  cases value with
  | none => exact still_raiseStep _
  | some value => exact Still.pure value

theorem still_raiseStopped (stopReason : Option String) : Still (raiseStopped stopReason : StepM D Unit) := by
  cases stopReason with
  | none => exact Still.pure ()
  | some reason => exact Still.throw _

theorem still_checkReceipt (prepared : PreparedMetricStep) (receipt : ExecutionReceipt) :
    Still (checkReceipt prepared receipt : StepM D Unit) := by
  unfold checkReceipt
  refine (still_raiseStepIf _ _).bind fun _ => (still_raiseStepIf _ _).bind fun _ => (still_raiseStepIf _ _).bind fun _ => ?_
  split
  · unfold raiseTaxonomy
    split
    · exact Still.throw _
    · exact Still.throw _
  · exact Still.pure ()

end Still

/-! ## What a step writes to the log -/

section Log

variable {D : CalculationDigests} {R : PlanRunners D}

/-- The log of a run has a property. -/
def Logged (I : List (RunnerCall D) → Prop) (s : RunState D) : Prop := I s.calls

variable {I : List (RunnerCall D) → Prop}

/-- A program that calls no runner keeps every property of the log. -/
theorem logged_useLedger {α : Type} (m : LedgerM α) : Triple (Logged I) (useLedger m) (fun _ => Logged I) (fun _ => Logged I) := by
  intro s hs
  simp only [EStateM.run, useLedger]
  cases m s.ledger with
  | ok a l => exact hs
  | error e l => cases e <;> exact hs

theorem logged_callRunner {α : Type} (call : RunnerCall D) (h : ∀ calls, I calls → I (calls ++ [call]))
    (answer : List (RunnerCall D) → Except StepFailure α) :
    Triple (Logged I) (callRunner call answer) (fun _ => Logged I) (fun _ => Logged I) := by
  intro s hs
  simp only [EStateM.run, callRunner]
  cases answer s.calls with
  | ok a => exact h _ hs
  | error e => exact h _ hs

section

variable (h : ∀ call calls, (∀ step inputs, call ≠ .trusted step inputs) → I calls → I (calls ++ [call]))
include h

theorem logged_executeFetch (queryPlan : QueryPlan) (context : ContextBundle) (timeoutMs : Int) (step : FetchMetricStep) :
    Triple (Logged I) (executeFetch R queryPlan context timeoutMs step) (fun _ => Logged I) (fun _ => Logged I) := by
  unfold executeFetch
  refine Triple.bind (logged_callRunner _ (h (.prepare step) · fun _ _ hc => nomatch hc) _) fun prepared => ?_
  refine Triple.bind (logged_useLedger _) fun stop => ?_
  refine Triple.bind (still_raiseStopped stop _) fun _ => ?_
  refine Triple.bind (logged_useLedger _) fun _ => ?_
  refine Triple.bind (logged_useLedger _) fun _ => ?_
  refine Triple.bind (logged_callRunner _ (h (.execute prepared) · fun _ _ hc => nomatch hc) _) fun result => ?_
  refine Triple.bind (still_checkReceipt prepared result.receipt _) fun _ => ?_
  exact Triple.bind (Q := fun _ => Logged I) (fun s hs => hs) fun _ => still_jsonValue _ _

theorem logged_executeAdHoc (outputs : Dict PlanStepId Json) (step : AdHocCalculationStep D) :
    Triple (Logged I) (executeAdHoc R outputs step) (fun _ => Logged I) (fun _ => Logged I) := by
  unfold executeAdHoc
  cases R.adHoc with
  | none => exact still_raiseStep _ _
  | some runner =>
    refine Triple.bind (still_orMissing _ _) fun inputs => ?_
    refine Triple.bind (still_raiseStepIf _ _ _) fun _ => ?_
    exact Triple.bind (logged_callRunner _ (h (.adHoc step inputs) · fun _ _ hc => nomatch hc) _) fun output => still_jsonValue output _

theorem logged_executeVerify (outputs : Dict PlanStepId Json) (step : VerifyStep) :
    Triple (Logged I) (executeVerify R outputs step) (fun _ => Logged I) (fun _ => Logged I) := by
  unfold executeVerify
  refine Triple.bind (still_orMissing _ _) fun inputs => ?_
  exact Triple.bind (logged_callRunner _ (h (.verify step inputs) · fun _ _ hc => nomatch hc) _) fun output => still_jsonValue output _

end

/-- A trusted calculation is called at most once, on its resolved inputs, and was called when it succeeded. -/
theorem executeTrusted_calls (outputs : Dict PlanStepId Json) (step : TrustedCalculationStep) (s : RunState D) :
    match (executeTrusted R outputs step).run s with
    | .ok _ s' => ∃ inputs, step.inputRefs.mapValues? (resolveRef outputs) = some inputs ∧ s'.calls = s.calls ++ [RunnerCall.trusted step inputs]
    | .error _ s' => s'.calls = s.calls ∨
        ∃ inputs, step.inputRefs.mapValues? (resolveRef outputs) = some inputs ∧ s'.calls = s.calls ++ [RunnerCall.trusted step inputs] := by
  have htail : ∀ inputs answer, Triple (fun t : RunState D => t.calls = s.calls)
      (callRunner (.trusted step inputs) answer >>= jsonValue) (fun _ t => t.calls = s.calls ++ [RunnerCall.trusted step inputs])
      (fun _ t => t.calls = s.calls ++ [RunnerCall.trusted step inputs]) := by
    intro inputs answer
    refine Triple.bind (Q := fun _ t => t.calls = s.calls ++ [RunnerCall.trusted step inputs]) ?_ fun output =>
      still_jsonValue output _
    intro t ht
    simp only [EStateM.run, callRunner]
    cases answer t.calls with
    | ok a => exact congrArg (· ++ _) ht
    | error e => exact congrArg (· ++ _) ht
  unfold executeTrusted
  cases R.trusted with
  | none => exact .inl rfl
  | some runner =>
    cases hi : step.inputRefs.mapValues? (resolveRef outputs) with
    | none => exact .inl rfl
    | some inputs =>
      have hrun := htail inputs (fun calls => runner calls step inputs) s rfl
      simp only [orMissing, pure_bind]
      revert hrun
      cases ((callRunner (.trusted step inputs) fun calls => runner calls step inputs) >>= jsonValue).run s with
      | ok a s' => exact fun hrun => ⟨inputs, rfl, hrun⟩
      | error e s' => exact fun hrun => .inr ⟨inputs, rfl, hrun⟩

/-- The calls of one step: a trusted call that is new is the call of this step, on its resolved inputs. -/
structure StepCalls (step : PlanStep D) (outputs : Dict PlanStepId Json) (before after : List (RunnerCall D)) : Prop where
  kept : ∀ call ∈ before, call ∈ after
  fresh : ∀ t inputs, .trusted t inputs ∈ after → .trusted t inputs ∈ before ∨
    (step = .trusted t ∧ t.inputRefs.mapValues? (resolveRef outputs) = some inputs)

theorem StepCalls.of_append {step : TrustedCalculationStep} {outputs : Dict PlanStepId Json} {inputs : Dict RoleName Json}
    (h : step.inputRefs.mapValues? (resolveRef outputs) = some inputs) (calls : List (RunnerCall D)) :
    StepCalls (.trusted step) outputs calls (calls ++ [RunnerCall.trusted step inputs]) := by
  refine ⟨fun call hc => List.mem_append_left _ hc, fun t inputs' hmem => ?_⟩
  rcases List.mem_append.mp hmem with hold | hnew
  · exact .inl hold
  · rw [List.mem_singleton] at hnew
    cases hnew
    exact .inr ⟨rfl, h⟩

theorem executeStep_calls (queryPlan : QueryPlan) (context : ContextBundle) (timeoutMs : Int) (outputs : Dict PlanStepId Json)
    (step : PlanStep D) (s : RunState D) :
    match (executeStep R queryPlan context timeoutMs outputs step).run s with
    | .ok _ s' => StepCalls step outputs s.calls s'.calls ∧ ∀ t, step = .trusted t → ∃ inputs, .trusted t inputs ∈ s'.calls
    | .error _ s' => StepCalls step outputs s.calls s'.calls := by
  have hother : ∀ call (calls : List (RunnerCall D)), (∀ t inputs, call ≠ .trusted t inputs) → StepCalls step outputs s.calls calls →
      StepCalls step outputs s.calls (calls ++ [call]) := by
    intro call calls hcall h
    refine ⟨fun c hc => List.mem_append_left _ (h.kept c hc), fun t inputs hmem => ?_⟩
    rcases List.mem_append.mp hmem with hold | hnew
    · exact h.fresh t inputs hold
    · rw [List.mem_singleton] at hnew
      exact absurd hnew.symm (hcall t inputs)
  have hself : StepCalls step outputs s.calls s.calls := ⟨fun _ hc => hc, fun _ _ h => .inl h⟩
  have hlogged : ∀ {m : StepM D Json}, (∀ t, step ≠ .trusted t) →
      Triple (Logged (StepCalls step outputs s.calls)) m (fun _ => Logged (StepCalls step outputs s.calls))
        (fun _ => Logged (StepCalls step outputs s.calls)) →
      match m.run s with
      | .ok _ s' => StepCalls step outputs s.calls s'.calls ∧ ∀ t, step = .trusted t → ∃ inputs, .trusted t inputs ∈ s'.calls
      | .error _ s' => StepCalls step outputs s.calls s'.calls := by
    intro m hstep hm
    have hrun := hm s hself
    revert hrun
    cases m.run s with
    | ok a s' => exact fun hrun => ⟨hrun, fun t ht => absurd ht (hstep t)⟩
    | error e s' => exact id
  cases step with
  | fetch step => exact hlogged nofun (logged_executeFetch hother queryPlan context timeoutMs step)
  | adHoc step => exact hlogged nofun (logged_executeAdHoc hother outputs step)
  | verify step => exact hlogged nofun (logged_executeVerify hother outputs step)
  | trusted step =>
    have hrun := executeTrusted_calls (R := R) outputs step s
    simp only [executeStep]
    revert hrun
    cases (executeTrusted R outputs step).run s with
    | ok a s' =>
      rintro ⟨inputs, hinputs, hcalls⟩
      change StepCalls _ _ _ s'.calls ∧ _
      rw [hcalls]
      refine ⟨.of_append hinputs _, fun t ht => ?_⟩
      cases ht
      exact ⟨inputs, List.mem_append_right _ (List.mem_singleton.mpr rfl)⟩
    | error e s' =>
      change _ → StepCalls _ _ _ s'.calls
      rintro (hcalls | ⟨inputs, hinputs, hcalls⟩)
      · rw [hcalls]
        exact hself
      · rw [hcalls]
        exact .of_append hinputs _

end Log

end ExecutorAux

end Nl2Sql
