import Nl2Sql.Plan.Session
import Nl2Sql.Theorems.Executor

/-!
# The SQL budget through the executor

Whatever the plans and the runners of a session are, the queries it executes stay within the budget of its ledger. One pass either
executes nothing or accounts for one query first; a session is a chain of such passes with halts between them.
-/

namespace Nl2Sql

open Py

namespace SqlBudgetAux

open RouteBudgetLedger BudgetAux ExecutorAux PlanExecutor

attribute [local irreducible] strip

/-! ## How a ledger moves -/

/-- How often a fingerprint was recorded, under its stripped text. -/
def recorded (l : RouteBudgetLedger) (fingerprint : String) : Nat := (l.sqlFingerprintCounts.get? (strip fingerprint)).getD 0

/-- A ledger that goes on: its limits stay, its counts do not fall, and once stopped it stays stopped. -/
structure Advance (l l' : RouteBudgetLedger) : Prop where
  route : l'.route = l.route
  policy : l'.policy = l.policy
  executions : l.sqlExecutions ≤ l'.sqlExecutions
  fingerprints : ∀ fingerprint, recorded l fingerprint ≤ recorded l' fingerprint
  stopped : l.stopReason ≠ none → l'.stopReason ≠ none

theorem Advance.refl (l : RouteBudgetLedger) : Advance l l := ⟨rfl, rfl, Nat.le_refl _, fun _ => Nat.le_refl _, id⟩

theorem Advance.trans {a b c : RouteBudgetLedger} (hab : Advance a b) (hbc : Advance b c) : Advance a c :=
  ⟨hbc.route.trans hab.route, hbc.policy.trans hab.policy, hab.executions.trans hbc.executions,
    fun f => (hab.fingerprints f).trans (hbc.fingerprints f), fun h => hbc.stopped (hab.stopped h)⟩

theorem Advance.of_effect {l l' : RouteBudgetLedger} (h : LedgerEffect l l') : Advance l l' := by
  cases h with
  | kept => exact .refl l
  | halted hl reason => exact ⟨rfl, rfl, Nat.le_refl _, fun _ => Nat.le_refl _, fun _ => nofun⟩
  | counted hl c hc hlim =>
    cases c with
    | sqlCandidates => exact absurd rfl hc
    | sqlExecutions => exact ⟨rfl, rfl, Nat.le_succ _, fun _ => Nat.le_refl _, id⟩
    | modelCalls => exact ⟨rfl, rfl, Nat.le_refl _, fun _ => Nat.le_refl _, id⟩
    | repairs => exact ⟨rfl, rfl, Nat.le_refl _, fun _ => Nat.le_refl _, id⟩
  | candidate hl hlim fingerprint stop =>
    refine ⟨rfl, rfl, Nat.le_refl _, fun other => ?_, fun h => absurd hl h⟩
    unfold recorded
    by_cases heq : fingerprint = strip other
    · rw [← heq, Dict.get?_set_self]
      exact Nat.le_succ _
    · rw [Dict.get?_set_of_ne _ _ heq]
  | hops hl n hn => exact ⟨rfl, rfl, Nat.le_refl _, fun _ => Nat.le_refl _, id⟩
  | errors hl counts retries stop => exact ⟨rfl, rfl, Nat.le_refl _, fun _ => Nat.le_refl _, fun h => absurd hl h⟩

theorem Advance.of_raised {l l' : RouteBudgetLedger} (h : LedgerRaised l l') : Advance l l' := by
  rcases h with rfl | ⟨hl, reason, rfl⟩
  · exact .refl l'
  · exact .of_effect (.halted hl reason)

/-- A method of the ledger, however it ends, goes on with it. -/
theorem advance_of_ends {α : Type} {l : RouteBudgetLedger} {m : LedgerM α} (h : BudgetAux.Ends l m) : Advance l (finalState (m.run l)) := by
  unfold BudgetAux.Ends at h
  revert h
  cases m.run l with
  | ok a l' => exact .of_effect
  | error e l' => exact .of_raised

/-! ## One pass -/

variable {D : ExecutionDigests} {R : PlanRunners D.toCalculationDigests}

/-- The calls so far are those before and new ones, none of which executes a query; the ledger has gone on. -/
structure Unexecuted (s t : RunState D.toCalculationDigests) : Prop where
  calls : ∃ new, t.calls = s.calls ++ new ∧ ∀ call ∈ new, call.isExecute = false
  ledger : Advance s.ledger t.ledger

/-- A query was executed: its candidate was recorded first, in the same step, on a ledger that was not stopped then or at the call. -/
structure Executed (step : PlanStep D.toCalculationDigests) (s t : RunState D.toCalculationDigests) (prepared : PreparedMetricStep) :
    Prop where
  calls : ∃ f, step = .fetch f ∧ t.calls = s.calls ++ [RunnerCall.prepare f, .execute prepared]
  active : s.ledger.stopReason = none
  accounted : ∃ l₁ l₂, (recordSqlCandidate prepared.sqlFingerprint).run s.ledger = .ok none l₁ ∧
    (observeJoinHops prepared.joinHops).run l₁ = .ok () l₂ ∧ beginSqlExecution.run l₂ = .ok () t.ledger
  active_call : t.ledger.stopReason = none

/-- What a pass does. -/
def PassLaw (step : PlanStep D.toCalculationDigests) (s t : RunState D.toCalculationDigests) : Prop :=
  Unexecuted s t ∨ ∃ prepared, Executed step s t prepared

theorem Unexecuted.refl (s : RunState D.toCalculationDigests) : Unexecuted s s :=
  ⟨⟨[], (List.append_nil _).symm, fun _ hc => absurd hc List.not_mem_nil⟩, .refl _⟩

theorem unexecuted_callRunner {α : Type} (s : RunState D.toCalculationDigests) (call : RunnerCall D.toCalculationDigests)
    (hcall : call.isExecute = false) (answer : List (RunnerCall D.toCalculationDigests) → Except StepFailure α) :
    Triple (Unexecuted s) (callRunner call answer) (fun _ => Unexecuted s) (fun _ => Unexecuted s) := by
  intro t ht
  have hnext : Unexecuted s { t with calls := t.calls ++ [call] } := by
    obtain ⟨new, hnew, hall⟩ := ht.calls
    refine ⟨⟨new ++ [call], by simp only [hnew, List.append_assoc], fun c hc => ?_⟩, ht.ledger⟩
    rcases List.mem_append.mp hc with hold | hlast
    · exact hall c hold
    · rw [List.mem_singleton.mp hlast]
      exact hcall
  simp only [EStateM.run, callRunner]
  cases answer t.calls with
  | ok a => exact hnext
  | error e => exact hnext

/-- After its accounting and its call a fetch touches neither the log nor the ledger. -/
theorem executed_tail {step : PlanStep D.toCalculationDigests} {s : RunState D.toCalculationDigests} {prepared : PreparedMetricStep}
    (stepId : PlanStepId) (result : MetricStepResult) :
    Triple (fun t => Executed step s t prepared)
      (checkReceipt prepared result.receipt >>= fun _ =>
        (modify fun t => { t with gatewayReceipts := t.gatewayReceipts.set stepId result.receipt }) >>= fun _ => jsonValue result.value)
      (fun _ t => PassLaw step s t) (fun _ t => PassLaw step s t) := by
  refine Triple.weaken (Triple.bind (still_checkReceipt prepared result.receipt _) fun _ => ?_) (fun _ h => h)
    (fun _ _ h => .inr ⟨prepared, h⟩) (fun _ _ h => .inr ⟨prepared, h⟩)
  refine Triple.bind (Q := fun _ t => Executed step s t prepared) (fun t ht => ?_) fun _ => still_jsonValue _ _
  exact ⟨ht.calls, ht.active, ht.accounted, ht.active_call⟩

/-- What the ledger did for a candidate it does not stop for: one more of its fingerprint, still below the bound. -/
theorem recordSqlCandidate_none {fingerprint : String} {l l₁ : RouteBudgetLedger}
    (h : (recordSqlCandidate fingerprint).run l = .ok none l₁) :
    l.stopReason = none ∧ Advance l l₁ ∧ recorded l₁ fingerprint = recorded l fingerprint + 1 ∧
      recorded l₁ fingerprint < l.policy.maxSameSql := by
  have hadvance := advance_of_ends (ends_recordSqlCandidate l fingerprint)
  rw [h] at hadvance
  rcases recordSqlCandidate_cases l fingerprint with ⟨message, hrun⟩ | ⟨r, hl, hrun⟩ | ⟨hl, hrun⟩ | ⟨hl, hf, hn⟩
  · rw [h] at hrun
    nomatch hrun
  · rw [h] at hrun
    nomatch hrun
  · rw [h] at hrun
    nomatch hrun
  · obtain ⟨stop, hrun, hstop, -⟩ := recordSqlCandidate_below hl hf hn
    rw [h] at hrun
    injection hrun with hnone hl₁
    subst hl₁
    have hcount : recorded { l with
        sqlCandidates := l.sqlCandidates + 1
        sqlFingerprintCounts :=
          l.sqlFingerprintCounts.set (strip fingerprint) ((l.sqlFingerprintCounts.get? (strip fingerprint)).getD 0 + 1)
        stopReason := stop } fingerprint = recorded l fingerprint + 1 := by
      unfold recorded
      rw [Dict.get?_set_self]
      rfl
    refine ⟨hl, hadvance, hcount, ?_⟩
    rw [hcount]
    exact hstop.mp hnone.symm

/-- What the ledger did for an execution it begins: one more of them, within the limit, on a ledger that is not stopped. -/
theorem beginSqlExecution_ok {l l' : RouteBudgetLedger} (h : beginSqlExecution.run l = .ok () l') :
    l'.stopReason = none ∧ l'.sqlExecutions = l.sqlExecutions + 1 ∧ l'.sqlExecutions ≤ l.limits.maxSqlExecutions ∧ Advance l l' := by
  have hrun : beginSqlExecution.run l = (increment .sqlExecutions l.limits.maxSqlExecutions "sql_execution_budget_exhausted").run l := rfl
  have hadvance := advance_of_ends (ends_increment l .sqlExecutions (by decide) (strip_ofList_ne rfl : strip "sql_execution_budget_exhausted" ≠ ""))
  rw [h] at hrun
  rw [show (increment .sqlExecutions (l.limitOf .sqlExecutions) "sql_execution_budget_exhausted").run l = .ok () l' from hrun.symm]
    at hadvance
  rcases increment_cases l .sqlExecutions l.limits.maxSqlExecutions (strip_ofList_ne rfl : strip "sql_execution_budget_exhausted" ≠ "") with
    ⟨r, hl, hinc⟩ | ⟨hl, hinc⟩ | ⟨hl, hn, hinc⟩
  · rw [hinc] at hrun
    nomatch hrun
  · rw [hinc] at hrun
    nomatch hrun
  · rw [hinc] at hrun
    injection hrun with _ hl'
    subst hl'
    exact ⟨hl, rfl, hn, hadvance⟩

theorem observeJoinHops_ok {hops : Int} {l l' : RouteBudgetLedger} (h : (observeJoinHops hops).run l = .ok () l') : Advance l l' := by
  have hadvance := advance_of_ends (ends_observeJoinHops l hops)
  rw [h] at hadvance
  exact hadvance

/-- A method of the ledger in a step: the state before, with what the method did to its ledger. -/
theorem ledger_useLedger {α : Type} (m : LedgerM α) (calls : List (RunnerCall D.toCalculationDigests)) (P : RouteBudgetLedger → Prop) :
    Triple (fun t : RunState D.toCalculationDigests => t.calls = calls ∧ P t.ledger) (useLedger m)
      (fun a t => t.calls = calls ∧ ∃ l, P l ∧ m.run l = .ok a t.ledger)
      (fun _ t => t.calls = calls ∧ ∃ l, P l ∧ t.ledger = finalState (m.run l)) := by
  rintro t ⟨hcalls, hP⟩
  simp only [EStateM.run, useLedger]
  cases hrun : m t.ledger with
  | ok a l => exact ⟨hcalls, t.ledger, hP, hrun⟩
  | error e l =>
    cases e with
    | valueError message => exact ⟨hcalls, t.ledger, hP, by rw [hrun]; rfl⟩
    | budgetExceeded reason => exact ⟨hcalls, t.ledger, hP, by rw [hrun]; rfl⟩
    | validationError => exact ⟨hcalls, t.ledger, hP, by rw [hrun]; rfl⟩

/-- A fetch: the candidate, the joins and the execution are accounted for in this order, and any of them may end the step. -/
theorem passLaw_executeFetch (queryPlan : QueryPlan) (context : ContextBundle) (timeoutMs : Int) (step : FetchMetricStep)
    (s : RunState D.toCalculationDigests) :
    Triple (fun t => t = s) (executeFetch R queryPlan context timeoutMs step) (fun _ t => PassLaw (.fetch step) s t)
      (fun _ t => PassLaw (.fetch step) s t) := by
  -- a step that ends after its preparation, whatever the ledger did, has executed nothing
  have hended : ∀ t : RunState D.toCalculationDigests, t.calls = s.calls ++ [RunnerCall.prepare step] → Advance s.ledger t.ledger →
      PassLaw (.fetch step) s t := by
    intro t hcalls hledger
    refine .inl ⟨⟨[.prepare step], hcalls, fun call hc => ?_⟩, hledger⟩
    rw [List.mem_singleton.mp hc]
    rfl
  unfold executeFetch
  refine Triple.bind (Q := fun _ t => t.calls = s.calls ++ [RunnerCall.prepare step] ∧ t.ledger = s.ledger) ?_ fun prepared => ?_
  · rintro t rfl
    simp only [EStateM.run, callRunner]
    cases R.prepare t.calls step queryPlan context with
    | ok a => exact ⟨rfl, rfl⟩
    | error e => exact hended _ rfl (.refl _)
  refine Triple.bind ((ledger_useLedger (recordSqlCandidate prepared.sqlFingerprint) _ (· = s.ledger)).weaken (fun _ h => h)
    (fun _ _ h => h) ?_) fun stop => ?_
  · rintro _ t ⟨hcalls, l, rfl, hl⟩
    exact hended t hcalls (hl ▸ advance_of_ends (ends_recordSqlCandidate _ _))
  refine Triple.bind (Q := fun _ t => t.calls = s.calls ++ [RunnerCall.prepare step] ∧
    (recordSqlCandidate prepared.sqlFingerprint).run s.ledger = .ok none t.ledger) ?_ fun _ => ?_
  · cases stop with
    | some reason =>
      refine Triple.throw ?_
      rintro t ⟨hcalls, l, rfl, hl⟩
      have hadvance := advance_of_ends (ends_recordSqlCandidate s.ledger prepared.sqlFingerprint)
      rw [hl] at hadvance
      exact hended t hcalls hadvance
    | none =>
      refine Triple.pure ?_
      rintro t ⟨hcalls, l, rfl, hl⟩
      exact ⟨hcalls, hl⟩
  refine Triple.bind ((ledger_useLedger (observeJoinHops prepared.joinHops) _
    fun l₁ => (recordSqlCandidate prepared.sqlFingerprint).run s.ledger = .ok none l₁).weaken (fun _ h => h) (fun _ _ h => h) ?_)
    fun _ => ?_
  · rintro _ t ⟨hcalls, l₁, hl₁, hl⟩
    exact hended t hcalls ((recordSqlCandidate_none hl₁).2.1.trans (hl ▸ advance_of_ends (ends_observeJoinHops _ _)))
  refine Triple.bind ((ledger_useLedger beginSqlExecution _ fun l₂ => ∃ l₁,
    (recordSqlCandidate prepared.sqlFingerprint).run s.ledger = .ok none l₁ ∧ (observeJoinHops prepared.joinHops).run l₁ = .ok () l₂).weaken
    (fun _ h => h) (fun _ _ h => h) ?_) fun _ => ?_
  · rintro _ t ⟨hcalls, l₂, ⟨l₁, hl₁, hl₂⟩, hl⟩
    have hbegin := advance_of_ends (ends_increment l₂ .sqlExecutions (by decide) (strip_ofList_ne rfl : strip "sql_execution_budget_exhausted" ≠ ""))
    exact hended t hcalls ((recordSqlCandidate_none hl₁).2.1.trans ((observeJoinHops_ok hl₂).trans (hl ▸ hbegin)))
  refine Triple.bind (Q := fun _ t => Executed (.fetch step) s t prepared) ?_ fun result => executed_tail step.stepId result
  rintro t ⟨hcalls, l₂, ⟨l₁, hl₁, hl₂⟩, hl⟩
  have hexecuted : Executed (.fetch step) s { t with calls := t.calls ++ [RunnerCall.execute prepared] } prepared := by
    refine ⟨⟨step, rfl, ?_⟩, (recordSqlCandidate_none hl₁).1, ⟨l₁, l₂, hl₁, hl₂, hl⟩, (beginSqlExecution_ok hl).1⟩
    simp only [hcalls, List.append_assoc, List.cons_append, List.nil_append]
  simp only [EStateM.run, callRunner]
  cases R.execute t.calls prepared timeoutMs with
  | ok a => exact hexecuted
  | error e => exact .inr ⟨prepared, hexecuted⟩

/-- Every step: only a fetch executes a query. -/
theorem passLaw_executeStep (queryPlan : QueryPlan) (context : ContextBundle) (timeoutMs : Int) (outputs : Dict PlanStepId Json)
    (step : PlanStep D.toCalculationDigests) (s : RunState D.toCalculationDigests) :
    PassLaw step s (finalState ((executeStep R queryPlan context timeoutMs outputs step).run s)) := by
  cases step with
  | fetch step => exact (passLaw_executeFetch queryPlan context timeoutMs step s).finalState rfl
  | trusted step =>
    refine .inl (Triple.finalState (P := Unexecuted s) ?_ (.refl s))
    unfold executeStep executeTrusted
    cases R.trusted with
    | none => exact still_raiseStep _ _
    | some runner =>
      exact Triple.bind (still_orMissing _ _) fun inputs =>
        Triple.bind (unexecuted_callRunner s (.trusted step inputs) rfl _) fun output => still_jsonValue output _
  | adHoc step =>
    refine .inl (Triple.finalState (P := Unexecuted s) ?_ (.refl s))
    unfold executeStep executeAdHoc
    cases R.adHoc with
    | none => exact still_raiseStep _ _
    | some runner =>
      exact Triple.bind (still_orMissing _ _) fun inputs => Triple.bind (still_raiseStepIf _ _ _) fun _ =>
        Triple.bind (unexecuted_callRunner s (.adHoc step inputs) rfl _) fun output => still_jsonValue output _
  | verify step =>
    refine .inl (Triple.finalState (P := Unexecuted s) ?_ (.refl s))
    unfold executeStep executeVerify
    exact Triple.bind (still_orMissing _ _) fun inputs =>
      Triple.bind (unexecuted_callRunner s (.verify step inputs) rfl _) fun output => still_jsonValue output _

/-- The calls of a pass are what it added to the log. -/
theorem PassLaw.calls_eq {step : PlanStep D.toCalculationDigests} {s t : RunState D.toCalculationDigests} (h : PassLaw step s t) :
    t.calls = s.calls ++ StepPass.calls ⟨step, s, t⟩ := by
  have hdrop : ∀ new, t.calls = s.calls ++ new → t.calls = s.calls ++ StepPass.calls ⟨step, s, t⟩ := by
    intro new hnew
    have hcalls : StepPass.calls ⟨step, s, t⟩ = new := by
      unfold StepPass.calls
      rw [hnew, List.drop_left]
    rw [hcalls, hnew]
  rcases h with ⟨⟨new, hnew, -⟩, -⟩ | ⟨prepared, ⟨f, -, hnew⟩, -⟩
  · exact hdrop new hnew
  · exact hdrop _ hnew

/-! ## Passes one after another -/

/-- Passes from one ledger to another. Between two of them, before the first and after the last the ledger may be halted. -/
inductive Chain : RouteBudgetLedger → List (StepPass D.toCalculationDigests) → RouteBudgetLedger → Prop where
  | done {l l' : RouteBudgetLedger} (h : Advance l l') : Chain l [] l'
  | pass {l l' : RouteBudgetLedger} (p : StepPass D.toCalculationDigests) {rest : List (StepPass D.toCalculationDigests)}
      (before : Advance l p.before.ledger) (law : PassLaw p.step p.before p.after) (tail : Chain p.after.ledger rest l') :
      Chain l (p :: rest) l'

theorem Chain.of_advance {l l' l'' : RouteBudgetLedger} {ps : List (StepPass D.toCalculationDigests)} (h : Advance l l')
    (hc : Chain l' ps l'') : Chain l ps l'' := by
  cases hc with
  | done h' => exact .done (h.trans h')
  | pass p before law tail => exact .pass p (h.trans before) law tail

theorem Chain.append {l m n : RouteBudgetLedger} {ps qs : List (StepPass D.toCalculationDigests)} (hp : Chain l ps m)
    (hq : Chain m qs n) : Chain l (ps ++ qs) n := by
  induction hp with
  | done h => exact hq.of_advance h
  | pass p before law _ ih => exact .pass p before law (ih hq)

/-- Nothing but the ledger has changed, and it has gone on. -/
def Settled (s t : RunState D.toCalculationDigests) : Prop := t.calls = s.calls ∧ Advance s.ledger t.ledger

theorem settled_haltWith (s : RunState D.toCalculationDigests) (reason : String) :
    Triple (Settled s) (haltWith (D := D) reason) (fun _ => Settled s) (fun _ => Settled s) := by
  rintro t ⟨hcalls, hledger⟩
  have hadvance := advance_of_ends (ends_halt t.ledger reason)
  simp only [EStateM.run, haltWith] at hadvance ⊢
  revert hadvance
  cases RouteBudgetLedger.halt reason t.ledger with
  | ok code l => exact fun hadvance => ⟨hcalls, hledger.trans hadvance⟩
  | error e l => exact fun hadvance => ⟨hcalls, hledger.trans hadvance⟩

theorem settled_stopReasonOr (s : RunState D.toCalculationDigests) (message : String) :
    Triple (Settled s) (stopReasonOr (D := D) message) (fun _ => Settled s) (fun _ => Settled s) := by
  intro t ht
  have hrun : (stopReasonOr (D := D) message).run t = (haltWith message).run t ∨
      ∃ stopped, (stopReasonOr (D := D) message).run t = .ok stopped t := by
    cases hs : t.ledger.stopReason with
    | none => exact .inl (by simp [stopReasonOr, hs])
    | some stopped =>
      by_cases hempty : stopped = ""
      · exact .inl (by simp [stopReasonOr, hs, hempty])
      · exact .inr ⟨stopped, by simp [stopReasonOr, hs, hempty]⟩
  rcases hrun with hrun | ⟨stopped, hrun⟩
  · rw [hrun]
    exact settled_haltWith s message t ht
  · rw [hrun]
    exact ht

theorem still_result (plan : ExecutionPlan D.toCalculationDigests) (status : ExecutionStatus) (receipts : List PlanStepReceipt)
    (outputs : Dict PlanStepId Json) (stopReason : Option String) : Still (PlanExecutor.result D plan status receipts outputs stopReason) := by
  unfold PlanExecutor.result
  split
  · exact Still.pure _
  · exact Still.throw _

theorem still_failedStep (step : PlanStep D.toCalculationDigests) (elapsedMs : Nat) (code : String) :
    Still (failedStep (D := D) step elapsedMs code) := by
  unfold failedStep
  split
  · exact Still.pure _
  · exact Still.throw _

theorem still_failWith (plan : ExecutionPlan D.toCalculationDigests) (step : PlanStep D.toCalculationDigests)
    (receipts : List PlanStepReceipt) (outputs : Dict PlanStepId Json) (code : String) :
    Still (failWith D R plan step receipts outputs code) :=
  (still_failedStep step _ code).bind fun _ => still_result plan _ _ outputs _

theorem settled_deadlineExceeded (s : RunState D.toCalculationDigests) (plan : ExecutionPlan D.toCalculationDigests)
    (current : Option (PlanStep D.toCalculationDigests)) (receipts : List PlanStepReceipt) (outputs : Dict PlanStepId Json) :
    Triple (Settled s) (deadlineExceeded D R plan current receipts outputs) (fun _ => Settled s) (fun _ => Settled s) := by
  unfold deadlineExceeded
  refine Triple.bind (settled_haltWith s _) fun code => ?_
  have htail : ∀ receipts, Still (result D plan .deadlineExceeded receipts outputs (some code)) :=
    fun receipts => still_result plan _ receipts outputs _
  cases current with
  | none => exact (Still.pure receipts).bind htail _
  | some step =>
    simp only
    split
    · exact (Still.pure receipts).bind htail _
    · exact (still_failedStep step _ code).bind (fun receipt => (Still.pure (receipts ++ [receipt])).bind htail) _

/-- The loop is a chain of its passes, and its calls are theirs. The induction is on the steps that are left. -/
theorem loop_chain (request : ExecutionRequest D.toCalculationDigests) (plan : ExecutionPlan D.toCalculationDigests) (timeoutMs : Int)
    (rest : List (PlanStep D.toCalculationDigests)) (outputs : Dict PlanStepId Json) (receipts : List PlanStepReceipt)
    (s : RunState D.toCalculationDigests) :
    Chain s.ledger (loopPasses D R request timeoutMs rest outputs s)
      (finalState ((runSteps D R request plan timeoutMs rest outputs receipts).run s)).ledger ∧
    (finalState ((runSteps D R request plan timeoutMs rest outputs receipts).run s)).calls =
      s.calls ++ (loopPasses D R request timeoutMs rest outputs s).flatMap StepPass.calls := by
  induction rest generalizing outputs receipts s with
  | nil =>
    have hend := Triple.finalState (still_result plan .succeeded receipts outputs none (Settled s)) ⟨rfl, .refl s.ledger⟩
    exact ⟨.done hend.2, by rw [loopPasses, List.flatMap_nil, List.append_nil]; exact hend.1⟩
  | cons step rest ih =>
    have hlaw := passLaw_executeStep (R := R) request.queryPlan request.context timeoutMs outputs step s
    rw [runSteps_cons, loopPasses]
    revert hlaw
    cases (executeStep R request.queryPlan request.context timeoutMs outputs step).run s with
    | ok output s' =>
      intro (hlaw : PassLaw step s s')
      obtain ⟨hchain, hcalls⟩ := ih (outputs.set step.stepId output)
        (receipts ++ [succeededStep D step (R.elapsedMs step.stepId) output (s'.gatewayReceipts.get? step.stepId)]) s'
      refine ⟨.pass _ (.refl _) hlaw hchain, ?_⟩
      rw [List.flatMap_cons, ← List.append_assoc, ← hlaw.calls_eq]
      exact hcalls
    | error e s' =>
      intro (hlaw : PassLaw step s s')
      -- however the failed step ends the run, only the ledger is touched
      have hone : ∀ m : ExecM D.toCalculationDigests PlanExecutionResult,
          Triple (Settled s') m (fun _ => Settled s') (fun _ => Settled s') →
          Chain s.ledger [⟨step, s, s'⟩] (finalState (m.run s')).ledger ∧
            (finalState (m.run s')).calls = s.calls ++ [(⟨step, s, s'⟩ : StepPass _)].flatMap StepPass.calls := by
        intro m hm
        have hend := hm.finalState ⟨rfl, .refl s'.ledger⟩
        refine ⟨.pass ⟨step, s, s'⟩ (.refl _) hlaw (.done hend.2), ?_⟩
        rw [List.flatMap_cons, List.flatMap_nil, List.append_nil, ← hlaw.calls_eq]
        exact hend.1
      cases e with
      | cancelled => exact hone _ (settled_deadlineExceeded s' plan _ receipts outputs)
      | budgetExceeded message =>
        exact hone _ (Triple.bind (settled_stopReasonOr s' message) fun code => still_failWith plan step receipts outputs code _)
      | stepError error =>
        exact hone _ (Triple.bind (settled_haltWith s' error.code) fun code => still_failWith plan step receipts outputs code _)
      | raised =>
        exact hone _ (Triple.bind (settled_haltWith s' _) fun code => still_failWith plan step receipts outputs code _)

/-- An execution is a chain of its passes, and its calls are theirs. -/
theorem execute_chain (request : ExecutionRequest D.toCalculationDigests) (ledger : RouteBudgetLedger) :
    Chain ledger (PlanExecutor.passes D R request ledger) (afterExecute D R request ledger).ledger ∧
    (afterExecute D R request ledger).calls = (PlanExecutor.passes D R request ledger).flatMap StepPass.calls := by
  have hrefused : ∀ m : ExecM D.toCalculationDigests PlanExecutionResult,
      Triple (Settled (startOf D ledger)) m (fun _ => Settled (startOf D ledger)) (fun _ => Settled (startOf D ledger)) →
      Chain (D := D) ledger [] (finalState (m.run (startOf D ledger))).ledger ∧
        (finalState (m.run (startOf D ledger))).calls = ([] : List (StepPass _)).flatMap StepPass.calls := by
    intro m hm
    have hend := hm.finalState ⟨rfl, .refl _⟩
    exact ⟨.done hend.2, hend.1⟩
  have hrefuse : ∀ plan status code, Triple (Settled (startOf D ledger)) (refuse D plan status code)
      (fun _ => Settled (startOf D ledger)) (fun _ => Settled (startOf D ledger)) :=
    fun plan status code => Triple.bind (settled_haltWith _ code) fun _ => still_result plan status [] Dict.empty _ _
  unfold afterExecute execute PlanExecutor.passes
  cases request.executionPlan.snapshot? with
  | none => exact hrefused _ (Still.throw _ _)
  | some plan =>
    obtain ⟨ordered, hordered, -⟩ := orderedSteps_eq_some plan
    cases hmismatch : mismatch? D request plan with
    | some code =>
      simp only [hmismatch]
      exact hrefused _ (hrefuse plan .failed code)
    | none =>
      by_cases hdeadline : request.deadlineMs < 1
      · simp only [hmismatch, hordered, hdeadline, true_or, if_true]
        exact hrefused _ (hrefuse plan .deadlineExceeded _)
      · by_cases hreserve : timeoutMs ledger request.deadlineMs < 1
        · have hrun : timeoutMs (startOf D ledger).ledger request.deadlineMs < 1 := hreserve
          simp only [hmismatch, hordered, hdeadline, hreserve, or_true, if_true, if_false, EStateM.run_bind, EStateM.run_get, hrun]
          exact hrefused _ (hrefuse plan .deadlineExceeded _)
        · have hrun : ¬ timeoutMs (startOf D ledger).ledger request.deadlineMs < 1 := hreserve
          simp only [hmismatch, hordered, hdeadline, hreserve, or_self, if_false, EStateM.run_bind, EStateM.run_get, hrun]
          exact loop_chain request plan (timeoutMs ledger request.deadlineMs) ordered Dict.empty [] (startOf D ledger)

/-- A session is a chain of its passes, and its calls are theirs. -/
theorem session_chain (ledger : RouteBudgetLedger) (runs : List (PlannedRun D)) :
    Chain ledger (Session.passes ledger runs) (Session.ledgerAfter ledger runs) ∧
    Session.calls ledger runs = (Session.passes ledger runs).flatMap StepPass.calls := by
  induction runs generalizing ledger with
  | nil => exact ⟨.done (.refl ledger), rfl⟩
  | cons run rest ih =>
    obtain ⟨hchain, hcalls⟩ := execute_chain (R := run.runners) run.request ledger
    obtain ⟨hrest, hrestCalls⟩ := ih (afterExecute D run.runners run.request ledger).ledger
    refine ⟨hchain.append hrest, ?_⟩
    rw [Session.passes, List.flatMap_append, ← hcalls, ← hrestCalls]
    rfl

/-! ## What a chain has spent -/

/-- The executions so far are counted in the ledger, and within the bounds of the ledger the chain began with. -/
structure Spent (l₀ l : RouteBudgetLedger) (calls : List (RunnerCall D.toCalculationDigests)) : Prop where
  route : l.route = l₀.route
  policy : l.policy = l₀.policy
  executions : calls.countP RunnerCall.isExecute ≤ l.sqlExecutions
  within : calls.countP RunnerCall.isExecute ≤ l₀.limits.maxSqlExecutions
  repeats : ∀ fingerprint : Sha256, calls.countP (RunnerCall.executes fingerprint) ≤ recorded l fingerprint
  below : ∀ fingerprint : Sha256, calls.countP (RunnerCall.executes fingerprint) < l₀.policy.maxSameSql

theorem Spent.start (l : RouteBudgetLedger) : Spent (D := D) l l [] :=
  ⟨rfl, rfl, Nat.zero_le _, Nat.zero_le _, fun _ => Nat.zero_le _, fun _ => l.policy.repeats_pos.1⟩

theorem Spent.advance {l₀ l l' : RouteBudgetLedger} {calls : List (RunnerCall D.toCalculationDigests)} (h : Spent l₀ l calls)
    (ha : Advance l l') : Spent l₀ l' calls :=
  ⟨ha.route.trans h.route, ha.policy.trans h.policy, h.executions.trans ha.executions, h.within,
    fun fingerprint => (h.repeats fingerprint).trans (ha.fingerprints fingerprint), h.below⟩

/-- Calls that execute nothing spend nothing. -/
theorem Spent.unexecuted {l₀ l : RouteBudgetLedger} {calls new : List (RunnerCall D.toCalculationDigests)} (h : Spent l₀ l calls)
    (hnew : ∀ call ∈ new, call.isExecute = false) : Spent l₀ l (calls ++ new) := by
  have hnone : new.countP RunnerCall.isExecute = 0 := by
    rw [List.countP_eq_zero]
    intro call hc
    rw [hnew call hc]
    rintro ⟨⟩
  have hnoneOf : ∀ fingerprint : Sha256, new.countP (RunnerCall.executes fingerprint) = 0 := by
    intro fingerprint
    rw [List.countP_eq_zero]
    intro call hc hexec
    cases call with
    | execute prepared => exact absurd (hnew _ hc) (by rintro ⟨⟩)
    | _ => cases hexec
  refine ⟨h.route, h.policy, ?_, ?_, fun fingerprint => ?_, fun fingerprint => ?_⟩
  · rw [List.countP_append, hnone]
    exact h.executions
  · rw [List.countP_append, hnone]
    exact h.within
  · rw [List.countP_append, hnoneOf fingerprint]
    exact h.repeats fingerprint
  · rw [List.countP_append, hnoneOf fingerprint]
    exact h.below fingerprint

/-- A query that was executed was paid for. -/
theorem Spent.executed {l₀ : RouteBudgetLedger} {step : PlanStep D.toCalculationDigests} {s t : RunState D.toCalculationDigests}
    {prepared : PreparedMetricStep} {calls : List (RunnerCall D.toCalculationDigests)} (h : Spent l₀ s.ledger calls)
    (he : Executed step s t prepared) (f : FetchMetricStep) : Spent l₀ t.ledger (calls ++ [RunnerCall.prepare f, .execute prepared]) := by
  obtain ⟨l₁, l₂, hl₁, hl₂, hl⟩ := he.accounted
  obtain ⟨-, hadvance₁, hrecorded, hbelow⟩ := recordSqlCandidate_none hl₁
  have hadvance₂ := observeJoinHops_ok hl₂
  obtain ⟨-, hone, hlimit, hadvance₃⟩ := beginSqlExecution_ok hl
  have hadvance := hadvance₁.trans (hadvance₂.trans hadvance₃)
  have hlimits : l₂.limits = l₀.limits := by
    unfold limits
    rw [(hadvance₁.trans hadvance₂).route, (hadvance₁.trans hadvance₂).policy, h.route, h.policy]
  have hspent := (h.executions.trans (hadvance₁.trans hadvance₂).executions)
  have hcount : (calls ++ [RunnerCall.prepare f, RunnerCall.execute prepared]).countP RunnerCall.isExecute = calls.countP RunnerCall.isExecute + 1 := by
    rw [List.countP_append]
    rfl
  have hcountOf : ∀ fingerprint : Sha256,
      (calls ++ [RunnerCall.prepare f, RunnerCall.execute prepared]).countP (RunnerCall.executes fingerprint) =
      calls.countP (RunnerCall.executes fingerprint) + if prepared.sqlFingerprint = fingerprint then 1 else 0 := by
    intro fingerprint
    rw [List.countP_append, List.countP_cons_of_neg (by simp [RunnerCall.executes]), List.countP_singleton]
    simp only [RunnerCall.executes, decide_eq_true_eq]
  refine ⟨hadvance.route.trans h.route, hadvance.policy.trans h.policy, by omega, by rw [← hlimits]; omega,
    fun fingerprint => ?_, fun fingerprint => ?_⟩
  · rw [hcountOf fingerprint]
    have hrepeats := h.repeats fingerprint
    by_cases heq : prepared.sqlFingerprint = fingerprint
    · subst heq
      have hlater := (hadvance₂.trans hadvance₃).fingerprints prepared.sqlFingerprint
      simp only [if_true]
      omega
    · have hlater := hadvance.fingerprints fingerprint
      simp only [heq, if_false]
      omega
  · rw [hcountOf fingerprint]
    by_cases heq : prepared.sqlFingerprint = fingerprint
    · subst heq
      have hrepeats := h.repeats prepared.sqlFingerprint
      rw [h.policy] at hbelow
      simp only [if_true]
      omega
    · have hold := h.below fingerprint
      simp only [heq, if_false]
      omega

/-- A pass spends what it executes. -/
theorem Spent.pass {l₀ : RouteBudgetLedger} {p : StepPass D.toCalculationDigests} {calls : List (RunnerCall D.toCalculationDigests)}
    (h : Spent l₀ p.before.ledger calls) (law : PassLaw p.step p.before p.after) : Spent l₀ p.after.ledger (calls ++ p.calls) := by
  have hcalls := law.calls_eq
  rcases law with ⟨⟨new, hnew, hall⟩, hadvance⟩ | ⟨prepared, hexecuted⟩
  · have hsame : p.calls = new := List.append_cancel_left (hcalls.symm.trans hnew)
    rw [hsame]
    exact (h.advance hadvance).unexecuted hall
  · obtain ⟨f, -, hnew⟩ := hexecuted.calls
    have hsame : p.calls = [RunnerCall.prepare f, .execute prepared] := List.append_cancel_left (hcalls.symm.trans hnew)
    rw [hsame]
    exact h.executed hexecuted f

/-- A chain spends what its passes execute. -/
theorem Chain.spent {l₀ l l' : RouteBudgetLedger} {ps : List (StepPass D.toCalculationDigests)} (hc : Chain l ps l')
    {calls : List (RunnerCall D.toCalculationDigests)} (h : Spent l₀ l calls) :
    Spent l₀ l' (calls ++ ps.flatMap StepPass.calls) := by
  induction hc generalizing calls with
  | done ha =>
    rw [List.flatMap_nil, List.append_nil]
    exact h.advance ha
  | pass p before law tail ih =>
    rw [List.flatMap_cons, ← List.append_assoc]
    exact ih ((h.advance before).pass law)

/-- A pass that executes a query has accounted for it. -/
theorem PassLaw.executed {p : StepPass D.toCalculationDigests} (law : PassLaw p.step p.before p.after) {prepared : PreparedMetricStep}
    (h : .execute prepared ∈ p.calls) : Executed p.step p.before p.after prepared := by
  have hcalls := law.calls_eq
  rcases law with ⟨⟨new, hnew, hall⟩, -⟩ | ⟨prepared', hexecuted⟩
  · have hsame : p.calls = new := List.append_cancel_left (hcalls.symm.trans hnew)
    rw [hsame] at h
    exact absurd (hall _ h) nofun
  · obtain ⟨f, -, hnew⟩ := hexecuted.calls
    have hsame : p.calls = [RunnerCall.prepare f, .execute prepared'] := List.append_cancel_left (hcalls.symm.trans hnew)
    rw [hsame] at h
    rcases List.mem_cons.mp h with hprepare | hexecute
    · nomatch hprepare
    · cases List.mem_singleton.mp hexecute
      exact hexecuted

theorem Chain.law {l l' : RouteBudgetLedger} {ps : List (StepPass D.toCalculationDigests)} (hc : Chain l ps l') :
    ∀ p ∈ ps, PassLaw p.step p.before p.after := by
  induction hc with
  | done h => exact fun p hp => absurd hp List.not_mem_nil
  | pass p before law tail ih =>
    intro q hq
    rcases List.mem_cons.mp hq with rfl | hrest
    · exact law
    · exact ih q hrest

/-- A chain that begins with a stopped ledger executes nothing. -/
theorem Chain.stopped {l l' : RouteBudgetLedger} {ps : List (StepPass D.toCalculationDigests)} (hc : Chain l ps l')
    (h : l.stopReason ≠ none) : ∀ p ∈ ps, ∀ prepared, .execute prepared ∉ p.calls := by
  induction hc with
  | done _ => exact fun p hp => absurd hp List.not_mem_nil
  | pass p before law tail ih =>
    have hbefore := before.stopped h
    have hnone : ∀ prepared, .execute prepared ∉ p.calls := fun prepared hmem => hbefore (law.executed hmem).active
    intro q hq
    rcases List.mem_cons.mp hq with rfl | hrest
    · exact hnone
    · refine ih ?_ q hrest
      rcases law with hunexecuted | ⟨prepared, hexecuted⟩
      · exact hunexecuted.ledger.stopped hbefore
      · exact absurd hexecuted.active hbefore

/-- The passes after one of a chain are a chain from where that pass left the ledger. -/
theorem Chain.later {l l' : RouteBudgetLedger} {earlier later : List (StepPass D.toCalculationDigests)} {p : StepPass D.toCalculationDigests}
    (hc : Chain l (earlier ++ p :: later) l') : Chain p.after.ledger later l' := by
  induction earlier generalizing l with
  | nil =>
    cases hc with
    | pass _ before law tail => exact tail
  | cons q earlier ih =>
    cases hc with
    | pass _ before law tail => exact ih tail

end SqlBudgetAux

open SqlBudgetAux

/-- The SQL budget through the executor. Over any sequence of executions that share a ledger, with any plans and any runners, those
that fail or raise midway included: the queries executed are at most the ledger's `max_sql_executions`, and those of one fingerprint
fewer than its `max_same_sql`; a pass of the loop that executes a query has first recorded a candidate with its fingerprint, observed
its joins and begun an execution, each on a ledger that was not stopped, and nothing is executed once the ledger is stopped, within a
run or in a later one. -/
theorem sql_budget_law (D : ExecutionDigests) (ledger : RouteBudgetLedger) (runs : List (PlannedRun D)) :
    Session.calls ledger runs = (Session.passes ledger runs).flatMap StepPass.calls ∧
    (Session.calls ledger runs).countP RunnerCall.isExecute ≤ ledger.limits.maxSqlExecutions ∧
    (∀ fingerprint, (Session.calls ledger runs).countP (RunnerCall.executes fingerprint) < ledger.policy.maxSameSql) ∧
    (∀ pass ∈ Session.passes ledger runs, ∀ prepared, .execute prepared ∈ pass.calls →
      pass.before.ledger.stopReason = none ∧
      (∃ f, pass.step = .fetch f ∧ pass.calls = [RunnerCall.prepare f, .execute prepared]) ∧
      (∃ l₁ l₂, (RouteBudgetLedger.recordSqlCandidate prepared.sqlFingerprint).run pass.before.ledger = .ok none l₁ ∧
        (RouteBudgetLedger.observeJoinHops prepared.joinHops).run l₁ = .ok () l₂ ∧
        RouteBudgetLedger.beginSqlExecution.run l₂ = .ok () pass.after.ledger) ∧
      pass.after.ledger.stopReason = none) ∧
    (∀ earlier pass later, Session.passes ledger runs = earlier ++ pass :: later → pass.after.ledger.stopReason ≠ none →
      ∀ p ∈ later, ∀ prepared, .execute prepared ∉ p.calls) ∧
    ∀ earlier later, runs = earlier ++ later → (Session.ledgerAfter ledger earlier).stopReason ≠ none →
      ∀ prepared, .execute prepared ∉ Session.calls (Session.ledgerAfter ledger earlier) later := by
  obtain ⟨hchain, hcalls⟩ := session_chain ledger runs
  have hspent := hchain.spent (Spent.start ledger)
  rw [List.nil_append, ← hcalls] at hspent
  refine ⟨hcalls, hspent.within, hspent.below, fun pass hpass prepared hmem => ?_, fun earlier pass later heq hstop => ?_,
    fun earlier later _ hstop prepared hmem => ?_⟩
  · have law := hchain.law pass hpass
    have hexecuted := law.executed hmem
    obtain ⟨f, hstep, hnew⟩ := hexecuted.calls
    exact ⟨hexecuted.active, ⟨f, hstep, List.append_cancel_left (law.calls_eq.symm.trans hnew)⟩, hexecuted.accounted,
      hexecuted.active_call⟩
  · rw [heq] at hchain
    exact hchain.later.stopped hstop
  · obtain ⟨hrest, hrestCalls⟩ := session_chain (Session.ledgerAfter ledger earlier) later
    rw [hrestCalls] at hmem
    obtain ⟨p, hp, hin⟩ := List.mem_flatMap.mp hmem
    exact hrest.stopped hstop p hp prepared hin

end Nl2Sql
