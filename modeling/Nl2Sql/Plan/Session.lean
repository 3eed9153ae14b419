import Nl2Sql.Lib.Method
import Nl2Sql.Plan.Executor

/-!
# Executions that share a ledger

The passes of the executor's loop, each with the state before the step and the state the step left, and sessions: one execution after
another on one ledger. An execution that raises stays in the session, with what it wrote.
-/

namespace Nl2Sql

open Py

/-- A call that executes a query. -/
def RunnerCall.isExecute {D : CalculationDigests} : RunnerCall D → Bool
  | .execute _ => true
  | _ => false

/-- A call that executes a query with a fingerprint. -/
def RunnerCall.executes {D : CalculationDigests} (fingerprint : Sha256) : RunnerCall D → Bool
  | .execute prepared => prepared.sqlFingerprint = fingerprint
  | _ => false

/-- One pass of the loop: a step, the state before it and the state it left. -/
structure StepPass (D : CalculationDigests) where
  step : PlanStep D
  before : RunState D
  after : RunState D

/-- The calls of a pass. -/
def StepPass.calls {D : CalculationDigests} (pass : StepPass D) : List (RunnerCall D) :=
  pass.after.calls.drop pass.before.calls.length

namespace PlanExecutor

variable (D : ExecutionDigests) (R : PlanRunners D.toCalculationDigests)

/-- The passes of the loop of `runSteps`. -/
def loopPasses (request : ExecutionRequest D.toCalculationDigests) (timeoutMs : Int) : List (PlanStep D.toCalculationDigests) →
    Dict PlanStepId Json → RunState D.toCalculationDigests → List (StepPass D.toCalculationDigests)
  | [], _, _ => []
  | step :: rest, outputs, s =>
    match (executeStep R request.queryPlan request.context timeoutMs outputs step).run s with
    | .ok output s' => ⟨step, s, s'⟩ :: loopPasses request timeoutMs rest (outputs.set step.stepId output) s'
    | .error _ s' => [⟨step, s, s'⟩]

/-- The state an execution starts in. -/
def startOf (ledger : RouteBudgetLedger) : RunState D.toCalculationDigests := ⟨ledger, [], Dict.empty⟩

/-- The passes of an execution: none where it is refused before its loop. -/
def passes (request : ExecutionRequest D.toCalculationDigests) (ledger : RouteBudgetLedger) : List (StepPass D.toCalculationDigests) :=
  match request.executionPlan.snapshot? with
  | none => []
  | some plan =>
    match mismatch? D request plan, orderedSteps plan with
    | none, some ordered =>
      if request.deadlineMs < 1 ∨ timeoutMs ledger request.deadlineMs < 1 then []
      else loopPasses D R request (timeoutMs ledger request.deadlineMs) ordered Dict.empty (startOf D ledger)
    | _, _ => []

/-- The state an execution leaves, whether it returned or raised. -/
def afterExecute (request : ExecutionRequest D.toCalculationDigests) (ledger : RouteBudgetLedger) : RunState D.toCalculationDigests :=
  finalState ((execute D R request).run (startOf D ledger))

end PlanExecutor

/-! ## Sessions -/

/-- One execution of a session: the runners of its executor and its request. -/
structure PlannedRun (D : ExecutionDigests) where
  runners : PlanRunners D.toCalculationDigests
  request : ExecutionRequest D.toCalculationDigests

namespace Session

variable {D : ExecutionDigests}

/-- The ledger after a session. -/
def ledgerAfter (ledger : RouteBudgetLedger) (runs : List (PlannedRun D)) : RouteBudgetLedger :=
  runs.foldl (fun l run => (PlanExecutor.afterExecute D run.runners run.request l).ledger) ledger

/-- The calls of a session, in their order. -/
def calls (ledger : RouteBudgetLedger) : List (PlannedRun D) → List (RunnerCall D.toCalculationDigests)
  | [] => []
  | run :: rest =>
    let s := PlanExecutor.afterExecute D run.runners run.request ledger
    s.calls ++ calls s.ledger rest

/-- The passes of a session, in their order. -/
def passes (ledger : RouteBudgetLedger) : List (PlannedRun D) → List (StepPass D.toCalculationDigests)
  | [] => []
  | run :: rest =>
    PlanExecutor.passes D run.runners run.request ledger ++
      passes (PlanExecutor.afterExecute D run.runners run.request ledger).ledger rest

end Session

end Nl2Sql
