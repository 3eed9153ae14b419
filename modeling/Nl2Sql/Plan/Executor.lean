import Nl2Sql.Plan.ApprovedCompute

/-!
# The executor of plans

`orchestration/execution.py` with the receipts and the record of `contracts.py`. The runners are code the application injects: in
the model a runner is any function from the calls made so far to what the call does, and what it does is to return or to raise. The
deadline cancels a run at an await, and every await of a run is on a runner, so a cancelled run is one whose runner raised the
cancellation. The executor is a program over the ledger of the request and the log of the calls; what it wrote before raising stays
written.
-/

namespace Nl2Sql

open Py

/-! ## Receipts -/

inductive FreshnessStatus where
  | fresh | stale | unknown
  deriving DecidableEq, Repr

inductive SourceKind where
  | approvedAggregate | approvedDetail
  deriving DecidableEq, Repr

inductive SelectionReason where
  | freshApprovedAggregate | approvedDetailFallback | approvedDetail
  deriving DecidableEq, Repr

inductive SourceDegradation where
  | aggregateStale | aggregateUnknown | metricPermissionDenied | metricRelationUnapproved | metricAggregateCoverageUnapproved
  | metricAggregateSensitivityDenied | metricColumnUnapproved | metricColumnTypeMismatch | metricScanRowsExceeded
  | metricTimeIndexRequired | metricTimeRangeTooLarge | metricGrainOrDimensionUnsupported | metricDimensionCombinationUnsupported
  | metricAggregateSlaMissing | metricFreshnessEvidenceInvalid | metricFreshnessAuthorityMismatch
  deriving DecidableEq, Repr

/-- The evidence about the source of a rowset, which a step's receipt copies from the gateway's. -/
structure SourceEvidence where
  rowsetSha256 : Option Sha256 := none
  /-- the text of a datetime -/
  dataAsOf : Option String := none
  freshnessStatus : FreshnessStatus := .unknown
  sourceKind : Option SourceKind := none
  sourceId : Option ContractId := none
  selectionReason : Option SelectionReason := none
  sourceDegradation : List SourceDegradation := []
  sourceCheckpoint : Option ContractId := none
  semanticSignature : Option Sha256 := none
  deriving DecidableEq

inductive PolicyOutcome where
  | allow | deny
  deriving DecidableEq, Repr

/-- The receipt of the query gateway: what the executor reads of it. -/
structure ExecutionReceipt where
  datasource : String
  readonlyRole : String
  errorTaxonomy : Option String
  sqlFingerprint : String
  policyVersion : String
  policyOutcome : PolicyOutcome
  source : SourceEvidence
  deriving DecidableEq

inductive StepStatus where
  | succeeded | failed
  deriving DecidableEq, Repr

/-- The one scope of an AD_HOC calculation: `ad_hoc_noncanonical`. -/
inductive CalculationScope where
  | adHocNoncanonical
  deriving DecidableEq, Repr

/-- The provenance of a calculation on its receipt: four canonical fields and four of an AD_HOC calculation. -/
structure ReceiptProvenance where
  templateId : Option (BoundedText 1 128) := none
  templateVersion : Option (BoundedText 1 64) := none
  bindingChecksum : Option Sha256 := none
  outputMetricKey : Option (BoundedText 1 256) := none
  calculationSpecChecksum : Option Sha256 := none
  executionBindingChecksum : Option Sha256 := none
  derivedOutputId : Option DerivedOutputId := none
  calculationScope : Option CalculationScope := none
  deriving DecidableEq

/-- No field of an AD_HOC calculation is declared. -/
def ReceiptProvenance.NoAdHoc (p : ReceiptProvenance) : Prop :=
  p.calculationSpecChecksum = none ∧ p.executionBindingChecksum = none ∧ p.derivedOutputId = none ∧ p.calculationScope = none

/-- All fields of an AD_HOC calculation are declared. -/
def ReceiptProvenance.FullAdHoc (p : ReceiptProvenance) : Prop :=
  p.calculationSpecChecksum.isSome = true ∧ p.executionBindingChecksum.isSome = true ∧ p.derivedOutputId.isSome = true ∧
    p.calculationScope.isSome = true

/-- No canonical field is declared. -/
def ReceiptProvenance.NoCanonical (p : ReceiptProvenance) : Prop :=
  p.outputMetricKey = none ∧ p.bindingChecksum = none ∧ p.templateId = none ∧ p.templateVersion = none

/-- The receipt of one step, with `validate_step_status`. -/
structure PlanStepReceipt where
  stepId : PlanStepId
  kind : StepKind
  status : StepStatus
  elapsedMs : Nat
  outputDigest : Option Sha256
  source : SourceEvidence
  provenance : ReceiptProvenance
  errorCode : Option (BoundedText 1 128)
  digest_iff : outputDigest.isSome = true ↔ status = .succeeded
  error_iff : errorCode.isSome = true ↔ status = .failed
  adHoc_full : kind = .adHocCalculation → status = .succeeded → provenance.FullAdHoc
  adHoc_failed : kind = .adHocCalculation → status = .failed → provenance.NoAdHoc
  adHoc_only : kind = .adHocCalculation → provenance.NoCanonical
  other_kind : kind ≠ .adHocCalculation → provenance.NoAdHoc

inductive ExecutionStatus where
  | succeeded | failed | deadlineExceeded
  deriving DecidableEq, Repr

/-- `validate_execution_status` and the bounds of the fields. -/
structure ValidExecution (status : ExecutionStatus) (receipts : List PlanStepReceipt) (outputIds : List PlanStepId)
    (stopReason : Option String) : Prop where
  receipts_length : receipts.length ≤ 16
  outputs_length : outputIds.length ≤ 16
  stop_bounds : validStopReason stopReason
  stop_iff : stopReason = none ↔ status = .succeeded
  unique : (receipts.map (·.stepId)).Nodup
  outputs_eq : outputIds = (receipts.filter (·.status = .succeeded)).map (·.stepId)
  succeeded : status = .succeeded → receipts ≠ [] ∧ ∀ r ∈ receipts, r.status = .succeeded

theorem validExecution_iff (status : ExecutionStatus) (receipts : List PlanStepReceipt) (outputIds : List PlanStepId)
    (stopReason : Option String) : ValidExecution status receipts outputIds stopReason ↔
    receipts.length ≤ 16 ∧ outputIds.length ≤ 16 ∧ validStopReason stopReason ∧ (stopReason = none ↔ status = .succeeded) ∧
      (receipts.map (·.stepId)).Nodup ∧ outputIds = (receipts.filter (·.status = .succeeded)).map (·.stepId) ∧
      (status = .succeeded → receipts ≠ [] ∧ ∀ r ∈ receipts, r.status = .succeeded) :=
  ⟨fun h => ⟨h.1, h.2, h.3, h.4, h.5, h.6, h.7⟩, fun ⟨h1, h2, h3, h4, h5, h6, h7⟩ => ⟨h1, h2, h3, h4, h5, h6, h7⟩⟩

instance (receipts : List PlanStepReceipt) : Decidable (receipts ≠ []) :=
  match receipts with
  | [] => .isFalse fun h => h rfl
  | _ :: _ => .isTrue nofun

instance (status : ExecutionStatus) (receipts : List PlanStepReceipt) (outputIds : List PlanStepId) (stopReason : Option String) :
    Decidable (ValidExecution status receipts outputIds stopReason) :=
  decidable_of_iff' _ (validExecution_iff status receipts outputIds stopReason)

/-- The record of an execution. -/
structure PlanExecutionRecord where
  executionPlanChecksum : Sha256
  status : ExecutionStatus
  stepReceipts : List PlanStepReceipt
  outputStepIds : List PlanStepId
  stopReason : Option String
  valid : ValidExecution status stepReceipts outputStepIds stopReason

/-- What a run returns: its record, and its outputs, which stay with the request. -/
structure PlanExecutionResult where
  record : PlanExecutionRecord
  outputs : Dict PlanStepId Json

/-! ## Runners -/

/-- `PlanStepError`: its constructor strips the code and raises on a blank one. -/
structure PlanStepError where
  code : String
  stripped : strip code = code
  non_empty : code ≠ ""

/-- `PlanStepError(code)`: none where the constructor raises. -/
def PlanStepError.of? (code : String) : Option PlanStepError :=
  if h : strip code = "" then none else some ⟨strip code, strip_strip code, h⟩

/-- The error of a code in the source. -/
def PlanStepError.literal (code : String) (h : strip code = code ∧ code ≠ "") : PlanStepError := ⟨code, h.1, h.2⟩

/-- What the code of a step may raise. -/
inductive StepFailure where
  | stepError (error : PlanStepError)
  | budgetExceeded (message : String)
  /-- any other exception -/
  | raised
  /-- the cancellation by the deadline -/
  | cancelled

/-- A compiled query: its fingerprint and its joins. -/
structure PreparedMetricStep where
  sqlFingerprint : Sha256
  joinHops : Nat
  dependencyFetch : Bool

/-- What the metric runner returns: a value, none when it is not JSON, and the receipt of the gateway. -/
structure MetricStepResult where
  value : Option Json
  receipt : ExecutionReceipt

/-- A call on a runner. -/
inductive RunnerCall (D : CalculationDigests) where
  | prepare (step : FetchMetricStep)
  | execute (prepared : PreparedMetricStep)
  | trusted (step : TrustedCalculationStep) (inputs : Dict RoleName Json)
  | adHoc (step : AdHocCalculationStep D) (inputs : Dict RoleName Json)
  | verify (step : VerifyStep) (inputs : List Json)

/-- The runners of an executor, as functions of the calls made before, and the clock that measures each step. -/
structure PlanRunners (D : CalculationDigests) where
  prepare : List (RunnerCall D) → FetchMetricStep → QueryPlan → ContextBundle → Except StepFailure PreparedMetricStep
  execute : List (RunnerCall D) → PreparedMetricStep → Int → Except StepFailure MetricStepResult
  trusted : Option (List (RunnerCall D) → TrustedCalculationStep → Dict RoleName Json → Except StepFailure (Option Json))
  adHoc : Option (List (RunnerCall D) → AdHocCalculationStep D → Dict RoleName Json → Except StepFailure (Option Json))
  verify : List (RunnerCall D) → VerifyStep → List Json → Except StepFailure (Option Json)
  elapsedMs : PlanStepId → Nat

/-- What a run writes: the ledger, the log of the calls, and the receipts of the gateway. -/
structure RunState (D : CalculationDigests) where
  ledger : RouteBudgetLedger
  calls : List (RunnerCall D)
  gatewayReceipts : Dict PlanStepId ExecutionReceipt

/-! ## One step -/

section Step

variable {D : CalculationDigests}

/-- The code of one step: it may raise, and what it wrote stays written. -/
abbrev StepM (D : CalculationDigests) : Type → Type := EStateM StepFailure (RunState D)

/-- A method of the ledger inside a step. -/
def useLedger {α : Type} (m : LedgerM α) : StepM D α := fun s =>
  match m.run s.ledger with
  | .ok a l => .ok a { s with ledger := l }
  | .error (.budgetExceeded reason) l => .error (.budgetExceeded reason) { s with ledger := l }
  | .error _ l => .error .raised { s with ledger := l }

/-- A call on a runner. -/
def callRunner {α : Type} (call : RunnerCall D) (answer : List (RunnerCall D) → Except StepFailure α) : StepM D α := fun s =>
  match answer s.calls with
  | .ok a => .ok a { s with calls := s.calls ++ [call] }
  | .error e => .error e { s with calls := s.calls ++ [call] }

/-- `raise PlanStepError(code)`, of a code in the source. -/
def raiseStep {α : Type} (code : String) (h : strip code = code ∧ code ≠ "") : StepM D α :=
  throw (.stepError (.literal code h))

/-- `if c: raise PlanStepError(code)`. -/
def raiseStepIf (c : Prop) [Decidable c] (code : String) (h : strip code = code ∧ code ≠ "") : StepM D Unit :=
  if c then raiseStep code h else pure ()

/-- `_json_value`. -/
def jsonValue : Option Json → StepM D Json
  | some value => pure value
  | none => raiseStep "plan_step_output_not_json" (written_ofList rfl)

/-- The output of a step, by the text of its id. -/
def outputOf (outputs : Dict PlanStepId Json) (name : String) : Option Json :=
  if h : isPlanStepId name = true then outputs.get? ⟨name, h⟩ else none

/-- `int(part)` of a part that is digits. -/
def digitsValue (part : String) : Nat := part.toList.foldl (fun n c => 10 * n + (c.toNat - 48)) 0

/-- The loop of `_resolve_ref` over the parts below the root. -/
def descend : List String → Json → Option Json
  | [], value => some value
  | part :: rest, .obj members =>
    match Json.member? part members with
    | some value => descend rest value
    | none => none
  | part :: rest, .arr items =>
    if part ≠ "" ∧ part.toList.all isDigitAscii = true then
      match items[digitsValue part]? with
      | some value => descend rest value
      | none => none
    else
      none
  | _ :: _, _ => none

/-- `_resolve_ref`: none for `execution_input_ref_missing`. -/
def resolveRef (outputs : Dict PlanStepId Json) (ref : PlanInputRef) : Option Json :=
  match split '.' ref.val with
  | [] => none
  | root :: parts => (outputOf outputs root).bind (descend parts)

/-- The resolved value, or the error of a reference that has none. -/
def orMissing {α : Type} : Option α → StepM D α
  | some a => pure a
  | none => raiseStep "execution_input_ref_missing" (written_ofList rfl)

/-- A JSON value that is no object and no array. -/
def isScalar : Json → Bool
  | .obj _ => false
  | .arr _ => false
  | _ => true

/-- `error_taxonomy or "query_gateway_policy_denied"`. -/
def taxonomyCode : Option String → String
  | some text => if text = "" then "query_gateway_policy_denied" else text
  | none => "query_gateway_policy_denied"

/-- `raise PlanStepError(error_taxonomy or "query_gateway_policy_denied")`: the constructor raises on a blank taxonomy. -/
def raiseTaxonomy (taxonomy : Option String) : StepM D Unit :=
  match PlanStepError.of? (taxonomyCode taxonomy) with
  | some error => throw (.stepError error)
  | none => throw .raised

/-- The checks of the gateway's receipt. -/
def checkReceipt (prepared : PreparedMetricStep) (receipt : ExecutionReceipt) : StepM D Unit := do
  raiseStepIf (receipt.sqlFingerprint ≠ prepared.sqlFingerprint.val) "execution_receipt_fingerprint_mismatch" (written_ofList rfl)
  raiseStepIf (isBlank receipt.policyVersion = true) "execution_receipt_policy_missing" (written_ofList rfl)
  raiseStepIf (isBlank receipt.datasource = true ∨ isBlank receipt.readonlyRole = true) "execution_receipt_identity_missing"
    (by decide)
  if receipt.policyOutcome ≠ .allow ∨ receipt.errorTaxonomy ≠ none then raiseTaxonomy receipt.errorTaxonomy else pure ()

/-- `if stop_reason is not None: raise BudgetExceeded(stop_reason)`. -/
def raiseStopped : Option String → StepM D Unit
  | some stopReason => throw (.budgetExceeded stopReason)
  | none => pure ()

/-- A fetch: compile, account, execute, check the receipt. -/
def executeFetch (R : PlanRunners D) (queryPlan : QueryPlan) (context : ContextBundle) (timeoutMs : Int) (step : FetchMetricStep) :
    StepM D Json := do
  let prepared ← callRunner (.prepare step) fun calls => R.prepare calls step queryPlan context
  let stopReason ← useLedger (RouteBudgetLedger.recordSqlCandidate prepared.sqlFingerprint)
  raiseStopped stopReason
  useLedger (RouteBudgetLedger.observeJoinHops prepared.joinHops)
  useLedger RouteBudgetLedger.beginSqlExecution
  let result ← callRunner (.execute prepared) fun calls => R.execute calls prepared timeoutMs
  checkReceipt prepared result.receipt
  modify fun s => { s with gatewayReceipts := s.gatewayReceipts.set step.stepId result.receipt }
  jsonValue result.value

/-- A trusted calculation. -/
def executeTrusted (R : PlanRunners D) (outputs : Dict PlanStepId Json) (step : TrustedCalculationStep) : StepM D Json :=
  match R.trusted with
  | none => raiseStep "trusted_calculation_unavailable" (written_ofList rfl)
  | some runner => do
    let inputs ← orMissing (step.inputRefs.mapValues? (resolveRef outputs))
    let output ← callRunner (.trusted step inputs) fun calls => runner calls step inputs
    jsonValue output

/-- An AD_HOC calculation: its inputs are scalars. -/
def executeAdHoc (R : PlanRunners D) (outputs : Dict PlanStepId Json) (step : AdHocCalculationStep D) : StepM D Json :=
  match R.adHoc with
  | none => raiseStep "ad_hoc_calculation_unavailable" (written_ofList rfl)
  | some runner => do
    let inputs ← orMissing (step.inputRefs.mapValues? (resolveRef outputs))
    raiseStepIf (inputs.values.all isScalar = false) "ad_hoc_calculation_scalar_input_required" (written_ofList rfl)
    let output ← callRunner (.adHoc step inputs) fun calls => runner calls step inputs
    jsonValue output

/-- A verification. -/
def executeVerify (R : PlanRunners D) (outputs : Dict PlanStepId Json) (step : VerifyStep) : StepM D Json := do
  let inputs ← orMissing (step.inputRefs.mapM (resolveRef outputs))
  let output ← callRunner (.verify step inputs) fun calls => R.verify calls step inputs
  jsonValue output

/-- `_execute_step`. -/
def executeStep (R : PlanRunners D) (queryPlan : QueryPlan) (context : ContextBundle) (timeoutMs : Int)
    (outputs : Dict PlanStepId Json) : PlanStep D → StepM D Json
  | .fetch step => executeFetch R queryPlan context timeoutMs step
  | .trusted step => executeTrusted R outputs step
  | .adHoc step => executeAdHoc R outputs step
  | .verify step => executeVerify R outputs step

end Step

/-! ## The order of the steps -/

section Order

variable {D : CalculationDigests}

/-- The steps that are ready: not resolved, with every dependency resolved, in the order of their ids. -/
def readySteps (steps : List (PlanStep D)) (resolved : List PlanStepId) : List (PlanStep D) :=
  (steps.filter fun step => step.stepId ∉ resolved ∧ ∀ d ∈ step.dependsOn, d ∈ resolved).insertionSort
    fun a b => a.stepId.val ≤ b.stepId.val

/-- The loop of `_ordered_steps`: none where it raises. A round resolves a step, so as many rounds as steps are enough. -/
def orderedLoop (steps : List (PlanStep D)) : Nat → List PlanStepId → List (PlanStep D) → Option (List (PlanStep D))
  | rounds, resolved, ordered =>
    if ordered.length < steps.length then
      match rounds with
      | 0 => none
      | rounds + 1 =>
        match readySteps steps resolved with
        | [] => none
        | ready => orderedLoop steps rounds (resolved ++ ready.map (·.stepId)) (ordered ++ ready)
    else
      some ordered

/-- `_ordered_steps`. -/
def orderedSteps (plan : ExecutionPlan D) : Option (List (PlanStep D)) := orderedLoop plan.steps plan.steps.length [] []

end Order

/-! ## The executor -/

/-- The digests of an execution: those of its plan, and of an output. -/
structure ExecutionDigests extends PlanDigests where
  json : Json → Sha256

/-- What an execution may raise. -/
inductive ExecuteError where
  /-- the plan is not read back -/
  | snapshot
  /-- the code of a failed step does not fit its receipt -/
  | receipt (code : String)
  /-- the record is not valid -/
  | record
  /-- `halt` was given a blank reason -/
  | blankReason
  | dependencyCycle
  deriving DecidableEq, Repr

/-- A request to execute a plan. -/
structure ExecutionRequest (D : CalculationDigests) where
  queryPlan : QueryPlan
  context : ContextBundle
  executionPlan : ExecutionPlan D
  validation : PlanValidationRecord
  expectedPolicyVersion : String
  expectedPolicyChecksum : String
  deadlineMs : Int

namespace PlanExecutor

variable (D : ExecutionDigests) (R : PlanRunners D.toCalculationDigests)

/-- The executor: it may raise, and what it wrote stays written. -/
abbrev ExecM (D : CalculationDigests) : Type → Type := EStateM ExecuteError (RunState D)

/-- `_execution_plan_mismatch`. -/
def planMismatch? (queryPlan : QueryPlan) (context : ContextBundle) (plan : ExecutionPlan D.toCalculationDigests) : Option String :=
  if plan.queryPlanSha256 ≠ D.queryPlan queryPlan then some "execution_plan_query_hash_mismatch"
  else if plan.semanticReleaseId ≠ context.semanticReleaseId then some "execution_plan_semantic_release_mismatch"
  else if plan.schemaSnapshotId ≠ context.schemaSnapshotId then some "execution_plan_schema_snapshot_mismatch"
  else none

/-- `_execution_validation_mismatch`. -/
def validationMismatch? (request : ExecutionRequest D.toCalculationDigests) (plan : ExecutionPlan D.toCalculationDigests) :
    Option String :=
  let validation := request.validation
  if validation.outcome ≠ .allow then some "execution_plan_validation_denied"
  else if validation.queryPlanSha256 ≠ D.queryPlan request.queryPlan then some "execution_plan_query_hash_mismatch"
  else if validation.contextChecksum ≠ D.context request.context then some "execution_plan_context_hash_mismatch"
  else if validation.executionPlanSha256 ≠ some (D.executionPlan plan) then some "execution_plan_checksum_mismatch"
  else if validation.policyVersion.val ≠ request.expectedPolicyVersion then some "execution_plan_policy_version_mismatch"
  else if validation.policyChecksum.val ≠ request.expectedPolicyChecksum then some "execution_plan_policy_checksum_mismatch"
  else none

/-- The first check that fails. -/
def mismatch? (request : ExecutionRequest D.toCalculationDigests) (plan : ExecutionPlan D.toCalculationDigests) : Option String :=
  match planMismatch? D request.queryPlan request.context plan with
  | some code => some code
  | none => validationMismatch? D request plan

/-- The provenance of a calculation that succeeded. -/
def provenanceOf : PlanStep D.toCalculationDigests → ReceiptProvenance
  | .trusted step =>
    { templateId := some ⟨step.templateId.val, matchesName_length step.templateId.property⟩
      templateVersion := step.binding.map (·.templateVersion)
      bindingChecksum := step.binding.map (·.bindingChecksum)
      outputMetricKey := step.binding.map (·.outputMetricKey) }
  | .adHoc step =>
    { calculationSpecChecksum := some (step.calculationSpec.checksum D.toCalculationDigests)
      executionBindingChecksum := some (D.binding step.executionBinding)
      derivedOutputId := some step.derivedOutputId
      calculationScope := some .adHocNoncanonical }
  | _ => {}

/-- The receipt of a step that succeeded. -/
def succeededStep (step : PlanStep D.toCalculationDigests) (elapsedMs : Nat) (output : Json) (gateway : Option ExecutionReceipt) :
    PlanStepReceipt where
  stepId := step.stepId
  kind := step.kind
  status := .succeeded
  elapsedMs := elapsedMs
  outputDigest := some (D.json output)
  source := (gateway.map (·.source)).getD {}
  provenance := provenanceOf D step
  errorCode := none
  digest_iff := by simp
  error_iff := by simp
  adHoc_full := by cases step <;> simp [PlanStep.kind, provenanceOf, ReceiptProvenance.FullAdHoc]
  adHoc_failed := by simp
  adHoc_only := by cases step <;> simp [PlanStep.kind, provenanceOf, ReceiptProvenance.NoCanonical]
  other_kind := by cases step <;> simp [PlanStep.kind, provenanceOf, ReceiptProvenance.NoAdHoc]

variable {D}

/-- `_failed_step`: it raises where the code does not fit the receipt. -/
def failedStep (step : PlanStep D.toCalculationDigests) (elapsedMs : Nat) (code : String) :
    ExecM D.toCalculationDigests PlanStepReceipt :=
  if h : 1 ≤ code.length ∧ code.length ≤ 128 then
    pure
      { stepId := step.stepId
        kind := step.kind
        status := .failed
        elapsedMs := elapsedMs
        outputDigest := none
        source := {}
        provenance := {}
        errorCode := some ⟨code, h⟩
        digest_iff := by simp
        error_iff := by simp
        adHoc_full := by simp
        adHoc_failed := fun _ _ => ⟨rfl, rfl, rfl, rfl⟩
        adHoc_only := fun _ => ⟨rfl, rfl, rfl, rfl⟩
        other_kind := fun _ => ⟨rfl, rfl, rfl, rfl⟩ }
  else
    throw (.receipt code)

/-- `budget.halt(reason)` outside a step. -/
def haltWith (reason : String) : ExecM D.toCalculationDigests String := fun s =>
  match (RouteBudgetLedger.halt reason).run s.ledger with
  | .ok code l => .ok code { s with ledger := l }
  | .error _ l => .error .blankReason { s with ledger := l }

/-- `budget.stop_reason or budget.halt(reason)`. -/
def stopReasonOr (reason : String) : ExecM D.toCalculationDigests String := do
  match (← get).ledger.stopReason with
  | some stopped => if stopped = "" then haltWith reason else pure stopped
  | none => haltWith reason

variable (D)

/-- `PlanExecutionResult(record=PlanExecutionRecord(...), outputs=outputs)`. -/
def result (plan : ExecutionPlan D.toCalculationDigests) (status : ExecutionStatus) (receipts : List PlanStepReceipt)
    (outputs : Dict PlanStepId Json) (stopReason : Option String) : ExecM D.toCalculationDigests PlanExecutionResult :=
  if h : ValidExecution status receipts outputs.keys stopReason then
    pure ⟨⟨D.executionPlan plan, status, receipts, outputs.keys, stopReason, h⟩, outputs⟩
  else
    throw .record

/-- The exits of a step that failed, but for the deadline's. -/
def failWith (plan : ExecutionPlan D.toCalculationDigests) (step : PlanStep D.toCalculationDigests)
    (receipts : List PlanStepReceipt) (outputs : Dict PlanStepId Json) (code : String) :
    ExecM D.toCalculationDigests PlanExecutionResult := do
  let receipt ← failedStep step (R.elapsedMs step.stepId) code
  result D plan .failed (receipts ++ [receipt]) outputs (some code)

/-- `except TimeoutError`: the step the deadline fell in has a failed receipt, unless it has one already. -/
def deadlineExceeded (plan : ExecutionPlan D.toCalculationDigests) (current : Option (PlanStep D.toCalculationDigests))
    (receipts : List PlanStepReceipt) (outputs : Dict PlanStepId Json) : ExecM D.toCalculationDigests PlanExecutionResult := do
  let code ← haltWith "execution_deadline_exceeded"
  let receipts ←
    match current with
    | none => pure receipts
    | some step =>
      if receipts.any (fun r => r.stepId = step.stepId) then
        pure receipts
      else do
        let receipt ← failedStep step (R.elapsedMs step.stepId) code
        pure (receipts ++ [receipt])
  result D plan .deadlineExceeded receipts outputs (some code)

/-- One step, with what it raised: what it wrote stays written. -/
def attempt {α : Type} (m : StepM D.toCalculationDigests α) : ExecM D.toCalculationDigests (Except StepFailure α) := fun s =>
  match m.run s with
  | .ok a s' => .ok (.ok a) s'
  | .error e s' => .ok (.error e) s'

/-- The loop over the ordered steps, with the outputs and the receipts so far. -/
def runSteps (request : ExecutionRequest D.toCalculationDigests) (plan : ExecutionPlan D.toCalculationDigests) (timeoutMs : Int) :
    List (PlanStep D.toCalculationDigests) → Dict PlanStepId Json → List PlanStepReceipt →
      ExecM D.toCalculationDigests PlanExecutionResult
  | [], outputs, receipts => result D plan .succeeded receipts outputs none
  | step :: rest, outputs, receipts => do
    match ← attempt D (executeStep R request.queryPlan request.context timeoutMs outputs step) with
    | .error .cancelled => deadlineExceeded D R plan (some step) receipts outputs
    | .error (.budgetExceeded message) => failWith D R plan step receipts outputs (← stopReasonOr message)
    | .error (.stepError error) => failWith D R plan step receipts outputs (← haltWith error.code)
    | .error .raised => failWith D R plan step receipts outputs (← haltWith "plan_step_failed")
    | .ok output =>
      let gateway := (← get).gatewayReceipts.get? step.stepId
      runSteps request plan timeoutMs rest (outputs.set step.stepId output)
        (receipts ++ [succeededStep D step (R.elapsedMs step.stepId) output gateway])

/-- `_failed_result`, after the ledger is halted. -/
def refuse (plan : ExecutionPlan D.toCalculationDigests) (status : ExecutionStatus) (code : String) :
    ExecM D.toCalculationDigests PlanExecutionResult := do
  let _ ← haltWith code
  result D plan status [] Dict.empty (some code)

/-- The time a run has: the deadline, or the route's, less the reserve. -/
def timeoutMs (ledger : RouteBudgetLedger) (deadlineMs : Int) : Int :=
  min deadlineMs ledger.limits.deadlineMs - ledger.policy.reserveMs

/-- `execute`. -/
def execute (request : ExecutionRequest D.toCalculationDigests) : ExecM D.toCalculationDigests PlanExecutionResult := do
  match request.executionPlan.snapshot? with
  | none => throw .snapshot
  | some plan =>
    match mismatch? D request plan with
    | some code => refuse D plan .failed code
    | none =>
      if request.deadlineMs < 1 then
        refuse D plan .deadlineExceeded "execution_deadline_unavailable"
      else
        let timeout := timeoutMs (← get).ledger request.deadlineMs
        if timeout < 1 then
          refuse D plan .deadlineExceeded "deadline_reserve"
        else
          match orderedSteps plan with
          | none => throw .dependencyCycle
          | some ordered => runSteps D R request plan timeout ordered Dict.empty []

end PlanExecutor

end Nl2Sql
