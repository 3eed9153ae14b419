import Nl2Sql.Calculation.Spec

/-!
# The contracts of a plan

`contracts.py`: the query plan, the resolved context, the typed steps of an execution plan and the record of a validation. The
validators of the models are fields of the structures, so a value that pydantic rejects does not exist; what builds a value from
parts that may be rejected returns none instead. Checksums are functions of the content, as in `Calculation.Spec`.
-/

namespace Nl2Sql

open Py

/-- The positions of the dashes of a UUID's text. -/
def isUuidText (s : String) : Bool :=
  decide (s.length = 36) &&
    s.toList.zipIdx.all fun (c, i) =>
      if i == 8 || i == 13 || i == 18 || i == 23 then c == '-' else isDigitAscii c || ('a' ≤ c && c ≤ 'f')

/-- A UUID, by its canonical text: what `str` gives. -/
abbrev Uuid : Type := { s : String // isUuidText s = true }

/-! ## The query plan and the context -/

/-- Identifiers that `validate_unique_plan_values` accepts. -/
def validIdentifiers (values : List String) : Prop := (∀ v ∈ values, isBlank v = false) ∧ values.Nodup

instance (values : List String) : Decidable (validIdentifiers values) :=
  inferInstanceAs (Decidable ((∀ v ∈ values, isBlank v = false) ∧ values.Nodup))

theorem single_length (key : String) : 1 ≤ [key].length ∧ [key].length ≤ 16 := ⟨Nat.le_refl 1, Nat.le_of_ble_eq_true rfl⟩

theorem single_valid (key : String) (h : isBlank key = false) : validIdentifiers [key] :=
  ⟨fun _ hv => List.mem_singleton.mp hv ▸ h, List.nodup_singleton _⟩

structure TimeRange where
  start : Date
  stop : Date
  timezone : BoundedText 1 128
  ordered : start ≤ stop
  deriving DecidableEq

theorem shanghai_length : 1 ≤ "Asia/Shanghai".length ∧ "Asia/Shanghai".length ≤ 128 := by decide

inductive FilterOperator where
  | eq | ne | isIn | between | gt | gte | lt | lte | isNull | isNotNull
  deriving DecidableEq, Repr

inductive FilterSource where
  | user | entityAlias | semanticDefault
  deriving DecidableEq, Repr

/-- The pattern of a field reference: `^[A-Za-z_][A-Za-z0-9_.-]*$`, at most 256 characters. -/
def isFieldRef (s : String) : Bool :=
  matchesName (fun c => isLowerAscii c || isUpperAscii c || c == '_')
    (fun c => isLowerAscii c || isUpperAscii c || isDigitAscii c || c == '_' || c == '.' || c == '-') 255 s

/-- `validate_operator_value`: the null tests carry no value, the others carry one of the shape they need. -/
def FilterOperator.accepts : FilterOperator → Option Json → Prop
  | .isNull, value => value = none
  | .isNotNull, value => value = none
  | .isIn, value => ∃ items, value = some (.arr items) ∧ items ≠ []
  | .between, value => ∃ items, value = some (.arr items) ∧ items.length = 2
  | _, value => ∃ v, value = some v

/-- A typed filter bound to a semantic field. -/
structure BoundFilter where
  fieldRef : { s : String // isFieldRef s = true }
  operator : FilterOperator
  value : Option Json
  source : FilterSource
  value_ok : operator.accepts value

inductive QueryIntent where
  | metric | trend | comparison | ranking | detail
  deriving DecidableEq, Repr

inductive QueryGrain where
  | hour | day | week | month | quarter | year
  deriving DecidableEq, Repr

inductive SourceStrategy where
  | aggregateFirst | detailRequired
  deriving DecidableEq, Repr

/-- An untrusted declarative proposal. -/
structure QueryPlan where
  intent : QueryIntent
  domain : BoundedText 1 128
  metricKeys : List String
  dimensions : List String
  filters : List BoundFilter
  timeRange : TimeRange
  availableDates : List Date
  grain : QueryGrain
  sourceStrategy : SourceStrategy
  resultLimit : Option Nat
  requiredPermissions : List String
  unresolvedSlots : List String
  metricKeys_length : 1 ≤ metricKeys.length ∧ metricKeys.length ≤ 16
  metricKeys_valid : validIdentifiers metricKeys
  dimensions_length : dimensions.length ≤ 16
  dimensions_valid : validIdentifiers dimensions
  filters_length : filters.length ≤ 32
  permissions_length : requiredPermissions.length ≤ 32
  permissions_valid : validIdentifiers requiredPermissions
  slots_length : unresolvedSlots.length ≤ 16
  slots_valid : validIdentifiers unresolvedSlots
  limit_bounds : ∀ n ∈ resultLimit, 1 ≤ n ∧ n ≤ 100
  limit_ranking : intent ≠ .ranking → resultLimit = none
  dates_length : availableDates.length ≤ 31
  dates_trend : availableDates ≠ [] → intent = .trend
  dates_ordered : availableDates.Pairwise (· < ·)
  dates_inside : ∀ d ∈ availableDates, timeRange.start ≤ d ∧ d ≤ timeRange.stop

/-- `ranking_limit`. -/
def QueryPlan.rankingLimit (plan : QueryPlan) : Nat := plan.resultLimit.getD 10

inductive ResolutionStatus where
  | resolved | ambiguous | incomplete | conflict
  deriving DecidableEq, Repr

/-- Policy-filtered, release-bound semantic context. -/
structure ContextBundle where
  semanticReleaseId : Uuid
  schemaSnapshotId : Uuid
  domains : List String
  assetIds : List String
  approvedRelationIds : List String
  approvedEdgeIds : List String
  resolutionStatus : ResolutionStatus
  unresolvedSlots : List String
  conflictIds : List String
  degradationFlags : List String
  tokenCost : Nat
  evidenceCount : Nat
  domains_length : 1 ≤ domains.length ∧ domains.length ≤ 8
  assets_length : 1 ≤ assetIds.length ∧ assetIds.length ≤ 20
  relations_length : approvedRelationIds.length ≤ 8
  edges_length : approvedEdgeIds.length ≤ 16
  slots_length : unresolvedSlots.length ≤ 16
  conflicts_length : conflictIds.length ≤ 16
  flags_length : degradationFlags.length ≤ 16
  cost_bound : tokenCost ≤ 10000
  evidence_bound : evidenceCount ≤ 20
  all_valid : ∀ values ∈ [domains, assetIds, approvedRelationIds, approvedEdgeIds, unresolvedSlots, conflictIds, degradationFlags],
    validIdentifiers values

/-! ## The steps of an execution plan -/

/-- The pattern of a step id: `^[a-z][a-z0-9_-]{0,63}$`. -/
def isPlanStepId (s : String) : Bool :=
  matchesName isLowerAscii (fun c => isLowerAscii c || isDigitAscii c || c == '_' || c == '-') 63 s

/-- The identifier of a step. -/
abbrev PlanStepId : Type := { s : String // isPlanStepId s = true }

instance PlanStepId.lawfulBEq : LawfulBEq PlanStepId := inferInstance

/-- One part of a reference below its step: a name or an index. -/
def isRefPart (s : String) : Bool :=
  matchesName (fun c => isLowerAscii c || isUpperAscii c || c == '_')
    (fun c => isLowerAscii c || isUpperAscii c || isDigitAscii c || c == '_' || c == '-') 63 s ||
  (s != "" && s.toList.all isDigitAscii)

/-- The pattern of a reference: a step id and parts below it, with dots between them, at most 256 characters. -/
def isPlanInputRef (s : String) : Bool :=
  decide (s.length ≤ 256) &&
    match split '.' s with
    | [] => false
    | root :: parts => isPlanStepId root && parts.all isRefPart

/-- A reference to an output of a step. -/
abbrev PlanInputRef : Type := { s : String // isPlanInputRef s = true }

/-- `ref.split(".", 1)[0]`: the step a reference is to. -/
def PlanInputRef.root (ref : PlanInputRef) : String := (split '.' ref.val).headD ""

/-- `f"{step_id}.value"`: the reference to the value a dependency fetch projects. -/
def valueRef (id : PlanStepId) : String := id.val ++ ".value"

/-- There is no dot in a step id. -/
theorem PlanStepId.dot_not_mem (id : PlanStepId) : '.' ∉ id.val.toList := by
  obtain ⟨s, hs⟩ := id
  unfold isPlanStepId matchesName at hs
  split at hs
  · cases hs
  · rename_i c cs heq
    simp only [Bool.and_eq_true, List.all_eq_true] at hs
    obtain ⟨⟨hc, hcs⟩, -⟩ := hs
    simp only [heq, List.mem_cons, not_or]
    constructor
    · rintro rfl
      revert hc
      decide
    · intro hmem
      have hdot := hcs '.' hmem
      revert hdot
      decide

theorem PlanStepId.length_le (id : PlanStepId) : id.val.length ≤ 64 := by
  obtain ⟨s, hs⟩ := id
  unfold isPlanStepId matchesName at hs
  split at hs
  · cases hs
  · rename_i c cs heq
    simp only [Bool.and_eq_true, decide_eq_true_eq] at hs
    rw [← String.length_toList, heq, List.length_cons]
    omega

theorem split_stepId (id : PlanStepId) : split '.' id.val = [id.val] := split_of_not_mem id.dot_not_mem

theorem split_valueRef (id : PlanStepId) : split '.' (valueRef id) = [id.val, "value"] := by
  have hvalue : split '.' "value" = ["value"] := by decide
  have hsplit := split_append (t := "value") id.dot_not_mem
  rw [hvalue] at hsplit
  exact hsplit

/-- The reference to the whole output of a step. -/
def PlanStepId.ref (id : PlanStepId) : PlanInputRef :=
  ⟨id.val, by
    have hlen := id.length_le
    simp only [isPlanInputRef, split_stepId, id.property, List.all_nil, Bool.and_true, decide_eq_true_eq]
    omega⟩

/-- The reference to the value a dependency fetch projects. -/
def PlanStepId.valueRef (id : PlanStepId) : PlanInputRef :=
  ⟨Nl2Sql.valueRef id, by
    have hlen := id.length_le
    have hpart : isRefPart "value" = true := by decide
    have hvalue : (Nl2Sql.valueRef id).length = id.val.length + 6 := by
      rw [Nl2Sql.valueRef, String.length_append]
      rfl
    simp only [isPlanInputRef, split_valueRef, id.property, List.all_cons, List.all_nil, hpart, Bool.and_true, decide_eq_true_eq]
    omega⟩

/-- The marks of a fetch that feeds one calculation. The three fields of a mark are present together or absent together, and the
two marks exclude each other (`validate_dependency_fetch_provenance`). -/
inductive FetchProvenance where
  | none
  /-- of a canonical calculation: `calculation_input_role`, `calculation_binding_checksum`, `calculation_output_metric_key` -/
  | canonical (role : RoleName) (bindingChecksum : Sha256) (outputMetricKey : BoundedText 1 256)
  /-- of an AD_HOC calculation: `ad_hoc_input_role`, `ad_hoc_spec_checksum`, `ad_hoc_derived_output_id` -/
  | adHoc (role : RoleName) (specChecksum : Sha256) (derivedOutputId : DerivedOutputId)
  deriving DecidableEq

/-- Fetch some metrics. -/
structure FetchMetricStep where
  stepId : PlanStepId
  metricKeys : List String
  dependsOn : List PlanStepId
  provenance : FetchProvenance
  keys_length : 1 ≤ metricKeys.length ∧ metricKeys.length ≤ 16
  keys_unique : metricKeys.Nodup
  depends_length : dependsOn.length ≤ 16
  depends_unique : dependsOn.Nodup
  marked_single : provenance ≠ .none → metricKeys.length = 1
  deriving DecidableEq

/-- `calculation_input_role`. -/
def FetchMetricStep.calculationInputRole (step : FetchMetricStep) : Option RoleName :=
  match step.provenance with
  | .canonical role _ _ => some role
  | _ => none

/-- `calculation_binding_checksum`. -/
def FetchMetricStep.calculationBindingChecksum (step : FetchMetricStep) : Option Sha256 :=
  match step.provenance with
  | .canonical _ checksum _ => some checksum
  | _ => none

/-- `calculation_output_metric_key`. -/
def FetchMetricStep.calculationOutputMetricKey (step : FetchMetricStep) : Option String :=
  match step.provenance with
  | .canonical _ _ key => some key
  | _ => none

/-- `ad_hoc_input_role`. -/
def FetchMetricStep.adHocInputRole (step : FetchMetricStep) : Option RoleName :=
  match step.provenance with
  | .adHoc role _ _ => some role
  | _ => none

/-- `ad_hoc_spec_checksum`. -/
def FetchMetricStep.adHocSpecChecksum (step : FetchMetricStep) : Option Sha256 :=
  match step.provenance with
  | .adHoc _ checksum _ => some checksum
  | _ => none

/-- `ad_hoc_derived_output_id`. -/
def FetchMetricStep.adHocDerivedOutputId (step : FetchMetricStep) : Option DerivedOutputId :=
  match step.provenance with
  | .adHoc _ _ id => some id
  | _ => none

/-- The provenance of a canonical calculation: all four fields, or none (`validate_binding_provenance`). -/
structure BindingProvenance where
  templateVersion : BoundedText 1 64
  templateChecksum : Sha256
  bindingChecksum : Sha256
  outputMetricKey : BoundedText 1 256
  deriving DecidableEq

/-- Run one trusted template. -/
structure TrustedCalculationStep where
  stepId : PlanStepId
  templateId : ContractId
  inputRefs : Dict RoleName PlanInputRef
  dependsOn : List PlanStepId
  binding : Option BindingProvenance
  refs_length : 1 ≤ inputRefs.entries.length ∧ inputRefs.entries.length ≤ 32
  depends_length : 1 ≤ dependsOn.length ∧ dependsOn.length ≤ 16
  depends_unique : dependsOn.Nodup
  deriving DecidableEq

/-- `declares_canonical_binding`. -/
def TrustedCalculationStep.declaresCanonicalBinding (step : TrustedCalculationStep) : Bool := step.binding.isSome

/-- `output_metric_key`. -/
def TrustedCalculationStep.outputMetricKey (step : TrustedCalculationStep) : Option String :=
  step.binding.map (·.outputMetricKey.val)

/-- Evaluate one AD_HOC calculation. Its own validator proves the binding contract-valid, the references to be those of the roles
the expression uses, and the derived output to be the one of the spec and the binding. -/
structure AdHocCalculationStep (D : CalculationDigests) where
  stepId : PlanStepId
  calculationSpec : CalculationSpec
  executionBinding : CalculationExecutionBinding
  inputRefs : Dict RoleName PlanInputRef
  dependsOn : List PlanStepId
  derivedOutputId : DerivedOutputId
  refs_length : 1 ≤ inputRefs.entries.length ∧ inputRefs.entries.length ≤ 32
  depends_length : 1 ≤ dependsOn.length ∧ dependsOn.length ≤ 16
  depends_unique : dependsOn.Nodup
  binding_valid : executionBinding.bindingFailures D calculationSpec = []
  refs_roles : SameSet (inputRefs.keys.map (·.val)) calculationSpec.referencedRoles
  derived_eq : derivedOutputId = Nl2Sql.derivedOutputId D calculationSpec executionBinding

/-- Check the invariants of some outputs. -/
structure VerifyStep where
  stepId : PlanStepId
  inputRefs : List PlanInputRef
  invariantIds : List String
  dependsOn : List PlanStepId
  refs_length : 1 ≤ inputRefs.length ∧ inputRefs.length ≤ 32
  invariants_length : 1 ≤ invariantIds.length ∧ invariantIds.length ≤ 32
  depends_length : 1 ≤ dependsOn.length ∧ dependsOn.length ≤ 16
  refs_unique : inputRefs.Nodup
  invariants_unique : invariantIds.Nodup
  depends_unique : dependsOn.Nodup
  deriving DecidableEq

/-- A registered step, selected by its kind. -/
inductive PlanStep (D : CalculationDigests) where
  | fetch (step : FetchMetricStep)
  | trusted (step : TrustedCalculationStep)
  | adHoc (step : AdHocCalculationStep D)
  | verify (step : VerifyStep)

inductive StepKind where
  | fetchMetric | trustedCalculation | adHocCalculation | verify
  deriving DecidableEq, Repr

namespace PlanStep

variable {D : CalculationDigests}

def stepId : PlanStep D → PlanStepId
  | .fetch step => step.stepId
  | .trusted step => step.stepId
  | .adHoc step => step.stepId
  | .verify step => step.stepId

def dependsOn : PlanStep D → List PlanStepId
  | .fetch step => step.dependsOn
  | .trusted step => step.dependsOn
  | .adHoc step => step.dependsOn
  | .verify step => step.dependsOn

def kind : PlanStep D → StepKind
  | .fetch _ => .fetchMetric
  | .trusted _ => .trustedCalculation
  | .adHoc _ => .adHocCalculation
  | .verify _ => .verify

/-- The references of a step to outputs of others. -/
def refs : PlanStep D → List PlanInputRef
  | .fetch _ => []
  | .trusted step => step.inputRefs.values
  | .adHoc step => step.inputRefs.values
  | .verify step => step.inputRefs

def fetch? : PlanStep D → Option FetchMetricStep
  | .fetch step => some step
  | _ => none

def trusted? : PlanStep D → Option TrustedCalculationStep
  | .trusted step => some step
  | _ => none

def adHoc? : PlanStep D → Option (AdHocCalculationStep D)
  | .adHoc step => some step
  | _ => none

def verify? : PlanStep D → Option VerifyStep
  | .verify step => some step
  | _ => none

end PlanStep

section Dag

variable {D : CalculationDigests}

/-- The loop of `validate_typed_dag` over the steps that are pending: the ready ones are resolved together, and the loop raises when
none is ready. The first argument bounds the rounds; a round resolves a step. -/
def dagLoop : Nat → List (PlanStep D) → List PlanStepId → Bool
  | _, [], _ => true
  | 0, _ :: _, _ => false
  | rounds + 1, pending, resolved =>
    let ready := pending.filter fun step => step.dependsOn.all (· ∈ resolved)
    if ready.isEmpty then
      false
    else
      dagLoop rounds (pending.filter fun step => !step.dependsOn.all (· ∈ resolved)) (resolved ++ ready.map (·.stepId))

/-- `validate_typed_dag`: the ids are unique, a dependency is another step, a reference is to a dependency, and there is no cycle. -/
structure ValidTypedDag (steps : List (PlanStep D)) : Prop where
  ids_unique : (steps.map (·.stepId)).Nodup
  not_self : ∀ step ∈ steps, step.stepId ∉ step.dependsOn
  known : ∀ step ∈ steps, ∀ d ∈ step.dependsOn, d ∈ steps.map (·.stepId)
  refs_declared : ∀ step ∈ steps, ∀ ref ∈ step.refs, ref.root ∈ step.dependsOn.map (·.val)
  resolves : dagLoop steps.length steps [] = true

theorem validTypedDag_iff (steps : List (PlanStep D)) : ValidTypedDag steps ↔
    (steps.map (·.stepId)).Nodup ∧ (∀ step ∈ steps, step.stepId ∉ step.dependsOn) ∧
      (∀ step ∈ steps, ∀ d ∈ step.dependsOn, d ∈ steps.map (·.stepId)) ∧
      (∀ step ∈ steps, ∀ ref ∈ step.refs, ref.root ∈ step.dependsOn.map (·.val)) ∧ dagLoop steps.length steps [] = true :=
  ⟨fun h => ⟨h.ids_unique, h.not_self, h.known, h.refs_declared, h.resolves⟩, fun ⟨h1, h2, h3, h4, h5⟩ => ⟨h1, h2, h3, h4, h5⟩⟩

instance (steps : List (PlanStep D)) : Decidable (ValidTypedDag steps) := decidable_of_iff' _ (validTypedDag_iff steps)

end Dag

/-- A registered typed DAG compiled from one validated query plan. -/
structure ExecutionPlan (D : CalculationDigests) where
  queryPlanSha256 : Sha256
  semanticReleaseId : Uuid
  schemaSnapshotId : Uuid
  policyVersion : BoundedText 1 128
  steps : List (PlanStep D)
  steps_length : 1 ≤ steps.length ∧ steps.length ≤ 16
  dag : ValidTypedDag steps

namespace ExecutionPlan

variable {D : CalculationDigests} (plan : ExecutionPlan D)

/-- The fetches of a plan. -/
def fetchSteps : List FetchMetricStep := plan.steps.filterMap PlanStep.fetch?

/-- The AD_HOC calculations of a plan. -/
def adHocSteps : List (AdHocCalculationStep D) := plan.steps.filterMap PlanStep.adHoc?

/-- The trusted calculations of a plan. -/
def trustedSteps : List TrustedCalculationStep := plan.steps.filterMap PlanStep.trusted?

/-- The verifications of a plan. -/
def verifySteps : List VerifyStep := plan.steps.filterMap PlanStep.verify?

/-- The canonical calculations of a plan. -/
def canonicalSteps : List TrustedCalculationStep := plan.trustedSteps.filter (·.declaresCanonicalBinding)

/-- `{item.step_id: item for item in execution_plan.steps}.get(step_id)`. -/
def step? (id : PlanStepId) : Option (PlanStep D) := plan.steps.find? (·.stepId = id)

end ExecutionPlan

/-! ## The record of a validation -/

inductive ValidationOutcome where
  | allow | deny | clarify | approval
  deriving DecidableEq, Repr

structure PlanValidationIssue where
  code : String
  path : String
  safeMessage : String
  deriving DecidableEq, Repr

/-- The replayable result of validating a query plan or an execution plan. -/
structure PlanValidationRecord where
  policyVersion : BoundedText 1 128
  policyChecksum : Sha256
  outcome : ValidationOutcome
  queryPlanSha256 : Sha256
  contextChecksum : Sha256
  executionPlanSha256 : Option Sha256
  issues : List PlanValidationIssue
  issues_length : issues.length ≤ 32
  outcome_issues : outcome = .allow ↔ issues = []
  deriving DecidableEq

/-! ## Snapshots -/

section Snapshot

variable {D : CalculationDigests}

/-- `model_validate_json(model_dump_json())` of an AD_HOC step: none where its validator rejects what was read back. -/
def AdHocCalculationStep.snapshot? (step : AdHocCalculationStep D) : Option (AdHocCalculationStep D) :=
  if h : step.executionBinding.snapshot.bindingFailures D step.calculationSpec = [] ∧
      step.derivedOutputId = Nl2Sql.derivedOutputId D step.calculationSpec step.executionBinding.snapshot then
    some { step with executionBinding := step.executionBinding.snapshot, binding_valid := h.1, derived_eq := h.2 }
  else
    none

/-- The snapshot of a step: only the parameter values of an AD_HOC step are not read back as they were written. -/
def PlanStep.snapshot? : PlanStep D → Option (PlanStep D)
  | .adHoc step => step.snapshot?.map .adHoc
  | step => some step

/-- `ExecutionPlan.model_validate_json(execution_plan.model_dump_json())`: none where it raises. -/
def ExecutionPlan.snapshot? (plan : ExecutionPlan D) : Option (ExecutionPlan D) :=
  (plan.steps.mapM PlanStep.snapshot?).bind fun steps =>
    if h : (1 ≤ steps.length ∧ steps.length ≤ 16) ∧ ValidTypedDag steps then
      some { plan with steps := steps, steps_length := h.1, dag := h.2 }
    else
      none

end Snapshot

end Nl2Sql
