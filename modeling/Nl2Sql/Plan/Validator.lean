import Nl2Sql.Plan.ApprovedCompute

/-!
# The validator of execution plans

`orchestration/planning.py`, its first half: what an execution plan must satisfy before it may run. Each collector below is one of
the source's and reports codes; the validator turns them into issues, denies when there is one, asks for approval when only a
template is not approved, and allows otherwise.
-/

namespace Nl2Sql

open Py

/-- What the checks of an AD_HOC plan report. -/
inductive AdHocFailure where
  | outputDuplicate | trustedStepForbidden | verifyMissing | verifyDuplicate | planShapeUnsupported | dependencyProvenanceMissing
  | dependencyRoleDuplicate | dependencyCountMismatch | dependencySetMismatch | verifyMismatch | dependencyRogue
  | dependencyDuplicateConsumer | inputRefMismatch | dependencySpecMismatch | dependencyOutputMismatch | inputUnresolved
  | nestedInputUnsupported | inputDuplicate | sourcePlanMismatch | dependencyRoleMissing | dependencyMetricMismatch | contextMissing
  deriving DecidableEq, Repr

/-- The text of a code. -/
def AdHocFailure.text : AdHocFailure → String
  | .outputDuplicate => "ad_hoc_calculation_output_duplicate"
  | .trustedStepForbidden => "ad_hoc_calculation_trusted_step_forbidden"
  | .verifyMissing => "ad_hoc_calculation_verify_missing"
  | .verifyDuplicate => "ad_hoc_calculation_verify_duplicate"
  | .planShapeUnsupported => "ad_hoc_calculation_plan_shape_unsupported"
  | .dependencyProvenanceMissing => "ad_hoc_calculation_dependency_provenance_missing"
  | .dependencyRoleDuplicate => "ad_hoc_calculation_dependency_role_duplicate"
  | .dependencyCountMismatch => "ad_hoc_calculation_dependency_count_mismatch"
  | .dependencySetMismatch => "ad_hoc_calculation_dependency_set_mismatch"
  | .verifyMismatch => "ad_hoc_calculation_verify_mismatch"
  | .dependencyRogue => "ad_hoc_calculation_dependency_rogue"
  | .dependencyDuplicateConsumer => "ad_hoc_calculation_dependency_duplicate_consumer"
  | .inputRefMismatch => "ad_hoc_calculation_input_ref_mismatch"
  | .dependencySpecMismatch => "ad_hoc_calculation_dependency_spec_mismatch"
  | .dependencyOutputMismatch => "ad_hoc_calculation_dependency_output_mismatch"
  | .inputUnresolved => "ad_hoc_calculation_input_unresolved"
  | .nestedInputUnsupported => "ad_hoc_calculation_nested_input_unsupported"
  | .inputDuplicate => "ad_hoc_calculation_input_duplicate"
  | .sourcePlanMismatch => "ad_hoc_calculation_source_plan_mismatch"
  | .dependencyRoleMissing => "ad_hoc_calculation_dependency_role_missing"
  | .dependencyMetricMismatch => "ad_hoc_calculation_dependency_metric_mismatch"
  | .contextMissing => "ad_hoc_calculation_context_missing"

section AdHoc

variable {D : CalculationDigests}

open AdHocFailure

/-- `_ad_hoc_v1_closure_failures`: the shape of a plan that holds an AD_HOC calculation. -/
def adHocV1ClosureFailures (plan : ExecutionPlan D) : List AdHocFailure :=
  match plan.adHocSteps with
  | [] => []
  | calculation :: rest =>
    let roles := fromKeys (calculation.calculationSpec.inputs.map (·.role))
    let fetchRoles := plan.fetchSteps.filterMap (·.adHocInputRole)
    let permitted := fromKeys (plan.fetchSteps.map (·.stepId) ++ [calculation.stepId] ++ plan.verifySteps.map (·.stepId))
    fromKeys
      (failIf (rest ≠ []) outputDuplicate ++
        failIf (plan.trustedSteps ≠ []) trustedStepForbidden ++
        (match plan.verifySteps with
          | [] => [verifyMissing]
          | [_] => []
          | _ => [verifyDuplicate]) ++
        failIf (permitted.length ≠ plan.steps.length) planShapeUnsupported ++
        (plan.fetchSteps.flatMap fun fetch => failIf (fetch.adHocInputRole.isNone = true) dependencyProvenanceMissing) ++
        failIf (∃ role ∈ fetchRoles, fetchRoles.count role ≠ 1) dependencyRoleDuplicate ++
        failIf (¬ SameSet fetchRoles roles ∨ plan.fetchSteps.length ≠ roles.length) dependencyCountMismatch ++
        failIf (¬ SameSet calculation.dependsOn (plan.fetchSteps.map (·.stepId))) dependencySetMismatch ++
        match plan.verifySteps with
        | [] => []
        | verify :: _ =>
          failIf (verify.dependsOn ≠ [calculation.stepId] ∨ verify.inputRefs.map (·.val) ≠ [calculation.stepId.val] ∨
            verify.invariantIds ≠ ["typed_result_present"]) verifyMismatch)

/-- `_ad_hoc_closure_failures`, of one marked fetch. -/
def adHocOwnerFailures (plan : ExecutionPlan D) (fetch : FetchMetricStep) (role : RoleName) : List AdHocFailure :=
  match plan.adHocSteps.filter fun step => fetch.stepId ∈ step.dependsOn with
  | [] => [dependencyRogue]
  | [consumer] =>
    failIf ((consumer.inputRefs.get? role).map (·.val) ≠ some (valueRef fetch.stepId)) inputRefMismatch ++
    failIf (fetch.adHocSpecChecksum ≠ some (consumer.calculationSpec.checksum D)) dependencySpecMismatch ++
    failIf (fetch.adHocDerivedOutputId ≠ some consumer.derivedOutputId) dependencyOutputMismatch
  | _ => [dependencyDuplicateConsumer]

/-- `_ad_hoc_closure_failures`: every AD_HOC dependency fetch has exactly one owner. -/
def adHocClosureFailures (plan : ExecutionPlan D) : List AdHocFailure :=
  fromKeys
    (plan.fetchSteps.flatMap fun fetch =>
      match fetch.adHocInputRole with
      | none => []
      | some role => adHocOwnerFailures plan fetch role)

/-- The AD_HOC fetches among the dependencies of a calculation, with their roles. -/
def adHocDeclaredFetches (plan : ExecutionPlan D) (step : AdHocCalculationStep D) : List (RoleName × FetchMetricStep) :=
  plan.fetchSteps.filterMap fun fetch =>
    if fetch.stepId ∈ step.dependsOn then fetch.adHocInputRole.map fun role => (role, fetch) else none

/-- The metric a spec declares for a role: the first input of that role. -/
def CalculationSpec.metricOf? (spec : CalculationSpec) (role : RoleName) : Option (BoundedText 1 256) :=
  (spec.inputs.find? (·.role = role)).bind (·.metricKey)

/-- The checks of one fetched role of an AD_HOC calculation. -/
def adHocRoleFailures (step : AdHocCalculationStep D) (context : ContextBundle) (fetches : List (RoleName × FetchMetricStep))
    (role : RoleName) : List AdHocFailure :=
  match ApprovedCalculationCatalog.fetchesOfRole fetches role with
  | [fetch] =>
    match step.calculationSpec.metricOf? role with
    | none => [dependencyMetricMismatch]
    | some expected =>
      if fetch.metricKeys ≠ [expected.val] then [dependencyMetricMismatch]
      else failIf (expected.val ∉ context.assetIds) contextMissing
  | _ => [dependencyDuplicateConsumer]

/-- `_ad_hoc_step_failures`: the sources of the calculation are those of the query plan, and each role is fetched as declared. -/
def adHocStepFailures (plan : ExecutionPlan D) (step : AdHocCalculationStep D) (context : ContextBundle) (queryPlan : QueryPlan) :
    List AdHocFailure :=
  let inputs := step.calculationSpec.inputs
  let resolved := inputs.filterMap fun item => item.metricKey.map (·.val)
  let fetches := adHocDeclaredFetches plan step
  fromKeys
    (failIf (∃ item ∈ inputs, item.metricKey = none) inputUnresolved ++
      failIf (∃ item ∈ inputs, item.provenance = .adHocMetric) nestedInputUnsupported ++
      failIf (¬ resolved.Nodup) inputDuplicate ++
      failIf (¬ SameSet resolved queryPlan.metricKeys) sourcePlanMismatch ++
      failIf (¬ SameSet (fetches.map Prod.fst) (inputs.map (·.role))) dependencyRoleMissing ++
      (fromKeys (fetches.map Prod.fst)).flatMap (adHocRoleFailures step context fetches))

end AdHoc

/-- A validator with its policy. Without a catalog a template-id allowlist is all the authority there is. -/
structure PlanValidator where
  policyVersion : String
  approvedTemplateIds : List String
  approvedInvariantIds : List String
  calculationCatalog : Option ApprovedCalculationCatalog
  version_non_blank : isBlank policyVersion = false

namespace PlanValidator

variable (D : PlanDigests) (v : PlanValidator)

/-- `policy_checksum`. -/
def policyChecksum : Sha256 :=
  D.policy v.policyVersion (sortedStr v.approvedTemplateIds) (sortedStr v.approvedInvariantIds) v.calculationCatalog

/-- `PlanValidationRecord(...)`: none where its validator rejects the record. -/
def record? (outcome : ValidationOutcome) (queryPlan : QueryPlan) (context : ContextBundle)
    (plan : ExecutionPlan D.toCalculationDigests) (issues : List PlanValidationIssue) : Option PlanValidationRecord :=
  if h : (1 ≤ v.policyVersion.length ∧ v.policyVersion.length ≤ 128) ∧ issues.length ≤ 32 ∧ (outcome = .allow ↔ issues = []) then
    some
      { policyVersion := ⟨v.policyVersion, h.1⟩
        policyChecksum := v.policyChecksum D
        outcome := outcome
        queryPlanSha256 := D.queryPlan queryPlan
        contextChecksum := D.context context
        executionPlanSha256 := some (D.executionPlan plan)
        issues := issues
        issues_length := h.2.1
        outcome_issues := h.2.2 }
  else
    none

variable (plan : ExecutionPlan D.toCalculationDigests) (queryPlan : QueryPlan) (context : ContextBundle) (routeBudget : RouteBudget)

/-- The hash, release and budget checks. -/
def contentIssues : List PlanValidationIssue :=
  failIf (plan.queryPlanSha256 ≠ D.queryPlan queryPlan)
    ⟨"execution_plan_query_hash_mismatch", "execution_plan.query_plan_sha256",
      "The execution plan does not match the validated query plan."⟩ ++
  failIf (plan.semanticReleaseId ≠ context.semanticReleaseId)
    ⟨"execution_plan_semantic_release_mismatch", "execution_plan.semantic_release_id",
      "The execution plan semantic release is no longer active for this request."⟩ ++
  failIf (plan.schemaSnapshotId ≠ context.schemaSnapshotId)
    ⟨"execution_plan_schema_snapshot_mismatch", "execution_plan.schema_snapshot_id",
      "The execution plan schema snapshot does not match the resolved context."⟩ ++
  failIf (routeBudget.maxSqlCandidates < plan.fetchSteps.length)
    ⟨"execution_plan_sql_candidate_budget_exceeded", "execution_plan.steps",
      "The execution plan exceeds the route SQL-candidate budget."⟩ ++
  failIf (routeBudget.maxSqlExecutions < plan.fetchSteps.length)
    ⟨"execution_plan_sql_execution_budget_exceeded", "execution_plan.steps",
      "The execution plan exceeds the route SQL-execution budget."⟩ ++
  failIf (routeBudget.maxJoinHops < context.approvedEdgeIds.length)
    ⟨"execution_plan_join_budget_exceeded", "context.approved_edge_ids",
      "The approved join path exceeds the route budget."⟩

variable {D}

/-- `canonical_provenance_present`. -/
def canonicalProvenancePresent : Prop :=
  plan.canonicalSteps ≠ [] ∨ ∃ fetch ∈ plan.fetchSteps, fetch.calculationInputRole.isSome = true

instance (plan : ExecutionPlan D.toCalculationDigests) : Decidable (canonicalProvenancePresent plan) :=
  inferInstanceAs (Decidable (_ ∨ _))

/-- The AD_HOC checks of the plan as a whole. -/
def adHocIssues : List PlanValidationIssue :=
  failIf (plan.adHocSteps ≠ [] ∧ canonicalProvenancePresent plan)
    ⟨"ad_hoc_calculation_canonical_conflict", "execution_plan.steps",
      "A plan may not mix canonical and AD_HOC calculation provenance."⟩ ++
  (adHocV1ClosureFailures plan).map (fun code =>
    ⟨code.text, "execution_plan.steps", "The plan does not match the exact V1 AD_HOC carrier shape."⟩) ++
  (adHocClosureFailures plan).map fun code =>
    ⟨code.text, "execution_plan.steps", "An AD_HOC dependency fetch is not closed over exactly one owner."⟩

/-- The canonical checks of the plan as a whole. -/
def canonicalIssues (queryPlan : QueryPlan) (plan : ExecutionPlan D.toCalculationDigests) : List PlanValidationIssue :=
  match v.calculationCatalog with
  | none =>
    failIf (canonicalProvenancePresent plan)
      ⟨"trusted_calculation_binding_authority_missing", "execution_plan.steps",
        "Canonical calculation provenance is present but no trusted binding catalog is available."⟩
  | some catalog =>
    (catalog.validateBoundOutputs queryPlan plan).map (fun code =>
      ⟨code.text, "execution_plan.steps",
        "A catalog-bound requested metric is not satisfied by exactly one trusted calculation."⟩) ++
    (ApprovedCalculationCatalog.validateDependencyProvenance plan).map fun code =>
      ⟨code.text, "execution_plan.steps", "A calculation dependency fetch is not owned by exactly one canonical calculation."⟩

variable (D)

/-- The checks of one step that deny. -/
def stepIssues (queryPlan : QueryPlan) (context : ContextBundle) (plan : ExecutionPlan D.toCalculationDigests) :
    PlanStep D.toCalculationDigests → List PlanValidationIssue
  | .fetch _ => []
  | .trusted step =>
    match v.calculationCatalog with
    | none => []
    | some catalog =>
      if step.declaresCanonicalBinding then
        (catalog.validateCalculation D plan step context).map fun code =>
          ⟨code.text, "execution_plan.steps." ++ step.stepId.val, "The calculation step does not match its trusted binding."⟩
      else
        []
  | .adHoc step =>
    (adHocStepFailures plan step context queryPlan).map (fun code =>
      ⟨code.text, "execution_plan.steps." ++ step.stepId.val, "The AD_HOC calculation step is not structurally valid."⟩) ++
    match v.calculationCatalog with
    | none => []
    | some catalog =>
      step.calculationSpec.inputs.flatMap fun item =>
        failIf ((item.metricKey.bind fun key => catalog.bindingFor key).isSome = true)
          ⟨"ad_hoc_calculation_input_catalog_bound", "execution_plan.steps." ++ step.stepId.val,
            "An AD_HOC input may not be a catalog-bound approved calculation."⟩
  | .verify step =>
    failIf (∃ id ∈ step.invariantIds, id ∉ v.approvedInvariantIds)
      ⟨"execution_plan_invariant_unregistered", "execution_plan.steps." ++ step.stepId.val ++ ".invariant_ids",
        "The execution plan references an unregistered result invariant."⟩

variable {D}

/-- The checks of one step that ask for approval. -/
def stepApprovals : PlanStep D.toCalculationDigests → List PlanValidationIssue
  | .trusted step =>
    failIf (step.declaresCanonicalBinding = false ∧ step.templateId.val ∉ v.approvedTemplateIds)
      ⟨"trusted_calculation_approval_required", "execution_plan.steps." ++ step.stepId.val ++ ".template_id",
        "The requested calculation template is not approved for this plan."⟩
  | _ => []

variable (D)

/-- The issues that deny a plan. -/
def denyIssues : List PlanValidationIssue :=
  contentIssues D plan queryPlan context routeBudget ++ adHocIssues plan ++ v.canonicalIssues queryPlan plan ++
    plan.steps.flatMap (v.stepIssues D queryPlan context plan)

/-- `validate_execution_plan`: none where it raises. -/
def validateExecutionPlan : Option PlanValidationRecord := do
  let plan ← plan.snapshot?
  let deny := v.denyIssues D plan queryPlan context routeBudget
  let approval := plan.steps.flatMap v.stepApprovals
  v.record? D (if deny ≠ [] then .deny else if approval ≠ [] then .approval else .allow) queryPlan context plan
    (if deny ≠ [] then deny else approval)

/-- The validator allows a plan. -/
def Allows : Prop :=
  ∃ r, v.validateExecutionPlan D plan queryPlan context routeBudget = some r ∧ r.outcome = .allow

end PlanValidator

end Nl2Sql
