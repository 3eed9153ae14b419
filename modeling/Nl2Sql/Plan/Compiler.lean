import Nl2Sql.Plan.Validator

/-!
# The compiler of execution plans

`orchestration/planning.py`, its second half: a validated query plan becomes one fetch and its verification, or the dependency
fetches of one canonical calculation, or those of one AD_HOC calculation. What pydantic rejects when a step or the plan is built is
the error `contract`.
-/

namespace Nl2Sql

open Py

/-- The codes of `PlanCompilationError`. -/
inductive CompilationCode where
  | queryPlanHashMismatch | contextHashMismatch | approvedPlanShapeUnsupported | approvedIntentUnsupported
  | approvedOutputNotRequested | approvedRoleUnsupported | adHocIntentUnsupported | adHocUnresolvedSlots
  | adHocBindingIdentityMismatch | adHocBindingSpecMismatch | adHocBindingInvalid | adHocInputUnused | adHocInputUnresolved
  | adHocNestedInputUnsupported | adHocInputDuplicate | adHocSourcePlanMismatch | adHocContextMissing | adHocInputCatalogBound
  | adHocPlanShapeUnsupported | adHocRoleUnsupported
  deriving DecidableEq, Repr

/-- The text of a code. -/
def CompilationCode.text : CompilationCode → String
  | .queryPlanHashMismatch => "query_plan_validation_hash_mismatch"
  | .contextHashMismatch => "context_validation_hash_mismatch"
  | .approvedPlanShapeUnsupported => "approved_calculation_plan_shape_unsupported"
  | .approvedIntentUnsupported => "approved_calculation_intent_unsupported"
  | .approvedOutputNotRequested => "approved_calculation_output_not_requested"
  | .approvedRoleUnsupported => "approved_calculation_role_unsupported"
  | .adHocIntentUnsupported => "ad_hoc_calculation_intent_unsupported"
  | .adHocUnresolvedSlots => "ad_hoc_calculation_unresolved_slots"
  | .adHocBindingIdentityMismatch => "ad_hoc_calculation_binding_identity_mismatch"
  | .adHocBindingSpecMismatch => "ad_hoc_calculation_binding_spec_mismatch"
  | .adHocBindingInvalid => "ad_hoc_calculation_binding_invalid"
  | .adHocInputUnused => "ad_hoc_calculation_input_unused"
  | .adHocInputUnresolved => "ad_hoc_calculation_input_unresolved"
  | .adHocNestedInputUnsupported => "ad_hoc_calculation_nested_input_unsupported"
  | .adHocInputDuplicate => "ad_hoc_calculation_input_duplicate"
  | .adHocSourcePlanMismatch => "ad_hoc_calculation_source_plan_mismatch"
  | .adHocContextMissing => "ad_hoc_calculation_context_missing"
  | .adHocInputCatalogBound => "ad_hoc_calculation_input_catalog_bound"
  | .adHocPlanShapeUnsupported => "ad_hoc_calculation_plan_shape_unsupported"
  | .adHocRoleUnsupported => "ad_hoc_calculation_role_unsupported"

/-- What compiling raises: `PlanValidationError`, `PlanCompilationError`, or pydantic's `ValidationError`. -/
inductive CompileError where
  | validation (record : PlanValidationRecord)
  | compilation (code : CompilationCode)
  | contract

abbrev CompileM : Type → Type := Except CompileError

/-- `if c: raise PlanCompilationError(code)`. -/
def raiseIf (c : Prop) [Decidable c] (code : CompilationCode) : CompileM Unit :=
  if c then .error (.compilation code) else .ok ()

/-- What pydantic builds, or its error. -/
def orContract {α : Type} : Option α → CompileM α
  | some a => .ok a
  | none => .error .contract

/-! ## Building steps -/

/-- A fetch of one metric with a mark. -/
def FetchMetricStep.ofKey (id : PlanStepId) (key : String) (provenance : FetchProvenance) : FetchMetricStep :=
  ⟨id, [key], [], provenance, single_length key, List.nodup_singleton _, Nat.zero_le _, List.nodup_nil,
    fun _ => rfl⟩

/-- The verification of one step: `typed_result_present` of its whole output. -/
def VerifyStep.ofStep (id target : PlanStepId) : VerifyStep :=
  ⟨id, [target.ref], ["typed_result_present"], [target], ⟨Nat.le_refl 1, Nat.le_of_ble_eq_true rfl⟩, by decide,
    ⟨Nat.le_refl 1, Nat.le_of_ble_eq_true rfl⟩, List.nodup_singleton _, by decide, List.nodup_singleton _⟩

/-- `TrustedCalculationStep(...)`. -/
def TrustedCalculationStep.build? (stepId : PlanStepId) (templateId : ContractId) (inputRefs : Dict RoleName PlanInputRef)
    (dependsOn : List PlanStepId) (binding : Option BindingProvenance) : Option TrustedCalculationStep :=
  if h : (1 ≤ inputRefs.entries.length ∧ inputRefs.entries.length ≤ 32) ∧ (1 ≤ dependsOn.length ∧ dependsOn.length ≤ 16) ∧
      dependsOn.Nodup then
    some ⟨stepId, templateId, inputRefs, dependsOn, binding, h.1, h.2.1, h.2.2⟩
  else
    none

/-- `AdHocCalculationStep(...)`, of the output its spec and binding derive. -/
def AdHocCalculationStep.build? (D : CalculationDigests) (stepId : PlanStepId) (spec : CalculationSpec)
    (binding : CalculationExecutionBinding) (inputRefs : Dict RoleName PlanInputRef) (dependsOn : List PlanStepId) :
    Option (AdHocCalculationStep D) :=
  if h : (1 ≤ inputRefs.entries.length ∧ inputRefs.entries.length ≤ 32) ∧ (1 ≤ dependsOn.length ∧ dependsOn.length ≤ 16) ∧
      dependsOn.Nodup ∧ binding.bindingFailures D spec = [] ∧ SameSet (inputRefs.keys.map (·.val)) spec.referencedRoles then
    some ⟨stepId, spec, binding, inputRefs, dependsOn, Nl2Sql.derivedOutputId D spec binding, h.1, h.2.1, h.2.2.1, h.2.2.2.1,
      h.2.2.2.2, rfl⟩
  else
    none

/-- The pattern of a role that makes a step id: `^[a-z][a-z0-9_]{0,47}$`. -/
def isDependencyRole (s : String) : Bool :=
  matchesName isLowerAscii (fun c => isLowerAscii c || isDigitAscii c || c == '_') 47 s

theorem isPlanStepId_fetch {s : String} (h : isDependencyRole s = true) : isPlanStepId ("fetch_" ++ s) = true := by
  unfold isDependencyRole matchesName at h
  split at h
  · cases h
  · rename_i c cs heq
    simp only [Bool.and_eq_true, List.all_eq_true, decide_eq_true_eq] at h
    obtain ⟨⟨hc, hcs⟩, hlen⟩ := h
    have hlist : ("fetch_" ++ s).toList = 'f' :: ("etch_".toList ++ c :: cs) := by
      rw [String.toList_append, heq]
      rfl
    unfold isPlanStepId matchesName
    rw [hlist]
    simp only [Bool.and_eq_true, List.all_eq_true, decide_eq_true_eq]
    refine ⟨⟨by decide, fun d hd => ?_⟩, ?_⟩
    · rcases List.mem_append.mp hd with hd | hd
      · have hetch : "etch_".toList.all (fun e => isLowerAscii e || isDigitAscii e || e == '_' || e == '-') = true := by decide
        exact List.all_eq_true.mp hetch d hd
      · rcases List.mem_cons.mp hd with rfl | hd
        · simp [hc]
        · have := hcs d hd
          simp only [Bool.or_eq_true] at this ⊢
          exact .inl this
    · rw [List.length_append, List.length_cons]
      have h5 : "etch_".toList.length = 5 := by decide
      omega

/-- `_dependency_fetch_step_id` and `_ad_hoc_fetch_step_id`, which differ in the code they raise. -/
def fetchStepId (code : CompilationCode) (role : RoleName) : CompileM PlanStepId :=
  if h : isDependencyRole (lower role.val) = true then
    .ok ⟨"fetch_" ++ lower role.val, isPlanStepId_fetch h⟩
  else
    .error (.compilation code)

/-- `_dependency_fetch_step_id`. -/
def dependencyFetchStepId : RoleName → CompileM PlanStepId := fetchStepId .approvedRoleUnsupported

/-- `_ad_hoc_fetch_step_id`. -/
def adHocFetchStepId : RoleName → CompileM PlanStepId := fetchStepId .adHocRoleUnsupported

def calculateMetricId : PlanStepId := ⟨"calculate_metric", by decide⟩

def calculateAdhocId : PlanStepId := ⟨"calculate_adhoc", by decide⟩

def verifyResultId : PlanStepId := ⟨"verify_result", by decide⟩

def fetchMetricsId : PlanStepId := ⟨"fetch_metrics", by decide⟩

theorem map_fst_zip_sublist {α β : Type} (xs : List α) (ys : List β) : ((xs.zip ys).map Prod.fst).Sublist xs := by
  induction xs generalizing ys with
  | nil => exact .slnil
  | cons x xs ih =>
    cases ys with
    | nil => exact List.nil_sublist _
    | cons y ys => exact (ih ys).cons_cons x

/-- `{role: f"{step_id}.value", ...}`: the references of a calculation to its dependency fetches. -/
def valueRefs (roles : List RoleName) (ids : List PlanStepId) (h : roles.Nodup) : Dict RoleName PlanInputRef :=
  ⟨roles.zip (ids.map PlanStepId.valueRef), h.sublist (map_fst_zip_sublist _ _)⟩

/-! ## The compiler -/

/-- A compiler with its policy. -/
structure PlanCompiler where
  policyVersion : String
  calculationCatalog : Option ApprovedCalculationCatalog
  version_non_blank : isBlank policyVersion = false

namespace PlanCompiler

variable (D : PlanDigests) (c : PlanCompiler)

/-- `ExecutionPlan(...)` of a query plan and its context. -/
def buildPlan (plan : QueryPlan) (context : ContextBundle) (steps : List (PlanStep D.toCalculationDigests)) :
    CompileM (ExecutionPlan D.toCalculationDigests) :=
  if h : (1 ≤ c.policyVersion.length ∧ c.policyVersion.length ≤ 128) ∧ (1 ≤ steps.length ∧ steps.length ≤ 16) ∧
      ValidTypedDag steps then
    .ok ⟨D.queryPlan plan, context.semanticReleaseId, context.schemaSnapshotId, ⟨c.policyVersion, h.1⟩, steps, h.2.1, h.2.2⟩
  else
    .error .contract

/-- The checks on the validation record that both entry points start with. -/
def checkValidation (plan : QueryPlan) (context : ContextBundle) (validation : PlanValidationRecord) : CompileM Unit := do
  if validation.outcome ≠ .allow then
    throw (.validation validation)
  raiseIf (validation.queryPlanSha256 ≠ D.queryPlan plan) .queryPlanHashMismatch
  raiseIf (validation.contextChecksum ≠ D.context context) .contextHashMismatch

/-- The dependency fetch of one input of a binding. -/
def boundFetch (binding : ApprovedCalculationBinding) (item : ApprovedCalculationInput) (id : PlanStepId) : FetchMetricStep :=
  .ofKey id item.metricKey (.canonical item.role (D.approvedBinding binding) binding.canonicalMetricKey)

/-- `_compile_bound_calculation`. -/
def compileBoundCalculation (plan : QueryPlan) (binding : ApprovedCalculationBinding) :
    CompileM (List (PlanStep D.toCalculationDigests)) := do
  raiseIf (plan.intent ≠ .metric) .approvedIntentUnsupported
  raiseIf (plan.metricKeys ≠ [binding.canonicalMetricKey.val]) .approvedOutputNotRequested
  let ids ← binding.inputs.mapM fun item => dependencyFetchStepId item.role
  let fetches := List.zipWith (boundFetch D binding) binding.inputs ids
  raiseIf (¬ ids.Nodup) .approvedRoleUnsupported
  let calculation ← orContract (TrustedCalculationStep.build? calculateMetricId binding.templateId
    (valueRefs binding.inputRoles ids binding.roles_unique) ids
    (some ⟨binding.templateVersion, binding.templateChecksum, D.approvedBinding binding, binding.canonicalMetricKey⟩))
  return fetches.map PlanStep.fetch ++ [PlanStep.trusted calculation, .verify (.ofStep verifyResultId calculateMetricId)]

/-- The requested metrics that the catalog binds. -/
def boundRequested (plan : QueryPlan) : List String :=
  match c.calculationCatalog with
  | none => []
  | some catalog => plan.metricKeys.filter fun key => (catalog.bindingFor key).isSome

/-- The one binding of a request for a bound metric: any other shape is not supported. -/
def requestedBinding (plan : QueryPlan) : CompileM ApprovedCalculationBinding := do
  raiseIf (plan.metricKeys.length ≠ 1 ∨ (c.boundRequested plan).length ≠ 1) .approvedPlanShapeUnsupported
  match c.calculationCatalog.bind fun catalog => catalog.bindingFor (plan.metricKeys.headD "") with
  | none => throw (.compilation .approvedPlanShapeUnsupported)
  | some binding => pure binding

/-- The ordinary fetch of the requested metrics. -/
def ordinaryFetch (plan : QueryPlan) : FetchMetricStep :=
  ⟨fetchMetricsId, plan.metricKeys, [], .none, plan.metricKeys_length, plan.metricKeys_valid.2, Nat.zero_le _, List.nodup_nil,
    fun h => absurd rfl h⟩

/-- `compile`. -/
def compile (plan : QueryPlan) (context : ContextBundle) (validation : PlanValidationRecord) :
    CompileM (ExecutionPlan D.toCalculationDigests) := do
  checkValidation D plan context validation
  if c.boundRequested plan ≠ [] then
    let binding ← c.requestedBinding plan
    let steps ← compileBoundCalculation D plan binding
    c.buildPlan D plan context steps
  else
    c.buildPlan D plan context [.fetch (ordinaryFetch plan), .verify (.ofStep verifyResultId fetchMetricsId)]

/-- The metric of an AD_HOC input, which must be resolved and of no other AD_HOC calculation. -/
def resolveInput (item : CalculationInputSpec) : CompileM String :=
  match item.metricKey with
  | none => .error (.compilation .adHocInputUnresolved)
  | some key => if item.provenance = .adHocMetric then .error (.compilation .adHocNestedInputUnsupported) else .ok key

/-- The dependency fetch of one AD_HOC input. -/
def adHocFetch (spec : CalculationSpec) (outputId : DerivedOutputId) (item : CalculationInputSpec) (idKey : PlanStepId × String) :
    FetchMetricStep :=
  .ofKey idKey.1 idKey.2 (.adHoc item.role (spec.checksum D.toCalculationDigests) outputId)

/-- `_compile_ad_hoc_calculation`. -/
def compileAdHocCalculation (spec : CalculationSpec) (binding : CalculationExecutionBinding) (resolved : List String) :
    CompileM (List (PlanStep D.toCalculationDigests)) := do
  raiseIf (16 < spec.inputs.length + 2) .adHocPlanShapeUnsupported
  let outputId := derivedOutputId D.toCalculationDigests spec binding
  let ids ← spec.inputs.mapM fun item => adHocFetchStepId item.role
  raiseIf (¬ ids.Nodup) .adHocRoleUnsupported
  let fetches := List.zipWith (adHocFetch D spec outputId) spec.inputs (ids.zip resolved)
  let calculation ← orContract (AdHocCalculationStep.build? D.toCalculationDigests calculateAdhocId spec binding
    (valueRefs (spec.inputs.map (·.role)) ids spec.inputs_unique) ids)
  return fetches.map PlanStep.fetch ++ [PlanStep.adHoc calculation, .verify (.ofStep verifyResultId calculateAdhocId)]

/-- `compile_ad_hoc`. The binding is snapshotted first; the spec is read back as it was written. -/
def compileAdHoc (plan : QueryPlan) (context : ContextBundle) (validation : PlanValidationRecord) (spec : CalculationSpec)
    (executionBinding : CalculationExecutionBinding) : CompileM (ExecutionPlan D.toCalculationDigests) := do
  let binding := executionBinding.snapshot
  checkValidation D plan context validation
  raiseIf (plan.intent ≠ .metric) .adHocIntentUnsupported
  raiseIf (plan.unresolvedSlots ≠ [] ∨ context.unresolvedSlots ≠ []) .adHocUnresolvedSlots
  raiseIf (binding.calculationId ≠ spec.calculationId) .adHocBindingIdentityMismatch
  raiseIf (binding.specChecksum ≠ spec.checksum D.toCalculationDigests) .adHocBindingSpecMismatch
  raiseIf (binding.bindingFailures D.toCalculationDigests spec ≠ []) .adHocBindingInvalid
  raiseIf (¬ SameSet (spec.inputs.map (·.role.val)) spec.referencedRoles) .adHocInputUnused
  let resolved ← spec.inputs.mapM resolveInput
  raiseIf (¬ resolved.Nodup) .adHocInputDuplicate
  raiseIf (¬ SameSet resolved plan.metricKeys) .adHocSourcePlanMismatch
  raiseIf (∃ key ∈ resolved, key ∉ context.assetIds) .adHocContextMissing
  raiseIf (∃ catalog ∈ c.calculationCatalog.toList, ∃ key ∈ resolved, (catalog.bindingFor key).isSome = true) .adHocInputCatalogBound
  let steps ← compileAdHocCalculation D spec binding resolved
  c.buildPlan D plan context steps

end PlanCompiler

end Nl2Sql
