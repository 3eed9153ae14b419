import Nl2Sql.Plan.Contracts

/-!
# Canonical calculations

`orchestration/approved_compute.py` and the registry of `trusted_templates.py`: a canonical metric is bound to one registered
template by a binding, and a catalog of bindings is the only authority for a canonical calculation. The three checks of the catalog
collect the codes of what a plan gets wrong; a plan is proven when nothing is collected.
-/

namespace Nl2Sql

open Py

/-! ## Templates -/

/-- The identity of a registered template. -/
structure TemplateMetadata where
  templateId : String
  version : String
  inputRoles : List String
  outputRole : String
  deriving DecidableEq, Repr

/-- `trusted_template_registry.metadata`: none for `TrustedTemplateError`. -/
def templateMetadata? (templateId : String) : Option TemplateMetadata :=
  if templateId = "sum_values" then some ⟨"sum_values", "1.0", ["values"], "total"⟩
  else if templateId = "mean_values" then some ⟨"mean_values", "1.0", ["values"], "mean"⟩
  else if templateId = "ratio" then some ⟨"ratio", "1.0", ["numerator", "denominator"], "ratio"⟩
  else none

/-! ## Bindings and their catalog -/

/-- One trusted input role and the metric bound to it. -/
structure ApprovedCalculationInput where
  role : RoleName
  metricKey : BoundedText 1 256
  metricContractSha256 : Sha256
  deriving DecidableEq

/-- Immutable evidence that binds a canonical metric to a calculation. -/
structure ApprovedCalculationBinding where
  canonicalMetricKey : BoundedText 1 256
  templateId : ContractId
  templateVersion : BoundedText 1 64
  templateChecksum : Sha256
  inputs : List ApprovedCalculationInput
  bindingRevision : BoundedText 1 128
  semanticReleaseId : BoundedText 1 64
  semanticReleaseChecksum : Sha256
  unit : Option (BoundedText 1 32)
  precision : Option Precision
  rounding : Option Rounding
  inputs_length : 1 ≤ inputs.length ∧ inputs.length ≤ 32
  roles_unique : (inputs.map (·.role)).Nodup
  rounding_precision : rounding.isSome = true → precision.isSome = true
  deriving DecidableEq

/-- `input_roles`. -/
def ApprovedCalculationBinding.inputRoles (b : ApprovedCalculationBinding) : List RoleName := b.inputs.map (·.role)

/-- An already-resolved map from canonical metrics to bindings: the constructor raises on a metric bound twice. -/
structure ApprovedCalculationCatalog where
  bindings : List ApprovedCalculationBinding
  unique : (bindings.map (·.canonicalMetricKey)).Nodup
  deriving DecidableEq

/-- `binding_for`. -/
def ApprovedCalculationCatalog.bindingFor (catalog : ApprovedCalculationCatalog) (key : String) :
    Option ApprovedCalculationBinding :=
  catalog.bindings.find? (·.canonicalMetricKey = key)

/-- The digests of the plan contracts, as functions of what is digested. -/
structure PlanDigests extends CalculationDigests where
  queryPlan : QueryPlan → Sha256
  context : ContextBundle → Sha256
  executionPlan : ExecutionPlan toCalculationDigests → Sha256
  template : TemplateMetadata → Sha256
  approvedBinding : ApprovedCalculationBinding → Sha256
  /-- of a validator's policy: its version, its template and invariant allowlists, its catalog -/
  policy : String → List String → List String → Option ApprovedCalculationCatalog → Sha256

/-- What the checks of the catalog report. -/
inductive CalculationFailure where
  | bindingMissing | templateMismatch | versionMismatch | bindingMismatch | outputMismatch | releaseMismatch
  | templateUnregistered | inputRoleMismatch | dependencyRoleMissing | dependencyDuplicate | dependencyBindingMismatch
  | dependencyOutputMismatch | nestedDependencyUnsupported | dependencyMissing | dependencyMetricMismatch
  | dependencyContextMissing | inputRefMismatch | dependencyRogue | outputFetchConflict | outputNotRequested | outputDuplicate
  | requiredForBoundMetric | dependencyDuplicateConsumer
  deriving DecidableEq, Repr

/-- The text of a code. -/
def CalculationFailure.text : CalculationFailure → String
  | .bindingMissing => "trusted_calculation_binding_missing"
  | .templateMismatch => "trusted_calculation_template_mismatch"
  | .versionMismatch => "trusted_calculation_version_mismatch"
  | .bindingMismatch => "trusted_calculation_binding_mismatch"
  | .outputMismatch => "trusted_calculation_output_mismatch"
  | .releaseMismatch => "trusted_calculation_release_mismatch"
  | .templateUnregistered => "trusted_calculation_template_unregistered"
  | .inputRoleMismatch => "trusted_calculation_input_role_mismatch"
  | .dependencyRoleMissing => "trusted_calculation_dependency_role_missing"
  | .dependencyDuplicate => "trusted_calculation_dependency_duplicate"
  | .dependencyBindingMismatch => "trusted_calculation_dependency_binding_mismatch"
  | .dependencyOutputMismatch => "trusted_calculation_dependency_output_mismatch"
  | .nestedDependencyUnsupported => "trusted_calculation_nested_dependency_unsupported"
  | .dependencyMissing => "trusted_calculation_dependency_missing"
  | .dependencyMetricMismatch => "trusted_calculation_dependency_metric_mismatch"
  | .dependencyContextMissing => "trusted_calculation_dependency_context_missing"
  | .inputRefMismatch => "trusted_calculation_input_ref_mismatch"
  | .dependencyRogue => "trusted_calculation_dependency_rogue"
  | .outputFetchConflict => "trusted_calculation_output_fetch_conflict"
  | .outputNotRequested => "trusted_calculation_output_not_requested"
  | .outputDuplicate => "trusted_calculation_output_duplicate"
  | .requiredForBoundMetric => "trusted_calculation_required_for_bound_metric"
  | .dependencyDuplicateConsumer => "trusted_calculation_dependency_duplicate_consumer"

namespace ApprovedCalculationCatalog

variable (D : PlanDigests) (catalog : ApprovedCalculationCatalog)

open CalculationFailure

/-- The first part of `validate_calculation`: the step is this binding, the release is the binding's, and the template is registered
as the binding says. -/
def identityFailures (step : TrustedCalculationStep) (provenance : BindingProvenance) (binding : ApprovedCalculationBinding)
    (context : ContextBundle) : List CalculationFailure :=
  failIf (step.templateId ≠ binding.templateId) templateMismatch ++
  failIf (provenance.templateVersion ≠ binding.templateVersion) versionMismatch ++
  failIf (provenance.templateChecksum ≠ binding.templateChecksum) versionMismatch ++
  failIf (provenance.bindingChecksum ≠ D.approvedBinding binding) bindingMismatch ++
  failIf (provenance.outputMetricKey ≠ binding.canonicalMetricKey) outputMismatch ++
  failIf (context.semanticReleaseId.val ≠ binding.semanticReleaseId.val) releaseMismatch ++
  (match templateMetadata? binding.templateId with
    | none => [templateUnregistered]
    | some metadata =>
      failIf (metadata.version ≠ binding.templateVersion.val ∨ D.template metadata ≠ binding.templateChecksum) versionMismatch ++
      failIf (¬ SameSet metadata.inputRoles (binding.inputRoles.map (·.val))) inputRoleMismatch) ++
  failIf (¬ SameSet step.inputRefs.keys binding.inputRoles) inputRoleMismatch

variable {D}

variable (plan : ExecutionPlan D.toCalculationDigests)

/-- A declared dependency that is a marked fetch, with its role. -/
def markedFetch? (id : PlanStepId) : Option (RoleName × FetchMetricStep) :=
  match plan.step? id with
  | some (.fetch fetch) => fetch.calculationInputRole.map fun role => (role, fetch)
  | _ => none

/-- The second part: the declared dependencies that are marked fetches, in order. -/
def declaredFetches (step : TrustedCalculationStep) :
    List (RoleName × FetchMetricStep) :=
  step.dependsOn.filterMap (markedFetch? plan)

/-- `fetches_by_role.get(role, [])`. -/
def fetchesOfRole (fetches : List (RoleName × FetchMetricStep)) (role : RoleName) : List FetchMetricStep :=
  (fetches.filter fun rf => rf.1 = role).map Prod.snd

variable (D)

/-- The third part: every marked dependency belongs to the binding. -/
def declaredFailures (binding : ApprovedCalculationBinding) (fetches : List (RoleName × FetchMetricStep)) :
    List CalculationFailure :=
  (fromKeys (fetches.map Prod.fst)).flatMap fun role =>
    failIf (1 < (fetchesOfRole fetches role).length) dependencyDuplicate ++
    failIf (role ∉ binding.inputRoles) inputRoleMismatch ++
    (fetchesOfRole fetches role).flatMap fun fetch =>
      failIf (fetch.calculationBindingChecksum ≠ some (D.approvedBinding binding)) dependencyBindingMismatch ++
      failIf (fetch.calculationOutputMetricKey ≠ some binding.canonicalMetricKey.val) dependencyOutputMismatch

variable {D}

/-- The fourth part: each role of the binding has its fetch, of its metric, in the context, read through its projected value. -/
def roleFailures (step : TrustedCalculationStep) (binding : ApprovedCalculationBinding) (context : ContextBundle)
    (fetches : List (RoleName × FetchMetricStep)) : List CalculationFailure :=
  binding.inputs.flatMap fun item =>
    failIf ((catalog.bindingFor item.metricKey).isSome = true) nestedDependencyUnsupported ++
    match fetchesOfRole fetches item.role with
    | [] => [dependencyMissing]
    | fetch :: _ =>
      failIf (fetch.metricKeys ≠ [item.metricKey.val]) dependencyMetricMismatch ++
      failIf (item.metricKey.val ∉ context.assetIds) dependencyContextMissing ++
      failIf ((step.inputRefs.get? item.role).map (·.val) ≠ some (valueRef fetch.stepId)) inputRefMismatch

/-- The fifth and sixth part: no marked fetch outside the dependencies of a canonical calculation, and no fetch of the output. -/
def planFailures (binding : ApprovedCalculationBinding) : List CalculationFailure :=
  (plan.fetchSteps.flatMap fun fetch =>
    failIf (fetch.calculationInputRole.isSome = true ∧ fetch.stepId ∉ plan.canonicalSteps.flatMap (·.dependsOn)) dependencyRogue) ++
  plan.fetchSteps.flatMap fun fetch => failIf (binding.canonicalMetricKey.val ∈ fetch.metricKeys) outputFetchConflict

variable (D)

/-- `validate_calculation`. -/
def validateCalculation (step : TrustedCalculationStep) (context : ContextBundle) :
    List CalculationFailure :=
  match step.binding with
  | none => [bindingMissing]
  | some provenance =>
    match catalog.bindingFor provenance.outputMetricKey with
    | none => [bindingMissing]
    | some binding =>
      let fetches := declaredFetches plan step
      fromKeys
        (identityFailures D step provenance binding context ++
          (step.dependsOn.flatMap fun id => failIf ((markedFetch? plan id).isNone = true) dependencyRoleMissing) ++
          declaredFailures D binding fetches ++
          catalog.roleFailures step binding context fetches ++
          planFailures plan binding)

variable {D}

/-- `validate_bound_outputs`. -/
def validateBoundOutputs (queryPlan : QueryPlan) (plan : ExecutionPlan D.toCalculationDigests) : List CalculationFailure :=
  let requested := fromKeys (queryPlan.metricKeys.filter fun key => (catalog.bindingFor key).isSome)
  fromKeys
    ((plan.canonicalSteps.flatMap fun step =>
        failIf (∀ key ∈ step.outputMetricKey, key ∉ queryPlan.metricKeys) outputNotRequested) ++
      requested.flatMap fun key =>
        let calculations := plan.canonicalSteps.filter fun step => step.outputMetricKey = some key
        (if 1 < calculations.length then [outputDuplicate]
          else if calculations.isEmpty then [requiredForBoundMetric] else []) ++
        plan.fetchSteps.flatMap fun fetch => failIf (key ∈ fetch.metricKeys) outputFetchConflict)

/-- `validate_dependency_provenance`, of one marked fetch. -/
def ownerFailures (fetch : FetchMetricStep) (role : RoleName) :
    List CalculationFailure :=
  match plan.canonicalSteps.filter fun step => fetch.stepId ∈ step.dependsOn with
  | [] => [dependencyRogue]
  | [consumer] =>
    failIf (consumer.binding.map (·.bindingChecksum) ≠ fetch.calculationBindingChecksum) dependencyBindingMismatch ++
    failIf (consumer.outputMetricKey ≠ fetch.calculationOutputMetricKey) dependencyOutputMismatch ++
    failIf ((consumer.inputRefs.get? role).map (·.val) ≠ some (valueRef fetch.stepId)) inputRefMismatch
  | _ => [dependencyDuplicateConsumer]

/-- `validate_dependency_provenance`. -/
def validateDependencyProvenance : List CalculationFailure :=
  fromKeys
    (plan.fetchSteps.flatMap fun fetch =>
      match fetch.calculationInputRole with
      | none => []
      | some role => ownerFailures plan fetch role)

end ApprovedCalculationCatalog

end Nl2Sql
