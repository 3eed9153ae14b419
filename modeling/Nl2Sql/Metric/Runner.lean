import Nl2Sql.Plan.Executor

/-!
# The metric runner of the gateway

`GatewayMetricStepRunner.prepare` of `orchestration/metric_query.py`: which query plan a fetch is compiled for. An ordinary fetch is
compiled for the requested plan itself, a dependency fetch for a child plan of its one metric, after its mark is proved again. Compiling
a plan and preparing its query at the gateway is a parameter.
-/

namespace Nl2Sql

open Py

/-- `query_plan.model_copy(update={"metric_keys": (key,)})`. -/
def QueryPlan.withMetric (plan : QueryPlan) (key : String) (h : isBlank key = false) : QueryPlan :=
  { plan with
    metricKeys := [key]
    metricKeys_length := single_length key
    metricKeys_valid := single_valid key h }

/-- A metric that is resolved in a context is not blank. -/
theorem ContextBundle.asset_not_blank (context : ContextBundle) {key : String} (h : key ∈ context.assetIds) : isBlank key = false :=
  (context.all_valid context.assetIds (by simp)).1 key h

/-- `raise PlanStepError(code)` of the runner, of a code in the source. -/
def refuseStep {α : Type} (code : String) (h : strip code = code ∧ code ≠ "") : Except StepFailure α :=
  .error (.stepError (.literal code h))

/-- `if c: raise PlanStepError(code)`. -/
def refuseStepIf (c : Prop) [Decidable c] (code : String) (h : strip code = code ∧ code ≠ "") : Except StepFailure Unit :=
  if c then refuseStep code h else .ok ()

/-- The metric runner of the gateway. -/
structure GatewayMetricStepRunner (D : PlanDigests) where
  /-- what compiling a plan and preparing its query gives, after the calls made before: the fingerprint of the query -/
  compile : List (RunnerCall D.toCalculationDigests) → QueryPlan → ContextBundle → Except StepFailure Sha256
  calculationCatalog : Option ApprovedCalculationCatalog

namespace GatewayMetricStepRunner

variable {D : PlanDigests} (runner : GatewayMetricStepRunner D)

/-- The catalog binds a metric. -/
def bound (key : String) : Option ApprovedCalculationBinding := runner.calculationCatalog.bind (·.bindingFor key)

/-- `_dependency_plan`: the child plan of one input of a canonical calculation. -/
def dependencyPlan (step : FetchMetricStep) (queryPlan : QueryPlan) (context : ContextBundle) : Except StepFailure QueryPlan :=
  match step.calculationOutputMetricKey.bind runner.bound with
  | none => refuseStep "metric_dependency_binding_missing" (written_ofList rfl)
  | some binding => do
    refuseStepIf (step.calculationBindingChecksum ≠ some (D.approvedBinding binding)) "metric_dependency_binding_mismatch" (written_ofList rfl)
    match binding.inputs.filter fun item => step.calculationInputRole = some item.role with
    | [item] =>
      refuseStepIf (step.metricKeys ≠ [item.metricKey.val]) "metric_dependency_metric_mismatch" (written_ofList rfl)
      refuseStepIf ((runner.bound item.metricKey).isSome = true) "metric_dependency_nested_calculation_unsupported" (written_ofList rfl)
      refuseStepIf (queryPlan.intent ≠ .metric) "metric_dependency_intent_unsupported" (written_ofList rfl)
      refuseStepIf (queryPlan.metricKeys ≠ [binding.canonicalMetricKey.val]) "metric_dependency_output_mismatch" (written_ofList rfl)
      if h : item.metricKey.val ∈ context.assetIds then
        .ok (queryPlan.withMetric item.metricKey (context.asset_not_blank h))
      else
        refuseStep "metric_dependency_metric_unresolved" (written_ofList rfl)
    | _ => refuseStep "metric_dependency_role_mismatch" (written_ofList rfl)

/-- `_adhoc_dependency_plan`: the child plan of one input of an AD_HOC calculation. -/
def adhocDependencyPlan (step : FetchMetricStep) (queryPlan : QueryPlan) (context : ContextBundle) : Except StepFailure QueryPlan :=
  match step.metricKeys with
  | [key] => do
    refuseStepIf (step.adHocDerivedOutputId = none) "metric_adhoc_dependency_output_missing" (written_ofList rfl)
    refuseStepIf (queryPlan.intent ≠ .metric) "metric_adhoc_dependency_intent_unsupported" (written_ofList rfl)
    if h : key ∈ context.assetIds then
      refuseStepIf ((runner.bound key).isSome = true) "metric_adhoc_dependency_catalog_bound" (written_ofList rfl)
      .ok (queryPlan.withMetric key (context.asset_not_blank h))
    else
      refuseStep "metric_adhoc_dependency_metric_unresolved" (written_ofList rfl)
  | _ => refuseStep "metric_adhoc_dependency_shape_invalid" (written_ofList rfl)

/-- The query of a plan, at the gateway. -/
def prepared (calls : List (RunnerCall D.toCalculationDigests)) (plan : QueryPlan) (context : ContextBundle) (dependencyFetch : Bool) :
    Except StepFailure PreparedMetricStep := do
  .ok ⟨← runner.compile calls plan context, 0, dependencyFetch⟩

/-- `prepare`. -/
def prepare (calls : List (RunnerCall D.toCalculationDigests)) (step : FetchMetricStep) (queryPlan : QueryPlan)
    (context : ContextBundle) : Except StepFailure PreparedMetricStep :=
  if step.adHocInputRole.isSome then do
    runner.prepared calls (← runner.adhocDependencyPlan step queryPlan context) context true
  else if step.calculationInputRole = none then do
    refuseStepIf (step.metricKeys ≠ queryPlan.metricKeys) "metric_step_mismatch" (written_ofList rfl)
    runner.prepared calls queryPlan context false
  else do
    runner.prepared calls (← runner.dependencyPlan step queryPlan context) context true

end GatewayMetricStepRunner

end Nl2Sql
