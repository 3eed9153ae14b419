import Nl2Sql.Theorems.Compiler
import Nl2Sql.Theorems.Executor

/-!
# Canonical provenance, from the plan to the runner

What the validator proves of a plan and what the executor does with it, together: in a run that succeeds, a canonical calculation is
handed, under each role of its binding, the value of the one fetch that the binding names for the role.
-/

namespace Nl2Sql

open Py

namespace ProvenanceAux

open ApprovedCalculationCatalog PlanAux ExecutorAux PlanExecutor

variable {D : ExecutionDigests} {R : PlanRunners D.toCalculationDigests}

/-- In a run that succeeds every trusted calculation of the plan was called, on what its references resolve to in the outputs. -/
theorem trusted_called {request : ExecutionRequest D.toCalculationDigests} {ledger : RouteBudgetLedger}
    {result : PlanExecutionResult} {s : RunState D.toCalculationDigests}
    (hrun : (execute D R request).run ⟨ledger, [], Dict.empty⟩ = .ok result s) (hsucceeded : result.record.status = .succeeded)
    {t : TrustedCalculationStep} (ht : PlanStep.trusted t ∈ request.executionPlan.steps) :
    ∃ inputs, t.inputRefs.mapValues? (resolveRef result.outputs) = some inputs ∧
      ∀ inputs', .trusted t inputs' ∈ s.calls ↔ inputs' = inputs := by
  obtain ⟨ordered, hordered, hperm, -⟩ := orderedSteps_eq_some request.executionPlan
  rcases execute_cases (R := R) request ⟨ledger, [], Dict.empty⟩ with
    ⟨-, hcase⟩ | ⟨-, -, status, code, hstatus, hstrip, hfits, hcase⟩ | ⟨-, -, steps, hsteps, hcase⟩
  · rw [hrun] at hcase
    nomatch hcase
  · obtain ⟨r, l, hrefuse, hlaw, -⟩ := refuse_run request.executionPlan hstatus hstrip hfits (ne_nil_of_perm hperm)
      ⟨ledger, [], Dict.empty⟩
    rw [hrun, hrefuse] at hcase
    cases hcase
    exact absurd (hlaw.succeeded_iff.mp hsucceeded).symm (ne_nil_of_perm hperm)
  · rw [hordered] at hsteps
    cases hsteps
    have hends := run_ends (R := R) request hperm (timeoutMs ledger request.deadlineMs) ledger
    rw [← hcase, hrun] at hends
    obtain ⟨done, failed, rest, hlaw, hcalls⟩ := hends
    have hdone := hlaw.succeeded_iff.mp hsucceeded
    obtain ⟨inputs, hcall⟩ := hcalls.called t (by rw [hdone]; exact hperm.mem_iff.mpr ht)
    have hinputs := (hcalls.resolved t inputs hcall).2
    refine ⟨inputs, hinputs, fun inputs' => ⟨fun hcall' => ?_, fun h => h ▸ hcall⟩⟩
    have hinputs' := (hcalls.resolved t inputs' hcall').2
    rw [hinputs] at hinputs'
    exact (Option.some.inj hinputs').symm

/-- The reference to the value of a fetch resolves to the `value` entry of its output. -/
theorem resolveRef_valueRef {outputs : Dict PlanStepId Json} {ref : PlanInputRef} {id : PlanStepId}
    (href : ref.val = valueRef id) {value : Json} (h : resolveRef outputs ref = some value) :
    ∃ members, outputs.get? id = some (.obj members) ∧ Json.member? "value" members = some value := by
  unfold resolveRef at h
  rw [href, split_valueRef] at h
  obtain ⟨output, houtput, hdescend⟩ := Option.bind_eq_some_iff.mp h
  have hget : outputs.get? id = some output := by
    unfold outputOf at houtput
    rw [dif_pos id.property] at houtput
    exact houtput
  cases output with
  | obj members =>
    refine ⟨members, hget, ?_⟩
    unfold descend at hdescend
    split at hdescend
    · rename_i v hv
      rw [hv]
      exact hdescend
    · nomatch hdescend
  | arr items =>
    have hdigit : isDigitAscii 'v' = false := by decide
    simp [descend, hdigit] at hdescend
  | null => nomatch hdescend
  | bool => nomatch hdescend
  | int => nomatch hdescend
  | float => nomatch hdescend
  | str => nomatch hdescend

theorem valueRef_inj {i j : PlanStepId} (h : valueRef i = valueRef j) : i = j := by
  have hsplit := split_valueRef i
  rw [h, split_valueRef j] at hsplit
  exact Subtype.ext (List.cons.inj hsplit).1.symm

end ProvenanceAux

open ProvenanceAux PlanAux ExecutorAux PlanExecutor

/-- The fetch that a canonical calculation reads under a role, in a run that ended with these outputs: it fetches exactly the metric
that the binding names, no other canonical calculation depends on it, and the value handed over is its `value` entry. -/
structure FedBy {D : CalculationDigests} (plan : ExecutionPlan D) (calculation : TrustedCalculationStep)
    (item : ApprovedCalculationInput) (outputs : Dict PlanStepId Json) (inputs : Dict RoleName Json) (fetch : FetchMetricStep) :
    Prop where
  is_fetch : fetch ∈ plan.fetchSteps
  ref : (calculation.inputRefs.get? item.role).map (·.val) = some (valueRef fetch.stepId)
  metric : fetch.metricKeys = [item.metricKey.val]
  value : ∃ members value, outputs.get? fetch.stepId = some (.obj members) ∧ Json.member? "value" members = some value ∧
    inputs.get? item.role = some value
  only : ∀ other ∈ plan.canonicalSteps, fetch.stepId ∈ other.dependsOn → other = calculation

/-- Canonical provenance, end to end. In a run that succeeds of a plan that the validator allows, each requested metric that the
catalog binds is the output of exactly one canonical calculation and of no fetch; a canonical calculation's output is requested; and
the trusted runner was called on it with the value of exactly one fetch under each role of its binding, a metric that the catalog
does not bind. -/
theorem canonical_provenance (D : ExecutionDigests) (v : PlanValidator) (catalog : ApprovedCalculationCatalog)
    (hcatalog : v.calculationCatalog = some catalog) (request : ExecutionRequest D.toCalculationDigests) (routeBudget : RouteBudget)
    (hallow : v.Allows D.toPlanDigests request.executionPlan request.queryPlan request.context routeBudget)
    (R : PlanRunners D.toCalculationDigests) (ledger : RouteBudgetLedger) (result : PlanExecutionResult)
    (s : RunState D.toCalculationDigests) (hrun : (execute D R request).run ⟨ledger, [], Dict.empty⟩ = .ok result s)
    (hsucceeded : result.record.status = .succeeded) :
    (∀ key ∈ request.queryPlan.metricKeys, (catalog.bindingFor key).isSome = true →
      (∃ calculation, (request.executionPlan.canonicalSteps.filter fun c => c.outputMetricKey = some key) = [calculation]) ∧
      ∀ fetch ∈ request.executionPlan.fetchSteps, key ∉ fetch.metricKeys) ∧
    (∀ calculation ∈ request.executionPlan.canonicalSteps,
      ∃ key ∈ calculation.outputMetricKey, key ∈ request.queryPlan.metricKeys) ∧
    ∀ calculation ∈ request.executionPlan.canonicalSteps, ∃ key binding inputs, calculation.outputMetricKey = some key ∧
      catalog.bindingFor key = some binding ∧ (∀ inputs', .trusted calculation inputs' ∈ s.calls ↔ inputs' = inputs) ∧
      ∀ item ∈ binding.inputs, catalog.bindingFor item.metricKey = none ∧
        ∃! fetch, FedBy request.executionPlan calculation item result.outputs inputs fetch := by
  obtain ⟨-, -, h⟩ := allowed_iff.mp hallow
  obtain ⟨houtputs, hforward⟩ := validateBoundOutputs_eq_nil_iff.mp (h.bound hcatalog).1
  refine ⟨hforward, houtputs, fun calculation hcanonical => ?_⟩
  obtain ⟨provenance, binding, hprovenance, hbinding, hproven⟩ := h.proven hcatalog hcanonical
  obtain ⟨inputs, hinputs, hcalls⟩ := trusted_called hrun hsucceeded (mem_canonicalSteps.mp hcanonical).1
  refine ⟨provenance.outputMetricKey, binding, inputs, by rw [TrustedCalculationStep.outputMetricKey, hprovenance]; rfl, hbinding,
    hcalls, fun item hitem => ?_⟩
  refine ⟨(hproven.roles item hitem).1, ?_⟩
  obtain ⟨fetch, hfetch, hkeys, href⟩ := hproven.fetch_of_role hitem
  have hdeclared : (item.role, fetch) ∈ ApprovedCalculationCatalog.declaredFetches request.executionPlan calculation := by
    rw [← mem_fetchesOfRole, hfetch]
    exact List.mem_singleton.mpr rfl
  obtain ⟨hmem, hdepends, hrole⟩ := mem_declaredFetches.mp hdeclared
  refine ⟨fetch, ⟨hmem, href, hkeys, ?_, fun other hother hother' => ?_⟩, fun other hother => ?_⟩
  · obtain ⟨ref, hget, hval⟩ := Option.map_eq_some_iff.mp href
    obtain ⟨value, hresolve, hvalue⟩ := Dict.exists_get?_of_mapValues? hinputs hget
    obtain ⟨members, houtput, hmember⟩ := resolveRef_valueRef hval hresolve
    exact ⟨members, value, houtput, hmember, hvalue⟩
  · -- the fetch is owned by one canonical calculation, and both depend on it
    obtain ⟨owner, howned⟩ := validateDependencyProvenance_eq_nil_iff.mp (h.bound hcatalog).2 fetch hmem item.role hrole
    have hall : ∀ c ∈ request.executionPlan.canonicalSteps, fetch.stepId ∈ c.dependsOn → c = owner := by
      intro c hc hd
      have hin : c ∈ request.executionPlan.canonicalSteps.filter fun step => fetch.stepId ∈ step.dependsOn :=
        List.mem_filter.mpr ⟨hc, by simpa using hd⟩
      rw [howned.only] at hin
      exact List.mem_singleton.mp hin
    rw [hall other hother hother', hall calculation hcanonical hdepends]
  · have hsame : other.stepId = fetch.stepId := by
      have h1 := hother.ref
      rw [href] at h1
      exact (valueRef_inj (Option.some.inj h1)).symm
    have hstep := step_inj (mem_fetchSteps.mp hother.is_fetch) (mem_fetchSteps.mp hmem) hsame
    injection hstep

/-! ## The gross margin, with a check between its fetches -/

/-- The digests at the contracts of the run. -/
def checkedDigests : ExecutionDigests :=
  { marginDigests with
    executionPlan := fun _ => ⟨"b5d10392ea83d571414f7e2ffa6c3745bd131c21a814f322d8c6d8a20e6fa672", isSha256_ofList rfl⟩
    policy := fun _ _ _ _ => ⟨"73eb2f3845681890ef32e3f5f3d0666f80a17c375e471fc66eed7cf254fb1d6f", isSha256_ofList rfl⟩
    json := fun
      | .obj [("value", .int 250)] => ⟨"541007ba712b5245c0533f8d0d891944378af1bf7a75dd49c5c9249e4dba972d", isSha256_ofList rfl⟩
      | .obj [("value", .int 1000)] => ⟨"a97b993a82f175fa601ead086300fa767da22981afa9279c3858933e00ece12b", isSha256_ofList rfl⟩
      | .obj [("ratio", .float "1.0")] => ⟨"5fdef30e6bb511d77a141822611e2d0780aed30d056264ea5d3e87a5c8b75d53", isSha256_ofList rfl⟩
      | .obj [("ratio", .float "0.25")] => ⟨"9668680490f5b04f2d1ce30b590659071ec6bb27193f4b5b48642870bc6f35f4", isSha256_ofList rfl⟩
      | _ => ⟨"4ff88415474f2a04478e5a9668540943bc71726ce3ed772ff9e5fc5929ab95c0", isSha256_ofList rfl⟩ }

/-- The fetch of the numerator. -/
def numeratorFetch : FetchMetricStep :=
  .ofKey ⟨"fetch_numerator", by decide⟩ "gross_profit"
    (.canonical ⟨"numerator", Eq.refl true⟩ (marginDigests.approvedBinding grossMarginBinding) grossMarginBinding.canonicalMetricKey)

/-- A calculation without a binding, from the numerator alone. -/
def checkCalculation : TrustedCalculationStep :=
  ⟨⟨"calculate_check", by decide⟩, grossMarginBinding.templateId,
    ⟨[(⟨"numerator", Eq.refl true⟩, ⟨"fetch_numerator.value", by decide⟩),
      (⟨"denominator", Eq.refl true⟩, ⟨"fetch_numerator.value", by decide⟩)], by decide⟩,
    [⟨"fetch_numerator", by decide⟩], none, by decide, by decide, by decide⟩

/-- The fetch of the denominator, ordered after the check. -/
def denominatorFetch : FetchMetricStep :=
  { FetchMetricStep.ofKey ⟨"fetch_denominator", by decide⟩ "revenue"
      (.canonical ⟨"denominator", Eq.refl true⟩ (marginDigests.approvedBinding grossMarginBinding) grossMarginBinding.canonicalMetricKey) with
    dependsOn := [⟨"calculate_check", by decide⟩]
    depends_length := by decide
    depends_unique := by decide }

/-- The canonical calculation. -/
def marginCalculation : TrustedCalculationStep :=
  ⟨calculateMetricId, grossMarginBinding.templateId,
    ⟨[(⟨"numerator", Eq.refl true⟩, ⟨"fetch_numerator.value", by decide⟩),
      (⟨"denominator", Eq.refl true⟩, ⟨"fetch_denominator.value", by decide⟩)], by decide⟩,
    [⟨"fetch_numerator", by decide⟩, ⟨"fetch_denominator", by decide⟩],
    some ⟨grossMarginBinding.templateVersion, grossMarginBinding.templateChecksum, marginDigests.approvedBinding grossMarginBinding,
      grossMarginBinding.canonicalMetricKey⟩, by decide, by decide, by decide⟩

/-- The plan of the run. -/
def checkedPlan : ExecutionPlan checkedDigests.toCalculationDigests :=
  ⟨checkedDigests.queryPlan marginPlan, salesRelease, salesSnapshot, compilerVersion,
    [.fetch numeratorFetch, .trusted checkCalculation, .fetch denominatorFetch, .trusted marginCalculation,
      .verify (.ofStep verifyResultId calculateMetricId)], by decide, by decide⟩

/-- A validator that also approves the template on its own. -/
def checkedValidator : PlanValidator :=
  ⟨"plan-validation.bootstrap.v1", ["ratio"], ["typed_result_present"], some marginCatalog, Eq.refl false⟩

/-- The request to execute the plan that the validator allowed. -/
def checkedRequest : ExecutionRequest checkedDigests.toCalculationDigests where
  queryPlan := marginPlan
  context := salesContext
  executionPlan := checkedPlan
  validation :=
    { marginValidation with
      policyChecksum := checkedValidator.policyChecksum checkedDigests.toPlanDigests
      queryPlanSha256 := checkedDigests.queryPlan marginPlan
      contextChecksum := checkedDigests.context salesContext
      executionPlanSha256 := some (checkedDigests.executionPlan checkedPlan) }
  expectedPolicyVersion := "plan-validation.bootstrap.v1"
  expectedPolicyChecksum := (checkedValidator.policyChecksum checkedDigests.toPlanDigests).val
  deadlineMs := 10000

/-- The fingerprint of the query of the numerator. -/
def numeratorSql : Sha256 := ⟨"83d515de564bde29265f84d482a888b0cb14ed29b62cbc1b8b0a6a4a500ca48e", isSha256_ofList rfl⟩

/-- The fingerprint of the query of the denominator. -/
def denominatorSql : Sha256 := ⟨"2a0905e88c51464b5cbbc3a0a10ecd66734eec3bd0c59c575c6e7ec13266c944", isSha256_ofList rfl⟩

/-- Runners over a gross profit of 250 and a revenue of 1000. -/
def checkedRunners : PlanRunners checkedDigests.toCalculationDigests where
  prepare _ step _ _ :=
    .ok ⟨if step.metricKeys = ["gross_profit"] then numeratorSql else denominatorSql, 0, true⟩
  execute _ prepared _ :=
    .ok ⟨some (.obj [("value", .int (if prepared.sqlFingerprint = numeratorSql then 250 else 1000))]),
      { datasource := "warehouse", readonlyRole := "reader", errorTaxonomy := none, sqlFingerprint := prepared.sqlFingerprint,
        policyVersion := "gateway.v1", policyOutcome := .allow, source := {} }⟩
  trusted := some fun _ step _ => .ok (some (.obj [("ratio", .float (if step.binding = none then "1.0" else "0.25"))]))
  adHoc := none
  verify _ step _ :=
    .ok (some (.obj [("verified", .bool true), ("invariant_ids", .arr (step.invariantIds.map .str))]))
  elapsedMs _ := 1

/-- The run of the request on a fresh ledger of the standard route. -/
def checkedRun : EStateM.Result ExecuteError (RunState checkedDigests.toCalculationDigests) PlanExecutionResult :=
  (execute checkedDigests checkedRunners checkedRequest).run
    ⟨{ route := .standard, policy := bootstrapRoutingBudgetPolicy }, [], Dict.empty⟩

/-- The status a run returned with. -/
def statusOf {D : CalculationDigests} : EStateM.Result ExecuteError (RunState D) PlanExecutionResult → Option ExecutionStatus
  | .ok result _ => some result.record.status
  | .error _ _ => none

theorem checkedRun_succeeds : statusOf checkedRun = some .succeeded := by decide +kernel

theorem checkedPlan_allowed :
    (checkedValidator.validateExecutionPlan checkedDigests.toPlanDigests checkedPlan marginPlan salesContext
      (bootstrapRoutingBudgetPolicy.routes .standard)).map (·.outcome) = some .allow := by decide +kernel

/-- The run succeeds, and the canonical calculation is handed the values of its two fetches. -/
theorem canonical_provenance_margin :
    match checkedRun with
    | .ok result s => ∃ inputs, (∀ inputs', .trusted marginCalculation inputs' ∈ s.calls ↔ inputs' = inputs) ∧
        ∀ item ∈ grossMarginBinding.inputs, ∃! fetch, FedBy checkedPlan marginCalculation item result.outputs inputs fetch
    | .error _ _ => False := by
  have hstatus := checkedRun_succeeds
  split
  · rename_i result s hrun
    rw [hrun] at hstatus
    obtain ⟨-, -, hcanonical⟩ := canonical_provenance checkedDigests checkedValidator marginCatalog rfl checkedRequest _
      (allows_of_outcome checkedPlan_allowed) checkedRunners _ result s hrun (Option.some.inj hstatus)
    obtain ⟨key, binding, inputs, hkey, hbinding, hcalls, hfed⟩ := hcanonical marginCalculation (by decide)
    cases hkey
    cases hbinding
    exact ⟨inputs, hcalls, fun item hitem => (hfed item hitem).2⟩
  · rename_i e s hrun
    rw [hrun] at hstatus
    nomatch hstatus

/-- The plan is allowed and its run succeeds, and a fetch that the canonical calculation reads depends on another calculation: the
dependencies of a fetch order the run, and the validator leaves them to the plan. -/
theorem canonical_fetch_after_calculation :
    (checkedValidator.validateExecutionPlan checkedDigests.toPlanDigests checkedPlan marginPlan salesContext
      (bootstrapRoutingBudgetPolicy.routes .standard)).map (·.outcome) = some .allow ∧
    statusOf checkedRun = some .succeeded ∧
    marginCalculation ∈ checkedPlan.canonicalSteps ∧
    ∃ item ∈ grossMarginBinding.inputs, ∀ fetch ∈ checkedPlan.fetchSteps,
      (marginCalculation.inputRefs.get? item.role).map (·.val) = some (valueRef fetch.stepId) →
      ∃ calculation ∈ checkedPlan.trustedSteps, calculation ≠ marginCalculation ∧ calculation.stepId ∈ fetch.dependsOn :=
  ⟨checkedPlan_allowed, checkedRun_succeeds, by decide, by decide⟩

end Nl2Sql
