import Nl2Sql.Lemmas.Compiler
import Nl2Sql.Theorems.Plan

/-!
# The compiler and the validator agree

What the compiler emits is structurally valid: of a compiled plan the validator can only refuse what the compiler does not look at,
the budget of the route, and the release, the template and the inputs of a binding.
-/

namespace Nl2Sql

open Py

/-- The limits of a route that a compiled plan may exceed. -/
structure WithinBudget {D : CalculationDigests} (ep : ExecutionPlan D) (context : ContextBundle) (routeBudget : RouteBudget) :
    Prop where
  candidates : ep.fetchSteps.length ≤ routeBudget.maxSqlCandidates
  executions : ep.fetchSteps.length ≤ routeBudget.maxSqlExecutions
  joins : context.approvedEdgeIds.length ≤ routeBudget.maxJoinHops

/-- A binding that holds in a context: it is of the active release, its template is registered with its version, checksum and
roles, and its inputs are metrics of the context that no binding produces. -/
structure BindingCurrent (D : PlanDigests) (catalog : ApprovedCalculationCatalog) (context : ContextBundle)
    (binding : ApprovedCalculationBinding) : Prop where
  release : context.semanticReleaseId.val = binding.semanticReleaseId.val
  registered : ∃ metadata, templateMetadata? binding.templateId = some metadata ∧
    metadata.version = binding.templateVersion.val ∧ D.template metadata = binding.templateChecksum ∧
    SameSet metadata.inputRoles (binding.inputRoles.map (·.val))
  known : ∀ item ∈ binding.inputs, item.metricKey.val ∈ context.assetIds
  unbound : ∀ item ∈ binding.inputs, catalog.bindingFor item.metricKey = none

namespace CompilerAux

open ApprovedCalculationCatalog PlanAux

variable {D : PlanDigests} {v : PlanValidator} {c : PlanCompiler} {ep : ExecutionPlan D.toCalculationDigests} {plan : QueryPlan}
  {context : ContextBundle} {routeBudget : RouteBudget} {steps : List (PlanStep D.toCalculationDigests)}

/-- The hashes and the identities of a compiled plan are those of the request: what is left to check is the budget. -/
theorem PlanOf.content_iff (h : PlanOf D ep plan context steps) :
    PlanValidator.contentIssues D ep plan context routeBudget = [] ↔ WithinBudget ep context routeBudget := by
  simp only [PlanValidator.contentIssues, h.query, h.release, h.snapshot, List.append_eq_nil_iff, failIf_eq_nil_iff, not_not, ne_eq,
    Nat.not_lt]
  exact ⟨fun ⟨⟨⟨_, h1⟩, h2⟩, h3⟩ => ⟨h1, h2, h3⟩, fun h => ⟨⟨⟨⟨⟨trivial, trivial⟩, trivial⟩, h.candidates⟩, h.executions⟩, h.joins⟩⟩

/-- The verification of a compiled plan needs one invariant. -/
theorem verify_issues (hinv : "typed_result_present" ∈ v.approvedInvariantIds) (id target : PlanStepId) :
    v.stepIssues D plan context ep (.verify (.ofStep id target)) = [] := by
  simp [PlanValidator.stepIssues, VerifyStep.ofStep, hinv]

/-! ## Snapshots of compiled plans -/

theorem mapM_snapshot_self {l : List (PlanStep D.toCalculationDigests)} (h : ∀ step ∈ l, step.snapshot? = some step) :
    l.mapM PlanStep.snapshot? = some l := by
  induction l with
  | nil => rfl
  | cons step rest ih =>
    rw [List.mapM_cons, h step List.mem_cons_self, ih fun s hs => h s (List.mem_cons_of_mem _ hs)]
    rfl

/-- A plan whose steps are read back as they are is read back as it is. -/
theorem snapshot?_self (h : ∀ step ∈ ep.steps, step.snapshot? = some step) : ep.snapshot? = some ep := by
  unfold ExecutionPlan.snapshot?
  rw [mapM_snapshot_self h, Option.bind_some, dif_pos ⟨ep.steps_length, ep.dag⟩]

theorem reread_reread (p : ParameterValue) : p.reread.reread = p.reread := by
  cases p <;> rfl

/-- A binding that was snapshotted is read back as it is. -/
theorem snapshot_snapshot (b : CalculationExecutionBinding) : b.snapshot.snapshot = b.snapshot := by
  refine BindingAux.snapshot_eq_self ?_
  simp only [CalculationExecutionBinding.snapshot, List.map_map, Function.comp_def, reread_reread]

theorem adHoc_snapshot?_self {step : AdHocCalculationStep D.toCalculationDigests}
    (h : step.executionBinding.snapshot = step.executionBinding) : step.snapshot? = some step := by
  unfold AdHocCalculationStep.snapshot?
  have hok : step.executionBinding.snapshot.bindingFailures D.toCalculationDigests step.calculationSpec = [] ∧
      step.derivedOutputId = derivedOutputId D.toCalculationDigests step.calculationSpec step.executionBinding.snapshot := by
    rw [h]
    exact ⟨step.binding_valid, step.derived_eq⟩
  rw [dif_pos hok]
  obtain ⟨_, _, _, _, _, _, _, _, _, _, _, _⟩ := step
  simp only at h ⊢
  congr

/-! ## An ordinary fetch -/

/-- A plan without a mark and without a calculation is allowed when it is within budget and nothing bound is requested. -/
theorem ordinary_allowed_iff (hplan : PlanOf D ep plan context
      [.fetch (PlanCompiler.ordinaryFetch plan), .verify (.ofStep verifyResultId fetchMetricsId)])
    (hinv : "typed_result_present" ∈ v.approvedInvariantIds)
    (hnone : ∀ catalog, v.calculationCatalog = some catalog → ∀ key ∈ plan.metricKeys, catalog.bindingFor key = none) :
    Allowed D v ep plan context routeBudget ↔ WithinBudget ep context routeBudget := by
  rw [← hplan.content_iff]
  refine ⟨fun h => h.content, fun hcontent => ?_⟩
  have hsteps : ep.steps = [PlanCompiler.ordinaryFetch plan].map PlanStep.fetch ++ [PlanStep.verify (.ofStep verifyResultId fetchMetricsId)] :=
    hplan.steps
  have hfetch : ep.fetchSteps = [PlanCompiler.ordinaryFetch plan] := fetchSteps_of hsteps
  have hadhoc : ep.adHocSteps = [] := adHocSteps_of hsteps
  have hcanonical : ep.canonicalSteps = [] := by
    rw [ExecutionPlan.canonicalSteps, trustedSteps_of hsteps]
    rfl
  have hunmarked : ¬ PlanValidator.canonicalProvenancePresent ep := by
    rintro (hne | ⟨fetch, hmem, hrole⟩)
    · exact hne hcanonical
    · rw [hfetch, List.mem_singleton] at hmem
      rw [hmem] at hrole
      cases hrole
  refine ⟨hcontent, fun h => h.1 hadhoc, adHocV1ClosureFailures_eq_nil_iff.mpr (.inl hadhoc), ?_, ?_, ?_, ?_⟩
  · rw [adHocClosureFailures_eq_nil_iff, hfetch]
    intro fetch hmem role hrole
    rw [List.mem_singleton] at hmem
    rw [hmem] at hrole
    cases hrole
  · unfold PlanValidator.canonicalIssues
    cases hc : v.calculationCatalog with
    | none => simp [hunmarked]
    | some catalog =>
      simp only [List.append_eq_nil_iff, List.map_eq_nil_iff, validateBoundOutputs_eq_nil_iff,
        validateDependencyProvenance_eq_nil_iff, hcanonical, hfetch]
      refine ⟨⟨(by rintro _ ⟨⟩), fun key hkey hbound => ?_⟩, fun fetch hmem role hrole => ?_⟩
      · rw [hnone catalog hc key hkey] at hbound
        cases hbound
      · rw [List.mem_singleton] at hmem
        rw [hmem] at hrole
        cases hrole
  · rw [hplan.steps]
    intro step hstep
    simp only [List.mem_cons, List.not_mem_nil, or_false] at hstep
    rcases hstep with rfl | rfl
    · rfl
    · exact verify_issues hinv _ _
  · rw [hplan.steps]
    intro step hstep
    simp only [List.mem_cons, List.not_mem_nil, or_false] at hstep
    rcases hstep with rfl | rfl <;> rfl

/-! ## A canonical calculation -/

section Bound

variable {binding : ApprovedCalculationBinding} {idOf : ApprovedCalculationInput → PlanStepId} {calculation : TrustedCalculationStep}
  {catalog : ApprovedCalculationCatalog}

variable (h : BoundSteps D steps binding idOf calculation)
include h

theorem BoundSteps.ref {item : ApprovedCalculationInput}
    (hitem : item ∈ binding.inputs) : (calculation.inputRefs.get? item.role).map (·.val) = some (valueRef (idOf item)) := by
  have hget : calculation.inputRefs.get? item.role = some (idOf item).valueRef := by
    rw [Dict.get?_eq_some_iff, h.refs]
    exact List.mem_map.mpr ⟨item, hitem, rfl⟩
  rw [hget]
  rfl

theorem BoundSteps.keys : calculation.inputRefs.keys = binding.inputRoles := by
  rw [Dict.keys, h.refs, List.map_map]
  rfl

variable (hplan : PlanOf D ep plan context steps)
include hplan

theorem BoundSteps.fetches :
    ep.fetchSteps = binding.inputs.map fun item => PlanCompiler.boundFetch D binding item (idOf item) := by
  rw [fetchSteps_of (hplan.steps.trans h.steps)]
  exact List.append_nil _

theorem BoundSteps.canonical :
    ep.canonicalSteps = [calculation] := by
  rw [ExecutionPlan.canonicalSteps, trustedSteps_of (hplan.steps.trans h.steps)]
  have hdeclares : calculation.declaresCanonicalBinding = true := by
    rw [TrustedCalculationStep.declaresCanonicalBinding, h.mark]
    rfl
  simp [PlanStep.trusted?, hdeclares]

theorem BoundSteps.declared :
    declaredFetches ep calculation =
      binding.inputs.map fun item => (item.role, PlanCompiler.boundFetch D binding item (idOf item)) := by
  rw [declaredFetches, h.depends, List.filterMap_map]
  refine filterMap_eq_map_of fun item hitem => ?_
  have hmem : PlanStep.fetch (PlanCompiler.boundFetch D binding item (idOf item)) ∈ ep.steps := by
    rw [← mem_fetchSteps, h.fetches hplan]
    exact List.mem_map.mpr ⟨item, hitem, rfl⟩
  have hstep : ep.step? (idOf item) = some (.fetch (PlanCompiler.boundFetch D binding item (idOf item))) := step?_of_mem hmem
  simp only [Function.comp_apply, markedFetch?, hstep]
  rfl

theorem BoundSteps.fetchesOfRole_eq {item : ApprovedCalculationInput} (hitem : item ∈ binding.inputs) :
    fetchesOfRole (declaredFetches ep calculation) item.role = [PlanCompiler.boundFetch D binding item (idOf item)] := by
  rw [h.declared hplan, fetchesOfRole, List.filter_map, Function.comp_def, List.map_map]
  rw [filter_eq_singleton binding.roles_unique hitem]
  rfl

/-- Each dependency fetch of a compiled calculation is owned by it. -/
theorem BoundSteps.owned {item : ApprovedCalculationInput} (hitem : item ∈ binding.inputs) :
    OwnedBy ep (PlanCompiler.boundFetch D binding item (idOf item)) item.role calculation := by
  refine ⟨?_, ?_, ?_, h.ref hitem⟩
  · rw [h.canonical hplan]
    have hmem : idOf item ∈ calculation.dependsOn := by
      rw [h.depends]
      exact List.mem_map_of_mem hitem
    simp [PlanCompiler.boundFetch, FetchMetricStep.ofKey, hmem]
  · rw [h.mark]
    rfl
  · rw [TrustedCalculationStep.outputMetricKey, h.mark]
    rfl

/-- A fetch of the output would be the fetch of an input that the catalog binds. -/
theorem BoundSteps.output_unfetched
    (hbinding : catalog.bindingFor binding.canonicalMetricKey = some binding) (hcurrent : BindingCurrent D catalog context binding) :
    ∀ fetch ∈ ep.fetchSteps, binding.canonicalMetricKey.val ∉ fetch.metricKeys := by
  rw [h.fetches hplan]
  intro fetch hfetch hkey
  obtain ⟨item, hitem, rfl⟩ := List.mem_map.mp hfetch
  have hsame : binding.canonicalMetricKey.val = item.metricKey.val := List.mem_singleton.mp hkey
  have hnone := hcurrent.unbound item hitem
  rw [← hsame, hbinding] at hnone
  nomatch hnone

/-- A compiled calculation is proven by the catalog exactly when its binding is current. -/
theorem BoundSteps.proven_iff (hbinding : catalog.bindingFor binding.canonicalMetricKey = some binding) :
    catalog.validateCalculation D ep calculation context = [] ↔ BindingCurrent D catalog context binding := by
  rw [validateCalculation_eq_nil_iff h.mark]
  constructor
  · rintro ⟨b, hb, hproven⟩
    rw [hbinding] at hb
    cases hb
    exact ⟨hproven.release, hproven.registered, fun item hitem => by
      obtain ⟨-, _, _, -, -, hknown, -⟩ := hproven.roles item hitem
      exact hknown, fun item hitem => (hproven.roles item hitem).1⟩
  · intro hcurrent
    have hdeclared := h.declared hplan
    refine ⟨binding, hbinding, h.template, rfl, rfl, rfl, rfl, hcurrent.release, hcurrent.registered, ?_, ?_, ?_, ?_, ?_, ?_,
      h.output_unfetched hplan hbinding hcurrent⟩
    · rw [h.keys]
      exact ⟨fun _ hx => hx, fun _ hx => hx⟩
    · rw [h.depends]
      intro id hid
      obtain ⟨item, hitem, rfl⟩ := List.mem_map.mp hid
      have hmem : (item.role, PlanCompiler.boundFetch D binding item (idOf item)) ∈ declaredFetches ep calculation := by
        rw [hdeclared]
        exact List.mem_map.mpr ⟨item, hitem, rfl⟩
      obtain ⟨hfetch, -, hrole⟩ := mem_declaredFetches.mp hmem
      have hstep : ep.step? (idOf item) = some (.fetch (PlanCompiler.boundFetch D binding item (idOf item))) :=
        step?_of_mem (mem_fetchSteps.mp hfetch)
      simp only [markedFetch?, hstep, hrole, Option.map_some, Option.isSome_some]
    · intro rf hrf
      rw [hdeclared] at hrf
      obtain ⟨item, hitem, rfl⟩ := List.mem_map.mp hrf
      rw [h.fetchesOfRole_eq hplan hitem]
      exact ⟨Nat.le_refl 1, List.mem_map_of_mem hitem⟩
    · intro rf hrf
      rw [hdeclared] at hrf
      obtain ⟨item, hitem, rfl⟩ := List.mem_map.mp hrf
      exact ⟨rfl, rfl⟩
    · intro item hitem
      exact ⟨hcurrent.unbound item hitem, _, [], h.fetchesOfRole_eq hplan hitem, rfl, hcurrent.known item hitem, h.ref hitem⟩
    · rw [h.fetches hplan]
      intro fetch hfetch _
      obtain ⟨item, hitem, rfl⟩ := List.mem_map.mp hfetch
      obtain ⟨hcanonical, hdepends⟩ := (h.owned hplan hitem).mem
      exact List.mem_flatMap.mpr ⟨calculation, hcanonical, hdepends⟩

/-- The plan of a bound metric is allowed exactly when it is within budget and the binding is current. -/
theorem bound_allowed_iff (hinv : "typed_result_present" ∈ v.approvedInvariantIds) (hcatalog : v.calculationCatalog = some catalog)
    (hbinding : catalog.bindingFor binding.canonicalMetricKey = some binding)
    (hkeys : plan.metricKeys = [binding.canonicalMetricKey.val]) :
    Allowed D v ep plan context routeBudget ↔
      WithinBudget ep context routeBudget ∧ BindingCurrent D catalog context binding := by
  have hsteps := hplan.steps.trans h.steps
  have hfetches := h.fetches hplan
  have hcanonical := h.canonical hplan
  have hadhoc : ep.adHocSteps = [] := adHocSteps_of hsteps
  have hdeclares : calculation.declaresCanonicalBinding = true :=
    (mem_canonicalSteps.mp (hcanonical ▸ List.mem_singleton.mpr rfl : calculation ∈ ep.canonicalSteps)).2
  have hissues : v.stepIssues D plan context ep (.trusted calculation) = [] ↔ BindingCurrent D catalog context binding := by
    rw [← h.proven_iff hplan hbinding]
    simp only [PlanValidator.stepIssues, hcatalog, hdeclares, if_true, List.map_eq_nil_iff]
  rw [← hplan.content_iff, ← hissues]
  constructor
  · exact fun hallowed => ⟨hallowed.content, hallowed.steps _ (by rw [hsteps]; simp)⟩
  rintro ⟨hcontent, hcalculation⟩
  refine ⟨hcontent, fun h => h.1 hadhoc, adHocV1ClosureFailures_eq_nil_iff.mpr (.inl hadhoc), ?_, ?_, ?_, ?_⟩
  · rw [adHocClosureFailures_eq_nil_iff, hfetches]
    intro fetch hfetch role hrole
    obtain ⟨item, -, rfl⟩ := List.mem_map.mp hfetch
    cases hrole
  · simp only [PlanValidator.canonicalIssues, hcatalog, List.append_eq_nil_iff, List.map_eq_nil_iff,
      validateBoundOutputs_eq_nil_iff, validateDependencyProvenance_eq_nil_iff, hcanonical, hfetches]
    have houtput : calculation.outputMetricKey = some binding.canonicalMetricKey.val := by
      rw [TrustedCalculationStep.outputMetricKey, h.mark]
      rfl
    refine ⟨⟨fun step hstep => ?_, fun key hkey _ => ⟨⟨calculation, ?_⟩, fun fetch hfetch hmem => ?_⟩⟩,
      fun fetch hfetch role hrole => ?_⟩
    · rw [List.mem_singleton] at hstep
      subst hstep
      exact ⟨_, houtput, by rw [hkeys]; exact List.mem_singleton.mpr rfl⟩
    · rw [hkeys, List.mem_singleton] at hkey
      subst hkey
      simp [houtput]
    · rw [hkeys, List.mem_singleton] at hkey
      subst hkey
      rw [← hfetches] at hfetch
      exact h.output_unfetched hplan hbinding (hissues.mp hcalculation) fetch hfetch hmem
    · obtain ⟨item, hitem, rfl⟩ := List.mem_map.mp hfetch
      cases hrole
      exact ⟨calculation, h.owned hplan hitem⟩
  · rw [hsteps]
    intro step hstep
    simp only [List.mem_append, List.mem_map, List.mem_cons, List.not_mem_nil, or_false] at hstep
    rcases hstep with ⟨fetch, -, rfl⟩ | rfl | rfl
    · rfl
    · exact hcalculation
    · exact verify_issues hinv _ _
  · rw [hsteps]
    intro step hstep
    simp only [List.mem_append, List.mem_map, List.mem_cons, List.not_mem_nil, or_false] at hstep
    rcases hstep with ⟨fetch, -, rfl⟩ | rfl | rfl
    · rfl
    · simp [PlanValidator.stepApprovals, hdeclares]
    · rfl

end Bound

/-! ## An AD_HOC calculation -/

section AdHoc

variable {spec : CalculationSpec} {binding : CalculationExecutionBinding} {idOf : CalculationInputSpec → PlanStepId}
  {calculation : AdHocCalculationStep D.toCalculationDigests}

/-- The fetch a compiled AD_HOC calculation has for an input. -/
def inputFetch (D : PlanDigests) (spec : CalculationSpec) (idOf : CalculationInputSpec → PlanStepId)
    (calculation : AdHocCalculationStep D.toCalculationDigests) (item : CalculationInputSpec) : FetchMetricStep :=
  PlanCompiler.adHocFetch D spec calculation.derivedOutputId item (idOf item, metricKeyOf item)

/-- The metric a spec declares for the role of one of its inputs. -/
theorem metricOf?_of_mem {item : CalculationInputSpec} (hitem : item ∈ spec.inputs) :
    spec.metricOf? item.role = item.metricKey := by
  have hsome : (spec.inputs.find? (·.role = item.role)).isSome = true := by
    rw [List.find?_isSome]
    exact ⟨item, hitem, by simp⟩
  obtain ⟨found, hfound⟩ := Option.isSome_iff_exists.mp hsome
  have hrole : found.role = item.role := by simpa using List.find?_some hfound
  rw [CalculationSpec.metricOf?, hfound, input_inj (List.mem_of_find?_eq_some hfound) hitem hrole]
  rfl

variable (h : AdHocSteps D steps spec binding idOf calculation)
include h

theorem AdHocSteps.ref {item : CalculationInputSpec}
    (hitem : item ∈ spec.inputs) : (calculation.inputRefs.get? item.role).map (·.val) = some (valueRef (idOf item)) := by
  have hget : calculation.inputRefs.get? item.role = some (idOf item).valueRef := by
    rw [Dict.get?_eq_some_iff, h.refs]
    exact List.mem_map.mpr ⟨item, hitem, rfl⟩
  rw [hget]
  rfl

variable (hplan : PlanOf D ep plan context steps)
include hplan

theorem AdHocSteps.fetches :
    ep.fetchSteps = spec.inputs.map (inputFetch D spec idOf calculation) := by
  rw [fetchSteps_of (hplan.steps.trans h.steps)]
  exact List.append_nil _

/-- A compiled AD_HOC plan has the shape the validator asks for. -/
theorem AdHocSteps.shape :
    AdHocShape ep calculation (.ofStep verifyResultId calculateAdhocId) := by
  have hsteps := hplan.steps.trans h.steps
  have hfetches := h.fetches hplan
  have hverify : ep.verifySteps = [.ofStep verifyResultId calculateAdhocId] := verifySteps_of hsteps
  have hroles : ep.fetchSteps.filterMap (·.adHocInputRole) = spec.inputs.map (·.role) := by
    rw [hfetches, List.filterMap_map]
    exact filterMap_eq_map_of fun _ _ => rfl
  have hkeys : fromKeys (calculation.calculationSpec.inputs.map (·.role)) = spec.inputs.map (·.role) := by
    rw [h.spec_eq]
    exact fromKeys_of_nodup spec.inputs_unique
  refine ⟨adHocSteps_of hsteps, trustedSteps_of hsteps, hverify, ?_, ?_, ?_, ?_, ?_, ?_, ?_, ?_, rfl⟩
  · have hids : ep.fetchSteps.map (·.stepId) ++ [calculation.stepId] ++ ep.verifySteps.map (·.stepId) =
        ep.steps.map (·.stepId) := by
      rw [hverify, hsteps, fetchSteps_of hsteps]
      simp [Function.comp_def, PlanStep.stepId, PlanStep.fetch?]
    rw [hids, fromKeys_of_nodup ep.dag.ids_unique, List.length_map]
  · rw [hfetches]
    intro fetch hfetch
    obtain ⟨item, -, rfl⟩ := List.mem_map.mp hfetch
    rfl
  · rw [hroles]
    exact fun role hrole => List.count_eq_one_of_mem spec.inputs_unique hrole
  · rw [hroles, hkeys]
    exact ⟨fun _ hx => hx, fun _ hx => hx⟩
  · rw [hkeys, hfetches, List.length_map, List.length_map]
  · rw [h.depends, hfetches, List.map_map]
    exact ⟨fun _ hx => hx, fun _ hx => hx⟩
  · rw [h.step_id]
    rfl
  · rw [h.step_id]
    rfl

theorem AdHocSteps.owned {item : CalculationInputSpec} (hitem : item ∈ spec.inputs) :
    AdHocOwnedBy ep (inputFetch D spec idOf calculation item) item.role calculation := by
  refine ⟨?_, h.ref hitem, ?_, rfl⟩
  · rw [(h.shape hplan).calculations]
    have hmem : idOf item ∈ calculation.dependsOn := by
      rw [h.depends]
      exact List.mem_map_of_mem hitem
    simp [inputFetch, PlanCompiler.adHocFetch, FetchMetricStep.ofKey, hmem]
  · rw [h.spec_eq]
    rfl

theorem AdHocSteps.declared :
    adHocDeclaredFetches ep calculation = spec.inputs.map fun item => (item.role, inputFetch D spec idOf calculation item) := by
  rw [adHocDeclaredFetches, h.fetches hplan, List.filterMap_map]
  refine filterMap_eq_map_of fun item hitem => ?_
  have hmem : (inputFetch D spec idOf calculation item).stepId ∈ calculation.dependsOn := by
    rw [h.depends]
    exact List.mem_map_of_mem hitem
  simp only [Function.comp_apply, if_pos hmem]
  rfl

/-- The sources of a compiled AD_HOC calculation are what the validator asks for. -/
theorem AdHocSteps.sources (hrequest : AdHocRequest D c plan context spec binding) : AdHocSources ep calculation context plan := by
  have hdeclared := h.declared hplan
  have hresolved : (spec.inputs.filterMap fun item => item.metricKey.map (·.val)) = spec.inputs.map metricKeyOf := by
    refine filterMap_eq_map_of fun item hitem => ?_
    obtain ⟨key, hkey, hval⟩ := hrequest.resolved item hitem
    rw [hkey, Option.map_some, hval]
  refine ⟨?_, ?_, ?_, ?_, ?_, ?_⟩
  · rw [h.spec_eq]
    intro item hitem hnone
    obtain ⟨key, hkey, -⟩ := hrequest.resolved item hitem
    rw [hkey] at hnone
    nomatch hnone
  · rw [h.spec_eq]
    exact hrequest.not_nested
  · rw [h.spec_eq, hresolved]
    exact hrequest.unique
  · rw [h.spec_eq, hresolved]
    exact hrequest.requested
  · rw [h.spec_eq, hdeclared, List.map_map]
    exact ⟨fun _ hx => hx, fun _ hx => hx⟩
  · rw [h.spec_eq, hdeclared]
    intro rf hrf
    obtain ⟨item, hitem, rfl⟩ := List.mem_map.mp hrf
    obtain ⟨key, hkey, hval⟩ := hrequest.resolved item hitem
    refine ⟨inputFetch D spec idOf calculation item, key, ?_, ?_, ?_, ?_⟩
    · rw [fetchesOfRole, List.filter_map, Function.comp_def, List.map_map, filter_eq_singleton spec.inputs_unique hitem]
      rfl
    · rw [metricOf?_of_mem hitem, hkey]
    · rw [hval]
      rfl
    · rw [hval]
      exact hrequest.known item hitem

/-- A compiled AD_HOC plan is allowed exactly when it is within budget. -/
theorem adHoc_allowed_iff (hrequest : AdHocRequest D c plan context spec binding) (hinv : "typed_result_present" ∈ v.approvedInvariantIds)
    (hcatalog : v.calculationCatalog = c.calculationCatalog) :
    Allowed D v ep plan context routeBudget ↔ WithinBudget ep context routeBudget := by
  rw [← hplan.content_iff]
  refine ⟨fun hallowed => hallowed.content, fun hcontent => ?_⟩
  have hsteps := hplan.steps.trans h.steps
  have hfetches := h.fetches hplan
  have hshape := h.shape hplan
  have hcanonical : ep.canonicalSteps = [] := by
    rw [ExecutionPlan.canonicalSteps, hshape.no_trusted]
    rfl
  have hunmarked : ∀ fetch ∈ ep.fetchSteps, fetch.calculationInputRole = none := by
    rw [hfetches]
    intro fetch hfetch
    obtain ⟨item, -, rfl⟩ := List.mem_map.mp hfetch
    rfl
  have habsent : ¬ PlanValidator.canonicalProvenancePresent ep := by
    rintro (hne | ⟨fetch, hmem, hrole⟩)
    · exact hne hcanonical
    · rw [hunmarked fetch hmem] at hrole
      cases hrole
  refine ⟨hcontent, fun hmix => habsent hmix.2, adHocV1ClosureFailures_eq_nil_iff.mpr (.inr ⟨calculation, _, hshape⟩), ?_, ?_, ?_, ?_⟩
  · rw [adHocClosureFailures_eq_nil_iff, hfetches]
    intro fetch hfetch role hrole
    obtain ⟨item, hitem, rfl⟩ := List.mem_map.mp hfetch
    cases hrole
    exact ⟨calculation, h.owned hplan hitem⟩
  · unfold PlanValidator.canonicalIssues
    cases hc : v.calculationCatalog with
    | none => simp [habsent]
    | some catalog =>
      simp only [List.append_eq_nil_iff, List.map_eq_nil_iff, validateBoundOutputs_eq_nil_iff,
        validateDependencyProvenance_eq_nil_iff, hcanonical]
      refine ⟨⟨(by rintro _ ⟨⟩), fun key hkey hbound => ?_⟩, fun fetch hmem role hrole => ?_⟩
      · obtain ⟨item, hitem, rfl⟩ := List.mem_map.mp (hrequest.requested.2 key hkey)
        rw [hrequest.unbound catalog (hcatalog.symm.trans hc) item hitem] at hbound
        cases hbound
      · rw [hunmarked fetch hmem] at hrole
        cases hrole
  · rw [hsteps]
    intro step hstep
    simp only [List.mem_append, List.mem_map, List.mem_cons, List.not_mem_nil, or_false] at hstep
    rcases hstep with ⟨fetch, -, rfl⟩ | rfl | rfl
    · rfl
    · have hsources := adHocStepFailures_eq_nil_iff.mpr (h.sources hplan hrequest)
      simp only [PlanValidator.stepIssues, hsources, List.map_nil, List.nil_append]
      cases hc : v.calculationCatalog with
      | none => rfl
      | some catalog =>
        simp only [h.spec_eq, List.flatMap_eq_nil_iff, failIf_eq_nil_iff]
        intro item hitem hbound
        obtain ⟨key, hkey, hval⟩ := hrequest.resolved item hitem
        rw [hkey, Option.bind_some, hval, hrequest.unbound catalog (hcatalog.symm.trans hc) item hitem] at hbound
        cases hbound
    · exact verify_issues hinv _ _
  · rw [hsteps]
    intro step hstep
    simp only [List.mem_append, List.mem_map, List.mem_cons, List.not_mem_nil, or_false] at hstep
    rcases hstep with ⟨fetch, -, rfl⟩ | rfl | rfl <;> rfl

end AdHoc

/-- A plan without an AD_HOC calculation is read back as it is. -/
theorem snapshot?_of_no_adHoc (h : ep.adHocSteps = []) : ep.snapshot? = some ep := by
  refine snapshot?_self fun step hstep => ?_
  cases step with
  | adHoc calculation =>
    have hmem := mem_adHocSteps.mpr hstep
    rw [h] at hmem
    nomatch hmem
  | fetch => rfl
  | trusted => rfl
  | verify => rfl

/-- A compiled AD_HOC plan is read back as it is: its binding was snapshotted before. -/
theorem AdHocSteps.snapshot {spec : CalculationSpec} {b : CalculationExecutionBinding} {idOf : CalculationInputSpec → PlanStepId}
    {calculation : AdHocCalculationStep D.toCalculationDigests} (h : AdHocSteps D steps spec b.snapshot idOf calculation)
    (hplan : PlanOf D ep plan context steps) : ep.snapshot? = some ep := by
  refine snapshot?_self fun step hstep => ?_
  cases step with
  | adHoc step =>
    have hmem := mem_adHocSteps.mpr hstep
    rw [(h.shape hplan).calculations, List.mem_singleton] at hmem
    subst hmem
    have hself : step.executionBinding.snapshot = step.executionBinding := by rw [h.binding_eq, snapshot_snapshot]
    simp only [PlanStep.snapshot?, adHoc_snapshot?_self hself, Option.map_some]
  | fetch => rfl
  | trusted => rfl
  | verify => rfl

end CompilerAux

open CompilerAux PlanAux

/-- The compiler and the validator agree. A plan that `compile` or `compile_ad_hoc` returned is allowed by a validator with the same
catalog exactly when the route's budget holds it and, where the catalog binds a requested metric, its binding is current. -/
theorem compiled_allowed_iff (D : PlanDigests) (c : PlanCompiler) (v : PlanValidator)
    (hcatalog : v.calculationCatalog = c.calculationCatalog) (hinv : "typed_result_present" ∈ v.approvedInvariantIds)
    (hversion : v.policyVersion.length ≤ 128) (plan : QueryPlan) (context : ContextBundle) (validation : PlanValidationRecord)
    (routeBudget : RouteBudget) (ep : ExecutionPlan D.toCalculationDigests)
    (hcompiled : c.compile D plan context validation = .ok ep ∨
      ∃ spec binding, c.compileAdHoc D plan context validation spec binding = .ok ep) :
    v.Allows D ep plan context routeBudget ↔
      WithinBudget ep context routeBudget ∧
      ∀ catalog, c.calculationCatalog = some catalog → ∀ key ∈ plan.metricKeys, ∀ binding, catalog.bindingFor key = some binding →
        BindingCurrent D catalog context binding := by
  rw [allowed_iff, and_iff_right_of_imp (a := v.policyVersion.length ≤ 128) fun _ => hversion]
  rcases hcompiled with hcompiled | ⟨spec, b, hcompiled⟩
  · rcases compile_eq_ok hcompiled with ⟨catalog, binding, idOf, calculation, steps, hc, hbinding, hkeys, hsteps, hplan⟩ |
      ⟨hnone, hplan⟩
    · have hsnapshot : ep.snapshot? = some ep := snapshot?_of_no_adHoc (adHocSteps_of (hplan.steps.trans hsteps.steps))
      rw [and_iff_right hsnapshot, bound_allowed_iff hsteps hplan hinv (hcatalog.trans hc) hbinding hkeys]
      refine and_congr_right fun _ => ⟨fun hcurrent catalog' hc' key hkey b hb => ?_, fun h => ?_⟩
      · rw [hc] at hc'
        cases hc'
        rw [hkeys, List.mem_singleton] at hkey
        rw [hkey, hbinding] at hb
        cases hb
        exact hcurrent
      · exact h catalog hc _ (by rw [hkeys]; exact List.mem_singleton.mpr rfl) binding hbinding
    · have hsteps : ep.steps = [PlanCompiler.ordinaryFetch plan].map PlanStep.fetch ++ [PlanStep.verify (.ofStep verifyResultId fetchMetricsId)] :=
        hplan.steps
      rw [and_iff_right (snapshot?_of_no_adHoc (adHocSteps_of hsteps)), ordinary_allowed_iff hplan hinv (hcatalog ▸ hnone)]
      refine (and_iff_left fun catalog hc key hkey binding hb => ?_).symm
      rw [hnone catalog hc key hkey] at hb
      nomatch hb
  · obtain ⟨hrequest, idOf, calculation, steps, hsteps, hplan⟩ := compileAdHoc_eq_ok hcompiled
    rw [and_iff_right (hsteps.snapshot hplan), adHoc_allowed_iff hsteps hplan hrequest hinv hcatalog]
    refine (and_iff_left fun catalog hc key hkey binding hb => ?_).symm
    obtain ⟨item, hitem, rfl⟩ := List.mem_map.mp (hrequest.requested.2 key hkey)
    rw [hrequest.unbound catalog hc item hitem] at hb
    nomatch hb

/-! ## The gross margin, compiled -/

/-- The query for the gross margin. -/
def marginPlan : QueryPlan := januaryPlan "gross_margin" (by decide)

/-- The compiler of the request. -/
def marginCompiler : PlanCompiler := ⟨"plan-compiler.v1", some marginCatalog, by decide⟩

/-- The digests at the contracts of the query for the gross margin. -/
def marginDigests : PlanDigests :=
  { salesDigests with
    queryPlan := fun _ => ⟨"5248b3204b218bce9f7eda017a4977c4c8358f37a64eb9b42f09ebcffa920f76", isSha256_ofList rfl⟩
    executionPlan := fun _ => ⟨"800139146cd5ac4ce09fabb154674f7a3a3fff3a35b25ae83fc13e2f65d97dad", isSha256_ofList rfl⟩ }

/-- The record that allowed the query plan. -/
def marginValidation : PlanValidationRecord where
  policyVersion := ⟨"plan-validation.bootstrap.v1", by decide⟩
  policyChecksum := marginValidator.policyChecksum marginDigests
  outcome := .allow
  queryPlanSha256 := marginDigests.queryPlan marginPlan
  contextChecksum := marginDigests.context salesContext
  executionPlanSha256 := none
  issues := []
  issues_length := by decide
  outcome_issues := by decide

/-- The query for the gross margin compiles to two fetches, and the validator allows the plan on the standard route. -/
theorem compiled_allowed_margin :
    match marginCompiler.compile marginDigests marginPlan salesContext marginValidation with
    | .ok ep => marginValidator.Allows marginDigests ep marginPlan salesContext (bootstrapRoutingBudgetPolicy.routes .standard)
    | .error _ => False := by
  have hcompiled : ((marginCompiler.compile marginDigests marginPlan salesContext marginValidation).toOption.map
      (·.fetchSteps.length)) = some 2 := by decide
  split
  · rename_i ep hep
    rw [hep] at hcompiled
    have hlength : ep.fetchSteps.length = 2 := Option.some.inj hcompiled
    refine (compiled_allowed_iff marginDigests marginCompiler marginValidator rfl (by decide) (by decide) marginPlan salesContext
      marginValidation _ ep (.inl hep)).mpr ⟨⟨by rw [hlength]; decide, by rw [hlength]; decide, by decide⟩, ?_⟩
    intro catalog hc key hkey binding hb
    cases hc
    rw [List.mem_singleton.mp hkey] at hb
    cases hb
    exact ⟨rfl, ⟨_, rfl, rfl, rfl, by decide⟩, by decide, by decide⟩
  · rename_i e he
    rw [he] at hcompiled
    nomatch hcompiled

end Nl2Sql
