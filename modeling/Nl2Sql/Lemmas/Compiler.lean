import Nl2Sql.Lemmas.Plan
import Nl2Sql.Lib.Method
import Nl2Sql.Plan.Compiler

/-!
# What a compiled plan looks like

The compiler returns one of three shapes: an ordinary fetch with its verification, the fetches of a canonical calculation, or those
of an AD_HOC calculation. Each is described once, by a structure; what the validator says of a compiled plan is then read off the
description.
-/

namespace Nl2Sql

open Py

namespace CompilerAux

open ApprovedCalculationCatalog PlanAux

/-! ## Programs that return -/

theorem raiseIf_eq_ok {c : Prop} [Decidable c] {code : CompilationCode} {u : Unit} : raiseIf c code = .ok u ↔ ¬ c := by
  unfold raiseIf
  split <;> simp_all

theorem orContract_eq_ok {α : Type} {o : Option α} {a : α} : orContract o = .ok a ↔ o = some a := by
  cases o <;> simp [orContract]

/-- The step id of a role that has one. -/
def fetchIdOf (code : CompilationCode) (role : RoleName) : PlanStepId :=
  match fetchStepId code role with
  | .ok id => id
  | .error _ => verifyResultId

theorem fetchIdOf_eq {code : CompilationCode} {role : RoleName} {id : PlanStepId} (h : fetchStepId code role = .ok id) :
    fetchIdOf code role = id := by
  rw [fetchIdOf, h]

/-- Telling the elements of a list apart by a key: one element has the key of an element. -/
theorem filter_eq_singleton {α β : Type} [DecidableEq β] {k : α → β} {l : List α} (h : (l.map k).Nodup) {x : α} (hx : x ∈ l) :
    (l.filter fun y => k y = k x) = [x] := by
  induction l with
  | nil => nomatch hx
  | cons y ys ih =>
    rw [List.map_cons, List.nodup_cons] at h
    rcases List.mem_cons.mp hx with rfl | hmem
    · have hnone : (ys.filter fun z => k z = k x) = [] := by
        rw [List.filter_eq_nil_iff]
        intro z hz hk
        exact h.1 (of_decide_eq_true hk ▸ List.mem_map_of_mem hz)
      rw [List.filter_cons_of_pos (by simp), hnone]
    · have hne : k y ≠ k x := fun hk => h.1 (hk ▸ List.mem_map_of_mem hmem)
      rw [List.filter_cons_of_neg (by simpa using hne), ih h.2 hmem]

theorem filterMap_eq_map_of {α β : Type} {f : α → Option β} {g : α → β} {l : List α} (h : ∀ x ∈ l, f x = some (g x)) :
    l.filterMap f = l.map g := by
  rw [List.filterMap_congr h, ← List.filterMap_eq_map']

/-! ## Kinds of steps -/

section Kinds

variable {D : CalculationDigests} {ep : ExecutionPlan D} {fs : List FetchMetricStep} {rest : List (PlanStep D)}

section

variable (h : ep.steps = fs.map PlanStep.fetch ++ rest)
include h

theorem fetchSteps_of : ep.fetchSteps = fs ++ rest.filterMap PlanStep.fetch? := by
  simp [ExecutionPlan.fetchSteps, h, List.filterMap_map, Function.comp_def, PlanStep.fetch?]

theorem trustedSteps_of : ep.trustedSteps = rest.filterMap PlanStep.trusted? := by
  simp [ExecutionPlan.trustedSteps, h, List.filterMap_map, Function.comp_def, PlanStep.trusted?]

theorem adHocSteps_of : ep.adHocSteps = rest.filterMap PlanStep.adHoc? := by
  simp [ExecutionPlan.adHocSteps, h, List.filterMap_map, Function.comp_def, PlanStep.adHoc?]

theorem verifySteps_of : ep.verifySteps = rest.filterMap PlanStep.verify? := by
  simp [ExecutionPlan.verifySteps, h, List.filterMap_map, Function.comp_def, PlanStep.verify?]

end

end Kinds

section Shapes

variable {D : PlanDigests} {c : PlanCompiler} {ep : ExecutionPlan D.toCalculationDigests} {plan : QueryPlan}
  {context : ContextBundle} {validation : PlanValidationRecord}

/-- A plan of these steps, for this request. -/
structure PlanOf (D : PlanDigests) (ep : ExecutionPlan D.toCalculationDigests) (plan : QueryPlan) (context : ContextBundle)
    (steps : List (PlanStep D.toCalculationDigests)) : Prop where
  query : ep.queryPlanSha256 = D.queryPlan plan
  release : ep.semanticReleaseId = context.semanticReleaseId
  snapshot : ep.schemaSnapshotId = context.schemaSnapshotId
  steps : ep.steps = steps

theorem buildPlan_eq_ok {steps : List (PlanStep D.toCalculationDigests)} (h : c.buildPlan D plan context steps = .ok ep) :
    PlanOf D ep plan context steps := by
  unfold PlanCompiler.buildPlan at h
  split at h
  · cases h
    exact ⟨rfl, rfl, rfl, rfl⟩
  · cases h

/-- The steps of a canonical calculation: each input of the binding has its fetch, and the calculation reads them. -/
structure BoundSteps (D : PlanDigests) (steps : List (PlanStep D.toCalculationDigests)) (binding : ApprovedCalculationBinding)
    (idOf : ApprovedCalculationInput → PlanStepId) (calculation : TrustedCalculationStep) : Prop where
  steps : steps = (binding.inputs.map fun item => PlanCompiler.boundFetch D binding item (idOf item)).map PlanStep.fetch ++
    [.trusted calculation, .verify (.ofStep verifyResultId calculateMetricId)]
  refs : calculation.inputRefs.entries = binding.inputs.map fun item => (item.role, (idOf item).valueRef)
  depends : calculation.dependsOn = binding.inputs.map idOf
  template : calculation.templateId = binding.templateId
  mark : calculation.binding =
    some ⟨binding.templateVersion, binding.templateChecksum, D.approvedBinding binding, binding.canonicalMetricKey⟩

theorem valueRefs_entries {α : Type} (xs : List α) (role : α → RoleName) (idOf : α → PlanStepId) (h : (xs.map role).Nodup) :
    (valueRefs (xs.map role) (xs.map idOf) h).entries = xs.map fun x => (role x, (idOf x).valueRef) := by
  simp only [valueRefs, List.map_map, List.zip_map', Function.comp_def]

theorem compileBoundCalculation_eq_ok {binding : ApprovedCalculationBinding} {steps : List (PlanStep D.toCalculationDigests)}
    (h : PlanCompiler.compileBoundCalculation D plan binding = .ok steps) :
    plan.metricKeys = [binding.canonicalMetricKey.val] ∧ ∃ idOf calculation, BoundSteps D steps binding idOf calculation := by
  unfold PlanCompiler.compileBoundCalculation at h
  obtain ⟨_, -, h⟩ := bind_eq_ok.mp h
  obtain ⟨_, hkeys, h⟩ := bind_eq_ok.mp h
  obtain ⟨ids, hids, h⟩ := bind_eq_ok.mp h
  obtain ⟨_, -, h⟩ := bind_eq_ok.mp h
  obtain ⟨calculation, hcalc, h⟩ := bind_eq_ok.mp h
  cases h
  obtain ⟨rfl, -⟩ := mapM_eq_ok (g := fun item : ApprovedCalculationInput => fetchIdOf .approvedRoleUnsupported item.role)
    (fun _ _ hx => fetchIdOf_eq hx) hids
  refine ⟨not_not.mp (raiseIf_eq_ok.mp hkeys), fun item => fetchIdOf .approvedRoleUnsupported item.role, calculation, ?_⟩
  rw [orContract_eq_ok] at hcalc
  unfold TrustedCalculationStep.build? at hcalc
  split at hcalc
  · cases hcalc
    exact ⟨by rw [List.zipWith_map_right, List.zipWith_self], valueRefs_entries _ _ _ binding.roles_unique, rfl, rfl, rfl⟩
  · nomatch hcalc

/-- The metric of an AD_HOC input that is resolved. -/
def metricKeyOf (item : CalculationInputSpec) : String := (item.metricKey.map (·.val)).getD ""

theorem resolveInput_eq_ok {item : CalculationInputSpec} {key : String} :
    PlanCompiler.resolveInput item = .ok key ↔ (∃ k, item.metricKey = some k ∧ k.val = key) ∧ item.provenance ≠ .adHocMetric := by
  unfold PlanCompiler.resolveInput
  cases item.metricKey with
  | none => simp
  | some k => by_cases h : item.provenance = .adHocMetric <;> simp [h]

theorem metricKeyOf_eq {item : CalculationInputSpec} {key : String} (h : PlanCompiler.resolveInput item = .ok key) :
    metricKeyOf item = key := by
  obtain ⟨⟨k, hk, rfl⟩, -⟩ := resolveInput_eq_ok.mp h
  simp [metricKeyOf, hk]

/-- The steps of an AD_HOC calculation: each input of the spec has its fetch, and the calculation reads them. -/
structure AdHocSteps (D : PlanDigests) (steps : List (PlanStep D.toCalculationDigests)) (spec : CalculationSpec)
    (binding : CalculationExecutionBinding) (idOf : CalculationInputSpec → PlanStepId)
    (calculation : AdHocCalculationStep D.toCalculationDigests) : Prop where
  steps : steps = (spec.inputs.map fun item =>
      PlanCompiler.adHocFetch D spec calculation.derivedOutputId item (idOf item, metricKeyOf item)).map PlanStep.fetch ++
    [.adHoc calculation, .verify (.ofStep verifyResultId calculateAdhocId)]
  step_id : calculation.stepId = calculateAdhocId
  spec_eq : calculation.calculationSpec = spec
  binding_eq : calculation.executionBinding = binding
  refs : calculation.inputRefs.entries = spec.inputs.map fun item => (item.role, (idOf item).valueRef)
  depends : calculation.dependsOn = spec.inputs.map idOf

theorem compileAdHocCalculation_eq_ok {spec : CalculationSpec} {binding : CalculationExecutionBinding}
    {steps : List (PlanStep D.toCalculationDigests)}
    (h : PlanCompiler.compileAdHocCalculation D spec binding (spec.inputs.map metricKeyOf) = .ok steps) :
    ∃ idOf calculation, AdHocSteps D steps spec binding idOf calculation := by
  unfold PlanCompiler.compileAdHocCalculation at h
  obtain ⟨_, -, h⟩ := bind_eq_ok.mp h
  obtain ⟨ids, hids, h⟩ := bind_eq_ok.mp h
  obtain ⟨_, -, h⟩ := bind_eq_ok.mp h
  obtain ⟨calculation, hcalc, h⟩ := bind_eq_ok.mp h
  cases h
  obtain ⟨rfl, -⟩ := mapM_eq_ok (g := fun item : CalculationInputSpec => fetchIdOf .adHocRoleUnsupported item.role)
    (fun _ _ hx => fetchIdOf_eq hx) hids
  refine ⟨fun item => fetchIdOf .adHocRoleUnsupported item.role, calculation, ?_⟩
  rw [orContract_eq_ok] at hcalc
  unfold AdHocCalculationStep.build? at hcalc
  split at hcalc
  · cases hcalc
    refine ⟨?_, rfl, rfl, rfl, valueRefs_entries _ _ _ spec.inputs_unique, rfl⟩
    rw [List.zip_map', List.zipWith_map_right, List.zipWith_self]
  · cases hcalc

/-! ## The entry points -/

theorem mem_boundRequested {catalog : ApprovedCalculationCatalog} (hc : c.calculationCatalog = some catalog) {key : String} :
    key ∈ c.boundRequested plan ↔ key ∈ plan.metricKeys ∧ (catalog.bindingFor key).isSome = true := by
  simp [PlanCompiler.boundRequested, hc]

/-- What `compile` returns: the plan of a bound metric, or of metrics none of which is bound. -/
theorem compile_eq_ok (h : c.compile D plan context validation = .ok ep) :
    (∃ catalog binding idOf calculation steps, c.calculationCatalog = some catalog ∧
      catalog.bindingFor binding.canonicalMetricKey = some binding ∧ plan.metricKeys = [binding.canonicalMetricKey.val] ∧
      BoundSteps D steps binding idOf calculation ∧ PlanOf D ep plan context steps) ∨
    ((∀ catalog, c.calculationCatalog = some catalog → ∀ key ∈ plan.metricKeys, catalog.bindingFor key = none) ∧
      PlanOf D ep plan context [.fetch (PlanCompiler.ordinaryFetch plan), .verify (.ofStep verifyResultId fetchMetricsId)]) := by
  unfold PlanCompiler.compile at h
  obtain ⟨_, -, h⟩ := bind_eq_ok.mp h
  split at h
  · refine .inl ?_
    obtain ⟨binding, hbinding, h⟩ := bind_eq_ok.mp h
    obtain ⟨steps, hsteps, h⟩ := bind_eq_ok.mp h
    obtain ⟨hkeys, idOf, calculation, hbound⟩ := compileBoundCalculation_eq_ok hsteps
    obtain ⟨_, -, hbinding⟩ := bind_eq_ok.mp hbinding
    split at hbinding
    · nomatch hbinding
    · rename_i b hb
      cases hbinding
      obtain ⟨catalog, hcatalog, hb⟩ := Option.bind_eq_some_iff.mp hb
      rw [hkeys, List.headD_cons] at hb
      exact ⟨catalog, binding, idOf, calculation, steps, hcatalog, hb, hkeys, hbound, buildPlan_eq_ok h⟩
  · rename_i hnone
    refine .inr ⟨fun catalog hcatalog key hkey => ?_, buildPlan_eq_ok h⟩
    by_contra hne
    have hmem := (mem_boundRequested hcatalog).mpr ⟨hkey, Option.isSome_iff_ne_none.mpr hne⟩
    rw [not_not.mp hnone] at hmem
    nomatch hmem

/-- What holds of the spec, the binding and the request when `compile_ad_hoc` returns. -/
structure AdHocRequest (D : PlanDigests) (c : PlanCompiler) (plan : QueryPlan) (context : ContextBundle) (spec : CalculationSpec)
    (binding : CalculationExecutionBinding) : Prop where
  valid : binding.bindingFailures D.toCalculationDigests spec = []
  resolved : ∀ item ∈ spec.inputs, ∃ key, item.metricKey = some key ∧ key.val = metricKeyOf item
  not_nested : ∀ item ∈ spec.inputs, item.provenance ≠ .adHocMetric
  unique : (spec.inputs.map metricKeyOf).Nodup
  requested : SameSet (spec.inputs.map metricKeyOf) plan.metricKeys
  known : ∀ item ∈ spec.inputs, metricKeyOf item ∈ context.assetIds
  unbound : ∀ catalog, c.calculationCatalog = some catalog → ∀ item ∈ spec.inputs, catalog.bindingFor (metricKeyOf item) = none

theorem compileAdHoc_eq_ok {spec : CalculationSpec} {executionBinding : CalculationExecutionBinding}
    (h : c.compileAdHoc D plan context validation spec executionBinding = .ok ep) :
    AdHocRequest D c plan context spec executionBinding.snapshot ∧ ∃ idOf calculation steps,
      AdHocSteps D steps spec executionBinding.snapshot idOf calculation ∧ PlanOf D ep plan context steps := by
  unfold PlanCompiler.compileAdHoc at h
  obtain ⟨_, -, h⟩ := bind_eq_ok.mp h
  obtain ⟨_, -, h⟩ := bind_eq_ok.mp h
  obtain ⟨_, -, h⟩ := bind_eq_ok.mp h
  obtain ⟨_, -, h⟩ := bind_eq_ok.mp h
  obtain ⟨_, -, h⟩ := bind_eq_ok.mp h
  obtain ⟨_, hvalid, h⟩ := bind_eq_ok.mp h
  obtain ⟨_, -, h⟩ := bind_eq_ok.mp h
  obtain ⟨resolved, hresolved, h⟩ := bind_eq_ok.mp h
  obtain ⟨_, hunique, h⟩ := bind_eq_ok.mp h
  obtain ⟨_, hrequested, h⟩ := bind_eq_ok.mp h
  obtain ⟨_, hknown, h⟩ := bind_eq_ok.mp h
  obtain ⟨_, hunbound, h⟩ := bind_eq_ok.mp h
  obtain ⟨steps, hsteps, hplan⟩ := bind_eq_ok.mp h
  obtain ⟨rfl, hall⟩ := mapM_eq_ok (fun _ _ hx => metricKeyOf_eq hx) hresolved
  rw [raiseIf_eq_ok, not_not] at hvalid hunique hrequested
  rw [raiseIf_eq_ok] at hknown hunbound
  obtain ⟨idOf, calculation, hadhoc⟩ := compileAdHocCalculation_eq_ok hsteps
  refine ⟨⟨hvalid, fun item hitem => (resolveInput_eq_ok.mp (hall item hitem)).1, fun item hitem =>
    (resolveInput_eq_ok.mp (hall item hitem)).2, hunique, hrequested, fun item hitem => ?_, fun catalog hcatalog item hitem => ?_⟩,
    idOf, calculation, steps, hadhoc, buildPlan_eq_ok hplan⟩
  · by_contra hnot
    exact hknown ⟨_, List.mem_map_of_mem hitem, hnot⟩
  · by_contra hne
    refine hunbound ⟨catalog, ?_, _, List.mem_map_of_mem hitem, Option.isSome_iff_ne_none.mpr hne⟩
    rw [hcatalog]
    exact List.mem_singleton.mpr rfl

end Shapes

end CompilerAux

end Nl2Sql
