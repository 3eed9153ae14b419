import Nl2Sql.Plan.Validator
import Nl2Sql.Theorems.Binding

/-!
# What an allowed plan satisfies

The validator allows a plan when its snapshot succeeds and every collector reports nothing. Here each collector is turned into what
it means that it reports nothing, once, so that the theorems about allowed plans do not unfold the validator.
-/

namespace Nl2Sql

open Py

namespace PlanAux

/-! ## Snapshots -/

section Snapshot

variable {D : CalculationDigests}

/-- A binding that is read back without a failure is read back as it was. -/
theorem snapshot_binding_eq {b : CalculationExecutionBinding} {spec : CalculationSpec} (h : b.bindingFailures D spec = [])
    (h' : b.snapshot.bindingFailures D spec = []) : b.snapshot = b := by
  refine BindingAux.snapshot_eq_self ((BindingAux.snapshot_parameters_iff b).mpr ?_)
  intro p hp d hd
  exact BindingAux.snapshot_failures_of_decimal h hp hd h'

theorem step_snapshot_eq {step step' : AdHocCalculationStep D} (h : step.snapshot? = some step') : step' = step := by
  unfold AdHocCalculationStep.snapshot? at h
  split at h
  · rename_i hok
    cases h
    have hb := snapshot_binding_eq step.binding_valid hok.1
    obtain ⟨_, _, _, _, _, _, _, _, _, _, _, _⟩ := step
    simp only at hb ⊢
    congr
  · nomatch h

theorem planStep_snapshot_eq {step step' : PlanStep D} (h : step.snapshot? = some step') : step' = step := by
  cases step with
  | adHoc step =>
    obtain ⟨s', hs', rfl⟩ := Option.map_eq_some_iff.mp h
    rw [step_snapshot_eq hs']
  | fetch step => exact (Option.some.inj h).symm
  | trusted step => exact (Option.some.inj h).symm
  | verify step => exact (Option.some.inj h).symm

theorem mapM_snapshot_eq {steps steps' : List (PlanStep D)} (h : steps.mapM PlanStep.snapshot? = some steps') :
    steps' = steps := by
  induction steps generalizing steps' with
  | nil =>
    rw [List.mapM_nil] at h
    exact (Option.some.inj h).symm
  | cons step rest ih =>
    rw [List.mapM_cons] at h
    obtain ⟨s', hs', h⟩ := Option.bind_eq_some_iff.mp h
    obtain ⟨rest', hrest', h⟩ := Option.bind_eq_some_iff.mp h
    rw [← Option.some.inj h, planStep_snapshot_eq hs', ih hrest']

/-- A plan that is read back is the plan that was written. -/
theorem plan_snapshot_eq {plan plan' : ExecutionPlan D} (h : plan.snapshot? = some plan') : plan' = plan := by
  unfold ExecutionPlan.snapshot? at h
  obtain ⟨steps, hsteps, h⟩ := Option.bind_eq_some_iff.mp h
  split at h
  · cases h
    have heq := mapM_snapshot_eq hsteps
    subst heq
    rfl
  · nomatch h

end Snapshot

/-! ## The steps of a plan, by kind -/

section Kinds

variable {D : CalculationDigests} {plan : ExecutionPlan D}

theorem mem_fetchSteps {f : FetchMetricStep} : f ∈ plan.fetchSteps ↔ PlanStep.fetch f ∈ plan.steps := by
  unfold ExecutionPlan.fetchSteps
  rw [List.mem_filterMap]
  constructor
  · rintro ⟨step, hs, hf⟩
    cases step <;> simp only [PlanStep.fetch?, Option.some.injEq, reduceCtorEq] at hf
    exact hf ▸ hs
  · exact fun h => ⟨_, h, rfl⟩

theorem mem_trustedSteps {f : TrustedCalculationStep} : f ∈ plan.trustedSteps ↔ PlanStep.trusted f ∈ plan.steps := by
  unfold ExecutionPlan.trustedSteps
  rw [List.mem_filterMap]
  constructor
  · rintro ⟨step, hs, hf⟩
    cases step <;> simp only [PlanStep.trusted?, Option.some.injEq, reduceCtorEq] at hf
    exact hf ▸ hs
  · exact fun h => ⟨_, h, rfl⟩

theorem mem_adHocSteps {f : AdHocCalculationStep D} : f ∈ plan.adHocSteps ↔ PlanStep.adHoc f ∈ plan.steps := by
  unfold ExecutionPlan.adHocSteps
  rw [List.mem_filterMap]
  constructor
  · rintro ⟨step, hs, hf⟩
    cases step <;> simp only [PlanStep.adHoc?, Option.some.injEq, reduceCtorEq] at hf
    exact hf ▸ hs
  · exact fun h => ⟨_, h, rfl⟩

theorem mem_canonicalSteps {f : TrustedCalculationStep} :
    f ∈ plan.canonicalSteps ↔ PlanStep.trusted f ∈ plan.steps ∧ f.declaresCanonicalBinding = true := by
  unfold ExecutionPlan.canonicalSteps
  rw [List.mem_filter, mem_trustedSteps]

/-- The step of an id is the step that has it. -/
theorem step?_of_mem {step : PlanStep D} (h : step ∈ plan.steps) : plan.step? step.stepId = some step := by
  unfold ExecutionPlan.step?
  have hnodup := plan.dag.ids_unique
  revert h hnodup
  generalize plan.steps = steps
  intro h hnodup
  induction steps with
  | nil => nomatch h
  | cons s rest ih =>
    rw [List.map_cons, List.nodup_cons] at hnodup
    by_cases hs : s.stepId = step.stepId
    · rcases List.mem_cons.mp h with rfl | hmem
      · simp
      · exact absurd (List.mem_map_of_mem hmem) (hs ▸ hnodup.1)
    · rw [List.find?_cons_of_neg (by simpa using hs)]
      rcases List.mem_cons.mp h with rfl | hmem
      · exact absurd rfl hs
      · exact ih hmem hnodup.2

theorem mem_of_step? {id : PlanStepId} {step : PlanStep D} (h : plan.step? id = some step) :
    step ∈ plan.steps ∧ step.stepId = id := by
  unfold ExecutionPlan.step? at h
  exact ⟨List.mem_of_find?_eq_some h, by simpa using List.find?_some h⟩

/-- Two steps of a plan with one id are one step. -/
theorem step_inj {s t : PlanStep D} (hs : s ∈ plan.steps) (ht : t ∈ plan.steps) (h : s.stepId = t.stepId) : s = t := by
  have h1 := step?_of_mem hs
  rw [h, step?_of_mem ht] at h1
  exact (Option.some.inj h1).symm

end Kinds

/-! ## What it means that a plan is allowed -/

section Allowed

variable {D : PlanDigests} {v : PlanValidator} {plan : ExecutionPlan D.toCalculationDigests} {queryPlan : QueryPlan}
  {context : ContextBundle} {routeBudget : RouteBudget}

/-- What a record that pydantic accepts says. -/
theorem record?_eq_some {outcome : ValidationOutcome} {issues : List PlanValidationIssue} {r : PlanValidationRecord}
    (h : v.record? D outcome queryPlan context plan issues = some r) : r.outcome = outcome ∧ v.policyVersion.length ≤ 128 := by
  unfold PlanValidator.record? at h
  split at h
  · rename_i hok
    cases h
    exact ⟨rfl, hok.1.2⟩
  · nomatch h

theorem policyVersion_pos (v : PlanValidator) : 1 ≤ v.policyVersion.length := by
  by_contra hlt
  have hnil : v.policyVersion = "" := String.length_eq_zero_iff.mp (by omega)
  have hblank := v.version_non_blank
  rw [hnil] at hblank
  revert hblank
  decide

/-- A plan is allowed exactly when it is read back, its policy fits in a record, and nothing is reported. -/
theorem allows_iff : v.Allows D plan queryPlan context routeBudget ↔
    plan.snapshot? = some plan ∧ v.policyVersion.length ≤ 128 ∧ v.denyIssues D plan queryPlan context routeBudget = [] ∧
      plan.steps.flatMap v.stepApprovals = [] := by
  constructor
  · rintro ⟨r, hr, hallow⟩
    obtain ⟨plan', hsnap, hrec⟩ := Option.bind_eq_some_iff.mp hr
    have heq := plan_snapshot_eq hsnap
    subst heq
    obtain ⟨hout, hlen⟩ := record?_eq_some hrec
    rw [hallow] at hout
    by_cases hd : v.denyIssues D plan' queryPlan context routeBudget = []
    · by_cases ha : plan'.steps.flatMap v.stepApprovals = []
      · exact ⟨hsnap, hlen, hd, ha⟩
      · rw [if_neg (not_not.mpr hd), if_pos ha] at hout
        nomatch hout
    · rw [if_pos hd] at hout
      nomatch hout
  · rintro ⟨hsnap, hlen, hd, ha⟩
    have hok : (1 ≤ v.policyVersion.length ∧ v.policyVersion.length ≤ 128) ∧ ([] : List PlanValidationIssue).length ≤ 32 ∧
        (ValidationOutcome.allow = .allow ↔ ([] : List PlanValidationIssue) = []) :=
      ⟨⟨policyVersion_pos v, hlen⟩, by decide, by decide⟩
    have hrec : ∃ r, v.record? D .allow queryPlan context plan [] = some r ∧ r.outcome = .allow := by
      unfold PlanValidator.record?
      rw [dif_pos hok]
      exact ⟨_, rfl, rfl⟩
    obtain ⟨r, hr, hallow⟩ := hrec
    refine ⟨r, ?_, hallow⟩
    unfold PlanValidator.validateExecutionPlan
    simp only [hsnap, Option.bind_eq_bind, Option.bind_some, hd, ha, ne_eq, not_true_eq_false, if_false]
    exact hr

/-- What the collectors say of an allowed plan. -/
structure Allowed (D : PlanDigests) (v : PlanValidator) (plan : ExecutionPlan D.toCalculationDigests) (queryPlan : QueryPlan)
    (context : ContextBundle) (routeBudget : RouteBudget) : Prop where
  content : PlanValidator.contentIssues D plan queryPlan context routeBudget = []
  no_mix : ¬ (plan.adHocSteps ≠ [] ∧ PlanValidator.canonicalProvenancePresent plan)
  v1_closure : adHocV1ClosureFailures plan = []
  closure : adHocClosureFailures plan = []
  canonical : v.canonicalIssues queryPlan plan = []
  steps : ∀ step ∈ plan.steps, v.stepIssues D queryPlan context plan step = []
  approvals : ∀ step ∈ plan.steps, v.stepApprovals step = []

theorem allowed_iff : v.Allows D plan queryPlan context routeBudget ↔
    plan.snapshot? = some plan ∧ v.policyVersion.length ≤ 128 ∧ Allowed D v plan queryPlan context routeBudget := by
  rw [allows_iff]
  refine and_congr_right fun _ => and_congr_right fun _ => ?_
  simp only [PlanValidator.denyIssues, PlanValidator.adHocIssues, List.append_eq_nil_iff, List.map_eq_nil_iff,
    List.flatMap_eq_nil_iff, failIf_eq_nil_iff]
  constructor
  · rintro ⟨⟨⟨⟨h1, ⟨h2, h3⟩, h4⟩, h5⟩, h6⟩, h7⟩
    exact ⟨h1, h2, h3, h4, h5, h6, h7⟩
  · rintro ⟨h1, h2, h3, h4, h5, h6, h7⟩
    exact ⟨⟨⟨⟨h1, ⟨h2, h3⟩, h4⟩, h5⟩, h6⟩, h7⟩

end Allowed

/-! ## What the checks of the catalog prove -/

section Canonical

open ApprovedCalculationCatalog

variable {D : PlanDigests} {catalog : ApprovedCalculationCatalog} {plan : ExecutionPlan D.toCalculationDigests}
  {queryPlan : QueryPlan} {context : ContextBundle}

theorem bindingFor_eq_some {key : String} {binding : ApprovedCalculationBinding} (h : catalog.bindingFor key = some binding) :
    binding ∈ catalog.bindings ∧ binding.canonicalMetricKey.val = key := by
  unfold bindingFor at h
  exact ⟨List.mem_of_find?_eq_some h, by simpa using List.find?_some h⟩

/-- The outputs of a plan whose bound outputs are proven: what is requested and bound is the output of exactly one canonical
calculation and of no fetch, and what is calculated canonically is requested. -/
theorem validateBoundOutputs_eq_nil_iff : catalog.validateBoundOutputs queryPlan plan = [] ↔
    (∀ c ∈ plan.canonicalSteps, ∃ key ∈ c.outputMetricKey, key ∈ queryPlan.metricKeys) ∧
    ∀ key ∈ queryPlan.metricKeys, (catalog.bindingFor key).isSome = true →
      (∃ c, (plan.canonicalSteps.filter fun step => step.outputMetricKey = some key) = [c]) ∧
      ∀ fetch ∈ plan.fetchSteps, key ∉ fetch.metricKeys := by
  have hcount : ∀ (l : List TrustedCalculationStep),
      ((if 1 < l.length then [CalculationFailure.outputDuplicate]
        else if l.isEmpty then [.requiredForBoundMetric] else []) = []) ↔ ∃ c, l = [c] := by
    intro l
    match l with
    | [] => simp
    | [c] => simp
    | c :: d :: rest => simp
  simp only [validateBoundOutputs, fromKeys_eq_nil_iff, List.append_eq_nil_iff, List.flatMap_eq_nil_iff, failIf_eq_nil_iff,
    hcount, mem_fromKeys, List.mem_filter, and_imp, not_forall, not_not, exists_prop]

/-- The owner of a marked fetch: the one canonical calculation that depends on it. -/
structure OwnedBy (plan : ExecutionPlan D.toCalculationDigests) (fetch : FetchMetricStep) (role : RoleName)
    (consumer : TrustedCalculationStep) : Prop where
  only : (plan.canonicalSteps.filter fun step => fetch.stepId ∈ step.dependsOn) = [consumer]
  checksum : consumer.binding.map (·.bindingChecksum) = fetch.calculationBindingChecksum
  output : consumer.outputMetricKey = fetch.calculationOutputMetricKey
  ref : (consumer.inputRefs.get? role).map (·.val) = some (valueRef fetch.stepId)

theorem ownerFailures_eq_nil_iff {fetch : FetchMetricStep} {role : RoleName} :
    ownerFailures plan fetch role = [] ↔ ∃ consumer, OwnedBy plan fetch role consumer := by
  unfold ownerFailures
  constructor
  · intro h
    split at h
    · nomatch h
    · rename_i consumer heq
      simp only [List.append_eq_nil_iff, failIf_eq_nil_iff, not_not, ne_eq] at h
      exact ⟨consumer, heq, h.1.1, h.1.2, h.2⟩
    · nomatch h
  · rintro ⟨consumer, h⟩
    rw [h.only]
    simp [h.checksum, h.output, h.ref]

theorem OwnedBy.mem {fetch : FetchMetricStep} {role : RoleName} {consumer : TrustedCalculationStep}
    (h : OwnedBy plan fetch role consumer) : consumer ∈ plan.canonicalSteps ∧ fetch.stepId ∈ consumer.dependsOn := by
  have hmem : consumer ∈ plan.canonicalSteps.filter fun step => fetch.stepId ∈ step.dependsOn := by
    rw [h.only]
    exact List.mem_singleton.mpr rfl
  simpa using hmem

theorem validateDependencyProvenance_eq_nil_iff : validateDependencyProvenance plan = [] ↔
    ∀ fetch ∈ plan.fetchSteps, ∀ role ∈ fetch.calculationInputRole, ∃ consumer, OwnedBy plan fetch role consumer := by
  simp only [validateDependencyProvenance, fromKeys_eq_nil_iff, List.flatMap_eq_nil_iff]
  refine forall₂_congr fun fetch _ => ?_
  cases fetch.calculationInputRole with
  | none => simp
  | some role => simp [ownerFailures_eq_nil_iff]

/-- What is proven of one canonical calculation. -/
structure CalculationProven (D : PlanDigests) (catalog : ApprovedCalculationCatalog) (plan : ExecutionPlan D.toCalculationDigests)
    (context : ContextBundle) (step : TrustedCalculationStep) (provenance : BindingProvenance)
    (binding : ApprovedCalculationBinding) : Prop where
  template : step.templateId = binding.templateId
  version : provenance.templateVersion = binding.templateVersion
  checksum : provenance.templateChecksum = binding.templateChecksum
  binding_checksum : provenance.bindingChecksum = D.approvedBinding binding
  output : provenance.outputMetricKey = binding.canonicalMetricKey
  release : context.semanticReleaseId.val = binding.semanticReleaseId.val
  registered : ∃ metadata, templateMetadata? binding.templateId = some metadata ∧
    metadata.version = binding.templateVersion.val ∧ D.template metadata = binding.templateChecksum ∧
    SameSet metadata.inputRoles (binding.inputRoles.map (·.val))
  refs : SameSet step.inputRefs.keys binding.inputRoles
  dependencies : ∀ id ∈ step.dependsOn, (markedFetch? plan id).isSome = true
  declared : ∀ rf ∈ declaredFetches plan step, (fetchesOfRole (declaredFetches plan step) rf.1).length ≤ 1 ∧
    rf.1 ∈ binding.inputRoles
  owned : ∀ rf ∈ declaredFetches plan step, rf.2.calculationBindingChecksum = some (D.approvedBinding binding) ∧
    rf.2.calculationOutputMetricKey = some binding.canonicalMetricKey.val
  roles : ∀ item ∈ binding.inputs, catalog.bindingFor item.metricKey = none ∧
    ∃ fetch rest, fetchesOfRole (declaredFetches plan step) item.role = fetch :: rest ∧ fetch.metricKeys = [item.metricKey.val] ∧
      item.metricKey.val ∈ context.assetIds ∧ (step.inputRefs.get? item.role).map (·.val) = some (valueRef fetch.stepId)
  no_rogue : ∀ fetch ∈ plan.fetchSteps, fetch.calculationInputRole.isSome = true →
    fetch.stepId ∈ plan.canonicalSteps.flatMap (·.dependsOn)
  no_conflict : ∀ fetch ∈ plan.fetchSteps, binding.canonicalMetricKey.val ∉ fetch.metricKeys

theorem identityFailures_eq_nil_iff {step : TrustedCalculationStep} {provenance : BindingProvenance}
    {binding : ApprovedCalculationBinding} : identityFailures D step provenance binding context = [] ↔
    step.templateId = binding.templateId ∧ provenance.templateVersion = binding.templateVersion ∧
    provenance.templateChecksum = binding.templateChecksum ∧ provenance.bindingChecksum = D.approvedBinding binding ∧
    provenance.outputMetricKey = binding.canonicalMetricKey ∧ context.semanticReleaseId.val = binding.semanticReleaseId.val ∧
    (∃ metadata, templateMetadata? binding.templateId = some metadata ∧ metadata.version = binding.templateVersion.val ∧
      D.template metadata = binding.templateChecksum ∧ SameSet metadata.inputRoles (binding.inputRoles.map (·.val))) ∧
    SameSet step.inputRefs.keys binding.inputRoles := by
  unfold identityFailures
  cases templateMetadata? binding.templateId with
  | none => simp
  | some metadata => simp [and_assoc, not_or]

theorem mem_fetchesOfRole {fetches : List (RoleName × FetchMetricStep)} {role : RoleName} {fetch : FetchMetricStep} :
    fetch ∈ fetchesOfRole fetches role ↔ (role, fetch) ∈ fetches := by
  unfold fetchesOfRole
  rw [List.mem_map]
  constructor
  · rintro ⟨⟨r, f⟩, hrf, rfl⟩
    rw [List.mem_filter, decide_eq_true_eq] at hrf
    obtain ⟨hmem, rfl⟩ := hrf
    exact hmem
  · intro h
    exact ⟨(role, fetch), List.mem_filter.mpr ⟨h, by simp⟩, rfl⟩

theorem declaredFailures_eq_nil_iff {binding : ApprovedCalculationBinding} {fetches : List (RoleName × FetchMetricStep)} :
    declaredFailures D binding fetches = [] ↔
      (∀ rf ∈ fetches, (fetchesOfRole fetches rf.1).length ≤ 1 ∧ rf.1 ∈ binding.inputRoles) ∧
      ∀ rf ∈ fetches, rf.2.calculationBindingChecksum = some (D.approvedBinding binding) ∧
        rf.2.calculationOutputMetricKey = some binding.canonicalMetricKey.val := by
  simp only [declaredFailures, List.flatMap_eq_nil_iff, mem_fromKeys, List.append_eq_nil_iff, failIf_eq_nil_iff, not_not, ne_eq,
    Nat.not_lt, mem_fetchesOfRole]
  constructor
  · intro h
    refine ⟨fun rf hrf => (h rf.1 (List.mem_map_of_mem hrf)).1, fun rf hrf => ?_⟩
    exact (h rf.1 (List.mem_map_of_mem hrf)).2 rf.2 hrf
  · rintro ⟨h1, h2⟩ role hrole
    obtain ⟨rf, hrf, rfl⟩ := List.mem_map.mp hrole
    exact ⟨h1 rf hrf, fun fetch hfetch => h2 (rf.1, fetch) hfetch⟩

theorem roleFailures_eq_nil_iff {step : TrustedCalculationStep} {binding : ApprovedCalculationBinding}
    {fetches : List (RoleName × FetchMetricStep)} :
    catalog.roleFailures step binding context fetches = [] ↔
      ∀ item ∈ binding.inputs, catalog.bindingFor item.metricKey = none ∧
        ∃ fetch rest, fetchesOfRole fetches item.role = fetch :: rest ∧ fetch.metricKeys = [item.metricKey.val] ∧
          item.metricKey.val ∈ context.assetIds ∧
          (step.inputRefs.get? item.role).map (·.val) = some (valueRef fetch.stepId) := by
  simp only [roleFailures, List.flatMap_eq_nil_iff, List.append_eq_nil_iff, failIf_eq_nil_iff, Bool.not_eq_true,
    Option.isSome_eq_false_iff, Option.isNone_iff_eq_none]
  refine forall₂_congr fun item _ => and_congr_right fun _ => ?_
  cases fetchesOfRole fetches item.role with
  | nil => simp
  | cons fetch rest => simp [and_assoc]

theorem validateCalculation_eq_nil_iff {step : TrustedCalculationStep} {provenance : BindingProvenance}
    (hstep : step.binding = some provenance) : catalog.validateCalculation D plan step context = [] ↔
      ∃ binding, catalog.bindingFor provenance.outputMetricKey = some binding ∧
        CalculationProven D catalog plan context step provenance binding := by
  unfold validateCalculation
  simp only [hstep]
  cases catalog.bindingFor provenance.outputMetricKey.val with
  | none => simp
  | some binding =>
    simp only [fromKeys_eq_nil_iff, List.append_eq_nil_iff, identityFailures_eq_nil_iff, declaredFailures_eq_nil_iff,
      roleFailures_eq_nil_iff, planFailures, List.flatMap_eq_nil_iff, failIf_eq_nil_iff, Option.some.injEq]
    constructor
    · rintro ⟨⟨⟨⟨⟨h1, h2, h3, h4, h5, h6, h7, h8⟩, h9⟩, h10, h11⟩, h12⟩, h13, h14⟩
      refine ⟨binding, rfl, h1, h2, h3, h4, h5, h6, h7, h8, ?_, h10, h11, h12, ?_, h14⟩
      · intro id hid
        cases hm : markedFetch? plan id with
        | none => exact absurd (by rw [hm]; rfl) (h9 id hid)
        | some rf => rfl
      · intro fetch hfetch hrole
        by_contra hnot
        exact h13 fetch hfetch ⟨hrole, hnot⟩
    · rintro ⟨b, hb, h⟩
      subst hb
      refine ⟨⟨⟨⟨⟨h.template, h.version, h.checksum, h.binding_checksum, h.output, h.release, h.registered, h.refs⟩, ?_⟩,
        h.declared, h.owned⟩, h.roles⟩, ?_, h.no_conflict⟩
      · intro id hid hnone
        have hsome := h.dependencies id hid
        rw [Option.isNone_iff_eq_none] at hnone
        rw [hnone] at hsome
        cases hsome
      · rintro fetch hfetch ⟨hrole, hnot⟩
        exact hnot (h.no_rogue fetch hfetch hrole)

end Canonical

/-! ## What the checks of an AD_HOC plan prove -/

section AdHoc

open ApprovedCalculationCatalog

variable {D : CalculationDigests} {plan : ExecutionPlan D} {queryPlan : QueryPlan} {context : ContextBundle}

/-- The shape of a plan around its AD_HOC calculation. -/
structure AdHocShape (plan : ExecutionPlan D) (calculation : AdHocCalculationStep D) (verify : VerifyStep) : Prop where
  calculations : plan.adHocSteps = [calculation]
  no_trusted : plan.trustedSteps = []
  verifies : plan.verifySteps = [verify]
  permitted : (fromKeys (plan.fetchSteps.map (·.stepId) ++ [calculation.stepId] ++ plan.verifySteps.map (·.stepId))).length =
    plan.steps.length
  marked : ∀ fetch ∈ plan.fetchSteps, fetch.adHocInputRole.isSome = true
  roles_once : ∀ role ∈ plan.fetchSteps.filterMap (·.adHocInputRole),
    (plan.fetchSteps.filterMap (·.adHocInputRole)).count role = 1
  roles : SameSet (plan.fetchSteps.filterMap (·.adHocInputRole)) (fromKeys (calculation.calculationSpec.inputs.map (·.role)))
  roles_length : plan.fetchSteps.length = (fromKeys (calculation.calculationSpec.inputs.map (·.role))).length
  dependencies : SameSet calculation.dependsOn (plan.fetchSteps.map (·.stepId))
  verify_depends : verify.dependsOn = [calculation.stepId]
  verify_refs : verify.inputRefs.map (·.val) = [calculation.stepId.val]
  verify_invariants : verify.invariantIds = ["typed_result_present"]

theorem adHocV1ClosureFailures_eq_nil_iff : adHocV1ClosureFailures plan = [] ↔
    plan.adHocSteps = [] ∨ ∃ calculation verify, AdHocShape plan calculation verify := by
  unfold adHocV1ClosureFailures
  constructor
  · intro h
    cases ha : plan.adHocSteps with
    | nil => exact .inl rfl
    | cons calculation rest =>
      refine .inr ?_
      simp only [ha, fromKeys_eq_nil_iff, List.append_eq_nil_iff, failIf_eq_nil_iff, List.flatMap_eq_nil_iff, not_not, ne_eq,
        not_exists, not_and, not_or] at h
      obtain ⟨⟨⟨⟨⟨⟨⟨⟨h1, h2⟩, h3⟩, h4⟩, h5⟩, h6⟩, h7, h8⟩, h9⟩, h10⟩ := h
      cases hv : plan.verifySteps with
      | nil =>
        rw [hv] at h3
        cases h3
      | cons verify others =>
        cases others with
        | cons _ _ =>
          rw [hv] at h3
          cases h3
        | nil =>
          rw [hv] at h10
          simp only [failIf_eq_nil_iff, not_or, not_not] at h10
          refine ⟨calculation, verify, by rw [ha, h1], h2, hv, h4, ?_, h6, h7, h8, h9, h10.1, h10.2.1, h10.2.2⟩
          intro fetch hfetch
          cases hr : fetch.adHocInputRole with
          | none => exact absurd (by rw [hr]; rfl) (h5 fetch hfetch)
          | some role => rfl
  · rintro (ha | ⟨calculation, verify, h⟩)
    · rw [ha]
    · have hmarked : ∀ fetch ∈ plan.fetchSteps, ¬ fetch.adHocInputRole.isNone = true := by
        intro fetch hfetch hnone
        have hsome := h.marked fetch hfetch
        rw [Option.isNone_iff_eq_none] at hnone
        rw [hnone] at hsome
        cases hsome
      have hpermitted := h.permitted
      rw [h.verifies] at hpermitted
      simp only [h.calculations, h.verifies, fromKeys_eq_nil_iff, List.append_eq_nil_iff, failIf_eq_nil_iff,
        List.flatMap_eq_nil_iff, not_not, ne_eq, not_exists, not_and, not_or]
      exact ⟨⟨⟨⟨⟨⟨⟨⟨trivial, h.no_trusted⟩, trivial⟩, hpermitted⟩, hmarked⟩, h.roles_once⟩, h.roles, h.roles_length⟩,
        h.dependencies⟩, h.verify_depends, h.verify_refs, h.verify_invariants⟩

/-- The owner of an AD_HOC fetch: the one calculation that depends on it. -/
structure AdHocOwnedBy (plan : ExecutionPlan D) (fetch : FetchMetricStep) (role : RoleName)
    (consumer : AdHocCalculationStep D) : Prop where
  only : (plan.adHocSteps.filter fun step => fetch.stepId ∈ step.dependsOn) = [consumer]
  ref : (consumer.inputRefs.get? role).map (·.val) = some (valueRef fetch.stepId)
  checksum : fetch.adHocSpecChecksum = some (consumer.calculationSpec.checksum D)
  output : fetch.adHocDerivedOutputId = some consumer.derivedOutputId

theorem adHocOwnerFailures_eq_nil_iff {fetch : FetchMetricStep} {role : RoleName} :
    adHocOwnerFailures plan fetch role = [] ↔ ∃ consumer, AdHocOwnedBy plan fetch role consumer := by
  unfold adHocOwnerFailures
  constructor
  · intro h
    split at h
    · nomatch h
    · rename_i consumer heq
      simp only [List.append_eq_nil_iff, failIf_eq_nil_iff, not_not, ne_eq] at h
      exact ⟨consumer, heq, h.1.1, h.1.2, h.2⟩
    · nomatch h
  · rintro ⟨consumer, h⟩
    rw [h.only]
    simp [h.checksum, h.output, h.ref]

theorem adHocClosureFailures_eq_nil_iff : adHocClosureFailures plan = [] ↔
    ∀ fetch ∈ plan.fetchSteps, ∀ role ∈ fetch.adHocInputRole, ∃ consumer, AdHocOwnedBy plan fetch role consumer := by
  simp only [adHocClosureFailures, fromKeys_eq_nil_iff, List.flatMap_eq_nil_iff]
  refine forall₂_congr fun fetch _ => ?_
  cases fetch.adHocInputRole with
  | none => simp
  | some role => simp [adHocOwnerFailures_eq_nil_iff]

theorem mem_adHocDeclaredFetches {step : AdHocCalculationStep D} {role : RoleName} {fetch : FetchMetricStep} :
    (role, fetch) ∈ adHocDeclaredFetches plan step ↔
      fetch ∈ plan.fetchSteps ∧ fetch.stepId ∈ step.dependsOn ∧ fetch.adHocInputRole = some role := by
  simp only [adHocDeclaredFetches, List.mem_filterMap]
  constructor
  · rintro ⟨f, hf, h⟩
    split at h
    · rename_i hd
      obtain ⟨r, hr, hrf⟩ := Option.map_eq_some_iff.mp h
      cases hrf
      exact ⟨hf, hd, hr⟩
    · nomatch h
  · rintro ⟨hf, hd, hr⟩
    exact ⟨fetch, hf, by rw [if_pos hd, hr]; rfl⟩

/-- What is proven of the sources of an AD_HOC calculation. -/
structure AdHocSources (plan : ExecutionPlan D) (step : AdHocCalculationStep D) (context : ContextBundle)
    (queryPlan : QueryPlan) : Prop where
  resolved : ∀ item ∈ step.calculationSpec.inputs, item.metricKey ≠ none
  not_nested : ∀ item ∈ step.calculationSpec.inputs, item.provenance ≠ .adHocMetric
  unique : (step.calculationSpec.inputs.filterMap fun item => item.metricKey.map (·.val)).Nodup
  requested : SameSet (step.calculationSpec.inputs.filterMap fun item => item.metricKey.map (·.val)) queryPlan.metricKeys
  roles : SameSet ((adHocDeclaredFetches plan step).map Prod.fst) (step.calculationSpec.inputs.map (·.role))
  fetched : ∀ rf ∈ adHocDeclaredFetches plan step, ∃ fetch expected,
    fetchesOfRole (adHocDeclaredFetches plan step) rf.1 = [fetch] ∧ step.calculationSpec.metricOf? rf.1 = some expected ∧
      fetch.metricKeys = [expected.val] ∧ expected.val ∈ context.assetIds

theorem adHocRoleFailures_eq_nil_iff {step : AdHocCalculationStep D} {fetches : List (RoleName × FetchMetricStep)}
    {role : RoleName} : adHocRoleFailures step context fetches role = [] ↔ ∃ fetch expected, fetchesOfRole fetches role = [fetch] ∧
      step.calculationSpec.metricOf? role = some expected ∧ fetch.metricKeys = [expected.val] ∧
      expected.val ∈ context.assetIds := by
  unfold adHocRoleFailures
  match hf : fetchesOfRole fetches role with
  | [] => simp
  | [fetch] =>
    cases hm : step.calculationSpec.metricOf? role with
    | none => simp
    | some expected =>
      by_cases hk : fetch.metricKeys = [expected.val]
      · simp [hk]
      · simp [hk]
  | _ :: _ :: _ => simp

theorem adHocStepFailures_eq_nil_iff {step : AdHocCalculationStep D} :
    adHocStepFailures plan step context queryPlan = [] ↔ AdHocSources plan step context queryPlan := by
  simp only [adHocStepFailures, fromKeys_eq_nil_iff, List.append_eq_nil_iff, failIf_eq_nil_iff, List.flatMap_eq_nil_iff,
    adHocRoleFailures_eq_nil_iff, mem_fromKeys, not_not, not_exists, not_and]
  constructor
  · rintro ⟨⟨⟨⟨⟨h1, h2⟩, h3⟩, h4⟩, h5⟩, h6⟩
    exact ⟨h1, h2, h3, h4, h5, fun rf hrf => h6 rf.1 (List.mem_map_of_mem hrf)⟩
  · rintro ⟨h1, h2, h3, h4, h5, h6⟩
    refine ⟨⟨⟨⟨⟨h1, h2⟩, h3⟩, h4⟩, h5⟩, fun role hr => ?_⟩
    obtain ⟨rf, hrf, rfl⟩ := List.mem_map.mp hr
    exact h6 rf hrf

end AdHoc

end PlanAux

end Nl2Sql
