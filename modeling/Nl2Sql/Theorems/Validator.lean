import Nl2Sql.Theorems.Compiler

/-!
# When the validator answers

The record of a validation holds at most 32 issues, and the validator puts into it all that it finds: a plan with more complaints, or a
plan that is not read back from JSON, is not denied, the validator raises. The complaints are counted here by what they are about.
-/

namespace Nl2Sql

open Py

namespace PlanValidator

variable (D : PlanDigests) (v : PlanValidator)

/-- The complaints about the plan as a whole that are one condition each. -/
def contentDenials (plan : ExecutionPlan D.toCalculationDigests) (queryPlan : QueryPlan) (context : ContextBundle)
    (routeBudget : RouteBudget) : Nat :=
  [decide (plan.queryPlanSha256 ≠ D.queryPlan queryPlan), decide (plan.semanticReleaseId ≠ context.semanticReleaseId),
    decide (plan.schemaSnapshotId ≠ context.schemaSnapshotId), decide (routeBudget.maxSqlCandidates < plan.fetchSteps.length),
    decide (routeBudget.maxSqlExecutions < plan.fetchSteps.length), decide (routeBudget.maxJoinHops < context.approvedEdgeIds.length),
    decide (plan.adHocSteps ≠ [] ∧ canonicalProvenancePresent plan)].count true

/-- The complaints about canonical provenance: of the catalog, or that there is none. -/
def catalogDenials (plan : ExecutionPlan D.toCalculationDigests) (queryPlan : QueryPlan) (context : ContextBundle) : Nat :=
  match v.calculationCatalog with
  | none => if canonicalProvenancePresent plan then 1 else 0
  | some catalog =>
    (catalog.validateBoundOutputs queryPlan plan).length + (ApprovedCalculationCatalog.validateDependencyProvenance plan).length +
      (plan.canonicalSteps.map fun step => (catalog.validateCalculation D plan step context).length).sum

/-- The inputs of an AD_HOC calculation that the catalog binds. -/
def boundInputs (step : AdHocCalculationStep D.toCalculationDigests) : Nat :=
  step.calculationSpec.inputs.countP fun item =>
    (v.calculationCatalog.bind fun catalog => item.metricKey.bind fun key => catalog.bindingFor key).isSome

/-- The number of complaints that deny a plan, by what they are about: the plan as a whole, the shape of an AD_HOC plan, the catalog,
each AD_HOC calculation, and the verifications that ask for an unregistered invariant. -/
def denials (plan : ExecutionPlan D.toCalculationDigests) (queryPlan : QueryPlan) (context : ContextBundle)
    (routeBudget : RouteBudget) : Nat :=
  contentDenials D plan queryPlan context routeBudget +
    ((adHocV1ClosureFailures plan).length + (adHocClosureFailures plan).length) +
    v.catalogDenials D plan queryPlan context +
    (plan.adHocSteps.map fun step => (adHocStepFailures plan step context queryPlan).length + v.boundInputs D step).sum +
    plan.verifySteps.countP fun step => decide (∃ id ∈ step.invariantIds, id ∉ v.approvedInvariantIds)

end PlanValidator

namespace ValidatorAux

open PlanAux CompilerAux

variable {D : PlanDigests} {v : PlanValidator} {plan : ExecutionPlan D.toCalculationDigests} {queryPlan : QueryPlan}
  {context : ContextBundle} {routeBudget : RouteBudget}

/-- A check adds one complaint where it fails. -/
theorem length_failIf {α : Type} (c : Prop) [Decidable c] (x : α) : (failIf c x).length = if c then 1 else 0 := by
  unfold failIf
  split <;> rfl

/-- A check of each of some values adds one complaint for each that fails. -/
theorem length_flatMap_failIf {α β : Type} (c : α → Prop) [DecidablePred c] (x : β) (values : List α) :
    (values.flatMap fun a => failIf (c a) x).length = values.countP fun a => decide (c a) := by
  induction values with
  | nil => rfl
  | cons a values ih =>
    rw [List.flatMap_cons, List.length_append, ih, length_failIf, List.countP_cons, Nat.add_comm]
    simp only [decide_eq_true_eq]

/-- A plan is read back exactly where no AD_HOC calculation binds a decimal. -/
theorem snapshot?_eq_some_iff : plan.snapshot? = some plan ↔
    ∀ step ∈ plan.adHocSteps, ∀ p ∈ step.executionBinding.parameters, ∀ d, p.value ≠ .decimal d := by
  constructor
  · intro h step hstep p hp d hd
    obtain ⟨steps, hsteps, -⟩ := Option.bind_eq_some_iff.mp h
    have hall := ((mapM_eq_some_iff (d := plan.steps.head (List.ne_nil_of_length_pos plan.steps_length.1))).mp hsteps).1
    obtain ⟨s, hs, hadHoc⟩ := List.mem_filterMap.mp hstep
    cases s with
    | adHoc s =>
      cases hadHoc
      obtain ⟨s', hs'⟩ := Option.isSome_iff_exists.mp (hall _ hs)
      obtain ⟨step', hstep', -⟩ := Option.map_eq_some_iff.mp hs'
      unfold AdHocCalculationStep.snapshot? at hstep'
      split at hstep'
      · rename_i hok
        exact BindingAux.snapshot_failures_of_decimal step.binding_valid hp hd hok.1
      · cases hstep'
    | fetch s => cases hadHoc
    | trusted s => cases hadHoc
    | verify s => cases hadHoc
  · intro h
    refine snapshot?_self fun step hstep => ?_
    cases step with
    | adHoc step =>
      have hparameters := h step (List.mem_filterMap.mpr ⟨_, hstep, rfl⟩)
      have hself := BindingAux.snapshot_eq_self ((BindingAux.snapshot_parameters_iff _).mpr hparameters)
      rw [PlanStep.snapshot?, adHoc_snapshot?_self hself, Option.map_some]
    | fetch step => rfl
    | trusted step => rfl
    | verify step => rfl

/-- The complaints about a canonical calculation. -/
def canonicalDenials (D : PlanDigests) (v : PlanValidator) (plan : ExecutionPlan D.toCalculationDigests) (context : ContextBundle)
    (step : TrustedCalculationStep) : Nat :=
  match v.calculationCatalog with
  | none => 0
  | some catalog => (catalog.validateCalculation D plan step context).length

/-- The complaints about an AD_HOC calculation: of its own checks, and one for each input that the catalog binds. -/
theorem length_adHoc_issues (step : AdHocCalculationStep D.toCalculationDigests) :
    (v.stepIssues D queryPlan context plan (.adHoc step)).length =
      (adHocStepFailures plan step context queryPlan).length + v.boundInputs D step := by
  unfold PlanValidator.stepIssues PlanValidator.boundInputs
  cases v.calculationCatalog with
  | none => simp
  | some catalog =>
    rw [List.length_append, List.length_map, length_flatMap_failIf]
    simp only [Option.bind_some, Bool.decide_eq_true]

/-- The complaints about the steps, by the kinds of steps. -/
theorem length_step_issues (steps : List (PlanStep D.toCalculationDigests)) :
    (steps.flatMap (v.stepIssues D queryPlan context plan)).length =
      (((steps.filterMap PlanStep.trusted?).filter (·.declaresCanonicalBinding)).map (canonicalDenials D v plan context)).sum +
      ((steps.filterMap PlanStep.adHoc?).map fun step =>
        (adHocStepFailures plan step context queryPlan).length + v.boundInputs D step).sum +
      (steps.filterMap PlanStep.verify?).countP fun step => decide (∃ id ∈ step.invariantIds, id ∉ v.approvedInvariantIds) := by
  induction steps with
  | nil => rfl
  | cons step steps ih =>
    rw [List.flatMap_cons, List.length_append, ih]
    cases step with
    | fetch step =>
      change 0 + _ = _
      rw [Nat.zero_add]
      rfl
    | trusted step =>
      change _ = (((step :: steps.filterMap PlanStep.trusted?).filter (·.declaresCanonicalBinding)).map _).sum + _ + _
      have hlength : (v.stepIssues D queryPlan context plan (.trusted step)).length =
          if step.declaresCanonicalBinding = true then canonicalDenials D v plan context step else 0 := by
        unfold PlanValidator.stepIssues canonicalDenials
        cases v.calculationCatalog with
        | none => simp
        | some catalog =>
          by_cases hcanonical : step.declaresCanonicalBinding = true
          · simp only [if_pos hcanonical, List.length_map]
          · simp only [if_neg hcanonical, List.length_nil]
      rw [hlength, List.filter_cons]
      by_cases hcanonical : step.declaresCanonicalBinding = true
      · rw [if_pos hcanonical, if_pos hcanonical, List.map_cons, List.sum_cons]
        change _ = _ + ((steps.filterMap PlanStep.adHoc?).map _).sum + (steps.filterMap PlanStep.verify?).countP _
        omega
      · rw [if_neg hcanonical, if_neg hcanonical, Nat.zero_add]
        rfl
    | adHoc step =>
      change _ = _ + ((step :: steps.filterMap PlanStep.adHoc?).map _).sum + _
      rw [length_adHoc_issues, List.map_cons, List.sum_cons]
      change _ = (((steps.filterMap PlanStep.trusted?).filter _).map _).sum + _ + (steps.filterMap PlanStep.verify?).countP _
      omega
    | verify step =>
      change _ = _ + _ + (step :: steps.filterMap PlanStep.verify?).countP _
      have hlength : (v.stepIssues D queryPlan context plan (.verify step)).length =
          if ∃ id ∈ step.invariantIds, id ∉ v.approvedInvariantIds then 1 else 0 := length_failIf _ _
      rw [hlength, List.countP_cons]
      simp only [decide_eq_true_eq]
      change _ = (((steps.filterMap PlanStep.trusted?).filter _).map _).sum + ((steps.filterMap PlanStep.adHoc?).map _).sum + _
      omega

/-- What the validator finds is what is counted. -/
theorem length_denyIssues : (v.denyIssues D plan queryPlan context routeBudget).length =
    v.denials D plan queryPlan context routeBudget := by
  have hcontent : (PlanValidator.contentIssues D plan queryPlan context routeBudget).length +
      (if plan.adHocSteps ≠ [] ∧ PlanValidator.canonicalProvenancePresent plan then 1 else 0) =
      PlanValidator.contentDenials D plan queryPlan context routeBudget := by
    unfold PlanValidator.contentIssues PlanValidator.contentDenials
    simp only [List.length_append, length_failIf, List.count_cons, List.count_nil, beq_true, decide_eq_true_eq]
    omega
  have hcatalog : (v.canonicalIssues queryPlan plan).length + (plan.canonicalSteps.map (canonicalDenials D v plan context)).sum =
      v.catalogDenials D plan queryPlan context := by
    unfold PlanValidator.canonicalIssues PlanValidator.catalogDenials canonicalDenials
    cases v.calculationCatalog with
    | none => simp [length_failIf]
    | some catalog => simp only [List.length_append, List.length_map]
  unfold PlanValidator.denyIssues PlanValidator.denials PlanValidator.adHocIssues
  rw [List.length_append, List.length_append, List.length_append, length_step_issues, ← hcontent, ← hcatalog, List.length_append,
    List.length_append, length_failIf, List.length_map, List.length_map]
  change _ + _ + _ + ((plan.canonicalSteps.map _).sum + (plan.adHocSteps.map _).sum + plan.verifySteps.countP _) = _
  omega

/-- A step asks for approval once at most, and so the plan at most once for each step. -/
theorem length_approvals_le : (plan.steps.flatMap v.stepApprovals).length ≤ 16 := by
  refine Nat.le_trans ?_ plan.steps_length.2
  generalize plan.steps = steps
  induction steps with
  | nil => exact Nat.le_refl _
  | cons step steps ih =>
    have hstep : (v.stepApprovals step).length ≤ 1 := by
      cases step with
      | trusted step =>
        rw [PlanValidator.stepApprovals, length_failIf]
        split <;> omega
      | fetch step => exact Nat.zero_le 1
      | adHoc step => exact Nat.zero_le 1
      | verify step => exact Nat.zero_le 1
    rw [List.flatMap_cons, List.length_append, List.length_cons]
    omega

/-- A record is made exactly where its fields fit. -/
theorem record?_isSome_iff {outcome : ValidationOutcome} {issues : List PlanValidationIssue} (h : outcome = .allow ↔ issues = []) :
    (∃ r, v.record? D outcome queryPlan context plan issues = some r) ↔ v.policyVersion.length ≤ 128 ∧ issues.length ≤ 32 := by
  unfold PlanValidator.record?
  by_cases hfit : v.policyVersion.length ≤ 128 ∧ issues.length ≤ 32
  · rw [dif_pos ⟨⟨policyVersion_pos v, hfit.1⟩, hfit.2, h⟩]
    exact ⟨fun _ => hfit, fun _ => ⟨_, rfl⟩⟩
  · rw [dif_neg fun hall => hfit ⟨hall.1.2, hall.2.1⟩]
    exact ⟨fun ⟨_, hr⟩ => (nomatch hr), fun hfit' => absurd hfit' hfit⟩

/-- More than 32 complaints fit no record. -/
theorem validateExecutionPlan_of_crowded (h : 32 < v.denials D plan queryPlan context routeBudget) :
    v.validateExecutionPlan D plan queryPlan context routeBudget = none := by
  rw [← length_denyIssues] at h
  have hdeny : v.denyIssues D plan queryPlan context routeBudget ≠ [] := List.ne_nil_of_length_pos (by omega)
  unfold PlanValidator.validateExecutionPlan
  cases hsnapshot : plan.snapshot? with
  | none => rfl
  | some plan' =>
    obtain rfl := plan_snapshot_eq hsnapshot
    simp only [Option.bind_eq_bind, Option.bind_some, if_pos hdeny]
    unfold PlanValidator.record?
    exact dif_neg fun hall => absurd hall.2.1 h.not_ge

end ValidatorAux

open ValidatorAux PlanAux

/-- When the validator answers. It returns a record exactly where no AD_HOC calculation of the plan binds a decimal, the name of its
policy fits in a record, and there are at most 32 complaints that deny the plan. -/
theorem validator_answers_iff (D : PlanDigests) (v : PlanValidator) (plan : ExecutionPlan D.toCalculationDigests) (queryPlan : QueryPlan)
    (context : ContextBundle) (routeBudget : RouteBudget) :
    (∃ r, v.validateExecutionPlan D plan queryPlan context routeBudget = some r) ↔
      (∀ step ∈ plan.adHocSteps, ∀ p ∈ step.executionBinding.parameters, ∀ d, p.value ≠ .decimal d) ∧
      v.policyVersion.length ≤ 128 ∧ v.denials D plan queryPlan context routeBudget ≤ 32 := by
  have houtcome : ∀ deny approval : List PlanValidationIssue,
      ((if deny ≠ [] then ValidationOutcome.deny else if approval ≠ [] then .approval else .allow) = .allow ↔
        (if deny ≠ [] then deny else approval) = []) := by
    intro deny approval
    cases deny <;> cases approval <;> simp
  have hlength : (if v.denyIssues D plan queryPlan context routeBudget ≠ [] then v.denyIssues D plan queryPlan context routeBudget
      else plan.steps.flatMap v.stepApprovals).length ≤ 32 ↔ v.denials D plan queryPlan context routeBudget ≤ 32 := by
    rw [← length_denyIssues]
    by_cases hdeny : v.denyIssues D plan queryPlan context routeBudget = []
    · have happrovals : (plan.steps.flatMap v.stepApprovals).length ≤ 16 := length_approvals_le
      rw [if_neg (not_not.mpr hdeny), hdeny, List.length_nil]
      omega
    · rw [if_pos hdeny]
  rw [← snapshot?_eq_some_iff]
  unfold PlanValidator.validateExecutionPlan
  cases hsnapshot : plan.snapshot? with
  | none => simp
  | some plan' =>
    obtain rfl := plan_snapshot_eq hsnapshot
    simp only [Option.bind_eq_bind, Option.bind_some, true_and]
    rw [record?_isSome_iff (houtcome _ _), hlength]

/-- One of many AD_HOC calculations of `revenue * rate` at rate 2, all of one fetch. -/
def crowdedCalculation (id : PlanStepId) : PlanStep salesDigests.toCalculationDigests :=
  .adHoc
    { stepId := id
      calculationSpec := discountedRevenue
      executionBinding := rateBinding (.int 2)
      inputRefs := ⟨[(⟨"revenue", Eq.refl true⟩, ⟨"fetch_cost.value", by decide⟩)], by decide⟩
      dependsOn := [⟨"fetch_cost", by decide⟩]
      derivedOutputId := ⟨"adhoc_67a8765ad21b931fbae6a6c463603ab0", discounted_derived⟩
      refs_length := by decide
      depends_length := by decide
      depends_unique := by decide
      binding_valid := rate_valid
      refs_roles := by decide
      derived_eq := discounted_derived_eq }

/-- A fetch for a role that no calculation declares, and fifteen calculations that read it. -/
def crowdedSteps : List (PlanStep salesDigests.toCalculationDigests) :=
  .fetch (.ofKey ⟨"fetch_cost", by decide⟩ "cost"
      (.adHoc ⟨"cost", by decide⟩ discountedRevenueChecksum ⟨"adhoc_67a8765ad21b931fbae6a6c463603ab0", discounted_derived⟩)) ::
    [⟨"a", by decide⟩, ⟨"b", by decide⟩, ⟨"c", by decide⟩, ⟨"d", by decide⟩, ⟨"e", by decide⟩, ⟨"f", by decide⟩, ⟨"g", by decide⟩,
      ⟨"h", by decide⟩, ⟨"i", by decide⟩, ⟨"j", by decide⟩, ⟨"k", by decide⟩, ⟨"l", by decide⟩, ⟨"m", by decide⟩, ⟨"n", by decide⟩,
      ⟨"o", by decide⟩].map crowdedCalculation

/-- The plan of those sixteen steps has 35 complaints and no decimal, and the validator raises. -/
theorem validator_answers_crowded :
    marginValidator.validateExecutionPlan salesDigests (salesPlan crowdedSteps (by decide) (by decide +kernel)) revenuePlan salesContext
      (bootstrapRoutingBudgetPolicy.routes .standard) = none ∧
    marginValidator.denials salesDigests (salesPlan crowdedSteps (by decide) (by decide +kernel)) revenuePlan salesContext
      (bootstrapRoutingBudgetPolicy.routes .standard) = 35 := by
  have hdenials : marginValidator.denials salesDigests (salesPlan crowdedSteps (by decide) (by decide +kernel)) revenuePlan salesContext
      (bootstrapRoutingBudgetPolicy.routes .standard) = 35 := by
    decide +kernel
  exact ⟨validateExecutionPlan_of_crowded (by omega), hdenials⟩

end Nl2Sql
