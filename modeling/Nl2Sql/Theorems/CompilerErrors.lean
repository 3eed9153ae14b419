import Nl2Sql.Theorems.Compiler
import Nl2Sql.Theorems.TypedDag

/-!
# What the compiler raises

A binding may have up to 32 inputs, and each becomes a fetch of the plan beside the calculation and its verification. A plan has at most
16 steps. The compiler of AD_HOC calculations looks at their number before it builds anything; the compiler of bound ones does not, and
there it is the contract of the plan that raises.
-/

namespace Nl2Sql

open Py

/-- The roles of a binding make step ids, and different ones. -/
def ApprovedCalculationBinding.RolesCompilable (binding : ApprovedCalculationBinding) : Prop :=
  (∀ item ∈ binding.inputs, isDependencyRole (lower item.role.val) = true) ∧
    (binding.inputs.map fun item => lower item.role.val).Nodup

instance (binding : ApprovedCalculationBinding) : Decidable binding.RolesCompilable := inferInstanceAs (Decidable (_ ∧ _))

/-- A validation record allows a query plan in a context. -/
def AllowsQuery (D : PlanDigests) (plan : QueryPlan) (context : ContextBundle) (validation : PlanValidationRecord) : Prop :=
  validation.outcome = .allow ∧ validation.queryPlanSha256 = D.queryPlan plan ∧ validation.contextChecksum = D.context context

namespace CompilerErrorsAux

open ApprovedCalculationCatalog PlanAux CompilerAux TypedDagAux

theorem raiseIf_ne_contract {p : Prop} [Decidable p] {code : CompilationCode} : raiseIf p code ≠ .error .contract := by
  unfold raiseIf
  split <;> exact nofun

/-! ## The ids of dependency fetches -/

variable {D : PlanDigests} {c : PlanCompiler} {plan : QueryPlan} {context : ContextBundle} {validation : PlanValidationRecord}
  {binding : ApprovedCalculationBinding}

/-- The step id of an input of a binding. -/
def inputId (item : ApprovedCalculationInput) : PlanStepId := fetchIdOf .approvedRoleUnsupported item.role

/-- A role that makes a step id makes this one. -/
theorem dependencyFetchStepId_eq_ok {item : ApprovedCalculationInput} (h : isDependencyRole (lower item.role.val) = true) :
    dependencyFetchStepId item.role = .ok (inputId item) ∧ (inputId item).val = "fetch_" ++ lower item.role.val := by
  have hok : dependencyFetchStepId item.role = .ok ⟨"fetch_" ++ lower item.role.val, isPlanStepId_fetch h⟩ := by
    unfold dependencyFetchStepId fetchStepId
    rw [dif_pos h]
  have hid : inputId item = ⟨"fetch_" ++ lower item.role.val, isPlanStepId_fetch h⟩ := fetchIdOf_eq hok
  exact ⟨hid ▸ hok, congrArg Subtype.val hid⟩

/-- The id of a fetch is that of no other step of the plan. -/
theorem fetchId_ne {s : String} {id : PlanStepId} (hid : id.val = "fetch_" ++ s) : id ≠ calculateMetricId ∧ id ≠ verifyResultId := by
  have hhead : id.val.toList.head? = some 'f' := by
    rw [hid, String.toList_append]
    rfl
  constructor
  · rintro rfl
    exact absurd hhead (by decide)
  · rintro rfl
    exact absurd hhead (by decide)

/-- Compilable roles make different step ids. -/
theorem inputIds_nodup (h : binding.RolesCompilable) : (binding.inputs.map inputId).Nodup := by
  refine List.Nodup.of_map Subtype.val ?_
  have heq : (binding.inputs.map inputId).map Subtype.val =
      (binding.inputs.map fun item => lower item.role.val).map ("fetch_" ++ ·) := by
    rw [List.map_map, List.map_map]
    exact List.map_congr_left fun item hitem => (dependencyFetchStepId_eq_ok (h.1 item hitem)).2
  rw [heq]
  exact h.2.map fun s t hst => (String.append_right_inj _).mp hst

/-! ## The steps of a bound calculation -/

/-- The fetches of a binding whose roles are compilable. -/
def boundFetches (D : PlanDigests) (binding : ApprovedCalculationBinding) : List FetchMetricStep :=
  binding.inputs.map fun item => PlanCompiler.boundFetch D binding item (inputId item)

/-- The steps of a bound calculation that reads them. -/
def boundSteps (D : PlanDigests) (binding : ApprovedCalculationBinding) (calculation : TrustedCalculationStep) :
    List (PlanStep D.toCalculationDigests) :=
  (boundFetches D binding).map PlanStep.fetch ++ [PlanStep.trusted calculation, .verify (.ofStep verifyResultId calculateMetricId)]

/-- The calculation of a bound metric, as the compiler builds it. -/
def boundCalculation? (D : PlanDigests) (binding : ApprovedCalculationBinding) : Option TrustedCalculationStep :=
  TrustedCalculationStep.build? calculateMetricId binding.templateId
    (valueRefs binding.inputRoles (binding.inputs.map inputId) binding.roles_unique) (binding.inputs.map inputId)
    (some ⟨binding.templateVersion, binding.templateChecksum, D.approvedBinding binding, binding.canonicalMetricKey⟩)

/-- The ids of the fetches are those of the inputs. -/
theorem boundFetches_ids : (boundFetches D binding).map (·.stepId) = binding.inputs.map inputId := by
  rw [boundFetches, List.map_map]
  rfl

/-- The calculation is built exactly where a step may have that many dependencies. -/
theorem boundCalculation?_isSome (h : binding.RolesCompilable) :
    (∃ calculation, boundCalculation? D binding = some calculation) ↔ binding.inputs.length ≤ 16 := by
  have hentries : (valueRefs binding.inputRoles (binding.inputs.map inputId) binding.roles_unique).entries =
      binding.inputs.map fun item => (item.role, (inputId item).valueRef) :=
    valueRefs_entries binding.inputs (·.role) inputId binding.roles_unique
  have hlength := binding.inputs_length
  unfold boundCalculation? TrustedCalculationStep.build?
  by_cases hle : binding.inputs.length ≤ 16
  · rw [dif_pos ⟨by rw [hentries, List.length_map]; exact hlength, by rw [List.length_map]; exact ⟨hlength.1, hle⟩, inputIds_nodup h⟩]
    exact ⟨fun _ => hle, fun _ => ⟨_, rfl⟩⟩
  · rw [dif_neg fun hall => hle (by have := hall.2.1.2; rwa [List.length_map] at this)]
    exact ⟨fun ⟨_, hnone⟩ => (nomatch hnone), fun hle' => absurd hle' hle⟩

/-- What the calculation of a bound metric depends on, and what it reads. -/
theorem boundCalculation?_fields {calculation : TrustedCalculationStep} (h : boundCalculation? D binding = some calculation) :
    calculation.stepId = calculateMetricId ∧ calculation.dependsOn = binding.inputs.map inputId ∧
      calculation.inputRefs.values = binding.inputs.map fun item => (inputId item).valueRef := by
  unfold boundCalculation? TrustedCalculationStep.build? at h
  split at h
  · cases h
    refine ⟨rfl, rfl, ?_⟩
    have hentries := valueRefs_entries binding.inputs (·.role) inputId binding.roles_unique
    have hvalues := congrArg (List.map Prod.snd) hentries
    rw [List.map_map] at hvalues
    exact hvalues
  · cases h

/-- A step depends on steps of a lower rank. -/
def stepRank {D : CalculationDigests} : PlanStep D → Nat
  | .fetch _ => 0
  | .trusted _ | .adHoc _ => 1
  | .verify _ => 2

/-- The steps of a bound calculation pass the validator of the plan, whatever their number. -/
theorem boundSteps_dag (hroles : binding.RolesCompilable) {calculation : TrustedCalculationStep}
    (hcalculation : boundCalculation? D binding = some calculation) : ValidTypedDag (boundSteps D binding calculation) := by
  obtain ⟨hid, hdepends, hrefs⟩ := boundCalculation?_fields hcalculation
  have hne : ∀ item ∈ binding.inputs, inputId item ≠ calculateMetricId ∧ inputId item ≠ verifyResultId := fun item hitem =>
    fetchId_ne (dependencyFetchStepId_eq_ok (hroles.1 item hitem)).2
  have hids : (boundSteps D binding calculation).map (·.stepId) =
      binding.inputs.map inputId ++ [calculateMetricId, verifyResultId] := by
    rw [boundSteps, List.map_append, List.map_map, ← boundFetches_ids (D := D), ← hid]
    rfl
  have hmem : ∀ step ∈ boundSteps D binding calculation, (∃ item ∈ binding.inputs, step = .fetch (PlanCompiler.boundFetch D binding
      item (inputId item))) ∨ step = .trusted calculation ∨ step = .verify (.ofStep verifyResultId calculateMetricId) := by
    intro step hstep
    rw [boundSteps, boundFetches, List.map_map, List.mem_append, List.mem_map, List.mem_pair] at hstep
    rcases hstep with ⟨item, hitem, rfl⟩ | hstep
    · exact .inl ⟨item, hitem, rfl⟩
    · exact .inr hstep
  refine validTypedDag_iff_acyclic.mpr ⟨?_, ?_, ?_, ?_⟩
  · rw [hids, List.nodup_append]
    refine ⟨inputIds_nodup hroles, by decide, ?_⟩
    intro id hid' other hother
    obtain ⟨item, hitem, rfl⟩ := List.mem_map.mp hid'
    rcases List.mem_pair.mp hother with rfl | rfl
    · exact (hne item hitem).1
    · exact (hne item hitem).2
  · intro step hstep d hd
    rw [hids]
    rcases hmem step hstep with ⟨item, hitem, rfl⟩ | rfl | rfl
    · cases hd
    · replace hd : d ∈ binding.inputs.map inputId := hdepends ▸ hd
      refine ⟨?_, List.mem_append_left _ hd⟩
      obtain ⟨item, hitem, rfl⟩ := List.mem_map.mp hd
      change inputId item ≠ calculation.stepId
      rw [hid]
      exact (hne item hitem).1
    · replace hd : d = calculateMetricId := List.mem_singleton.mp hd
      rw [hd]
      refine ⟨?_, by simp⟩
      change calculateMetricId ≠ verifyResultId
      decide
  · intro step hstep ref href
    rcases hmem step hstep with ⟨item, hitem, rfl⟩ | rfl | rfl
    · cases href
    · replace href : ref ∈ calculation.inputRefs.values := href
      rw [hrefs] at href
      obtain ⟨item, hitem, rfl⟩ := List.mem_map.mp href
      change _ ∈ calculation.dependsOn.map _
      rw [hdepends]
      have hroot : (inputId item).valueRef.root = (inputId item).val := by
        rw [PlanInputRef.root]
        change (split '.' (valueRef (inputId item))).headD "" = _
        rw [split_valueRef]
        rfl
      rw [hroot]
      exact List.mem_map_of_mem (List.mem_map_of_mem hitem)
    · replace href : ref = calculateMetricId.ref := List.mem_singleton.mp href
      rw [href]
      change calculateMetricId.ref.root ∈ [calculateMetricId.val]
      decide
  · refine acyclic_of_rank stepRank ?_
    rintro first second ⟨hfirst, hsecond, hdep⟩
    rcases hmem second hsecond with ⟨item, hitem, rfl⟩ | rfl | rfl
    · cases hdep
    · replace hdep : first.stepId ∈ binding.inputs.map inputId := hdepends ▸ hdep
      obtain ⟨item, hitem, heq⟩ := List.mem_map.mp hdep
      rcases hmem first hfirst with ⟨item', hitem', rfl⟩ | rfl | rfl
      · exact Nat.zero_lt_one
      · exact absurd (heq.trans hid) (hne item hitem).1
      · exact absurd heq (hne item hitem).2
    · replace hdep : first.stepId = calculateMetricId := List.mem_singleton.mp hdep
      rcases hmem first hfirst with ⟨item', hitem', rfl⟩ | rfl | rfl
      · exact Nat.zero_lt_two
      · exact Nat.one_lt_two
      · replace hdep : verifyResultId = calculateMetricId := hdep
        exact absurd hdep (by decide)

/-! ## What is raised -/

/-- A plan is not built exactly where the name of the policy or the number of the steps does not fit, if the steps are without a
cycle and there are some. -/
theorem buildPlan_eq_contract {steps : List (PlanStep D.toCalculationDigests)} (hsteps : steps ≠ []) (hdag : ValidTypedDag steps) :
    c.buildPlan D plan context steps = .error .contract ↔ ¬(c.policyVersion.length ≤ 128 ∧ steps.length ≤ 16) := by
  have hversion : 1 ≤ c.policyVersion.length := by
    by_contra hlt
    have hempty : c.policyVersion = "" := String.length_eq_zero_iff.mp (by omega)
    have hblank := c.version_non_blank
    rw [hempty] at hblank
    exact absurd hblank (by decide)
  unfold PlanCompiler.buildPlan
  by_cases hfit : c.policyVersion.length ≤ 128 ∧ steps.length ≤ 16
  · rw [dif_pos ⟨⟨hversion, hfit.1⟩, ⟨List.length_pos_iff.mpr hsteps, hfit.2⟩, hdag⟩]
    exact ⟨fun h => (nomatch h), fun h => absurd hfit h⟩
  · rw [dif_neg fun h => hfit ⟨h.1.2, h.2.1.2⟩]
    exact ⟨fun _ => hfit, fun _ => rfl⟩

/-- A request that the compiler of bound calculations takes up to building the steps. -/
structure Compilable (plan : QueryPlan) (binding : ApprovedCalculationBinding) : Prop where
  intent : plan.intent = .metric
  keys : plan.metricKeys = [binding.canonicalMetricKey.val]
  roles : binding.RolesCompilable

/-- What such a request compiles to. -/
theorem compileBound_of_compilable (h : Compilable plan binding) : PlanCompiler.compileBoundCalculation D plan binding =
    (orContract (boundCalculation? D binding) >>= fun calculation => .ok (boundSteps D binding calculation)) := by
  have hids : (binding.inputs.mapM fun item => dependencyFetchStepId item.role) = .ok (binding.inputs.map inputId) :=
    mapM_ok fun item hitem => (dependencyFetchStepId_eq_ok (h.roles.1 item hitem)).1
  have hfetches : List.zipWith (PlanCompiler.boundFetch D binding) binding.inputs (binding.inputs.map inputId) =
      boundFetches D binding := by
    rw [List.zipWith_map_right, List.zipWith_self]
    rfl
  unfold PlanCompiler.compileBoundCalculation
  rw [raiseIf, if_neg (not_not.mpr h.intent), raiseIf, if_neg (not_not.mpr h.keys), hids]
  change (raiseIf (¬(binding.inputs.map inputId).Nodup) .approvedRoleUnsupported >>= fun _ => _) = _
  rw [raiseIf, if_neg (not_not.mpr (inputIds_nodup h.roles)), hfetches]
  rfl

/-- Any other request raises a code. -/
theorem compileBound_of_not_compilable (h : ¬Compilable plan binding) :
    ∃ code, PlanCompiler.compileBoundCalculation D plan binding = .error (.compilation code) := by
  unfold PlanCompiler.compileBoundCalculation
  by_cases hintent : plan.intent = .metric
  · by_cases hkeys : plan.metricKeys = [binding.canonicalMetricKey.val]
    · rw [raiseIf, if_neg (not_not.mpr hintent), raiseIf, if_neg (not_not.mpr hkeys)]
      cases hids : (binding.inputs.mapM fun item => dependencyFetchStepId item.role) with
      | error e =>
        obtain ⟨item, -, hitem⟩ := mapM_eq_error hids
        refine ⟨.approvedRoleUnsupported, ?_⟩
        unfold dependencyFetchStepId fetchStepId at hitem
        split at hitem
        · nomatch hitem
        · cases hitem
          rfl
      | ok ids =>
        have hall := (mapM_eq_ok (g := inputId) (fun _ _ hx => fetchIdOf_eq hx) hids).2
        obtain ⟨rfl, -⟩ := mapM_eq_ok (g := inputId) (fun _ _ hx => fetchIdOf_eq hx) hids
        have hmatch : ∀ item ∈ binding.inputs, isDependencyRole (lower item.role.val) = true := by
          intro item hitem
          by_contra hnot
          have hok := hall item hitem
          unfold dependencyFetchStepId fetchStepId at hok
          rw [dif_neg hnot] at hok
          nomatch hok
        have hduplicate : ¬(binding.inputs.map inputId).Nodup := by
          intro hnodup
          refine h ⟨hintent, hkeys, hmatch, ?_⟩
          refine List.Nodup.of_map ("fetch_" ++ ·) ?_
          have heq : (binding.inputs.map fun item => lower item.role.val).map ("fetch_" ++ ·) =
              (binding.inputs.map inputId).map Subtype.val := by
            rw [List.map_map, List.map_map]
            exact List.map_congr_left fun item hitem => (dependencyFetchStepId_eq_ok (hmatch item hitem)).2.symm
          rw [heq]
          exact hnodup.map Subtype.val_injective
        refine ⟨.approvedRoleUnsupported, ?_⟩
        change (raiseIf (¬(binding.inputs.map inputId).Nodup) .approvedRoleUnsupported >>= fun _ => _) = _
        rw [raiseIf, if_pos hduplicate]
        rfl
    · refine ⟨.approvedOutputNotRequested, ?_⟩
      rw [raiseIf, if_neg (not_not.mpr hintent), raiseIf, if_pos hkeys]
      rfl
  · refine ⟨.approvedIntentUnsupported, ?_⟩
    rw [raiseIf, if_pos hintent]
    rfl

/-- Building a plan of a bound calculation fails on the contract exactly where the request is compilable, and the name of the policy
or the number of the steps does not fit. -/
theorem compileBound_eq_contract :
    (PlanCompiler.compileBoundCalculation D plan binding >>= c.buildPlan D plan context) = .error .contract ↔
      Compilable plan binding ∧ ¬(c.policyVersion.length ≤ 128 ∧ binding.inputs.length ≤ 14) := by
  by_cases h : Compilable plan binding
  · rw [compileBound_of_compilable h, and_iff_right h]
    cases hcalculation : boundCalculation? D binding with
    | none =>
      have hlarge : ¬binding.inputs.length ≤ 16 := fun hle => by
        obtain ⟨calculation, hsome⟩ := (boundCalculation?_isSome h.roles).mpr hle
        rw [hcalculation] at hsome
        nomatch hsome
      exact ⟨fun _ hfit => hlarge (by omega), fun _ => rfl⟩
    | some calculation =>
      have hlength : (boundSteps D binding calculation).length = binding.inputs.length + 2 := by
        rw [boundSteps, List.length_append, List.length_map, boundFetches, List.length_map]
        rfl
      have hbuild : c.buildPlan D plan context _ = .error .contract ↔ _ := buildPlan_eq_contract
        (List.ne_nil_of_length_pos (by omega)) (boundSteps_dag h.roles hcalculation)
      rw [hlength] at hbuild
      refine hbuild.trans (not_congr (and_congr_right fun _ => ?_))
      omega
  · obtain ⟨code, hcode⟩ := compileBound_of_not_compilable (D := D) h
    rw [hcode]
    exact ⟨fun hcontract => (nomatch hcontract), fun hboth => absurd hboth.1 h⟩

/-- The checks of the record pass exactly where it allows the query plan, and raise an error of the compiler otherwise. -/
theorem checkValidation_cases : (AllowsQuery D plan context validation ∧ PlanCompiler.checkValidation D plan context validation = .ok ()) ∨
    (¬AllowsQuery D plan context validation ∧ ∃ e, PlanCompiler.checkValidation D plan context validation = .error e ∧ e ≠ .contract) := by
  unfold PlanCompiler.checkValidation
  by_cases houtcome : validation.outcome = .allow
  · by_cases hquery : validation.queryPlanSha256 = D.queryPlan plan
    · by_cases hcontext : validation.contextChecksum = D.context context
      · refine .inl ⟨⟨houtcome, hquery, hcontext⟩, ?_⟩
        simp only [houtcome, raiseIf, hquery, hcontext, ne_eq, not_true_eq_false, if_false]
        rfl
      · refine .inr ⟨fun h => hcontext h.2.2, .compilation .contextHashMismatch, ?_, nofun⟩
        simp only [houtcome, raiseIf, hquery, hcontext, ne_eq, not_true_eq_false, not_false_eq_true, if_false, if_true]
        rfl
    · refine .inr ⟨fun h => hquery h.2.1, .compilation .queryPlanHashMismatch, ?_, nofun⟩
      simp only [houtcome, raiseIf, hquery, ne_eq, not_true_eq_false, not_false_eq_true, if_false, if_true]
      rfl
  · refine .inr ⟨fun h => houtcome h.1, .validation validation, ?_, nofun⟩
    simp only [houtcome, ne_eq, not_false_eq_true, if_true]
    rfl

/-- The binding of a request is that of its one metric, where that is bound. -/
theorem requestedBinding_eq_ok : c.requestedBinding plan = .ok binding ↔
    ∃ catalog, c.calculationCatalog = some catalog ∧ catalog.bindingFor binding.canonicalMetricKey = some binding ∧
      plan.metricKeys = [binding.canonicalMetricKey.val] := by
  unfold PlanCompiler.requestedBinding
  constructor
  · intro h
    obtain ⟨_, hshape, h⟩ := bind_eq_ok.mp h
    obtain ⟨hone, -⟩ := not_or.mp (raiseIf_eq_ok.mp hshape)
    obtain ⟨key, hkey⟩ := List.length_eq_one_iff.mp (not_not.mp hone)
    rw [hkey, List.headD_cons] at h
    split at h
    · nomatch h
    · rename_i found hfound
      cases h
      obtain ⟨catalog, hcatalog, hbinding⟩ := Option.bind_eq_some_iff.mp hfound
      obtain ⟨-, rfl⟩ := bindingFor_eq_some hbinding
      exact ⟨catalog, hcatalog, hbinding, hkey⟩
  · rintro ⟨catalog, hcatalog, hbinding, hkeys⟩
    have hbound : c.boundRequested plan = [binding.canonicalMetricKey.val] := by
      simp only [PlanCompiler.boundRequested, hcatalog, hkeys]
      exact List.filter_cons_of_pos (by rw [hbinding]; rfl)
    rw [hkeys, hbound, raiseIf, if_neg (by simp), List.headD_cons, hcatalog, Option.bind_some, hbinding]
    rfl

/-- Where the request has no binding, a code is raised. -/
theorem requestedBinding_ne_contract : c.requestedBinding plan ≠ .error .contract := by
  unfold PlanCompiler.requestedBinding
  intro h
  rcases bind_eq_error.mp h with h | ⟨_, -, h⟩
  · exact raiseIf_ne_contract h
  · split at h <;> nomatch h

/-- The plan of metrics of which none is bound passes the validator of the plan. -/
theorem ordinarySteps_dag (plan : QueryPlan) : ValidTypedDag (D := D.toCalculationDigests)
    [.fetch (PlanCompiler.ordinaryFetch plan), .verify (.ofStep verifyResultId fetchMetricsId)] := by
  refine validTypedDag_iff_acyclic.mpr ⟨?_, ?_, ?_, ?_⟩
  · change [fetchMetricsId, verifyResultId].Nodup
    decide
  · intro step hstep d hd
    rcases List.mem_pair.mp hstep with rfl | rfl
    · cases hd
    · rw [List.mem_singleton.mp hd]
      change fetchMetricsId ≠ verifyResultId ∧ fetchMetricsId ∈ [fetchMetricsId, verifyResultId]
      decide
  · intro step hstep ref href
    rcases List.mem_pair.mp hstep with rfl | rfl
    · cases href
    · rw [List.mem_singleton.mp href]
      change fetchMetricsId.ref.root ∈ [fetchMetricsId.val]
      decide
  · refine acyclic_of_rank stepRank ?_
    rintro first second ⟨hfirst, hsecond, hdep⟩
    rcases List.mem_pair.mp hsecond with rfl | rfl
    · cases hdep
    · rcases List.mem_pair.mp hfirst with rfl | rfl
      · exact Nat.zero_lt_two
      · replace hdep : verifyResultId ∈ [fetchMetricsId] := hdep
        exact absurd hdep (by decide)

/-- When the contract of the plan raises. -/
theorem compile_eq_contract : c.compile D plan context validation = .error .contract ↔ AllowsQuery D plan context validation ∧
    ((c.boundRequested plan = [] ∧ ¬c.policyVersion.length ≤ 128) ∨
      ∃ catalog binding, c.calculationCatalog = some catalog ∧ catalog.bindingFor binding.canonicalMetricKey = some binding ∧
        Compilable plan binding ∧ ¬(c.policyVersion.length ≤ 128 ∧ binding.inputs.length ≤ 14)) := by
  have hnone : ∀ {catalog binding}, c.calculationCatalog = some catalog →
      catalog.bindingFor binding.canonicalMetricKey = some binding → Compilable plan binding → c.boundRequested plan ≠ [] := by
    intro catalog binding hcatalog hbinding hcompilable
    refine List.ne_nil_of_mem ((mem_boundRequested hcatalog).mpr ⟨?_, Option.isSome_iff_exists.mpr ⟨_, hbinding⟩⟩)
    rw [hcompilable.keys]
    exact List.mem_singleton.mpr rfl
  unfold PlanCompiler.compile
  have hchecked : (AllowsQuery D plan context validation ∧ _) ∨ _ := checkValidation_cases
  rcases hchecked with ⟨hallow, hok⟩ | ⟨hdeny, e, he, hne⟩
  · rw [hok, and_iff_right hallow]
    change (if c.boundRequested plan ≠ [] then _ else _) = _ ↔ _
    by_cases hbound : c.boundRequested plan = []
    · have hbuild : c.buildPlan D plan context _ = .error .contract ↔ _ :=
        buildPlan_eq_contract (List.cons_ne_nil _ _) (ordinarySteps_dag plan)
      rw [if_neg (not_not.mpr hbound)]
      refine hbuild.trans ?_
      constructor
      · exact fun hfit => .inl ⟨hbound, fun hversion => hfit ⟨hversion, Nat.le_of_ble_eq_true rfl⟩⟩
      · rintro (⟨-, hversion⟩ | ⟨catalog, binding, hcatalog, hbinding, hcompilable, -⟩)
        · exact fun hfit => hversion hfit.1
        · exact absurd hbound (hnone hcatalog hbinding hcompilable)
    · rw [if_pos hbound]
      constructor
      · intro h
        rcases bind_eq_error.mp h with h | ⟨binding, hrequested, h⟩
        · exact absurd h requestedBinding_ne_contract
        · obtain ⟨catalog, hcatalog, hbinding, -⟩ := requestedBinding_eq_ok.mp hrequested
          exact .inr ⟨catalog, binding, hcatalog, hbinding, compileBound_eq_contract.mp h⟩
      · rintro (⟨hnil, -⟩ | ⟨catalog, binding, hcatalog, hbinding, hcompilable, hfit⟩)
        · exact absurd hnil hbound
        · have hrequested := requestedBinding_eq_ok.mpr ⟨catalog, hcatalog, hbinding, hcompilable.keys⟩
          rw [hrequested]
          exact compileBound_eq_contract.mpr ⟨hcompilable, hfit⟩
  · rw [he]
    refine ⟨fun h => ?_, fun h => absurd h.1 hdeny⟩
    cases h
    exact absurd rfl hne

end CompilerErrorsAux

open CompilerErrorsAux

/-- When the compiler fails with its own errors alone. It returns a plan or raises one of its two errors exactly where, if the record
allows the query plan in its context: the name of the compiler's policy has at most 128 characters, unless the request is turned down
before a plan is built; and a binding of the one requested metric, for a request of intent `metric`, whose roles make different step
ids, has at most 14 inputs. -/
theorem compile_own_errors_iff (D : PlanDigests) (c : PlanCompiler) (plan : QueryPlan) (context : ContextBundle)
    (validation : PlanValidationRecord) :
    ((∃ ep, c.compile D plan context validation = .ok ep) ∨
      (∃ record, c.compile D plan context validation = .error (.validation record)) ∨
      ∃ code, c.compile D plan context validation = .error (.compilation code)) ↔
    (AllowsQuery D plan context validation →
      (c.boundRequested plan = [] → c.policyVersion.length ≤ 128) ∧
      ∀ catalog binding, c.calculationCatalog = some catalog → catalog.bindingFor binding.canonicalMetricKey = some binding →
        plan.intent = .metric → plan.metricKeys = [binding.canonicalMetricKey.val] → binding.RolesCompilable →
        c.policyVersion.length ≤ 128 ∧ binding.inputs.length ≤ 14) := by
  have hown : ((∃ ep, c.compile D plan context validation = .ok ep) ∨
      (∃ record, c.compile D plan context validation = .error (.validation record)) ∨
      ∃ code, c.compile D plan context validation = .error (.compilation code)) ↔
      c.compile D plan context validation ≠ .error .contract := by
    cases c.compile D plan context validation with
    | ok ep => simp
    | error e => cases e <;> simp
  rw [hown, ne_eq, compile_eq_contract, not_and]
  refine imp_congr_right fun _ => ?_
  constructor
  · intro h
    obtain ⟨hordinary, hbound⟩ := not_or.mp h
    refine ⟨fun hnil => ?_, fun catalog binding hcatalog hbinding hintent hkeys hroles => ?_⟩
    · by_contra hversion
      exact hordinary ⟨hnil, hversion⟩
    · by_contra hfit
      exact hbound ⟨catalog, binding, hcatalog, hbinding, ⟨hintent, hkeys, hroles⟩, hfit⟩
  · rintro ⟨hordinary, hbound⟩ (⟨hnil, hversion⟩ | ⟨catalog, binding, hcatalog, hbinding, hcompilable, hfit⟩)
    · exact hversion (hordinary hnil)
    · exact hfit (hbound catalog binding hcatalog hbinding hcompilable.intent hcompilable.keys hcompilable.roles)

/-- One input of the wide binding. -/
def wideInput (role : RoleName) : ApprovedCalculationInput :=
  ⟨role, revenueKey, ⟨"371f7e4223809d8bce3d52f6a5358e47c4b57aa00cbe0a4d8b47d74f010dffa6", Eq.refl true⟩⟩

/-- Fifteen inputs, of roles a to o. -/
def wideInputs : List ApprovedCalculationInput :=
  [⟨"a", by decide⟩, ⟨"b", by decide⟩, ⟨"c", by decide⟩, ⟨"d", by decide⟩, ⟨"e", by decide⟩, ⟨"f", by decide⟩, ⟨"g", by decide⟩,
    ⟨"h", by decide⟩, ⟨"i", by decide⟩, ⟨"j", by decide⟩, ⟨"k", by decide⟩, ⟨"l", by decide⟩, ⟨"m", by decide⟩, ⟨"n", by decide⟩,
    ⟨"o", by decide⟩].map wideInput

/-- A binding of the gross margin with fifteen inputs. -/
def wideBinding : ApprovedCalculationBinding :=
  { grossMarginBinding with inputs := wideInputs, inputs_length := by decide, roles_unique := by decide +kernel }

/-- A compiler whose catalog binds the gross margin to fifteen inputs. -/
def wideCompiler : PlanCompiler := { marginCompiler with calculationCatalog := some ⟨[wideBinding], List.nodup_singleton _⟩ }

/-- The allowed query for the gross margin makes that compiler raise neither of its errors: the plan would have seventeen steps. -/
theorem compile_own_errors_wide :
    wideCompiler.compile marginDigests marginPlan salesContext marginValidation = .error .contract :=
  compile_eq_contract.mpr ⟨⟨rfl, rfl, rfl⟩, .inr ⟨⟨[wideBinding], List.nodup_singleton _⟩, wideBinding, rfl, by decide +kernel,
    ⟨rfl, rfl, by decide +kernel⟩, by decide +kernel⟩⟩

end Nl2Sql
