import Nl2Sql.Lemmas.Plan
import Nl2Sql.Plan.Compiler

/-!
# What the validator guarantees of an allowed plan

Two guarantees about every plan the validator allows, whatever produced it: which fetches may carry a metric that the catalog binds
to a calculation, and the exact shape of a plan that holds an AD_HOC calculation.
-/

namespace Nl2Sql

open Py

namespace PlanAux

open ApprovedCalculationCatalog

section Canonical

variable {D : PlanDigests} {v : PlanValidator} {catalog : ApprovedCalculationCatalog}
  {plan : ExecutionPlan D.toCalculationDigests} {queryPlan : QueryPlan} {context : ContextBundle} {routeBudget : RouteBudget}

/-- The checks of the catalog on an allowed plan. -/
theorem Allowed.bound (h : Allowed D v plan queryPlan context routeBudget) (hc : v.calculationCatalog = some catalog) :
    catalog.validateBoundOutputs queryPlan plan = [] ∧ validateDependencyProvenance plan = [] := by
  have hcanonical := h.canonical
  simp only [PlanValidator.canonicalIssues, hc, List.append_eq_nil_iff, List.map_eq_nil_iff] at hcanonical
  exact hcanonical

/-- A canonical calculation of an allowed plan is proven. -/
theorem Allowed.proven (h : Allowed D v plan queryPlan context routeBudget) (hc : v.calculationCatalog = some catalog)
    {step : TrustedCalculationStep} (hstep : step ∈ plan.canonicalSteps) :
    ∃ provenance binding, step.binding = some provenance ∧ catalog.bindingFor provenance.outputMetricKey = some binding ∧
      CalculationProven D catalog plan context step provenance binding := by
  obtain ⟨hmem, hdeclares⟩ := mem_canonicalSteps.mp hstep
  have hissues := h.steps _ hmem
  simp only [PlanValidator.stepIssues, hc, hdeclares, if_true, List.map_eq_nil_iff] at hissues
  obtain ⟨provenance, hb⟩ := Option.isSome_iff_exists.mp hdeclares
  obtain ⟨binding, hbinding, hproven⟩ := (validateCalculation_eq_nil_iff hb).mp hissues
  exact ⟨provenance, binding, hb, hbinding, hproven⟩

/-- A marked fetch among the dependencies of a calculation is one of its declared fetches. -/
theorem mem_declaredFetches {step : TrustedCalculationStep} {role : RoleName} {fetch : FetchMetricStep} :
    (role, fetch) ∈ declaredFetches plan step ↔
      fetch ∈ plan.fetchSteps ∧ fetch.stepId ∈ step.dependsOn ∧ fetch.calculationInputRole = some role := by
  unfold declaredFetches
  rw [List.mem_filterMap]
  constructor
  · rintro ⟨id, hid, hm⟩
    unfold markedFetch? at hm
    split at hm
    · rename_i f hf
      obtain ⟨r, hr, hrf⟩ := Option.map_eq_some_iff.mp hm
      cases hrf
      obtain ⟨hmem, rfl⟩ := mem_of_step? hf
      exact ⟨mem_fetchSteps.mpr hmem, hid, hr⟩
    · nomatch hm
  · rintro ⟨hf, hd, hr⟩
    refine ⟨fetch.stepId, hd, ?_⟩
    have hs : plan.step? fetch.stepId = some (.fetch fetch) := step?_of_mem (mem_fetchSteps.mp hf)
    simp only [markedFetch?, hs, hr, Option.map_some]

/-- The fetch of a proven calculation for one of its roles. -/
theorem CalculationProven.fetch_of_role {step : TrustedCalculationStep} {provenance : BindingProvenance}
    {binding : ApprovedCalculationBinding} (h : CalculationProven D catalog plan context step provenance binding)
    {item : ApprovedCalculationInput} (hitem : item ∈ binding.inputs) :
    ∃ fetch, fetchesOfRole (declaredFetches plan step) item.role = [fetch] ∧ fetch.metricKeys = [item.metricKey.val] ∧
      (step.inputRefs.get? item.role).map (·.val) = some (valueRef fetch.stepId) := by
  obtain ⟨-, fetch, rest, hfetches, hkeys, -, href⟩ := h.roles item hitem
  have hmem : (item.role, fetch) ∈ declaredFetches plan step := by
    rw [← mem_fetchesOfRole, hfetches]
    exact List.mem_cons_self
  have hlen := (h.declared _ hmem).1
  rw [hfetches, List.length_cons] at hlen
  have hnil : rest = [] := List.eq_nil_of_length_eq_zero (by omega)
  exact ⟨fetch, by rw [hfetches, hnil], hkeys, href⟩

/-- A fetch marked for a canonical calculation of an allowed plan fetches one metric, and the catalog does not bind it. -/
theorem canonical_fetch_unbound (h : Allowed D v plan queryPlan context routeBudget) (hc : v.calculationCatalog = some catalog)
    {fetch : FetchMetricStep} (hfetch : fetch ∈ plan.fetchSteps) {role : RoleName}
    (hrole : fetch.calculationInputRole = some role) {key : String} (hkey : key ∈ fetch.metricKeys) :
    catalog.bindingFor key = none := by
  obtain ⟨consumer, howned⟩ := validateDependencyProvenance_eq_nil_iff.mp (h.bound hc).2 fetch hfetch role hrole
  obtain ⟨hcanonical, hdepends⟩ := howned.mem
  obtain ⟨provenance, binding, -, -, hproven⟩ := h.proven hc hcanonical
  have hdeclared : (role, fetch) ∈ declaredFetches plan consumer := mem_declaredFetches.mpr ⟨hfetch, hdepends, hrole⟩
  obtain ⟨item, hitem, hitemRole⟩ := List.mem_map.mp (hproven.declared _ hdeclared).2
  simp only at hitemRole
  obtain ⟨f, hf, hkeys, -⟩ := hproven.fetch_of_role hitem
  have hmem : fetch ∈ fetchesOfRole (declaredFetches plan consumer) item.role := by
    rw [hitemRole]
    exact mem_fetchesOfRole.mpr hdeclared
  rw [hf, List.mem_singleton] at hmem
  rw [hmem, hkeys, List.mem_singleton] at hkey
  rw [hkey]
  exact (hproven.roles item hitem).1

end Canonical

section AdHoc

variable {D : PlanDigests} {v : PlanValidator} {plan : ExecutionPlan D.toCalculationDigests} {queryPlan : QueryPlan}
  {context : ContextBundle} {routeBudget : RouteBudget}

/-- A spec that declares a metric for a role has an input of that role and metric. -/
theorem mem_of_metricOf? {spec : CalculationSpec} {role : RoleName} {key : BoundedText 1 256}
    (h : spec.metricOf? role = some key) : ∃ item ∈ spec.inputs, item.role = role ∧ item.metricKey = some key := by
  obtain ⟨item, hfind, hkey⟩ := Option.bind_eq_some_iff.mp h
  exact ⟨item, List.mem_of_find?_eq_some hfind, by simpa using List.find?_some hfind, hkey⟩

section

variable (h : Allowed D v plan queryPlan context routeBudget)
include h

/-- The sources of the AD_HOC calculation of an allowed plan. -/
theorem Allowed.sources {step : AdHocCalculationStep D.toCalculationDigests} (hstep : step ∈ plan.adHocSteps) :
    AdHocSources plan step context queryPlan := by
  have hissues := h.steps _ (mem_adHocSteps.mp hstep)
  simp only [PlanValidator.stepIssues, List.append_eq_nil_iff, List.map_eq_nil_iff] at hissues
  exact adHocStepFailures_eq_nil_iff.mp hissues.1

/-- No source of the AD_HOC calculation of an allowed plan is bound by the catalog. -/
theorem Allowed.sources_unbound
    {step : AdHocCalculationStep D.toCalculationDigests} (hstep : step ∈ plan.adHocSteps) {catalog : ApprovedCalculationCatalog}
    (hc : v.calculationCatalog = some catalog) {item : CalculationInputSpec} (hitem : item ∈ step.calculationSpec.inputs)
    {key : BoundedText 1 256} (hkey : item.metricKey = some key) : catalog.bindingFor key = none := by
  have hissues := h.steps _ (mem_adHocSteps.mp hstep)
  simp only [PlanValidator.stepIssues, hc, List.append_eq_nil_iff, List.flatMap_eq_nil_iff, failIf_eq_nil_iff] at hissues
  have hnot := hissues.2 item hitem
  rw [hkey, Option.bind_some] at hnot
  simpa using hnot

/-- An AD_HOC fetch of an allowed plan: the calculation that owns it declares its role, and its metric is the declared one. -/
theorem adHoc_fetch_declared {fetch : FetchMetricStep}
    (hfetch : fetch ∈ plan.fetchSteps) {role : RoleName} (hrole : fetch.adHocInputRole = some role) :
    ∃ step ∈ plan.adHocSteps, AdHocOwnedBy plan fetch role step ∧ ∃ item ∈ step.calculationSpec.inputs, item.role = role ∧
      ∃ key, item.metricKey = some key ∧ fetch.metricKeys = [key.val] ∧ key.val ∈ context.assetIds := by
  obtain ⟨step, howned⟩ := adHocClosureFailures_eq_nil_iff.mp h.closure fetch hfetch role hrole
  have hmem : step ∈ plan.adHocSteps.filter fun s => fetch.stepId ∈ s.dependsOn := by
    rw [howned.only]
    exact List.mem_singleton.mpr rfl
  obtain ⟨hstep, hdepends⟩ := List.mem_filter.mp hmem
  have hdeclared : (role, fetch) ∈ adHocDeclaredFetches plan step :=
    mem_adHocDeclaredFetches.mpr ⟨hfetch, by simpa using hdepends, hrole⟩
  obtain ⟨f, expected, hf, hmetric, hkeys, hcontext⟩ := (h.sources hstep).fetched _ hdeclared
  have hsame := mem_fetchesOfRole.mpr hdeclared
  rw [hf, List.mem_singleton] at hsame
  obtain ⟨item, hitem, hitemRole, hitemKey⟩ := mem_of_metricOf? hmetric
  exact ⟨step, hstep, howned, item, hitem, hitemRole, expected, hitemKey, by rw [hsame, hkeys], hcontext⟩

/-- The calculation of an allowed plan that holds one, with its shape. -/
theorem Allowed.shape {step : AdHocCalculationStep D.toCalculationDigests} (hstep : step ∈ plan.adHocSteps) :
    ∃ verify, AdHocShape plan step verify := by
  rcases adHocV1ClosureFailures_eq_nil_iff.mp h.v1_closure with hnil | ⟨calculation, verify, hshape⟩
  · rw [hnil] at hstep
    nomatch hstep
  · rw [hshape.calculations, List.mem_singleton] at hstep
    subst hstep
    exact ⟨verify, hshape⟩

end

/-- The inputs of a spec are told apart by their roles. -/
theorem input_inj {spec : CalculationSpec} {i j : CalculationInputSpec} (hi : i ∈ spec.inputs) (hj : j ∈ spec.inputs)
    (h : i.role = j.role) : i = j :=
  List.inj_on_of_nodup_map spec.inputs_unique hi hj h

/-- A fetch marked for a role by the three fields of its mark. -/
theorem provenance_adHoc {fetch : FetchMetricStep} {role : RoleName} {checksum : Sha256} {id : DerivedOutputId}
    (hr : fetch.adHocInputRole = some role) (hc : fetch.adHocSpecChecksum = some checksum)
    (hi : fetch.adHocDerivedOutputId = some id) : fetch.provenance = .adHoc role checksum id := by
  unfold FetchMetricStep.adHocInputRole at hr
  unfold FetchMetricStep.adHocSpecChecksum at hc
  unfold FetchMetricStep.adHocDerivedOutputId at hi
  cases hp : fetch.provenance with
  | none => simp [hp] at hr
  | canonical => simp [hp] at hr
  | adHoc r c i =>
    simp only [hp, Option.some.injEq] at hr hc hi
    rw [hr, hc, hi]

/-- An AD_HOC fetch of an allowed plan is the fetch of one declared input of its calculation: it carries the input's role and metric
and the identity of the calculation, and the calculation reads its projected value. -/
structure FetchesInput (step : AdHocCalculationStep D.toCalculationDigests) (context : ContextBundle)
    (item : CalculationInputSpec) (fetch : FetchMetricStep) : Prop where
  metric : ∃ key, item.metricKey = some key ∧ fetch.metricKeys = [key.val] ∧ key.val ∈ context.assetIds
  mark : fetch.provenance = .adHoc item.role (step.calculationSpec.checksum D.toCalculationDigests) step.derivedOutputId
  ref : (step.inputRefs.get? item.role).map (·.val) = some (valueRef fetch.stepId)

theorem fetchesInput_of_role (h : Allowed D v plan queryPlan context routeBudget)
    {step : AdHocCalculationStep D.toCalculationDigests} (hone : plan.adHocSteps = [step]) {fetch : FetchMetricStep}
    (hfetch : fetch ∈ plan.fetchSteps) {item : CalculationInputSpec} (hitem : item ∈ step.calculationSpec.inputs)
    (hrole : fetch.adHocInputRole = some item.role) : FetchesInput step context item fetch := by
  obtain ⟨owner, howner, howned, input, hinput, hinputRole, key, hkey, hkeys, hcontext⟩ := adHoc_fetch_declared h hfetch hrole
  rw [hone, List.mem_singleton] at howner
  subst howner
  have hsame := input_inj hinput hitem hinputRole
  subst hsame
  exact ⟨⟨key, hkey, hkeys, hcontext⟩, provenance_adHoc hrole howned.checksum howned.output, howned.ref⟩

/-- Two fetches of an allowed plan for one role are one fetch. -/
theorem adHoc_fetch_unique (h : Allowed D v plan queryPlan context routeBudget)
    {step : AdHocCalculationStep D.toCalculationDigests} {verify : VerifyStep} (hshape : AdHocShape plan step verify)
    {f g : FetchMetricStep} (hf : f ∈ plan.fetchSteps) (hg : g ∈ plan.fetchSteps) {role : RoleName}
    (hfr : f.adHocInputRole = some role) (hgr : g.adHocInputRole = some role) : f = g := by
  have hdeclared : ∀ x ∈ plan.fetchSteps, x.adHocInputRole = some role → (role, x) ∈ adHocDeclaredFetches plan step :=
    fun x hx hxr => mem_adHocDeclaredFetches.mpr ⟨hx, hshape.dependencies.2 _ (List.mem_map_of_mem hx), hxr⟩
  have hstep : step ∈ plan.adHocSteps := by
    rw [hshape.calculations]
    exact List.mem_singleton.mpr rfl
  have hsources := h.sources hstep
  obtain ⟨x, -, hx, -⟩ := hsources.fetched _ (hdeclared f hf hfr)
  have h1 := mem_fetchesOfRole.mpr (hdeclared f hf hfr)
  have h2 := mem_fetchesOfRole.mpr (hdeclared g hg hgr)
  rw [hx, List.mem_singleton] at h1 h2
  rw [h1, h2]

/-- The fetches of an allowed AD_HOC plan are those of the declared inputs of its calculation, one each. -/
theorem fetches_biject (h : Allowed D v plan queryPlan context routeBudget)
    {step : AdHocCalculationStep D.toCalculationDigests} {verify : VerifyStep} (hshape : AdHocShape plan step verify) :
    ∃ fetchOf : CalculationInputSpec → FetchMetricStep,
      Set.BijOn fetchOf { item | item ∈ step.calculationSpec.inputs } { fetch | fetch ∈ plan.fetchSteps } ∧
      ∀ item ∈ step.calculationSpec.inputs, FetchesInput step context item (fetchOf item) := by
  have hexists : ∀ item : CalculationInputSpec, item ∈ step.calculationSpec.inputs →
      ∃ fetch ∈ plan.fetchSteps, fetch.adHocInputRole = some item.role := by
    intro item hitem
    have hrole := hshape.roles.2 item.role (by rw [mem_fromKeys]; exact List.mem_map_of_mem hitem)
    exact List.mem_filterMap.mp hrole
  obtain ⟨item0, hitem0⟩ := List.exists_mem_of_length_pos step.calculationSpec.inputs_length.1
  obtain ⟨fetch0, -, -⟩ := hexists item0 hitem0
  have : Nonempty FetchMetricStep := ⟨fetch0⟩
  choose! fetchOf hmem hrole using hexists
  refine ⟨fetchOf, ⟨fun item hitem => hmem item hitem, ?_, ?_⟩, fun item hitem =>
    fetchesInput_of_role h hshape.calculations (hmem item hitem) hitem (hrole item hitem)⟩
  · intro i hi j hj hij
    have hi' := hrole i hi
    rw [hij, hrole j hj] at hi'
    exact input_inj hi hj (Option.some.inj hi').symm
  · intro fetch hfetch
    obtain ⟨role, hr⟩ := Option.isSome_iff_exists.mp (hshape.marked fetch hfetch)
    have hdeclared := hshape.roles.1 role (List.mem_filterMap.mpr ⟨fetch, hfetch, hr⟩)
    rw [mem_fromKeys] at hdeclared
    obtain ⟨item, hitem, rfl⟩ := List.mem_map.mp hdeclared
    exact ⟨item, hitem, adHoc_fetch_unique h hshape (hmem item hitem) hfetch (hrole item hitem) hr⟩

end AdHoc

end PlanAux

open PlanAux

/-- No fetch authority over bound metrics, exactly. In a plan the validator allows, no fetch carries a metric that the catalog binds
to a calculation if and only if no ordinary fetch carries such a metric that was not requested: the marked fetches never do, and
of the ordinary ones the validator looks at the requested metrics only. -/
theorem bound_fetch_iff (D : PlanDigests) (v : PlanValidator) (catalog : ApprovedCalculationCatalog)
    (hcatalog : v.calculationCatalog = some catalog) (plan : ExecutionPlan D.toCalculationDigests) (queryPlan : QueryPlan)
    (context : ContextBundle) (routeBudget : RouteBudget) (hallow : v.Allows D plan queryPlan context routeBudget) :
    (∀ fetch ∈ plan.fetchSteps, ∀ key ∈ fetch.metricKeys, catalog.bindingFor key = none) ↔
      ∀ fetch ∈ plan.fetchSteps, fetch.provenance = .none → ∀ key ∈ fetch.metricKeys,
        (catalog.bindingFor key).isSome = true → key ∈ queryPlan.metricKeys := by
  obtain ⟨-, -, h⟩ := allowed_iff.mp hallow
  constructor
  · intro hnone fetch hfetch _ key hkey hbound
    rw [hnone fetch hfetch key hkey] at hbound
    nomatch hbound
  · intro hordinary fetch hfetch key hkey
    cases hp : fetch.provenance with
    | none =>
      by_contra hne
      have hbound : (catalog.bindingFor key).isSome = true := Option.isSome_iff_ne_none.mpr hne
      have hrequested := hordinary fetch hfetch hp key hkey hbound
      exact ((validateBoundOutputs_eq_nil_iff.mp (h.bound hcatalog).1).2 key hrequested hbound).2 fetch hfetch hkey
    | canonical role checksum output =>
      have hrole : fetch.calculationInputRole = some role := by simp only [FetchMetricStep.calculationInputRole, hp]
      exact canonical_fetch_unbound h hcatalog hfetch hrole hkey
    | adHoc role checksum output =>
      have hrole : fetch.adHocInputRole = some role := by simp only [FetchMetricStep.adHocInputRole, hp]
      obtain ⟨step, hstep, -, item, hitem, -, metric, hmetric, hkeys, -⟩ := adHoc_fetch_declared h hfetch hrole
      rw [hkeys, List.mem_singleton] at hkey
      rw [hkey]
      exact h.sources_unbound hstep hcatalog hitem hmetric

/-! ## A request over one catalog -/

/-- The release of the request. -/
def salesRelease : Uuid := ⟨"11111111-1111-4111-8111-111111111111", by decide⟩

/-- The schema snapshot of the request. -/
def salesSnapshot : Uuid := ⟨"22222222-2222-4222-8222-222222222222", by decide⟩

/-- The context of the request: two metrics, no join. -/
def salesContext : ContextBundle where
  semanticReleaseId := salesRelease
  schemaSnapshotId := salesSnapshot
  domains := ["sales"]
  assetIds := ["revenue", "gross_profit"]
  approvedRelationIds := []
  approvedEdgeIds := []
  resolutionStatus := .resolved
  unresolvedSlots := []
  conflictIds := []
  degradationFlags := []
  tokenCost := 0
  evidenceCount := 0
  domains_length := by decide
  assets_length := by decide
  relations_length := by decide
  edges_length := no_words_length
  slots_length := no_words_length
  conflicts_length := no_words_length
  flags_length := no_words_length
  cost_bound := by decide
  evidence_bound := by decide
  all_valid := by decide

theorem january_bounds : 1 ≤ 1 ∧ 1 ≤ 12 := by decide

def januaryEnd : Date := ⟨2026, 1, 31, by decide, january_bounds, by decide⟩

def askedOn : Date := { januaryEnd with month := 9, day := 20, month_bounds := by decide, day_bounds := by decide }

/-- A metric query of January 2026 for one metric. -/
def januaryPlan (metric : String) (h : isBlank metric = false) : QueryPlan where
  intent := .metric
  domain := ⟨"sales", by decide⟩
  metricKeys := [metric]
  dimensions := []
  filters := []
  timeRange := ⟨{ januaryEnd with day := 1, day_bounds := by decide }, januaryEnd, ⟨"Asia/Shanghai", shanghai_length⟩, by decide⟩
  availableDates := []
  grain := .day
  sourceStrategy := .aggregateFirst
  resultLimit := none
  requiredPermissions := []
  unresolvedSlots := []
  metricKeys_length := single_length metric
  metricKeys_valid := single_valid metric h
  dimensions_length := no_words_length
  dimensions_valid := by decide
  filters_length := Nat.zero_le _
  permissions_length := by decide
  permissions_valid := by decide
  slots_length := no_words_length
  slots_valid := by decide
  limit_bounds := nofun
  limit_ranking := fun _ => rfl
  dates_length := by decide
  dates_trend := fun h => absurd rfl h
  dates_ordered := List.Pairwise.nil
  dates_inside := nofun

/-- The query for revenue. -/
def revenuePlan : QueryPlan := januaryPlan "revenue" (by decide)

/-- The binding of the gross margin: the ratio of gross profit and revenue. -/
def grossMarginBinding : ApprovedCalculationBinding where
  canonicalMetricKey := ⟨"gross_margin", by decide⟩
  templateId := ⟨"ratio", by decide⟩
  templateVersion := ⟨"1.0", by decide⟩
  templateChecksum := ⟨"65e715571190f4c647fe7d23ca399227f06ed91528f0c6d840155c06e9dfafa0", isSha256_ofList rfl⟩
  inputs :=
    [⟨⟨"numerator", by decide⟩, ⟨"gross_profit", by decide⟩,
        ⟨"52a1b406f50d15cb1038849b69e3ebabf24124cc94dd3b7e2e55dd434130615b", isSha256_ofList rfl⟩⟩,
      ⟨⟨"denominator", by decide⟩, revenueKey,
        ⟨"371f7e4223809d8bce3d52f6a5358e47c4b57aa00cbe0a4d8b47d74f010dffa6", isSha256_ofList rfl⟩⟩]
  bindingRevision := ⟨"1", by decide⟩
  semanticReleaseId := ⟨"11111111-1111-4111-8111-111111111111", by decide⟩
  semanticReleaseChecksum := ⟨"a4d451ec23463726f72c43d64c710968f6b602cd653b4de8adee1b556240a829", isSha256_ofList rfl⟩
  unit := none
  precision := none
  rounding := none
  inputs_length := by decide
  roles_unique := by decide
  rounding_precision := discountedRevenue.rounding_precision

/-- The catalog of the request. -/
def marginCatalog : ApprovedCalculationCatalog := ⟨[grossMarginBinding], by decide⟩

/-- The validator of the request. -/
def marginValidator : PlanValidator :=
  ⟨"plan-validation.bootstrap.v1", [], ["typed_result_present"], some marginCatalog, Eq.refl false⟩

/-- The digests at the contracts of the request. -/
def salesDigests : PlanDigests where
  toCalculationDigests := discountedRevenueDigests
  queryPlan _ := ⟨"27b78247750b570f4e70340c5b4dabb8dc0adfbcfc7cdcb5baa9effd8817ffb1", isSha256_ofList rfl⟩
  context _ := ⟨"69d4c82e2377088249efe3da25176b6d3240dfc248f47c12cfa153f9b4ee0974", isSha256_ofList rfl⟩
  executionPlan plan :=
    if plan.adHocSteps.length = 1
    then ⟨"09dcc61e00576a221c87b0ef1fc49cfea731a826e93f4e8b485638099ee6f909", isSha256_ofList rfl⟩
    else if plan.fetchSteps.flatMap (·.metricKeys) = ["revenue"]
    then ⟨"ff44681eb6086c0569d5ea5a887df443f53211986b7bfd6cad1c28cc8bd83632", isSha256_ofList rfl⟩
    else ⟨"74157b3c9d9e2ee963b09790f272102b6b327fa4e41aad8ce0cb865292c259a7", isSha256_ofList rfl⟩
  template _ := ⟨"65e715571190f4c647fe7d23ca399227f06ed91528f0c6d840155c06e9dfafa0", isSha256_ofList rfl⟩
  approvedBinding _ := ⟨"5a9b4b7728786a1bf913dce8b094185c1d8f8bb4f55917675553b45d07442862", isSha256_ofList rfl⟩
  policy _ _ _ _ := ⟨"88a14168054a09c15a1a6e1cc5d90732b55e45cd358574a1b2ec7904398e064e", isSha256_ofList rfl⟩

/-- One ordinary fetch of some metrics and its verification: what `compile` emits when nothing is bound. -/
def fetchAndVerify (keys : List String) (hlen : 1 ≤ keys.length ∧ keys.length ≤ 16) (hnodup : keys.Nodup) :
    List (PlanStep salesDigests.toCalculationDigests) :=
  [.fetch ⟨fetchMetricsId, keys, [], .none, hlen, hnodup, by decide, by decide, fun h => absurd rfl h⟩,
    .verify (.ofStep verifyResultId fetchMetricsId)]

def compilerVersion : BoundedText 1 128 := ⟨"plan-compiler.v1", by decide⟩

/-- A plan of the request. -/
def salesPlan (steps : List (PlanStep salesDigests.toCalculationDigests)) (hlen : 1 ≤ steps.length ∧ steps.length ≤ 16)
    (hdag : ValidTypedDag steps) : ExecutionPlan salesDigests.toCalculationDigests :=
  ⟨⟨"27b78247750b570f4e70340c5b4dabb8dc0adfbcfc7cdcb5baa9effd8817ffb1", isSha256_ofList rfl⟩, salesRelease, salesSnapshot,
    compilerVersion, steps, hlen, hdag⟩

/-- A plan is allowed when the validator's record says so. -/
theorem PlanAux.allows_of_outcome {D : PlanDigests} {v : PlanValidator} {plan : ExecutionPlan D.toCalculationDigests}
    {queryPlan : QueryPlan} {context : ContextBundle} {routeBudget : RouteBudget}
    (h : (v.validateExecutionPlan D plan queryPlan context routeBudget).map (·.outcome) = some .allow) :
    v.Allows D plan queryPlan context routeBudget := by
  obtain ⟨r, hr, hout⟩ := Option.map_eq_some_iff.mp h
  exact ⟨r, hr, hout⟩

/-- A plan that fetches revenue alone has a fetch, and no fetch of it carries a bound metric. -/
theorem bound_fetch_revenue :
    (salesPlan (fetchAndVerify ["revenue"] (by decide) (by decide)) (by decide) (by decide)).fetchSteps ≠ [] ∧
    ∀ fetch ∈ (salesPlan (fetchAndVerify ["revenue"] (by decide) (by decide)) (by decide) (by decide)).fetchSteps,
      ∀ key ∈ fetch.metricKeys, marginCatalog.bindingFor key = none := by
  refine ⟨by decide, ?_⟩
  refine (bound_fetch_iff salesDigests marginValidator marginCatalog rfl _ revenuePlan salesContext
    (bootstrapRoutingBudgetPolicy.routes .standard) (allows_of_outcome (by decide))).mpr ?_
  decide

/-- The gross margin is bound and not requested, and a plan that fetches it beside revenue is allowed. -/
theorem bound_fetch_allowed :
    (marginValidator.validateExecutionPlan salesDigests
      (salesPlan (fetchAndVerify ["revenue", "gross_margin"] (by decide) (by decide)) (by decide) (by decide)) revenuePlan salesContext
      (bootstrapRoutingBudgetPolicy.routes .standard)).map (·.outcome) = some .allow ∧
    ∃ fetch ∈ (salesPlan (fetchAndVerify ["revenue", "gross_margin"] (by decide) (by decide)) (by decide) (by decide)).fetchSteps,
      ∃ key ∈ fetch.metricKeys, (marginCatalog.bindingFor key).isSome = true := by
  decide

/-- The validator is sound for AD_HOC plans. A plan it allows that holds an AD_HOC calculation consists of that calculation, one
verification of it alone, and one fetch for each declared input, in bijection with them: a fetch carries the role, the metric and the
identity of the calculation, which reads its projected value. The metrics are pairwise distinct, they are those of the query plan,
they are in the context, and none of them is bound by the catalog. -/
theorem ad_hoc_plan_sound (D : PlanDigests) (v : PlanValidator) (plan : ExecutionPlan D.toCalculationDigests) (queryPlan : QueryPlan)
    (context : ContextBundle) (routeBudget : RouteBudget) (hallow : v.Allows D plan queryPlan context routeBudget)
    (step : AdHocCalculationStep D.toCalculationDigests) (hstep : step ∈ plan.adHocSteps) :
    plan.adHocSteps = [step] ∧ plan.trustedSteps = [] ∧ plan.fetchSteps.length = step.calculationSpec.inputs.length ∧
    (∃ verify, plan.verifySteps = [verify] ∧ verify.dependsOn = [step.stepId] ∧ verify.inputRefs.map (·.val) = [step.stepId.val]) ∧
    (∃ fetchOf : CalculationInputSpec → FetchMetricStep,
      Set.BijOn fetchOf { item | item ∈ step.calculationSpec.inputs } { fetch | fetch ∈ plan.fetchSteps } ∧
      ∀ item ∈ step.calculationSpec.inputs, (∃ key, item.metricKey = some key ∧ (fetchOf item).metricKeys = [key.val]) ∧
        (fetchOf item).provenance =
          .adHoc item.role (step.calculationSpec.checksum D.toCalculationDigests) step.derivedOutputId ∧
        (step.inputRefs.get? item.role).map (·.val) = some (valueRef (fetchOf item).stepId)) ∧
    (step.calculationSpec.inputs.filterMap fun item => item.metricKey.map (·.val)).Nodup ∧
    SameSet (step.calculationSpec.inputs.filterMap fun item => item.metricKey.map (·.val)) queryPlan.metricKeys ∧
    ∀ item ∈ step.calculationSpec.inputs, ∃ key, item.metricKey = some key ∧ key.val ∈ context.assetIds ∧
      ∀ catalog ∈ v.calculationCatalog, catalog.bindingFor key = none := by
  obtain ⟨-, -, h⟩ := allowed_iff.mp hallow
  obtain ⟨verify, hshape⟩ := h.shape hstep
  have hsources := h.sources hstep
  obtain ⟨fetchOf, hbij, hfetches⟩ := fetches_biject h hshape
  refine ⟨hshape.calculations, hshape.no_trusted, ?_, ⟨verify, hshape.verifies, hshape.verify_depends, hshape.verify_refs⟩,
    ⟨fetchOf, hbij, fun item hitem => ?_⟩, hsources.unique, hsources.requested, fun item hitem => ?_⟩
  · rw [hshape.roles_length, fromKeys_of_nodup step.calculationSpec.inputs_unique, List.length_map]
  · obtain ⟨⟨key, hkey, hkeys, -⟩, hmark, href⟩ := hfetches item hitem
    exact ⟨⟨key, hkey, hkeys⟩, hmark, href⟩
  · obtain ⟨⟨key, hkey, -, hcontext⟩, -, -⟩ := hfetches item hitem
    exact ⟨key, hkey, hcontext, fun catalog hcatalog => h.sources_unbound hstep hcatalog hitem hkey⟩

theorem rate_valid : (rateBinding (.int 2)).bindingFailures salesDigests.toCalculationDigests discountedRevenue = [] := by decide

theorem discounted_derived : isDerivedOutputId "adhoc_67a8765ad21b931fbae6a6c463603ab0" = true := by decide +kernel

theorem discounted_derived_eq : (⟨"adhoc_67a8765ad21b931fbae6a6c463603ab0", discounted_derived⟩ : DerivedOutputId) =
    derivedOutputId salesDigests.toCalculationDigests discountedRevenue (rateBinding (.int 2)) := by decide +kernel

/-- The AD_HOC plan of the request: `revenue * rate` at rate 2. -/
def discountedSteps : List (PlanStep salesDigests.toCalculationDigests) :=
  [.fetch ⟨⟨"fetch_revenue", by decide⟩, ["revenue"], [],
      .adHoc ⟨"revenue", Eq.refl true⟩ discountedRevenueChecksum ⟨"adhoc_67a8765ad21b931fbae6a6c463603ab0", discounted_derived⟩,
      by decide, by decide, by decide, by decide, fun _ => rfl⟩,
    .adHoc
      { stepId := calculateAdhocId
        calculationSpec := discountedRevenue
        executionBinding := rateBinding (.int 2)
        inputRefs := ⟨[(⟨"revenue", Eq.refl true⟩, ⟨"fetch_revenue.value", by decide⟩)], by decide⟩
        dependsOn := [⟨"fetch_revenue", by decide⟩]
        derivedOutputId := ⟨"adhoc_67a8765ad21b931fbae6a6c463603ab0", discounted_derived⟩
        refs_length := by decide
        depends_length := by decide
        depends_unique := by decide
        binding_valid := rate_valid
        refs_roles := by decide
        derived_eq := discounted_derived_eq },
    .verify (.ofStep verifyResultId calculateAdhocId)]

/-- In that plan there is one fetch for the one declared input. -/
theorem ad_hoc_plan_discounted :
    (salesPlan discountedSteps (by decide) (by decide)).adHocSteps ≠ [] ∧
    ∀ step ∈ (salesPlan discountedSteps (by decide) (by decide)).adHocSteps,
      (salesPlan discountedSteps (by decide) (by decide)).fetchSteps.length = step.calculationSpec.inputs.length :=
  ⟨nofun, fun step hstep =>
    (ad_hoc_plan_sound salesDigests marginValidator _ revenuePlan salesContext (bootstrapRoutingBudgetPolicy.routes .standard)
      (allows_of_outcome (by decide +kernel)) step hstep).2.2.1⟩

end Nl2Sql
