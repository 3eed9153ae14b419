import Nl2Sql.Theorems.ClosedGrammar

/-!
# What the clauses of a question cannot do

No plan names an organization, whatever the question or the proposal (`organization_never_requested`). The order of the clauses of a
question is not heard: another order fails as well, or gives the same plan up to the order of its filters (`clause_order`).
-/

namespace Nl2Sql

open Py PlannerAux ClauseAux

/-! ## Organizations -/

/-- A plan names an organization: a dimension of one, or a filter on one that comes from an alias. -/
def QueryPlan.NamesOrganization (plan : QueryPlan) : Prop :=
  (∃ name ∈ plan.dimensions, name ∈ scopeNames) ∨ ∃ item ∈ plan.filters, item.fieldRef.val ∈ scopeNames ∧ item.source = .entityAlias

/-- The plans that calls of the planner return: of a question, of a question with bindings, of any proposal whatever, and of a plan
that it returned before. -/
inductive Planned : QueryPlan → Prop where
  | proposed {plan : QueryPlan} (p : DeterministicQueryPlanProvider) (question : String) (context : ContextBundle)
      (h : p.propose question context = .ok plan) : Planned plan
  | bound {plan : QueryPlan} (p : DeterministicQueryPlanProvider) (question : String) (context : ContextBundle) (bindings : List SlotBinding)
      (h : p.proposeWithSlotBindings question context bindings = .ok plan) : Planned plan
  | forged {plan : QueryPlan} (proposal : ProposalIntent) (resolved : ResolvedTime) (contract : MetricContract)
      (h : buildPlan proposal resolved contract = .ok plan) : Planned plan
  | replanned {base plan : QueryPlan} (before : Planned base) (p : DeterministicQueryPlanProvider) (question : String)
      (context : ContextBundle) (bindings : List SlotBinding) (h : p.replanWithSlotBindings question context base bindings = .ok plan) :
      Planned plan

namespace ClosedGrammarAux

/-- A plan is built of a proposal that names no organization. -/
theorem not_namesOrganization_of_buildPlan {proposal : ProposalIntent} {resolved : ResolvedTime} {contract : MetricContract}
    {plan : QueryPlan} (h : buildPlan proposal resolved contract = .ok plan) : ¬ plan.NamesOrganization := by
  obtain ⟨horganization, hparts⟩ := buildPlan_eq_ok.mp h
  obtain ⟨-, -, -, hdims, hfilters, -⟩ := of?_eq_some.mp hparts
  have hnone := refuseIf_eq_ok.mp horganization
  rintro (⟨name, hname, hscope⟩ | ⟨item, hitem, hscope⟩)
  · rw [hdims] at hname
    split at hname
    · exact hnone (Or.inl ⟨name, Option.mem_toList.mp (List.mem_of_mem_filter hname), hscope⟩)
    · exact List.not_mem_nil hname
  · rw [hfilters] at hitem
    exact hnone (Or.inr ⟨item, hitem, hscope⟩)

/-- A replan keeps the dimensions and the filters of its plan. -/
theorem namesOrganization_of_replan {p : DeterministicQueryPlanProvider} {question : String} {context : ContextBundle} {base plan : QueryPlan}
    {bindings : List SlotBinding} (h : p.replanWithSlotBindings question context base bindings = .ok plan) :
    plan.NamesOrganization ↔ base.NamesOrganization := by
  unfold DeterministicQueryPlanProvider.replanWithSlotBindings applySlotBindingsToPlan at h
  simp only [bind_eq_ok, orRefuse_eq_ok] at h
  obtain ⟨_, -, _, -, _, -, h⟩ := h
  obtain ⟨-, -, -, hdims, hfilters, -⟩ := of?_eq_some.mp h
  unfold QueryPlan.NamesOrganization
  rw [hdims, hfilters]

/-- The plan of an accepted question has no dimension, and its filters are of the user. -/
theorem parts_of_propose {p : DeterministicQueryPlanProvider} {question : String} {context : ContextBundle} {plan : QueryPlan}
    (h : p.propose question context = .ok plan) : plan.dimensions = [] ∧ ∀ item ∈ plan.filters, item.source = .user := by
  unfold DeterministicQueryPlanProvider.propose at h
  simp only [bind_eq_ok, parseQuestion_eq_ok] at h
  obtain ⟨_, ⟨candidate, clauses, ⟨tokens, -, hread, hdistinct, hplain⟩, rfl⟩, resolved, -, h⟩ := h
  obtain ⟨-, hparts⟩ := buildPlan_eq_ok.mp h
  obtain ⟨-, -, -, hdims, hfilters, -⟩ := of?_eq_some.mp hparts
  rw [bindAvailableDates_eq] at hdims hfilters
  simp only [(plain_parts candidate hdistinct hplain).2, Bool.false_eq_true, if_false] at hdims
  refine ⟨hdims, fun item hitem => ?_⟩
  rw [hfilters] at hitem
  obtain ⟨clause, hclause, hsome⟩ := List.mem_filterMap.mp hitem
  cases clause with
  | filter other =>
    obtain rfl := Option.some.inj hsome
    exact noOrganization_of_mapM hread hclause
  | _ => nomatch hsome

end ClosedGrammarAux

open ClosedGrammarAux in
/-- No call of the planner returns a plan that names an organization, and the plan of a question has no dimension at all and no filter
but of the user. -/
theorem organization_never_requested :
    (∀ plan, Planned plan → ¬ plan.NamesOrganization) ∧
      ∀ (p : DeterministicQueryPlanProvider) (question : String) (context : ContextBundle) (plan : QueryPlan),
        p.propose question context = .ok plan → plan.dimensions = [] ∧ ∀ item ∈ plan.filters, item.source = .user := by
  refine ⟨fun plan hplan => ?_, fun p question context plan => parts_of_propose⟩
  induction hplan with
  | proposed p question context h =>
    obtain ⟨hdims, hfilters⟩ := parts_of_propose h
    rintro (⟨name, hname, -⟩ | ⟨item, hitem, -, hsource⟩)
    · rw [hdims] at hname
      exact List.not_mem_nil hname
    · rw [hfilters item hitem] at hsource
      nomatch hsource
  | bound p question context bindings h =>
    unfold DeterministicQueryPlanProvider.proposeWithSlotBindings at h
    simp only [bind_eq_ok] at h
    obtain ⟨_, -, _, -, _, -, _, -, h⟩ := h
    exact not_namesOrganization_of_buildPlan h
  | forged proposal resolved contract h => exact not_namesOrganization_of_buildPlan h
  | replanned before p question context bindings h ih => exact fun hnames => ih ((namesOrganization_of_replan h).mp hnames)

/-- The plan of a question without a time names no organization. -/
theorem organization_never_requested_untimed :
    Planned untimedPlan ∧ ¬ untimedPlan.NamesOrganization ∧ untimedPlan.dimensions = [] :=
  have hplan : Planned untimedPlan := .proposed septemberProvider "metric=complaint_count" complaintContext untimedPlan_eq
  ⟨hplan, organization_never_requested.1 untimedPlan hplan,
    (organization_never_requested.2 septemberProvider "metric=complaint_count" complaintContext untimedPlan untimedPlan_eq).1⟩

/-! ## The order of the clauses -/

/-- Both fail, or both return a plan and the plans differ at most in the order of their filters. -/
def SamePlan (a b : Except ProposalError QueryPlan) : Prop :=
  (∃ e f, a = .error e ∧ b = .error f) ∨
    ∃ x y, a = .ok x ∧ b = .ok y ∧ x.filters.Perm y.filters ∧ y = { x with filters := y.filters, filters_length := y.filters_length }

/-- The plan of a question whose metric is known: `parse_proposal`, the time of the clauses, and `build_plan`. -/
def DeterministicQueryPlanProvider.planFor (p : DeterministicQueryPlanProvider) (question : String) (candidate : MetricCandidate) :
    Except ProposalError QueryPlan := do
  let proposal ← parseProposal p.forms question candidate
  let resolved ← orRefuse .validationError (p.resolveTime (p.bindAvailableDates proposal))
  buildPlan (p.bindAvailableDates proposal) resolved candidate.contract

namespace ClosedGrammarAux

section Order

variable {candidate : MetricCandidate} {clauses others : List Clause}

theorem DistinctClauses.perm (h : clauses.Perm others) : DistinctClauses clauses ↔ DistinctClauses others :=
  h.pairwise_iff fun hab heq => heq.trans (hab heq.symm)

theorem ClauseKind.getLast?_perm {α : Type} {kind : Clause → Option α} {make : α → Clause} (hkind : ClauseKind kind make)
    (hdistinct : DistinctClauses clauses) (h : clauses.Perm others) :
    (clauses.filterMap kind).getLast? = (others.filterMap kind).getLast? := by
  ext a
  rw [hkind.getLast?_eq_some hdistinct, hkind.getLast?_eq_some ((DistinctClauses.perm h).mp hdistinct), h.mem_iff]

/-- The clauses in another order ask for the same, up to the order of the filters and the text of a time in conflict. -/
theorem proposalOf_perm (hdistinct : DistinctClauses clauses) (h : clauses.Perm others) :
    proposalOf candidate others =
      { proposalOf candidate clauses with
        timeText := (proposalOf candidate others).timeText
        filters := (proposalOf candidate others).filters } := by
  simp only [proposalOf, ClauseKind.getLast?_perm grain_kind hdistinct h, ClauseKind.getLast?_perm dim_kind hdistinct h,
    ClauseKind.getLast?_perm intent_kind hdistinct h, (h.filterMap Clause.time?).length_eq]

/-- Without a conflict the time is that of the one clause. -/
theorem timeText_perm (h : clauses.Perm others) (hconflict : (proposalOf candidate clauses).timeConflict = false) :
    (proposalOf candidate clauses).timeText = (proposalOf candidate others).timeText := by
  have htimes := h.filterMap Clause.time?
  have hlength : (clauses.filterMap Clause.time?).length ≤ 1 := by simpa [proposalOf] using hconflict
  change (clauses.filterMap Clause.time?).getLast? = (others.filterMap Clause.time?).getLast?
  rcases htext : clauses.filterMap Clause.time? with _ | ⟨text, _ | ⟨text', rest⟩⟩
  · rw [htext] at htimes
    rw [List.nil_perm.mp htimes]
  · rw [htext] at htimes
    rw [List.singleton_perm.mp htimes]
  · rw [htext, List.length_cons, List.length_cons] at hlength
    omega

/-- A plan with other filters in their place. -/
theorem buildPlan_filters {proposal : ProposalIntent} {resolved : ResolvedTime} {contract : MetricContract} {plan : QueryPlan}
    {filters : List BoundFilter} (timeText : Option String) (hperm : proposal.filters.Perm filters)
    (hplan : buildPlan proposal resolved contract = .ok plan) :
    ∃ other, buildPlan { proposal with timeText := timeText, filters := filters } resolved contract = .ok other ∧
      plan.filters.Perm other.filters ∧ other = { plan with filters := other.filters, filters_length := other.filters_length } := by
  obtain ⟨horganization, hparts⟩ := buildPlan_eq_ok.mp hplan
  obtain ⟨hintent, hdomain, hkeys, hdims, hfilters, htime, hdates, hgrain, hstrategy, hlimit, hpermissions, hslots⟩ := of?_eq_some.mp hparts
  have hlength : filters.length ≤ 32 := by
    rw [← hperm.length_eq, ← hfilters]
    exact plan.filters_length
  refine ⟨{ plan with filters := filters, filters_length := hlength }, buildPlan_eq_ok.mpr ⟨?_, ?_⟩, hfilters ▸ hperm, rfl⟩
  · rw [requireNoOrganizationScope, refuseIf_eq_ok] at horganization ⊢
    simpa only [hperm.mem_iff] using horganization
  · exact of?_eq_some.mpr ⟨hintent, hdomain, hkeys, hdims, rfl, htime, hdates, hgrain, hstrategy, hlimit, hpermissions, hslots⟩

/-- What a proposal becomes is the same for the clauses in another order, where the time is the same. -/
theorem samePlan_buildPlan {proposal : ProposalIntent} {resolved : ResolvedTime} {contract : MetricContract} {filters : List BoundFilter}
    (timeText : Option String) (hperm : proposal.filters.Perm filters) :
    SamePlan (buildPlan proposal resolved contract) (buildPlan { proposal with timeText := timeText, filters := filters } resolved contract) := by
  cases hplan : buildPlan proposal resolved contract with
  | ok plan =>
    obtain ⟨other, hother, hfilters, heq⟩ := buildPlan_filters timeText hperm hplan
    exact Or.inr ⟨plan, other, rfl, hother, hfilters, heq⟩
  | error e =>
    cases hother : buildPlan { proposal with timeText := timeText, filters := filters } resolved contract with
    | error f => exact Or.inl ⟨e, f, rfl, rfl⟩
    | ok other =>
      obtain ⟨plan, hback, -⟩ := buildPlan_filters proposal.timeText hperm.symm hother
      rw [hplan] at hback
      nomatch hback

end Order

/-- A question whose clauses come in another order is parsed as well, to the same up to the order of its filters. -/
theorem parseProposal_perm {U : UnicodeForms} {question other selector : String} {candidate : MetricCandidate} {tokens others : List String}
    (hwords : words (U.normalize question) = selector :: tokens) (hothers : words (U.normalize other) = selector :: others)
    (hperm : tokens.Perm others) {proposal : ProposalIntent} (h : parseProposal U question candidate = .ok proposal) :
    ∃ timeText filters, parseProposal U other candidate = .ok { proposal with timeText := timeText, filters := filters } ∧
      proposal.filters.Perm filters ∧ (proposal.timeConflict = false → timeText = proposal.timeText) := by
  obtain ⟨_, _, clauses, heq, hselector, hread, hdistinct, hplain, rfl⟩ := parseProposal_eq_ok.mp h
  obtain ⟨rfl, rfl⟩ := List.cons.inj (hwords.symm.trans heq)
  obtain ⟨clauses', hread', hclauses⟩ := mapM_perm hperm hread
  refine ⟨(proposalOf candidate clauses').timeText, (proposalOf candidate clauses').filters, ?_, hclauses.filterMap _,
    fun hconflict => (timeText_perm hclauses hconflict).symm⟩
  rw [← proposalOf_perm hdistinct hclauses]
  exact parseProposal_eq_ok.mpr ⟨selector, others, clauses', hothers, hselector, hread', (DistinctClauses.perm hclauses).mp hdistinct,
    fun clause hclause => hplain clause (hclauses.mem_iff.mpr hclause), rfl⟩

/-- The dates and the time of a proposal do not depend on its filters, nor on the text of a time in conflict. -/
theorem time_perm (p : DeterministicQueryPlanProvider) {proposal : ProposalIntent} {timeText : Option String} (filters : List BoundFilter)
    (htime : proposal.timeConflict = false → timeText = proposal.timeText) :
    p.bindAvailableDates { proposal with timeText := timeText, filters := filters } =
        { p.bindAvailableDates proposal with timeText := timeText, filters := filters } ∧
      p.resolveTime (p.bindAvailableDates { proposal with timeText := timeText, filters := filters }) =
        p.resolveTime (p.bindAvailableDates proposal) := by
  by_cases hconflict : proposal.timeConflict = false
  · obtain rfl := htime hconflict
    unfold DeterministicQueryPlanProvider.bindAvailableDates DeterministicQueryPlanProvider.resolveTime
    simp only
    split <;> exact ⟨rfl, rfl⟩
  · have hunbound (other : ProposalIntent) (hother : other.timeConflict ≠ false) : p.bindAvailableDates other = other :=
      if_neg fun h => hother h.1
    have hunresolved (other : ProposalIntent) (hother : other.timeConflict ≠ false) :
        p.resolveTime other = some (.unresolved .unsupportedTimeExpression) := by
      unfold DeterministicQueryPlanProvider.resolveTime
      split
      · rfl
      · rw [if_pos (by simpa using hother)]
    rw [hunbound proposal hconflict, hunbound { proposal with timeText := timeText, filters := filters } hconflict,
      hunresolved proposal hconflict, hunresolved { proposal with timeText := timeText, filters := filters } hconflict]
    exact ⟨rfl, rfl⟩

end ClosedGrammarAux

open ClosedGrammarAux in
/-- Two questions with the same selector and the same clauses in another order both fail or give plans that differ at most in the order of
their filters: with the time that the provider resolves, and with any time that is given. -/
theorem clause_order (p : DeterministicQueryPlanProvider) (candidate : MetricCandidate) {question other selector : String}
    {tokens others : List String} (hwords : words (p.forms.normalize question) = selector :: tokens)
    (hothers : words (p.forms.normalize other) = selector :: others) (hperm : tokens.Perm others) :
    SamePlan (p.planFor question candidate) (p.planFor other candidate) ∧
      ∀ (resolved : ResolvedTime) (contract : MetricContract),
        SamePlan (parseProposal p.forms question candidate >>= fun proposal => buildPlan proposal resolved contract)
          (parseProposal p.forms other candidate >>= fun proposal => buildPlan proposal resolved contract) := by
  unfold DeterministicQueryPlanProvider.planFor
  cases hparsed : parseProposal p.forms question candidate with
  | error e =>
    have hfails : ∃ f, parseProposal p.forms other candidate = .error f := by
      cases hother : parseProposal p.forms other candidate with
      | error f => exact ⟨f, rfl⟩
      | ok proposal =>
        obtain ⟨_, _, hback, -⟩ := parseProposal_perm hothers hwords hperm.symm hother
        rw [hparsed] at hback
        nomatch hback
    obtain ⟨f, hf⟩ := hfails
    rw [hf]
    exact ⟨Or.inl ⟨e, f, rfl, rfl⟩, fun _ _ => Or.inl ⟨e, f, rfl, rfl⟩⟩
  | ok proposal =>
    obtain ⟨timeText, filters, hother, hfilters, htime⟩ := parseProposal_perm hwords hothers hperm hparsed
    rw [hother]
    refine ⟨?_, fun resolved contract => samePlan_buildPlan timeText hfilters⟩
    obtain ⟨hdates, hresolved⟩ := time_perm p filters htime
    change SamePlan (orRefuse _ (p.resolveTime (p.bindAvailableDates proposal)) >>= fun resolved =>
        buildPlan (p.bindAvailableDates proposal) resolved candidate.contract)
      (orRefuse _ (p.resolveTime (p.bindAvailableDates { proposal with timeText := timeText, filters := filters })) >>= fun resolved =>
        buildPlan (p.bindAvailableDates { proposal with timeText := timeText, filters := filters }) resolved candidate.contract)
    rw [hresolved, hdates]
    cases p.resolveTime (p.bindAvailableDates proposal) with
    | none => exact Or.inl ⟨_, _, rfl, rfl⟩
    | some resolved =>
      refine samePlan_buildPlan timeText ?_
      rw [bindAvailableDates_eq]
      exact hfilters

/-- A month of today, in both orders. -/
theorem clause_order_month :
    SamePlan (septemberProvider.planFor "metric=m grain=month time=today" untimedProposal.candidate)
      (septemberProvider.planFor "metric=m time=today grain=month" untimedProposal.candidate) := by
  have hwords : words (septemberProvider.forms.normalize "metric=m grain=month time=today") =
      "metric=m" :: ["grain=month", "time=today"] := by decide +kernel
  have hothers : words (septemberProvider.forms.normalize "metric=m time=today grain=month") =
      "metric=m" :: ["time=today", "grain=month"] := by decide +kernel
  exact (clause_order septemberProvider untimedProposal.candidate hwords hothers (.swap _ _ [])).1

end Nl2Sql
