import Nl2Sql.Lemmas.Clauses
import Nl2Sql.Lib.TextSplit
import Nl2Sql.Theorems.Noninterference

/-!
# Slot-bound planning

Two ways bind the slots a person decided: `propose_with_slot_bindings` reads the question again, `replan_with_slot_bindings` refines the
plan in force. They agree exactly when the bindings leave the times of the server alone and the question did not name the placeholder
itself (`slot_bound_planning_iff`): a replan knows only the closed grammar, and only the first way rejects a placeholder that no binding
named. Over a run of replans the placeholder never stands without its open slot (`placeholder_never_escapes`).
-/

namespace Nl2Sql

open Py

/-- Both fail, or both return the same. -/
def Agree {ε α : Type} (a b : Except ε α) : Prop := (∃ e f, a = .error e ∧ b = .error f) ∨ ∃ x, a = .ok x ∧ b = .ok x

/-- The condition under which the two ways of binding slots agree: a value that its slot refuses, else a time binding that the server
need not answer, else a plan that is not resolved to the placeholder. -/
def SameReading (p : DeterministicQueryPlanProvider) (base : QueryPlan) (bindings : List SlotBinding) : Prop :=
  (∃ binding ∈ bindings, ¬ binding.Readable) ∨
    match boundTime? bindings with
    | some text => ¬ p.ServerTime text
    | none => ¬ (base.timeRange = carrierRange ∧ "time" ∉ base.unresolvedSlots)

namespace PlannerAux

/-- Agreement is having the same results. -/
theorem agree_iff {ε α : Type} {a b : Except ε α} : Agree a b ↔ ∀ x, a = .ok x ↔ b = .ok x := by
  unfold Agree
  cases a with
  | error e =>
    cases b with
    | error f => simp
    | ok y => simp
  | ok x =>
    cases b with
    | error f => simp
    | ok y =>
      simp only [reduceCtorEq, false_and, exists_false, false_or, Except.ok.injEq]
      exact ⟨fun ⟨z, hx, hy⟩ w => by rw [hx, hy], fun h => ⟨x, rfl, (h x).mp rfl⟩⟩

section Bound

variable {p : DeterministicQueryPlanProvider} {question : String} {context : ContextBundle} {base plan : QueryPlan}
  {parsed : ProposalIntent} {resolved : ResolvedTime} {bindings : List SlotBinding}

/-- The time the question's proposal resolves with a binding in place of its clause. -/
def proposeTime (p : DeterministicQueryPlanProvider) (proposal : ProposalIntent) (resolved : ResolvedTime) :
    Option String → Option ResolvedTime
  | none => some resolved
  | some text => p.resolveClause proposal.availableDates text

theorem resolveTime_bound {proposal : ProposalIntent} (hresolved : p.resolveTime proposal = some resolved) (text : Option String)
    (grain : Option QueryGrain) :
    p.resolveTime (withGrain (withTime proposal text) grain) = proposeTime p proposal resolved text := by
  cases text with
  | none => cases grain <;> exact hresolved
  | some text => cases grain <;> simp only [DeterministicQueryPlanProvider.resolveTime, withGrain, withTime, proposeTime, Bool.false_eq_true, if_false]

/-- What `propose_with_slot_bindings` returns. -/
theorem proposeWithSlotBindings_iff (hparsed : p.parseQuestion question context = .ok parsed)
    (hresolved : p.resolveTime (p.bindAvailableDates parsed) = some resolved) (hb : UserBindings bindings) :
    p.proposeWithSlotBindings question context bindings = .ok plan ↔
      (∀ b ∈ bindings, b.Readable) ∧ ∃ next,
        proposeTime p (p.bindAvailableDates parsed) resolved (boundTime? bindings) = some next ∧ next ≠ .range carrierRange ∧
        buildPlan (withGrain (withTime (p.bindAvailableDates parsed) (boundTime? bindings)) (boundGrain? bindings)) next
          parsed.candidate.contract = .ok plan := by
  have hcandidate : (withGrain (withTime (p.bindAvailableDates parsed) (boundTime? bindings)) (boundGrain? bindings)).candidate =
      parsed.candidate := by
    rw [← bindAvailableDates_candidate (p := p) parsed]
    cases boundTime? bindings <;> cases boundGrain? bindings <;> rfl
  unfold DeterministicQueryPlanProvider.proposeWithSlotBindings
  simp only [hparsed, bind_eq_ok, Except.ok.injEq, exists_eq_left', applySlotBindings, orRefuse_eq_ok, refuseIf_eq_ok,
    applySlotBindingsFrom_iff hb (fun _ _ => List.not_mem_nil)]
  constructor
  · rintro ⟨proposal, ⟨hreadable, rfl⟩, next, hnext, _, hcarrier, hplan⟩
    have hrange : next ≠ .range carrierRange := by
      rintro rfl
      obtain ⟨htext, hconflict⟩ := resolveTime_range hnext
      exact hcarrier ⟨htext, hconflict, rfl⟩
    rw [hcandidate] at hplan
    rw [resolveTime_bound hresolved] at hnext
    exact ⟨hreadable, next, hnext, hrange, hplan⟩
  · rintro ⟨hreadable, next, hnext, hrange, hplan⟩
    refine ⟨_, ⟨hreadable, rfl⟩, next, ?_, (), fun h => hrange h.2.2, ?_⟩
    · rw [resolveTime_bound hresolved]
      exact hnext
    · rw [hcandidate]
      exact hplan

/-- What `replan_with_slot_bindings` returns from the plan of the same question. -/
theorem replanWithSlotBindings_iff (hparsed : p.parseQuestion question context = .ok parsed)
    (hbase : buildPlan (p.bindAvailableDates parsed) resolved parsed.candidate.contract = .ok base) (hb : UserBindings bindings)
    (htime : (∃ b ∈ bindings, b.slot.val = "time") → resolved.isUnresolved = true)
    (hgrain : (∃ b ∈ bindings, b.slot.val = "grain") →
      (p.bindAvailableDates parsed).grain ∉ parsed.candidate.contract.supportedGrains) :
    p.replanWithSlotBindings question context base bindings = .ok plan ↔
      (∀ b ∈ bindings, b.Readable) ∧ ∃ next, replanTime p.forms p.clock resolved (boundTime? bindings) = some next ∧
        (boundTime? bindings ≠ none → next ≠ .range carrierRange) ∧
        buildPlan (withGrain (withTime (p.bindAvailableDates parsed) (boundTime? bindings)) (boundGrain? bindings)) next
          parsed.candidate.contract = .ok plan := by
  have hkeys : base.metricKeys = [parsed.candidate.assetId] := by
    obtain ⟨-, -, hkeys, -⟩ := of?_eq_some.mp (buildPlan_eq_ok.mp hbase).2
    rw [hkeys, bindAvailableDates_candidate]
  have hslots := planSlots_of_buildPlan hbase
  unfold DeterministicQueryPlanProvider.replanWithSlotBindings applySlotBindingsToPlan
  simp only [hparsed, bind_eq_ok, Except.ok.injEq, exists_eq_left', refuseIf_eq_ok, orRefuse_eq_ok, hkeys, ne_eq, not_true_eq_false,
    not_false_eq_true, true_and, exists_const, ← hslots,
    bindPlanSlotsFrom_iff hb (fun _ _ => List.not_mem_nil) (p.bindAvailableDates parsed) resolved htime hgrain]
  have hfrom (proposal : ProposalIntent) (next : ResolvedTime) :
      fromKeys (planSlots parsed.candidate.contract proposal next).unresolved =
        (planSlots parsed.candidate.contract proposal next).unresolved := fromKeys_unresolvedSlotsOf _ _ _ _ _
  constructor
  · rintro ⟨s, ⟨hreadable, next, hnext, hrange, rfl⟩, hplan⟩
    rw [hfrom] at hplan
    exact ⟨hreadable, next, hnext, hrange, (buildPlan_bound hbase _ _).mpr (by rw [hkeys]; exact hplan)⟩
  · rintro ⟨hreadable, next, hnext, hrange, hplan⟩
    refine ⟨_, ⟨hreadable, next, hnext, hrange, rfl⟩, ?_⟩
    have hplan := (buildPlan_bound hbase _ _).mp hplan
    rw [hkeys] at hplan
    rw [hfrom]
    exact hplan

/-- A plan of the bound proposal whose time is the plan's exists. -/
theorem exists_bound {proposal : ProposalIntent} {next : ResolvedTime} {contract : MetricContract}
    (hbase : buildPlan proposal resolved contract = .ok base) (text : Option String) (grain : Option QueryGrain)
    (htime : next.planRange = base.timeRange) :
    ∃ plan, buildPlan (withGrain (withTime proposal text) grain) next contract = .ok plan := by
  obtain ⟨hlength, hvalid⟩ : (planSlots contract (withGrain (withTime proposal text) grain) next).unresolved.length ≤ 16 ∧
      validIdentifiers (planSlots contract (withGrain (withTime proposal text) grain) next).unresolved :=
    unresolvedSlotsOf_valid _ _ _ _ _
  obtain ⟨plan, hplan⟩ := exists_withSlots base (planSlots contract (withGrain (withTime proposal text) grain) next).grain hlength hvalid
  refine ⟨plan, (buildPlan_bound hbase text grain).mpr ?_⟩
  rw [← htime] at hplan
  exact hplan

theorem planRange_eq {proposal : ProposalIntent} {contract : MetricContract} (hplan : buildPlan proposal resolved contract = .ok plan) :
    resolved.planRange = plan.timeRange := congrArg PlanSlots.timeRange (planSlots_of_buildPlan hplan)

/-- The time of a plan is open exactly when the proposal's is. -/
theorem time_mem_unresolvedSlots {proposal : ProposalIntent} {contract : MetricContract}
    (hplan : buildPlan proposal resolved contract = .ok plan) :
    "time" ∈ plan.unresolvedSlots ↔ proposal.timeConflict = true ∨ resolved.isUnresolved = true := by
  have hslots := congrArg PlanSlots.unresolved (planSlots_of_buildPlan hplan)
  simp only at hslots
  rw [← hslots]
  exact time_mem_unresolvedSlotsOf contract

theorem grain_mem_unresolvedSlots {proposal : ProposalIntent} {contract : MetricContract}
    (hplan : buildPlan proposal resolved contract = .ok plan) :
    "grain" ∈ plan.unresolvedSlots ↔ proposal.grain ∉ contract.supportedGrains := by
  have hslots := congrArg PlanSlots.unresolved (planSlots_of_buildPlan hplan)
  simp only at hslots
  rw [← hslots]
  exact grain_mem_unresolvedSlotsOf contract

/-- A plan is resolved to the placeholder exactly when its clause is. -/
theorem resolved_eq_carrier_iff {proposal : ProposalIntent} {contract : MetricContract}
    (hresolved : p.resolveTime proposal = some resolved) (hplan : buildPlan proposal resolved contract = .ok plan) :
    plan.timeRange = carrierRange ∧ "time" ∉ plan.unresolvedSlots ↔ resolved = .range carrierRange := by
  rw [time_mem_unresolvedSlots hplan, ← planRange_eq hplan]
  constructor
  · rintro ⟨hcarrier, hopen⟩
    cases resolved with
    | range timeRange => rw [← hcarrier]; rfl
    | unresolved reason => exact absurd (Or.inr rfl) hopen
  · rintro rfl
    refine ⟨rfl, ?_⟩
    rintro (hconflict | hopen)
    · have := (resolveTime_range hresolved).2
      rw [hconflict] at this
      cases this
    · cases hopen

theorem boundTime?_slot {text : String} (h : boundTime? bindings = some text) : ∃ b ∈ bindings, b.slot.val = "time" := by
  by_contra hnone
  push Not at hnone
  rw [boundTime?_eq_none hnone] at h
  nomatch h

end Bound

end PlannerAux

open PlannerAux in
/-- For every question that `propose` accepts and all bindings by the user of distinct slots among the time and the grain that its plan
leaves open, the two ways of binding them agree exactly when a value is one its slot refuses, or the bound time is not one the server
answers, or, where no time is bound, the question's own clause is not the placeholder. -/
theorem slot_bound_planning_iff (p : DeterministicQueryPlanProvider) (question : String) (context : ContextBundle) (base : QueryPlan)
    (bindings : List SlotBinding) (hbase : p.propose question context = .ok base)
    (huser : ∀ binding ∈ bindings, binding.source = .user)
    (hslots : ∀ binding ∈ bindings, binding.slot.val = "time" ∨ binding.slot.val = "grain")
    (hopen : ∀ binding ∈ bindings, binding.slot.val ∈ base.unresolvedSlots) (hdistinct : (bindings.map (·.slot.val)).Nodup) :
    Agree (p.proposeWithSlotBindings question context bindings) (p.replanWithSlotBindings question context base bindings) ↔
      SameReading p base bindings := by
  have hb : UserBindings bindings := ⟨huser, hslots, hdistinct⟩
  unfold DeterministicQueryPlanProvider.propose at hbase
  simp only [bind_eq_ok, orRefuse_eq_ok, bindAvailableDates_candidate] at hbase
  obtain ⟨parsed, hparsed, resolved, hresolved, hplan⟩ := hbase
  have hcarries := bindAvailableDates_carries (p := p) (parseQuestion_availableDates hparsed)
  have htime : (∃ b ∈ bindings, b.slot.val = "time") → resolved.isUnresolved = true := by
    rintro ⟨b, hmem, hslot⟩
    rcases (time_mem_unresolvedSlots hplan).mp (hslot ▸ hopen b hmem) with hconflict | hunresolved
    · exact resolveTime_conflict hresolved hconflict
    · exact hunresolved
  have hgrain : (∃ b ∈ bindings, b.slot.val = "grain") →
      (p.bindAvailableDates parsed).grain ∉ parsed.candidate.contract.supportedGrains := by
    rintro ⟨b, hmem, hslot⟩
    exact (grain_mem_unresolvedSlots hplan).mp (hslot ▸ hopen b hmem)
  rw [agree_iff]
  simp only [proposeWithSlotBindings_iff hparsed hresolved hb, replanWithSlotBindings_iff hparsed hplan hb htime hgrain]
  unfold SameReading
  by_cases hreadable : ∀ b ∈ bindings, b.Readable
  · have hno : ¬ ∃ b ∈ bindings, ¬ b.Readable := by
      rintro ⟨b, hmem, hnot⟩
      exact hnot (hreadable b hmem)
    simp only [eq_true hreadable, hno, true_and, false_or]
    cases hbound : boundTime? bindings with
    | none =>
      simp only [proposeTime, replanTime, Option.some.injEq, exists_eq_left', ne_eq, not_true_eq_false, false_implies, true_and]
      rw [resolved_eq_carrier_iff hresolved hplan]
      constructor
      · rintro h rfl
        obtain ⟨plan, hexists⟩ := exists_bound hplan none (boundGrain? bindings) (planRange_eq hplan)
        exact ((h plan).mpr hexists).1 rfl
      · intro hne x
        exact ⟨fun h => h.2, fun h => ⟨hne, h⟩⟩
    | some text =>
      simp only [proposeTime, replanTime, ne_eq, reduceCtorEq, not_false_eq_true, forall_const]
      have hunresolved := htime (boundTime?_slot hbound)
      constructor
      · intro h hserver
        obtain ⟨reason, hreason⟩ := resolveTimeExpression_server (U := p.forms) p.clock (Or.imp And.left And.left hserver)
        have hcarrier : (ResolvedTime.unresolved reason).planRange = base.timeRange := by
          rw [← planRange_eq hplan]
          cases resolved with
          | range timeRange => cases hunresolved
          | unresolved other => rfl
        obtain ⟨plan, hexists⟩ := exists_bound hplan (some text) (boundGrain? bindings) hcarrier
        obtain ⟨next, hnext, -, hother⟩ := (h plan).mpr ⟨_, hreason, (fun heq => by cases heq), hexists⟩
        -- The plan of the question has its time resolved, the plan of the replan has it open.
        have hmem := (time_mem_unresolvedSlots hexists).mpr (Or.inr rfl)
        have hconflict : (withGrain (withTime (p.bindAvailableDates parsed) (some text)) (boundGrain? bindings)).timeConflict = false := by
          cases boundGrain? bindings <;> rfl
        rcases (time_mem_unresolvedSlots hother).mp hmem with hconflict' | hnot
        · rw [hconflict] at hconflict'
          cases hconflict'
        · rw [resolveClause_server hcarries hserver hnext] at hnot
          cases hnot
      · intro hserver x
        rcases resolveClause_grammar hcarries hserver with heq | ⟨a, b, ha, hb'⟩
        · rw [heq]
        · rw [ha, hb']
          simp only [Option.some.injEq, exists_eq_left', reduceCtorEq, not_false_eq_true, true_and]
          rfl
  · have hsome : ∃ b ∈ bindings, ¬ b.Readable := by
      push Not at hreadable
      exact hreadable
    simp only [hreadable, false_and, hsome, true_or, implies_true]

/-! ## The latest authoritative date -/

/-- The release of the complaints, with the metric marked as one. -/
def plannerRelease : SemanticRelease :=
  { complaintRelease with
    documents := complaintRelease.documents.map fun document =>
      if document.documentId = "metric.complaint_count" then
        { document with metadata := document.metadata.set "asset_type" "metric" }
      else document }

def dayBefore : Date := { askedOn with day := 19, day_bounds := by decide }

/-- The provider on 20 September 2026, when the server knows the data of the 19th. -/
def septemberProvider : DeterministicQueryPlanProvider where
  forms := plainForms
  parseContract _ := some complaintCount
  activeRelease := .release plannerRelease
  clock := .date askedOn
  availabilityWindow := none
  authoritativeDate := some dayBefore

/-- The time bound to the latest authoritative date, by the user. -/
def latestBinding : SlotBinding :=
  ⟨⟨"time", by decide⟩, .scalar (.str "latest_authoritative"), .user, by decide, by decide +kernel⟩

/-- What a question without a time asks for. -/
def untimedProposal : ProposalIntent where
  candidate := ⟨"metric.complaint_count", "complaint_count", "Complaints", complaintCount⟩
  timeText := none
  timeConflict := false
  grain := .day
  dimension := none
  intent := .metric
  resultLimit := none
  filters := []
  availableDates := []

namespace PlannerAux

/-- A document whose text is a definition of its own. -/
theorem contractOf?_eq_some {parseContract : String → Option MetricContract} {document : SemanticDocument} {contract : MetricContract}
    (hfilled : isBlank ((document.metadata.get? "execution_contract").getD "") = false) (hparse : ∀ raw, parseContract raw = some contract)
    (hid : contract.assetId = document.documentId) : contractOf? parseContract document = some contract := by
  unfold contractOf?
  simp only [hfilled, Bool.false_eq_true, if_false, hparse, hid, ne_eq, not_true_eq_false]

theorem complaintText_filled :
    isBlank (((complaintRelease.documents.head?.map (·.metadata)).bind (·.get? "execution_contract")).getD "") = false := by
  rw [isBlank_eq_false_iff]
  refine ⟨'\x7b', ?_, by decide⟩
  change '\x7b' ∈ String.toList ("\x7b\"metric_key\":\"complaint_count\",\"display_name\":\"Complaints\",\"owner\":\"service\"," ++ _ ++ _ ++ _ ++ _)
  simp only [String.toList_append, List.mem_append]
  exact Or.inl (Or.inl (Or.inl (Or.inl (by decide))))

/-- The one candidate of the release. -/
theorem plannerCandidates : releaseCandidates (fun _ => some complaintCount) plannerRelease (some complaintContext.assetIds) =
    [untimedProposal.candidate] := by
  have hdocuments : ∃ first second : SemanticDocument, plannerRelease.documents = [first, second] ∧
      first.documentId = "metric.complaint_count" ∧ first.metadata.get? "asset_type" = some "metric" ∧
      first.metadata.get? "status" = some "active" ∧ isBlank ((first.metadata.get? "execution_contract").getD "") = false ∧
      second.metadata.get? "asset_type" ≠ some "metric" := by
    unfold plannerRelease complaintRelease
    simp only [List.map_cons, List.map_nil, if_true, String.reduceEq, if_false]
    refine ⟨_, _, rfl, rfl, Dict.get?_set_self _ _ _, ?_, ?_, by decide⟩
    · rw [Dict.get?_set_of_ne _ _ (by decide)]
      rfl
    · rw [Dict.get?_set_of_ne _ _ (by decide)]
      exact complaintText_filled
  obtain ⟨first, second, heq, hid, htype, hstatus, hfilled, hother⟩ := hdocuments
  have hfirst : addCandidate (fun _ => some complaintCount) (some complaintContext.assetIds) [] first = [untimedProposal.candidate] := by
    unfold addCandidate
    rw [if_neg, contractOf?_eq_some hfilled (fun _ => rfl) (hid ▸ by decide)]
    · rw [hid]
      rfl
    · rw [htype, hstatus, hid]
      decide
  rw [releaseCandidates, heq, List.foldl_cons, List.foldl_cons, List.foldl_nil, hfirst, addCandidate, if_pos (Or.inl hother)]
  rfl

/-- A character that is in lower case stays in a text that is normalized. -/
theorem mem_normalize {s : String} {c : Char} (hspace : isSpace c = false) (hlower : lowerChar c = c) (h : c ∈ s.toList) :
    c ∈ (plainForms.normalize s).toList := by
  have hstripped : c ∈ (strip s).toList := (mem_strip_or h).resolve_right (by rw [hspace]; decide)
  refine mem_join_words hspace ?_
  change c ∈ (lower (strip s)).toList
  rw [lower, String.toList_ofList]
  exact List.mem_map.mpr ⟨c, hstripped, hlower⟩

/-- A question without a word of the presenter phrases is none of them. -/
theorem frozen_unchanged {question : String} (h : '报' ∉ (plainForms.normalize question).toList) :
    normalizeFrozenRealQuestion plainForms question = question := by
  have hchars {cs : List Char} (hmem : '报' ∈ cs) : '报' ∈ (String.ofList cs).toList := by rwa [String.toList_ofList]
  have hword : ∀ phrase ∈ frozenRealLatestPhrases ++ frozenRealRecentPhrases, '报' ∈ phrase.toList := by
    simp only [frozenRealLatestPhrases, frozenRealRecentPhrases, List.cons_append, List.nil_append, List.forall_mem_cons]
    exact ⟨hchars (by decide), hchars (by decide), hchars (by decide), hchars (by decide), fun _ h => absurd h List.not_mem_nil⟩
  have hother {phrases : List String} (hphrases : phrases ⊆ frozenRealLatestPhrases ++ frozenRealRecentPhrases) :
      plainForms.normalize question ∉ phrases.map plainForms.normalize := by
    intro hmem
    obtain ⟨phrase, hphrase, heq⟩ := List.mem_map.mp hmem
    rw [← heq] at h
    exact h (mem_normalize (by decide) (by decide) (hword phrase (hphrases hphrase)))
  rw [normalizeFrozenRealQuestion, if_neg (hother (List.subset_append_left _ _)), if_neg (hother (List.subset_append_right _ _))]

/-- A question whose tokens match the candidate of the release selects it. -/
theorem planner_detects {question : String} {length : Nat}
    (hbest : (words (plainForms.normalize question)).foldl (fun best token => improveMatch plainForms token best untimedProposal.candidate)
      (0, []) = (length + 1, ["metric.complaint_count"])) :
    detectMetricCandidates plainForms (fun _ => some complaintCount) question plannerRelease (some complaintContext.assetIds) =
      [untimedProposal.candidate] := by
  unfold detectMetricCandidates
  simp only [plannerCandidates, List.foldl_cons, List.foldl_nil, hbest]
  rfl

theorem untimed_normalized : plainForms.normalize "metric=complaint_count" = "metric=complaint_count" := by decide +kernel

theorem untimed_words : words (plainForms.normalize "metric=complaint_count") = ["metric=complaint_count"] := by
  rw [untimed_normalized]
  decide +kernel

theorem untimed_best : (words (plainForms.normalize "metric=complaint_count")).foldl
    (fun best token => improveMatch plainForms token best untimedProposal.candidate) (0, []) = (14 + 1, ["metric.complaint_count"]) := by
  rw [untimed_words]
  decide +kernel

theorem untimed_selector : checkSelector plainForms untimedProposal.candidate "metric=complaint_count" = .ok () := by
  have hpartition : partition '=' "metric=complaint_count" = ("metric", some "complaint_count") := by decide +kernel
  rw [checkSelector, hpartition]
  exact if_neg (not_not.mpr rfl)

theorem untimed_frozen : normalizeFrozenRealQuestion plainForms "metric=complaint_count" = "metric=complaint_count" :=
  frozen_unchanged (by rw [untimed_normalized]; decide)

/-- A question that selects one metric of the bound release is parsed for it. -/
theorem parseQuestion_of_detected {p : DeterministicQueryPlanProvider} {question normalized : String} {context : ContextBundle}
    {release : SemanticRelease} {candidate : MetricCandidate} (hrelease : p.activeRelease = .release release)
    (hid : release.releaseId = context.semanticReleaseId.val) (hfrozen : normalizeFrozenRealQuestion p.forms question = normalized)
    (hdetected : detectMetricCandidates p.forms p.parseContract normalized release (some context.assetIds) = [candidate]) :
    p.parseQuestion question context = parseProposal p.forms normalized candidate := by
  unfold DeterministicQueryPlanProvider.parseQuestion
  simp only [hrelease, hid, ne_eq, not_true_eq_false, if_false, hfrozen, hdetected]

/-- The question is parsed once; what follows it is evaluated from here. -/
theorem untimed_parsed : septemberProvider.parseQuestion "metric=complaint_count" complaintContext = .ok untimedProposal := by
  have hparsed : parseProposal plainForms "metric=complaint_count" untimedProposal.candidate = .ok untimedProposal :=
    ClauseAux.parseProposal_eq_ok.mpr
      ⟨_, [], [], untimed_words, untimed_selector, rfl, List.Pairwise.nil, fun _ h => absurd h List.not_mem_nil, rfl⟩
  exact (parseQuestion_of_detected (p := septemberProvider) rfl (by decide) untimed_frozen (planner_detects untimed_best)).trans hparsed

/-- `propose`, from the parsed question. -/
theorem untimed_proposed : septemberProvider.propose "metric=complaint_count" complaintContext =
    (orRefuse .validationError (septemberProvider.resolveTime untimedProposal) >>= fun resolved =>
      buildPlan untimedProposal resolved complaintCount) := by
  rewrite [DeterministicQueryPlanProvider.propose, untimed_parsed]
  rfl

/-- `replan_with_slot_bindings`, from the parsed question. -/
theorem untimed_replanned (base : QueryPlan) (bindings : List SlotBinding) :
    septemberProvider.replanWithSlotBindings "metric=complaint_count" complaintContext base bindings =
      (refuseIf (base.metricKeys ≠ ["metric.complaint_count"]) .replanBasePlanMetricMismatch >>= fun _ =>
        applySlotBindingsToPlan plainForms base bindings complaintCount septemberProvider.clock) := by
  rewrite [DeterministicQueryPlanProvider.replanWithSlotBindings, untimed_parsed]
  rfl

end PlannerAux

/-- The plan of a question without a time. -/
def untimedPlan : QueryPlan :=
  (septemberProvider.propose "metric=complaint_count" complaintContext).toOption.get (by rewrite [PlannerAux.untimed_proposed]; decide +kernel)

namespace PlannerAux

/-- A result that is there. -/
theorem toOption_get {ε α : Type} {m : Except ε α} (h : m.toOption.isSome = true) : m = .ok (m.toOption.get h) := by
  cases m with
  | error e => nomatch h
  | ok a => rfl

theorem untimedPlan_eq : septemberProvider.propose "metric=complaint_count" complaintContext = .ok untimedPlan := toOption_get _

/-- Results that differ in a field do not agree. -/
theorem not_agree_of_map {ε α β : Type} {a b : Except ε α} {x y : β} (f : α → β) (ha : a.toOption.map f = some x)
    (hb : b.toOption.map f = some y) (hne : x ≠ y) : ¬ Agree a b := by
  rintro (⟨e, _, rfl, -⟩ | ⟨z, rfl, rfl⟩)
  · nomatch ha
  · exact hne (Option.some.inj (ha.symm.trans hb))

/-- What is said of the plan that is there is said of the result. -/
theorem map_get {ε α β : Type} {m : Except ε α} {f : α → β} {x : β} (h : m.toOption.map f = some x) (hsome : m.toOption.isSome = true) :
    f (m.toOption.get hsome) = x := by
  cases m with
  | error e => nomatch h
  | ok a => exact Option.some.inj h

/-- What the plan asks for and what it leaves open. -/
theorem untimedPlan_said : (untimedPlan.metricKeys, untimedPlan.unresolvedSlots) = (["metric.complaint_count"], ["time"]) := by
  refine map_get (f := fun plan : QueryPlan => (plan.metricKeys, plan.unresolvedSlots)) ?_ _
  rewrite [untimed_proposed]
  decide +kernel

theorem get_congr {ε α : Type} {m m' : Except ε α} (h : m = m') (hsome : m.toOption.isSome = true)
    (hsome' : m'.toOption.isSome = true) : m.toOption.get hsome = m'.toOption.get hsome' := by
  subst h
  rfl

theorem untimed_planned : (orRefuse .validationError (septemberProvider.resolveTime untimedProposal) >>= fun resolved =>
    buildPlan untimedProposal resolved complaintCount).toOption.isSome = true := by decide +kernel

/-- The plan, from the parsed question. -/
theorem untimedPlan_proposed : untimedPlan =
    (orRefuse .validationError (septemberProvider.resolveTime untimedProposal) >>= fun resolved =>
      buildPlan untimedProposal resolved complaintCount).toOption.get untimed_planned :=
  get_congr untimed_proposed _ untimed_planned

theorem time_mem_untimedPlan : "time" ∈ untimedPlan.unresolvedSlots := by
  rw [(Prod.mk.inj untimedPlan_said).2]
  decide

theorem latest_proposed :
    (septemberProvider.proposeWithSlotBindings "metric=complaint_count" complaintContext [latestBinding]).toOption.map
      QueryPlan.unresolvedSlots = some [] := by
  rewrite [DeterministicQueryPlanProvider.proposeWithSlotBindings, untimed_parsed]
  decide +kernel

theorem latest_replanned :
    (septemberProvider.replanWithSlotBindings "metric=complaint_count" complaintContext untimedPlan [latestBinding]).toOption.map
      QueryPlan.unresolvedSlots = some ["time"] := by
  rewrite [untimed_replanned, untimedPlan_proposed]
  decide +kernel

theorem latest_disagrees :
    ¬ Agree (septemberProvider.proposeWithSlotBindings "metric=complaint_count" complaintContext [latestBinding])
      (septemberProvider.replanWithSlotBindings "metric=complaint_count" complaintContext untimedPlan [latestBinding]) :=
  not_agree_of_map _ latest_proposed latest_replanned (by decide)

end PlannerAux

/-- The user binds the time to the latest authoritative date: the question read again has a time, the replan leaves it open. -/
theorem slot_bound_planning_latest :
    septemberProvider.propose "metric=complaint_count" complaintContext = .ok untimedPlan ∧ latestBinding.source = .user ∧
      latestBinding.slot.val = "time" ∧ "time" ∈ untimedPlan.unresolvedSlots ∧
      ¬ Agree (septemberProvider.proposeWithSlotBindings "metric=complaint_count" complaintContext [latestBinding])
        (septemberProvider.replanWithSlotBindings "metric=complaint_count" complaintContext untimedPlan [latestBinding]) :=
  ⟨PlannerAux.untimedPlan_eq, rfl, rfl, PlannerAux.time_mem_untimedPlan, PlannerAux.latest_disagrees⟩

/-- The time bound to the day of the clock, by the user. -/
def todayBinding : SlotBinding := ⟨⟨"time", by decide⟩, .scalar (.str "today"), .user, by decide, by decide +kernel⟩

/-- A day of the clock is bound to the same plan in both ways. -/
theorem slot_bound_planning_today :
    Agree (septemberProvider.proposeWithSlotBindings "metric=complaint_count" complaintContext [todayBinding])
      (septemberProvider.replanWithSlotBindings "metric=complaint_count" complaintContext untimedPlan [todayBinding]) := by
  have hopen : ∀ binding ∈ [todayBinding], binding.slot.val ∈ untimedPlan.unresolvedSlots := by
    intro binding hmem
    rw [List.mem_singleton] at hmem
    rw [hmem]
    exact PlannerAux.time_mem_untimedPlan
  have hserver : ¬ septemberProvider.ServerTime "today" := by decide +kernel
  exact (slot_bound_planning_iff septemberProvider "metric=complaint_count" complaintContext untimedPlan [todayBinding]
    PlannerAux.untimedPlan_eq (by decide) (by decide) hopen (by decide)).mpr (Or.inr hserver)

/-! ## Runs of replans -/

/-- The plans that a run of replans reaches. Each replan has its own question, context and state of the server, and its bindings name
only slots that the plan in force leaves open. -/
inductive Replans : QueryPlan → QueryPlan → Prop where
  | start (plan : QueryPlan) : Replans plan plan
  | replan {first plan next : QueryPlan} (before : Replans first plan) (p : DeterministicQueryPlanProvider) (question : String)
      (context : ContextBundle) (bindings : List SlotBinding)
      (hopen : ∀ binding ∈ bindings, binding.slot.val ∈ plan.unresolvedSlots)
      (hnext : p.replanWithSlotBindings question context plan bindings = .ok next) : Replans first next

/-- The time the question's own clauses resolve to. -/
def DeterministicQueryPlanProvider.clauseTime? (p : DeterministicQueryPlanProvider) (question : String) (context : ContextBundle) :
    Option ResolvedTime :=
  match p.parseQuestion question context with
  | .error _ => none
  | .ok proposal => p.resolveTime (p.bindAvailableDates proposal)

/-- Two plans that differ at most in their time, their grain and their open slots. -/
structure SameRequest (a b : QueryPlan) : Prop where
  intent : b.intent = a.intent
  domain : b.domain = a.domain
  metricKeys : b.metricKeys = a.metricKeys
  dimensions : b.dimensions = a.dimensions
  filters : b.filters = a.filters
  availableDates : b.availableDates = a.availableDates
  sourceStrategy : b.sourceStrategy = a.sourceStrategy
  resultLimit : b.resultLimit = a.resultLimit
  requiredPermissions : b.requiredPermissions = a.requiredPermissions

namespace PlannerAux

/-- What the loop over the bindings keeps of the slots it started from, once some slots are seen: no slot is opened, an unseen slot
stays open, a placeholder stays open, and a time that was not open stays. -/
structure Narrowed (base s : PlanSlots) (seen : List String) : Prop where
  sublist : s.unresolved.Sublist base.unresolved
  unseen : ∀ slot ∈ base.unresolved, slot ∉ seen → slot ∈ s.unresolved
  carrier : s.timeRange = carrierRange → (base.timeRange = carrierRange → "time" ∈ base.unresolved) → "time" ∈ s.unresolved
  time : "time" ∉ base.unresolved → s.timeRange = base.timeRange

theorem Narrowed.start (base : PlanSlots) : Narrowed base base [] :=
  ⟨List.Sublist.refl _, fun _ h _ => h, fun h hbase => hbase h, fun _ => rfl⟩

/-- A time binding of an open, unseen time. -/
theorem Narrowed.bindTime {base s next : PlanSlots} {seen : List String} (h : Narrowed base s seen) (hopen : "time" ∈ base.unresolved)
    (hseen : "time" ∉ seen) {resolved : ResolvedTime} (hnext : s.bindTime resolved = .ok next) :
    Narrowed base next ("time" :: seen) := by
  have htime := h.unseen "time" hopen hseen
  unfold PlanSlots.bindTime at hnext
  split at hnext
  · rw [if_pos htime] at hnext
    cases hnext
    exact ⟨h.sublist, fun slot hslot hnot => h.unseen slot hslot fun hmem => hnot (List.mem_cons_of_mem _ hmem), fun _ _ => htime,
      fun hnot => absurd hopen hnot⟩
  · split at hnext
    · nomatch hnext
    · rename_i timeRange hne
      cases hnext
      refine ⟨List.filter_sublist.trans h.sublist, fun slot hslot hnot => ?_, fun heq => absurd heq hne, fun hnot => absurd hopen hnot⟩
      rw [List.mem_cons, not_or] at hnot
      exact List.mem_filter.mpr ⟨h.unseen slot hslot hnot.2, by simpa using hnot.1⟩

/-- A grain binding of an open, unseen grain. -/
theorem Narrowed.bindGrain {base s : PlanSlots} {seen : List String} (h : Narrowed base s seen) (hopen : "grain" ∈ base.unresolved)
    (hseen : "grain" ∉ seen) (contract : MetricContract) (grain : QueryGrain) :
    Narrowed base (s.bindGrain contract grain) ("grain" :: seen) := by
  have hgrain := h.unseen "grain" hopen hseen
  unfold PlanSlots.bindGrain
  rw [if_pos hgrain]
  split
  · refine ⟨List.filter_sublist.trans h.sublist, fun slot hslot hnot => ?_, fun heq hbase => ?_, h.time⟩
    · rw [List.mem_cons, not_or] at hnot
      exact List.mem_filter.mpr ⟨h.unseen slot hslot hnot.2, by simpa using hnot.1⟩
    · exact List.mem_filter.mpr ⟨h.carrier heq hbase, by decide⟩
  · exact ⟨h.sublist, fun slot hslot hnot => h.unseen slot hslot fun hmem => hnot (List.mem_cons_of_mem _ hmem), h.carrier, h.time⟩

/-- The loop narrows the slots. -/
theorem Narrowed.bindings {U : UnicodeForms} {clock : ClockReading} {contract : MetricContract} {base s next : PlanSlots}
    {bindings : List SlotBinding} {seen : List String} (h : Narrowed base s seen)
    (hopen : ∀ binding ∈ bindings, binding.slot.val ∈ base.unresolved)
    (hnext : bindPlanSlotsFrom U clock contract seen bindings s = .ok next) : ∃ seen', Narrowed base next seen' := by
  induction bindings generalizing seen s with
  | nil =>
    cases hnext
    exact ⟨seen, h⟩
  | cons binding rest ih =>
    have hslot := hopen binding List.mem_cons_self
    have hopen := fun b hb => hopen b (List.mem_cons_of_mem _ hb)
    rw [bindPlanSlotsFrom, bind_eq_ok] at hnext
    obtain ⟨text, htext, hnext⟩ := hnext
    obtain ⟨hseen, hname, -, -⟩ := bindingText_eq_ok.mp htext
    split at hnext
    · rename_i htime
      simp only [bind_eq_ok] at hnext
      obtain ⟨resolved, -, s', hs', hnext⟩ := hnext
      rw [htime] at hslot hseen hnext
      exact ih (h.bindTime hslot hseen hs') hopen hnext
    · rename_i htime
      have hgrain : binding.slot.val = "grain" := hname.resolve_left htime
      simp only [bind_eq_ok] at hnext
      obtain ⟨grain, -, hnext⟩ := hnext
      rw [hgrain] at hslot hseen hnext
      exact ih (h.bindGrain hslot hseen contract grain) hopen hnext

/-- What one replan does. -/
theorem replan_narrows {p : DeterministicQueryPlanProvider} {question : String} {context : ContextBundle} {plan next : QueryPlan}
    {bindings : List SlotBinding} (hopen : ∀ binding ∈ bindings, binding.slot.val ∈ plan.unresolvedSlots)
    (hnext : p.replanWithSlotBindings question context plan bindings = .ok next) :
    SameRequest plan next ∧ next.unresolvedSlots.Sublist plan.unresolvedSlots ∧
      ("time" ∉ plan.unresolvedSlots → next.timeRange = plan.timeRange) ∧
      ((plan.timeRange = carrierRange → "time" ∈ plan.unresolvedSlots) →
        next.timeRange = carrierRange → "time" ∈ next.unresolvedSlots) := by
  unfold DeterministicQueryPlanProvider.replanWithSlotBindings applySlotBindingsToPlan at hnext
  simp only [bind_eq_ok, orRefuse_eq_ok] at hnext
  obtain ⟨parsed, -, _, -, s, hs, hnext⟩ := hnext
  obtain ⟨seen, hnarrow⟩ := (Narrowed.start _).bindings hopen hs
  have hnodup : s.unresolved.Nodup := hnarrow.sublist.nodup plan.slots_valid.2
  rw [fromKeys_of_nodup hnodup] at hnext
  obtain ⟨hintent, hdomain, hkeys, hdims, hfilters, htime, hdates, -, hstrategy, hlimit, hpermissions, hslots⟩ := of?_eq_some.mp hnext
  refine ⟨⟨hintent, hdomain, hkeys, hdims, hfilters, hdates, hstrategy, hlimit, hpermissions⟩, ?_, ?_, ?_⟩
  · rw [hslots]
    exact hnarrow.sublist
  · rw [htime]
    exact hnarrow.time
  · rw [htime, hslots]
    exact fun hbase heq => hnarrow.carrier heq hbase

theorem SameRequest.trans {a b c : QueryPlan} (h : SameRequest a b) (h' : SameRequest b c) : SameRequest a c :=
  ⟨h'.intent.trans h.intent, h'.domain.trans h.domain, h'.metricKeys.trans h.metricKeys, h'.dimensions.trans h.dimensions,
    h'.filters.trans h.filters, h'.availableDates.trans h.availableDates, h'.sourceStrategy.trans h.sourceStrategy,
    h'.resultLimit.trans h.resultLimit, h'.requiredPermissions.trans h.requiredPermissions⟩

/-- What a run of replans does. -/
theorem replans_narrows {first plan : QueryPlan} (h : Replans first plan) :
    SameRequest first plan ∧ plan.unresolvedSlots.Sublist first.unresolvedSlots ∧
      ("time" ∉ first.unresolvedSlots → plan.timeRange = first.timeRange) ∧
      ((first.timeRange = carrierRange → "time" ∈ first.unresolvedSlots) →
        plan.timeRange = carrierRange → "time" ∈ plan.unresolvedSlots) := by
  induction h with
  | start =>
    exact ⟨⟨rfl, rfl, rfl, rfl, rfl, rfl, rfl, rfl, rfl⟩, List.Sublist.refl _, fun _ => rfl, fun h => h⟩
  | replan before p question context bindings hopen hnext ih =>
    obtain ⟨hsame, hsub, htime, hcarrier⟩ := ih
    obtain ⟨hsame', hsub', htime', hcarrier'⟩ := replan_narrows hopen hnext
    refine ⟨SameRequest.trans hsame hsame', hsub'.trans hsub, fun hnot => ?_, fun hbase => hcarrier' (hcarrier hbase)⟩
    rw [htime' fun hmem => hnot (hsub.subset hmem), htime hnot]

end PlannerAux

open PlannerAux in
/-- Over any run of one proposal, whose question's own clauses do not resolve to the placeholder, and replans of open slots: a plan
with the placeholder for its time has its time open; and from each plan on, the replans change only the time, the grain and the open
slots, open no slot, and change no time that is resolved. -/
theorem placeholder_never_escapes (p : DeterministicQueryPlanProvider) (question : String) (context : ContextBundle) (base : QueryPlan)
    (hbase : p.propose question context = .ok base) (hclause : p.clauseTime? question context ≠ some (.range carrierRange))
    (plan : QueryPlan) (hplan : Replans base plan) :
    (plan.timeRange = carrierRange → "time" ∈ plan.unresolvedSlots) ∧
      ∀ later, Replans plan later → SameRequest plan later ∧ later.unresolvedSlots.Sublist plan.unresolvedSlots ∧
        ("time" ∉ plan.unresolvedSlots → later.timeRange = plan.timeRange) := by
  unfold DeterministicQueryPlanProvider.propose at hbase
  simp only [bind_eq_ok, orRefuse_eq_ok] at hbase
  obtain ⟨parsed, hparsed, resolved, hresolved, hbuilt⟩ := hbase
  have hcarrier : base.timeRange = carrierRange → "time" ∈ base.unresolvedSlots := by
    intro htime
    by_contra hnot
    have heq := (resolved_eq_carrier_iff hresolved hbuilt).mp ⟨htime, hnot⟩
    apply hclause
    rw [DeterministicQueryPlanProvider.clauseTime?, hparsed, ← heq]
    exact hresolved
  refine ⟨(replans_narrows hplan).2.2.2 hcarrier, fun later hlater => ?_⟩
  obtain ⟨hsame, hsub, htime, -⟩ := replans_narrows hlater
  exact ⟨hsame, hsub, htime⟩

/-- The plan with the day of the clock. -/
def todayPlan : QueryPlan :=
  (septemberProvider.replanWithSlotBindings "metric=complaint_count" complaintContext untimedPlan [todayBinding]).toOption.get
    (by rewrite [PlannerAux.untimed_replanned, PlannerAux.untimedPlan_proposed]; decide +kernel)

namespace PlannerAux

theorem todayPlan_eq :
    septemberProvider.replanWithSlotBindings "metric=complaint_count" complaintContext untimedPlan [todayBinding] = .ok todayPlan :=
  toOption_get _

theorem todayPlan_closed : "time" ∉ todayPlan.unresolvedSlots := by
  have hslots : todayPlan.unresolvedSlots = [] := by
    refine map_get (f := QueryPlan.unresolvedSlots) ?_ _
    rewrite [untimed_replanned, untimedPlan_proposed]
    decide +kernel
  rw [hslots]
  decide

theorem replans_todayPlan : Replans untimedPlan todayPlan := by
  refine Replans.replan (Replans.start untimedPlan) septemberProvider "metric=complaint_count" complaintContext [todayBinding] ?_
    todayPlan_eq
  intro binding hmem
  rw [List.mem_singleton] at hmem
  rw [hmem]
  exact time_mem_untimedPlan

theorem untimed_clauseTime? :
    septemberProvider.clauseTime? "metric=complaint_count" complaintContext ≠ some (.range carrierRange) := by
  rewrite [DeterministicQueryPlanProvider.clauseTime?, untimed_parsed]
  decide +kernel

end PlannerAux

/-- The day of the clock, once bound, stays the time of the plan. -/
theorem placeholder_never_escapes_today :
    todayPlan.timeRange ≠ carrierRange ∧ ∀ later, Replans todayPlan later → later.timeRange = todayPlan.timeRange := by
  obtain ⟨hcarrier, hlater⟩ := placeholder_never_escapes septemberProvider "metric=complaint_count" complaintContext untimedPlan
    PlannerAux.untimedPlan_eq PlannerAux.untimed_clauseTime? todayPlan PlannerAux.replans_todayPlan
  exact ⟨fun heq => PlannerAux.todayPlan_closed (hcarrier heq),
    fun later h => (hlater later h).2.2 PlannerAux.todayPlan_closed⟩

end Nl2Sql
