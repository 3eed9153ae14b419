import Nl2Sql.Theorems.Planner
import Nl2Sql.Theorems.TimeGrammar

/-!
# The closed grammar of the deterministic planner

What a question may ask for, and what becomes of it. Beside a plan or a refusal, a proposal ends in an exception of another kind exactly
where a number has more digits than `int` reads, an accepted question does not fit a plan, or a clock that is sampled raises
(`propose_fails_closed_iff`).
-/

namespace Nl2Sql

open Py PlannerAux ClauseAux

/-! ## What may be raised -/

namespace DeterministicQueryPlanProvider

variable (p : DeterministicQueryPlanProvider)

/-- The metric a question selects, if it selects one. -/
def selected? (question : String) (context : ContextBundle) : Option MetricCandidate :=
  match p.activeRelease with
  | .release release =>
    if release.releaseId ≠ context.semanticReleaseId.val then none
    else
      match detectMetricCandidates p.forms p.parseContract (normalizeFrozenRealQuestion p.forms question) release
          (some context.assetIds) with
      | [candidate] => some candidate
      | _ => none
  | _ => none

/-- A question selects a metric, and the selector stands before these tokens. -/
def Selects (question : String) (context : ContextBundle) (candidate : MetricCandidate) (tokens : List String) : Prop :=
  p.selected? question context = some candidate ∧
    ∃ selector, words (p.forms.normalize (normalizeFrozenRealQuestion p.forms question)) = selector :: tokens ∧
      checkSelector p.forms candidate selector = .ok ()

/-- A question is accepted: it selects a metric, every clause is read, none is claimed twice and all are plain. -/
def Accepts (question : String) (context : ContextBundle) (candidate : MetricCandidate) (clauses : List Clause) : Prop :=
  ∃ tokens, p.Selects question context candidate tokens ∧ tokens.mapM (readClause candidate.contract) = .ok clauses ∧
    DistinctClauses clauses ∧ ∀ clause ∈ clauses, clause.Plain

/-- Clauses that fit a plan: at most 32 filters, permissions that a plan may have, and the available dates only for a trend and at most
31 of them. -/
structure Fits (contract : MetricContract) (clauses : List Clause) : Prop where
  filters : (clauses.filterMap Clause.filter?).length ≤ 32
  permissions : contract.requiredPermissions.length ≤ 32 ∧ contract.requiredPermissions.Nodup
  dates : ∀ text, clauses.filterMap Clause.time? = [text] → p.forms.clause text = "recent 7 available" → p.availableDates ≠ [] →
    Clause.intent .trend ∈ clauses ∧ p.availableDates.length ≤ 31

/-- The loop over the clauses comes to a number of more digits than `int` reads: the clauses before it are read, and its name is new. -/
def StopsAtNumber (question : String) (context : ContextBundle) : Prop :=
  ∃ candidate before token after clauses, p.Selects question context candidate (before ++ token :: after) ∧
    before.mapM (readClause candidate.contract) = .ok clauses ∧ DistinctClauses clauses ∧
    OverlongToken candidate.contract token ∧ clauseName token ∉ clauses.map Clause.name

/-- The condition under which a proposal ends in a plan or a refusal. -/
structure WithinLimits {ε : Type} (clock : Except ε ClockReading) (question : String) (context : ContextBundle) : Prop where
  numbers : ¬ p.StopsAtNumber question context
  plan : ∀ candidate clauses, p.Accepts question context candidate clauses → p.Fits candidate.contract clauses
  clock : ∀ candidate clauses text, p.Accepts question context candidate clauses → clauses.filterMap Clause.time? = [text] →
    p.forms.clause text ≠ "latest authoritative" → p.forms.clause text ≠ "recent 7 available" → ∃ reading, clock = .ok reading

end DeterministicQueryPlanProvider

namespace ClosedGrammarAux

open DeterministicQueryPlanProvider

variable {p : DeterministicQueryPlanProvider} {question : String} {context : ContextBundle}

/-! ## The question -/

theorem parseQuestion_selected {candidate : MetricCandidate} (h : p.selected? question context = some candidate) :
    p.parseQuestion question context = parseProposal p.forms (normalizeFrozenRealQuestion p.forms question) candidate := by
  unfold selected? at h
  unfold DeterministicQueryPlanProvider.parseQuestion
  cases hrelease : p.activeRelease with
  | notBound =>
    rw [hrelease] at h
    nomatch h
  | absent =>
    rw [hrelease] at h
    nomatch h
  | release release =>
    rw [hrelease] at h
    simp only at h ⊢
    by_cases hid : release.releaseId ≠ context.semanticReleaseId.val
    · rw [if_pos hid] at h
      nomatch h
    · rw [if_neg hid] at h ⊢
      split at h
      · rename_i heq
        cases h
        simp only [heq]
      · nomatch h

/-- The metric that is detected alone is selected. -/
theorem selected_of_detected {normalized : String} {release : SemanticRelease} {candidate : MetricCandidate}
    (hrelease : p.activeRelease = .release release) (hid : release.releaseId = context.semanticReleaseId.val)
    (hfrozen : normalizeFrozenRealQuestion p.forms question = normalized)
    (hdetected : detectMetricCandidates p.forms p.parseContract normalized release (some context.assetIds) = [candidate]) :
    p.selected? question context = some candidate := by
  unfold selected?
  simp only [hrelease, hid, ne_eq, not_true_eq_false, if_false, hfrozen, hdetected]

theorem parseQuestion_unselected (h : p.selected? question context = none) :
    ∃ e, p.parseQuestion question context = .error e ∧ e.isRefusal = true := by
  unfold selected? at h
  unfold DeterministicQueryPlanProvider.parseQuestion
  cases hrelease : p.activeRelease with
  | notBound => exact ⟨_, rfl, rfl⟩
  | absent => exact ⟨_, rfl, rfl⟩
  | release release =>
    rw [hrelease] at h
    simp only at h ⊢
    by_cases hid : release.releaseId ≠ context.semanticReleaseId.val
    · rw [if_pos hid]
      exact ⟨_, rfl, rfl⟩
    · rw [if_neg hid] at h ⊢
      split
      · exact ⟨_, rfl, rfl⟩
      · rename_i heq
        rw [heq] at h
        nomatch h
      · exact ⟨_, rfl, rfl⟩

/-- A question is parsed where it is accepted. -/
theorem parseQuestion_eq_ok {proposal : ProposalIntent} :
    p.parseQuestion question context = .ok proposal ↔
      ∃ candidate clauses, p.Accepts question context candidate clauses ∧ proposal = proposalOf candidate clauses := by
  cases hselected : p.selected? question context with
  | none =>
    obtain ⟨e, herror, -⟩ := parseQuestion_unselected hselected
    rw [herror]
    refine iff_of_false (fun h => nomatch h) ?_
    rintro ⟨_, _, ⟨_, ⟨h, -⟩, -⟩, -⟩
    rw [hselected] at h
    nomatch h
  | some candidate =>
    rw [parseQuestion_selected hselected, parseProposal_eq_ok]
    constructor
    · rintro ⟨selector, tokens, clauses, hwords, hselector, hread, hdistinct, hplain, rfl⟩
      exact ⟨candidate, clauses, ⟨tokens, ⟨hselected, selector, hwords, hselector⟩, hread, hdistinct, hplain⟩, rfl⟩
    · rintro ⟨candidate', clauses, ⟨tokens, ⟨h, selector, hwords, hselector⟩, hread, hdistinct, hplain⟩, rfl⟩
      obtain rfl := Option.some.inj (hselected.symm.trans h)
      exact ⟨selector, tokens, clauses, hwords, hselector, hread, hdistinct, hplain, rfl⟩

theorem parseQuestion_eq_error {e : ProposalError} (he : e.isRefusal = false) :
    p.parseQuestion question context = .error e ↔ e = .tooManyDigits ∧ p.StopsAtNumber question context := by
  cases hselected : p.selected? question context with
  | none =>
    obtain ⟨e', herror, hrefusal⟩ := parseQuestion_unselected hselected
    rw [herror]
    refine iff_of_false (fun h => ?_) ?_
    · cases h
      rw [he] at hrefusal
      cases hrefusal
    · rintro ⟨-, _, _, _, _, _, ⟨h, -⟩, -⟩
      rw [hselected] at h
      cases h
  | some candidate =>
    rw [parseQuestion_selected hselected, parseProposal_eq_error he]
    refine and_congr_right fun _ => ⟨?_, ?_⟩
    · rintro ⟨selector, _, hwords, hselector, before, token, after, clauses, rfl, hread, hdistinct, hlong, hnew⟩
      exact ⟨candidate, before, token, after, clauses, ⟨hselected, selector, hwords, hselector⟩, hread, hdistinct, hlong, hnew⟩
    · rintro ⟨_, before, token, after, clauses, ⟨h, selector, hwords, hselector⟩, hread, hdistinct, hlong, hnew⟩
      obtain rfl := Option.some.inj (hselected.symm.trans h)
      exact ⟨selector, _, hwords, hselector, before, token, after, clauses, rfl, hread, hdistinct, hlong, hnew⟩

/-! ## The time -/

theorem availableDates_ordered (p : DeterministicQueryPlanProvider) : p.availableDates.Pairwise (· < ·) := by
  unfold DeterministicQueryPlanProvider.availableDates
  split
  · exact List.Pairwise.nil
  · split
    · assumption
    · exact List.Pairwise.nil

/-- The days of a window lie between its first and its last. -/
theorem between_of_ordered {dates : List Date} (h : dates.Pairwise (· < ·)) {first last : Date} (hfirst : dates.head? = some first)
    (hlast : dates.getLast? = some last) {d : Date} (hd : d ∈ dates) : first ≤ d ∧ d ≤ last := by
  constructor
  · obtain ⟨rest, rfl⟩ := List.head?_eq_some_iff.mp hfirst
    rcases List.mem_cons.mp hd with rfl | hd
    · exact Nat.le_refl _
    · exact Nat.le_of_lt ((List.pairwise_cons.mp h).1 d hd)
  · obtain ⟨rest, rfl⟩ := List.getLast?_eq_some_iff.mp hlast
    rcases List.mem_append.mp hd with hd | hd
    · exact Nat.le_of_lt ((List.pairwise_append.mp h).2.2 d hd last (List.mem_singleton_self last))
    · rw [List.mem_singleton.mp hd]
      exact Nat.le_refl _

theorem timeRange_of? {start stop : Date} (h : start ≤ stop) : TimeRange.of? start stop = some ⟨start, stop, shanghai, h⟩ := dif_pos h

/-- No time of a clause raises. -/
theorem exists_resolveClause {dates : List Date} (hdates : dates = [] ∨ dates = p.availableDates) (text : String) :
    ∃ resolved, p.resolveClause dates text = some resolved := by
  rw [DeterministicQueryPlanProvider.resolveClause, carries_dates hdates]
  by_cases hlatest : p.forms.clause text = "latest authoritative"
  · rw [if_pos hlatest]
    split
    · exact ⟨_, rfl⟩
    · rw [timeRange_of? (Nat.le_refl _)]
      exact ⟨_, rfl⟩
  · rw [if_neg hlatest]
    by_cases hrecent : p.forms.clause text = "recent 7 available"
    · rw [if_pos hrecent]
      simp only
      split
      · rename_i first last hfirst hlast
        rw [timeRange_of? (between_of_ordered (availableDates_ordered p) hfirst hlast (List.mem_of_head? hfirst)).2]
        exact ⟨_, rfl⟩
      · exact ⟨_, rfl⟩
    · rw [if_neg hrecent]
      unfold resolveTimeExpression
      split
      · exact ⟨_, rfl⟩
      · exact ⟨_, rfl⟩
      · unfold resolveExpression
        simp only
        split
        · exact ⟨_, rfl⟩
        · split
          · exact ⟨_, rfl⟩
          · rename_i hperiod
            rw [timeRange_of? (TimeGrammarAux.periodFor_ordered hperiod)]
            exact ⟨_, rfl⟩

theorem bindAvailableDates_eq (proposal : ProposalIntent) :
    p.bindAvailableDates proposal = { proposal with availableDates := (p.bindAvailableDates proposal).availableDates } := by
  unfold DeterministicQueryPlanProvider.bindAvailableDates
  split <;> rfl

theorem exists_resolveTime (p : DeterministicQueryPlanProvider) {proposal : ProposalIntent} (hdates : proposal.availableDates = []) :
    ∃ resolved, p.resolveTime (p.bindAvailableDates proposal) = some resolved := by
  unfold DeterministicQueryPlanProvider.resolveTime
  split
  · exact ⟨_, rfl⟩
  · split
    · exact ⟨_, rfl⟩
    · exact exists_resolveClause (bindAvailableDates_carries hdates) _

/-- A proposal of clauses has one time where there is one time clause. -/
theorem singleTime_iff (candidate : MetricCandidate) {clauses : List Clause} {text : String} :
    (proposalOf candidate clauses).timeConflict = false ∧ (proposalOf candidate clauses).timeText = some text ↔
      clauses.filterMap Clause.time? = [text] := by
  simp only [proposalOf, decide_eq_false_iff_not, Nat.not_lt]
  constructor
  · rintro ⟨hlength, hlast⟩
    obtain ⟨before, heq⟩ := List.getLast?_eq_some_iff.mp hlast
    rw [heq, List.length_append, List.length_singleton] at hlength
    rw [heq, List.length_eq_zero_iff.mp (by omega : before.length = 0), List.nil_append]
  · rintro h
    rw [h]
    exact ⟨Nat.le_refl 1, rfl⟩

/-- A proposal of clauses carries the available dates where its one time asks for them. -/
theorem carried_iff (p : DeterministicQueryPlanProvider) (candidate : MetricCandidate) (clauses : List Clause) :
    (p.bindAvailableDates (proposalOf candidate clauses)).availableDates ≠ [] ↔
      p.availableDates ≠ [] ∧ ∃ text, clauses.filterMap Clause.time? = [text] ∧ p.forms.clause text = "recent 7 available" := by
  have hiff : ((proposalOf candidate clauses).timeConflict = false ∧
      (proposalOf candidate clauses).timeText.map p.forms.clause = some "recent 7 available") ↔
      ∃ text, clauses.filterMap Clause.time? = [text] ∧ p.forms.clause text = "recent 7 available" := by
    simp only [← singleTime_iff candidate, Option.map_eq_some_iff]
    exact ⟨fun ⟨h, text, htext, hclause⟩ => ⟨text, ⟨h, htext⟩, hclause⟩, fun ⟨text, ⟨h, htext⟩, hclause⟩ => ⟨h, text, htext, hclause⟩⟩
  unfold DeterministicQueryPlanProvider.bindAvailableDates
  rw [← hiff]
  split
  · rename_i h
    exact (and_iff_left h).symm
  · rename_i h
    exact iff_of_false (fun hne => hne rfl) fun h' => h h'.2

/-! ## The plan -/

/-- Parts that give a plan. -/
theorem of?_isSome {intent : QueryIntent} {domain : BoundedText 1 128} {keys dims : List String} {filters : List BoundFilter}
    {time : TimeRange} {dates : List Date} {grain : QueryGrain} {strategy : SourceStrategy} {limit : Option Nat}
    {permissions slots : List String} :
    (QueryPlan.of? intent domain keys dims filters time dates grain strategy limit permissions slots).isSome = true ↔
      ((1 ≤ keys.length ∧ keys.length ≤ 16) ∧ validIdentifiers keys ∧ dims.length ≤ 16 ∧ validIdentifiers dims ∧ filters.length ≤ 32 ∧
          permissions.length ≤ 32 ∧ validIdentifiers permissions ∧ slots.length ≤ 16 ∧ validIdentifiers slots) ∧
        (∀ n ∈ limit, 1 ≤ n ∧ n ≤ 100) ∧ (intent ≠ .ranking → limit = none) ∧ dates.length ≤ 31 ∧ (dates ≠ [] → intent = .trend) ∧
        dates.Pairwise (· < ·) ∧ ∀ d ∈ dates, time.start ≤ d ∧ d ≤ time.stop := by
  unfold QueryPlan.of?
  split
  · rename_i h
    exact iff_of_true rfl h
  · rename_i h
    exact iff_of_false (fun h' => by cases h') h

/-- The available dates that a proposal carries lie in the time it resolves to. -/
theorem dates_inside {candidate : MetricCandidate} {clauses : List Clause} {resolved : ResolvedTime}
    (hresolved : p.resolveTime (p.bindAvailableDates (proposalOf candidate clauses)) = some resolved) :
    ∀ d ∈ (p.bindAvailableDates (proposalOf candidate clauses)).availableDates,
      resolved.planRange.start ≤ d ∧ d ≤ resolved.planRange.stop := by
  intro d hd
  obtain ⟨-, text, htext, hclause⟩ := (carried_iff p candidate clauses).mp (List.ne_nil_of_mem hd)
  obtain ⟨hconflict, htext⟩ := (singleTime_iff candidate).mpr htext
  have hcarries : (p.bindAvailableDates (proposalOf candidate clauses)).availableDates = [] ∨
      (p.bindAvailableDates (proposalOf candidate clauses)).availableDates = p.availableDates := bindAvailableDates_carries rfl
  rw [bindAvailableDates_eq] at hresolved
  unfold DeterministicQueryPlanProvider.resolveTime at hresolved
  simp only [htext, hconflict, Bool.false_eq_true, if_false] at hresolved
  rw [DeterministicQueryPlanProvider.resolveClause, carries_dates hcarries, if_neg (by rw [hclause]; decide), if_pos hclause] at hresolved
  rcases hcarries with hnil | heq
  · rw [hnil] at hd
    exact absurd hd List.not_mem_nil
  · rw [heq] at hd
    obtain ⟨first, hfirst⟩ : ∃ first, p.availableDates.head? = some first :=
      Option.ne_none_iff_exists'.mp (by rw [ne_eq, List.head?_eq_none_iff]; exact List.ne_nil_of_mem hd)
    obtain ⟨last, hlast⟩ : ∃ last, p.availableDates.getLast? = some last :=
      Option.ne_none_iff_exists'.mp (by rw [ne_eq, List.getLast?_eq_none_iff]; exact List.ne_nil_of_mem hd)
    have hbetween {d : Date} (hd : d ∈ p.availableDates) := between_of_ordered (availableDates_ordered p) hfirst hlast hd
    simp only [hfirst, hlast, timeRange_of? (hbetween (List.mem_of_head? hfirst)).2, Option.map_some, Option.some.injEq] at hresolved
    rw [← hresolved]
    exact hbetween hd

theorem trend_iff {candidate : MetricCandidate} {clauses : List Clause} (h : DistinctClauses clauses) :
    (proposalOf candidate clauses).intent = .trend ↔ Clause.intent .trend ∈ clauses := by
  rw [← intent_kind.getLast?_eq_some h]
  simp only [proposalOf]
  cases (clauses.filterMap Clause.intent?).getLast? with
  | none => exact iff_of_false (fun h => nomatch h) fun h => nomatch h
  | some intent => exact Option.some_inj.symm

theorem plain_parts (candidate : MetricCandidate) {clauses : List Clause} (h : DistinctClauses clauses)
    (hplain : ∀ clause ∈ clauses, clause.Plain) :
    (∀ name ∈ (proposalOf candidate clauses).dimension, name = "city_company") ∧ (proposalOf candidate clauses).intent.grouped = false := by
  have hparts := (plain_iff (fun _ => dim_kind.getLast?_eq_some h) (fun _ => intent_kind.getLast?_eq_some h)
    fun _ => top_kind.getLast?_eq_some h).mp hplain
  exact ⟨hparts.1, hparts.2.1⟩

/-- An accepted question names no organization. -/
theorem requireNoOrganizationScope_of_plain (candidate : MetricCandidate) {clauses : List Clause}
    (horganization : ∀ clause ∈ clauses, clause.NoOrganization) (h : DistinctClauses clauses) (hplain : ∀ clause ∈ clauses, clause.Plain) :
    requireNoOrganizationScope (proposalOf candidate clauses) = .ok () := by
  rw [requireNoOrganizationScope, refuseIf_eq_ok]
  rintro (⟨name, hname, hscope⟩ | ⟨item, hitem, -, hsource⟩)
  · rw [(plain_parts candidate h hplain).1 name hname] at hscope
    revert hscope
    decide
  · obtain ⟨clause, hclause, hsome⟩ := List.mem_filterMap.mp hitem
    cases clause with
    | filter other =>
      obtain rfl := Option.some.inj hsome
      have huser : other.source = .user := horganization _ hclause
      rw [huser] at hsource
      nomatch hsource
    | _ => nomatch hsome

/-- An accepted question becomes a plan where its clauses fit one, and is rejected by the model of a plan where they do not. -/
theorem buildPlan_accepted {candidate : MetricCandidate} {clauses : List Clause} (hasset : isBlank candidate.assetId = false)
    (horganization : ∀ clause ∈ clauses, clause.NoOrganization) (hdistinct : DistinctClauses clauses)
    (hplain : ∀ clause ∈ clauses, clause.Plain) {resolved : ResolvedTime}
    (hresolved : p.resolveTime (p.bindAvailableDates (proposalOf candidate clauses)) = some resolved) {e : ProposalError} :
    buildPlan (p.bindAvailableDates (proposalOf candidate clauses)) resolved candidate.contract = .error e ↔
      e = .validationError ∧ ¬ p.Fits candidate.contract clauses := by
  have hinside := dates_inside hresolved
  have hcarries : (p.bindAvailableDates (proposalOf candidate clauses)).availableDates = [] ∨
      (p.bindAvailableDates (proposalOf candidate clauses)).availableDates = p.availableDates := bindAvailableDates_carries rfl
  have hcarried := carried_iff p candidate clauses
  rw [bindAvailableDates_eq]
  generalize (p.bindAvailableDates (proposalOf candidate clauses)).availableDates = dates at hinside hcarries hcarried ⊢
  obtain ⟨-, hungrouped⟩ := plain_parts candidate hdistinct hplain
  have hordered : dates.Pairwise (· < ·) := hcarries.elim (fun h => h ▸ List.Pairwise.nil) fun h => h ▸ availableDates_ordered p
  have hslots := unresolvedSlotsOf_valid candidate.contract (proposalOf candidate clauses).timeConflict resolved.isUnresolved
    (proposalOf candidate clauses).grain (proposalOf candidate clauses).dimension
  have hfits : p.Fits candidate.contract clauses ↔ (QueryPlan.of? (proposalOf candidate clauses).intent candidate.contract.planDomain
      [candidate.assetId] [] (proposalOf candidate clauses).filters resolved.planRange dates (proposalOf candidate clauses).grain
      .aggregateFirst none candidate.contract.requiredPermissions (fromKeys (unresolvedSlotsOf (proposalOf candidate clauses).timeConflict
        resolved.isUnresolved (proposalOf candidate clauses).grain (proposalOf candidate clauses).dimension candidate.contract))).isSome = true := by
    rw [of?_isSome, fromKeys_unresolvedSlotsOf, trend_iff hdistinct]
    have hpermissions := candidate.contract.permissions_valid.2
    constructor
    · intro h
      refine ⟨⟨⟨Nat.le_refl 1, Nat.le_of_ble_eq_true rfl⟩, ⟨List.forall_mem_singleton.mpr hasset, List.nodup_singleton _⟩, by decide, by decide, h.filters, h.permissions.1,
        ⟨hpermissions, h.permissions.2⟩, hslots⟩, fun _ hn => absurd hn (Option.not_mem_none _), fun _ => rfl, ?_, ?_, hordered, hinside⟩
      · by_cases hnil : dates = []
        · rw [hnil]
          decide
        · obtain ⟨hwindow, text, htext, hclause⟩ := hcarried.mp hnil
          exact hcarries.elim (fun h' => absurd h' hnil) fun h' => h' ▸ (h.dates text htext hclause hwindow).2
      · intro hnil
        obtain ⟨hwindow, text, htext, hclause⟩ := hcarried.mp hnil
        exact (h.dates text htext hclause hwindow).1
    · rintro ⟨⟨-, -, -, -, hfilters, hcount, hvalid, -⟩, -, -, hlength, htrend, -⟩
      refine ⟨hfilters, ⟨hcount, hvalid.2⟩, fun text htext hclause hwindow => ?_⟩
      have hnil := hcarried.mpr ⟨hwindow, text, htext, hclause⟩
      exact ⟨htrend hnil, hcarries.elim (fun h' => absurd h' hnil) fun h' => h' ▸ hlength⟩
  have horganization' : requireNoOrganizationScope { proposalOf candidate clauses with availableDates := dates } = .ok () :=
    requireNoOrganizationScope_of_plain candidate horganization hdistinct hplain
  unfold buildPlan
  rw [horganization', hfits]
  simp only [hungrouped, Bool.false_eq_true, if_false]
  change orRefuse _ _ = _ ↔ _
  rw [orRefuse_eq_error, ← Option.not_isSome_iff_eq_none]
  exact ⟨fun h => ⟨h.2.symm, h.1⟩, fun h => ⟨h.2, h.1.symm⟩⟩

/-! ## The metric -/

/-- The candidates of a release carry the definition of their own document. -/
theorem assetId_of_foldl {parseContract : String → Option MetricContract} {permitted : Option (List String)} (documents : List SemanticDocument)
    {candidates : List MetricCandidate} (h : ∀ c ∈ candidates, c.contract.assetId = c.assetId) :
    ∀ c ∈ documents.foldl (addCandidate parseContract permitted) candidates, c.contract.assetId = c.assetId := by
  induction documents generalizing candidates with
  | nil => exact h
  | cons document documents ih =>
    refine ih ?_
    unfold addCandidate
    split
    · exact h
    · split
      · exact h
      · rename_i contract hcontract
        intro c hc
        rcases List.mem_append.mp hc with hc | hc
        · exact h c hc
        · rw [List.mem_singleton.mp hc]
          unfold contractOf? at hcontract
          simp only at hcontract
          split at hcontract
          · cases hcontract
          · split at hcontract
            · cases hcontract
            · split at hcontract
              · cases hcontract
              · rename_i hid
                cases hcontract
                exact not_not.mp hid

theorem isBlank_assetId (metric : MetricContract) : isBlank metric.assetId = false := by
  refine isBlank_eq_false_iff.mpr ⟨'m', ?_, by decide⟩
  rw [MetricContract.assetId, String.toList_append]
  exact List.mem_append_left _ (by decide)

theorem isBlank_selected {candidate : MetricCandidate} (h : p.selected? question context = some candidate) :
    isBlank candidate.assetId = false := by
  unfold selected? at h
  split at h
  · rename_i release _
    split at h
    · nomatch h
    · split at h
      · rename_i heq
        cases h
        have hmem : candidate ∈ detectMetricCandidates p.forms p.parseContract (normalizeFrozenRealQuestion p.forms question) release
            (some context.assetIds) := by
          rw [heq]
          exact List.mem_singleton_self _
        unfold detectMetricCandidates at hmem
        simp only at hmem
        split at hmem
        · exact absurd hmem List.not_mem_nil
        · have hcandidate := (List.mem_filter.mp hmem).1
          unfold releaseCandidates at hcandidate
          rw [List.mem_insertionSort] at hcandidate
          rw [← assetId_of_foldl release.documents (fun _ h => absurd h List.not_mem_nil) candidate hcandidate]
          exact isBlank_assetId candidate.contract
      · nomatch h
  · nomatch h

/-- What a proposal raises beside a refusal. -/
theorem propose_eq_error {e : ProposalError} (he : e.isRefusal = false) :
    p.propose question context = .error e ↔
      e = .tooManyDigits ∧ p.StopsAtNumber question context ∨
        e = .validationError ∧ ∃ candidate clauses, p.Accepts question context candidate clauses ∧ ¬ p.Fits candidate.contract clauses := by
  unfold DeterministicQueryPlanProvider.propose
  simp only [bind_eq_error, parseQuestion_eq_error he, parseQuestion_eq_ok]
  refine or_congr_right ⟨?_, ?_⟩
  · rintro ⟨_, ⟨candidate, clauses, haccepts, rfl⟩, h⟩
    obtain ⟨tokens, ⟨hselected, hselector⟩, hread, hdistinct, hplain⟩ := haccepts
    obtain ⟨resolved, hresolved⟩ : ∃ resolved, p.resolveTime (p.bindAvailableDates (proposalOf candidate clauses)) = some resolved :=
      exists_resolveTime p rfl
    simp only [hresolved, orRefuse, reduceCtorEq, Except.ok.injEq, exists_eq_left', false_or, bindAvailableDates_candidate] at h
    obtain ⟨rfl, hfits⟩ := (buildPlan_accepted (isBlank_selected hselected) (fun _ => noOrganization_of_mapM hread) hdistinct hplain
      hresolved).mp h
    exact ⟨rfl, candidate, clauses, ⟨tokens, ⟨hselected, hselector⟩, hread, hdistinct, hplain⟩, hfits⟩
  · rintro ⟨rfl, candidate, clauses, haccepts, hfits⟩
    obtain ⟨resolved, hresolved⟩ : ∃ resolved, p.resolveTime (p.bindAvailableDates (proposalOf candidate clauses)) = some resolved :=
      exists_resolveTime p rfl
    refine ⟨_, ⟨candidate, clauses, haccepts, rfl⟩, ?_⟩
    obtain ⟨tokens, ⟨hselected, -⟩, hread, hdistinct, hplain⟩ := haccepts
    simp only [hresolved, orRefuse, reduceCtorEq, Except.ok.injEq, exists_eq_left', false_or, bindAvailableDates_candidate]
    exact (buildPlan_accepted (isBlank_selected hselected) (fun _ => noOrganization_of_mapM hread) hdistinct hplain hresolved).mpr
      ⟨rfl, hfits⟩

/-- Only refusals are raised: a clock that is not the cause adds nothing. -/
theorem refusals_mapError {ε α : Type} {m : Except ProposalError α} :
    (∀ raised : ProposalError ⊕ ε, m.mapError .inl = .error raised → ∃ e, raised = .inl e ∧ e.isRefusal = true) ↔
      ∀ e, m = .error e → e.isRefusal = true := by
  cases m with
  | ok a => exact iff_of_true (fun _ h => nomatch h) fun _ h => nomatch h
  | error e =>
    constructor
    · intro h other hother
      obtain ⟨e', he', hrefusal⟩ := h (.inl e) rfl
      cases he'
      cases hother
      exact hrefusal
    · intro h raised hraised
      cases hraised
      exact ⟨e, rfl, h e rfl⟩

theorem refusals_iff : (∀ e, p.propose question context = .error e → e.isRefusal = true) ↔
    ¬ p.StopsAtNumber question context ∧
      ∀ candidate clauses, p.Accepts question context candidate clauses → p.Fits candidate.contract clauses := by
  constructor
  · intro h
    have hrefusal {e : ProposalError} (he : e.isRefusal = false) : p.propose question context ≠ .error e := fun h' => by
      rw [h e h'] at he
      cases he
    refine ⟨fun hstop => hrefusal rfl ((propose_eq_error rfl).mpr (Or.inl ⟨rfl, hstop⟩)), fun candidate clauses haccepts => ?_⟩
    by_contra hfits
    exact hrefusal rfl ((propose_eq_error rfl).mpr (Or.inr ⟨rfl, candidate, clauses, haccepts, hfits⟩))
  · rintro ⟨hstop, hfits⟩ e he
    by_contra hrefusal
    rcases (propose_eq_error (by simpa using hrefusal)).mp he with ⟨-, h⟩ | ⟨-, candidate, clauses, haccepts, h⟩
    · exact hstop h
    · exact h (hfits candidate clauses haccepts)

theorem proposeSampled_own {ε : Type} :
    p.proposeSampled (.ok p.clock : Except ε ClockReading) question context = (p.propose question context).mapError .inl := rfl

theorem selects_clock {reading : ClockReading} {candidate : MetricCandidate} {tokens : List String} :
    ({ p with clock := reading } : DeterministicQueryPlanProvider).Selects question context candidate tokens ↔
      p.Selects question context candidate tokens :=
  Iff.rfl

/-- What fits a plan does not depend on the clock. -/
theorem fits_clock {reading : ClockReading} {contract : MetricContract} {clauses : List Clause} :
    ({ p with clock := reading } : DeterministicQueryPlanProvider).Fits contract clauses ↔ p.Fits contract clauses :=
  ⟨fun h => ⟨h.filters, h.permissions, h.dates⟩, fun h => ⟨h.filters, h.permissions, h.dates⟩⟩

/-- The clock is sampled for an accepted question with one time clause, which the server does not answer. -/
theorem samplesClock_iff {candidate : MetricCandidate} {clauses : List Clause} :
    p.SamplesClock (proposalOf candidate clauses) ↔
      ∃ text, clauses.filterMap Clause.time? = [text] ∧ p.forms.clause text ≠ "latest authoritative" ∧
        p.forms.clause text ≠ "recent 7 available" := by
  simp only [← singleTime_iff candidate]
  unfold SamplesClock
  exact ⟨fun ⟨h, text, htext, hclause⟩ => ⟨text, ⟨h, htext⟩, hclause⟩, fun ⟨text, ⟨h, htext⟩, hclause⟩ => ⟨h, text, htext, hclause⟩⟩

end ClosedGrammarAux

open ClosedGrammarAux in
/-- A proposal ends in a plan or a refusal exactly where the question does not stop at a number that `int` does not read, what it accepts
fits a plan, and a clock that is sampled does not raise. -/
theorem propose_fails_closed_iff (p : DeterministicQueryPlanProvider) {ε : Type} (clock : Except ε ClockReading) (question : String)
    (context : ContextBundle) :
    (∀ raised, p.proposeSampled clock question context = .error raised → ∃ e : ProposalError, raised = .inl e ∧ e.isRefusal = true) ↔
      p.WithinLimits clock question context := by
  cases clock with
  | ok reading =>
    simp only [DeterministicQueryPlanProvider.proposeSampled, refusals_mapError, refusals_iff, fits_clock,
      DeterministicQueryPlanProvider.StopsAtNumber, DeterministicQueryPlanProvider.Accepts, selects_clock]
    exact ⟨fun h => ⟨h.1, h.2, fun _ _ _ _ _ _ _ => ⟨reading, rfl⟩⟩, fun h => ⟨h.numbers, h.plan⟩⟩
  | error cause =>
    unfold DeterministicQueryPlanProvider.proposeSampled
    cases hparsed : p.parseQuestion question context with
    | error e =>
      have hnone {candidate : MetricCandidate} {clauses : List Clause} : ¬ p.Accepts question context candidate clauses := by
        intro haccepts
        rw [parseQuestion_eq_ok.mpr ⟨candidate, clauses, haccepts, rfl⟩] at hparsed
        nomatch hparsed
      have hstop : p.StopsAtNumber question context → e = .tooManyDigits := by
        intro h
        rw [(parseQuestion_eq_error rfl).mpr ⟨rfl, h⟩] at hparsed
        exact (Except.error.inj hparsed).symm
      constructor
      · intro h
        obtain ⟨_, he, hrefusal⟩ := h (.inl e) rfl
        cases he
        refine ⟨fun h => ?_, fun _ _ haccepts => absurd haccepts hnone, fun _ _ _ haccepts => absurd haccepts hnone⟩
        rw [hstop h] at hrefusal
        nomatch hrefusal
      · intro h raised hraised
        cases hraised
        refine ⟨e, rfl, ?_⟩
        by_contra hrefusal
        exact h.numbers ((parseQuestion_eq_error (by simpa using hrefusal)).mp hparsed).2
    | ok proposal =>
      obtain ⟨candidate, clauses, haccepts, rfl⟩ := parseQuestion_eq_ok.mp hparsed
      simp only
      by_cases hsampled : p.SamplesClock (proposalOf candidate clauses)
      · rw [if_pos hsampled]
        obtain ⟨text, htext, hlatest, hrecent⟩ := samplesClock_iff.mp hsampled
        refine iff_of_false (fun h => ?_) fun h => ?_
        · obtain ⟨_, he, -⟩ := h (.inr cause) rfl
          nomatch he
        · obtain ⟨_, hclock⟩ := h.clock candidate clauses text haccepts htext hlatest hrecent
          nomatch hclock
      · rw [if_neg hsampled, refusals_mapError, refusals_iff]
        refine ⟨fun h => ⟨h.1, h.2, fun candidate' clauses' text haccepts' htext hlatest hrecent => ?_⟩, fun h => ⟨h.numbers, h.plan⟩⟩
        rw [parseQuestion_eq_ok.mpr ⟨candidate', clauses', haccepts', rfl⟩] at hparsed
        rw [← Except.ok.inj hparsed] at hsampled
        exact absurd (samplesClock_iff.mpr ⟨text, htext, hlatest, hrecent⟩) hsampled

/-- The provider in September, when the server knows two days of data. -/
def windowProvider : DeterministicQueryPlanProvider :=
  { septemberProvider with
    availabilityWindow := some [{ askedOn with day := 18, day_bounds := by decide }, dayBefore] }

namespace ClosedGrammarAux

theorem window_normalized : plainForms.normalize "metric=complaint_count time=recent_7_available" =
    "metric=complaint_count time=recent_7_available" := by decide +kernel

theorem window_words : words (plainForms.normalize "metric=complaint_count time=recent_7_available") =
    ["metric=complaint_count", "time=recent_7_available"] := by
  rw [window_normalized]
  decide +kernel

theorem window_best : (words (plainForms.normalize "metric=complaint_count time=recent_7_available")).foldl
    (fun best token => improveMatch plainForms token best untimedProposal.candidate) (0, []) = (14 + 1, ["metric.complaint_count"]) := by
  rw [window_words]
  decide +kernel

theorem window_frozen : normalizeFrozenRealQuestion plainForms "metric=complaint_count time=recent_7_available" =
    "metric=complaint_count time=recent_7_available" := frozen_unchanged (by rw [window_normalized]; decide)

theorem readClause_keyed {contract : MetricContract} {token value : String} (hscope : parseScopeClause token = .ok none)
    (hvalue : clauseValue? token = some value) : readClause contract token = readKeyed contract (clauseKey token) value := by
  rw [readClause, hscope]
  simp only [bind, Except.bind, hvalue]

theorem readKeyed_time {contract : MetricContract} {value : String} (h : value ≠ "") :
    readKeyed contract "time" value = .ok (.time value) := by
  rw [readKeyed, if_pos rfl, if_neg h]

theorem window_read : readClause complaintCount "time=recent_7_available" = .ok (.time "recent_7_available") := by
  have hpartition : partition '=' "time=recent_7_available" = ("time", some "recent_7_available") := by decide +kernel
  have hkey : clauseKey "time=recent_7_available" = "time" := by
    rw [clauseKey, hpartition]
    decide +kernel
  have hvalue : clauseValue? "time=recent_7_available" = some "recent_7_available" := by
    rw [clauseValue?, hpartition]
    decide +kernel
  have hscope : parseScopeClause "time=recent_7_available" = .ok none := by rfl
  rw [readClause_keyed hscope hvalue, hkey]
  exact readKeyed_time (by decide)

theorem window_accepted : windowProvider.Accepts "metric=complaint_count time=recent_7_available" complaintContext untimedProposal.candidate
    [.time "recent_7_available"] := by
  have hselected : windowProvider.selected? "metric=complaint_count time=recent_7_available" complaintContext =
      some untimedProposal.candidate :=
    selected_of_detected (p := windowProvider) rfl (by decide) window_frozen (planner_detects window_best)
  have hwords : words (windowProvider.forms.normalize (normalizeFrozenRealQuestion windowProvider.forms
      "metric=complaint_count time=recent_7_available")) = ["metric=complaint_count", "time=recent_7_available"] :=
    (congrArg (fun question => words (plainForms.normalize question)) window_frozen).trans window_words
  refine ⟨["time=recent_7_available"], ⟨hselected, _, hwords, untimed_selector⟩, ?_, List.pairwise_singleton _ _, ?_⟩
  · rw [List.mapM_cons, show untimedProposal.candidate.contract = complaintCount from rfl, window_read]
    rfl
  · exact List.forall_mem_singleton.mpr trivial

end ClosedGrammarAux

open ClosedGrammarAux in
/-- A metric of the available dates is not refused: the model of the plan rejects dates for anything but a trend. -/
theorem propose_window_raises :
    ¬ ∀ raised, windowProvider.proposeSampled (.ok windowProvider.clock : Except Empty ClockReading)
      "metric=complaint_count time=recent_7_available" complaintContext = .error raised →
        ∃ e : ProposalError, raised = .inl e ∧ e.isRefusal = true := by
  have hunfit : ¬ windowProvider.Fits complaintCount [.time "recent_7_available"] := by
    intro h
    obtain ⟨htrend, -⟩ := h.dates "recent_7_available" rfl (by decide +kernel) (by decide)
    rcases List.mem_singleton.mp htrend
  have hraised : windowProvider.propose "metric=complaint_count time=recent_7_available" complaintContext = .error .validationError :=
    (propose_eq_error rfl).mpr (Or.inr ⟨rfl, _, _, window_accepted, hunfit⟩)
  intro h
  obtain ⟨_, heq, hrefusal⟩ := h (.inl .validationError) (by rw [proposeSampled_own, hraised]; rfl)
  cases heq
  nomatch hrefusal

end Nl2Sql
