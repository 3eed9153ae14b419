import Nl2Sql.Planner.Proposal

/-!
# Proposals, slot bindings and replans

The provider of `orchestration/deterministic_query_plan.py`. `propose` reads a question; `propose_with_slot_bindings` reads it with the
bindings in place of its clauses; `replan_with_slot_bindings` applies the bindings to a plan and keeps everything else of it.
-/

namespace Nl2Sql

open Py

/-! ## From a proposal to a plan -/

/-- `QueryPlan(...)`: the plan of its parts, if the model accepts them. -/
def QueryPlan.of? (intent : QueryIntent) (domain : BoundedText 1 128) (metricKeys dimensions : List String)
    (filters : List BoundFilter) (timeRange : TimeRange) (availableDates : List Date) (grain : QueryGrain)
    (sourceStrategy : SourceStrategy) (resultLimit : Option Nat) (requiredPermissions unresolvedSlots : List String) :
    Option QueryPlan :=
  if h : ((1 ≤ metricKeys.length ∧ metricKeys.length ≤ 16) ∧ validIdentifiers metricKeys ∧ dimensions.length ≤ 16 ∧
        validIdentifiers dimensions ∧ filters.length ≤ 32 ∧ requiredPermissions.length ≤ 32 ∧
        validIdentifiers requiredPermissions ∧ unresolvedSlots.length ≤ 16 ∧ validIdentifiers unresolvedSlots) ∧
      (∀ n ∈ resultLimit, 1 ≤ n ∧ n ≤ 100) ∧ (intent ≠ .ranking → resultLimit = none) ∧ availableDates.length ≤ 31 ∧
      (availableDates ≠ [] → intent = .trend) ∧ availableDates.Pairwise (· < ·) ∧
      ∀ d ∈ availableDates, timeRange.start ≤ d ∧ d ≤ timeRange.stop then
    some
      { intent := intent, domain := domain, metricKeys := metricKeys, dimensions := dimensions, filters := filters,
        timeRange := timeRange, availableDates := availableDates, grain := grain, sourceStrategy := sourceStrategy,
        resultLimit := resultLimit, requiredPermissions := requiredPermissions, unresolvedSlots := unresolvedSlots,
        metricKeys_length := h.1.1, metricKeys_valid := h.1.2.1, dimensions_length := h.1.2.2.1,
        dimensions_valid := h.1.2.2.2.1, filters_length := h.1.2.2.2.2.1, permissions_length := h.1.2.2.2.2.2.1,
        permissions_valid := h.1.2.2.2.2.2.2.1, slots_length := h.1.2.2.2.2.2.2.2.1, slots_valid := h.1.2.2.2.2.2.2.2.2,
        limit_bounds := h.2.1, limit_ranking := h.2.2.1, dates_length := h.2.2.2.1, dates_trend := h.2.2.2.2.1,
        dates_ordered := h.2.2.2.2.2.1, dates_inside := h.2.2.2.2.2.2 }
  else
    none

/-- `_require_no_organization_scope_in_intent`. -/
def requireNoOrganizationScope (proposal : ProposalIntent) : Except ProposalError Unit :=
  refuseIf ((∃ name ∈ proposal.dimension, name ∈ scopeNames) ∨
    ∃ item ∈ proposal.filters, item.fieldRef.val ∈ scopeNames ∧ item.source = .entityAlias) .orgScopeRequiresAuthorizationSeam

/-- The domain of a metric is a domain of a plan. -/
def MetricContract.planDomain (metric : MetricContract) : BoundedText 1 128 := ⟨metric.domain, by rw [metric.domain_eq]; decide⟩

/-- The slots a plan leaves to be decided, in the order `build_plan` finds them. -/
def unresolvedSlotsOf (timeConflict timeUnresolved : Bool) (grain : QueryGrain) (dimension : Option String)
    (contract : MetricContract) : List String :=
  failIf (timeConflict ∨ timeUnresolved) "time" ++ failIf (grain ∉ contract.supportedGrains) "grain" ++
    failIf (∃ name ∈ dimension, ¬ contract.supports name) "dimension"

/-- The time of a plan: the carrier where none is resolved. -/
def ResolvedTime.planRange : ResolvedTime → TimeRange
  | .range timeRange => timeRange
  | .unresolved _ => carrierRange

/-- `isinstance(resolved, UnresolvedTime)`. -/
def ResolvedTime.isUnresolved : ResolvedTime → Bool
  | .range _ => false
  | .unresolved _ => true

/-- `build_plan`. -/
def buildPlan (proposal : ProposalIntent) (resolved : ResolvedTime) (contract : MetricContract) : Except ProposalError QueryPlan := do
  requireNoOrganizationScope proposal
  let unresolved := unresolvedSlotsOf proposal.timeConflict resolved.isUnresolved proposal.grain proposal.dimension contract
  let dimensions := if proposal.intent.grouped then proposal.dimension.toList.filter (· ≠ "") else []
  orRefuse .validationError
    (QueryPlan.of? proposal.intent contract.planDomain [proposal.candidate.assetId] dimensions proposal.filters resolved.planRange
      proposal.availableDates proposal.grain .aggregateFirst proposal.resultLimit contract.requiredPermissions (fromKeys unresolved))

/-! ## Slot bindings -/

/-- The checks of a binding before its value is read, and its value: a text. -/
def bindingText (seen : List String) (binding : SlotBinding) : Except ProposalError String := do
  refuseIf (binding.slot.val ∈ seen) .duplicateSlotBinding
  refuseIf (binding.slot.val ≠ "time" ∧ binding.slot.val ≠ "grain") .unsupportedSlotBinding
  refuseIf (binding.source ≠ .user) .slotBindingSourceNotExecutable
  match binding.value with
  | .scalar (.str text) => .ok text
  | _ => .error .slotBindingValueInvalid

/-- `_apply_slot_bindings`, after the slots seen. -/
def applySlotBindingsFrom (seen : List String) : List SlotBinding → ProposalIntent → Except ProposalError ProposalIntent
  | [], proposal => .ok proposal
  | binding :: rest, proposal => do
    let text ← bindingText seen binding
    if binding.slot.val = "time" then
      applySlotBindingsFrom (binding.slot.val :: seen) rest { proposal with timeText := some text, timeConflict := false }
    else do
      let grain ← orRefuse .slotBindingGrainInvalid (grainOf? text)
      applySlotBindingsFrom (binding.slot.val :: seen) rest { proposal with grain := grain }

/-- `_apply_slot_bindings`. -/
def applySlotBindings (proposal : ProposalIntent) (slotBindings : List SlotBinding) : Except ProposalError ProposalIntent :=
  applySlotBindingsFrom [] slotBindings proposal

/-- The fields of a plan that a binding changes. -/
structure PlanSlots where
  timeRange : TimeRange
  grain : QueryGrain
  unresolved : List String

/-- A time binding of a plan. What the grammar does not resolve leaves the slot open. -/
def PlanSlots.bindTime (resolved : ResolvedTime) (s : PlanSlots) : Except ProposalError PlanSlots :=
  match resolved with
  | .unresolved _ => .ok { s with unresolved := if "time" ∈ s.unresolved then s.unresolved else s.unresolved ++ ["time"] }
  | .range timeRange =>
    if timeRange = carrierRange then .error .slotBindingTimeCarrierRejected
    else .ok { s with timeRange := timeRange, unresolved := s.unresolved.filter (· ≠ "time") }

/-- A grain binding of a plan. A grain the metric does not have leaves the slot open. -/
def PlanSlots.bindGrain (contract : MetricContract) (grain : QueryGrain) (s : PlanSlots) : PlanSlots :=
  { s with
    grain := grain
    unresolved :=
      if grain ∈ contract.supportedGrains then s.unresolved.filter (· ≠ "grain")
      else if "grain" ∈ s.unresolved then s.unresolved else s.unresolved ++ ["grain"] }

/-- The loop of `_apply_slot_bindings_to_plan`, after the slots seen. -/
def bindPlanSlotsFrom (U : UnicodeForms) (clock : ClockReading) (contract : MetricContract) (seen : List String) :
    List SlotBinding → PlanSlots → Except ProposalError PlanSlots
  | [], s => .ok s
  | binding :: rest, s => do
    let text ← bindingText seen binding
    if binding.slot.val = "time" then do
      let resolved ← orRefuse .validationError (resolveTimeExpression U text clock)
      let s ← s.bindTime resolved
      bindPlanSlotsFrom U clock contract (binding.slot.val :: seen) rest s
    else do
      let grain ← orRefuse .slotBindingGrainInvalid (grainOf? text)
      bindPlanSlotsFrom U clock contract (binding.slot.val :: seen) rest (s.bindGrain contract grain)

/-- `_apply_slot_bindings_to_plan`. -/
def applySlotBindingsToPlan (U : UnicodeForms) (basePlan : QueryPlan) (slotBindings : List SlotBinding) (contract : MetricContract)
    (clock : ClockReading) : Except ProposalError QueryPlan := do
  let s ← bindPlanSlotsFrom U clock contract [] slotBindings ⟨basePlan.timeRange, basePlan.grain, basePlan.unresolvedSlots⟩
  orRefuse .validationError
    (QueryPlan.of? basePlan.intent basePlan.domain basePlan.metricKeys basePlan.dimensions basePlan.filters s.timeRange
      basePlan.availableDates s.grain basePlan.sourceStrategy basePlan.resultLimit basePlan.requiredPermissions
      (fromKeys s.unresolved))

/-! ## The provider -/

/-- What the registry gives for the active release: nothing was bound, no release is active, or the release. -/
inductive BoundRelease where
  | notBound
  | absent
  | release (release : SemanticRelease)

/-- `DeterministicQueryPlanProvider`, with what its calls outside give at one time. -/
structure DeterministicQueryPlanProvider where
  forms : UnicodeForms
  parseContract : String → Option MetricContract
  activeRelease : BoundRelease
  clock : ClockReading
  availabilityWindow : Option (List Date)
  authoritativeDate : Option Date

/-- `_FROZEN_REAL_METRIC_KEY`. -/
def frozenRealMetricKey : String := "repair_service_archive_rate_overall_day"

/-- `_FROZEN_REAL_LATEST_PHRASES`. -/
def frozenRealLatestPhrases : List String := ["查询最新可用日期的报修服务归档及时率", "查询最新可用日期的报修服务归档及时率（全局-日）"]

/-- `_FROZEN_REAL_RECENT_PHRASES`. -/
def frozenRealRecentPhrases : List String :=
  ["分析报修服务归档及时率最近7个可用业务日的趋势", "分析报修服务归档及时率（全局-日）最近7个可用业务日的趋势"]

/-- `normalize_frozen_real_question`. -/
def normalizeFrozenRealQuestion (U : UnicodeForms) (question : String) : String :=
  if U.normalize question ∈ frozenRealLatestPhrases.map U.normalize then
    "metric=" ++ frozenRealMetricKey ++ " time=latest_authoritative"
  else if U.normalize question ∈ frozenRealRecentPhrases.map U.normalize then
    "metric=" ++ frozenRealMetricKey ++ " time=recent_7_available intent=trend"
  else question

namespace DeterministicQueryPlanProvider

variable (p : DeterministicQueryPlanProvider)

/-- `_parse_question`: the proposal carries the candidate it was parsed for. -/
def parseQuestion (question : String) (context : ContextBundle) : Except ProposalError ProposalIntent :=
  match p.activeRelease with
  | .notBound => .error .semanticReleaseNotBound
  | .absent => .error .noActiveSemanticRelease
  | .release release =>
    if release.releaseId ≠ context.semanticReleaseId.val then .error .contextReleaseMismatch
    else
      let normalized := normalizeFrozenRealQuestion p.forms question
      match detectMetricCandidates p.forms p.parseContract normalized release (some context.assetIds) with
      | [] => .error .unknownMetricSelector
      | [candidate] => parseProposal p.forms normalized candidate
      | _ => .error .ambiguousMetricSelector

/-- `_available_dates`: nothing unless the window is in order and without repetition. -/
def availableDates : List Date :=
  match p.availabilityWindow with
  | none => []
  | some dates => if dates.Pairwise (· < ·) then dates else []

/-- `_bind_available_dates`. -/
def bindAvailableDates (proposal : ProposalIntent) : ProposalIntent :=
  if proposal.timeConflict = false ∧ proposal.timeText.map p.forms.clause = some "recent 7 available" then
    { proposal with availableDates := p.availableDates }
  else proposal

/-- The time of a clause, whose proposal carries these dates. The outer none is an exception of the model `TimeRange`. -/
def resolveClause (availableDates : List Date) (text : String) : Option ResolvedTime :=
  if p.forms.clause text = "latest authoritative" then
    match p.authoritativeDate with
    | none => some (.unresolved .authoritativeDateUnavailable)
    | some date => (TimeRange.of? date date).map .range
  else if p.forms.clause text = "recent 7 available" then
    let dates := if availableDates = [] then p.availableDates else availableDates
    match dates.head?, dates.getLast? with
    | some first, some last => (TimeRange.of? first last).map .range
    | _, _ => some (.unresolved .authoritativeWindowUnavailable)
  else resolveTimeExpression p.forms text p.clock

/-- `_resolve_time`. -/
def resolveTime (proposal : ProposalIntent) : Option ResolvedTime :=
  match proposal.timeText with
  | none => some (.unresolved .unsupportedTimeExpression)
  | some text =>
    if proposal.timeConflict then some (.unresolved .unsupportedTimeExpression) else p.resolveClause proposal.availableDates text

/-- `propose`. -/
def propose (question : String) (context : ContextBundle) : Except ProposalError QueryPlan := do
  let proposal ← p.parseQuestion question context
  let proposal := p.bindAvailableDates proposal
  let resolved ← orRefuse .validationError (p.resolveTime proposal)
  buildPlan proposal resolved proposal.candidate.contract

/-- The clock is sampled for a proposal: it has one time clause, whose text is none of the server's. -/
def SamplesClock (proposal : ProposalIntent) : Prop :=
  proposal.timeConflict = false ∧ ∃ text ∈ proposal.timeText, p.forms.clause text ≠ "latest authoritative" ∧
    p.forms.clause text ≠ "recent 7 available"

instance (proposal : ProposalIntent) : Decidable (p.SamplesClock proposal) := inferInstanceAs (Decidable (_ ∧ ∃ _ ∈ _, _))

/-- `propose`, where the call of the clock gives a reading or raises an exception of its own. -/
def proposeSampled {ε : Type} (clock : Except ε ClockReading) (question : String) (context : ContextBundle) :
    Except (ProposalError ⊕ ε) QueryPlan :=
  match clock with
  | .ok reading => ({ p with clock := reading }.propose question context).mapError .inl
  | .error raised =>
    match p.parseQuestion question context with
    | .error refusal => .error (.inl refusal)
    | .ok proposal => if p.SamplesClock proposal then .error (.inr raised) else (p.propose question context).mapError .inl

/-- `propose_with_slot_bindings`. -/
def proposeWithSlotBindings (question : String) (context : ContextBundle) (slotBindings : List SlotBinding) :
    Except ProposalError QueryPlan := do
  let proposal ← p.parseQuestion question context
  let proposal ← applySlotBindings (p.bindAvailableDates proposal) slotBindings
  let resolved ← orRefuse .validationError (p.resolveTime proposal)
  refuseIf (proposal.timeText ≠ none ∧ proposal.timeConflict = false ∧ resolved = .range carrierRange) .slotBindingTimeCarrierRejected
  buildPlan proposal resolved proposal.candidate.contract

/-- `replan_with_slot_bindings`. -/
def replanWithSlotBindings (question : String) (context : ContextBundle) (basePlan : QueryPlan) (slotBindings : List SlotBinding) :
    Except ProposalError QueryPlan := do
  let proposal ← p.parseQuestion question context
  refuseIf (basePlan.metricKeys ≠ [proposal.candidate.assetId]) .replanBasePlanMetricMismatch
  applySlotBindingsToPlan p.forms basePlan slotBindings proposal.candidate.contract p.clock

end DeterministicQueryPlanProvider

end Nl2Sql
