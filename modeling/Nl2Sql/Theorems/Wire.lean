import Nl2Sql.Engine.Actions
import Nl2Sql.Theorems.Continuation

/-!
# The wire of a typed decision

The handler of the actions checks a decision against the pending request and resumes the run with its dump; the engine reads the dump
against the same request. The two do not agree on the members: the dump has the version of its schema, and the engine knows no such
member.
-/

namespace Nl2Sql

open Py Engine

namespace WireAux

variable {D : EngineDigests} {E : Engine D}

/-- The members of a dumped decision. -/
def dumpedMembers : List String := ["schema_version", "request_id", "request_version", "action", "slot_bindings", "idempotency_key"]

/-- No member of a dumped decision is a forbidden one. -/
theorem dumped_not_forbidden : ∀ name ∈ dumpedMembers, name ∉ forbiddenDecisionFields := by decide

/-- The engine refuses the dump of every decision, whatever the stored request. -/
theorem payload_of_dump (stored : HITLRequest) (decision : HITLDecision) :
    typedDecisionFromPayload stored decision.toJson = .error "typed_decision_unknown_field" := by
  unfold HITLDecision.toJson typedDecisionFromPayload
  dsimp only
  rw [if_neg, if_pos]
  · exact ⟨_, List.mem_cons_self, by decide⟩
  · rintro ⟨member, hmember, hforbidden⟩
    have hname : member.1 ∈ dumpedMembers := List.mem_map_of_mem (f := Prod.fst) hmember
    exact dumped_not_forbidden _ hname hforbidden

/-- The engine refuses the dump of a decision at the decision node. -/
theorem receivePayload_dump (stored : HITLRequest) (decision : HITLDecision) (d : DecisionChannels)
    (w : WorkChannels D.toCalculationDigests) :
    receivePayload stored d w decision.toJson = .error "typed_decision_unknown_field" := by
  unfold receivePayload
  rw [payload_of_dump]

/-- A key that the ledger does not bind is answered with the refusal. -/
theorem recordedAnswer_none {d : DecisionChannels} {incoming : HITLDecision}
    (h : d.decisionLedger.get? incoming.idempotencyKey = none) (expectedVersion : Nat) (idempotent : Bool) (refusal : String) :
    recordedAnswer (D := D) d incoming expectedVersion idempotent refusal = .http 409 refusal := by
  unfold recordedAnswer validatedTypedLedgerEntry?
  rw [h]
  rfl

/-- An invocation that was cut off before its first node leaves the channels, and nothing to answer from. -/
theorem answerFrom_cut {thread : Thread D} {node : Node} {received : List Json} {prompt : Prompt}
    (hs : thread.status = .suspended node received prompt) (payload : Json) (config : RunConfig)
    (answer : V2EngineState D.toCalculationDigests → ActionAnswer) :
    answerFrom (E.resume thread payload ⟨config, []⟩).2 answer = (.raised, ⟨thread.values, .cut node⟩) := by
  simp [Engine.resume, hs, runFrom, answerFrom]

end WireAux

open WireAux ContinuationAux

/-- For every run that waits for a decision and every decision that passes the checks of the handler: the engine refuses the payload the
handler sends, the ledger gets no entry under the key of the decision, and the handler never answers that it was recorded. -/
theorem typed_decision_never_recorded {D : EngineDigests} (E : Engine D) (thread : Thread D) (run : Run D) (received : List Json)
    (prompt : Prompt) (hs : (E.runOn thread run).2.status = .suspended .decision received prompt) (pending : HITLRequest)
    (hpending : (E.runOn thread run).2.values.decision.pendingDecision = some pending) (body incoming : HITLDecision)
    (hbody : body.revalidate? = some incoming)
    (hnew : (E.runOn thread run).2.values.decision.decisionLedger.get? incoming.idempotencyKey = none) (expectedVersion : Nat)
    (hadmitted : decisionAdmitted (E.runOn thread run).2.values.decision incoming expectedVersion pending)
    (invocation : Invocation D) :
    typedDecisionFromPayload pending incoming.toJson = .error "typed_decision_unknown_field" ∧
    (E.typedDecisionAction (E.runOn thread run).2 body expectedVersion invocation).2.values = (E.runOn thread run).2.values ∧
    (E.typedDecisionAction (E.runOn thread run).2 body expectedVersion invocation).2.values.decision.decisionLedger.get?
      incoming.idempotencyKey = none ∧
    (E.typedDecisionAction (E.runOn thread run).2 body expectedVersion invocation).1 =
      (if invocation.answers = [] then .raised else .http 409 "typed decision was not recorded") := by
  have hawaiting := (DecisionAux.asked_of_suspended thread run hs).awaiting
  have hrefused := receivePayload_dump pending incoming (E.runOn thread run).2.values.decision (E.runOn thread run).2.values.work
  obtain ⟨hvalues, hstatus⟩ := resume_refused (waits_runOn thread run) hs hpending hrefused invocation
  have haction : E.typedDecisionAction (E.runOn thread run).2 body expectedVersion invocation =
      answerFrom (E.resume (E.runOn thread run).2 incoming.toJson invocation).2 fun s =>
        recordedAnswer (D := D) s.decision incoming expectedVersion false "typed decision was not recorded" := by
    simp only [typedDecisionAction, hbody, hnew, hawaiting, hpending, hadmitted, ne_eq, not_true_eq_false, if_false]
  have hthread : (E.typedDecisionAction (E.runOn thread run).2 body expectedVersion invocation).2.values =
      (E.runOn thread run).2.values := by
    rw [haction]
    unfold answerFrom
    split <;> exact hvalues
  refine ⟨payload_of_dump pending incoming, hthread, hthread ▸ hnew, ?_⟩
  rw [haction]
  split
  · rename_i hcut
    obtain ⟨config, answers⟩ := invocation
    cases hcut
    rw [answerFrom_cut hs]
  · rename_i hanswers
    obtain ⟨asked, hasked⟩ := hstatus hanswers
    unfold answerFrom
    rw [hasked, hvalues]
    exact recordedAnswer_none hnew _ _ _

/-! ## The grain, decided over the wire -/

theorem no_summary : ∀ summary ∈ (none : Option (BoundedText 0 512)), ∀ c ∈ summary.val.toList, 32 ≤ c.toNat ∧ c.toNat ≠ 127 := by
  rintro _ ⟨⟩

/-- The request the revenue query waits with. -/
def grainRequest : HITLRequest where
  requestId := ⟨"clarify-65685780de991d6c92ef949e92541500", by decide⟩
  decisionKind := .clarification
  version := 1
  allowedActions := [.resolve, .choose, .reject, .cancel]
  planSha256 := grainDigests.queryPlan grainPlan
  contextChecksum := grainDigests.context salesContext
  policyVersion := marginValidation.policyVersion
  policyChecksum := checkedValidator.policyChecksum grainDigests.toPlanDigests
  issueCodes := [⟨"query_plan_unresolved_slots", by decide⟩]
  unresolvedSlots := [⟨"grain", by decide⟩]
  safeSummary := none
  version_bounds := by decide
  actions_length := by decide
  actions_unique := by decide
  actions_permitted := by decide
  codes_length := by decide
  codes_unique := by decide
  slots_length := by decide
  slots_unique := by decide
  slots_not_reserved := by decide
  summary_printable := no_summary
  clarifies := by decide
  only_clarification := by decide

/-- The decision that the grain is the day. -/
def grainDecision : HITLDecision where
  requestId := grainRequest.requestId
  requestVersion := 1
  action := .resolve
  slotBindings := [⟨⟨"grain", by decide⟩, .scalar (.str "day"), .user, by decide, by decide⟩]
  idempotencyKey := ⟨"decision-1", by decide⟩
  version_bounds := by decide
  bindings_length := by decide
  bindings_unique := by decide

namespace WireAux

/-- The run waits with the request, and the decision passes the checks of the handler. -/
theorem grain_checks :
    waitsForDecision (salesEngine.runOn {} salesRun).2 = true ∧
    (salesEngine.runOn {} salesRun).2.values.decision.pendingDecision = some grainRequest ∧
    decisionAdmitted (salesEngine.runOn {} salesRun).2.values.decision grainDecision 1 grainRequest ∧
    (salesEngine.runOn {} salesRun).2.values.decision.decisionLedger.get? grainDecision.idempotencyKey = none := by
  decide +kernel

theorem grain_read : grainDecision.revalidate? = some grainDecision := by decide +kernel

end WireAux

/-- The decision passes the checks of the handler, and is not recorded. -/
theorem typed_decision_never_recorded_grain :
    decisionAdmitted (salesEngine.runOn {} salesRun).2.values.decision grainDecision 1 grainRequest ∧
    (salesEngine.typedDecisionAction (salesEngine.runOn {} salesRun).2 grainDecision 1 salesInvocation).1 =
      .http 409 "typed decision was not recorded" := by
  obtain ⟨hwaits, hpending, hadmitted, hnew⟩ := grain_checks
  obtain ⟨received, prompt, hs⟩ := suspended_of_waits hwaits
  exact ⟨hadmitted, (typed_decision_never_recorded salesEngine {} salesRun received prompt hs grainRequest hpending
    grainDecision grainDecision grain_read hnew 1 hadmitted salesInvocation).2.2.2⟩

/-- The decision passes every check of the handler; the engine refuses its dump, and the handler answers with a conflict. -/
theorem typed_decision_dump_refused :
    waitsForDecision (salesEngine.runOn {} salesRun).2 = true ∧
    (salesEngine.runOn {} salesRun).2.values.decision.pendingDecision = some grainRequest ∧
    decisionAdmitted (salesEngine.runOn {} salesRun).2.values.decision grainDecision 1 grainRequest ∧
    (salesEngine.runOn {} salesRun).2.values.decision.decisionLedger.get? grainDecision.idempotencyKey = none ∧
    typedDecisionFromPayload grainRequest grainDecision.toJson = .error "typed_decision_unknown_field" ∧
    (salesEngine.typedDecisionAction (salesEngine.runOn {} salesRun).2 grainDecision 1 salesInvocation).1 =
      .http 409 "typed decision was not recorded" := by
  obtain ⟨hwaits, hpending, hadmitted, hnew⟩ := grain_checks
  refine ⟨hwaits, hpending, hadmitted, hnew, payload_of_dump _ _, ?_⟩
  decide +kernel

end Nl2Sql
