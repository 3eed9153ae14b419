import Nl2Sql.Engine.Models

/-!
# The typed clarification

The decision node, which suspends a run until a person decides, and the replanning node, which binds the decided slots and validates
again. A suspended node is executed again from its start when its thread is resumed, and its interrupts return the payloads received
so far in their order; so a visit of the decision node is a function of the list of the payloads.
-/

namespace Nl2Sql

open Py

namespace Engine

variable {D : EngineDigests} (E : Engine D)

/-! ## Payloads -/

/-- `_TYPED_DECISION_PAYLOAD_KEYS`. -/
def typedDecisionPayloadKeys : List String := ["action", "slot_bindings", "idempotency_key", "request_id", "request_version"]

/-- The bindings of a payload; a payload that names none has none. -/
def payloadBindings? : Option Json → Option (List SlotBinding)
  | none => some []
  | some (.arr items) => items.mapM SlotBinding.ofJson?
  | some _ => none

variable (stored : HITLRequest)

/-- `revalidate_decision` of a payload's parts under the identity of the stored request. -/
def payloadDecision? (members : List (String × Json)) : Option HITLDecision :=
  match Json.member? "action" members, Json.member? "idempotency_key" members with
  | some (.str actionText), some (.str keyText) => do
    let action ← DecisionAction.of? actionText
    let key ← matching? isRequestId keyText
    let bindings ← payloadBindings? (Json.member? "slot_bindings" members)
    HITLDecision.build? stored.requestId stored.version action bindings key
  | _, _ => none

/-- A supplied request id that is not the stored one. -/
def requestIdMismatch : Option Json → Bool
  | none => false
  | some .null => false
  | some (.str supplied) => supplied ≠ stored.requestId.val
  | some _ => true

/-- A supplied version that is not the stored one. -/
def requestVersionMismatch : Option Json → Bool
  | none => false
  | some .null => false
  | some supplied => !equalsInt supplied stored.version

/-- `_typed_decision_from_payload`: the decision, or the failure. -/
def typedDecisionFromPayload : Json → Except String HITLDecision
  | .obj members =>
    if ∃ m ∈ members, m.1 ∈ forbiddenDecisionFields then .error "typed_decision_authority_field_rejected"
    else if ∃ m ∈ members, m.1 ∉ typedDecisionPayloadKeys then .error "typed_decision_unknown_field"
    else if requestIdMismatch stored (Json.member? "request_id" members) then .error "typed_decision_request_id_mismatch"
    else if requestVersionMismatch stored (Json.member? "request_version" members) then
      .error "typed_decision_request_version_mismatch"
    else
      match payloadDecision? stored members with
      | none => .error "typed_decision_payload_invalid"
      | some decision =>
        match decision.validateAgainst stored with
        | [] => .ok decision
        | failures => .error ("typed_decision_rejected:" ++ ",".intercalate failures)
  | _ => .error "typed_decision_payload_invalid"

/-! ## Recording -/

/-- `_TYPED_DECISION_STATUS.get(action, "recorded_no_continuation")`. -/
def recordedStatus : DecisionAction → DecisionStatus
  | .resolve => .resolvedPendingRevalidation
  | .choose => .chooseRecordedNoContinuation
  | .reject => .rejected
  | .cancel => .cancelled
  | _ => .recordedNoContinuation

/-- `stored.checksum`, `decision.checksum` and `token.checksum`. -/
def requestChecksum (D : EngineDigests) (request : HITLRequest) : Sha256 := D.decision request.toJson

@[inherit_doc requestChecksum]
def decisionChecksum (D : EngineDigests) (decision : HITLDecision) : Sha256 := D.decision decision.toJson

@[inherit_doc requestChecksum]
def tokenChecksum (D : EngineDigests) (token : ResumeToken) : Sha256 := D.decision token.toJson

/-- `_typed_decision_replays`. -/
def typedDecisionReplays (D : EngineDigests) (entry : DecisionEntry) (stored : HITLRequest) (decision : HITLDecision)
    (token : ResumeToken) : Prop :=
  entry.requestId = stored.requestId ∧ entry.requestVersion = stored.version ∧
    entry.requestChecksum = requestChecksum D stored ∧ entry.decisionChecksum = decisionChecksum D decision ∧
    entry.resumeTokenChecksum = tokenChecksum D token

instance (entry : DecisionEntry) (stored : HITLRequest) (decision : HITLDecision) (token : ResumeToken) :
    Decidable (typedDecisionReplays D entry stored decision token) := inferInstanceAs (Decidable (_ ∧ _))

variable (d : DecisionChannels) (w : WorkChannels D.toCalculationDigests)

/-- `_typed_decision_ledger_invalid`. -/
def ledgerInvalid :
    DecisionChannels × WorkChannels D.toCalculationDigests :=
  ({ d with decisionStatus := some .invalid },
    w.stopWith "The recorded decision could not be revalidated." "typed_decision_ledger_invalid" "TypedDecisionLedgerInvalid")

/-- `_typed_decision_replay_result`: the status is derived from the decision, not copied. -/
def replayResult (entry : DecisionEntry) (decision : HITLDecision) (d : DecisionChannels) (w : WorkChannels D.toCalculationDigests) :
    DecisionChannels × WorkChannels D.toCalculationDigests :=
  if decisionChecksum D entry.decision ≠ decisionChecksum D decision ∨
      tokenChecksum D entry.resumeToken ≠ entry.resumeTokenChecksum then
    ledgerInvalid d w
  else
    ({ d with
        decisionStatus := some (recordedStatus entry.decision.action)
        resolvedDecision := some entry.decision
        resumeToken := some entry.resumeToken },
      { w.reply "The typed decision was already recorded." with needsHitl := false })

/-- The ledger entry of a decision. -/
def ledgerEntry (D : EngineDigests) (stored : HITLRequest) (decision : HITLDecision) (token : ResumeToken) : DecisionEntry where
  requestId := stored.requestId
  requestVersion := stored.version
  requestChecksum := requestChecksum D stored
  decisionChecksum := decisionChecksum D decision
  resumeTokenChecksum := tokenChecksum D token
  status := recordedStatus decision.action
  request := stored
  decision := decision
  resumeToken := token

/-- `_record_typed_decision`: a terminal decision leaves no pending request. -/
def recordTypedDecision (decision : HITLDecision) (token : ResumeToken) (d : DecisionChannels)
    (w : WorkChannels D.toCalculationDigests) : DecisionChannels × WorkChannels D.toCalculationDigests :=
  ({ d with
      pendingDecision := if decision.action = .reject ∨ decision.action = .cancel then none else d.pendingDecision
      decisionStatus := some (recordedStatus decision.action)
      resolvedDecision := some decision
      resumeToken := some token
      decisionLedger := d.decisionLedger.set decision.idempotencyKey (ledgerEntry D stored decision token) },
    { w.reply "The typed decision was recorded. No business work was executed." with needsHitl := false })

/-! ## The decision node -/

/-- What a decision that satisfies the stored request comes to: none for a key that is bound to another decision. -/
def settle? (decision : HITLDecision) (token : ResumeToken) (d : DecisionChannels)
    (w : WorkChannels D.toCalculationDigests) : Option (DecisionChannels × WorkChannels D.toCalculationDigests) :=
  match d.decisionLedger.get? decision.idempotencyKey with
  | none => some (recordTypedDecision stored decision token d w)
  | some entry => if typedDecisionReplays D entry stored decision token then some (replayResult entry decision d w) else none

/-- What one payload comes to: a result of the node, or the failure it is prompted again with. -/
def receivePayload (payload : Json) :
    Except String (DecisionChannels × WorkChannels D.toCalculationDigests) :=
  match typedDecisionFromPayload stored payload with
  | .error failure => .error failure
  | .ok decision =>
    match resumeToken? D.decision stored decision with
    -- not reached: the decision satisfies the request
    | none => .error "typed_decision_payload_invalid"
    | some token =>
      match settle? stored decision token d w with
      | some result => .ok result
      | none => .error "typed_decision_idempotency_conflict"

/-- The loop of the decision node over the payloads received so far. -/
def decisionLoop (stored : HITLRequest) (d : DecisionChannels) (w : WorkChannels D.toCalculationDigests) :
    Option String → List Json → Suspension (DecisionChannels × WorkChannels D.toCalculationDigests)
  | failure, [] => .suspended (.clarification stored failure)
  | _, payload :: rest =>
    match receivePayload stored d w payload with
    | .ok result => .returned result
    | .error failure => decisionLoop stored d w (some failure) rest

/-- `decision_node`. -/
def decision (received : List Json) (d : DecisionChannels) (w : WorkChannels D.toCalculationDigests) :
    Suspension (DecisionChannels × WorkChannels D.toCalculationDigests) :=
  match d.pendingDecision with
  | none =>
    .returned ({ d with decisionStatus := some .invalid },
      w.stopWith "The pending decision could not be restored." "typed_decision_state_invalid" "TypedDecisionStateInvalid")
  | some stored => decisionLoop stored d w none received

/-! ## Replanning -/

/-- `_continuation_stopped`. -/
def continuationStopped (reason : String) :
    DecisionChannels × WorkChannels D.toCalculationDigests :=
  ({ d with pendingDecision := none, decisionStatus := some .continuationStopped },
    { w.stopWith "The typed decision was recorded, but slot-bound continuation is not available." reason "TypedContinuationStopped" with
      needsHitl := false })

/-- `_active_query_plan`: the plan the pending request is about. -/
def activeQueryPlan? : Option QueryPlan :=
  match d.resolvedPlan.filter fun resolved => D.queryPlan resolved = stored.planSha256 with
  | some resolved => some resolved
  | none => w.queryPlan.filter fun original => D.queryPlan original = stored.planSha256

/-- `_continuation_eligibility`. -/
def continuationEligibility (decision : HITLDecision) (token : ResumeToken) (queryPlan : QueryPlan)
    (context : ContextBundle) : List String :=
  failIf (stored.planSha256 ≠ D.queryPlan queryPlan) "continuation_plan_mismatch" ++
  failIf (stored.contextChecksum ≠ D.context context) "continuation_context_mismatch" ++
  failIf (stored.policyVersion.val ≠ E.validator.policyVersion ∨
    stored.policyChecksum ≠ E.validator.policyChecksum D.toPlanDigests) "continuation_policy_mismatch" ++
  failIf (decision.action ≠ .resolve) "continuation_action_unsupported" ++
  failIf (decision.validateAgainst stored ≠ []) "continuation_decision_mismatch" ++
  failIf (token.validateAgainst D.decision stored decision ≠ []) "continuation_token_mismatch" ++
  failIf (∃ binding ∈ decision.slotBindings, binding.source ≠ .user) "continuation_slot_source_not_user" ++
  failIf (stored.unresolvedSlots = [] ∨ ∃ slot ∈ stored.unresolvedSlots, slot.val ∉ ["time", "grain"])
    "continuation_slot_unsupported" ++
  failIf (¬ SameSet (stored.unresolvedSlots.map (·.val)) queryPlan.unresolvedSlots) "continuation_slot_scope_mismatch"

/-- `_plan_lineage`. -/
def planLineage (D : EngineDigests) (stored : HITLRequest) (decision : HITLDecision) (newPlan : QueryPlan)
    (validation : PlanValidationRecord) : PlanLineage where
  oldPlanSha256 := stored.planSha256
  requestId := stored.requestId
  requestVersion := stored.version
  requestChecksum := requestChecksum D stored
  decisionChecksum := decisionChecksum D decision
  slotBindings := decision.slotBindings
  newPlanSha256 := D.queryPlan newPlan
  newValidationOutcome := validation.outcome
  newValidationQueryPlanSha256 := validation.queryPlanSha256
  newValidationContextChecksum := validation.contextChecksum

/-- The channels of a run that was replanned. -/
def replanned (decision : HITLDecision) (newPlan : QueryPlan) (validation : PlanValidationRecord)
    (d : DecisionChannels) : DecisionChannels :=
  { d with
    resolvedPlan := some newPlan
    resolvedPlanValidation := some validation
    planLineage := d.planLineage ++ [planLineage D stored decision newPlan validation] }

/-- The exits of a continuation that leave no pending request. -/
def continuationEnded (base : DecisionChannels) (w : WorkChannels D.toCalculationDigests) (status : DecisionStatus) (content : String)
    (stopReason : Option String) : DecisionChannels × WorkChannels D.toCalculationDigests :=
  ({ base with pendingDecision := none, decisionStatus := some status },
    { w.reply content with needsHitl := false, stopReason := stopReason.or w.stopReason })

/-- The plan of a continuation compiled and validated: none where the node catches an exception. -/
def continuationPlan? (newPlan : QueryPlan) (context : ContextBundle) (validation : PlanValidationRecord)
    (w : WorkChannels D.toCalculationDigests) : Option (ExecutionPlan D.toCalculationDigests × PlanValidationRecord) := do
  let executionPlan ← (E.compiler.compile D.toPlanDigests newPlan context validation).toOption
  let route ← (activeRoute w).toOption
  let ledger ← (E.routeBudgetFromState w route).toOption
  let executionValidation ← E.validator.validateExecutionPlan D.toPlanDigests executionPlan newPlan context ledger.limits
  some (executionPlan, executionValidation)

/-- `_continue_under_current_authorization`, from the runtime of the state: none where the channel holds no mapping, and no identity
where the mapping's is not valid. -/
def continueUnderCurrentAuthorization (answer : FactoryAnswer) (typedRuntime : Option (Option CallerIdentity))
    (authorization : AuthorizationContext) (newPlan : QueryPlan) (context : ContextBundle) (validation : PlanValidationRecord)
    (d base : DecisionChannels) (w : WorkChannels D.toCalculationDigests) :
    Visit FactoryCall (DecisionChannels × WorkChannels D.toCalculationDigests) :=
  match typedRuntime with
  | none => .silent (.ok (continuationStopped d w "current_authorization_runtime_missing"))
  | some none => .silent (.ok (continuationStopped d w "current_authorization_identity_invalid"))
  | some (some identity) =>
    .calling ⟨identity, some authorization, none⟩
      (match answer with
        | .raised => .error .raised
        | .unavailable reason =>
          .ok (continuationEnded base w .currentAuthorizationDenied
            ("The clarification was applied and the plan revalidated, but current authorization does not permit continuation." ++
              " Nothing was executed.") (some reason))
        | .runtime _ =>
          match E.continuationPlan? newPlan context validation w with
          | none => .ok (continuationStopped d w "continuation_compilation_failed")
          | some (executionPlan, executionValidation) =>
            let w :=
              { w with
                authorizationContext := some authorization
                authorizationRevision := some authorization.authorizationRevision.val
                needsHitl := false }
            if executionValidation.outcome ≠ .allow then
              .ok (continuationEnded base w .continuationExecutionPlanDenied
                ("The clarification was applied and the plan revalidated, but the resulting execution plan was not permitted." ++
                  " Nothing was executed.") (some "continuation_execution_plan_denied"))
            else
              .ok ({ base with
                  pendingDecision := none
                  decisionStatus := some .resolvedContinuingCurrentAuthorization
                  continuationReady := true },
                { w with executionPlan := some executionPlan, executionPlanValidation := some executionValidation }))

/-- The rest of the replanning node for a plan that is allowed. The state has no channel `typed_runtime`, so the continuation reads
none. -/
def replannedAllow (config : RunConfig) (answer : FactoryAnswer) (newPlan : QueryPlan) (context : ContextBundle)
    (validation : PlanValidationRecord) (d base : DecisionChannels) (w : WorkChannels D.toCalculationDigests) :
    Visit FactoryCall (DecisionChannels × WorkChannels D.toCalculationDigests) :=
  if E.wiring ≠ .factory then
    .silent (.ok (continuationEnded base w .resolvedPendingCurrentAuthorization
      ("The clarification was applied and the plan revalidated, but this deployment has no typed runtime to revalidate continuation" ++
        " against. Nothing was executed.") none))
  else
    match config.authorization with
    | none =>
      .silent (.ok (continuationEnded base w .currentAuthorizationUnavailable
        "The clarification was applied and the plan revalidated, but current authorization is unavailable. Nothing was executed."
        (some "current_authorization_unavailable")))
    | some authorization =>
      E.continueUnderCurrentAuthorization answer none authorization newPlan context validation d base w

/-- The rest of the replanning node, after the new plan is validated. -/
def replannedWith (config : RunConfig) (answer : FactoryAnswer) (stored : HITLRequest) (decision : HITLDecision) (newPlan : QueryPlan)
    (context : ContextBundle) (validation : PlanValidationRecord) (d : DecisionChannels) (w : WorkChannels D.toCalculationDigests) :
    Visit FactoryCall (DecisionChannels × WorkChannels D.toCalculationDigests) :=
  let base := replanned (D := D) stored decision newPlan validation d
  match validation.outcome with
  | .allow => E.replannedAllow config answer newPlan context validation d base w
  | .clarify =>
    match clarificationRequest? D.decision D.toPlanDigests validation context newPlan (d.decisionVersion + 1) with
    | none => .silent (.ok (continuationStopped d w "replanned_clarification_unbounded"))
    | some request =>
      .silent (.ok (await base request,
        { w.reply "The clarification was applied, but another bounded clarification is required." with needsHitl := false }))
  | _ =>
    .silent (.ok ({ base with pendingDecision := none, decisionStatus := some .revalidationDenied },
      w.stopWith "The replanned request was not permitted." "query_plan_validation_denied" "ReplannedPlanDenied"))

/-- What the replanning node reads and checks before it may replan: an error is the reason it stops for. -/
def replanInputs :
    Except NodeError (Except String (HITLRequest × HITLDecision × ContextBundle × QueryPlan)) :=
  match d.pendingDecision, d.resolvedDecision, d.resumeToken with
  | some stored, some decision, some token => do
    let context ← required "typed context bundle" w.contextBundle
    if context.unresolvedSlots ≠ [] then return .error "continuation_context_slot_unsupported"
    else
      match activeQueryPlan? stored d w with
      | none => return .error "typed_continuation_active_plan_invalid"
      | some queryPlan =>
        if E.continuationEligibility stored decision token queryPlan context ≠ [] then return .error "typed_continuation_not_eligible"
        else return .ok (stored, decision, context, queryPlan)
  | _, _, _ => .ok (.error "typed_continuation_state_invalid")

/-- `replan_node`. -/
def replan (config : RunConfig) (runtime : Option TypedRuntimeBundle) (a : Answers D.toCalculationDigests) (d : DecisionChannels)
    (w : WorkChannels D.toCalculationDigests) : Visit ReplanCall (DecisionChannels × WorkChannels D.toCalculationDigests) :=
  match E.replanInputs d w with
  | .error e => .silent (.error e)
  | .ok (.error reason) => .silent (.ok (continuationStopped d w reason))
  | .ok (.ok (stored, decision, context, queryPlan)) =>
    if E.runtimeMissing runtime then .silent (.error .runtimeUnavailable)
    else
      match a.replan, config.identity with
      | none, _ => .silent (.ok (continuationStopped d w "slot_bound_replan_unavailable"))
      | some _, none => .silent (.error (.unavailable "request identity"))
      | some answer, some identity =>
        let call : ReplanCall := .replan w.question context identity queryPlan decision.slotBindings
        match answer with
        | .error _ => .calling call (.ok (continuationStopped d w "slot_bound_replan_failed"))
        | .ok newPlan =>
          match E.validator.validateQueryPlan D.toPlanDigests newPlan context identity.toRequestIdentity with
          | none => .calling call (.ok (continuationStopped d w "replanned_validation_failed"))
          | some validation =>
            let rest := E.replannedWith config a.factory stored decision newPlan context validation d w
            ⟨call :: rest.calls.map .factory, rest.result⟩

end Engine

end Nl2Sql
