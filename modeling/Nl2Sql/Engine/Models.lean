import Nl2Sql.Engine.Nodes

/-!
# The nodes that call a model

The analysis of an executed plan, the model node of the route without a plan and the approval of what a deep route generated. Both
callers of the gateway are written in two parts, what leads to the call and what follows it, so that a visit holds at most the one call
between them.
-/

namespace Nl2Sql

open Py

namespace Engine

variable {D : EngineDigests} (E : Engine D)

/-- The code of a gateway error, with the name of its class, whether it is retryable and whether a policy denied. -/
def gatewayError? : ModelGatewayFailure → Option (String × String × Bool × Bool)
  | .outputInvalid _ => some ("ModelOutputInvalid", "model_output_validation_failed", false, false)
  | .gateway name code retryable policyDenied => some (name, code, retryable, policyDenied)
  | _ => none

/-- What leads to a model call: an exit before it, or the call with the ledger that counted it. -/
inductive CallStart (D : EngineDigests) (α : Type) where
  | stopped (w : WorkChannels D.toCalculationDigests)
  | ready (start : α) (ledger : RouteBudgetLedger) (call : ModelCall)

/-- `begin_model_call`, with the exit of a budget that is exceeded: the work channels of it are a function of the stop reason. -/
def beginCall {α : Type} (ledger : RouteBudgetLedger) (start : α) (call : ModelCall)
    (exceeded : String → WorkChannels D.toCalculationDigests) : Except NodeError (CallStart D α) :=
  match RouteBudgetLedger.beginModelCall.run ledger with
  | .ok _ ledger => .ok (.ready start ledger call)
  | .error (.budgetExceeded message) ledger => do
    let (stopReason, ledger) ← useRouteBudget (stopReasonOr message) ledger
    return .stopped (← checkpointed ledger (exceeded stopReason))
  | .error e _ => .error (.ledger e)

/-! ## Analysis -/

/-- An exit of the analysis node: the blocks are emptied. -/
def analysisStopped (w : WorkChannels D.toCalculationDigests) (content reason flag : String) : WorkChannels D.toCalculationDigests :=
  { w.stopWith content reason flag with responseBlocks := [] }

/-- The evidence of the analysis and the text of the facts: an error is a code. -/
def analysisEvidence (w : WorkChannels D.toCalculationDigests) : Except String (AnalysisInput × String) :=
  match w.groundedAnswerArtifact, w.groundedAnswerText with
  | some artifact, some text =>
    match w.executionRecord, w.queryPlan, w.executionPlan with
    | some record, some queryPlan, some executionPlan => do
      let input ← E.analysisInput ⟨text, artifact⟩ record (D.executionPlan executionPlan) queryPlan.timeRange w.question
      .ok (input, text)
    | _, _, _ => .error "analysis_evidence_invalid"
  | _, _ => .error "analysis_grounded_answer_missing"

/-- The budget of a model call. -/
def callBudget (deadlineMs : Int) : CallBudget :=
  ⟨deadlineMs, E.agent.tokenBudget, E.agent.costBudget, E.agent.maxModelAttempts⟩

/-- The call of the analysis. -/
def analysisCall (input : AnalysisInput) (w : WorkChannels D.toCalculationDigests) (deadlineMs : Int) : ModelCall where
  request :=
    { stage := .answer
      modelAlias := "fast.default"
      messages := input.messages
      structured := true
      deadlineMs := deadlineMs
      tokenBudget := E.agent.tokenBudget
      costBudget := E.agent.costBudget
      promptVersion := "v2-governed-analysis-v1"
      planReason := none
      authorizationRevision := w.boundAuthorizationRevision }
  budget := E.callBudget deadlineMs

/-- The analysis node up to its call. -/
def analysisStart (config : RunConfig) (b : RunBinding) (now : Int) (w : WorkChannels D.toCalculationDigests) :
    Except NodeError (CallStart D (AnalysisInput × String)) :=
  match E.analysisEvidence w with
  | .error code =>
    .ok (.stopped (analysisStopped w "Governed analysis evidence is unavailable; no model interpretation was attempted." code
      "AnalysisEvidenceUnavailable"))
  | .ok (input, sourceFacts) => do
    let route ← activeRoute w
    match E.routeBudgetFromState w route with
    | .error _ =>
      .ok (.stopped (analysisStopped w "Analysis budget state is invalid." "analysis_budget_record_invalid"
        "AnalysisBudgetRecordInvalid"))
    | .ok ledger =>
      let deadlineMs := E.remainingRouteDeadlineMs config b now route
      if deadlineMs < 1 then
        return .stopped (← checkpointed ledger (analysisStopped w "Analysis deadline was exhausted." "analysis_deadline_exceeded"
          "AnalysisDeadlineExceeded"))
      else
        beginCall ledger (input, sourceFacts) (E.analysisCall input w deadlineMs) fun stopReason =>
          analysisStopped w "Analysis model budget is unavailable." stopReason "AnalysisModelBudgetExceeded"

/-- An exit of the analysis after its call, with an error recorded. -/
def analysisFailed (ledger : RouteBudgetLedger) (w : WorkChannels D.toCalculationDigests) (record : LedgerM Unit)
    (content reason flag : String) (receipt : Option ModelReceipt) : Except NodeError (WorkChannels D.toCalculationDigests) := do
  let (stopReason, ledger) ← useRouteBudget (do record; stopReasonOr reason) ledger
  let w := analysisStopped w content stopReason flag
  checkpointed ledger { w with modelReceipt := (receipt.map E.scrubReceipt).or w.modelReceipt }

/-- `_render_analysis_interpretation`. -/
def renderAnalysisInterpretation (sourceFacts : String) (interpretation : AnalysisInterpretation) : String :=
  let titled (title : String) (statements : List AnalysisStatement) : List String :=
    if statements.isEmpty then [] else ["", title] ++ statements.map fun statement => "- " ++ statement.text.val
  "\n".intercalate
    (["SOURCE FACTS", sourceFacts, "", "MODEL INTERPRETATION", interpretation.summary.text.val] ++
      titled "OBSERVATIONS" interpretation.observations ++ titled "CAVEATS" interpretation.caveats)

/-- The end of the analysis: the interpretation is rendered below the facts. -/
def analysisCompleted (input : AnalysisInput) (sourceFacts : String) (interpretation : AnalysisInterpretation) (receipt : ModelReceipt)
    (ledger : RouteBudgetLedger) (w : WorkChannels D.toCalculationDigests) : Except NodeError (WorkChannels D.toCalculationDigests) := do
  let (retryStop, ledger) ← useRouteBudget (RouteBudgetLedger.recordProviderRetries receipt.retries) ledger
  match retryStop with
  | some reason =>
    let w := analysisStopped w "Model service is unavailable for analysis." reason "ProviderRetryBudgetExceeded"
    checkpointed ledger { w with modelReceipt := some (E.scrubReceipt receipt) }
  | none =>
    let rendered := renderAnalysisInterpretation sourceFacts interpretation
    let provenance := { input.provenance with model := some (receipt.provider, receipt.resolvedModel) }
    if provenance.bounded then
      checkpointed ledger
        { w.reply rendered with
          modelReceipt := some (E.scrubReceipt receipt)
          responseBlocks := [.text rendered, .provenance provenance] }
    else
      .error .contract

/-- The analysis node after its call. -/
def analysisAnswered (start : AnalysisInput × String) (ledger : RouteBudgetLedger)
    (answer : Except ModelGatewayFailure (AnalysisInterpretation × ModelReceipt)) (w : WorkChannels D.toCalculationDigests) :
    Except NodeError (WorkChannels D.toCalculationDigests) :=
  match answer with
  | .error (.outputInvalid receipt) =>
    E.analysisFailed ledger w (discard (RouteBudgetLedger.recordError "model_output_validation_failed" false false))
      "The governed model interpretation was invalid." "analysis_interpretation_invalid" "AnalysisInterpretationInvalid"
      (some { receipt with content := "" })
  | .error (.gateway name code retryable policyDenied) =>
    E.analysisFailed ledger w (discard (RouteBudgetLedger.recordError code policyDenied retryable))
      "Model service is unavailable for analysis." code name none
  | .error (.budgetExceeded message) =>
    E.analysisFailed ledger w (pure ()) "Model service is unavailable for analysis." message "BudgetExceeded" none
  | .error .raised => .error .raised
  | .ok (interpretation, receipt) =>
    match validateAnalysisInterpretation interpretation start.1.evidence with
    | .error (.evidence _) =>
      E.analysisFailed ledger w (discard (RouteBudgetLedger.recordError "analysis_interpretation_invalid" false false))
        "The governed model interpretation was invalid." "analysis_interpretation_invalid" "AnalysisInterpretationInvalid" (some receipt)
    | .error (.decimal _) => .error .raised
    | .ok interpretation => E.analysisCompleted start.1 start.2 interpretation receipt ledger w

/-- `analysis_node`. -/
def analysis (config : RunConfig) (b : RunBinding) (now : Int) (answer : Except ModelGatewayFailure (AnalysisInterpretation × ModelReceipt))
    (w : WorkChannels D.toCalculationDigests) : Visit ModelCall (WorkChannels D.toCalculationDigests) :=
  match E.analysisStart config b now w with
  | .error e => .silent (.error e)
  | .ok (.stopped w) => .silent (.ok w)
  | .ok (.ready start ledger call) => .calling call (E.analysisAnswered start ledger answer w)

/-! ## The model node -/

/-- An exit of the model node: its flags replace those of the run. -/
def modelStopped (w : WorkChannels D.toCalculationDigests) (content reason flag : String) : WorkChannels D.toCalculationDigests :=
  { w.reply content with stopReason := some reason, degradationFlags := [flag] }

/-- The call of the model node: a deep route and a shadow run ask for a plan. -/
def modelCall (config : RunConfig) (route : RouteName) (w : WorkChannels D.toCalculationDigests) (deadlineMs : Int) : ModelCall :=
  let plans := config.shadowMode || decide (route = .deep)
  { request :=
      { stage := if plans then .plan else .answer
        modelAlias := if plans then "plan.standard" else "fast.default"
        messages := [("user", w.question)]
        structured := false
        deadlineMs := deadlineMs
        tokenBudget := E.agent.tokenBudget
        costBudget := E.agent.costBudget
        promptVersion := "v2-engine-v1"
        planReason := if plans then some "deep_or_shadow_route" else none
        authorizationRevision := w.boundAuthorizationRevision }
    budget := E.callBudget deadlineMs }

/-- The model node up to its call. -/
def modelStart (config : RunConfig) (b : RunBinding) (now : Int) (budgetElapsedMs : Nat) (w : WorkChannels D.toCalculationDigests) :
    Except NodeError (CallStart D RouteName) := do
  let route ← activeRoute w
  let ledger ← E.routeBudgetFromState w route
  let deadlineMs := E.remainingRouteDeadlineMs config b now route
  if route = .fast then
    let (stopReason, ledger) ← useRouteBudget (RouteBudgetLedger.halt "fast_model_call_blocked") ledger
    return .stopped (← checkpointed ledger (modelStopped w
      "Deterministic Fast execution is unavailable for this request; model invocation was blocked." stopReason "FastModelCallBlocked"))
  else
    match shouldStop (E.callBudget deadlineMs) E.budgetPolicy budgetElapsedMs with
    | some reason =>
      let (_, ledger) ← useRouteBudget (RouteBudgetLedger.halt reason) ledger
      return .stopped (← checkpointed ledger (modelStopped w "The request budget is unavailable for this route." reason "BudgetExceeded"))
    | none =>
      beginCall ledger route (E.modelCall config route w deadlineMs) fun stopReason =>
        modelStopped w "The request budget is unavailable for this route." stopReason "BudgetExceeded"

/-- What the model node returns: the work channels, and the approval channels where it asks for one. -/
abbrev ModelResult (D : EngineDigests) : Type := WorkChannels D.toCalculationDigests × Option HitlChannels

/-- The generated plan is kept at the checkpoint until its owner decides. -/
def awaitingApproval (w : WorkChannels D.toCalculationDigests) (answer : String) : WorkChannels D.toCalculationDigests :=
  { w with
    pendingAnswer := some answer
    needsHitl := true
    hitlStatus := some "awaiting_action"
    authorizationRevision := w.boundAuthorizationRevision }

/-- The model node after an answer of the gateway. -/
def modelAnswered (config : RunConfig) (route : RouteName) (ledger : RouteBudgetLedger) (receipt : ModelReceipt)
    (w : WorkChannels D.toCalculationDigests) : Except NodeError (ModelResult D) := do
  let (retryStop, ledger) ← useRouteBudget (RouteBudgetLedger.recordProviderRetries receipt.retries) ledger
  match retryStop with
  | some reason =>
    return (← checkpointed ledger (modelStopped w "Model service is unavailable for this request." reason
      "ProviderRetryBudgetExceeded"), none)
  | none =>
    let answer := E.scrubText ((if config.shadowMode then "Shadow plan (no business SQL executed): " else "") ++ receipt.content)
    let w ← checkpointed ledger { w with modelReceipt := some (E.scrubReceipt receipt) }
    if route = .deep ∧ config.shadowMode = false then
      return (awaitingApproval w answer, some ⟨some 1, Dict.empty⟩)
    else
      return (w.reply answer, none)

/-- The model node after its call. -/
def modelReturned (config : RunConfig) (route : RouteName) (ledger : RouteBudgetLedger) (answer : Except ModelGatewayFailure ModelReceipt)
    (w : WorkChannels D.toCalculationDigests) : Except NodeError (ModelResult D) :=
  match answer with
  | .ok receipt => E.modelAnswered config route ledger receipt w
  | .error .raised => .error .raised
  | .error (.budgetExceeded message) => do
    let (stopReason, ledger) ← useRouteBudget (stopReasonOr message) ledger
    return (← checkpointed ledger (modelStopped w "Model service is unavailable for this request." stopReason "BudgetExceeded"), none)
  | .error failure =>
    match gatewayError? failure with
    | none => .error .raised
    | some (name, code, retryable, policyDenied) => do
      let (stopReason, ledger) ← useRouteBudget
        (do let _ ← RouteBudgetLedger.recordError code policyDenied retryable; stopReasonOr code) ledger
      return (← checkpointed ledger (modelStopped w "Model service is unavailable for this request." stopReason name), none)

/-- `model_node`. -/
def model (config : RunConfig) (b : RunBinding) (now : Int) (budgetElapsedMs : Nat) (answer : Except ModelGatewayFailure ModelReceipt)
    (w : WorkChannels D.toCalculationDigests) : Visit ModelCall (ModelResult D) :=
  match E.modelStart config b now budgetElapsedMs w with
  | .error e => .silent (.error e)
  | .ok (.stopped w) => .silent (.ok (w, none))
  | .ok (.ready route ledger call) => .calling call (E.modelReturned config route ledger answer w)

/-! ## Approval -/

/-- `value == n` in Python: a truth value and a float may equal an integer. -/
def equalsInt : Json → Nat → Bool
  | .int m, n => m == n
  | .bool b, n => b.toNat == n
  | .float text, n =>
    match Decimal.ofString? text with
    | some d => !Decimal.lt d (.ofInt n) && !Decimal.lt (.ofInt n) d
    | none => false
  | _, _ => false

/-- The truth of a value. -/
def truthy : Json → Bool
  | .null => false
  | .bool b => b
  | .int n => n ≠ 0
  | .float text => !(["0.0", "-0.0"].contains text)
  | .str s => s ≠ ""
  | .arr items => !items.isEmpty
  | .obj members => !members.isEmpty

/-- `_authorization_from_payload`: none for what is absent or malformed. -/
def authorizationFromPayload : Option Json → Option AuthorizationContext
  | some (.obj members) =>
    if ∃ m ∈ members, m.1 ∉ ["schema_version", "authorization_revision", "agent_enabled", "scope_level", "allowed_scope_ids"] then none
    else
      match Json.member? "authorization_revision" members, Json.member? "agent_enabled" members,
        Json.member? "scope_level" members with
      | some (.str revision), some (.bool enabled), some (.str level) => do
        let scopeLevel ← ScopeLevel.of? level
        let _ ← match Json.member? "schema_version" members with
          | none => some ()
          | some (.str "1.0") => some ()
          | some _ => none
        let ids ← match Json.member? "allowed_scope_ids" members with
          | none => some []
          | some (.arr items) => items.mapM fun item => match item with
            | .str s => some s
            | _ => none
          | some _ => none
        if h : (1 ≤ revision.length ∧ revision.length ≤ 256) ∧ isBlank revision = false ∧ validIdentifiers ids then
          some ⟨⟨revision, h.1⟩, enabled, scopeLevel, ids, h.2.1, h.2.2⟩
        else
          none
      | _, _, _ => none
  | _ => none

/-- Two snapshots are the same. -/
def sameAuthorization (a b : AuthorizationContext) : Bool :=
  decide (a.authorizationRevision = b.authorizationRevision ∧ a.agentEnabled = b.agentEnabled ∧ a.scopeLevel = b.scopeLevel ∧
    a.allowedScopeIds = b.allowedScopeIds)

/-- `authorization_run_binding_failure`. -/
def authorizationRunBindingFailure (w : WorkChannels D.toCalculationDigests) (supplied : Option AuthorizationContext) : Bool :=
  match w.authorizationContext, w.boundAuthorizationRevision, supplied with
  | none, none, _ => false
  | none, some _, _ => true
  | some _, _, none => false
  | some bound, _, some supplied => !sameAuthorization supplied bound

/-- The statuses of the approval actions. -/
def actionStatus? : String → Option String
  | "approve" => some "approved"
  | "modify" => some "modified"
  | "reject" => some "rejected"
  | "cancel" => some "cancelled"
  | _ => none

/-- `_failed_action`. -/
def failedAction (h : HitlChannels) (w : WorkChannels D.toCalculationDigests) (version : Nat) (reason : String) :
    HitlChannels × WorkChannels D.toCalculationDigests :=
  ({ h with hitlVersion := some version },
    { w.reply "The requested approval action could not be applied." with hitlStatus := some reason, needsHitl := false })

/-- The text of an applied action. -/
def actionContent (action status : String) (w : WorkChannels D.toCalculationDigests) (feedback : Option Json) : String :=
  if action = "approve" then w.pendingAnswer.getD "None"
  else if action = "modify" then
    match feedback with
    | some value =>
      if truthy value then
        "Plan modification requested: " ++
          match value with
          | .str s => s
          | other => E.showJson other
      else "Plan modification requested."
    | none => "Plan modification requested."
  else "Request " ++ status ++ ". No business SQL was executed."

/-- The action of a payload, as `action not in {...}` reads it: a value that is not hashable raises. -/
def payloadAction (members : List (String × Json)) : Except NodeError (Option String) :=
  match Json.member? "action" members with
  | some (.str action) => .ok (some action)
  | some (.arr _) => .error .raised
  | some (.obj _) => .error .raised
  | _ => .ok none

/-- The checks of an approval action, with its key: an error is the failed action. -/
def approvalKey (members : List (String × Json)) (h : HitlChannels) (w : WorkChannels D.toCalculationDigests) :
    Except (HitlChannels × WorkChannels D.toCalculationDigests) String :=
  let version := h.hitlVersion.getD 1
  match Json.member? "idempotency_key" members with
  | some (.str key) =>
    if key = "" then .error (failedAction h w version "missing_idempotency_key")
    else if ¬ (Json.member? "expected_version" members).any (equalsInt · version) then
      .error (failedAction h w version "stale_action_version")
    else if authorizationRunBindingFailure w (authorizationFromPayload (Json.member? "authorization_context" members)) then
      .error (failedAction h { w with stopReason := some "authorization_run_binding_mismatch" } version
        "authorization_run_binding_mismatch")
    else .ok key
  | _ => .error (failedAction h w version "missing_idempotency_key")

/-- The application of an approval action. -/
def applyAction (members : List (String × Json)) (action status key : String) (h : HitlChannels)
    (w : WorkChannels D.toCalculationDigests) : HitlChannels × WorkChannels D.toCalculationDigests :=
  let version := h.hitlVersion.getD 1
  match h.appliedActions.get? key with
  | some existing => (h, { w with hitlStatus := some existing.status, needsHitl := false })
  | none =>
    (⟨some (version + 1), h.appliedActions.set key ⟨status, version + 1⟩⟩,
      { w.reply (E.actionContent action status w (Json.member? "feedback" members)) with
        hitlStatus := some status
        needsHitl := false })

/-- `hitl_node`, after its interrupt returned a payload. -/
def hitl (payload : Json) (h : HitlChannels) (w : WorkChannels D.toCalculationDigests) :
    Except NodeError (HitlChannels × WorkChannels D.toCalculationDigests) :=
  match payload with
  | .obj members => do
    match ← payloadAction members with
    | none => return failedAction h w (h.hitlVersion.getD 1) "unsupported_action"
    | some action =>
      match actionStatus? action with
      | none => return failedAction h w (h.hitlVersion.getD 1) "unsupported_action"
      | some status =>
        match approvalKey members h w with
        | .error failed => return failed
        | .ok key => return E.applyAction members action status key h w
  | _ => .ok (failedAction h w (h.hitlVersion.getD 1) "invalid_action_payload")

end Engine

end Nl2Sql
