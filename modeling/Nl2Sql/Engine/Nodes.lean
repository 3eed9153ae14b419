import Nl2Sql.Engine.State

/-!
# The nodes that do the work

The nodes of `orchestration/engine.py` from the receipt of a request to the execution of its plan and the interpretation of the result.
A node reads the binding of the run and the work channels and returns the work channels; what it calls is in the visit. An exception
that the node catches is a result, one that it does not catch is the error of the visit.
-/

namespace Nl2Sql

open Py

namespace Engine

variable {D : EngineDigests} (E : Engine D)

/-! ## Deadlines -/

/-- `_request_elapsed_ms`, of the instant the run started at. -/
def requestElapsedMs (b : RunBinding) (now : Int) : Int :=
  match b.requestStartedAt with
  | none => 120000
  | some started => if now - started < -1000000 then 120000 else max 0 ((now - started) / 1000)

/-- `_request_deadline_ms`. -/
def requestDeadlineMs (config : RunConfig) : Int :=
  match config.deadlineMs with
  | some deadline => if 1 ≤ deadline then min E.agent.requestDeadlineMs deadline else E.agent.requestDeadlineMs
  | none => E.agent.requestDeadlineMs

/-- `_remaining_route_deadline_ms`. -/
def remainingRouteDeadlineMs (config : RunConfig) (b : RunBinding) (now : Int) (route : RouteName) : Int :=
  let elapsed := requestElapsedMs b now
  max 0 (min (E.requestDeadlineMs config - elapsed) ((E.budgetPolicy.routes route).deadlineMs - elapsed))

/-- `_pre_route_timeout_ms`. -/
def preRouteTimeoutMs (config : RunConfig) (b : RunBinding) (now : Int) : Int :=
  max 0 (E.remainingRouteDeadlineMs config b now .standard - E.budgetPolicy.reserveMs)

/-- `_request_runtime()` raises: a factory is wired, and this invocation has no runtime from it. -/
def runtimeMissing (runtime : Option TypedRuntimeBundle) : Bool := decide (E.wiring = .factory) && runtime.isNone

/-! ## The ledger of the run -/

/-- A method of the ledger in a node: what it raises, the node raises. -/
def useRouteBudget {α : Type} (m : LedgerM α) (ledger : RouteBudgetLedger) : Except NodeError (α × RouteBudgetLedger) :=
  match m.run ledger with
  | .ok a ledger => .ok (a, ledger)
  | .error e _ => .error (.ledger e)

/-- `route_budget.stop_reason or route_budget.halt(reason)`. -/
def stopReasonOr (reason : String) : LedgerM String := do
  match (← get).stopReason with
  | some stopped => if stopped = "" then RouteBudgetLedger.halt reason else pure stopped
  | none => RouteBudgetLedger.halt reason

variable (w : WorkChannels D.toCalculationDigests)

/-- `_route`. -/
def activeRoute : Except NodeError RouteName :=
  match w.routeRecord with
  | some decision => .ok decision.route
  | none => .error (.unavailable "active route decision")

/-- `_route_budget_from_state`. -/
def routeBudgetFromState (route : RouteName) : Except NodeError RouteBudgetLedger :=
  match w.budgetRecord with
  | none => .ok { route := route, policy := E.budgetPolicy }
  | some record =>
    match RouteBudgetLedger.fromRecord D.budgetPolicy E.budgetPolicy record with
    | .error e => .error (.ledger e)
    | .ok ledger =>
      if ledger.route ≠ route then
        .error (.ledger (.valueError "checkpoint route does not match the active route decision"))
      else
        .ok ledger

/-- The work channels with the checkpoint of a ledger. -/
def checkpointed (ledger : RouteBudgetLedger) (w : WorkChannels D.toCalculationDigests) :
    Except NodeError (WorkChannels D.toCalculationDigests) :=
  match ledger.checkpointRecord D.budgetPolicy with
  | .ok record => .ok { w with budgetRecord := some record }
  | .error e => .error (.ledger e)

/-! ## Receiving -/

variable (config : RunConfig)

/-- `_resolve_run_authorization`: the snapshot and, where it allows, its revision. -/
def resolveRunAuthorization : Option AuthorizationContext × Option String :=
  match config.authorization with
  | none => (none, none)
  | some authorization =>
    match evaluateAuthorization authorization none none none with
    | .allow revision => (some authorization, some revision.val)
    | .deny => (some authorization, none)

/-- `receive_node`: the channels it lists are reset, the others are what the thread left. -/
def receive (now : Int) (s : V2EngineState D.toCalculationDigests) : V2EngineState D.toCalculationDigests where
  binding :=
    { runEnvelope := s.binding.runEnvelope
      runOwnerUserId := config.identity.map (·.userId)
      requestStartedAt := some now }
  decision := {}
  hitl := s.hitl
  work :=
    { messages := s.work.messages
      authorizationContext := (resolveRunAuthorization config).1
      authorizationRevision := (resolveRunAuthorization config).2
      modeCapabilityOutcome := s.work.modeCapabilityOutcome
      modeCapabilityPending := s.work.modeCapabilityPending }

/-! ## The runtime, the context and the plan -/

/-- The exit of the runtime node without a runtime. -/
def runtimeUnavailable (reason : String) : WorkChannels D.toCalculationDigests :=
  { w.stopWith "The typed query runtime is unavailable for this request." "typed_runtime_unavailable" "TypedRuntimeUnavailable" with
    typedRuntimeUnavailableReason := some reason }

/-- `typed_runtime_node`: the runtime it returns is the invocation's. -/
def typedRuntime (answer : FactoryAnswer) (w : WorkChannels D.toCalculationDigests) :
    Visit FactoryCall (WorkChannels D.toCalculationDigests × Option TypedRuntimeBundle) :=
  match config.identity with
  | none => .silent (.ok (runtimeUnavailable w "request_identity_missing", none))
  | some identity =>
    .calling ⟨identity, w.authorizationContext, w.boundAuthorizationRevision⟩
      (match answer with
        | .raised => .error .raised
        | .unavailable reason => .ok (runtimeUnavailable w reason, none)
        | .runtime bundle =>
          .ok
            ({ w with
                authorizationContext := some bundle.authorization
                authorizationRevision := some bundle.authorizationRevision
                typedRuntimeUnavailableReason := none }.degrade [], some bundle))

/-- The exits of the context node that catch an exception. -/
def contextFailed : ResolverFailure → WorkChannels D.toCalculationDigests
  | .timeout =>
    w.stopWith "Semantic context could not be resolved for this request." "context_deadline_exceeded" "ContextDeadlineExceeded"
  | .raised =>
    w.stopWith "Semantic context could not be resolved for this request." "context_compilation_failed" "ContextCompilationFailed"

/-- `context_node`. -/
def context (config : RunConfig) (runtime : Option TypedRuntimeBundle) (b : RunBinding) (now : Int)
    (answer : Except ResolverFailure ContextBundle) (w : WorkChannels D.toCalculationDigests) :
    Visit ResolveCall (WorkChannels D.toCalculationDigests) :=
  if ¬ E.typedPipelineEnabled then .silent (.ok w)
  else if E.runtimeMissing runtime then .silent (.error .runtimeUnavailable)
  else if E.preRouteTimeoutMs config b now < 1 then .silent (.ok (contextFailed w .timeout))
  else
    match config.identity with
    | none => .silent (.ok (contextFailed w .raised))
    | some identity =>
      .calling ⟨E.normalizeQuestion w.question, identity⟩
        (match answer with
          | .error failure => .ok (contextFailed w failure)
          | .ok context => .ok ({ w with contextBundle := some context }.degrade context.degradationFlags))

/-- The card of a BUILD run whose question no deterministic plan serves. -/
def buildReadyCard : ResponseBlock :=
  .planCard "Definition 构建已就绪"
    "已创建 BUILD 运行。请在 Definition 工作台创建或编辑计算定义；本运行已绑定 thread/run，可继续确认、保存并发布。" 1
    ["open_definition_workbench"]

/-- The exits of the plan node that catch an exception: what an unsupported question leads to is the mode's. -/
def proposalFailed (b : RunBinding) (w : WorkChannels D.toCalculationDigests) : ProposalFailure → WorkChannels D.toCalculationDigests
  | .unsupported =>
    match b.effectiveMode with
    | some .build => { w with responseBlocks := [buildReadyCard] }
    | some .query => { w with modeCapabilityPending := true }
    | _ => w.stopWith "A typed query plan could not be produced." "query_plan_proposal_failed" "QueryPlanProposalFailed"
  | .timeout => w.stopWith "A typed query plan could not be produced." "query_plan_deadline_exceeded" "QueryPlanDeadlineExceeded"
  | .raised => w.stopWith "A typed query plan could not be produced." "query_plan_proposal_failed" "QueryPlanProposalFailed"

/-- `plan_node`. -/
def plan (runtime : Option TypedRuntimeBundle) (b : RunBinding) (now : Int)
    (answer : Except ProposalFailure QueryPlan) (w : WorkChannels D.toCalculationDigests) :
    Visit ProposeCall (WorkChannels D.toCalculationDigests) :=
  if ¬ E.typedPipelineEnabled then .silent (.ok w)
  else if E.runtimeMissing runtime then .silent (.error .runtimeUnavailable)
  else
    match w.contextBundle with
    | none => .silent (.ok (proposalFailed b w .raised))
    | some context =>
      if E.preRouteTimeoutMs config b now < 1 then .silent (.ok (proposalFailed b w .timeout))
      else
        match config.identity with
        | none => .silent (.ok (proposalFailed b w .raised))
        | some identity =>
          .calling ⟨E.normalizeQuestion w.question, context, identity⟩
            (match answer with
              | .error failure => .ok (proposalFailed b w failure)
              | .ok proposed => .ok { w with queryPlan := some proposed })

/-! ## Validation -/

/-- A new request is pending. -/
def await (d : DecisionChannels) (request : HITLRequest) : DecisionChannels :=
  { d with
    pendingDecision := some request
    decisionStatus := some .awaitingDecision
    decisionVersion := request.version }

/-- `validate_query_plan` of the plan and the context of the run: none where the node catches an exception. -/
def validated? (w : WorkChannels D.toCalculationDigests) :
    Option (QueryPlan × ContextBundle × PlanValidationRecord) := do
  let queryPlan ← w.queryPlan
  let context ← w.contextBundle
  let identity ← config.identity
  let validation ← E.validator.validateQueryPlan D.toPlanDigests queryPlan context identity.toRequestIdentity
  some (queryPlan, context, validation)

/-- `validate_node`: a clarification suspends the run with a typed request. -/
def validate (d : DecisionChannels) (w : WorkChannels D.toCalculationDigests) :
    DecisionChannels × WorkChannels D.toCalculationDigests :=
  if ¬ E.typedPipelineEnabled then (d, w)
  else
    match E.validated? config w with
    | none => (d, w.stopWith "The typed query plan could not be validated." "query_plan_validation_failed" "QueryPlanValidationFailed")
    | some (queryPlan, context, validation) =>
      let w := { w with queryPlanValidation := some validation }
      match validation.outcome with
      | .allow => (d, w)
      | .clarify =>
        match clarificationRequest? D.decision D.toPlanDigests validation context queryPlan (d.decisionVersion + 1) with
        | none =>
          (d, w.stopWith "The request needs clarification, but no bounded clarification could be formed."
            "query_plan_clarification_unbounded" "PlanClarificationUnbounded")
        | some request => (await d request, { w with needsHitl := false })
      | _ => (d, w.stopWith "The typed query plan was not permitted." "query_plan_validation_denied" "PlanValidationDenied")

/-! ## Routing -/

/-- The request can be served without a model. -/
def deterministicReady : Bool :=
  match w.contextBundle, w.queryPlan, w.queryPlanValidation with
  | some context, some queryPlan, some validation =>
    decide (validation.outcome = .allow ∧ validation.queryPlanSha256 = D.queryPlan queryPlan ∧
      validation.contextChecksum = D.context context ∧ context.resolutionStatus = .resolved ∧ context.unresolvedSlots = [] ∧
      context.conflictIds = [] ∧ queryPlan.unresolvedSlots = [] ∧ queryPlan.sourceStrategy = .aggregateFirst ∧
      context.tokenCost ≤ 2000 ∧ context.evidenceCount ≤ 6 ∧ context.approvedRelationIds.length ≤ 2)
  | _, _, _ => false

/-- `_signals`. Lower-casing beyond ASCII yields no character of the words looked for. -/
def signals (fastBudgetAvailable : Bool) : RiskSignals :=
  let text := lower w.question
  let ready := deterministicReady w
  match w.contextBundle with
  | none =>
    { restrictedData := ["敏感", "restricted", "pii"].any (containsText · text)
      tableCount := if ["join", "关联", "多表"].any (containsText · text) then 3 else 1
      ambiguousMetricOrFilter := ["可能", "大概", "全部"].any (containsText · text)
      dynamicCalculation := ["同比", "环比", "排名", "自定义计算"].any (containsText · text)
      unknownExplainCost := !ready
      requiresModel := !ready
      fastBudgetAvailable := fastBudgetAvailable
      tables_pos := by split <;> decide }
  | some context =>
    { restrictedData := false
      tableCount := max 1 (context.approvedEdgeIds.length + 1)
      ambiguousMetricOrFilter := decide (context.resolutionStatus ≠ .resolved ∨ context.unresolvedSlots ≠ [])
      dynamicCalculation := w.queryPlan.any fun queryPlan => queryPlan.intent = .comparison ∨ queryPlan.intent = .ranking
      unknownExplainCost := !ready
      requiresModel := !ready
      fastBudgetAvailable := fastBudgetAvailable
      tables_pos := Nat.le_max_left _ _ }

/-- The confidence of a route. -/
def confidence (s : RiskSignals) : ℚ :=
  if w.contextBundle.any fun context => context.resolutionStatus = .resolved then 9 / 10
  else if s.score ≤ 20 then 9 / 10
  else if s.score ≤ 60 then 7 / 10
  else 9 / 20

/-- `route_node`. -/
def route (config : RunConfig) (b : RunBinding) (now : Int) (w : WorkChannels D.toCalculationDigests) :
    Except NodeError (WorkChannels D.toCalculationDigests) :=
  if b.effectiveMode = some .analyze ∧ ¬ E.typedPipelineEnabled then
    .ok (w.stopWith "Governed analysis requires a typed query plan and execution evidence." "analysis_typed_pipeline_unavailable"
      "AnalysisTypedPipelineUnavailable")
  else
    let s := signals w (decide ((E.budgetPolicy.reserveMs : Int) < E.remainingRouteDeadlineMs config b now .fast))
    let decision := chooseRoute D.routePolicy s (confidence w s) E.routePolicy
    checkpointed { route := decision.route, policy := E.budgetPolicy } { w with routeRecord := some decision }

/-- The run id of a capability outcome. -/
def capabilityRunId (b : RunBinding) : BoundedText 1 64 :=
  match b.runEnvelope with
  | some envelope => envelope.runId
  | none => ⟨"unknown-run", by decide⟩

/-- `mode_capability_node`. -/
def modeCapability (b : RunBinding) (w : WorkChannels D.toCalculationDigests) : WorkChannels D.toCalculationDigests :=
  if w.queryPlanValidation.any fun validation => validation.outcome = .clarify then
    { w with modeCapabilityOutcome := none, stopReason := some "query_plan_clarification_required" }
  else
    { w with
      modeCapabilityOutcome := some
        { runId := capabilityRunId b
          effectiveMode := .query
          outcome := .cannotResolve
          suggestedMode := some .analyze
          unresolvedSlots := []
          slots_length := by decide
          suggestion_iff := by decide
          suggestion_differs := by decide
          resolved_slots := by decide
          clarification_slots := by decide }
      stopReason := some "mode_cannot_resolve"
      needsHitl := false }

/-! ## Compilation -/

/-- The plan compiled from the work channels, with its validation: none where the node catches an exception. -/
def compiled? (limits : RouteBudget) :
    Option (ExecutionPlan D.toCalculationDigests × PlanValidationRecord) := do
  let context ← w.contextBundle
  let queryPlan ← w.queryPlan
  let queryValidation ← w.queryPlanValidation
  let executionPlan ← (E.compiler.compile D.toPlanDigests queryPlan context queryValidation).toOption
  let validation ← E.validator.validateExecutionPlan D.toPlanDigests executionPlan queryPlan context limits
  some (executionPlan, validation)

/-- The exit of a node that halts the ledger with a reason. -/
def haltedWith (ledger : RouteBudgetLedger) (w : WorkChannels D.toCalculationDigests) (content reason flag : String) :
    Except NodeError (WorkChannels D.toCalculationDigests) := do
  let (stopReason, ledger) ← useRouteBudget (RouteBudgetLedger.halt reason) ledger
  checkpointed ledger (w.stopWith content stopReason flag)

/-- `compile_node`. -/
def compile : Except NodeError (WorkChannels D.toCalculationDigests) := do
  let ledger ← E.routeBudgetFromState w (← activeRoute w)
  match E.compiled? w ledger.limits with
  | none =>
    haltedWith ledger w "A governed execution plan could not be compiled." "execution_plan_compilation_failed"
      "ExecutionPlanCompilationFailed"
  | some (executionPlan, validation) =>
    let w ← checkpointed ledger { w with executionPlan := some executionPlan, executionPlanValidation := some validation }
    match validation.outcome with
    | .allow => pure w
    | .approval =>
      haltedWith ledger w "The execution plan requires explicit approval." "execution_plan_approval_required"
        "ExecutionPlanApprovalRequired"
    | _ =>
      haltedWith ledger w "The execution plan was not permitted." "execution_plan_validation_denied" "ExecutionPlanValidationDenied"

/-! ## Execution -/

/-- What the execute node reads before it may execute. -/
structure ExecutionInputs (D : EngineDigests) where
  route : RouteName
  ledger : RouteBudgetLedger
  queryPlan : QueryPlan
  context : ContextBundle
  executionPlan : ExecutionPlan D.toCalculationDigests
  validation : PlanValidationRecord

/-- A channel the node needs. -/
def required {α : Type} (what : String) : Option α → Except NodeError α
  | some a => .ok a
  | none => .error (.unavailable what)

/-- The reads of the execute node. -/
def executionInputs : Except NodeError (ExecutionInputs D) := do
  let route ← activeRoute w
  let ledger ← E.routeBudgetFromState w route
  let queryPlan ← required "typed query plan" w.queryPlan
  let context ← required "typed context bundle" w.contextBundle
  let executionPlan ← required "typed execution plan" w.executionPlan
  let validation ← required "execution_plan_validation" w.executionPlanValidation
  .ok ⟨route, ledger, queryPlan, context, executionPlan, validation⟩

/-- The validation allows this plan, of this query and this context, under the active policy. -/
def validationCurrent (inputs : ExecutionInputs D) : Prop :=
  inputs.validation.outcome = .allow ∧ inputs.validation.queryPlanSha256 = D.queryPlan inputs.queryPlan ∧
    inputs.validation.contextChecksum = D.context inputs.context ∧
    inputs.validation.executionPlanSha256 = some (D.executionPlan inputs.executionPlan) ∧
    inputs.validation.policyVersion.val = E.validator.policyVersion ∧
    inputs.validation.policyChecksum = E.validator.policyChecksum D.toPlanDigests

instance (inputs : ExecutionInputs D) : Decidable (E.validationCurrent inputs) := inferInstanceAs (Decidable (_ ∧ _))

/-- The request to the executor. -/
def executionRequest (inputs : ExecutionInputs D) (deadlineMs : Int) : ExecutionRequest D.toCalculationDigests where
  queryPlan := inputs.queryPlan
  context := inputs.context
  executionPlan := inputs.executionPlan
  validation := inputs.validation
  expectedPolicyVersion := E.validator.policyVersion
  expectedPolicyChecksum := (E.validator.policyChecksum D.toPlanDigests).val
  deadlineMs := deadlineMs

/-- The provenance of an executed answer. -/
def executedProvenance (inputs : ExecutionInputs D) (record : PlanExecutionRecord) (artifact : AnswerArtifact) : Provenance :=
  let sourceIds := fromKeys (record.stepReceipts.filterMap fun receipt => receipt.source.sourceId.map (·.val))
  let sourceCheckpoints := fromKeys (record.stepReceipts.filterMap fun receipt => receipt.source.sourceCheckpoint.map (·.val))
  let dataAsOf := artifact.facts.findSome? fun fact => fact.source.dataAsOf
  { evidenceChecksum := D.artifact artifact
    metricKeys := fromKeys (artifact.facts.filterMap AnswerFact.metricKey)
    analysisWindow := inputs.queryPlan.timeRange
    dataAsOf := dataAsOf
    dataAsOfDate := dataAsOf.map E.shanghaiDate
    sourceIds := sourceIds
    sourceCheckpoints := sourceCheckpoints
    factIds := artifact.facts.map (·.factId)
    authority :=
      { executionPlanChecksum := D.executionPlan inputs.executionPlan
        receiptStepIds := fromKeys (artifact.facts.map (·.stepId.val))
        sourceIds := sourceIds
        sourceCheckpoints := sourceCheckpoints
        semanticSignatures := fromKeys (artifact.facts.filterMap fun fact => fact.source.semanticSignature.map (·.val)) }
    model := none }

/-- The blocks of an executed answer: a text, and the provenance where there is a fact. -/
def executedBlocks (inputs : ExecutionInputs D) (record : PlanExecutionRecord) (grounded : GroundedAnswer) :
    Except NodeError (List ResponseBlock) :=
  if grounded.artifact.facts.isEmpty then .ok [.text grounded.answerText]
  else
    let provenance := E.executedProvenance inputs record grounded.artifact
    if provenance.bounded then .ok [.text grounded.answerText, .provenance provenance] else .error .contract

/-- The rest of the execute node, after the executor returned. -/
def executed (inputs : ExecutionInputs D) (result : PlanExecutionResult) (ledger : RouteBudgetLedger)
    (w : WorkChannels D.toCalculationDigests) : Except NodeError (WorkChannels D.toCalculationDigests) := do
  let w ← checkpointed ledger { w with executionRecord := some result.record }
  if result.record.status = .succeeded then
    match groundExecutionAnswer D.toExecutionDigests inputs.queryPlan inputs.executionPlan result.record result.outputs with
    | none => .error .contract
    | some grounded =>
      let blocks ← E.executedBlocks inputs result.record grounded
      pure
        ({ w.reply grounded.answerText with
            groundedAnswerArtifact := some grounded.artifact
            groundedAnswerText := some grounded.answerText
            responseBlocks := blocks }.degrade grounded.artifact.degradationFlags)
  else
    pure (w.stopWith "Typed execution stopped before an answer could be produced."
      (result.record.stopReason.getD "typed_execution_failed") "TypedExecutionFailed")

/-- `execute_node`. -/
def execute (runtime : Option TypedRuntimeBundle) (b : RunBinding) (now : Int)
    (runners : PlanRunners D.toCalculationDigests) (w : WorkChannels D.toCalculationDigests) :
    Visit (ExecutionRequest D.toCalculationDigests) (WorkChannels D.toCalculationDigests) :=
  if E.runtimeMissing runtime then .silent (.error .runtimeUnavailable)
  else
    match E.executionInputs w with
    | .error e => .silent (.error e)
    | .ok inputs =>
      if ¬ E.validationCurrent inputs then
        .silent (haltedWith inputs.ledger w "Validated execution authorization is unavailable." "execution_plan_validation_missing"
          "ExecutionPlanValidationMissing")
      else
        let request := E.executionRequest inputs (E.remainingRouteDeadlineMs config b now inputs.route)
        .calling request
          (match (PlanExecutor.execute D.toExecutionDigests runners request).run ⟨inputs.ledger, [], Dict.empty⟩ with
            | .error e _ => .error (.execute e)
            | .ok result s => E.executed inputs result s.ledger w)

end Engine

end Nl2Sql
