import Nl2Sql.Engine.Contracts
import Nl2Sql.Plan.Compiler

/-!
# The state of a run

`V2EngineState` of `orchestration/engine.py` and what a run reads besides: the wiring of the engine, the configuration of an invocation
and the answers of the code the application injects. The channels are grouped by the nodes that write them, so that a node's type says
what it leaves alone: the binding of the run is written by the receiving node only, the decision channels by the nodes of the typed
clarification, the approval channels by the model and the approval node, and the rest by the nodes that do the work. A channel that
holds the dump of a contract holds the contract here: a dump is read back as what was dumped. The events of the trace are left out; no
node and no edge reads them.
-/

namespace Nl2Sql

open Py

/-- The digests the engine uses besides those of an execution. -/
structure EngineDigests extends ExecutionDigests where
  /-- `_checksum` of the decision contracts -/
  decision : Json → Sha256
  budgetPolicy : RoutingBudgetPolicy → Sha256
  routePolicy : RoutePolicy → Sha256
  /-- the fingerprint of the artifact of an answer -/
  artifact : AnswerArtifact → Sha256

/-! ## Channels -/

inductive MessageType where
  | human | ai | other
  deriving DecidableEq, Repr

structure Message where
  type : MessageType
  content : String
  deriving DecidableEq, Repr

/-- The values of `decision_status`. -/
inductive DecisionStatus where
  | awaitingDecision | invalid | resolvedPendingRevalidation | chooseRecordedNoContinuation | rejected | cancelled
  | recordedNoContinuation | resolvedPendingCurrentAuthorization | currentAuthorizationUnavailable | currentAuthorizationDenied
  | resolvedContinuingCurrentAuthorization | continuationExecutionPlanDenied | continuationStopped | revalidationDenied
  deriving DecidableEq, Repr

/-- One entry of the decision ledger. -/
structure DecisionEntry where
  requestId : RequestId
  requestVersion : Nat
  requestChecksum : Sha256
  decisionChecksum : Sha256
  resumeTokenChecksum : Sha256
  status : DecisionStatus
  request : HITLRequest
  decision : HITLDecision
  resumeToken : ResumeToken
  deriving DecidableEq

/-- One entry of the lineage: a suspended plan and what it was replanned to. -/
structure PlanLineage where
  oldPlanSha256 : Sha256
  requestId : RequestId
  requestVersion : Nat
  requestChecksum : Sha256
  decisionChecksum : Sha256
  slotBindings : List SlotBinding
  newPlanSha256 : Sha256
  newValidationOutcome : ValidationOutcome
  newValidationQueryPlanSha256 : Sha256
  newValidationContextChecksum : Sha256
  deriving DecidableEq

/-- An action applied to an approval. -/
structure AppliedAction where
  status : String
  version : Nat
  deriving DecidableEq

/-- What is bound to a run when it starts. -/
structure RunBinding where
  runEnvelope : Option RunEnvelope := none
  runOwnerUserId : Option String := none
  /-- an instant, in microseconds -/
  requestStartedAt : Option Int := none

/-- The channels of the typed clarification. -/
structure DecisionChannels where
  pendingDecision : Option HITLRequest := none
  decisionStatus : Option DecisionStatus := none
  decisionVersion : Nat := 0
  decisionLedger : Dict IdempotencyKey DecisionEntry := Dict.empty
  resolvedDecision : Option HITLDecision := none
  resumeToken : Option ResumeToken := none
  resolvedPlan : Option QueryPlan := none
  resolvedPlanValidation : Option PlanValidationRecord := none
  planLineage : List PlanLineage := []
  continuationReady : Bool := false

/-- The version and the actions of an approval. -/
structure HitlChannels where
  hitlVersion : Option Nat := none
  appliedActions : Dict String AppliedAction := Dict.empty

/-- The channels of the work of a run. -/
structure WorkChannels (D : CalculationDigests) where
  messages : List Message := []
  contextBundle : Option ContextBundle := none
  queryPlan : Option QueryPlan := none
  queryPlanValidation : Option PlanValidationRecord := none
  routeRecord : Option RouteDecision := none
  budgetRecord : Option RouteBudgetRecord := none
  executionPlan : Option (ExecutionPlan D) := none
  executionPlanValidation : Option PlanValidationRecord := none
  executionRecord : Option PlanExecutionRecord := none
  groundedAnswerArtifact : Option AnswerArtifact := none
  groundedAnswerText : Option String := none
  modelReceipt : Option ModelReceipt := none
  responseBlocks : List ResponseBlock := []
  degradationFlags : List String := []
  stopReason : Option String := none
  pendingAnswer : Option String := none
  needsHitl : Bool := false
  hitlStatus : Option String := none
  authorizationContext : Option AuthorizationContext := none
  authorizationRevision : Option String := none
  typedRuntimeUnavailableReason : Option String := none
  modeCapabilityOutcome : Option ModeCapabilityOutcome := none
  modeCapabilityPending : Bool := false

/-- The channels of the graph. -/
structure V2EngineState (D : CalculationDigests) where
  binding : RunBinding := {}
  decision : DecisionChannels := {}
  hitl : HitlChannels := {}
  work : WorkChannels D := {}

/-- `_effective_mode`. -/
def RunBinding.effectiveMode (b : RunBinding) : Option ProductMode := b.runEnvelope.map (·.effectiveMode)

namespace WorkChannels

variable {D : CalculationDigests} (w : WorkChannels D)

/-- `_question`: the last message of the user. -/
def question : String :=
  match w.messages.reverse.find? fun message => message.type = .human with
  | some message => message.content
  | none => ""

/-- `state.get("stop_reason")` is truthy. -/
def stopped : Bool := w.stopReason.any fun reason => reason ≠ ""

/-- `_degradation_flags`. -/
def degrade (flags : List String) : WorkChannels D :=
  { w with degradationFlags := fromKeys ((w.degradationFlags ++ flags).filter fun flag => !isBlank flag) }

/-- A message of the assistant. -/
def reply (content : String) : WorkChannels D := { w with messages := w.messages ++ [(⟨.ai, content⟩ : Message)] }

/-- A node's exit with a message, a stop reason and a degradation flag. -/
def stopWith (content reason flag : String) : WorkChannels D := { (w.reply content).degrade [flag] with stopReason := some reason }

/-- `_bound_authorization_revision`. -/
def boundAuthorizationRevision : Option String := w.authorizationRevision.filter fun revision => !isBlank revision

end WorkChannels

/-! ## The engine -/

/-- The three wirings `create_v2_engine` accepts: without the typed pipeline, with static collaborators, with a factory. -/
inductive Wiring where
  | untyped | static | factory
  deriving DecidableEq, Repr

/-- The agent's configuration. -/
structure AgentConfig where
  requestDeadlineMs : Nat
  tokenBudget : Nat
  costBudget : ℚ
  maxModelAttempts : Nat

/-- What the analysis projects from an answer: the evidence of the gate, the provenance of it and the messages to the model. -/
structure AnalysisInput where
  evidence : AnalysisEvidenceBundle
  provenance : Provenance
  messages : List (String × String)

/-- An engine: its wiring and policies, and the pure functions of other modules it calls. -/
structure Engine (D : EngineDigests) where
  wiring : Wiring
  validator : PlanValidator
  compiler : PlanCompiler
  routePolicy : RoutePolicy
  budgetPolicy : RoutingBudgetPolicy
  agent : AgentConfig
  /-- `normalize_frozen_real_question` -/
  normalizeQuestion : String → String
  /-- `build_analysis_evidence` with `project_analysis_model_input`; an error is the code of it -/
  analysisInput : GroundedAnswer → PlanExecutionRecord → Sha256 → TimeRange → String → Except String AnalysisInput
  /-- `scrub_text` -/
  scrubText : String → String
  /-- `scrub_value` of a receipt -/
  scrubReceipt : ModelReceipt → ModelReceipt
  /-- the day of an instant in Shanghai -/
  shanghaiDate : String → Date
  /-- `str` of a value that is no text -/
  showJson : Json → String

/-- `typed_pipeline_enabled`. -/
def Engine.typedPipelineEnabled {D : EngineDigests} (E : Engine D) : Prop := E.wiring ≠ .untyped

instance {D : EngineDigests} (E : Engine D) : Decidable E.typedPipelineEnabled := inferInstanceAs (Decidable (_ ≠ _))

/-- The identity of the caller. -/
structure CallerIdentity extends RequestIdentity where
  userId : String

/-- The configuration of one invocation, as the server derived it: none for what is absent or malformed. -/
structure RunConfig where
  identity : Option CallerIdentity
  authorization : Option AuthorizationContext
  deadlineMs : Option Int
  shadowMode : Bool

/-! ## Answers -/

/-- The request-scoped runtime: what the engine reads of it. -/
structure TypedRuntimeBundle where
  authorization : AuthorizationContext
  authorizationRevision : String

inductive FactoryAnswer where
  | runtime (bundle : TypedRuntimeBundle)
  | unavailable (reason : String)
  | raised

/-- How a call of the context resolver fails. -/
inductive ResolverFailure where
  | timeout | raised
  deriving DecidableEq, Repr

/-- How a proposal fails. -/
inductive ProposalFailure where
  /-- `DeterministicQueryUnsupported` -/
  | unsupported
  | timeout
  | raised
  deriving DecidableEq, Repr

/-- What the injected code answers during the visit of one node, and the clock. -/
structure Answers (D : CalculationDigests) where
  /-- the instant of the visit, in microseconds -/
  now : Int
  factory : FactoryAnswer
  resolve : Except ResolverFailure ContextBundle
  propose : Except ProposalFailure QueryPlan
  /-- none for a provider without `replan_with_slot_bindings`, an error for one that raises -/
  replan : Option (Except Unit QueryPlan)
  runners : PlanRunners D
  /-- the time between the making of a call budget and its check -/
  budgetElapsedMs : Nat
  invoke : Except ModelGatewayFailure ModelReceipt
  invokeStructured : Except ModelGatewayFailure (AnalysisInterpretation × ModelReceipt)

/-! ## Calls -/

/-- A call of the runtime factory. -/
structure FactoryCall where
  identity : CallerIdentity
  authorization : Option AuthorizationContext
  expectedRevision : Option String

/-- A call of the context resolver. -/
structure ResolveCall where
  question : String
  identity : CallerIdentity

/-- A call of the query plan provider. -/
structure ProposeCall where
  question : String
  context : ContextBundle
  identity : CallerIdentity

/-- What the replanning node calls: the slot-bound replan, and the factory under the current authorization. -/
inductive ReplanCall where
  | replan (question : String) (context : ContextBundle) (identity : CallerIdentity) (basePlan : QueryPlan)
      (slotBindings : List SlotBinding)
  | factory (call : FactoryCall)

/-- A call of the model gateway. -/
structure ModelCall where
  request : ModelRequest
  budget : CallBudget

/-- A call of injected code during a run. -/
inductive EngineCall (D : CalculationDigests) where
  | factory (call : FactoryCall)
  | resolve (call : ResolveCall)
  | propose (call : ProposeCall)
  | replan (call : ReplanCall)
  | execute (request : ExecutionRequest D)
  | analysis (call : ModelCall)
  | model (call : ModelCall)

/-- A call of the model gateway. -/
def EngineCall.isModel {D : CalculationDigests} : EngineCall D → Bool
  | .analysis _ => true
  | .model _ => true
  | _ => false

/-- A call of the plan executor. -/
def EngineCall.isExecute {D : CalculationDigests} : EngineCall D → Bool
  | .execute _ => true
  | _ => false

/-! ## Visits -/

/-- What a node may raise. -/
inductive NodeError where
  /-- the request-scoped runtime is unavailable -/
  | runtimeUnavailable
  /-- a channel or the identity that the node needs is unavailable -/
  | unavailable (what : String)
  | ledger (error : LedgerError)
  | execute (error : ExecuteError)
  /-- a contract rejects what the node built -/
  | contract
  /-- injected code raised -/
  | raised
  deriving DecidableEq, Repr

/-- The visit of a node: the calls it made, and what it returned or raised. -/
structure Visit (γ α : Type) where
  calls : List γ
  result : Except NodeError α

/-- A visit without calls. -/
def Visit.silent {γ α : Type} (result : Except NodeError α) : Visit γ α := ⟨[], result⟩

/-- A visit with one call. -/
def Visit.calling {γ α : Type} (call : γ) (result : Except NodeError α) : Visit γ α := ⟨[call], result⟩

/-- The prompt of a suspended run. -/
inductive Prompt where
  | approval (version : Nat) (summary : Option String)
  | clarification (request : HITLRequest) (previousFailure : Option String)

/-- A visit that may suspend. -/
inductive Suspension (α : Type) where
  | suspended (prompt : Prompt)
  | returned (value : α)

end Nl2Sql
