import Nl2Sql.Analysis.Grounding
import Nl2Sql.Engine.Decision

/-!
# The contracts of a run

The mode of a run (`orchestration/mode_contract.py`), the route of a request (`orchestration/routing.py`), the request and the receipt of
a model call and the blocks of a response. A run has one effective mode, fixed by its envelope; the route is another axis, which sets
the budget. The floats of a route policy are known by their decimal texts, and so are rationals.
-/

namespace Nl2Sql

open Py

/-! ## Modes -/

inductive ProductMode where
  | query | analyze | build
  deriving DecidableEq, Repr

inductive RequestedMode where
  | auto | query | analyze | build
  deriving DecidableEq, Repr

/-- `resolve_requested_mode`. -/
def RequestedMode.resolve : RequestedMode → ProductMode
  | .auto => .analyze
  | .query => .query
  | .analyze => .analyze
  | .build => .build

/-- The envelope of a run. -/
structure RunEnvelope where
  runId : BoundedText 1 64
  requestedMode : RequestedMode
  effectiveMode : ProductMode
  switchedFromRunId : Option (BoundedText 1 64)
  migratedContextRef : Option (BoundedText 1 128)
  mode_resolved : effectiveMode = requestedMode.resolve
  new_run : switchedFromRunId ≠ some runId
  migration_lineage : switchedFromRunId = none → migratedContextRef = none
  deriving DecidableEq

inductive CapabilityResult where
  | resolved | clarificationRequired | cannotResolve
  deriving DecidableEq, Repr

/-- The outcome of a mode that cannot serve a request. -/
structure ModeCapabilityOutcome where
  runId : BoundedText 1 64
  effectiveMode : ProductMode
  outcome : CapabilityResult
  suggestedMode : Option ProductMode
  unresolvedSlots : List String
  slots_length : unresolvedSlots.length ≤ 16
  suggestion_iff : suggestedMode.isSome = true ↔ outcome = .cannotResolve
  suggestion_differs : suggestedMode ≠ some effectiveMode
  resolved_slots : outcome = .resolved → unresolvedSlots = []
  clarification_slots : outcome = .clarificationRequired → unresolvedSlots ≠ []
  deriving DecidableEq

/-! ## Routes -/

/-- The thresholds of the routes. -/
structure RoutePolicy where
  version : BoundedText 1 128
  state : PolicyLifecycle
  fastMaxRisk : Nat
  fastMinConfidence : ℚ
  fastMaxTables : Nat
  standardMaxRisk : Nat
  standardMinConfidence : ℚ
  risk_order : fastMaxRisk ≤ standardMaxRisk ∧ standardMaxRisk ≤ 100
  confidence_order : 0 ≤ standardMinConfidence ∧ standardMinConfidence ≤ fastMinConfidence ∧ fastMinConfidence ≤ 1
  tables_pos : 1 ≤ fastMaxTables

/-- `bootstrap_route_policy`. -/
def bootstrapRoutePolicy : RoutePolicy where
  version := ⟨"route.bootstrap.v2", by decide⟩
  state := .bootstrap
  fastMaxRisk := 20
  fastMinConfidence := 17 / 20
  fastMaxTables := 1
  standardMaxRisk := 60
  standardMinConfidence := 11 / 20
  risk_order := by decide
  confidence_order := by norm_num
  tables_pos := Nat.one_pos

/-- What a route is chosen from. -/
structure RiskSignals where
  restrictedData : Bool
  tableCount : Nat
  ambiguousMetricOrFilter : Bool
  dynamicCalculation : Bool
  unknownExplainCost : Bool
  requiresModel : Bool
  fastBudgetAvailable : Bool
  tables_pos : 1 ≤ tableCount

/-- `score`. -/
def RiskSignals.score (s : RiskSignals) : Nat :=
  35 * s.restrictedData.toNat + 20 * (decide (3 ≤ s.tableCount)).toNat + 20 * s.ambiguousMetricOrFilter.toNat +
    15 * s.dynamicCalculation.toNat + 10 * s.unknownExplainCost.toNat

/-- A route with what it was chosen from. -/
structure RouteDecision where
  route : RouteName
  risk : Nat
  confidence : ℚ
  reason : String
  signals : RiskSignals
  policyVersion : String
  policyState : PolicyLifecycle
  policyChecksum : Sha256

/-- `choose_route`, of a confidence between 0 and 1. -/
def chooseRoute (checksum : RoutePolicy → Sha256) (signals : RiskSignals) (confidence : ℚ) (policy : RoutePolicy) : RouteDecision :=
  let risk := signals.score
  let fastCandidate := risk ≤ policy.fastMaxRisk ∧ policy.fastMinConfidence ≤ confidence ∧ signals.tableCount ≤ policy.fastMaxTables
  let (route, reason) : RouteName × String :=
    if fastCandidate ∧ signals.requiresModel = false ∧ signals.fastBudgetAvailable = true then (.fast, "low_risk_high_confidence")
    else if risk ≤ policy.standardMaxRisk ∧ policy.standardMinConfidence ≤ confidence then
      (.standard,
        if fastCandidate ∧ signals.requiresModel = false ∧ signals.fastBudgetAvailable = false then "fast_budget_unavailable"
        else if fastCandidate then "model_required"
        else "bounded_risk")
    else (.deep, "high_risk_or_low_confidence")
  ⟨route, risk, confidence, reason, signals, policy.version.val, policy.state, checksum policy⟩

/-! ## Model calls -/

inductive ModelStage where
  | plan | answer
  deriving DecidableEq, Repr

/-- The budget of one model call. -/
structure CallBudget where
  deadlineMs : Int
  tokenBudget : Nat
  costBudget : ℚ
  maxAttempts : Nat
  deriving DecidableEq

/-- `reserve_ms`. -/
def CallBudget.reserveMs (budget : CallBudget) : Int := max 1 (budget.deadlineMs / 5)

/-- `should_stop(budget=budget, policy=policy)`, of a budget that made no attempt, `elapsedMs` after it was made. No fingerprint and no
error has been seen, so those two breakers stop only a policy that allows none, and every policy allows one. -/
def shouldStop (budget : CallBudget) (policy : RoutingBudgetPolicy) (elapsedMs : Nat) : Option String :=
  if max 0 (budget.deadlineMs - elapsedMs) ≤ max (policy.reserveMs : Int) budget.reserveMs then some "deadline_reserve"
  else if budget.maxAttempts = 0 then some "attempt_budget_exhausted"
  else none

/-- A request to the model gateway: the parts the engine sets. -/
structure ModelRequest where
  stage : ModelStage
  modelAlias : String
  /-- roles and contents -/
  messages : List (String × String)
  /-- a structured output is asked for -/
  structured : Bool
  deadlineMs : Int
  tokenBudget : Nat
  costBudget : ℚ
  promptVersion : String
  planReason : Option String
  authorizationRevision : Option String
  deriving DecidableEq

/-- The receipt of a model call: what the engine reads of it. -/
structure ModelReceipt where
  provider : String
  resolvedModel : String
  retries : Nat
  content : String
  deriving DecidableEq

/-- What the gateway may raise. -/
inductive ModelGatewayFailure where
  /-- `ModelOutputInvalid`, with the receipt of the call -/
  | outputInvalid (receipt : ModelReceipt)
  /-- any other `ModelGatewayError`: the name of its class, its code, whether it is retryable and whether a policy denied -/
  | gateway (name code : String) (retryable policyDenied : Bool)
  | budgetExceeded (message : String)
  /-- any other exception -/
  | raised

/-! ## Blocks -/

/-- The authority of a provenance. -/
structure ProvenanceAuthority where
  executionPlanChecksum : Sha256
  receiptStepIds : List String
  sourceIds : List String
  sourceCheckpoints : List String
  semanticSignatures : List String
  deriving DecidableEq

/-- Where the facts of a response come from. -/
structure Provenance where
  evidenceChecksum : Sha256
  metricKeys : List String
  analysisWindow : TimeRange
  /-- the text of a datetime -/
  dataAsOf : Option String
  dataAsOfDate : Option Date
  sourceIds : List String
  sourceCheckpoints : List String
  factIds : List Sha256
  authority : ProvenanceAuthority
  /-- the provider and the model of an interpretation -/
  model : Option (String × String)
  deriving DecidableEq

/-- The bounds of the fields of a provenance. -/
def Provenance.bounded (p : Provenance) : Bool :=
  decide (1 ≤ p.metricKeys.length ∧ p.metricKeys.length ≤ 16) && decide (1 ≤ p.factIds.length ∧ p.factIds.length ≤ 16) &&
    decide (1 ≤ p.authority.receiptStepIds.length ∧ p.authority.receiptStepIds.length ≤ 16) &&
    [p.sourceIds, p.sourceCheckpoints, p.authority.sourceIds, p.authority.sourceCheckpoints,
      p.authority.semanticSignatures].all fun texts => texts.length ≤ 16

inductive ResponseBlock where
  | text (text : String)
  | planCard (title summary : String) (version : Nat) (actions : List String)
  | provenance (p : Provenance)
  deriving DecidableEq

end Nl2Sql
