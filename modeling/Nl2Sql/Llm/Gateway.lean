import Nl2Sql.Lib.Json
import Nl2Sql.Lib.Method
import Nl2Sql.Llm.Profiles
import Nl2Sql.Budget
import Mathlib.Algebra.Order.Ring.Rat

/-!
# The model gateway

`ModelGateway.invoke` of `infra/llm/gateway.py`, the input policy it enforces (`infra/llm/model_input_policy.py`) and the budget a call
is charged to (`CallBudget` of `orchestration/budget.py`). A gateway keeps a circuit for each provider; a budget is an object that
several invocations may share, so that it is named by a reference. Every reading of the clock and every event takes an instant of
its own.

What the gateway does is recorded in a log: the calls to a provider, how they ended, the turn to the fallback and the charges.
-/

namespace Nl2Sql.Llm

open Py

/-! ## Requests and decisions -/

/-- A message: a mapping with a role and a content. -/
abbrev Message : Type := Dict String Json

/-- A request to the gateway. -/
structure ModelRequest where
  stage : ModelStage
  modelAlias : String
  messages : List Message
  toolSchema : Option Json
  deadlineMs : Int
  tokenBudget : Int
  costBudget : ℚ
  dataClassification : ModelDataClassification
  promptVersion : String
  planReason : Option String
  messages_bounds : 1 ≤ messages.length ∧ messages.length ≤ 64
  deadline_bounds : 1 ≤ deadlineMs ∧ deadlineMs ≤ 120000
  token_bounds : 1 ≤ tokenBudget ∧ tokenBudget ≤ 1000000
  cost_nonneg : 0 ≤ costBudget
  prompt_bounds : 1 ≤ promptVersion.length ∧ promptVersion.length ≤ 128

/-- A provider and a model, approved together. -/
structure ApprovedDestination where
  provider : String
  model : String
  deriving DecidableEq, Repr

/-- `_destination`. -/
def ModelTarget.destination (target : ModelTarget) : ApprovedDestination := ⟨target.provider, target.model⟩

/-- The destinations a deployment approved, and the secrets no request may carry. -/
structure ModelInputPolicy where
  version : String
  state : PolicyLifecycle
  approvedDestinations : List ApprovedDestination
  secretValues : List String

/-- `ModelInputDecision.outcome`. -/
inductive EgressOutcome where
  | allow | deny
  deriving DecidableEq, Repr

/-- What the policy decided of a target and a request. -/
structure ModelInputDecision where
  outcome : EgressOutcome
  reason : Option String
  policyVersion : String
  policyChecksum : String
  policyState : PolicyLifecycle
  targetProvider : String
  targetModel : String
  matchedCategories : List String
  contentSha256 : String
  deriving DecidableEq

/-! ## Failures -/

/-- The metadata of a failure. -/
structure ModelFailure where
  code : String
  retryable : Bool
  provider : Option String := none
  statusCode : Option Nat := none
  attemptedProviders : List String := []
  causes : List String := []
  deriving DecidableEq

/-- What an invocation may raise. -/
inductive GatewayError where
  | policyDenied (code : String)
  | inputPolicyDenied (decision : ModelInputDecision)
  | providerUnavailable (failure : ModelFailure)
  | budgetExceeded (reason : String)
  | validationError
  /-- an integer that is no binary float -/
  | overflowError
  /-- what a provider raised that is no `ProviderUnavailable` -/
  | raised
  deriving DecidableEq

/-- What a provider answered. -/
structure ProviderResponse where
  content : String
  model : String
  usage : Dict String Int
  finishReason : String

/-- `usage.get("input_tokens", 0)`. -/
def ProviderResponse.inputTokens (response : ProviderResponse) : Int := (response.usage.get? "input_tokens").getD 0

/-- `usage.get("output_tokens", 0)`. -/
def ProviderResponse.outputTokens (response : ProviderResponse) : Int := (response.usage.get? "output_tokens").getD 0

/-- How a call to a provider may end. -/
inductive Completion where
  | answered (response : ProviderResponse)
  | unavailable (failure : ModelFailure)
  | raised

/-- The arguments of a call to a provider. -/
structure CompleteCall where
  provider : String
  model : String
  messages : List Message
  timeoutMs : Int
  maxOutputTokens : Int
  responseSchema : Option Json

/-- The receipt of an invocation, without its latency. -/
structure ModelReceipt where
  modelAlias : String
  stage : ModelStage
  provider : String
  resolvedModel : String
  usage : Dict String Int
  finishReason : String
  retries : Nat
  fallbackUsed : Bool
  profileVersion : String
  profileChecksum : String
  promptVersion : String
  promptHash : String
  outputSchemaChecksum : Option String
  content : String
  estimatedCost : ℚ
  decision : ModelInputDecision

/-! ## The budget of a call -/

/-- `int(q)`: towards zero. -/
def truncate (q : ℚ) : Int := q.num.tdiv q.den

/-- The budget a call is charged to. -/
structure CallBudget where
  deadlineMs : Int
  tokenBudget : Int
  costBudget : ℚ
  maxAttempts : Nat
  startedAt : ℚ
  attempts : Nat := 0
  inputTokens : Int := 0
  outputTokens : Int := 0
  costUsed : ℚ := 0

namespace CallBudget

def tokensUsed (budget : CallBudget) : Int := budget.inputTokens + budget.outputTokens

/-- `remaining_ms(now=now)`. -/
def remainingMs (budget : CallBudget) (now : ℚ) : Int := max 0 (budget.deadlineMs - truncate ((now - budget.startedAt) * 1000))

def reserveMs (budget : CallBudget) : Int := max 1 (budget.deadlineMs / 5)

/-- `can_charge`. -/
def canCharge (budget : CallBudget) (tokens : Int) (cost : ℚ) : Prop :=
  0 ≤ tokens ∧ 0 ≤ cost ∧ budget.tokensUsed + tokens ≤ budget.tokenBudget ∧ budget.costUsed + cost ≤ budget.costBudget

instance (budget : CallBudget) (tokens : Int) (cost : ℚ) : Decidable (budget.canCharge tokens cost) :=
  inferInstanceAs (Decidable (_ ∧ _ ∧ _ ∧ _))

/-- `should_stop(budget=budget)`: no fingerprint and no error has been seen, and the bootstrap policy stops at two of either. -/
def shouldStop (budget : CallBudget) (now : ℚ) : Option String :=
  if budget.remainingMs now ≤ budget.reserveMs then some "deadline_reserve"
  else if budget.maxAttempts ≤ budget.attempts then some "attempt_budget_exhausted"
  else none

/-- `begin_attempt`. -/
def beginAttempt (budget : CallBudget) : Except GatewayError CallBudget :=
  if budget.maxAttempts ≤ budget.attempts then .error (.budgetExceeded "attempt_budget_exhausted")
  else .ok { budget with attempts := budget.attempts + 1 }

/-- `charge`. -/
def charge (budget : CallBudget) (inputTokens outputTokens : Int) (cost : ℚ) : Except GatewayError CallBudget :=
  if budget.canCharge (inputTokens + outputTokens) cost then
    .ok
      { budget with
        inputTokens := budget.inputTokens + inputTokens
        outputTokens := budget.outputTokens + outputTokens
        costUsed := budget.costUsed + cost }
  else .error (.budgetExceeded "model_call_budget_exceeded")

end CallBudget

/-! ## Costs -/

/-- The first natural number that `float` does not take: it would round to `2 ^ 1024`. -/
def floatOverflow : Nat := 2 ^ 1024 - 2 ^ 970

/-- An integer that `float` takes. -/
def FitsFloat (n : Int) : Prop := n.natAbs < floatOverflow

instance (n : Int) : Decidable (FitsFloat n) := inferInstanceAs (Decidable (n.natAbs < floatOverflow))

attribute [irreducible] floatOverflow

/-- `_cost`. The products are of an integer and a float, so that each count has to be one; a cost is exact here. -/
def cost (target : ModelTarget) (inputTokens outputTokens : Int) : Except GatewayError ℚ :=
  if FitsFloat inputTokens ∧ FitsFloat outputTokens then
    .ok ((inputTokens * target.inputCostPerMillion + outputTokens * target.outputCostPerMillion) / 1000000)
  else .error .overflowError

/-! ## The gateway and what it stands on -/

/-- The clock: instants never go back. -/
structure Clock where
  read : Nat → ℚ
  mono : Monotone read

/-- What the gateway calls and does not decide: the clock, how the `n`-th call to a provider ends, the text `str` gives a message's
content, the secrets of the deployment, the categories the scanner finds in a request, and the digests. -/
structure Environment where
  clock : Clock
  complete : Nat → CompleteCall → Completion
  str : Json → String
  deploymentSecrets : List String
  scan : ModelRequest → List String → List String
  contentSha256 : ModelRequest → String
  policyChecksum : ModelInputPolicy → String
  profileChecksum : ModelProfile → String
  promptHash : ModelRequest → String
  schemaChecksum : Json → String

/-- The configuration of a gateway: the names of its providers, its profiles by their aliases and its input policy. -/
structure ModelGateway where
  providers : List String
  profiles : Dict String ModelProfile
  inputPolicy : ModelInputPolicy
  profiles_keyed : ∀ modelAlias profile, profiles.get? modelAlias = some profile → profile.modelAlias = modelAlias
  profiles_nonempty : profiles.keys ≠ []

/-- The circuit of a provider. -/
structure Circuit where
  failures : Nat := 0
  openedAt : Option ℚ := none
  deriving DecidableEq

/-- A call to the provider of a target: the budget it is made on, its instant and the attempts the budget then counts. -/
structure ProviderCall where
  budget : Nat
  target : ModelTarget
  time : ℚ
  attempts : Nat

/-- The answer of a target. -/
structure Answer where
  target : ModelTarget
  response : ProviderResponse

/-- A call of `budget.charge`. -/
structure Charge where
  budget : Nat
  inputTokens : Int
  outputTokens : Int
  cost : ℚ

/-- What the gateway does. -/
inductive GatewayEvent where
  | complete (call : ProviderCall)
  | answered (answer : Answer)
  /-- a `ProviderUnavailable` of the provider, and its instant -/
  | failed (provider : String) (failure : ModelFailure) (time : ℚ)
  /-- the turn to the fallback of the profile -/
  | fallback (target : ModelTarget)
  | charge (charge : Charge)

/-- The circuits, the budgets, the instants and the calls to a provider so far, and the log. -/
structure GatewayState where
  circuits : Dict String Circuit
  budgets : Nat → CallBudget
  instants : Nat
  completions : Nat
  log : List GatewayEvent

/-- A method of the gateway. -/
abbrev GatewayM : Type → Type := EStateM GatewayError GatewayState

/-- Python's `raise` of what a function returned in its place. -/
def orRaise {α : Type} : Except GatewayError α → GatewayM α
  | .ok a => pure a
  | .error e => throw e

def raiseIf (p : Prop) [Decidable p] (e : GatewayError) : GatewayM Unit := if p then throw e else pure ()

/-- An instant of the clock. -/
def monotonic (E : Environment) : GatewayM ℚ := do
  let s ← get
  set { s with instants := s.instants + 1 }
  pure (E.clock.read s.instants)

/-- One more event. -/
def record (event : GatewayEvent) : GatewayM Unit := modify fun s => { s with log := s.log ++ [event] }

/-- The budget behind a reference. -/
def budgetOf (budget : Nat) : GatewayM CallBudget := do return (← get).budgets budget

def setBudget (budget : Nat) (value : CallBudget) : GatewayM Unit :=
  modify fun s => { s with budgets := Function.update s.budgets budget value }

/-! ## The input policy -/

/-- `_decision`, and what `ModelInputDecision` checks of its fields. -/
def ModelInputPolicy.decision (E : Environment) (policy : ModelInputPolicy) (target : ModelTarget) (request : ModelRequest)
    (outcome : EgressOutcome) (reason : Option String) (matchedCategories : List String) : Except GatewayError ModelInputDecision :=
  if 1 ≤ policy.version.length ∧ policy.version.length ≤ 128 ∧ matchedCategories.length ≤ 16 then
    .ok
      { outcome := outcome
        reason := reason
        policyVersion := policy.version
        policyChecksum := E.policyChecksum policy
        policyState := policy.state
        targetProvider := target.provider
        targetModel := target.model
        matchedCategories := matchedCategories
        contentSha256 := E.contentSha256 request }
  else .error .validationError

/-- `deployment_secret_values`. -/
def deploymentSecretValues (E : Environment) (extras : List String) : List String :=
  fromKeys ((E.deploymentSecrets ++ extras).filter (· ≠ ""))

/-- `evaluate`. -/
def ModelInputPolicy.evaluate (E : Environment) (policy : ModelInputPolicy) (target : ModelTarget) (request : ModelRequest) :
    Except GatewayError ModelInputDecision :=
  if target.destination ∉ policy.approvedDestinations then
    policy.decision E target request .deny (some "model_target_not_approved") []
  else
    let findings := E.scan request (deploymentSecretValues E policy.secretValues)
    if findings ≠ [] then
      policy.decision E target request .deny (some "model_input_secret_detected") ((fromKeys findings).insertionSort (· ≤ ·))
    else policy.decision E target request .allow none []

/-! ## One target -/

/-- `_estimate_input_tokens`. -/
def estimateInputTokens (E : Environment) (messages : List Message) : Int :=
  max 1 (((messages.map fun m => (E.str ((m.get? "content").getD (.str ""))).length).sum / 4 + 1 : Nat) : Int)

/-- The circuit of a provider, made where there is none. -/
def circuitOf (provider : String) : GatewayM Circuit := do
  match (← get).circuits.get? provider with
  | some circuit => pure circuit
  | none =>
    modify fun s => { s with circuits := s.circuits.set provider {} }
    pure {}

/-- An open circuit raises for 30 seconds. -/
def refuseOpen (E : Environment) (provider : String) : GatewayM Unit := do
  match (← circuitOf provider).openedAt with
  | none => pure ()
  | some openedAt =>
    let now ← monotonic E
    raiseIf (now - openedAt < 30)
      (.providerUnavailable { code := "provider_circuit_open", retryable := true, provider := some provider })

/-- `complete` of the target's provider. -/
def complete (E : Environment) (budget : Nat) (target : ModelTarget) (request : ModelRequest) (timeoutMs remainingTokens : Int) :
    GatewayM ProviderResponse := do
  let time ← monotonic E
  record (.complete ⟨budget, target, time, (← budgetOf budget).attempts⟩)
  let s ← get
  set { s with completions := s.completions + 1 }
  match E.complete s.completions ⟨target.provider, target.model, request.messages, timeoutMs, remainingTokens, request.toolSchema⟩ with
  | .answered response =>
    record (.answered ⟨target, response⟩)
    pure response
  | .unavailable failure => throw (.providerUnavailable failure)
  | .raised => throw .raised

variable (G : ModelGateway) (E : Environment)

/-- The body of the `try`: the tokens that are left, an attempt, the provider and its call. -/
def attempt (budget : Nat) (target : ModelTarget) (request : ModelRequest) (timeoutMs : Int) :
    GatewayM ProviderResponse := do
  let b ← budgetOf budget
  let remainingTokens := b.tokenBudget - b.tokensUsed - estimateInputTokens E request.messages
  raiseIf (remainingTokens ≤ 0) (.budgetExceeded "model_call_budget_exceeded")
  let begun ← orRaise b.beginAttempt
  setBudget budget begun
  raiseIf (target.provider ∉ G.providers)
    (.providerUnavailable { code := "provider_not_configured", retryable := false, provider := some target.provider })
  complete E budget target request timeoutMs remainingTokens

/-- One more failure of a provider, and from the third on the instant its circuit is open from. -/
def countFailure (E : Environment) (provider : String) (circuit : Circuit) : GatewayM Unit :=
  if 3 ≤ circuit.failures + 1 then do
    let opened ← monotonic E
    modify fun s => { s with circuits := s.circuits.set provider ⟨circuit.failures + 1, some opened⟩ }
  else modify fun s => { s with circuits := s.circuits.set provider ⟨circuit.failures + 1, circuit.openedAt⟩ }

/-- The handler: a failure of the provider is counted, and raised again. -/
def onUnavailable (E : Environment) (provider : String) : GatewayError → GatewayM ProviderResponse
  | .providerUnavailable failure => do
    let time ← monotonic E
    record (.failed provider failure time)
    let circuit ← circuitOf provider
    countFailure E provider circuit
    throw (.providerUnavailable failure)
  | e => throw e

/-- `_invoke_target`. -/
def invokeTarget (budget : Nat) (target : ModelTarget) (request : ModelRequest) :
    GatewayM (ProviderResponse × ModelInputDecision) := do
  let decision ← orRaise (G.inputPolicy.evaluate E target request)
  raiseIf (decision.outcome = .deny) (.inputPolicyDenied decision)
  refuseOpen E target.provider
  let now ← monotonic E
  let b ← budgetOf budget
  let timeoutMs := min request.deadlineMs (b.remainingMs now - b.reserveMs)
  raiseIf (timeoutMs ≤ 0) (.budgetExceeded "deadline_reserve")
  let response ← tryCatch (attempt G E budget target request timeoutMs) (onUnavailable E target.provider)
  modify fun s => { s with circuits := s.circuits.set target.provider {} }
  pure (response, decision)

/-! ## An invocation -/

/-- `_enforce_target_policy`. -/
def enforceTargetPolicy (target : ModelTarget) (request : ModelRequest) : Except GatewayError Unit :=
  if request.dataClassification ∉ target.allowedDataClassifications then
    .error (.policyDenied "model_target_disallows_data_classification")
  else if target.tier = .pro ∧ request.stage ≠ .plan then .error (.policyDenied "pro_model_is_plan_only")
  else if target.tier = .pro ∧ request.planReason.getD "" = "" then .error (.policyDenied "pro_plan_reason_required")
  else .ok ()

/-- `_enforce_policy`. -/
def enforcePolicy (profile : ModelProfile) (request : ModelRequest) : Except GatewayError Unit :=
  if request.stage ∉ profile.allowedStages then .error (.policyDenied "model_alias_not_allowed_for_stage")
  else enforceTargetPolicy profile.primary request

/-- `_enforce_budget_envelope`. -/
def enforceBudgetEnvelope (request : ModelRequest) (budget : CallBudget) : Except GatewayError Unit :=
  if request.deadlineMs < budget.deadlineMs ∨ request.tokenBudget < budget.tokenBudget ∨ request.costBudget < budget.costBudget then
    .error (.policyDenied "call_budget_exceeds_request_envelope")
  else .ok ()

/-- The profile of a request, with what is checked before any target is tried. -/
def admitted (budget : Nat) (request : ModelRequest) : GatewayM ModelProfile := do
  match G.profiles.get? request.modelAlias with
  | none => throw (.policyDenied "unknown_model_alias")
  | some profile =>
    orRaise (enforcePolicy profile request)
    let b ← budgetOf budget
    orRaise (enforceBudgetEnvelope request b)
    let now ← monotonic E
    match b.shouldStop now with
    | some reason => throw (.budgetExceeded reason)
    | none =>
      raiseIf (¬b.canCharge (estimateInputTokens E request.messages) 0) (.budgetExceeded "model_call_budget_exceeded")
      let _ ← monotonic E
      pure profile

/-- What both targets being unavailable raises. -/
def allUnavailable (profile : ModelProfile) (target : ModelTarget) (primary : ModelFailure) : GatewayError → GatewayError
  | .providerUnavailable failure =>
    .providerUnavailable
      { code := "all_model_targets_unavailable"
        retryable := primary.retryable || failure.retryable
        attemptedProviders := [primary.provider.getD profile.primary.provider, failure.provider.getD target.provider]
        causes := [primary.code, failure.code] }
  | e => e

/-- What an invocation got from its targets. -/
structure Answered where
  answer : Answer
  fallbackUsed : Bool
  decision : ModelInputDecision

/-- The fallback, after a retryable unavailability of the primary. -/
def invokeFallback (budget : Nat) (profile : ModelProfile) (request : ModelRequest) :
    GatewayError → GatewayM Answered
  | .providerUnavailable failure =>
    match profile.fallback, failure.retryable with
    | some target, true => do
      record (.fallback target)
      orRaise (enforceTargetPolicy target request)
      let (response, decision) ← tryCatch (invokeTarget G E budget target request) fun e => throw (allUnavailable profile target failure e)
      pure ⟨⟨target, response⟩, true, decision⟩
    | _, _ => throw (.providerUnavailable failure)
  | e => throw e

/-- The primary, and where it is unavailable the fallback. -/
def invokeTargets (budget : Nat) (profile : ModelProfile) (request : ModelRequest) :
    GatewayM Answered :=
  tryCatch
    (do
      let (response, decision) ← invokeTarget G E budget profile.primary request
      pure ⟨⟨profile.primary, response⟩, false, decision⟩)
    (invokeFallback G E budget profile request)

/-- `budget.charge`, with the usage of the answer. -/
def chargeBudget (budget : Nat) (inputTokens outputTokens : Int) (cost : ℚ) : GatewayM Unit := do
  record (.charge ⟨budget, inputTokens, outputTokens, cost⟩)
  let charged ← orRaise ((← budgetOf budget).charge inputTokens outputTokens cost)
  setBudget budget charged

/-- What `ModelReceipt` checks of its fields. -/
def ModelReceipt.Valid (receipt : ModelReceipt) : Prop :=
  (1 ≤ receipt.modelAlias.length ∧ receipt.modelAlias.length ≤ 128) ∧
    (1 ≤ receipt.resolvedModel.length ∧ receipt.resolvedModel.length ≤ 256) ∧
    (1 ≤ receipt.finishReason.length ∧ receipt.finishReason.length ≤ 128) ∧
    0 ≤ receipt.estimatedCost ∧ ∀ e ∈ receipt.usage.entries, e.1 ≠ "" ∧ 0 ≤ e.2

instance (receipt : ModelReceipt) : Decidable receipt.Valid := inferInstanceAs (Decidable (_ ∧ _ ∧ _ ∧ _ ∧ ∀ e ∈ _, _))

/-- The receipt of an answered invocation. -/
def receiptOf (E : Environment) (profile : ModelProfile) (request : ModelRequest) (answered : Answered) (estimatedCost : ℚ) :
    Except GatewayError ModelReceipt :=
  let receipt : ModelReceipt :=
    { modelAlias := profile.modelAlias
      stage := request.stage
      provider := answered.answer.target.provider
      resolvedModel := answered.answer.response.model
      usage := answered.answer.response.usage
      finishReason := answered.answer.response.finishReason
      retries := answered.fallbackUsed.toNat
      fallbackUsed := answered.fallbackUsed
      profileVersion := profile.version
      profileChecksum := E.profileChecksum profile
      promptVersion := request.promptVersion
      promptHash := E.promptHash request
      outputSchemaChecksum := request.toolSchema.map E.schemaChecksum
      content := answered.answer.response.content
      estimatedCost := estimatedCost
      decision := answered.decision }
  if receipt.Valid then .ok receipt else .error .validationError

/-- `invoke`. -/
def invoke (budget : Nat) (request : ModelRequest) : GatewayM ModelReceipt := do
  let profile ← admitted G E budget request
  let answered ← invokeTargets G E budget profile request
  let response := answered.answer.response
  let price ← orRaise (cost answered.answer.target response.inputTokens response.outputTokens)
  chargeBudget budget response.inputTokens response.outputTokens price
  let _ ← monotonic E
  orRaise (receiptOf E profile request answered price)

/-! ## Runs -/

/-- An invocation that is asked for: the reference of its budget and its request. -/
structure InvokeCall where
  budget : Nat
  request : ModelRequest

/-- An invocation that was made, with what it did and how it ended. -/
structure Invocation where
  call : InvokeCall
  log : List GatewayEvent
  result : Except GatewayError ModelReceipt

/-- The state after an invocation, and the invocation. -/
def invoked (s : GatewayState) (call : InvokeCall) : GatewayState × Invocation :=
  match (invoke G E call.budget call.request).run s with
  | .ok receipt s' => (s', ⟨call, s'.log.drop s.log.length, .ok receipt⟩)
  | .error e s' => (s', ⟨call, s'.log.drop s.log.length, .error e⟩)

/-- A gateway as it is constructed, before any call on the budgets. -/
def GatewayState.initial (budgets : Nat → CallBudget) : GatewayState := ⟨Dict.empty, budgets, 0, 0, []⟩

/-- Invocations one after another. -/
def runCalls (G : ModelGateway) (E : Environment) (s : GatewayState) : List InvokeCall → GatewayState × List Invocation
  | [] => (s, [])
  | call :: calls =>
    let (next, invocation) := invoked G E s call
    let (final, invocations) := runCalls G E next calls
    (final, invocation :: invocations)

/-! ## Reading a log -/

/-- A target that a request may be sent to: it is allowed the data and the input policy does not deny it. -/
def Permitted (target : ModelTarget) (request : ModelRequest) : Prop :=
  request.dataClassification ∈ target.allowedDataClassifications ∧
    ∃ decision, G.inputPolicy.evaluate E target request = .ok decision ∧ decision.outcome = .allow

/-- The calls to a provider. -/
def providerCalls (log : List GatewayEvent) : List ProviderCall :=
  log.filterMap fun
    | .complete call => some call
    | _ => none

/-- The answers of providers. -/
def answers (log : List GatewayEvent) : List Answer :=
  log.filterMap fun
    | .answered answer => some answer
    | _ => none

/-- The calls of `budget.charge`. -/
def charges (log : List GatewayEvent) : List Charge :=
  log.filterMap fun
    | .charge charge => some charge
    | _ => none

/-- The calls to a provider on one budget. -/
def callsOn (budget : Nat) (log : List GatewayEvent) : Nat := (providerCalls log).countP fun call => call.budget = budget

/-- The failures of a provider since its last success, and the instant of the last. -/
structure Standing where
  failures : Nat := 0
  lastFailure : Option ℚ := none

/-- A provider's standing after one more event. -/
def Standing.after (provider : String) (standing : Standing) : GatewayEvent → Standing
  | .answered answer => if answer.target.provider = provider then {} else standing
  | .failed failed _ time => if failed = provider then ⟨standing.failures + 1, some time⟩ else standing
  | _ => standing

def standingOf (provider : String) (log : List GatewayEvent) : Standing := log.foldl (Standing.after provider) {}

/-- A provider's circuit is open: three or more failures since its last success, the last less than 30 seconds ago. -/
def CircuitOpen (provider : String) (log : List GatewayEvent) (now : ℚ) : Prop :=
  3 ≤ (standingOf provider log).failures ∧ ∃ time ∈ (standingOf provider log).lastFailure, now - time < 30

end Nl2Sql.Llm
