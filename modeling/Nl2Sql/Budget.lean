import Nl2Sql.Lib.Dict
import Nl2Sql.Lib.Str

/-!
# The route budget ledger

`orchestration/budget.py` and the budget contracts of `contracts.py`. A ledger counts what one request has used of its route's
budget, keeps a count of each SQL fingerprint and of each error taxonomy, and holds the reason the request was stopped for, once
it has one. A method of the ledger is a program in `LedgerM`: it may raise, and what it wrote before raising stays written.

The checkpoint form of a ledger is a `RouteBudgetRecord`. Its validators are fields of the structure, so that building one is the
check pydantic makes: `checkpointRecord` raises where the check fails.
-/

namespace Nl2Sql

open Py

/-- A SHA-256 digest in lower-case hexadecimal. -/
abbrev Sha256 : Type := { s : String // isSha256 s = true }

/-- The routes of a request. -/
inductive RouteName where
  | fast | standard | deep
  deriving DecidableEq, Repr

/-- The lifecycle of a versioned policy. -/
inductive PolicyLifecycle where
  | bootstrap | calibrated | frozen
  deriving DecidableEq, Repr

/-- The hard resource limits of one route. -/
structure RouteBudget where
  deadlineMs : Nat
  maxModelCalls : Nat
  maxSqlCandidates : Nat
  maxSqlExecutions : Nat
  maxJoinHops : Nat
  maxRepairs : Nat
  deadline_bounds : 1 ≤ deadlineMs ∧ deadlineMs ≤ 120000
  sql_pos : 1 ≤ maxSqlCandidates ∧ 1 ≤ maxSqlExecutions
  deriving DecidableEq

/-- The route budgets of a versioned policy and its loop breakers. Every route has a budget (`validate_complete_route_policy`), so
the table of routes is a function. -/
structure RoutingBudgetPolicy where
  version : String
  state : PolicyLifecycle
  routes : RouteName → RouteBudget
  reserveMs : Nat
  maxSameSql : Nat
  maxSameError : Nat
  maxRetryableProviderErrors : Nat
  version_bounds : 1 ≤ version.length ∧ version.length ≤ 128
  reserve_bounds : 1 ≤ reserveMs ∧ ∀ route, reserveMs < (routes route).deadlineMs
  repeats_pos : 1 ≤ maxSameSql ∧ 1 ≤ maxSameError

/-- The versioned bootstrap limits, with no deployment override of a deadline. -/
def bootstrapRoutingBudgetPolicy : RoutingBudgetPolicy where
  version := "routing-budget.bootstrap.v1"
  state := .bootstrap
  routes
    | .fast => ⟨4000, 1, 1, 1, 0, 0, by decide, by decide⟩
    | .standard => ⟨10000, 3, 2, 2, 1, 1, by decide, by decide⟩
    | .deep => ⟨30000, 5, 2, 2, 2, 1, by decide, by decide⟩
  reserveMs := 800
  maxSameSql := 2
  maxSameError := 2
  maxRetryableProviderErrors := 1
  version_bounds := by decide
  reserve_bounds := ⟨by decide, fun route => by cases route <;> decide⟩
  repeats_pos := by decide

/-- What a ledger has used of its budget, as its checkpoint carries it. -/
structure RouteBudgetUsage where
  modelCalls : Nat
  sqlCandidates : Nat
  sqlExecutions : Nat
  joinHops : Nat
  repairs : Nat
  retryableProviderErrors : Nat
  deriving DecidableEq

/-- `validate_counter_map`: the keys are non-empty and the counts positive. -/
def validCounterMap (counts : Dict String Nat) : Prop := ∀ e ∈ counts.entries, e.1 ≠ "" ∧ 1 ≤ e.2

instance (counts : Dict String Nat) : Decidable (validCounterMap counts) :=
  inferInstanceAs (Decidable (∀ e ∈ counts.entries, e.1 ≠ "" ∧ 1 ≤ e.2))

/-- The bound on a stop reason that crosses a checkpoint: 1 to 128 characters. -/
def validStopReason (reason : Option String) : Prop := ∀ r ∈ reason, 1 ≤ r.length ∧ r.length ≤ 128

instance (reason : Option String) : Decidable (validStopReason reason) :=
  inferInstanceAs (Decidable (∀ r ∈ reason, 1 ≤ r.length ∧ r.length ≤ 128))

/-- The checkpoint form of a ledger. -/
structure RouteBudgetRecord where
  policyVersion : String
  policyState : PolicyLifecycle
  policyChecksum : Sha256
  route : RouteName
  limits : RouteBudget
  usage : RouteBudgetUsage
  sqlFingerprintCounts : Dict String Nat
  errorCounts : Dict String Nat
  stopReason : Option String
  version_bounds : 1 ≤ policyVersion.length ∧ policyVersion.length ≤ 128
  fingerprints_valid : validCounterMap sqlFingerprintCounts
  errors_valid : validCounterMap errorCounts
  stop_valid : validStopReason stopReason

/-- What a method of the ledger may raise. -/
inductive LedgerError where
  | valueError (message : String)
  | budgetExceeded (reason : String)
  | validationError
  deriving DecidableEq, Repr

/-- The ledger of one request. -/
structure RouteBudgetLedger where
  route : RouteName
  policy : RoutingBudgetPolicy
  modelCalls : Nat := 0
  sqlCandidates : Nat := 0
  sqlExecutions : Nat := 0
  joinHops : Nat := 0
  repairs : Nat := 0
  retryableProviderErrors : Nat := 0
  sqlFingerprintCounts : Dict String Nat := Dict.empty
  errorCounts : Dict String Nat := Dict.empty
  stopReason : Option String := none

/-- A method of the ledger: it reads and writes the ledger and may raise. -/
abbrev LedgerM : Type → Type := EStateM LedgerError RouteBudgetLedger

/-- The counters `_increment` is called on. -/
inductive LedgerCounter where
  | modelCalls | sqlCandidates | sqlExecutions | repairs
  deriving DecidableEq, Repr

namespace RouteBudgetLedger

/-- The limits of the ledger's route. -/
def limits (l : RouteBudgetLedger) : RouteBudget := l.policy.routes l.route

/-- `getattr(self, attribute)`. -/
def counter (l : RouteBudgetLedger) : LedgerCounter → Nat
  | .modelCalls => l.modelCalls
  | .sqlCandidates => l.sqlCandidates
  | .sqlExecutions => l.sqlExecutions
  | .repairs => l.repairs

/-- `setattr(self, attribute, value)`. -/
def setCounter (l : RouteBudgetLedger) : LedgerCounter → Nat → RouteBudgetLedger
  | .modelCalls, n => { l with modelCalls := n }
  | .sqlCandidates, n => { l with sqlCandidates := n }
  | .sqlExecutions, n => { l with sqlExecutions := n }
  | .repairs, n => { l with repairs := n }

/-- `_ensure_active`. -/
def ensureActive : LedgerM Unit := do
  match (← get).stopReason with
  | some reason => throw (.budgetExceeded reason)
  | none => pure ()

/-- `halt`: the first reason given is kept, and is what a later call returns. -/
def halt (reason : String) : LedgerM String := do
  let normalized := strip reason
  if normalized = "" then
    throw (.valueError "stop reason must be non-empty")
  match (← get).stopReason with
  | some stopped => pure stopped
  | none =>
    modify fun l => { l with stopReason := some normalized }
    pure normalized

/-- `_increment`: a counter at its limit halts the ledger and raises. -/
def increment (attr : LedgerCounter) (limit : Nat) (reason : String) : LedgerM Unit := do
  ensureActive
  let current := (← get).counter attr
  if limit ≤ current then
    let _ ← halt reason
    throw (.budgetExceeded reason)
  modify fun l => l.setCounter attr (current + 1)

/-- `begin_model_call`. -/
def beginModelCall : LedgerM Unit := do
  increment .modelCalls (← get).limits.maxModelCalls "model_call_budget_exhausted"

/-- `record_sql_candidate`: one more candidate, and one more of its fingerprint. -/
def recordSqlCandidate (fingerprint : String) : LedgerM (Option String) := do
  let normalized := strip fingerprint
  if normalized = "" then
    throw (.valueError "SQL fingerprint must be non-empty")
  increment .sqlCandidates (← get).limits.maxSqlCandidates "sql_candidate_budget_exhausted"
  let count := ((← get).sqlFingerprintCounts.get? normalized).getD 0 + 1
  modify fun l => { l with sqlFingerprintCounts := l.sqlFingerprintCounts.set normalized count }
  if (← get).policy.maxSameSql ≤ count then
    let _ ← halt "repeated_sql"
  return (← get).stopReason

/-- `begin_sql_execution`. -/
def beginSqlExecution : LedgerM Unit := do
  increment .sqlExecutions (← get).limits.maxSqlExecutions "sql_execution_budget_exhausted"

/-- `observe_join_hops`. -/
def observeJoinHops (hops : Int) : LedgerM Unit := do
  ensureActive
  if hops < 0 then
    throw (.valueError "join hops cannot be negative")
  if ((← get).limits.maxJoinHops : Int) < hops then
    let _ ← halt "join_hop_budget_exhausted"
    throw (.budgetExceeded "join_hop_budget_exhausted")
  modify fun l => { l with joinHops := max l.joinHops hops.toNat }

/-- `begin_repair`. -/
def beginRepair : LedgerM Unit := do
  increment .repairs (← get).limits.maxRepairs "repair_budget_exhausted"

/-- `record_provider_retries`. -/
def recordProviderRetries (retries : Int) : LedgerM (Option String) := do
  ensureActive
  if retries < 0 then
    throw (.valueError "provider retries cannot be negative")
  modify fun l => { l with retryableProviderErrors := l.retryableProviderErrors + retries.toNat }
  let l ← get
  if l.policy.maxRetryableProviderErrors < l.retryableProviderErrors then
    let _ ← halt "retryable_provider_error_budget_exhausted"
  return (← get).stopReason

/-- `record_error`. -/
def recordError (taxonomy : String) (policyDenied retryableProvider : Bool) : LedgerM (Option String) := do
  let normalized := strip taxonomy
  if normalized = "" then
    throw (.valueError "error taxonomy must be non-empty")
  ensureActive
  let count := ((← get).errorCounts.get? normalized).getD 0 + 1
  modify fun l => { l with errorCounts := l.errorCounts.set normalized count }
  if retryableProvider then
    let _ ← recordProviderRetries 1
  if policyDenied then
    let _ ← halt "policy_denied"
  else if (← get).policy.maxSameError ≤ count then
    let _ ← halt "repeated_error"
  return (← get).stopReason

/-- `checkpoint_record`: the checkpoint form of the ledger, where its validators accept it. `checksum` is the policy's content
digest. -/
def checkpointRecord (checksum : RoutingBudgetPolicy → Sha256) (l : RouteBudgetLedger) :
    Except LedgerError RouteBudgetRecord :=
  if h : validCounterMap l.sqlFingerprintCounts ∧ validCounterMap l.errorCounts ∧ validStopReason l.stopReason then
    .ok
      { policyVersion := l.policy.version
        policyState := l.policy.state
        policyChecksum := checksum l.policy
        route := l.route
        limits := l.limits
        usage :=
          { modelCalls := l.modelCalls
            sqlCandidates := l.sqlCandidates
            sqlExecutions := l.sqlExecutions
            joinHops := l.joinHops
            repairs := l.repairs
            retryableProviderErrors := l.retryableProviderErrors }
        sqlFingerprintCounts := l.sqlFingerprintCounts
        errorCounts := l.errorCounts
        stopReason := l.stopReason
        version_bounds := l.policy.version_bounds
        fingerprints_valid := h.1
        errors_valid := h.2.1
        stop_valid := h.2.2 }
  else
    .error .validationError

/-- `from_record`: the ledger a checkpoint restores under the active policy. -/
def fromRecord (checksum : RoutingBudgetPolicy → Sha256) (policy : RoutingBudgetPolicy) (record : RouteBudgetRecord) :
    Except LedgerError RouteBudgetLedger :=
  if record.policyVersion ≠ policy.version ∨ record.policyChecksum ≠ checksum policy then
    .error (.valueError "checkpoint routing budget policy does not match the active policy")
  else if record.limits ≠ policy.routes record.route then
    .error (.valueError "checkpoint route limits do not match the active policy")
  else
    .ok
      { route := record.route
        policy := policy
        modelCalls := record.usage.modelCalls
        sqlCandidates := record.usage.sqlCandidates
        sqlExecutions := record.usage.sqlExecutions
        joinHops := record.usage.joinHops
        repairs := record.usage.repairs
        retryableProviderErrors := record.usage.retryableProviderErrors
        sqlFingerprintCounts := record.sqlFingerprintCounts
        errorCounts := record.errorCounts
        stopReason := record.stopReason }

end RouteBudgetLedger

/-! ## Runs of a ledger -/

/-- One call on a ledger. A `restore` writes a checkpoint and continues with the ledger restored from it under the same policy. -/
inductive LedgerCall where
  | beginModelCall
  | recordSqlCandidate (fingerprint : String)
  | beginSqlExecution
  | observeJoinHops (hops : Int)
  | beginRepair
  | recordProviderRetries (retries : Int)
  | recordError (taxonomy : String) (policyDenied retryableProvider : Bool)
  | halt (reason : String)
  | restore
  deriving DecidableEq, Repr

variable (checksum : RoutingBudgetPolicy → Sha256)

/-- Continue with the ledger restored from the checkpoint just written. -/
def RouteBudgetLedger.restore : LedgerM Unit := do
  let l ← get
  match l.checkpointRecord checksum with
  | .error e => throw e
  | .ok record =>
    match RouteBudgetLedger.fromRecord checksum l.policy record with
    | .error e => throw e
    | .ok restored => set restored

/-- The method a call runs; what the method returns is not kept. -/
def LedgerCall.exec : LedgerCall → LedgerM Unit
  | .beginModelCall => RouteBudgetLedger.beginModelCall
  | .recordSqlCandidate fingerprint => discard (RouteBudgetLedger.recordSqlCandidate fingerprint)
  | .beginSqlExecution => RouteBudgetLedger.beginSqlExecution
  | .observeJoinHops hops => RouteBudgetLedger.observeJoinHops hops
  | .beginRepair => RouteBudgetLedger.beginRepair
  | .recordProviderRetries retries => discard (RouteBudgetLedger.recordProviderRetries retries)
  | .recordError taxonomy policyDenied retryableProvider =>
    discard (RouteBudgetLedger.recordError taxonomy policyDenied retryableProvider)
  | .halt reason => discard (RouteBudgetLedger.halt reason)
  | .restore => RouteBudgetLedger.restore checksum

/-- The ledger after a call, whether it returned or raised. -/
def RouteBudgetLedger.after (l : RouteBudgetLedger) (call : LedgerCall) :
    RouteBudgetLedger :=
  match (call.exec checksum).run l with
  | .ok _ l' => l'
  | .error _ l' => l'

/-- The ledger after a run of calls, those that raised left in the run. -/
def RouteBudgetLedger.runCalls (l : RouteBudgetLedger) (calls : List LedgerCall) :
    RouteBudgetLedger :=
  calls.foldl (RouteBudgetLedger.after checksum) l

end Nl2Sql
