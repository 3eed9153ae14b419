import Mathlib.Data.List.Infix
import Nl2Sql.Lib.Date
import Nl2Sql.Lib.Decimal
import Nl2Sql.Lib.Sql
import Nl2Sql.Budget

/-!
# The query gateway

`PolicyEngine` and `QueryGateway.execute` of `infra/governance/query_gateway.py`: a query is bounded by a `LIMIT` of its own, explained,
run in a read-only transaction and read row by row. The parser of the policy engine gives the syntax of a query back from its text, so
the model takes the syntax; the other checks of the policy, the plan and the rows that the database answers with, its failures as they are
classified, the audit sink and the capacity are parameters.
-/

namespace Nl2Sql

open Py Sql

inductive QueryErrorCode where
  | invalidSql | parameterMismatch | parameterInvalid | policyDenied | schemaDenied | planFailed | costExceeded | rowsExceeded
  | capacityExceeded | timeout | connectionError | transientDatabaseError | permissionDenied | relationNotFound | databaseError
  | resultTooLarge | auditUnavailable
  deriving DecidableEq, Repr

/-- The text of a code. -/
def QueryErrorCode.text : QueryErrorCode → String
  | .invalidSql => "invalid_sql"
  | .parameterMismatch => "parameter_mismatch"
  | .parameterInvalid => "parameter_invalid"
  | .policyDenied => "policy_denied"
  | .schemaDenied => "schema_denied"
  | .planFailed => "plan_failed"
  | .costExceeded => "cost_exceeded"
  | .rowsExceeded => "rows_exceeded"
  | .capacityExceeded => "capacity_exceeded"
  | .timeout => "timeout"
  | .connectionError => "connection_error"
  | .transientDatabaseError => "transient_database_error"
  | .permissionDenied => "permission_denied"
  | .relationNotFound => "relation_not_found"
  | .databaseError => "database_error"
  | .resultTooLarge => "result_too_large"
  | .auditUnavailable => "audit_unavailable"

/-- `QueryError`. -/
structure QueryError where
  code : QueryErrorCode
  message : String
  retryable : Bool := false
  deriving DecidableEq

/-! ## The policy -/

/-- What a limit counts with: an integer literal, or any other expression. -/
inductive LimitExpr where
  | int (n : Int)
  | other
  deriving DecidableEq

/-- The limit of a parsed query: `LIMIT`, or `FETCH` with its ties or without. -/
inductive LimitClause where
  | limit (expression : LimitExpr)
  | fetch (count : LimitExpr) (withTies : Bool)
  deriving DecidableEq

/-- The limit of a query, as it is parsed. -/
def limitClause (q : Query) : Option LimitClause := q.limit.map fun n : Nat => .limit (.int (n : Int))

/-- The limit that an expression asks for, below the policy's. -/
def boundedLimit (maxRows : Nat) : LimitExpr → Except QueryError Nat
  | .int requested =>
    if requested < 0 then .error { code := .policyDenied, message := "LIMIT must be a non-negative integer literal" }
    else .ok (min requested.toNat maxRows)
  | .other => .error { code := .policyDenied, message := "LIMIT must be a non-negative integer literal" }

/-- `_apply_limit`: the limit a query is run with. -/
def applyLimit (maxRows : Nat) : Option LimitClause → Except QueryError Nat
  | none => .ok maxRows
  | some (.fetch _ true) => .error { code := .policyDenied, message := "FETCH WITH TIES is not allowed" }
  | some (.fetch count false) => boundedLimit maxRows count
  | some (.limit expression) => boundedLimit maxRows expression

/-- A query that the policy approved, with its limit. -/
structure PreparedQuery where
  query : Query
  fingerprint : Sha256
  parameterNames : List String
  maxRows : Nat

/-- The parameters of a condition. -/
def condParams : Cond → List String
  | .ge _ param | .lt _ param | .eq _ param => [param]
  | .isIn _ params => params
  | .isTrue _ | .isNull _ | .isNotNull _ => []

/-- `_parameter_names`. -/
def parameterNames (q : Query) : List String :=
  sortedStr (fromKeys (q.grouped.conditions.flatMap condParams ++ q.grouped.aggregates.flatMap fun item =>
    match item.1 with
    | .count _ filter => filter.flatMap condParams
    | .sum _ => []))

/-- `_SAFE_IDENTIFIER`. -/
def isSafeIdentifier (s : String) : Bool :=
  match s.toList with
  | [] => false
  | c :: cs => (isLowerAscii c || isUpperAscii c || c == '_') &&
      cs.all fun d => isLowerAscii d || isUpperAscii d || isDigitAscii d || d == '_'

/-- The gateway. -/
structure QueryGateway where
  maxRows : Nat
  maxPlanCost : ℚ
  maxPlanRows : Nat
  maxResultBytes : Nat
  datasource : String
  readonlyRole : String
  /-- the checks of `prepare` before the limit: what they deny a query for -/
  policy : Query → Option QueryError
  /-- the digest of the text of a query -/
  fingerprint : String → Sha256
  maxRows_pos : 1 ≤ maxRows
  maxPlanCost_nonneg : 0 ≤ maxPlanCost
  maxResultBytes_ge : 2 ≤ maxResultBytes

namespace QueryGateway

variable (g : QueryGateway)

/-- `prepare`. -/
def prepare (q : Query) : Except QueryError PreparedQuery :=
  match g.policy q with
  | some error => .error error
  | none => do
    let limit ← applyLimit g.maxRows (limitClause q)
    let bounded : Query := { q with limit := some limit }
    .ok ⟨bounded, g.fingerprint bounded.render, parameterNames q, g.maxRows⟩

/-- `validate_params`. -/
def validateParams (prepared : PreparedQuery) (params : Params) : Except QueryError Params :=
  if ∃ name ∈ params.keys, isSafeIdentifier name = false then
    .error { code := .parameterMismatch, message := "query parameter names must be simple identifiers" }
  else if ¬ SameSet prepared.parameterNames params.keys then
    let listed (names : List String) : String := if names = [] then "none" else ", ".intercalate (sortedStr names)
    let missing := listed (prepared.parameterNames.filter (· ∉ params.keys))
    let unexpected := listed (params.keys.filter (· ∉ prepared.parameterNames))
    let mismatch := "query parameters do not match placeholders (missing: " ++ missing ++ "; unexpected: " ++ unexpected ++ ")"
    .error { code := .parameterMismatch, message := mismatch }
  else
    .ok params

end QueryGateway

/-! ## Rows -/

/-- A value of a row as the driver gives it. A number that is not finite has no decimal. -/
inductive Cell where
  | null
  | bool (b : Bool)
  | int (n : Int)
  | str (s : String)
  | decimal (value : Option Decimal)
  /-- a date and the microseconds since midnight, with the offset of the zone in microseconds where there is one -/
  | datetime (offset : Option Int) (day : Date) (micros : Nat)
  | date (day : Date)
  | other
  deriving DecidableEq

/-- A character as `re.IGNORECASE` compares it with a lower-case ASCII letter. -/
def foldChar (c : Char) : Char :=
  if c = Char.ofNat 0x130 ∨ c = Char.ofNat 0x131 then 'i'
  else if c = Char.ofNat 0x17F then 's'
  else if c = Char.ofNat 0x212A then 'k'
  else lowerChar c

/-- `_SENSITIVE_COLUMN.search(key)`. -/
def isSensitiveColumn (key : String) : Bool :=
  ["password", "secret", "token", "apikey", "api_key", "api-key", "authorization", "credential"].any fun word =>
    decide (word.toList <:+: key.toList.map foldChar)

/-- `_mask_row`. -/
def maskRow (raw : List (String × Cell)) : Dict String Cell × List String :=
  let row := Dict.ofList raw
  (row.update ((row.keys.filter fun key => isSensitiveColumn key).map fun key => (key, .str "[REDACTED]")),
    row.keys.filter fun key => isSensitiveColumn key)

/-- What the database streams: rows with their column names, then an end or a failure as it is classified. -/
structure DatabaseStream where
  rows : List (List (String × Cell))
  failure : Option QueryError

/-- Why a query was not run to its end: the policy, or the database. -/
inductive GatewayFailure where
  | policy (error : QueryError)
  | database (error : QueryError)
  deriving DecidableEq

/-- What was read of a stream. -/
structure StreamState where
  rows : List (Dict String Cell)
  maskedColumns : List String
  encodedSize : Nat

/-- One round of the loop of `_stream_in_session`; `rowSize` is the length of the JSON text of a row in bytes. -/
def streamRow (maxRows maxResultBytes : Nat) (rowSize : Dict String Cell → Nat) (s : StreamState) (raw : List (String × Cell)) :
    Except GatewayFailure StreamState :=
  if maxRows ≤ s.rows.length then
    .error (.policy { code := .rowsExceeded, message := "query returned more rows than the policy limit" })
  else
    let (row, masked) := maskRow raw
    let encodedSize := s.encodedSize + rowSize row + if s.rows = [] then 0 else 2
    if maxResultBytes < encodedSize then
      .error (.policy { code := .resultTooLarge, message := "query result exceeds " ++ toString maxResultBytes ++ " bytes" })
    else
      .ok ⟨s.rows ++ [row], fromKeys (s.maskedColumns ++ masked), encodedSize⟩

/-- `_stream_in_session`: the rows of a stream, and the columns that were masked. -/
def streamInSession (maxRows maxResultBytes : Nat) (rowSize : Dict String Cell → Nat) (stream : DatabaseStream) :
    Except GatewayFailure StreamState := do
  let state ← stream.rows.foldlM (streamRow maxRows maxResultBytes rowSize) ⟨[], [], 2⟩
  match stream.failure with
  | some error => .error (.database error)
  | none => .ok state

/-! ## Execution -/

/-- A number rounded to an integer, half to even: `format(x, ".0f")`. -/
def roundHalfEven (x : ℚ) : Int :=
  let low := x.floor
  if x - low < 1 / 2 ∨ (x - low = 1 / 2 ∧ low % 2 = 0) then low else low + 1

/-- What an execution returns. -/
structure QueryReceipt where
  accepted : Bool
  sqlFingerprint : Sha256
  rows : List (Dict String Cell)
  rowCount : Nat
  estimatedCost : Option ℚ
  estimatedRows : Option Nat
  maskedColumns : List String
  error : Option QueryError
  datasource : String
  readonlyRole : String
  allowed : Bool
  maxRows : Option Nat

/-- What the surroundings of one execution answer. -/
structure GatewayAnswers where
  /-- the start was recorded, or there is no audit sink -/
  auditStart : Bool
  /-- why there is no capacity -/
  capacity : Option String
  /-- the cost and the rows of the plan, or the failure to plan -/
  plan : Except QueryError (ℚ × Nat)
  /-- what the database streams for a query with its parameters -/
  stream : PreparedQuery → Params → DatabaseStream
  /-- the length of the JSON text of a row in bytes -/
  rowSize : Dict String Cell → Nat
  /-- the result was recorded, or there is no audit sink -/
  auditResult : Bool

namespace QueryGateway

variable (g : QueryGateway)

/-- `_rejected`. -/
def rejected (error : QueryError) (fingerprint : Sha256) (allowed : Bool) (estimated : Option (ℚ × Nat)) : QueryReceipt :=
  ⟨false, fingerprint, [], 0, estimated.map Prod.fst, estimated.map Prod.snd, [], some error, g.datasource, g.readonlyRole, allowed,
    some g.maxRows⟩

/-- `_rejected_prepared` and `_database_rejection`: a failure of the database is not a denial of the policy. -/
def rejectedRun (prepared : PreparedQuery) (estimated : Option (ℚ × Nat)) : GatewayFailure → QueryReceipt
  | .policy error => g.rejected error prepared.fingerprint false estimated
  | .database error => g.rejected error prepared.fingerprint true estimated

/-- `_accepted_receipt`. -/
def acceptedReceipt (prepared : PreparedQuery) (state : StreamState) (estimated : ℚ × Nat) : QueryReceipt :=
  ⟨true, prepared.fingerprint, state.rows, state.rows.length, some estimated.1, some estimated.2, sortedStr state.maskedColumns,
    none, g.datasource, g.readonlyRole, true, some g.maxRows⟩

/-- The check of the plan. -/
def checkPlan (estimated : ℚ × Nat) : Except GatewayFailure Unit :=
  if g.maxPlanCost < estimated.1 then
    .error (.policy { code := .costExceeded, message := "estimated cost " ++ toString (roundHalfEven estimated.1) ++ " exceeds policy" })
  else if g.maxPlanRows < estimated.2 then
    .error (.policy { code := .rowsExceeded, message := "estimated rows " ++ toString estimated.2 ++ " exceeds policy" })
  else
    .ok ()

/-- `_execute_locked`, with `_plan_and_run`. -/
def executeLocked (answers : GatewayAnswers) (q : Query) (params : Params) : QueryReceipt :=
  match g.prepare q with
  | .error error => g.rejected error (g.fingerprint q.render) false none
  | .ok prepared =>
    match validateParams prepared params with
    | .error error => g.rejected error (g.fingerprint q.render) false none
    | .ok bound =>
      match answers.plan with
      | .error error => g.rejectedRun prepared none (.database error)
      | .ok estimated =>
        match g.checkPlan estimated with
        | .error failure => g.rejectedRun prepared (some estimated) failure
        | .ok () =>
          match streamInSession prepared.maxRows g.maxResultBytes answers.rowSize (answers.stream prepared bound) with
          | .error failure => g.rejectedRun prepared (some estimated) failure
          | .ok state => g.acceptedReceipt prepared state estimated

/-- `execute`. -/
def execute (answers : GatewayAnswers) (q : Query) (params : Params) : QueryReceipt :=
  if answers.auditStart = false then
    g.rejected { code := .auditUnavailable, message := "required query audit is unavailable" } (g.fingerprint q.render) false none
  else
    let receipt :=
      match answers.capacity with
      | some message => g.rejected { code := .capacityExceeded, message := message, retryable := true } (g.fingerprint q.render) false none
      | none => g.executeLocked answers q params
    if answers.auditResult = false then
      g.rejected { code := .auditUnavailable, message := "required query audit result could not be recorded" } receipt.sqlFingerprint
        receipt.allowed none
    else
      receipt

end QueryGateway

end Nl2Sql
