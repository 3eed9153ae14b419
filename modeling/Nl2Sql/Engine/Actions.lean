import Nl2Sql.Engine.Graph

/-!
# Actions on a thread

`thread_action` of `v2.py`: the handler that resumes a suspended run, with a typed decision or with an approval action. It checks the
action against the channels of the thread, resumes the run with a payload made from it, and answers from the channels the run left.
-/

namespace Nl2Sql

open Py

/-- What the handler answers. -/
inductive ActionAnswer where
  /-- `status="recorded"`, with the status of the entry and that of the continuation -/
  | recorded (version : Nat) (idempotent : Bool) (decisionStatus continuationStatus : DecisionStatus)
  | applied (status : String) (version : Nat) (idempotent : Bool)
  /-- an `HTTPException` -/
  | http (status : Nat) (detail : String)
  /-- the engine raised -/
  | raised
  deriving DecidableEq

namespace Engine

variable {D : EngineDigests} (E : Engine D)

/-- `_TYPED_RECORDED_STATUS.get(action)`. -/
def recordableStatus? : DecisionAction → Option DecisionStatus
  | .resolve => some .resolvedPendingRevalidation
  | .choose => some .chooseRecordedNoContinuation
  | .reject => some .rejected
  | .cancel => some .cancelled
  | _ => none

/-- `_validated_typed_ledger_entry`: the stored request and the recorded status, none where it raises. -/
def validatedTypedLedgerEntry? (D : EngineDigests) (entry : Option DecisionEntry) (incoming : HITLDecision) (expectedVersion : Nat) :
    Option (HITLRequest × DecisionStatus) := do
  let entry ← entry
  let derived ← resumeToken? D.decision entry.request entry.decision
  if entry.requestId ≠ entry.request.requestId ∨ entry.requestVersion ≠ entry.request.version ∨
      entry.requestChecksum ≠ requestChecksum D entry.request ∨ entry.decisionChecksum ≠ decisionChecksum D entry.decision ∨
      entry.resumeTokenChecksum ≠ tokenChecksum D entry.resumeToken ∨
      tokenChecksum D entry.resumeToken ≠ tokenChecksum D derived ∨
      entry.resumeToken.validateAgainst D.decision entry.request entry.decision ≠ [] ∨
      expectedVersion ≠ entry.request.version ∨ decisionChecksum D incoming ≠ decisionChecksum D entry.decision then
    none
  else do
    let status ← recordableStatus? entry.decision.action
    some (entry.request, status)

/-- `_TYPED_CONTINUATION_STATUSES`. -/
def isContinuationStatus : DecisionStatus → Bool
  | .recordedNoContinuation => false
  | _ => true

/-- `_typed_continuation_status`. -/
def typedContinuationStatus (status : Option DecisionStatus) (fallback : DecisionStatus) : DecisionStatus :=
  match status with
  | some value => if isContinuationStatus value then value else fallback
  | none => fallback

/-- The answer from the ledger entry of a decision, or the refusal with a detail. -/
def recordedAnswer (d : DecisionChannels) (incoming : HITLDecision) (expectedVersion : Nat) (idempotent : Bool) (refusal : String) :
    ActionAnswer :=
  match validatedTypedLedgerEntry? D (d.decisionLedger.get? incoming.idempotencyKey) incoming expectedVersion with
  | none => .http 409 refusal
  | some (stored, status) => .recorded stored.version idempotent status (typedContinuationStatus d.decisionStatus status)

/-- The checks of a decision that is not in the ledger, against the channels of the thread. -/
def decisionAdmitted (d : DecisionChannels) (incoming : HITLDecision) (expectedVersion : Nat) (pending : HITLRequest) : Prop :=
  expectedVersion = d.decisionVersion ∧ pending.version = d.decisionVersion ∧ incoming.requestId = pending.requestId ∧
    incoming.requestVersion = pending.version ∧ incoming.validateAgainst pending = []

instance (d : DecisionChannels) (incoming : HITLDecision) (expectedVersion : Nat) (pending : HITLRequest) :
    Decidable (decisionAdmitted d incoming expectedVersion pending) := inferInstanceAs (Decidable (_ ∧ _))

/-- The thread an action leaves, with the answer: the channels of a run that failed are not read. -/
def answerFrom (thread : Thread D) (answer : V2EngineState D.toCalculationDigests → ActionAnswer) : ActionAnswer × Thread D :=
  match thread.status with
  | .failed _ _ => (.raised, thread)
  | .cut _ => (.raised, thread)
  | _ => (answer thread.values, thread)

/-- `thread_action` of a typed decision. -/
def typedDecisionAction (thread : Thread D) (body : HITLDecision) (expectedVersion : Nat) (invocation : Invocation D) :
    ActionAnswer × Thread D :=
  let d := thread.values.decision
  match body.revalidate? with
  | none => (.http 409 "typed decision is invalid", thread)
  | some incoming =>
    match d.decisionLedger.get? incoming.idempotencyKey with
    | some _ => (recordedAnswer (D := D) d incoming expectedVersion true "typed decision idempotency conflict", thread)
    | none =>
      if d.decisionStatus ≠ some .awaitingDecision then (.http 409 "thread is not awaiting a typed decision", thread)
      else
        match d.pendingDecision with
        | none => (.http 409 "pending typed decision is invalid", thread)
        | some pending =>
          if ¬ decisionAdmitted d incoming expectedVersion pending then (.http 409 "typed decision is stale or conflicting", thread)
          else
            answerFrom (E.resume thread incoming.toJson invocation).2 fun s =>
              recordedAnswer (D := D) s.decision incoming expectedVersion false "typed decision was not recorded"

/-- An approval action: one of the four, its key, the version it was taken on and the feedback. -/
structure ApprovalAction where
  action : String
  idempotencyKey : BoundedText 1 256
  expectedVersion : Nat
  feedback : Option (BoundedText 0 4096)

/-- The payload of an approval action. -/
def ApprovalAction.payload (body : ApprovalAction) : Json :=
  .obj
    [("action", .str body.action), ("idempotency_key", .str body.idempotencyKey.val),
      ("expected_version", .int body.expectedVersion),
      ("feedback", match body.feedback with
        | some text => .str text.val
        | none => .null)]

/-- `thread_action` of an approval action. -/
def approvalAction (thread : Thread D) (body : ApprovalAction) (invocation : Invocation D) : ActionAnswer × Thread D :=
  match thread.values.hitl.appliedActions.get? body.idempotencyKey.val with
  | some prior => (.applied prior.status prior.version true, thread)
  | none =>
    if thread.values.work.hitlStatus ≠ some "awaiting_action" then (.http 409 "thread is not awaiting an action", thread)
    else if thread.values.hitl.hitlVersion ≠ some body.expectedVersion then (.http 409 "action version is stale", thread)
    else
      answerFrom (E.resume thread body.payload invocation).2 fun s =>
        match s.work.hitlStatus, s.hitl.hitlVersion with
        | some status, some version =>
          if status ∈ ["approved", "modified", "rejected", "cancelled"] then .applied status version false
          else .http 409 "action was not applied"
        | _, _ => .http 409 "action was not applied"

end Engine

end Nl2Sql
