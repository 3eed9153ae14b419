import Nl2Sql.Candidate.Rowset
import Nl2Sql.Lib.Sorting
import Nl2Sql.Metric.Compiler

/-!
# The selection of a candidate

`orchestration/candidates.py`, after the rowset hash: a candidate carries the evidence of five gates, which the verifier checks against
an authority that does not come from the candidate, and of the candidates that pass one is selected, if they agree. The SQL policy and
the hash of a text are parameters.
-/

namespace Nl2Sql

open Py

/-! ## Evidence -/

inductive GateName where
  | policy | semantic | sql | explain | execution
  deriving DecidableEq, Repr

/-- The text of a gate. -/
def GateName.text : GateName → String
  | .policy => "policy"
  | .semantic => "semantic"
  | .sql => "sql"
  | .explain => "explain"
  | .execution => "execution"

/-- `GATE_ORDER`. -/
def gateOrder : List GateName := [.policy, .semantic, .sql, .explain, .execution]

/-- The outcome of one gate. -/
structure GateOutcome where
  gate : GateName
  passed : Bool
  deriving DecidableEq, Repr

inductive CandidateOrigin where
  | deterministic | semantic
  deriving DecidableEq, Repr

/-- What a candidate is known by, with the checks of `__post_init__`. A cost is finite. -/
structure CandidateMetadata where
  candidateId : ContractId
  origin : CandidateOrigin
  sqlFingerprint : Sha256
  semanticSignature : Sha256
  relationIds : List ContractId
  sourceKind : SourceKind
  joinHops : Nat
  estimatedRows : Nat
  estimatedCost : ℚ
  relations_some : relationIds ≠ []
  relations_unique : relationIds.Nodup
  cost_nonneg : 0 ≤ estimatedCost
  deriving DecidableEq

/-- The cost on a gateway's receipt: a float that is not negative. -/
inductive PlanCost where
  | finite (cost : ℚ)
  | infinite
  deriving DecidableEq

/-- The receipt of the query gateway, with what the verifier reads beside the executor. -/
structure CandidateExecutionReceipt extends ExecutionReceipt where
  rowCount : Nat
  planCost : Option PlanCost
  estimatedRows : Option Nat
  deriving DecidableEq

/-- A candidate. A row that is no dictionary with text keys is none. -/
structure Candidate (P : Type) where
  metadata : CandidateMetadata
  gates : List GateOutcome
  executionReceipt : CandidateExecutionReceipt
  sql : String
  rowset : List (Option Row)
  bindParams : P

/-- What the verifier is called on: a candidate, or an object that is not typed as one, with the metadata that could still be read. -/
inductive CandidateArgument (P : Type) where
  | candidate (c : Candidate P)
  | malformed (metadata : Option CandidateMetadata)

/-- The authority of a request: what the compiler and the gateway say of a candidate. -/
structure CandidateExpectedEvidence where
  metadata : CandidateMetadata
  policyVersion : String
  readonlyRole : String
  sourceId : String
  sourceCheckpoint : Option String
  selectionReason : String
  sourceDegradation : List String
  explicit : policyVersion ≠ "" ∧ readonlyRole ≠ "" ∧ sourceId ≠ ""

/-- The evidence of how a candidate was evaluated. -/
structure CandidateReceipt where
  metadata : CandidateMetadata
  rowsetSha256 : Option Sha256
  gates : List GateOutcome
  failureCode : Option String
  deriving DecidableEq

/-- `hard_gates_passed`. -/
def CandidateReceipt.hardGatesPassed (r : CandidateReceipt) : Bool := r.failureCode.isNone

/-- The decision over some candidates. -/
structure CandidateDecision where
  winner : Option CandidateReceipt
  needsHitl : Bool
  reason : String
  receipts : List CandidateReceipt

inductive CandidateStatus where
  | accepted | hitl | rejected
  deriving DecidableEq, Repr

/-- `status`. -/
def CandidateDecision.status (d : CandidateDecision) : CandidateStatus :=
  if d.winner.isSome then .accepted else if d.needsHitl then .hitl else .rejected

/-! ## Verification -/

/-- The text of a reason. -/
def SelectionReason.text : SelectionReason → String
  | .freshApprovedAggregate => "fresh_approved_aggregate"
  | .approvedDetailFallback => "approved_detail_fallback"
  | .approvedDetail => "approved_detail"

/-- The SQL policy: a query is prepared or denied, and the parameters of a prepared query are accepted or denied. -/
structure SqlPolicy (P : Type) where
  Prepared : Type
  prepare : String → Option Prepared
  validateParams : Prepared → P → Bool
  fingerprint : Prepared → String

/-- A verifier: the policy, the hash of a text, and the authority by candidate id. -/
structure CandidateVerifier (P : Type) where
  policy : SqlPolicy P
  sha256 : String → Sha256
  expected : Dict ContractId CandidateExpectedEvidence
  expected_identity : ∀ entry ∈ expected.entries, entry.1 = entry.2.metadata.candidateId

/-- The metadata of an object that has none. -/
def invalidMetadata : CandidateMetadata where
  candidateId := ⟨"invalid", by decide⟩
  origin := .deterministic
  sqlFingerprint := ⟨"0000000000000000000000000000000000000000000000000000000000000000", isSha256_ofList rfl⟩
  semanticSignature := ⟨"0000000000000000000000000000000000000000000000000000000000000000", isSha256_ofList rfl⟩
  relationIds := [⟨"invalid", by decide⟩]
  sourceKind := .approvedDetail
  joinHops := 0
  estimatedRows := 0
  estimatedCost := 0
  relations_some := List.cons_ne_nil _ _
  relations_unique := List.nodup_singleton _
  cost_nonneg := le_rfl

namespace CandidateVerifier

variable {P : Type} (V : CandidateVerifier P)

/-- What the SQL gate finds beside its own outcome. -/
def sqlFailure (c : Candidate P) : Option String :=
  match V.policy.prepare c.sql with
  | none => some "sql_denied"
  | some prepared =>
    if V.policy.validateParams prepared c.bindParams = false then some "sql_denied"
    else if V.policy.fingerprint prepared ≠ c.metadata.sqlFingerprint.val then some "sql_fingerprint_mismatch" else none

/-- The loop over the gates that are left, and the outcomes that are: what was gone through, and what failed. -/
def gateLoop (c : Candidate P) : List GateName → List GateOutcome → List GateOutcome × Option String
  | [], [] => ([], none)
  | [], _ :: _ => ([], some "gate_order_invalid")
  | _ :: _, [] => ([], some "gate_order_invalid")
  | name :: names, outcome :: outcomes =>
    if outcome.gate ≠ name then ([], some "gate_order_invalid")
    else if outcome.passed = false then ([outcome], some (name.text ++ "_denied"))
    else
      match if name = .sql then V.sqlFailure c else none with
      | some code => ([outcome], some code)
      | none => ((outcome :: (gateLoop c names outcomes).1), (gateLoop c names outcomes).2)

/-- `rowset_sha256` of a candidate's rows. -/
def rowsetDigest (c : Candidate P) : Except String Sha256 :=
  match c.rowset.mapM id with
  | none => .error "rowset must contain string-keyed rows"
  | some rows => Nl2Sql.rowsetSha256 V.sha256 rows

end CandidateVerifier

/-- The gateway's receipt says what the authority, the metadata and the rowset do. -/
def EvidenceMatches {P : Type} (expected : CandidateExpectedEvidence) (c : Candidate P) (digest : Sha256) : Prop :=
  c.executionReceipt.policyOutcome = .allow ∧ c.executionReceipt.errorTaxonomy = none ∧
    c.executionReceipt.policyVersion = expected.policyVersion ∧ c.executionReceipt.readonlyRole = expected.readonlyRole ∧
    c.executionReceipt.source.sourceId.map (·.val) = some expected.sourceId ∧
    c.executionReceipt.source.sourceCheckpoint.map (·.val) = expected.sourceCheckpoint ∧
    c.executionReceipt.source.selectionReason.map SelectionReason.text = some expected.selectionReason ∧
    c.executionReceipt.source.sourceDegradation.map MetricQueryCompiler.degradationText = expected.sourceDegradation ∧
    c.executionReceipt.sqlFingerprint = c.metadata.sqlFingerprint.val ∧
    c.executionReceipt.source.semanticSignature = some c.metadata.semanticSignature ∧
    c.executionReceipt.source.sourceKind = some c.metadata.sourceKind ∧
    c.executionReceipt.source.rowsetSha256 = some digest ∧ c.executionReceipt.rowCount = c.rowset.length ∧
    c.executionReceipt.estimatedRows = some c.metadata.estimatedRows ∧
    c.executionReceipt.planCost = some (.finite c.metadata.estimatedCost)

instance {P : Type} (expected : CandidateExpectedEvidence) (c : Candidate P) (digest : Sha256) :
    Decidable (EvidenceMatches expected c digest) :=
  inferInstanceAs (Decidable (_ ∧ _))

namespace CandidateVerifier

variable {P : Type} (V : CandidateVerifier P)

/-- What is verified once the authority of a candidate is known. -/
def verifyExpected (c : Candidate P) (expected : CandidateExpectedEvidence) : CandidateReceipt :=
  let (outcomes, failure) := V.gateLoop c gateOrder c.gates
  match failure with
  | some code => ⟨c.metadata, none, outcomes, some code⟩
  | none =>
    match V.rowsetDigest c with
    | .error _ => ⟨c.metadata, none, outcomes, some "rowset_invalid"⟩
    | .ok digest =>
      if EvidenceMatches expected c digest then ⟨c.metadata, some digest, outcomes, none⟩
      else ⟨c.metadata, none, outcomes, some "execution_evidence_mismatch"⟩

/-- `verify`. -/
def verify : CandidateArgument P → CandidateReceipt
  | .malformed metadata => ⟨metadata.getD invalidMetadata, none, [], some "candidate_invalid"⟩
  | .candidate c =>
    match V.expected.get? c.metadata.candidateId with
    | none => ⟨c.metadata, none, [], some "candidate_authority_missing"⟩
    | some expected =>
      if c.metadata ≠ expected.metadata then ⟨c.metadata, none, [], some "candidate_authority_mismatch"⟩
      else V.verifyExpected c expected

end CandidateVerifier

/-! ## Selection -/

/-- `candidate_capacity`: none where there is capacity. -/
def candidateCapacity (count : Nat) (route : RouteName) (budget : RouteBudget) (capacityAvailable : Bool) : Option String :=
  if count < 1 then some "candidate_count_invalid"
  else if (if route = .deep then 2 else 1) < count then some "candidate_limit_exceeded"
  else if budget.maxSqlCandidates < count ∨ budget.maxSqlExecutions < count then some "candidate_budget_exhausted"
  else if count = 2 ∧ capacityAvailable = false then some "candidate_capacity_unavailable"
  else none

/-- The key by which candidates are ranked: an aggregate first, then fewer relations, hops, rows and cost, then the id. -/
def rankingKey (r : CandidateReceipt) : Bool ×ₗ ℕ ×ₗ ℕ ×ₗ ℕ ×ₗ ℚ ×ₗ String :=
  toLex (decide (r.metadata.sourceKind ≠ .approvedAggregate), toLex (r.metadata.relationIds.length, toLex (r.metadata.joinHops,
    toLex (r.metadata.estimatedRows, toLex (r.metadata.estimatedCost, r.metadata.candidateId.val)))))

/-- The ids that must differ: of the candidates that were not malformed. -/
def validIds (receipts : List CandidateReceipt) : List ContractId :=
  (receipts.filter fun r => r.failureCode ≠ some "candidate_invalid").map (·.metadata.candidateId)

/-- A receipt within the join budget, or its rejection. -/
def withinJoinBudget (budget : RouteBudget) (r : CandidateReceipt) : CandidateReceipt :=
  if r.metadata.joinHops ≤ budget.maxJoinHops then r else ⟨r.metadata, none, [], some "join_budget_exhausted"⟩

/-- The selection among receipts whose ids differ. -/
def selectReceipt (receipts : List CandidateReceipt) : CandidateDecision :=
  let eligible := receipts.filter (·.hardGatesPassed)
  if eligible.isEmpty then
    ⟨none, false, "no_candidate_passed_hard_gates", receipts⟩
  else if 1 < (fromKeys (eligible.map (·.metadata.semanticSignature))).length then
    ⟨none, true, "semantic_divergence", receipts⟩
  else if 1 < (fromKeys (eligible.map (·.rowsetSha256))).length then
    ⟨none, true, "rowset_divergence", receipts⟩
  else
    ⟨(sortBy rankingKey eligible).head?, false, "accepted", receipts⟩

/-- `select_candidate`. -/
def selectCandidate {P : Type} (V : CandidateVerifier P) (candidates : List (CandidateArgument P)) (route : RouteName)
    (budget : RouteBudget) (capacityAvailable : Bool) : CandidateDecision :=
  match candidateCapacity candidates.length route budget capacityAvailable with
  | some failure => ⟨none, false, failure, []⟩
  | none =>
    let receipts := candidates.map V.verify
    if ¬(validIds receipts).Nodup then ⟨none, false, "duplicate_candidate_id", receipts⟩
    else selectReceipt (receipts.map (withinJoinBudget budget))

end Nl2Sql
