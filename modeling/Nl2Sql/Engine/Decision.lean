import Nl2Sql.Plan.QueryValidator

/-!
# Decisions over a suspended request

`orchestration/decision_contract.py`: the request a suspended run leaves for a person, the decision that answers it, and the token
that binds a continuation to both. As in `Plan.Contracts` the validators are fields, and what may be rejected is built by a function
that returns none. A decision that crosses the wire is read from JSON; the readers follow pydantic on the values JSON has.
-/

namespace Nl2Sql

open Py

/-! ## Vocabulary -/

/-- `FORBIDDEN_AUTHORITY_FIELDS` of the calculation contract. -/
def forbiddenAuthorityFields : List String :=
  ["canonical", "approved", "saved", "governance_candidate", "template_registered", "authority", "canonical_metric_key",
    "approved_calculation_binding", "binding_checksum", "definition_id", "definition_version", "confirmation", "confirmed",
    "retention", "governance", "lifecycle"]

/-- `FORBIDDEN_DECISION_FIELDS`: what a decision or a token must never carry. -/
def forbiddenDecisionFields : List String :=
  forbiddenAuthorityFields ++
  ["approved", "saved", "governance_candidate", "template_registered", "canonical_metric_key", "approved_calculation_binding",
    "binding_checksum", "definition_id", "definition_version", "confirmation", "confirmed", "retention", "governance",
    "lifecycle", "template_id", "template_version", "template_checksum", "template_authority", "binding_revision",
    "output_metric_key", "semantic_release_id", "semantic_release_checksum", "calculation_id", "spec_checksum", "expression",
    "parameters", "inputs", "input_roles", "metric_keys", "metric_key", "source_ref", "relation", "relation_id",
    "execution_plan", "query_plan", "plan", "steps", "product_mode", "mode", "capability", "capabilities", "codeact",
    "codeact_mode", "build_privilege", "execution_capability", "intent", "route", "build", "analyze", "service_mode",
    "enable_dynamic_calc", "sandbox", "tool", "tools", "authorization", "authorization_revision", "authorization_context",
    "authorization_source", "allowed_scope_ids", "scope", "scope_level", "data_scope", "resource_scope", "permissions",
    "required_permissions", "permission", "roles", "role", "agent_enabled", "subject", "identity", "user_id", "thread_id",
    "run_id", "tenant", "deployment_scope", "auth_epoch", "org", "org_id", "org_type", "model_input_policy",
    "model_input_policy_version", "model_input_policy_checksum", "egress", "egress_policy", "egress_outcome", "provider",
    "model", "target_provider", "target_model", "alias", "stage", "data_classification", "base_url", "endpoint", "url", "host",
    "port", "messages", "tool_schema", "prompt", "prompt_version", "temperature", "sql", "sql_text", "sql_ast",
    "sql_fingerprint", "query_sql", "query", "statement", "formula", "template", "code", "script", "python", "bash",
    "powershell", "shell", "command", "exec", "eval", "import", "dsn", "connection_string", "database", "password", "passwd",
    "secret", "secrets", "token", "access_token", "refresh_token", "credential", "credentials", "api_key", "private_key",
    "key", "bearer", "auth", "jwt", "cert", "pem", "username", "user", "confirmed_by", "confirmed_at", "approved_by",
    "reviewer", "actor", "replacement", "replace", "patch", "override", "policy_override", "bypass", "force", "escalate",
    "elevate", "grant", "gold", "max_rows", "timeout_ms"]

/-- `RESERVED_SLOT_NAMES`: the names it adds to the forbidden fields are forbidden fields themselves. -/
def reservedSlotNames : List String := forbiddenDecisionFields

/-- The pattern of a request id and of an idempotency key: `^[A-Za-z0-9][A-Za-z0-9._:-]{0,127}$`. -/
def isRequestId (s : String) : Bool :=
  matchesName (fun c => isLowerAscii c || isUpperAscii c || isDigitAscii c)
    (fun c => isLowerAscii c || isUpperAscii c || isDigitAscii c || c == '.' || c == '_' || c == ':' || c == '-') 127 s

abbrev RequestId : Type := { s : String // isRequestId s = true }

abbrev IdempotencyKey : Type := { s : String // isRequestId s = true }

/-- The pattern of a slot: `^[a-z][a-z0-9_]{0,63}$`. -/
def isSlotName (s : String) : Bool := matchesName isLowerAscii (fun c => isLowerAscii c || isDigitAscii c || c == '_') 63 s

abbrev SlotName : Type := { s : String // isSlotName s = true }

/-- The pattern of an issue code: `^[a-z][a-z0-9_.-]{0,127}$`. -/
def isIssueCode (s : String) : Bool :=
  matchesName isLowerAscii (fun c => isLowerAscii c || isDigitAscii c || c == '_' || c == '.' || c == '-') 127 s

abbrev IssueCode : Type := { s : String // isIssueCode s = true }

/-- A text that a pattern accepts. -/
def matching? (pattern : String → Bool) (s : String) : Option { s : String // pattern s = true } :=
  if h : pattern s = true then some ⟨s, h⟩ else none

inductive DecisionKind where
  | clarification | businessConfirmation | riskPolicyDecision
  deriving DecidableEq, Repr

/-- The text of a kind. -/
def DecisionKind.text : DecisionKind → String
  | .clarification => "clarification"
  | .businessConfirmation => "business_confirmation"
  | .riskPolicyDecision => "risk_policy_decision"

inductive DecisionAction where
  | resolve | confirm | modify | choose | reject | cancel
  deriving DecidableEq, Repr

/-- The text of an action. -/
def DecisionAction.text : DecisionAction → String
  | .resolve => "resolve"
  | .confirm => "confirm"
  | .modify => "modify"
  | .choose => "choose"
  | .reject => "reject"
  | .cancel => "cancel"

/-- The action of a text. -/
def DecisionAction.of? (text : String) : Option DecisionAction :=
  [.resolve, .confirm, .modify, .choose, .reject, .cancel].find? fun action => action.text = text

/-- `_REQUEST_ACTIONS`. -/
def DecisionKind.actions : DecisionKind → List DecisionAction
  | .clarification => [.resolve, .choose, .reject, .cancel]
  | .businessConfirmation => [.confirm, .modify, .reject, .cancel]
  | .riskPolicyDecision => [.confirm, .reject, .cancel]

/-- The text of a filter's source. -/
def FilterSource.text : FilterSource → String
  | .user => "user"
  | .entityAlias => "entity_alias"
  | .semanticDefault => "semantic_default"

/-- The source of a text. -/
def FilterSource.of? (text : String) : Option FilterSource :=
  [.user, .entityAlias, .semanticDefault].find? fun source => source.text = text

/-! ## Slot values -/

/-- `needle in s`. -/
def containsText (needle s : String) : Bool := s.toList.tails.any fun rest => needle.toList.isPrefixOf rest

/-- A scalar of a slot. A float is known by its shortest decimal text. -/
inductive SlotScalar where
  | str (s : String)
  | bool (b : Bool)
  | int (n : Int)
  | float (text : String)
  | decimal (d : Decimal)
  deriving DecidableEq

/-- `_SQL_MARKERS`. -/
def sqlMarkers : List String := [";", "--", "/*", "*/"]

/-- `_guard_slot_scalar` accepts the scalar. -/
def SlotScalar.bounded : SlotScalar → Bool
  | .str s => decide (s.length ≤ 512) && s.toList.all (fun c => 32 ≤ c.toNat) && sqlMarkers.all fun marker => !containsText marker s
  | .bool _ => true
  | .int n => decide (n.natAbs ≤ 2 ^ 63 - 1)
  | .float text => !(["NaN", "Infinity", "-Infinity"].contains text)
  | .decimal d => decide (Decimal.numDigits d.coeff ≤ 64) && decide (d.adjusted ≤ 64)

/-- A scalar in JSON: a decimal is written as a text. -/
def SlotScalar.toJson : SlotScalar → Json
  | .str s => .str s
  | .bool b => .bool b
  | .int n => .int n
  | .float text => .float text
  | .decimal d => .str d.toStr

/-- The scalar of a JSON value. -/
def SlotScalar.ofJson? : Json → Option SlotScalar
  | .str s => some (.str s)
  | .bool b => some (.bool b)
  | .int n => some (.int n)
  | .float text => some (.float text)
  | _ => none

/-- What a slot is bound to. -/
inductive SlotValue where
  | scalar (value : SlotScalar)
  | items (values : List SlotScalar)
  deriving DecidableEq

/-- `_guard_value` accepts the value. -/
def SlotValue.bounded : SlotValue → Bool
  | .scalar value => value.bounded
  | .items values => decide (values.length ≤ 32) && values.all SlotScalar.bounded

def SlotValue.toJson : SlotValue → Json
  | .scalar value => value.toJson
  | .items values => .arr (values.map SlotScalar.toJson)

/-- The value of a slot, read from JSON before it is guarded. -/
def SlotValue.ofJson? : Json → Option SlotValue
  | .arr values => (values.mapM SlotScalar.ofJson?).map .items
  | value => (SlotScalar.ofJson? value).map .scalar

/-- One typed binding of a slot. -/
structure SlotBinding where
  slot : SlotName
  value : SlotValue
  source : FilterSource
  not_reserved : slot.val ∉ reservedSlotNames
  value_bounded : value.bounded = true
  deriving DecidableEq

namespace SlotBinding

def toJson (binding : SlotBinding) : Json :=
  .obj [("slot", .str binding.slot.val), ("value", binding.value.toJson), ("source", .str binding.source.text)]

/-- The source a binding names; a binding that names none is the user's. -/
def sourceOf? : Option Json → Option FilterSource
  | none => some .user
  | some (.str text) => FilterSource.of? text
  | some _ => none

/-- `SlotBinding.model_validate`. -/
def ofJson? : Json → Option SlotBinding
  | .obj members =>
    if ∃ m ∈ members, m.1 ∈ forbiddenDecisionFields ∨ m.1 ∉ ["slot", "value", "source"] then none
    else
      match Json.member? "slot" members, Json.member? "value" members with
      | some (.str name), some raw => do
        let slot ← matching? isSlotName name
        let value ← SlotValue.ofJson? raw
        let source ← sourceOf? (Json.member? "source" members)
        if h : slot.val ∉ reservedSlotNames ∧ value.bounded = true then some ⟨slot, value, source, h.1, h.2⟩ else none
      | _, _ => none
  | _ => none

end SlotBinding

/-! ## Requests, decisions and tokens -/

/-- A suspended decision, bound to the validation it arose from. -/
structure HITLRequest where
  requestId : RequestId
  decisionKind : DecisionKind
  version : Nat
  allowedActions : List DecisionAction
  planSha256 : Sha256
  contextChecksum : Sha256
  policyVersion : BoundedText 1 128
  policyChecksum : Sha256
  issueCodes : List IssueCode
  unresolvedSlots : List SlotName
  safeSummary : Option (BoundedText 0 512)
  version_bounds : 1 ≤ version ∧ version ≤ 1000000
  actions_length : 1 ≤ allowedActions.length ∧ allowedActions.length ≤ 6
  actions_unique : allowedActions.Nodup
  actions_permitted : ∀ action ∈ allowedActions, action ∈ decisionKind.actions
  codes_length : issueCodes.length ≤ 32
  codes_unique : issueCodes.Nodup
  slots_length : unresolvedSlots.length ≤ 16
  slots_unique : unresolvedSlots.Nodup
  slots_not_reserved : ∀ slot ∈ unresolvedSlots, slot.val ∉ reservedSlotNames
  summary_printable : ∀ summary ∈ safeSummary, ∀ c ∈ summary.val.toList, 32 ≤ c.toNat ∧ c.toNat ≠ 127
  clarifies : decisionKind = .clarification → unresolvedSlots ≠ [] ∧ issueCodes ≠ []
  only_clarification : decisionKind ≠ .clarification → unresolvedSlots = []
  deriving DecidableEq

/-- A person's decision over one suspended request. -/
structure HITLDecision where
  requestId : RequestId
  requestVersion : Nat
  action : DecisionAction
  slotBindings : List SlotBinding
  idempotencyKey : IdempotencyKey
  version_bounds : 1 ≤ requestVersion ∧ requestVersion ≤ 1000000
  bindings_length : slotBindings.length ≤ 16
  bindings_unique : (slotBindings.map (·.slot)).Nodup
  deriving DecidableEq

/-- What binds a continuation to the suspended state. It carries no authority. -/
structure ResumeToken where
  requestId : RequestId
  requestVersion : Nat
  planSha256 : Sha256
  contextChecksum : Sha256
  policyVersion : BoundedText 1 128
  policyChecksum : Sha256
  decisionChecksum : Sha256
  version_bounds : 1 ≤ requestVersion ∧ requestVersion ≤ 1000000
  deriving DecidableEq

/-- A list of texts in JSON. -/
def textsJson (texts : List String) : Json := .arr (texts.map .str)

/-- The dump of a request that its checksum digests: without the summary. -/
def HITLRequest.toJson (request : HITLRequest) : Json :=
  .obj
    [("schema_version", .str "1.0"), ("request_id", .str request.requestId.val),
      ("decision_kind", .str request.decisionKind.text), ("version", .int request.version),
      ("allowed_actions", textsJson (request.allowedActions.map DecisionAction.text)),
      ("plan_sha256", .str request.planSha256.val), ("context_checksum", .str request.contextChecksum.val),
      ("policy_version", .str request.policyVersion.val), ("policy_checksum", .str request.policyChecksum.val),
      ("issue_codes", textsJson (request.issueCodes.map (·.val))),
      ("unresolved_slots", textsJson (request.unresolvedSlots.map (·.val)))]

namespace HITLDecision

/-- `decision.model_dump(mode="json")`. -/
def toJson (decision : HITLDecision) : Json :=
  .obj
    [("schema_version", .str "1.0"), ("request_id", .str decision.requestId.val),
      ("request_version", .int decision.requestVersion), ("action", .str decision.action.text),
      ("slot_bindings", .arr (decision.slotBindings.map SlotBinding.toJson)),
      ("idempotency_key", .str decision.idempotencyKey.val)]

/-- The decision of its parts. -/
def build? (requestId : RequestId) (requestVersion : Nat) (action : DecisionAction) (slotBindings : List SlotBinding)
    (idempotencyKey : IdempotencyKey) : Option HITLDecision :=
  if h : (1 ≤ requestVersion ∧ requestVersion ≤ 1000000) ∧ slotBindings.length ≤ 16 ∧ (slotBindings.map (·.slot)).Nodup then
    some ⟨requestId, requestVersion, action, slotBindings, idempotencyKey, h.1, h.2.1, h.2.2⟩
  else
    none

/-- `revalidate_decision` of a decision: its dump, read back. Only the value of a slot is not dumped as it is. -/
def revalidate? (decision : HITLDecision) : Option HITLDecision := do
  let bindings ← decision.slotBindings.mapM fun binding => SlotBinding.ofJson? binding.toJson
  build? decision.requestId decision.requestVersion decision.action bindings decision.idempotencyKey

/-- `validate_against`. -/
def validateAgainst (decision : HITLDecision) (request : HITLRequest) : List String :=
  failIf (decision.requestId ≠ request.requestId) "decision_request_id_mismatch" ++
  failIf (decision.requestVersion ≠ request.version) "decision_request_version_stale" ++
  failIf (decision.action ∉ request.allowedActions) "decision_action_not_allowed" ++
  if decision.action = .resolve ∨ decision.action = .choose then
    failIf (decision.slotBindings = []) "decision_resolution_payload_missing" ++
    failIf (∃ binding ∈ decision.slotBindings, binding.slot ∉ request.unresolvedSlots) "decision_unknown_slot_binding"
  else
    failIf (decision.slotBindings ≠ []) "decision_unexpected_resolution_payload"

end HITLDecision

def ResumeToken.toJson (token : ResumeToken) : Json :=
  .obj
    [("schema_version", .str "1.0"), ("request_id", .str token.requestId.val), ("request_version", .int token.requestVersion),
      ("plan_sha256", .str token.planSha256.val), ("context_checksum", .str token.contextChecksum.val),
      ("policy_version", .str token.policyVersion.val), ("policy_checksum", .str token.policyChecksum.val),
      ("decision_checksum", .str token.decisionChecksum.val)]

/-! ## Projections -/

section Projections

variable (checksum : Json → Sha256)

/-- `token.validate_against`. -/
def ResumeToken.validateAgainst (token : ResumeToken) (request : HITLRequest) (decision : HITLDecision) : List String :=
  failIf (token.requestId ≠ request.requestId) "resume_request_id_mismatch" ++
  failIf (token.requestVersion ≠ request.version) "resume_request_version_mismatch" ++
  failIf (token.planSha256 ≠ request.planSha256) "resume_plan_mismatch" ++
  failIf (token.contextChecksum ≠ request.contextChecksum) "resume_context_mismatch" ++
  failIf (token.policyVersion ≠ request.policyVersion) "resume_policy_version_mismatch" ++
  failIf (token.policyChecksum ≠ request.policyChecksum) "resume_policy_checksum_mismatch" ++
  failIf (token.decisionChecksum ≠ checksum decision.toJson) "resume_decision_mismatch"

/-- `resume_token`: none where the decision does not satisfy the request. -/
def resumeToken? (request : HITLRequest) (decision : HITLDecision) : Option ResumeToken :=
  if decision.validateAgainst request = [] then
    some
      { requestId := request.requestId
        requestVersion := request.version
        planSha256 := request.planSha256
        contextChecksum := request.contextChecksum
        policyVersion := request.policyVersion
        policyChecksum := request.policyChecksum
        decisionChecksum := checksum decision.toJson
        version_bounds := request.version_bounds }
  else
    none

/-- The identity a clarification's id is digested from. -/
def clarificationIdentity (validation : PlanValidationRecord) (version : Nat) (codes slots : List String) : Json :=
  .obj
    [("decision_kind", .str "clarification"), ("version", .int version),
      ("plan_sha256", .str validation.queryPlanSha256.val), ("context_checksum", .str validation.contextChecksum.val),
      ("policy_version", .str validation.policyVersion.val), ("policy_checksum", .str validation.policyChecksum.val),
      ("issue_codes", textsJson codes), ("unresolved_slots", textsJson slots)]

/-- `HITLRequest(...)` of a clarification: none where the contract rejects it. -/
def HITLRequest.clarification? (requestId : RequestId) (validation : PlanValidationRecord) (version : Nat) (codes : List IssueCode)
    (slots : List SlotName) : Option HITLRequest :=
  if h : (1 ≤ version ∧ version ≤ 1000000) ∧ (codes.length ≤ 32 ∧ codes.Nodup) ∧ (slots.length ≤ 16 ∧ slots.Nodup) ∧
      (∀ slot ∈ slots, slot.val ∉ reservedSlotNames) ∧ slots ≠ [] ∧ codes ≠ [] then
    some
      { requestId := requestId
        decisionKind := .clarification
        version := version
        allowedActions := DecisionKind.clarification.actions
        planSha256 := validation.queryPlanSha256
        contextChecksum := validation.contextChecksum
        policyVersion := validation.policyVersion
        policyChecksum := validation.policyChecksum
        issueCodes := codes
        unresolvedSlots := slots
        safeSummary := none
        version_bounds := h.1
        actions_length := by decide
        actions_unique := by decide
        actions_permitted := fun _ h => h
        codes_length := h.2.1.1
        codes_unique := h.2.1.2
        slots_length := h.2.2.1.1
        slots_unique := h.2.2.1.2
        slots_not_reserved := h.2.2.2.1
        summary_printable := nofun
        clarifies := fun _ => h.2.2.2.2
        only_clarification := fun h => absurd rfl h }
  else
    none

/-- `clarification_request`: none where it raises. -/
def clarificationRequest? (D : PlanDigests) (validation : PlanValidationRecord) (context : ContextBundle) (plan : QueryPlan)
    (version : Nat) : Option HITLRequest :=
  if validation.outcome ≠ .clarify ∨ validation.queryPlanSha256 ≠ D.queryPlan plan ∨
      validation.contextChecksum ≠ D.context context then
    none
  else do
    let slots := fromKeys (context.unresolvedSlots ++ plan.unresolvedSlots)
    let codes := fromKeys (validation.issues.map (·.code))
    let digest := checksum (clarificationIdentity validation version codes slots)
    let requestId ← matching? isRequestId ("clarify-" ++ String.ofList (digest.val.toList.take 32))
    let slotNames ← slots.mapM (matching? isSlotName)
    let issueCodes ← codes.mapM (matching? isIssueCode)
    HITLRequest.clarification? requestId validation version issueCodes slotNames

end Projections

end Nl2Sql
