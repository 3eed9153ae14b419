import Nl2Sql.Lib.Method
import Nl2Sql.Metric.Contracts
import Nl2Sql.Planner.Time

/-!
# The deterministic planner

`orchestration/deterministic_query_plan.py` and `semantic/metric_match.py`: a question selects a metric of the bound release by an exact
label and carries closed clauses, which become one query plan. No model is called. Two ways bind the slots a person decided: the question
is parsed again with the bindings in place of its clauses, or the bindings are applied to the plan in force. The parser of a metric's
definition is a parameter, as in `Metric.Compiler`; the clock, the authoritative date and the window of available dates are known by what
a call of them gives, and a call that raises gives none.
-/

namespace Nl2Sql

open Py

/-- Why no plan is proposed: the codes of `QueryPlanProposalError`, and what is raised beside it: by a model that rejects its data, and by
`int` of a text that has too many digits. -/
inductive ProposalError where
  | semanticReleaseNotBound
  | noActiveSemanticRelease
  | contextReleaseMismatch
  | unknownMetricSelector
  | ambiguousMetricSelector
  | emptyQuestion
  | selectorRequired (selector : String)
  | duplicateClause (name : String)
  | unknownClause (clause : String)
  | emptyTimeClause
  | unknownGrain (value : String)
  | unknownIntent (value : String)
  | malformedTop (value : String)
  | topOutOfRange (value : String)
  | missingFilterField
  | unknownFilterField (field : String)
  | emptyFilterValue (field : String)
  | filterTypeMismatch (field : String)
  | unknownDimension (value : String)
  | emptyScopeValue
  | cityCompanyDimensionRejected
  | orgScopeRequiresAuthorizationSeam
  | groupedIntentRequiresDimension
  | scopeRequiresGroupedIntent
  | topRequiresRankingIntent
  | duplicateSlotBinding
  | unsupportedSlotBinding
  | slotBindingSourceNotExecutable
  | slotBindingValueInvalid
  | slotBindingGrainInvalid
  | slotBindingTimeCarrierRejected
  | replanBasePlanMetricMismatch
  | validationError
  | tooManyDigits
  deriving DecidableEq, Repr

/-- The text of an error. -/
def ProposalError.text : ProposalError → String
  | .semanticReleaseNotBound => "semantic_release_not_bound"
  | .noActiveSemanticRelease => "no_active_semantic_release"
  | .contextReleaseMismatch => "context_release_mismatch"
  | .unknownMetricSelector => "unknown_metric_selector"
  | .ambiguousMetricSelector => "ambiguous_metric_selector"
  | .emptyQuestion => "empty_question"
  | .selectorRequired selector => "selector_required:" ++ selector
  | .duplicateClause name => "duplicate_clause:" ++ name
  | .unknownClause clause => "unknown_clause:" ++ clause
  | .emptyTimeClause => "empty_time_clause"
  | .unknownGrain value => "unknown_grain:" ++ value
  | .unknownIntent value => "unknown_intent:" ++ value
  | .malformedTop value => "malformed_top:" ++ value
  | .topOutOfRange value => "top_out_of_range:" ++ value
  | .missingFilterField => "unknown_filter_field"
  | .unknownFilterField field => "unknown_filter_field:" ++ field
  | .emptyFilterValue field => "empty_filter_value:" ++ field
  | .filterTypeMismatch field => "filter_type_mismatch:" ++ field
  | .unknownDimension value => "unknown_dimension:" ++ value
  | .emptyScopeValue => "empty_scope_value"
  | .cityCompanyDimensionRejected => "city_company_dimension_rejected"
  | .orgScopeRequiresAuthorizationSeam => "org_scope_requires_authorization_seam"
  | .groupedIntentRequiresDimension => "grouped_intent_requires_dimension"
  | .scopeRequiresGroupedIntent => "scope_requires_grouped_intent"
  | .topRequiresRankingIntent => "top_requires_ranking_intent"
  | .duplicateSlotBinding => "duplicate_slot_binding"
  | .unsupportedSlotBinding => "unsupported_slot_binding"
  | .slotBindingSourceNotExecutable => "slot_binding_source_not_executable"
  | .slotBindingValueInvalid => "slot_binding_value_invalid"
  | .slotBindingGrainInvalid => "slot_binding_grain_invalid"
  | .slotBindingTimeCarrierRejected => "slot_binding_time_carrier_rejected"
  | .replanBasePlanMetricMismatch => "replan_base_plan_metric_mismatch"
  | .validationError => "validation_error"
  | .tooManyDigits => "Exceeds the limit (4300 digits) for integer string conversion"

/-- A `QueryPlanProposalError`: neither raised by a model nor by `int`. -/
def ProposalError.isRefusal : ProposalError → Bool
  | .validationError => false
  | .tooManyDigits => false
  | _ => true

/-- `if c: raise QueryPlanProposalError(e)`. -/
def refuseIf (c : Prop) [Decidable c] (e : ProposalError) : Except ProposalError Unit := if c then .error e else .ok ()

/-- A value, or the error for its absence. -/
def orRefuse {α : Type} (e : ProposalError) : Option α → Except ProposalError α
  | none => .error e
  | some a => .ok a

/-! ## Matching a metric -/

/-- One metric of the release that a question may select. -/
structure MetricCandidate where
  assetId : String
  metricKey : String
  displayName : String
  contract : MetricContract

section Match

variable (U : UnicodeForms) (parseContract : String → Option MetricContract)

/-- `labels`. -/
def MetricCandidate.labels (candidate : MetricCandidate) : List String :=
  [U.normalize candidate.assetId, U.normalize candidate.metricKey, U.normalize candidate.displayName].filter (· ≠ "")

/-- `_contract`: the definition a document carries, if it is the definition of that document. -/
def contractOf? (document : SemanticDocument) : Option MetricContract :=
  let raw := (document.metadata.get? "execution_contract").getD ""
  if isBlank raw then none
  else
    match parseContract raw with
    | none => none
    | some contract => if contract.assetId ≠ document.documentId then none else some contract

/-- One document of `_release_candidates`: the candidates so far, and those after it. -/
def addCandidate (permittedAssetIds : Option (List String)) (candidates : List MetricCandidate) (document : SemanticDocument) :
    List MetricCandidate :=
  if document.metadata.get? "asset_type" ≠ some "metric" ∨ document.metadata.get? "status" ≠ some "active" ∨
      (∃ ids ∈ permittedAssetIds, document.documentId ∉ ids) ∨ document.documentId ∈ candidates.map (·.assetId) then
    candidates
  else
    match contractOf? parseContract document with
    | none => candidates
    | some contract => candidates ++ [(⟨document.documentId, contract.metricKey.val, contract.displayName, contract⟩ : MetricCandidate)]

/-- `_release_candidates`. -/
def releaseCandidates (release : SemanticRelease) (permittedAssetIds : Option (List String)) : List MetricCandidate :=
  (release.documents.foldl (addCandidate parseContract permittedAssetIds) []).insertionSort fun a b => a.assetId ≤ b.assetId

/-- `_match_length`. -/
def matchLength (token : String) (candidate : MetricCandidate) : Nat :=
  if token ∈ candidate.labels U then token.length
  else if startsWith "metric=" token then
    let value := String.ofList (token.toList.drop 7)
    if value = U.normalize candidate.assetId ∨ value = U.normalize candidate.metricKey then value.length else 0
  else 0

/-- One comparison of `detect_metric_candidates`: the longest match so far and the assets that reach it. -/
def improveMatch (token : String) (best : Nat × List String) (candidate : MetricCandidate) : Nat × List String :=
  let length := matchLength U token candidate
  if length = 0 then best
  else if best.1 < length then (length, [candidate.assetId])
  else if length = best.1 then (best.1, candidate.assetId :: best.2)
  else best

/-- `detect_metric_candidates`. -/
def detectMetricCandidates (question : String) (release : SemanticRelease) (permittedAssetIds : Option (List String)) :
    List MetricCandidate :=
  let candidates := releaseCandidates parseContract release permittedAssetIds
  let best := (words (U.normalize question)).foldl (fun best token => candidates.foldl (improveMatch U token) best) (0, [])
  if best.1 = 0 then [] else candidates.filter fun candidate => candidate.assetId ∈ best.2

end Match

/-! ## The clauses of a question -/

/-- `_SCOPE_NAMES`. -/
def scopeNames : List String := ["area", "team", "employee"]

/-- The grain of a text of `_GRAINS`. -/
def grainOf? (text : String) : Option QueryGrain :=
  if text = "day" then some .day else if text = "month" then some .month else none

/-- The intent of a text of `_INTENTS`. -/
def intentOf? (text : String) : Option QueryIntent :=
  if text = "metric" then some .metric else if text = "trend" then some .trend else if text = "comparison" then some .comparison
  else if text = "ranking" then some .ranking else none

/-- An intent that groups: `intent in {"comparison", "ranking"}`. -/
def QueryIntent.grouped (intent : QueryIntent) : Bool := intent == .comparison || intent == .ranking

/-- The value of a scope clause. -/
inductive ScopeClauseValue where
  | single (value : String)
  | several (values : List String)

/-- What the clauses of a question ask for: `ProposalIntent`. -/
structure ProposalIntent where
  candidate : MetricCandidate
  timeText : Option String
  timeConflict : Bool
  grain : QueryGrain
  dimension : Option String
  intent : QueryIntent
  resultLimit : Option Nat
  filters : List BoundFilter
  availableDates : List Date

/-- The local variables of `parse_proposal`. -/
structure Clauses where
  claimed : List String := []
  timeText : Option String := none
  timeConflict : Bool := false
  grain : QueryGrain := .day
  dimensionValue : Option String := none
  intent : QueryIntent := .metric
  resultLimit : Option Nat := none
  filters : List BoundFilter := []
  scopeClauses : List (String × ScopeClauseValue) := []

/-- `claim`. -/
def Clauses.claim (name : String) (s : Clauses) : Except ProposalError Clauses :=
  if name ∈ s.claimed then .error (.duplicateClause name) else .ok { s with claimed := name :: s.claimed }

/-- A full match of `^(?P<name>[a-z_]+)\s+in\s+\[(?P<values>[^\]]*)\]$`. -/
def inClause? (token : String) : Option (String × String) :=
  let isName (c : Char) : Bool := isLowerAscii c || c == '_'
  let name := token.toList.takeWhile isName
  let afterName := token.toList.dropWhile isName
  match afterName.dropWhile isSpace with
  | 'i' :: 'n' :: afterIn =>
    match afterIn.dropWhile isSpace with
    | '[' :: inner =>
      if name ≠ [] ∧ afterName.head?.any isSpace ∧ afterIn.head?.any isSpace ∧ inner.dropWhile (· ≠ ']') = [']'] then
        some (String.ofList name, String.ofList (inner.takeWhile (· ≠ ']')))
      else none
    | _ => none
  | _ => none

/-- `_parse_scope_clause`. -/
def parseScopeClause (token : String) : Except ProposalError (Option (String × String)) :=
  if token = "city_company" ∨ startsWith "city_company=" token then .error .cityCompanyDimensionRejected
  else
    match scopeNames.find? fun name => startsWith (name ++ "=") token with
    | some name => .ok (some (name, strip (String.ofList (token.toList.drop (name.length + 1)))))
    | none =>
      match inClause? token with
      | some (name, values) => .ok (if name ∈ scopeNames then some (name, strip values) else none)
      | none => .ok none

/-- `_scope_values`. -/
def scopeValues (raw : String) : Except ProposalError ScopeClauseValue :=
  match ((split ',' raw).map strip).filter (· ≠ "") with
  | [] => .error .emptyScopeValue
  | [value] => .ok (.single value)
  | values => .ok (.several values)

/-- `_require_organization_scope_authorized`. -/
def requireOrganizationScopeAuthorized (value : String) : Except ProposalError Unit :=
  refuseIf (value ∈ scopeNames) .orgScopeRequiresAuthorizationSeam

/-- A filter of its parts, if the model accepts them. -/
def BoundFilter.of? (field : String) (operator : FilterOperator) (value : Json) (source : FilterSource)
    (h : operator.accepts (some value)) : Option BoundFilter :=
  if hfield : isFieldRef field = true then some ⟨⟨field, hfield⟩, operator, some value, source, h⟩ else none

/-- `_scope_filter`. -/
def scopeFilter (name : String) (value : ScopeClauseValue) : Except ProposalError BoundFilter := do
  requireOrganizationScopeAuthorized name
  match value with
  | .single text => orRefuse .validationError (BoundFilter.of? name .eq (.str text) .entityAlias ⟨_, rfl⟩)
  | .several [] => .error .validationError
  | .several (text :: texts) =>
    orRefuse .validationError
      (BoundFilter.of? name .isIn (.arr (.str text :: texts.map .str)) .entityAlias ⟨_, rfl, List.cons_ne_nil _ _⟩)

/-- `_dimension_value`. -/
def dimensionOf (value : String) (grouped : Bool) : Except ProposalError String :=
  if value = "city_company" then (if grouped then .error .cityCompanyDimensionRejected else .ok value)
  else if value ∉ scopeNames then .error (.unknownDimension value)
  else .ok value

/-- The number of a text of ASCII digits without a zero in front: a full match of `[1-9][0-9]*`. -/
def positiveNumber? (cs : List Char) : Option Nat := if cs.head? = some '0' ∨ cs = [] then none else Date.number? cs

/-- The most digits that `int` reads. -/
def maxIntDigits : Nat := 4300

/-- `_top_value`. -/
def topValue (value : String) : Except ProposalError Nat :=
  match positiveNumber? value.toList with
  | none => .error (.malformedTop value)
  | some number => do
    refuseIf (maxIntDigits < value.length) .tooManyDigits
    if 1 ≤ number ∧ number ≤ 100 then .ok number else .error (.topOutOfRange value)

/-- The integer of a full match of `-?(?:0|[1-9][0-9]*)`. -/
def plainInteger? (value : String) : Option Int :=
  let natural? (cs : List Char) : Option Nat := if cs = ['0'] then some 0 else positiveNumber? cs
  match value.toList with
  | '-' :: digits => (natural? digits).map fun n : Nat => -(n : Int)
  | digits => (natural? digits).map fun n : Nat => (n : Int)

/-- `_filter_clause`. -/
def filterClause (field value : String) (contract : MetricContract) : Except ProposalError BoundFilter := do
  let declared ← orRefuse (.unknownFilterField field) (contract.filters.find? fun item => item.field.val = field)
  refuseIf (value = "") (.emptyFilterValue field)
  let typed ← match declared.valueType with
    | .integer => do
      let number ← orRefuse (.filterTypeMismatch field) (plainInteger? value)
      refuseIf (maxIntDigits < (value.toList.filter (· ≠ '-')).length) .tooManyDigits
      .ok (.int number)
    | .text => .ok (.str value)
  orRefuse .validationError (BoundFilter.of? field .eq typed .user ⟨_, rfl⟩)

/-- A time clause. A second one is a conflict, and the last text stands. -/
def Clauses.time (value : String) (s : Clauses) : Except ProposalError Clauses :=
  if value = "" then .error .emptyTimeClause
  else if "time" ∈ s.claimed then .ok { s with timeConflict := true, timeText := some value }
  else .ok { s with claimed := "time" :: s.claimed, timeText := some value }

/-- A clause `key=value`. -/
def Clauses.keyed (contract : MetricContract) (key value : String) (s : Clauses) : Except ProposalError Clauses :=
  if key = "time" then s.time value
  else if key = "grain" then do
    let s ← s.claim "grain"
    let grain ← orRefuse (.unknownGrain value) (grainOf? value)
    .ok { s with grain := grain }
  else if key = "dim" then do
    requireOrganizationScopeAuthorized value
    let s ← s.claim "dim"
    .ok { s with dimensionValue := some value }
  else if key = "intent" then do
    let s ← s.claim "intent"
    let intent ← orRefuse (.unknownIntent value) (intentOf? value)
    .ok { s with intent := intent }
  else if key = "top" then do
    let s ← s.claim "top"
    let limit ← topValue value
    .ok { s with resultLimit := some limit }
  else if startsWith "filter." key then do
    let field := strip (String.ofList (key.toList.drop 7))
    refuseIf (field = "") .missingFilterField
    let s ← s.claim ("filter." ++ field)
    let filter ← filterClause field value contract
    .ok { s with filters := s.filters ++ [filter] }
  else .error (.unknownClause key)

/-- One token of the question after its selector. -/
def Clauses.token (contract : MetricContract) (s : Clauses) (token : String) : Except ProposalError Clauses := do
  match ← parseScopeClause token with
  | some (name, rawValue) =>
    requireOrganizationScopeAuthorized name
    let s ← s.claim ("scope." ++ name)
    let value ← scopeValues rawValue
    .ok { s with scopeClauses := s.scopeClauses ++ [(name, value)] }
  | none =>
    match partition '=' token with
    | (_, none) =>
      if token ∈ scopeNames then do
        requireOrganizationScopeAuthorized token
        let s ← s.claim "dim"
        .ok { s with dimensionValue := some token }
      else .error (.unknownClause token)
    | (key, some value) => s.keyed contract (strip key) (strip value)

/-- The scope clauses, after the dimension is known: the first names the dimension if none does, and each is a filter. -/
def addScopes : List (String × ScopeClauseValue) → Option String → List BoundFilter →
    Except ProposalError (Option String × List BoundFilter)
  | [], dimension, filters => .ok (dimension, filters)
  | (name, value) :: rest, dimension, filters => do
    refuseIf (name = "city_company") .cityCompanyDimensionRejected
    let filter ← scopeFilter name value
    addScopes rest (dimension <|> some name) (filters ++ [filter])

/-- The selector is the first token: `metric=...`, or a label of the candidate. -/
def checkSelector (U : UnicodeForms) (candidate : MetricCandidate) (selector : String) : Except ProposalError Unit :=
  match partition '=' selector with
  | (key, some _) => refuseIf (key ≠ "metric") (.selectorRequired selector)
  | (_, none) => refuseIf (selector ∉ candidate.labels U) (.selectorRequired selector)

/-- The dimension the clauses name, if they name one. -/
def Clauses.namedDimension (s : Clauses) : Except ProposalError (Option String) :=
  match s.dimensionValue with
  | none => .ok none
  | some value => (dimensionOf value s.intent.grouped).map some

/-- What `parse_proposal` checks once the clauses are read. -/
def Clauses.finish (candidate : MetricCandidate) (s : Clauses) : Except ProposalError ProposalIntent := do
  let grouped := s.intent.grouped
  let named ← s.namedDimension
  let (dimension, filters) ← addScopes s.scopeClauses named s.filters
  refuseIf (grouped ∧ dimension = none) .groupedIntentRequiresDimension
  refuseIf (¬ grouped ∧ ∃ name ∈ dimension, name ∈ scopeNames) .scopeRequiresGroupedIntent
  refuseIf (¬ grouped ∧ s.resultLimit ≠ none) .topRequiresRankingIntent
  .ok { candidate := candidate, timeText := s.timeText, timeConflict := s.timeConflict, grain := s.grain, dimension := dimension,
        intent := s.intent, resultLimit := if s.intent = .ranking then some (s.resultLimit.getD 10) else s.resultLimit,
        filters := filters, availableDates := [] }

/-- `parse_proposal`. -/
def parseProposal (U : UnicodeForms) (question : String) (candidate : MetricCandidate) : Except ProposalError ProposalIntent :=
  match words (U.normalize question) with
  | [] => .error .emptyQuestion
  | selector :: tokens => do
    checkSelector U candidate selector
    let s ← tokens.foldlM (Clauses.token candidate.contract) {}
    s.finish candidate

end Nl2Sql
