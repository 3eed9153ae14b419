import Nl2Sql.Metric.Contracts

/-!
# The compiler of metric queries

`MetricQueryCompiler` of `orchestration/metric_query.py`: a query plan for one metric becomes one aggregate query over one relation of
the deployment. The query is kept as its syntax, and its text is what `Query.render` gives; conditions and parameters are collected
in the order of the source. What the compiler reads from outside (the active release, the schema, the freshness of a source, the
clock, the parser of a metric's definition, the time zone) are parameters of the model.
-/

namespace Nl2Sql

open Py Sql

/-- The codes of `PlanStepError` that compiling raises. -/
inductive MetricCode where
  | authorizationRunBindingMismatch | authorizationDenied | planDenied | operationUnsupported | activeReleaseMismatch
  | schemaSnapshotMismatch | contractMissing | contractInvalid | contractInactive | sourceOrPolicyMissing | permissionDenied
  | evaluationClockInvalid | relationUnapproved | organizationCoverageInvalid | aggregateSensitivityDenied
  | aggregateCoverageUnapproved | countColumnUnapproved | columnUnapproved | columnTypeMismatch | scanRowsExceeded
  | timeIndexRequired | grainOrDimensionUnsupported | timezoneUnsupported | timeRangeTooLarge | availablePeriodShapeInvalid
  | timeRangeOverflow | filterUnsupported | filterListInvalid | filterTypeMismatch | organizationCoverageUnapproved
  | dimensionCombinationUnsupported | organizationScopeDenied | aggregateFreshnessDenied | detailStrategyDenied
  | aggregateSlaMissing | freshnessEvidenceInvalid | freshnessAuthorityMismatch
  deriving DecidableEq, Repr

/-- The text of a code. -/
def MetricCode.text : MetricCode → String
  | .authorizationRunBindingMismatch => "authorization_run_binding_mismatch"
  | .authorizationDenied => "authorization_denied"
  | .planDenied => "metric_plan_denied"
  | .operationUnsupported => "metric_operation_unsupported"
  | .activeReleaseMismatch => "metric_active_release_mismatch"
  | .schemaSnapshotMismatch => "metric_schema_snapshot_mismatch"
  | .contractMissing => "metric_contract_missing"
  | .contractInvalid => "metric_contract_invalid"
  | .contractInactive => "metric_contract_inactive"
  | .sourceOrPolicyMissing => "metric_source_or_policy_missing"
  | .permissionDenied => "metric_permission_denied"
  | .evaluationClockInvalid => "metric_evaluation_clock_invalid"
  | .relationUnapproved => "metric_relation_unapproved"
  | .organizationCoverageInvalid => "metric_organization_coverage_invalid"
  | .aggregateSensitivityDenied => "metric_aggregate_sensitivity_denied"
  | .aggregateCoverageUnapproved => "metric_aggregate_coverage_unapproved"
  | .countColumnUnapproved => "metric_count_column_unapproved"
  | .columnUnapproved => "metric_column_unapproved"
  | .columnTypeMismatch => "metric_column_type_mismatch"
  | .scanRowsExceeded => "metric_scan_rows_exceeded"
  | .timeIndexRequired => "metric_time_index_required"
  | .grainOrDimensionUnsupported => "metric_grain_or_dimension_unsupported"
  | .timezoneUnsupported => "metric_timezone_unsupported"
  | .timeRangeTooLarge => "metric_time_range_too_large"
  | .availablePeriodShapeInvalid => "metric_available_period_shape_invalid"
  | .timeRangeOverflow => "metric_time_range_overflow"
  | .filterUnsupported => "metric_filter_unsupported"
  | .filterListInvalid => "metric_filter_list_invalid"
  | .filterTypeMismatch => "metric_filter_type_mismatch"
  | .organizationCoverageUnapproved => "metric_organization_coverage_unapproved"
  | .dimensionCombinationUnsupported => "metric_dimension_combination_unsupported"
  | .organizationScopeDenied => "metric_organization_scope_denied"
  | .aggregateFreshnessDenied => "metric_aggregate_freshness_denied"
  | .detailStrategyDenied => "metric_detail_strategy_denied"
  | .aggregateSlaMissing => "metric_aggregate_sla_missing"
  | .freshnessEvidenceInvalid => "metric_freshness_evidence_invalid"
  | .freshnessAuthorityMismatch => "metric_freshness_authority_mismatch"

/-- `_SOURCE_REJECTIONS`, with what the receipt calls each. -/
def MetricCode.rejection? : MetricCode → Option SourceDegradation
  | .permissionDenied => some .metricPermissionDenied
  | .relationUnapproved => some .metricRelationUnapproved
  | .aggregateCoverageUnapproved => some .metricAggregateCoverageUnapproved
  | .aggregateSensitivityDenied => some .metricAggregateSensitivityDenied
  | .columnUnapproved => some .metricColumnUnapproved
  | .columnTypeMismatch => some .metricColumnTypeMismatch
  | .scanRowsExceeded => some .metricScanRowsExceeded
  | .timeIndexRequired => some .metricTimeIndexRequired
  | .timeRangeTooLarge => some .metricTimeRangeTooLarge
  | .grainOrDimensionUnsupported => some .metricGrainOrDimensionUnsupported
  | .dimensionCombinationUnsupported => some .metricDimensionCombinationUnsupported
  | .aggregateSlaMissing => some .metricAggregateSlaMissing
  | .freshnessEvidenceInvalid => some .metricFreshnessEvidenceInvalid
  | .freshnessAuthorityMismatch => some .metricFreshnessAuthorityMismatch
  | _ => none

/-- What compiling raises: `PlanStepError`, or any other exception. -/
inductive MetricError where
  | step (code : MetricCode)
  | raised
  deriving DecidableEq, Repr

abbrev MetricM : Type → Type := Except MetricError

/-- `if c: raise PlanStepError(code)`. -/
def rejectIf (c : Prop) [Decidable c] (code : MetricCode) : MetricM Unit := if c then .error (.step code) else .ok ()

/-- The value, or `raise PlanStepError(code)`. -/
def orReject {α : Type} (code : MetricCode) : Option α → MetricM α
  | some a => .ok a
  | none => .error (.step code)

/-- The value that an assertion says is there. -/
def orAssert {α : Type} : Option α → MetricM α
  | some a => .ok a
  | none => .error .raised

/-! ## Organization scopes -/

/-- `{item.scope_level: item for item in coverage}`. -/
def coverageByLevel (coverage : List OrganizationCoverageBinding) : Dict String OrganizationCoverageBinding :=
  Dict.ofList (coverage.map fun item => (item.scopeLevel, item))

/-- The bindings of `_organization_scope`: without an authorization, those that can be used, and the total scope. -/
def scopeBindings (coverage : List OrganizationCoverageBinding) (authorizationRequired : Bool) :
    Dict String OrganizationCoverageBinding :=
  if authorizationRequired then
    coverageByLevel coverage
  else
    let usable := coverageByLevel ((coverageByLevel coverage).values.filter fun item =>
      item.scopeLevel = "city_company" ∨ (item.field.isSome = true ∧ item.valueType.isSome = true))
    if usable.get? "city_company" = none then usable.set "city_company" ⟨"city_company", none, none⟩ else usable

/-- The scopes of the organization filters of a plan, by their field reference. -/
def organizationFilters (metric : MetricContract) (bindings : Dict String OrganizationCoverageBinding) (authorizationRequired : Bool) :
    List BoundFilter → Dict String OrganizationCoverageBinding → MetricM (Dict String OrganizationCoverageBinding)
  | [], found => .ok found
  | item :: rest, found =>
    if ScopeLevel.of? item.fieldRef.val = none then
      organizationFilters metric bindings authorizationRequired rest found
    else do
      rejectIf (item.source ≠ .entityAlias ∨ item.fieldRef.val = "city_company") .filterUnsupported
      rejectIf (¬ metric.supports item.fieldRef.val) .filterUnsupported
      let binding ← orReject (if authorizationRequired then .organizationCoverageUnapproved else .filterUnsupported)
        (bindings.get? item.fieldRef.val)
      organizationFilters metric bindings authorizationRequired rest (found.set item.fieldRef.val binding)

/-- The checks of the requested dimensions. -/
def checkDimensions (metric : MetricContract) (bindings : Dict String OrganizationCoverageBinding) (authorizationRequired : Bool) :
    List String → MetricM Unit
  | [] => .ok ()
  | item :: rest => do
    rejectIf (¬ metric.supports item) .grainOrDimensionUnsupported
    rejectIf (bindings.get? item = none)
      (if authorizationRequired then .organizationCoverageUnapproved else .grainOrDimensionUnsupported)
    checkDimensions metric bindings authorizationRequired rest

/-- `plan.intent in {"comparison", "ranking"}`. -/
def QueryPlan.grouped (plan : QueryPlan) : Bool := plan.intent = .comparison ∨ plan.intent = .ranking

/-- `_organization_scope`: the scope the rows are grouped by, and the scopes of the filters. -/
def organizationScope (plan : QueryPlan) (metric : MetricContract) (coverage : List OrganizationCoverageBinding)
    (authorizationRequired : Bool) : MetricM (Option OrganizationCoverageBinding × Dict String OrganizationCoverageBinding) := do
  let bindings := scopeBindings coverage authorizationRequired
  checkDimensions metric bindings authorizationRequired plan.dimensions
  rejectIf (1 < plan.dimensions.length) .dimensionCombinationUnsupported
  rejectIf (plan.grouped = true ∧ (plan.dimensions.head? = none ∨ plan.dimensions.head? = some "city_company")) .operationUnsupported
  rejectIf (plan.grouped = false ∧ ∃ item ∈ plan.dimensions, item ≠ "city_company") .dimensionCombinationUnsupported
  let filters ← organizationFilters metric bindings authorizationRequired plan.filters Dict.empty
  rejectIf (1 < (fromKeys (plan.dimensions ++ filters.keys)).length) .dimensionCombinationUnsupported
  rejectIf (∃ item ∈ metric.filters, some item.field.val ∈ bindings.values.map (·.field) ∨
    ScopeLevel.of? item.field.val ≠ none) .filterUnsupported
  return (if plan.grouped = true then plan.dimensions.head?.bind bindings.get? else none, filters)

/-- `_authorization_coverage`. -/
def authorizationCoverage (coverage : List OrganizationCoverageBinding) (level : ScopeLevel) : MetricM OrganizationCoverageBinding :=
  orReject .organizationCoverageUnapproved (coverage.find? fun binding => binding.scopeLevel = level.text)

/-- `_validate_authorized_organization_request`: no level broader than the caller's. -/
def validateAuthorizedOrganizationRequest (authorization : AuthorizationContext) : List OrganizationCoverageBinding → MetricM Unit
  | [] => .ok ()
  | binding :: rest => do
    let level ← orAssert (ScopeLevel.of? binding.scopeLevel)
    rejectIf (level.order < authorization.scopeLevel.order) .organizationScopeDenied
    validateAuthorizedOrganizationRequest authorization rest

/-! ## Values -/

/-- The bits of an integer column. -/
def integerBits (columnType : String) : Nat :=
  if columnType = "smallint" ∨ columnType = "int2" then 16
  else if columnType = "integer" ∨ columnType = "int4" then 32
  else 64

/-- A number fits an integer column. -/
def fitsColumn (columnType : String) (n : Int) : Prop := -(2 ^ (integerBits columnType - 1)) ≤ n ∧ n < 2 ^ (integerBits columnType - 1)

instance (columnType : String) (n : Int) : Decidable (fitsColumn columnType n) := inferInstanceAs (Decidable (_ ∧ _))

/-- `int` of text that `_AUTHORIZATION_INTEGER_RE` accepts, `^-?(?:0|[1-9][0-9]*)$`, and none of any other text. -/
def canonicalInteger? (s : String) : Option Int :=
  let digits? (cs : List Char) : Option Nat :=
    if cs = ['0'] ∨ (cs.headD '0' ≠ '0' ∧ cs.all isDigitAscii = true) then some (digitsValue (String.ofList cs)) else none
  match s.toList with
  | '-' :: cs => (digits? cs).map fun n => -(n : Int)
  | cs => (digits? cs).map fun n => (n : Int)

/-- `_strict_integer_scope_id`; `int` raises on more than 4300 digits. -/
def strictIntegerScopeId (columnType value : String) : MetricM Value := do
  let n ← orReject .organizationCoverageInvalid (canonicalInteger? value)
  orAssert (if 4300 < value.toList.countP isDigitAscii then none else some ())
  rejectIf (¬ fitsColumn columnType n) .organizationCoverageInvalid
  return .int n

/-- `_authorization_scope_values`: the ids as values of the column; what is not text is taken for integers. -/
def authorizationScopeValues (allowedScopeIds : List String) (valueType columnType : String) : MetricM (List Value) :=
  if valueType = "text" then .ok (allowedScopeIds.map .text) else allowedScopeIds.mapM (strictIntegerScopeId columnType)

/-- `_validate_column_type`: what is not text is taken for integers. -/
def validateColumnType (valueType columnType : String) : MetricM Unit :=
  rejectIf (columnType ∉ (if valueType = "text" then ValueType.text else ValueType.integer).columnTypes) .columnTypeMismatch

/-- `_validate_filter_value`: the value a filter compares with, for a column. -/
def validateFilterValue (valueType columnType : String) (value : Json) : MetricM Value :=
  if valueType = "text" then
    match value with
    | .str s => if 1 ≤ s.length ∧ s.length ≤ 256 ∧ '\x00' ∉ s.toList then .ok (.text s) else .error (.step .filterTypeMismatch)
    | _ => .error (.step .filterTypeMismatch)
  else
    match value with
    | .int n => if fitsColumn columnType n then .ok (.int n) else .error (.step .filterTypeMismatch)
    | _ => .error (.step .filterTypeMismatch)

/-- `_validate_aggregate_columns`. -/
def validateAggregateColumns (columns : AggregateColumns) (types : Dict String String) : MetricM Unit := do
  let typeOf (name : Identifier) : MetricM String := orAssert (types.get? name.val)
  for name in [columns.metricKey, columns.formulaVersion, columns.releaseId, columns.snapshotId, columns.checkpoint, columns.grain,
      columns.dimension, columns.status] do
    validateColumnType "text" (← typeOf name)
  for name in [columns.numerator, columns.denominator] do
    validateColumnType "integer" (← typeOf name)
  rejectIf ((← typeOf columns.value) ∉ ["numeric", "decimal", "bigint", "int8", "integer", "int4"] ∨
    (← typeOf columns.dataAsOf) ∉ ["timestamp with time zone", "timestamptz"]) .columnTypeMismatch

/-- `_predicate_sql`. -/
def predicateSql (predicate : Predicate) : Cond :=
  match predicate.operator with
  | .isTrue => .isTrue (.column predicate.field.val)
  | .isNull => .isNull (.column predicate.field.val)
  | .isNotNull => .isNotNull (.column predicate.field.val)

/-! ## The query of one source -/

/-- The conditions of a query and their parameters, while they are collected. -/
structure Draft where
  conditions : List Cond
  params : Params

/-- `where.append(...)` with `params.update(...)`. -/
def Draft.add (draft : Draft) (condition : Cond) (values : List (String × Value)) : Draft :=
  ⟨draft.conditions ++ [condition], draft.params.update values⟩

/-- `[f"{name}_{position}" for position in range(count)]`. -/
def numbered (name : String) (count : Nat) : List String := (List.range count).map fun position => name ++ "_" ++ toString position

/-- A condition that a column is one of some values, under numbered parameters. -/
def Draft.addIn (draft : Draft) (e : Scalar) (name : String) (values : List Value) : Draft :=
  draft.add (.isIn e (numbered name values.length)) ((numbered name values.length).zip values)

/-- The microseconds of a day. -/
def dayMicros : Int := 86400000000

/-- What the compiler of a request is built from. -/
structure MetricQueryCompiler where
  bindings : List RelationBinding
  policies : List EligibilityPolicy
  identity : RequestIdentity
  authorization : Option AuthorizationContext
  expectedRevision : Option String
  /-- the release that is active -/
  active : Option SemanticRelease
  /-- the snapshots by their id -/
  snapshots : String → Option SchemaSnapshot
  /-- what is known of the freshness of a source -/
  freshness : ContractId → Option SourceFreshnessRecord
  /-- the instant of the evaluation, none when the clock's is not in UTC -/
  clock : Option Int
  /-- `MetricContract.model_validate_json`, none where it raises -/
  parseContract : String → Option MetricContract
  /-- the instant of a local time in Asia/Shanghai -/
  instant : Int → Int
  bindings_unique : (bindings.map (·.deploymentSourceId)).Nodup
  policies_unique : (policies.map (·.policyId)).Nodup

/-- What the semantic signature of a query is the digest of. -/
structure SignaturePayload where
  /-- without its strategy -/
  plan : QueryPlan
  metric : MetricContract
  policy : EligibilityPolicy
  release : String
  snapshot : String
  checksum : String
  checkpoint : Option ContractId
  countColumn : Option Identifier
  authorization : Option (BoundedText 1 256 × ScopeLevel)

/-- The digests of a metric query. -/
structure MetricDigests extends PlanDigests where
  metric : MetricContract → Sha256
  eligibility : EligibilityPolicy → Sha256
  signature : SignaturePayload → Sha256

/-- A compiled query. -/
structure CompiledMetricQuery where
  query : Query
  params : Params
  releaseId : String
  snapshotId : String
  snapshotChecksum : String
  queryPlan : QueryPlan
  context : ContextBundle
  operation : MetricOperation
  dimension : Option OrganizationCoverageBinding
  sourceKind : SourceKind
  sourceId : ContractId
  selectionReason : SelectionReason
  degradation : List SourceDegradation
  freshness : SourceFreshnessRecord
  semanticSignature : Sha256
  authorizationRevision : Option (BoundedText 1 256)
  authorizationScopeLevel : Option ScopeLevel

/-- The text of the query. -/
def CompiledMetricQuery.sql (q : CompiledMetricQuery) : String := q.query.render

/-- What a source is compiled for: the request, the metric and the source. -/
structure SourceRequest where
  plan : QueryPlan
  context : ContextBundle
  metric : MetricContract
  policy : EligibilityPolicy
  release : SemanticRelease
  snapshot : SchemaSnapshot
  binding : RelationBinding
  freshness : SourceFreshnessRecord

namespace SourceRequest

variable (r : SourceRequest)

/-- The relation of the source, by the active release and the approved schema. -/
def relation : MetricM RelationSnapshot := do
  rejectIf (r.binding.relationAssetId ∉ r.context.approvedRelationIds) .relationUnapproved
  let documents := r.release.documents.filter fun doc => doc.documentId = r.binding.relationAssetId ∧
    doc.metadata.get? "status" = some "active" ∧ doc.metadata.get? "asset_type" = some "relation"
  match documents, r.snapshot.relations.filter fun item => item.relationId = r.binding.relationId with
  | [_], [relation] => .ok relation
  | _, _ => .error (.step .relationUnapproved)

/-- `business_time_column`. -/
def businessTimeColumn : Identifier :=
  match r.binding.aggregate with
  | some aggregate => aggregate.columns.time
  | none => r.metric.businessTimeColumn

/-- The conditions every row of a detail source meets: `is_valid_for_metrics`, the policy's and the metric's. -/
def predicates : List Predicate :=
  ⟨⟨"is_valid_for_metrics", by decide⟩, .isTrue⟩ :: (r.policy.predicates ++ r.metric.predicates)

/-- `formula_predicates`. -/
def formulaPredicates : List Predicate := r.predicates ++ r.metric.formulaPredicates

/-- `used`: the columns a query names. -/
def usedColumns (dimension : Option OrganizationCoverageBinding) (filters : Dict String OrganizationCoverageBinding)
    (authorized : Option OrganizationCoverageBinding) : List String :=
  (match r.binding.aggregate with
    | some aggregate => aggregate.columns.names ++ r.metric.filters.map (·.field.val)
    | none =>
      r.businessTimeColumn.val :: (r.formulaPredicates.map (·.field.val) ++ r.metric.filters.map (·.field.val) ++
        (r.binding.countColumn.map (·.val)).toList)) ++
    filters.values.filterMap (·.field) ++ (dimension.bind (·.field)).toList ++ (authorized.bind (·.field)).toList

variable (relation : RelationSnapshot)

/-- The checks of the relation, before its columns. -/
def checkRelation (authorizationRequired : Bool) : MetricM Unit := do
  rejectIf (authorizationRequired = true ∧ validateOrganizationCoverage relation ≠ []) .organizationCoverageInvalid
  rejectIf (r.binding.aggregate.isSome = true ∧ relation.sensitivity ∉ ["public", "internal"]) .aggregateSensitivityDenied
  rejectIf (r.binding.aggregate.isSome = true ∧ r.metric.metricKey.val ∉ relation.aggregateCoverage) .aggregateCoverageUnapproved
  rejectIf (∃ column ∈ r.binding.countColumn, column.val ∉ relation.columnTypes.keys) .countColumnUnapproved

/-- The checks of the columns a query names. -/
def checkColumns (used : List String) (authorized : Option OrganizationCoverageBinding) :
    MetricM Unit := do
  let allowed := r.binding.allowedColumns.map (·.val)
  let known := relation.columnTypes.keys
  rejectIf (∃ field ∈ authorized.bind (·.field), field ∉ allowed ∨ field ∉ known ∨ field ∈ relation.sensitiveColumns)
    .organizationCoverageInvalid
  rejectIf (∃ name ∈ used, name ∉ allowed ∨ name ∉ known ∨ name ∈ relation.sensitiveColumns) .columnUnapproved

/-- The type of a column that is known to be there. -/
def columnType (name : String) : MetricM String := orAssert (relation.columnTypes.get? name)

/-- The checks of the types of the columns, of the cost of a scan, and of the filters. -/
def checkTypes (organizations : List OrganizationCoverageBinding) : MetricM Unit := do
  let timeType ← columnType relation r.businessTimeColumn.val
  let expected := match r.binding.timestampKind with
    | .timestamp => ["timestamp without time zone", "timestamp"]
    | .timestamptz => ["timestamp with time zone", "timestamptz"]
  let tested := if r.binding.aggregate.isSome = true then [] else r.formulaPredicates.filter fun item => item.operator = .isTrue
  let types ← tested.mapM fun item => columnType relation item.field.val
  rejectIf (timeType ∉ expected ∨ ∃ type ∈ types, type ∉ ["boolean", "bool"]) .columnTypeMismatch
  match r.binding.aggregate with
  | some aggregate => validateAggregateColumns aggregate.columns relation.columnTypes
  | none =>
    rejectIf (relation.estimatedRows < 0 ∨ (r.binding.maxEstimatedRows : Int) < relation.estimatedRows) .scanRowsExceeded
    rejectIf ((∀ index ∈ relation.indexes, index.columns.head? ≠ some r.businessTimeColumn.val ∨ index.predicate ≠ none) ∧
      ¬ ∃ rows ∈ r.binding.bootstrapScanMaxRows, 0 ≤ relation.estimatedRows ∧ relation.estimatedRows ≤ (rows : Int)) .timeIndexRequired
  for rule in r.metric.filters do
    validateColumnType rule.valueType.name (← columnType relation rule.field.val)
  for organization in organizations do
    let field ← orAssert organization.field
    let valueType ← orAssert organization.valueType
    validateColumnType valueType (← columnType relation field)

/-- The checks of the grain, the dimensions and the period. -/
def checkPeriod : MetricM Unit := do
  rejectIf (r.plan.grain ∉ r.metric.supportedGrains ∨ ∃ item ∈ r.plan.dimensions, ¬ r.metric.supports item)
    .grainOrDimensionUnsupported
  rejectIf (r.plan.timeRange.timezone.val ≠ "Asia/Shanghai") .timezoneUnsupported
  rejectIf (r.binding.maxDays < r.plan.timeRange.stop.toOrdinal - r.plan.timeRange.start.toOrdinal + 1) .timeRangeTooLarge
  rejectIf (r.plan.availableDates ≠ [] ∧ (r.plan.intent ≠ .trend ∨ r.plan.grain ≠ .day ∨ r.plan.dimensions ≠ []))
    .availablePeriodShapeInvalid
  rejectIf (r.plan.timeRange.stop.year = 9999 ∧ r.plan.timeRange.stop.month = 12 ∧ r.plan.timeRange.stop.day = 31) .timeRangeOverflow

/-- The value of a local time for the business time column. -/
def timeValue (instant : Int → Int) (localTime : Int) : Value :=
  match r.binding.timestampKind with
  | .timestamp => .timestamp localTime
  | .timestamptz => .timestamptz (instant localTime)

/-- The business time, and what it is in Asia/Shanghai. -/
def businessTime : Scalar := .column r.businessTimeColumn.val

@[inherit_doc businessTime]
def localBusinessTime : Scalar :=
  match r.binding.timestampKind with
  | .timestamp => r.businessTime
  | .timestamptz => .atTimeZone r.businessTime "Asia/Shanghai"

/-- The conditions on the business time: a half-open interval, and the available days when there are some. -/
def periodDraft (instant : Int → Int) : Draft :=
  let start := r.timeValue instant (r.plan.timeRange.start.toOrdinal * dayMicros)
  let stop := r.timeValue instant ((r.plan.timeRange.stop.toOrdinal + 1) * dayMicros)
  let draft : Draft := ⟨[.ge r.businessTime "start_at", .lt r.businessTime "end_at"],
    (Dict.empty.set "start_at" start).set "end_at" stop⟩
  if r.plan.availableDates = [] then draft
  else draft.addIn (.date r.localBusinessTime) "available_date" (r.plan.availableDates.map fun d => .date d.toOrdinal)

/-- The condition that the system adds for the scope of the request. -/
def authorizationDraft (authorization : Option AuthorizationContext)
    (authorized : Option OrganizationCoverageBinding) (draft : Draft) : MetricM Draft :=
  match authorization, authorized.bind (·.field), authorized.bind (·.valueType) with
  | some authorization, some field, some valueType => do
    let ids ← authorizationScopeValues authorization.allowedScopeIds valueType (← columnType relation field)
    return draft.addIn (.column field) "auth_scope" ids
  | some _, some _, none => .error .raised
  | _, _, _ => .ok draft

/-- The text of an optional id. -/
def idValue (id : Option ContractId) : Value := (id.map fun id => Value.text id.val).getD .null

/-- The scope of the daily facts an aggregate source is read at. -/
def factScope (authorization : Option AuthorizationContext) (dimension : Option OrganizationCoverageBinding)
    (filters : Dict String OrganizationCoverageBinding) : String :=
  match dimension, filters.keys.head? with
  | some dimension, _ => dimension.scopeLevel
  | none, some name => name
  | none, none => (authorization.map (·.scopeLevel.text)).getD "city_company"

/-- The conditions of the source: the facts of an aggregate that the release, the schema and the freshness name, or the fixed
conditions of a detail source. -/
def sourceDraft (scope : String) (draft : Draft) : Draft :=
  match r.binding.aggregate with
  | some aggregate =>
    let facts : List (String × Identifier × Value) :=
      [("source_metric", aggregate.columns.metricKey, .text r.metric.metricKey.val),
        ("source_formula", aggregate.columns.formulaVersion, .text r.metric.formulaVersion.val),
        ("source_release", aggregate.columns.releaseId, .text r.release.releaseId),
        ("source_snapshot", aggregate.columns.snapshotId, .text r.snapshot.snapshotId),
        ("source_checkpoint", aggregate.columns.checkpoint, idValue r.freshness.checkpoint),
        ("source_data_as_of", aggregate.columns.dataAsOf, (r.freshness.dataAsOf.map .timestamptz).getD .null),
        ("source_grain", aggregate.columns.grain, .text "day"),
        ("source_dimension", aggregate.columns.dimension, .text scope)]
    facts.foldl (fun draft (key, column, value) => draft.add (.eq (.column column.val) key) [(key, value)]) draft
  | none => r.predicates.foldl (fun draft item => draft.add (predicateSql item) []) draft

/-- The column and the type a filter is on. -/
def filterTarget (filters : Dict String OrganizationCoverageBinding) (item : BoundFilter) : MetricM (String × String) :=
  match filters.get? item.fieldRef.val with
  | some organization => do
    let field ← orAssert organization.field
    let valueType ← orAssert organization.valueType
    rejectIf (item.operator ≠ .eq ∧ item.operator ≠ .isIn) .filterUnsupported
    return (field, valueType)
  | none =>
    match r.metric.filters.find? fun rule => rule.field.val = item.fieldRef.val with
    | some rule => do
      rejectIf (item.operator ≠ .eq) .filterUnsupported
      return (rule.field.val, rule.valueType.name)
    | none => .error (.step .filterUnsupported)

/-- `item.value if item.operator == "in" else [item.value]`: 1 to 100 values. -/
def filterValues (item : BoundFilter) : MetricM (List Json) :=
  match item.operator, item.value with
  | .isIn, some (.arr values) => do
    rejectIf (¬ (1 ≤ values.length ∧ values.length ≤ 100)) .filterListInvalid
    return values
  | .isIn, _ => .error (.step .filterListInvalid)
  | _, some value => .ok [value]
  | _, none => .ok [.null]

/-- A filter on the scope of the request itself names authorized ids only. -/
def checkFilterScope (authorization : Option AuthorizationContext) (organization : Option OrganizationCoverageBinding)
    (valueType columnType : String) (values : List Value) : MetricM Unit :=
  match authorization, organization with
  | some authorization, some organization =>
    if organization.scopeLevel = authorization.scopeLevel.text then do
      let ids ← authorizationScopeValues authorization.allowedScopeIds valueType columnType
      rejectIf (∃ value ∈ values, value ∉ ids) .authorizationDenied
    else
      .ok ()
  | _, _ => .ok ()

/-- One round of the loop over the filters of the plan. -/
def filterStep (authorization : Option AuthorizationContext)
    (filters : Dict String OrganizationCoverageBinding) (index : Nat) (item : BoundFilter) (draft : Draft) : MetricM Draft := do
  let (field, valueType) ← r.filterTarget filters item
  let values ← filterValues item
  let type ← columnType relation field
  let values ← values.mapM (validateFilterValue valueType type)
  checkFilterScope authorization (filters.get? item.fieldRef.val) valueType type values
  let key := "filter_" ++ toString index
  if item.operator = .isIn then do
    rejectIf (¬ values.Nodup) .filterListInvalid
    return draft.addIn (.column field) key values
  else
    return draft.add (.eq (.column field) key) (values.map fun value => (key, value))

/-- The loop over the filters of the plan, with the field references seen so far. -/
def filterDraft (relation : RelationSnapshot) (authorization : Option AuthorizationContext)
    (filters : Dict String OrganizationCoverageBinding) : Nat → List String → List BoundFilter → Draft → MetricM Draft
  | _, _, [], draft => .ok draft
  | index, seen, item :: rest, draft => do
    rejectIf (item.fieldRef.val ∈ seen) .filterUnsupported
    let draft ← r.filterStep relation authorization filters index item draft
    filterDraft relation authorization filters (index + 1) (seen ++ [item.fieldRef.val]) rest draft

/-- The name a grain has in the query. -/
def grainText : QueryGrain → String
  | .hour => "hour"
  | .day => "day"
  | .week => "week"
  | .month => "month"
  | .quarter => "quarter"
  | .year => "year"

/-- The column of the dimension, ordered by code points when it is text. -/
def dimensionColumn (dimension : OrganizationCoverageBinding) (field : String) : Scalar :=
  if dimension.valueType = some "text" then .collate (.column field) "C" else .column field

/-- The dimension with its column. -/
def dimensionField : Option OrganizationCoverageBinding → MetricM (Option (OrganizationCoverageBinding × String))
  | none => .ok none
  | some dimension => do
    let field ← orAssert dimension.field
    return some (dimension, field)

/-- The condition that a row has a dimension. -/
def dimensionDraft (dimension : Option (OrganizationCoverageBinding × String)) (draft : Draft) : Draft :=
  match dimension with
  | none => draft
  | some (_, field) => draft.add (.isNotNull (.column field)) []

/-- What the rows are grouped by, and its name. -/
def groupKey (dimension : Option (OrganizationCoverageBinding × String)) : Option (Scalar × String) :=
  if r.plan.intent = .trend then some (.dateTrunc (grainText r.plan.grain) r.localBusinessTime, "period")
  else dimension.map fun (dimension, field) => (dimensionColumn dimension field, "dimension_id")

/-- The columns a query counts or adds up. -/
def aggregates : List (Aggregate × String) :=
  let column := r.binding.countColumn.map (·.val)
  match r.metric.ratio, r.binding.aggregate with
  | none, none => [(.count column [], "value")]
  | none, some aggregate => [(.sum aggregate.columns.value.val, "value")]
  | some ratio, none =>
    let denominator := ratio.denominatorPredicates.map predicateSql
    [(.count column (denominator ++ ratio.numeratorPredicates.map predicateSql), "numerator"), (.count column denominator, "denominator")]
  | some _, some aggregate => [(.sum aggregate.columns.numerator.val, "numerator"), (.sum aggregate.columns.denominator.val, "denominator")]

/-- The projection of a ratio: its two counts, its value and its status; a zero denominator is an undefined calculation. -/
def ratioProjection (key : Option (Scalar × String)) : Projection where
  columns := (key.map fun (_, name) => (RowExpr.column name, name)).toList ++
    [(.column "numerator", "numerator"), (.column "denominator", "denominator"),
      (.caseZero "denominator" .null (.percent "numerator" "denominator"), "value"),
      (.caseZero "denominator" (.text "calculation_error") (.text "success"), "status")]
  subquery := "metric_counts"

/-- The order of the rows. -/
def orderBy (dimension : Option (OrganizationCoverageBinding × String)) : List OrderKey :=
  if r.plan.intent = .trend then [.asc "period"]
  else if dimension.isNone = true then []
  else if r.plan.intent = .ranking then [.descNullsLast "value", .asc "dimension_id"]
  else [.asc "dimension_id"]

/-- The query of the collected conditions. -/
def query (dimension : Option (OrganizationCoverageBinding × String)) (conditions : List Cond) : Query where
  grouped :=
    { key := r.groupKey dimension
      aggregates := r.aggregates
      schema := r.binding.schemaName.val
      relation := r.binding.relationName.val
      conditions := conditions }
  projection := if r.metric.ratio.isSome = true then some (ratioProjection (r.groupKey dimension)) else none
  orderBy := r.orderBy dimension
  limit := if r.plan.intent ≠ .trend ∧ dimension.isSome = true ∧ r.plan.intent = .ranking then some r.plan.rankingLimit else none

/-- The signed content of a query. -/
def signaturePayload (authorization : Option AuthorizationContext) : SignaturePayload where
  plan := { r.plan with sourceStrategy := .aggregateFirst }
  metric := r.metric
  policy := r.policy
  release := r.release.releaseId
  snapshot := r.snapshot.snapshotId
  checksum := r.snapshot.checksum
  checkpoint := r.freshness.checkpoint
  countColumn := r.binding.countColumn
  authorization := authorization.map fun a => (a.authorizationRevision, a.scopeLevel)

/-- The permissions of the metric and of the source. -/
def checkPermissions (identity : RequestIdentity) : MetricM Unit :=
  let permissions := r.metric.requiredPermissions ++ r.binding.requiredPermissions
  rejectIf ((∃ permission ∈ permissions, isBlank permission = true) ∨ ¬ identity.holds permissions) .permissionDenied

/-- The scope of the request in the relation: none without an authorization. -/
def authorizedCoverage : Option AuthorizationContext → MetricM (Option OrganizationCoverageBinding)
  | none => .ok none
  | some authorization => do
    let binding ← authorizationCoverage relation.organizationCoverage authorization.scopeLevel
    return some binding

/-- The check of the levels that a request under an authorization names. -/
def checkRequestedLevels (organizations : List OrganizationCoverageBinding) : Option AuthorizationContext → MetricM Unit
  | none => .ok ()
  | some authorization => validateAuthorizedOrganizationRequest authorization organizations

end SourceRequest

namespace MetricQueryCompiler

open SourceRequest

variable (D : MetricDigests) (c : MetricQueryCompiler)

/-- `_compile_source`. -/
def compileSource (r : SourceRequest) (reason : SelectionReason) (degradation : List SourceDegradation) :
    MetricM CompiledMetricQuery := do
  r.checkPermissions c.identity
  let relation ← r.relation
  r.checkRelation relation c.authorization.isSome
  let authorized ← authorizedCoverage relation c.authorization
  let (dimension, filters) ← organizationScope r.plan r.metric relation.organizationCoverage c.authorization.isSome
  checkRequestedLevels (dimension.toList ++ filters.values) c.authorization
  r.checkColumns relation (r.usedColumns dimension filters authorized) authorized
  r.checkTypes relation (filters.values ++ dimension.toList)
  r.checkPeriod
  let draft ← authorizationDraft relation c.authorization authorized (r.periodDraft c.instant)
  let draft := r.sourceDraft (factScope c.authorization dimension filters) draft
  let grouping ← dimensionField dimension
  let draft ← r.filterDraft relation c.authorization filters 0 [] r.plan.filters (dimensionDraft grouping draft)
  pure
    { query := r.query grouping draft.conditions
      params := draft.params
      releaseId := r.release.releaseId
      snapshotId := r.snapshot.snapshotId
      snapshotChecksum := r.snapshot.checksum
      queryPlan := r.plan
      context := r.context
      operation := r.metric.operation
      dimension := dimension
      sourceKind := if r.binding.aggregate.isSome = true then .approvedAggregate else .approvedDetail
      sourceId := r.binding.deploymentSourceId
      selectionReason := reason
      degradation := degradation
      freshness := r.freshness
      semanticSignature := D.signature (r.signaturePayload c.authorization)
      authorizationRevision := c.authorization.map (·.authorizationRevision)
      authorizationScopeLevel := c.authorization.map (·.scopeLevel) }

/-- The longest `timedelta`, in seconds. -/
def maxTimedeltaSeconds : Nat := 86399999999999

/-- `_freshness`. -/
def sourceFreshness (source : RelationBinding) (metric : MetricContract) (release : SemanticRelease) (snapshot : SchemaSnapshot)
    (evaluatedAt : Int) : MetricM SourceFreshnessRecord := do
  rejectIf (source.aggregate.isSome = true ∧ metric.freshnessSlaSeconds = none) .aggregateSlaMissing
  match c.freshness source.deploymentSourceId with
  | none => return ⟨source.deploymentSourceId, .unknown, none, none, none, none, none, none, nofun, nofun⟩
  | some record =>
    rejectIf (record.sourceId ≠ source.deploymentSourceId ∨ (∃ id ∈ record.releaseId, id ≠ release.releaseId) ∨
      (∃ id ∈ record.snapshotId, id ≠ snapshot.snapshotId) ∨ ∃ sha ∈ record.snapshotChecksum, sha.val ≠ snapshot.checksum)
      .freshnessAuthorityMismatch
    rejectIf ((∃ t ∈ record.dataAsOf, evaluatedAt < t) ∨ ∃ t ∈ record.checkedAt, evaluatedAt < t) .freshnessEvidenceInvalid
    match record.status, record.dataAsOf, metric.freshnessSlaSeconds with
    | .fresh, some dataAsOf, some sla =>
      orAssert (if maxTimedeltaSeconds < sla then none else some ())
      return if (sla : Int) * 1000000 < evaluatedAt - dataAsOf then { record with status := .stale, fresh_evidence := nofun } else record
    | _, _, _ => return record

/-- The sources that were rejected so far: what is recorded, what forbids a fallback, and all codes. -/
structure Rejections where
  degradation : List SourceDegradation
  blocked : List MetricCode
  rejected : List MetricCode

/-- A rejected aggregate source. -/
def Rejections.add (s : Rejections) (source : RelationBinding) (code : MetricCode) (degradation : SourceDegradation) : Rejections :=
  ⟨s.degradation ++ [degradation], if source.allowDetailFallback then s.blocked else s.blocked ++ [code], s.rejected ++ [code]⟩

/-- What a source is selected for. -/
structure Selection where
  plan : QueryPlan
  context : ContextBundle
  metric : MetricContract
  policy : EligibilityPolicy
  release : SemanticRelease
  snapshot : SchemaSnapshot
  evaluatedAt : Int

/-- The request of a source. -/
def Selection.request (s : Selection) (source : RelationBinding) (freshness : SourceFreshnessRecord) : SourceRequest :=
  ⟨s.plan, s.context, s.metric, s.policy, s.release, s.snapshot, source, freshness⟩

/-- An aggregate was approved for exactly this metric and this policy. -/
def approvedFor (aggregate : AggregateContract) (metric : MetricContract) (policy : EligibilityPolicy) : Prop :=
  aggregate.metricKey.val = metric.metricKey.val ∧ aggregate.formulaVersion = metric.formulaVersion ∧
    aggregate.operation = metric.operation ∧ aggregate.metricContractSha256 = D.metric metric ∧
    aggregate.eligibilityPolicySha256 = D.eligibility policy

instance (aggregate : AggregateContract) (metric : MetricContract) (policy : EligibilityPolicy) :
    Decidable (approvedFor D aggregate metric policy) :=
  inferInstanceAs (Decidable (_ ∧ _))

/-- The freshness of a source and its query. -/
def compileWithFreshness (s : Selection) (source : RelationBinding) (reason : SelectionReason)
    (degradation : List SourceDegradation) : MetricM CompiledMetricQuery := do
  let freshness ← c.sourceFreshness source s.metric s.release s.snapshot s.evaluatedAt
  c.compileSource D (s.request source freshness) reason degradation

/-- The loop over the aggregate sources: a query of a fresh one, or the rejections. -/
def tryAggregates (s : Selection) : List RelationBinding → Rejections → MetricM (CompiledMetricQuery ⊕ Rejections)
  | [], state => .ok (.inr state)
  | source :: rest, state =>
    match source.aggregate with
    | none => tryAggregates s rest state
    | some aggregate =>
      if s.plan.sourceStrategy = .detailRequired ∨ ¬ approvedFor D aggregate s.metric s.policy then
        tryAggregates s rest state
      else
        match c.compileWithFreshness D s source .freshApprovedAggregate [] with
        | .ok query =>
          match query.freshness.status with
          | .fresh => .ok (.inl query)
          | .stale => tryAggregates s rest (state.add source .aggregateFreshnessDenied .aggregateStale)
          | .unknown => tryAggregates s rest (state.add source .aggregateFreshnessDenied .aggregateUnknown)
        | .error (.step code) =>
          match code.rejection? with
          | some degradation => tryAggregates s rest (state.add source code degradation)
          | none => .error (.step code)
        | .error .raised => .error .raised

/-- The text of a recorded degradation. -/
def degradationText : SourceDegradation → String
  | .aggregateStale => "aggregate_stale"
  | .aggregateUnknown => "aggregate_unknown"
  | .metricPermissionDenied => "metric_permission_denied"
  | .metricRelationUnapproved => "metric_relation_unapproved"
  | .metricAggregateCoverageUnapproved => "metric_aggregate_coverage_unapproved"
  | .metricAggregateSensitivityDenied => "metric_aggregate_sensitivity_denied"
  | .metricColumnUnapproved => "metric_column_unapproved"
  | .metricColumnTypeMismatch => "metric_column_type_mismatch"
  | .metricScanRowsExceeded => "metric_scan_rows_exceeded"
  | .metricTimeIndexRequired => "metric_time_index_required"
  | .metricTimeRangeTooLarge => "metric_time_range_too_large"
  | .metricGrainOrDimensionUnsupported => "metric_grain_or_dimension_unsupported"
  | .metricDimensionCombinationUnsupported => "metric_dimension_combination_unsupported"
  | .metricAggregateSlaMissing => "metric_aggregate_sla_missing"
  | .metricFreshnessEvidenceInvalid => "metric_freshness_evidence_invalid"
  | .metricFreshnessAuthorityMismatch => "metric_freshness_authority_mismatch"

/-- `tuple(sorted(set(degradation)))`. -/
def sortedDegradation (degradation : List SourceDegradation) : List SourceDegradation :=
  (fromKeys degradation).insertionSort fun a b => degradationText a ≤ degradationText b

/-- The loop over the detail sources, with the aggregates' degradation and all codes so far. -/
def tryDetails (s : Selection) (degradation : List SourceDegradation) : List RelationBinding → List MetricCode → MetricM CompiledMetricQuery
  | [], rejected => .error (.step (rejected.headD .sourceOrPolicyMissing))
  | source :: rest, rejected =>
    if source.aggregate.isSome = true then
      tryDetails s degradation rest rejected
    else if s.plan.sourceStrategy = .detailRequired ∧ source.allowDetailRequired = false then
      .error (.step .detailStrategyDenied)
    else
      match c.compileWithFreshness D s source (if degradation = [] then .approvedDetail else .approvedDetailFallback)
          (sortedDegradation degradation) with
      | .ok query => .ok query
      | .error (.step code) =>
        match code.rejection? with
        | some _ => tryDetails s degradation rest (rejected ++ [code])
        | none => .error (.step code)
      | .error .raised => .error .raised

/-- `_select_source`. -/
def selectSource (s : Selection) : MetricM CompiledMetricQuery := do
  let sources := (c.bindings.filter fun item => item.sourceRef = s.metric.sourceRef).insertionSort
    fun a b => a.deploymentSourceId.val ≤ b.deploymentSourceId.val
  match ← c.tryAggregates D s sources ⟨[], [], []⟩ with
  | .inl query => return query
  | .inr state =>
    match state.blocked with
    | code :: _ => .error (.step code)
    | [] => c.tryDetails D s state.degradation sources state.rejected

/-- The admission of a request under an authorization. -/
def admission : MetricM Unit :=
  match c.authorization with
  | none => .ok ()
  | some authorization => do
    rejectIf (∃ revision ∈ c.expectedRevision, authorization.authorizationRevision.val ≠ revision) .authorizationRunBindingMismatch
    rejectIf (evaluateAuthorization authorization c.expectedRevision none none = .deny) .authorizationDenied

/-- The definition of the requested metric, in the active release. -/
def metricOf (release : SemanticRelease) (plan : QueryPlan) : MetricM MetricContract :=
  match release.documents.filter fun doc => plan.metricKeys.head? = some doc.documentId with
  | [document] => do
    let metric ← orReject .contractInvalid (c.parseContract ((document.metadata.get? "execution_contract").getD ""))
    rejectIf (metric.assetId ≠ document.documentId ∨ metric.domain ≠ plan.domain.val ∨
      document.metadata.get? "status" ≠ some "active" ∨ document.metadata.get? "domain" ≠ some metric.domain ∨
      document.metadata.get? "owner" ≠ metric.owner ∨ metric.releaseStatus ≠ .active ∨ metric.assistantEnabled = false)
      .contractInactive
    return metric
  | _ => .error (.step .contractMissing)

/-- The active release of the request. -/
def activeRelease (context : ContextBundle) : MetricM SemanticRelease := do
  let release ← orReject .activeReleaseMismatch c.active
  rejectIf (release.state ≠ .active ∨ release.releaseId ≠ context.semanticReleaseId.val) .activeReleaseMismatch
  return release

/-- The schema of the request, which is the one the release was validated for. -/
def approvedSnapshot (context : ContextBundle) (release : SemanticRelease) : MetricM SchemaSnapshot := do
  let snapshot ← orReject .schemaSnapshotMismatch (c.snapshots context.schemaSnapshotId.val)
  rejectIf (snapshot.state ≠ .validated ∨ snapshot.snapshotId ≠ context.schemaSnapshotId.val ∨
    release.schemaSnapshotId ≠ some snapshot.snapshotId ∨ release.schemaSnapshotChecksum ≠ some snapshot.checksum)
    .schemaSnapshotMismatch
  return snapshot

/-- `compile`. -/
def compile (plan : QueryPlan) (context : ContextBundle) : MetricM CompiledMetricQuery := do
  c.admission
  let validation ← orAssert (PlanValidator.bootstrap.validateQueryPlan D.toPlanDigests plan context c.identity)
  rejectIf (validation.outcome ≠ .allow) .planDenied
  rejectIf (plan.metricKeys.length ≠ 1 ∨ plan.intent = .detail) .operationUnsupported
  let release ← c.activeRelease context
  let snapshot ← c.approvedSnapshot context release
  let metric ← c.metricOf release plan
  let policy ← orReject .sourceOrPolicyMissing (c.policies.find? fun item => item.policyId = metric.eligibilityPolicyId)
  rejectIf (¬ c.identity.holds metric.requiredPermissions) .permissionDenied
  let evaluatedAt ← orReject .evaluationClockInvalid c.clock
  c.selectSource D ⟨plan, context, metric, policy, release, snapshot, evaluatedAt⟩

end MetricQueryCompiler

end Nl2Sql
