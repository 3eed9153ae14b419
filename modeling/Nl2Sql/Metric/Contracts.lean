import Nl2Sql.Lib.Sql
import Nl2Sql.Plan.Executor
import Nl2Sql.Plan.QueryValidator

/-!
# The contracts of a metric query

What a metric query is compiled from: the metric's definition (`semantic/metric_contract.py`), the deployment's relations and their
freshness (`orchestration/metric_query.py`), the active release and the approved schema (`semantic/registry.py`,
`semantic/schema_snapshot.py`, as far as the compiler reads them) and the authorization of the request (`contracts.py`).
-/

namespace Nl2Sql

open Py

/-- The pattern of a column or relation name: `^[a-z][a-z0-9_]{0,62}$`. -/
def isIdentifier (s : String) : Bool :=
  matchesName isLowerAscii (fun c => isLowerAscii c || isDigitAscii c || c == '_') 62 s

/-- The name of a column, a relation or a schema. -/
abbrev Identifier : Type := { s : String // isIdentifier s = true }

/-! ## Authorization -/

inductive ScopeLevel where
  | cityCompany | area | team | employee
  deriving DecidableEq, Repr

/-- The text of a level. -/
def ScopeLevel.text : ScopeLevel → String
  | .cityCompany => "city_company"
  | .area => "area"
  | .team => "team"
  | .employee => "employee"

/-- The levels, from the broadest: `ORGANIZATION_SCOPE_LEVELS`. -/
def ScopeLevel.levels : List ScopeLevel := [.cityCompany, .area, .team, .employee]

/-- `_SCOPE_ORDER`. -/
def ScopeLevel.order : ScopeLevel → Nat
  | .cityCompany => 0
  | .area => 1
  | .team => 2
  | .employee => 3

/-- The level of a text. -/
def ScopeLevel.of? (text : String) : Option ScopeLevel := ScopeLevel.levels.find? fun level => level.text = text

/-- The authorization of one request, as the backend derived it. -/
structure AuthorizationContext where
  authorizationRevision : BoundedText 1 256
  agentEnabled : Bool
  scopeLevel : ScopeLevel
  allowedScopeIds : List String
  revision_non_blank : isBlank authorizationRevision.val = false
  ids_valid : validIdentifiers allowedScopeIds

/-- A decision: an allow carries the revision it was taken against, every deny is the same. -/
inductive AuthorizationDecision where
  | allow (revision : BoundedText 1 256)
  | deny
  deriving DecidableEq

/-- `evaluate_authorization`, of a context that is one. -/
def evaluateAuthorization (context : AuthorizationContext) (expectedRevision : Option String)
    (requestedScopeLevel : Option ScopeLevel) (requestedScopeId : Option String) : AuthorizationDecision :=
  if context.agentEnabled = false then .deny
  else if context.allowedScopeIds = [] then .deny
  else if ∃ revision ∈ expectedRevision, context.authorizationRevision.val ≠ revision then .deny
  else
    match requestedScopeLevel, requestedScopeId with
    | none, none => .allow context.authorizationRevision
    | some level, some id =>
      if level ≠ context.scopeLevel then .deny
      else if id ∉ context.allowedScopeIds then .deny
      else .allow context.authorizationRevision
    | _, _ => .deny

/-! ## The metric -/

inductive PredicateOperator where
  | isTrue | isNull | isNotNull
  deriving DecidableEq, Repr

/-- A fixed condition on a column. -/
structure Predicate where
  field : Identifier
  operator : PredicateOperator
  deriving DecidableEq

/-- The two counts of a ratio; the numerator counts among the rows of the denominator. -/
structure RatioDefinition where
  denominatorPredicates : List Predicate
  numeratorPredicates : List Predicate
  denominator_non_empty : denominatorPredicates ≠ []
  numerator_non_empty : numeratorPredicates ≠ []
  deriving DecidableEq

/-- The type of a value a filter compares with. -/
inductive ValueType where
  | text | integer
  deriving DecidableEq, Repr

/-- The text of a type. -/
def ValueType.name : ValueType → String
  | .text => "text"
  | .integer => "integer"

/-- The type of a text. -/
def ValueType.of? (name : String) : Option ValueType := [ValueType.text, .integer].find? fun type => type.name = name

structure FilterField where
  field : Identifier
  valueType : ValueType
  deriving DecidableEq

inductive ReleaseStatus where
  | active | pendingSource | retired
  deriving DecidableEq, Repr

/-- The definition of a metric. A ratio has a ratio definition and a count has none, so the operation is read off it. -/
structure MetricContract where
  metricKey : Identifier
  displayName : String
  domain : String
  owner : Option String
  approver : Option String
  releaseStatus : ReleaseStatus
  dailyReportEnabled : Bool
  dailyReportOrder : Option Nat
  assistantEnabled : Bool
  benchmarkEligible : Bool
  sourceRef : ContractId
  formulaVersion : ContractId
  eligibilityPolicyId : ContractId
  ratio : Option RatioDefinition
  businessTimeColumn : Identifier
  supportedGrains : List QueryGrain
  supportedDimensions : List ScopeLevel
  predicates : List Predicate
  filters : List FilterField
  requiredPermissions : List String
  freshnessSlaSeconds : Option Nat
  name_non_empty : displayName ≠ ""
  domain_eq : domain = "complaint"
  owned : releaseStatus = .active → ∃ name ∈ owner, isBlank name = false
  report_order : ∀ n ∈ dailyReportOrder, 1 ≤ n ∧ dailyReportEnabled = true
  grains_valid : supportedGrains ≠ [] ∧ supportedGrains.Nodup ∧ ∀ g ∈ supportedGrains, g = .day ∨ g = .month
  dimensions_valid : supportedDimensions ≠ [] ∧ supportedDimensions.Nodup
  filters_unique : (filters.map (·.field)).Nodup
  permissions_valid : requiredPermissions ≠ [] ∧ ∀ p ∈ requiredPermissions, isBlank p = false
  sla_pos : ∀ n ∈ freshnessSlaSeconds, 1 ≤ n

namespace MetricContract

variable (metric : MetricContract)

/-- `asset_id`. -/
def assetId : String := "metric." ++ metric.metricKey.val

/-- `formula_predicates`. -/
def formulaPredicates : List Predicate :=
  metric.predicates ++
    match metric.ratio with
    | none => []
    | some ratio => ratio.denominatorPredicates ++ ratio.numeratorPredicates

/-- `item in metric.supported_dimensions`, of a text. -/
def supports (dimension : String) : Prop := ∃ level ∈ metric.supportedDimensions, level.text = dimension

instance (dimension : String) : Decidable (metric.supports dimension) :=
  inferInstanceAs (Decidable (∃ level ∈ metric.supportedDimensions, level.text = dimension))

end MetricContract

/-- The conditions a deployment adds to every metric of a policy. -/
structure EligibilityPolicy where
  policyId : ContractId
  predicates : List Predicate

/-! ## The deployment -/

/-- The columns of a daily aggregate, one for each role. -/
structure AggregateColumns where
  metricKey : Identifier
  formulaVersion : Identifier
  releaseId : Identifier
  snapshotId : Identifier
  checkpoint : Identifier
  time : Identifier
  grain : Identifier
  dimension : Identifier
  value : Identifier
  numerator : Identifier
  denominator : Identifier
  status : Identifier
  dataAsOf : Identifier

/-- `model_dump().values()`. -/
def AggregateColumns.names (c : AggregateColumns) : List String :=
  [c.metricKey, c.formulaVersion, c.releaseId, c.snapshotId, c.checkpoint, c.time, c.grain, c.dimension, c.value, c.numerator,
    c.denominator, c.status, c.dataAsOf].map (·.val)

inductive MetricOperation where
  | count | ratio
  deriving DecidableEq, Repr

/-- `operation`. -/
def MetricContract.operation (metric : MetricContract) : MetricOperation := if metric.ratio.isSome then .ratio else .count

/-- The approval of a daily aggregate of one metric, by the checksums of what it was approved for. -/
structure AggregateContract where
  metricKey : ContractId
  formulaVersion : ContractId
  operation : MetricOperation
  columns : AggregateColumns
  metricContractSha256 : Sha256
  eligibilityPolicySha256 : Sha256
  columns_unique : columns.names.Nodup

/-- What is known of the freshness of a source. Times are instants in microseconds. -/
structure SourceFreshnessRecord where
  sourceId : ContractId
  status : FreshnessStatus
  dataAsOf : Option Int
  checkedAt : Option Int
  checkpoint : Option ContractId
  releaseId : Option String
  snapshotId : Option String
  snapshotChecksum : Option Sha256
  observed : ∀ seen ∈ checkedAt, ∀ mark ∈ dataAsOf, mark ≤ seen
  fresh_evidence : status = .fresh → dataAsOf.isSome = true ∧ checkpoint.isSome = true ∧ releaseId.isSome = true ∧
    snapshotId.isSome = true ∧ snapshotChecksum.isSome = true

inductive TimestampKind where
  | timestamp | timestamptz
  deriving DecidableEq, Repr

/-- The relation of a deployment that a metric is read from. -/
structure RelationBinding where
  sourceRef : ContractId
  relationAssetId : String
  schemaName : Identifier
  relationName : Identifier
  allowedColumns : List Identifier
  requiredPermissions : List String
  timestampKind : TimestampKind
  countColumn : Option Identifier
  maxDays : Nat
  sourceId : Option ContractId
  aggregate : Option AggregateContract
  allowDetailFallback : Bool
  allowDetailRequired : Bool
  maxEstimatedRows : Nat
  bootstrapScanMaxRows : Option Nat
  asset_non_empty : relationAssetId ≠ ""
  columns_non_empty : allowedColumns ≠ []
  days_bounds : 1 ≤ maxDays ∧ maxDays ≤ 3660
  rows_pos : 1 ≤ maxEstimatedRows
  bootstrap_pos : ∀ n ∈ bootstrapScanMaxRows, 1 ≤ n

/-- `relation_id`. -/
def RelationBinding.relationId (binding : RelationBinding) : String := binding.schemaName.val ++ "." ++ binding.relationName.val

/-- `deployment_source_id`. -/
def RelationBinding.deploymentSourceId (binding : RelationBinding) : ContractId := binding.sourceId.getD binding.sourceRef

/-! ## The release and the schema -/

structure SemanticDocument where
  documentId : String
  metadata : Dict String String

inductive SemanticReleaseState where
  | draft | validated | active | retired
  deriving DecidableEq, Repr

/-- A release: what the compiler reads of it. -/
structure SemanticRelease where
  releaseId : String
  state : SemanticReleaseState
  documents : List SemanticDocument
  schemaSnapshotId : Option String
  schemaSnapshotChecksum : Option String

structure ColumnSnapshot where
  name : String
  dataType : String

structure IndexSnapshot where
  columns : List String
  predicate : Option String

/-- The column by which a scope narrows the rows of a relation. Nothing is checked before `validate_organization_coverage`. -/
structure OrganizationCoverageBinding where
  scopeLevel : String
  field : Option String
  valueType : Option String
  deriving DecidableEq

/-- A relation of a schema: what the compiler reads of it. -/
structure RelationSnapshot where
  relationId : String
  columns : List ColumnSnapshot
  indexes : List IndexSnapshot
  estimatedRows : Int
  sensitivity : String
  sensitiveColumns : List String
  aggregateCoverage : List String
  organizationCoverage : List OrganizationCoverageBinding

inductive SchemaSnapshotState where
  | candidate | validated | rejected | retired
  deriving DecidableEq, Repr

/-- A snapshot of the schema: what the compiler reads of it. -/
structure SchemaSnapshot where
  snapshotId : String
  state : SchemaSnapshotState
  checksum : String
  relations : List RelationSnapshot

/-- `{column.name: column.data_type.lower()}`. -/
def RelationSnapshot.columnTypes (relation : RelationSnapshot) : Dict String String :=
  Dict.ofList (relation.columns.map fun column => (column.name, lower column.dataType))

/-- The column types of a value type: `_TEXT_COLUMN_TYPES` and `_INTEGER_COLUMN_TYPES`. -/
def ValueType.columnTypes : ValueType → List String
  | .text => ["text", "character varying", "varchar"]
  | .integer => ["smallint", "int2", "integer", "int4", "bigint", "int8"]

/-- What `validate_organization_coverage` reports. -/
inductive OrganizationCoverageCode where
  | levelInvalid | duplicateLevel | cityField | incomplete | duplicateField | fieldMissing | typeMismatch
  deriving DecidableEq, Repr

/-- The text of a code. -/
def OrganizationCoverageCode.text : OrganizationCoverageCode → String
  | .levelInvalid => "relation_organization_coverage_level_invalid"
  | .duplicateLevel => "relation_organization_coverage_duplicate_level"
  | .cityField => "relation_organization_coverage_city_field"
  | .incomplete => "relation_organization_coverage_incomplete"
  | .duplicateField => "relation_organization_coverage_duplicate_field"
  | .fieldMissing => "relation_organization_coverage_field_missing"
  | .typeMismatch => "relation_organization_coverage_type_mismatch"

/-- A defect of a coverage, with its message and where it is. -/
structure OrganizationCoverageProblem where
  code : OrganizationCoverageCode
  message : String
  path : String
  deriving DecidableEq

/-- The body of the loop of `validate_organization_coverage`, after the level was seen to be new: the defects of a binding, and the
field it adds to those seen. -/
def bindingProblems (types : Dict String String) (seenFields : List String) (binding : OrganizationCoverageBinding) :
    List OrganizationCoverageProblem × List String :=
  let path := "organization_coverage." ++ binding.scopeLevel
  if binding.scopeLevel = "city_company" then
    (failIf (binding.field ≠ none ∨ binding.valueType ≠ none)
      ⟨.cityField, "city_company coverage is a total scope without a physical ID column", path⟩, [])
  else
    match binding.field, binding.valueType with
    | some field, some valueType =>
      match ValueType.of? valueType with
      | none => ([⟨.incomplete, binding.scopeLevel ++ " coverage value_type is not supported: " ++ valueType, path⟩], [])
      | some type =>
        if field ∈ seenFields then
          ([⟨.duplicateField, "organization coverage reuses physical field: " ++ field, path⟩], [])
        else
          match types.get? field with
          | none => ([⟨.fieldMissing, "organization coverage field does not exist: " ++ field, path ++ ".field"⟩], [field])
          | some columnType =>
            (failIf (columnType ∉ type.columnTypes)
              ⟨.typeMismatch, "organization coverage value type " ++ valueType ++ " does not match column type " ++ columnType ++
                ": " ++ field, path ++ ".value_type"⟩, [field])
    | _, _ => ([⟨.incomplete, binding.scopeLevel ++ " coverage requires a field and value_type", path⟩], [])

/-- The loop of `validate_organization_coverage`, with the levels and the fields seen so far. -/
def coverageProblems (types : Dict String String) : List String → List String → List OrganizationCoverageBinding →
    List OrganizationCoverageProblem
  | _, _, [] => []
  | seenLevels, seenFields, binding :: rest =>
    let path := "organization_coverage." ++ binding.scopeLevel
    if ScopeLevel.of? binding.scopeLevel = none then
      ⟨.levelInvalid, "organization coverage scope level is not supported: " ++ binding.scopeLevel, path⟩ ::
        coverageProblems types seenLevels seenFields rest
    else if binding.scopeLevel ∈ seenLevels then
      ⟨.duplicateLevel, "organization coverage repeats scope level: " ++ binding.scopeLevel, path⟩ ::
        coverageProblems types seenLevels seenFields rest
    else
      (bindingProblems types seenFields binding).1 ++
        coverageProblems types (seenLevels ++ [binding.scopeLevel]) (seenFields ++ (bindingProblems types seenFields binding).2) rest

/-- `validate_organization_coverage`. -/
def validateOrganizationCoverage (relation : RelationSnapshot) : List OrganizationCoverageProblem :=
  coverageProblems relation.columnTypes [] [] relation.organizationCoverage

end Nl2Sql
