import Mathlib.Data.Prod.Lex
import Nl2Sql.Lib.Dict
import Nl2Sql.Lib.Method
import Nl2Sql.Lib.Sorting
import Nl2Sql.Lib.Writable

/-!
# Schema snapshots

`semantic/schema_snapshot.py`: a snapshot of the catalog of the approved schemas is built from four streams of catalog rows and the policies
of relations, hashed over a canonical payload, and compared with the snapshot in force. The values of the rows are of any type: what
Python's `int`, `str` and `bool` make of them is a parameter.
-/

namespace Nl2Sql.Snapshot

open Py

structure ColumnSnapshot where
  name : String
  dataType : String
  nullable : Bool
  ordinalPosition : Int
  deriving DecidableEq

structure ForeignKeySnapshot where
  name : String
  columns : List String
  targetRelationId : String
  targetColumns : List String
  deriving DecidableEq

structure IndexSnapshot where
  name : String
  columns : List String
  unique : Bool
  primary : Bool
  predicate : Option String := none
  deriving DecidableEq

structure OrganizationCoverageBinding where
  scopeLevel : String
  field : Option String := none
  valueType : Option String := none
  deriving DecidableEq

structure RelationPolicy where
  sensitivity : String := "unclassified"
  sensitiveColumns : List String := []
  aggregateCoverage : List String := []
  freshnessSlaSeconds : Option Int := none
  organizationCoverage : List OrganizationCoverageBinding := []
  deriving DecidableEq

structure RelationSnapshot where
  relationId : String
  schemaName : String
  relationName : String
  relationKind : String
  columns : List ColumnSnapshot
  primaryKey : List String
  foreignKeys : List ForeignKeySnapshot
  indexes : List IndexSnapshot
  partitionKey : Option String
  parentRelationId : Option String
  estimatedRows : Int
  totalBytes : Int
  sensitivity : String
  sensitiveColumns : List String
  aggregateCoverage : List String
  freshnessSlaSeconds : Option Int
  organizationCoverage : List OrganizationCoverageBinding := []
  deriving DecidableEq

/-- `SCHEMA_SNAPSHOT_PARSER_VERSION`. -/
def parserVersionV1 : String := "postgres-catalog-v1"

/-- `SCHEMA_SNAPSHOT_FORMAT_VERSION`. -/
def formatVersion : String := "postgres-catalog-payload-v2"

/-- `LEGACY_SCHEMA_SNAPSHOT_FORMAT_VERSION`. -/
def legacyFormatVersion : String := "postgres-catalog-payload-v1"

structure SchemaSnapshotCandidate where
  sourceIdentifier : String
  approvedSchemas : List String
  relations : List RelationSnapshot
  checksum : String
  schemaChecksum : String
  parserVersion : String := parserVersionV1
  formatVersion : String := Snapshot.formatVersion
  deriving DecidableEq

/-! ## Errors -/

/-- Why a snapshot is not made: a `SchemaSnapshotError`, or another exception on a value that cannot be read or written. -/
inductive SnapshotError where
  | sourceEmpty | parserEmpty | noSchemas
  | invalidIdentifier (value field : String)
  | ambiguousRelation (value : String)
  | invalidRelation (value : String)
  | unapprovedRelation (relationId : String)
  | unapprovedSchema (relationId : String)
  | duplicateRelation (relationId : String)
  | uncollectedPolicy (relationId : String)
  | multiplePrimaryKeys (relationId : String)
  | formatUnsupported | notCanonical | checksumMismatch | structureMismatch
  | raised
  deriving DecidableEq, Repr

/-- The message of a `SchemaSnapshotError`. -/
def SnapshotError.message : SnapshotError → Option String
  | .sourceEmpty => some "schema snapshot source_identifier must not be empty"
  | .parserEmpty => some "schema snapshot parser_version must not be empty"
  | .noSchemas => some "at least one approved schema is required"
  | .invalidIdentifier value field => some ("invalid PostgreSQL " ++ field ++ " identifier: " ++ value)
  | .ambiguousRelation value => some ("unqualified relation is ambiguous across approved schemas: " ++ value)
  | .invalidRelation value => some ("invalid approved relation: " ++ value)
  | .unapprovedRelation relationId => some ("relation uses an unapproved schema: " ++ relationId)
  | .unapprovedSchema relationId => some ("catalog returned an unapproved schema: " ++ relationId)
  | .duplicateRelation relationId => some ("duplicate catalog relation: " ++ relationId)
  | .uncollectedPolicy relationId => some ("schema snapshot policy references an uncollected relation: " ++ relationId)
  | .multiplePrimaryKeys relationId => some ("relation has multiple primary key rows: " ++ relationId)
  | .formatUnsupported => some "persisted schema snapshot format version is unsupported"
  | .notCanonical => some "persisted schema snapshot payload is not canonical"
  | .checksumMismatch => some "persisted schema snapshot checksum mismatch"
  | .structureMismatch => some "persisted schema structure checksum mismatch"
  | .raised => none

/-- What a function makes of a value, where it does not raise. -/
def orRaise {α : Type} : Option α → Except SnapshotError α
  | some a => .ok a
  | none => .error .raised

/-! ## Identifiers -/

/-- The full match of `^[A-Za-z_][A-Za-z0-9_$]*$`. -/
def isIdentifier (value : String) : Bool :=
  match value.toList with
  | [] => false
  | c :: cs => (isLowerAscii c || isUpperAscii c || c == '_') &&
      cs.all fun c => isLowerAscii c || isUpperAscii c || isDigitAscii c || c == '_' || c == '$'

/-- `_validate_identifier`. -/
def validateIdentifier (value field : String) : Except SnapshotError Unit :=
  if isIdentifier value then .ok () else .error (.invalidIdentifier value field)

/-- `_relation_id`. -/
def relationIdOf (schemaName relationName : String) : Except SnapshotError String := do
  validateIdentifier schemaName "schema"
  validateIdentifier relationName "relation"
  return schemaName ++ "." ++ relationName

/-- `_normalize_schemas`. -/
def normalizeSchemas (values : List String) : Except SnapshotError (List String) := do
  let schemas := sortBy id (fromKeys ((values.filter fun value => strip value ≠ "").map strip))
  if schemas = [] then throw .noSchemas
  schemas.forM fun schema => validateIdentifier schema "schema"
  return schemas

/-- `_normalize_relation_ref`. -/
def normalizeRelationRef (value : String) (approvedSchemas : List String) : Except SnapshotError String := do
  let (schemaName, relationName) ←
    match (split '.' value).map strip with
    | [relationName] =>
      match approvedSchemas with
      | [schemaName] => pure (schemaName, relationName)
      | _ => throw (.ambiguousRelation value)
    | [schemaName, relationName] => pure (schemaName, relationName)
    | _ => throw (.invalidRelation value)
  let relationId ← relationIdOf schemaName relationName
  if schemaName ∉ approvedSchemas then throw (.unapprovedRelation relationId)
  return relationId

/-- `ORGANIZATION_SCOPE_LEVELS`. -/
def organizationScopeLevels : List String := ["city_company", "area", "team", "employee"]

/-- `_normalize_organization_coverage`: by the rank of the scope, its name, the field and the type. -/
def normalizeOrganizationCoverage (coverage : List OrganizationCoverageBinding) : List OrganizationCoverageBinding :=
  sortBy (fun binding => toLex (organizationScopeLevels.idxOf binding.scopeLevel,
    toLex (binding.scopeLevel, toLex (binding.field.getD "", binding.valueType.getD "")))) coverage

/-! ## Payloads -/

/-- An optional text or number. -/
def nullable {α : Type} (write : α → Json) : Option α → Json
  | none => .null
  | some a => write a

/-- A list of texts. -/
def texts (values : List String) : Json := .arr (values.map .str)

/-- `asdict(column)`. -/
def ColumnSnapshot.payload (column : ColumnSnapshot) : Json :=
  .obj [("name", .str column.name), ("data_type", .str column.dataType), ("nullable", .bool column.nullable),
    ("ordinal_position", .int column.ordinalPosition)]

/-- A foreign key in a relation's payload, and `asdict` of it. -/
def ForeignKeySnapshot.payload (foreignKey : ForeignKeySnapshot) : Json :=
  .obj [("columns", texts foreignKey.columns), ("name", .str foreignKey.name), ("target_columns", texts foreignKey.targetColumns),
    ("target_relation_id", .str foreignKey.targetRelationId)]

/-- An index in a relation's payload, and `asdict` of it. -/
def IndexSnapshot.payload (index : IndexSnapshot) : Json :=
  .obj [("columns", texts index.columns), ("name", .str index.name), ("predicate", nullable .str index.predicate),
    ("primary", .bool index.primary), ("unique", .bool index.unique)]

/-- A coverage binding in a relation's payload. -/
def OrganizationCoverageBinding.payload (binding : OrganizationCoverageBinding) : Json :=
  .obj [("field", nullable .str binding.field), ("scope_level", .str binding.scopeLevel), ("value_type", nullable .str binding.valueType)]

/-- `_relation_payload`. -/
def relationPayload (relation : RelationSnapshot) (includeOrganizationCoverage : Bool) : Json :=
  .obj ([("aggregate_coverage", texts relation.aggregateCoverage), ("columns", .arr (relation.columns.map (·.payload))),
    ("estimated_rows", .int relation.estimatedRows), ("foreign_keys", .arr (relation.foreignKeys.map (·.payload))),
    ("freshness_sla_seconds", nullable .int relation.freshnessSlaSeconds), ("indexes", .arr (relation.indexes.map (·.payload))),
    ("parent_relation_id", nullable .str relation.parentRelationId), ("partition_key", nullable .str relation.partitionKey),
    ("primary_key", texts relation.primaryKey), ("relation_id", .str relation.relationId), ("relation_kind", .str relation.relationKind),
    ("relation_name", .str relation.relationName), ("schema_name", .str relation.schemaName),
    ("sensitive_columns", texts relation.sensitiveColumns), ("sensitivity", .str relation.sensitivity),
    ("total_bytes", .int relation.totalBytes)] ++
    if includeOrganizationCoverage then [("organization_coverage", .arr (relation.organizationCoverage.map (·.payload)))] else [])

/-- `_candidate_payload`: the legacy payload has no coverage and no format marker. -/
def SchemaSnapshotCandidate.toPayload (candidate : SchemaSnapshotCandidate) : List (String × Json) :=
  let includeOrganizationCoverage := candidate.formatVersion ≠ legacyFormatVersion
  [("approved_schemas", texts candidate.approvedSchemas), ("parser_version", .str candidate.parserVersion),
    ("relations", .arr (candidate.relations.map fun relation => relationPayload relation includeOrganizationCoverage)),
    ("schema_checksum", .str candidate.schemaChecksum), ("source_identifier", .str candidate.sourceIdentifier)] ++
    if includeOrganizationCoverage then [("format_version", .str candidate.formatVersion)] else []

/-- The dictionary of `_relation_shapepayload`: what the database has of a relation, and no policy of it. -/
structure RelationStructure where
  columns : List ColumnSnapshot
  foreignKeys : List ForeignKeySnapshot
  indexes : List IndexSnapshot
  parentRelationId : Option String
  partitionKey : Option String
  primaryKey : List String
  relationId : String
  relationKind : String
  deriving DecidableEq

/-- `_relation_shapepayload`. -/
def relationStructure (relation : RelationSnapshot) : RelationStructure where
  columns := relation.columns
  foreignKeys := relation.foreignKeys
  indexes := relation.indexes
  parentRelationId := relation.parentRelationId
  partitionKey := relation.partitionKey
  primaryKey := relation.primaryKey
  relationId := relation.relationId
  relationKind := relation.relationKind

/-- The structure of a relation as JSON. -/
def RelationStructure.payload (shape : RelationStructure) : Json :=
  .obj [("columns", .arr (shape.columns.map (·.payload))), ("foreign_keys", .arr (shape.foreignKeys.map (·.payload))),
    ("indexes", .arr (shape.indexes.map (·.payload))), ("parent_relation_id", nullable .str shape.parentRelationId),
    ("partition_key", nullable .str shape.partitionKey), ("primary_key", texts shape.primaryKey),
    ("relation_id", .str shape.relationId), ("relation_kind", .str shape.relationKind)]

/-- What the structure checksum of a snapshot is taken of. -/
def structurePayload (sourceIdentifier : String) (approvedSchemas : List String) (parserVersion : String) (relations : List RelationSnapshot) :
    Json :=
  .obj [("approved_schemas", texts approvedSchemas), ("parser_version", .str parserVersion),
    ("relations", .arr (relations.map fun relation => (relationStructure relation).payload)), ("source_identifier", .str sourceIdentifier)]

/-- `_sha256`: the digest of a canonical text, which a value with an integer of too many digits does not have. -/
def canonicalDigest (sha256 : String → String) (value : Json) : Except SnapshotError String :=
  if value.writable then .ok (sha256 value.dumps) else .error .raised

/-! ## Catalog rows -/

/-- What Python makes of the values of catalog rows: `int`, `str` and `bool` of a value, its items, and whether it is None, a `str` or
`bytes`. None where it raises. -/
structure ValueReader (ν : Type) where
  int : ν → Option Int
  str : ν → Option String
  bool : ν → Option Bool
  items : ν → Option (List ν)
  isNone : ν → Bool
  text? : ν → Option String
  /-- the bytes of a value of type `bytes`, decoded -/
  bytes? : ν → Option (Option String)

section Rows

variable {ν : Type} (R : ValueReader ν)

/-- `row[name]`. -/
def field (row : Dict String ν) (name : String) : Except SnapshotError ν := orRaise (row.get? name)

/-- `int(row[name])`. -/
def intField (row : Dict String ν) (name : String) : Except SnapshotError Int := do orRaise (R.int (← field row name))

/-- `str(row[name])`. -/
def textField (row : Dict String ν) (name : String) : Except SnapshotError String := do orRaise (R.str (← field row name))

/-- `bool(row[name])`. -/
def boolField (row : Dict String ν) (name : String) : Except SnapshotError Bool := do orRaise (R.bool (← field row name))

/-- `row.get(name) or default`, read where it is truthy. -/
def fieldOr {α : Type} (read : ν → Option α) (default : α) (row : Dict String ν) (name : String) : Except SnapshotError α :=
  match row.get? name with
  | none => .ok default
  | some value => do
    if ← orRaise (R.bool value) then orRaise (read value) else return default

/-- `_text_tuple(row.get(name))`. -/
def textTuple (row : Dict String ν) (name : String) : Except SnapshotError (List String) :=
  match row.get? name with
  | none => .ok []
  | some value =>
    if R.isNone value then .ok []
    else
      match R.text? value with
      | some text => .ok [text]
      | none => do (← orRaise (R.items value)).mapM fun item => orRaise (R.str item)

/-- `_text_value`. -/
def textValue (value : ν) : Except SnapshotError String :=
  match R.bytes? value with
  | some decoded => orRaise decoded
  | none => orRaise (R.str value)

/-- `str(row.get(name) or "").strip() or None`. -/
def strippedField (row : Dict String ν) (name : String) : Except SnapshotError (Option String) := do
  let text := strip (← fieldOr R R.str "" row name)
  return if text = "" then none else some text

/-- A relation row that was accepted. -/
structure CollectedRelation (ν : Type) where
  oid : Int
  relationId : String
  row : Dict String ν

/-- The identity of a relation row, of an approved schema. -/
def readRelationRow (schemas : List String) (row : Dict String ν) : Except SnapshotError (CollectedRelation ν) := do
  let oid ← intField R row "relation_oid"
  let schemaName ← textField R row "schema_name"
  let relationName ← textField R row "relation_name"
  let relationId ← relationIdOf schemaName relationName
  if schemaName ∉ schemas then throw (.unapprovedSchema relationId)
  return { oid, relationId, row }

/-- One turn of the loop over the relation rows: no oid and no identity twice. -/
def collectRelation (schemas : List String) (collected : List (CollectedRelation ν)) (row : Dict String ν) :
    Except SnapshotError (List (CollectedRelation ν)) := do
  let relation ← readRelationRow R schemas row
  if relation.oid ∈ collected.map (·.oid) ∨ relation.relationId ∈ collected.map (·.relationId) then
    throw (.duplicateRelation relation.relationId)
  return collected ++ [relation]

/-- A column row of a collected relation, with its oid. -/
def readColumnRow (oids : List Int) (row : Dict String ν) : Except SnapshotError (Option (Int × ColumnSnapshot)) := do
  let oid ← intField R row "relation_oid"
  if oid ∉ oids then return none
  return some (oid, {
    name := ← textField R row "column_name"
    dataType := ← textField R row "data_type"
    nullable := ← boolField R row "nullable"
    ordinalPosition := ← intField R row "ordinal_position" })

/-- A constraint row of a collected relation: the columns of a primary key, or a foreign key to a collected relation. -/
inductive CollectedConstraint where
  | primaryKey (oid : Int) (columns : List String)
  | foreignKey (oid : Int) (foreignKey : ForeignKeySnapshot)

/-- A constraint row: nothing for one of another relation, of another kind or to a relation that is not collected. -/
def readConstraintRow (collected : List (CollectedRelation ν)) (row : Dict String ν) : Except SnapshotError (Option CollectedConstraint) := do
  let oid ← intField R row "relation_oid"
  if oid ∉ collected.map (·.oid) then return none
  let constraintType ← textValue R (← field row "constraint_type")
  let columns ← textTuple R row "columns"
  if constraintType = "p" then
    return some (.primaryKey oid columns)
  else if constraintType = "f" then
    let targetSchema ← fieldOr R R.str "" row "target_schema_name"
    let targetRelation ← fieldOr R R.str "" row "target_relation_name"
    if targetSchema = "" ∨ targetRelation = "" then return none
    if targetSchema ++ "." ++ targetRelation ∉ collected.map (·.relationId) then return none
    let targetRelationId ← relationIdOf targetSchema targetRelation
    let name ← textField R row "constraint_name"
    let targetColumns ← textTuple R row "target_columns"
    return some (.foreignKey oid { name, columns, targetRelationId, targetColumns })
  else
    return none

/-- The primary keys and the foreign keys of the constraint rows so far, with the oids of their relations. -/
structure CollectedKeys where
  primaryKeys : List (Int × List String)
  foreignKeys : List (Int × ForeignKeySnapshot)

/-- One turn of the loop over the constraint rows: no relation has two primary keys. -/
def collectConstraint (collected : List (CollectedRelation ν)) (keys : CollectedKeys) (row : Dict String ν) :
    Except SnapshotError CollectedKeys := do
  match ← readConstraintRow R collected row with
  | none => return keys
  | some (.primaryKey oid columns) =>
    if oid ∈ keys.primaryKeys.map Prod.fst then
      throw (.multiplePrimaryKeys (((collected.find? fun relation => relation.oid = oid).map (·.relationId)).getD ""))
    return { keys with primaryKeys := keys.primaryKeys ++ [(oid, columns)] }
  | some (.foreignKey oid foreignKey) => return { keys with foreignKeys := keys.foreignKeys ++ [(oid, foreignKey)] }

/-- An index row of a collected relation, with its oid. -/
def readIndexRow (oids : List Int) (row : Dict String ν) : Except SnapshotError (Option (Int × IndexSnapshot)) := do
  let oid ← intField R row "relation_oid"
  if oid ∉ oids then return none
  let predicate ← strippedField R row "predicate"
  return some (oid, {
    name := ← textField R row "index_name"
    columns := ← textTuple R row "columns"
    unique := ← boolField R row "is_unique"
    primary := ← boolField R row "is_primary"
    predicate })

/-- What was collected for an oid, in the order of the rows. -/
def rowsOf {α : Type} (oid : Int) (rows : List (Int × α)) : List α := rows.filterMap fun row => if row.1 = oid then some row.2 else none

/-- The identity of the parent of a relation, where the parent is collected. -/
def parentOf (collected : List (CollectedRelation ν)) (row : Dict String ν) : Except SnapshotError (Option String) := do
  let parentSchema ← fieldOr R R.str "" row "parent_schema_name"
  let parentRelation ← fieldOr R R.str "" row "parent_relation_name"
  if parentSchema = "" ∨ parentRelation = "" then return none
  if parentSchema ++ "." ++ parentRelation ∉ collected.map (·.relationId) then return none
  return some (← relationIdOf parentSchema parentRelation)

/-- The snapshot of one collected relation. -/
def buildRelation (policies : Dict String RelationPolicy) (collected : List (CollectedRelation ν)) (columns : List (Int × ColumnSnapshot))
    (keys : CollectedKeys) (indexes : List (Int × IndexSnapshot)) (relation : CollectedRelation ν) : Except SnapshotError RelationSnapshot := do
  let policy := (policies.get? relation.relationId).getD {}
  let parentRelationId ← parentOf R collected relation.row
  return {
    relationId := relation.relationId
    schemaName := ← textField R relation.row "schema_name"
    relationName := ← textField R relation.row "relation_name"
    relationKind := ← textField R relation.row "relation_kind"
    columns := sortBy (fun column => toLex (column.ordinalPosition, column.name)) (rowsOf relation.oid columns)
    primaryKey := (rowsOf relation.oid keys.primaryKeys).head?.getD []
    foreignKeys := sortBy (·.name) (rowsOf relation.oid keys.foreignKeys)
    indexes := sortBy (·.name) (rowsOf relation.oid indexes)
    partitionKey := ← strippedField R relation.row "partition_key"
    parentRelationId
    estimatedRows := max (← fieldOr R R.int 0 relation.row "estimated_rows") 0
    totalBytes := max (← fieldOr R R.int 0 relation.row "total_bytes") 0
    sensitivity := if strip policy.sensitivity = "" then "unclassified" else strip policy.sensitivity
    sensitiveColumns := sortBy id (fromKeys policy.sensitiveColumns)
    aggregateCoverage := sortBy id (fromKeys policy.aggregateCoverage)
    freshnessSlaSeconds := policy.freshnessSlaSeconds
    organizationCoverage := normalizeOrganizationCoverage policy.organizationCoverage }

/-- The catalog rows of a snapshot, in four streams. -/
structure CatalogRows (ν : Type) where
  relations : List (Dict String ν)
  columns : List (Dict String ν)
  constraints : List (Dict String ν)
  indexes : List (Dict String ν)

/-- The relations of a snapshot, by their identities. -/
def buildRelations (schemas : List String) (policies : Dict String RelationPolicy) (rows : CatalogRows ν) :
    Except SnapshotError (List RelationSnapshot) := do
  let collected ← rows.relations.foldlM (collectRelation R schemas) []
  let columns ← rows.columns.mapM (readColumnRow R (collected.map (·.oid)))
  match sortBy id (policies.keys.filter fun relationId => relationId ∉ collected.map (·.relationId)) with
  | relationId :: _ => throw (.uncollectedPolicy relationId)
  | [] => pure ()
  let keys ← rows.constraints.foldlM (collectConstraint R collected) ⟨[], []⟩
  let indexes ← rows.indexes.mapM (readIndexRow R (collected.map (·.oid)))
  let relations ← collected.mapM (buildRelation R policies collected columns.reduceOption keys indexes.reduceOption)
  return sortBy (·.relationId) relations

/-- The candidate of ordered relations, with its two checksums. -/
def sealCandidate (sha256 : String → String) (sourceIdentifier : String) (approvedSchemas : List String) (parserVersion : String)
    (relations : List RelationSnapshot) : Except SnapshotError SchemaSnapshotCandidate := do
  let schemaChecksum ← canonicalDigest sha256 (structurePayload sourceIdentifier approvedSchemas parserVersion relations)
  let candidate : SchemaSnapshotCandidate := { sourceIdentifier, approvedSchemas, relations, checksum := "", schemaChecksum, parserVersion }
  let checksum ← canonicalDigest sha256 (.obj candidate.toPayload)
  return { candidate with checksum }

/-- `build_schema_snapshot_candidate`. -/
def buildSchemaSnapshotCandidate (sha256 : String → String) (sourceIdentifier : String) (approvedSchemas : List String) (rows : CatalogRows ν)
    (policies : Dict String RelationPolicy) (parserVersion : String) : Except SnapshotError SchemaSnapshotCandidate := do
  let source := strip sourceIdentifier
  if source = "" then throw .sourceEmpty
  if isBlank parserVersion then throw .parserEmpty
  let schemas ← normalizeSchemas approvedSchemas
  let normalized ← policies.entries.mapM fun entry => do return (← normalizeRelationRef entry.1 schemas, entry.2)
  let relations ← buildRelations R schemas (Dict.ofList normalized) rows
  sealCandidate sha256 source schemas parserVersion relations

end Rows

/-! ## Drift -/

/-- A change that asks for approval, and the relation it is of. -/
inductive DriftIssue where
  | snapshotSourceChanged | snapshotParserChanged | approvedSchemaDrift
  | relationRemoved (relationId : String)
  | relationAdded (relationId : String)
  | relationStructureChanged (relationId : String)
  | relationSensitivityChanged (relationId : String)
  | relationSensitiveColumnsChanged (relationId : String)
  | relationOrganizationCoverageChanged (relationId : String)
  deriving DecidableEq, Repr

/-- The code of an issue. -/
def DriftIssue.code : DriftIssue → String
  | .snapshotSourceChanged => "snapshot_source_changed"
  | .snapshotParserChanged => "snapshot_parser_changed"
  | .approvedSchemaDrift => "approved_schema_drift"
  | .relationRemoved _ => "relation_removed"
  | .relationAdded _ => "relation_added"
  | .relationStructureChanged _ => "relation_structure_changed"
  | .relationSensitivityChanged _ => "relation_sensitivity_changed"
  | .relationSensitiveColumnsChanged _ => "relation_sensitive_columns_changed"
  | .relationOrganizationCoverageChanged _ => "relation_organization_coverage_changed"

open DriftIssue

/-- The issues of a relation that both snapshots have. -/
def relationDriftIssues (relationId : String) (before after : RelationSnapshot) : List DriftIssue :=
  (if relationStructure before ≠ relationStructure after then [relationStructureChanged relationId] else []) ++
    (if before.sensitivity ≠ after.sensitivity then [relationSensitivityChanged relationId] else []) ++
    (if before.sensitiveColumns ≠ after.sensitiveColumns then [relationSensitiveColumnsChanged relationId] else []) ++
    (if before.organizationCoverage ≠ after.organizationCoverage then [relationOrganizationCoverageChanged relationId] else [])

/-- `_schema_drift_issues`. -/
def schemaDriftIssues (previous candidate : SchemaSnapshotCandidate) : List DriftIssue :=
  let previousById := Dict.ofList (previous.relations.map fun relation => (relation.relationId, relation))
  let candidateById := Dict.ofList (candidate.relations.map fun relation => (relation.relationId, relation))
  (if previous.sourceIdentifier ≠ candidate.sourceIdentifier then [snapshotSourceChanged] else []) ++
    (if previous.parserVersion ≠ candidate.parserVersion then [snapshotParserChanged] else []) ++
    (if previous.approvedSchemas ≠ candidate.approvedSchemas then [approvedSchemaDrift] else []) ++
    (sortBy id (previousById.keys.filter fun relationId => relationId ∉ candidateById.keys)).map relationRemoved ++
    (sortBy id (candidateById.keys.filter fun relationId => relationId ∉ previousById.keys)).map relationAdded ++
    (sortBy id (previousById.keys.filter fun relationId => relationId ∈ candidateById.keys)).flatMap fun relationId =>
      match previousById.get? relationId, candidateById.get? relationId with
      | some before, some after => relationDriftIssues relationId before after
      | _, _ => []

end Nl2Sql.Snapshot
