import Nl2Sql.Lib.JsonEqual
import Nl2Sql.Semantic.SchemaSnapshot

/-!
# Decoding a snapshot payload

`schema_snapshot_candidate_from_payload` of `semantic/schema_snapshot.py`: a persisted payload is read leniently, field by field, what was read
is written again, and the payload is rejected unless it is equal to that. The two checksums are computed from what was written again.
-/

namespace Nl2Sql.Snapshot

open Py Json

/-- What Python makes of the values of a payload: the value of a finite float, `int` of a text, and `str` of a value that is no text. None
where it raises. -/
structure PayloadReader where
  floatValue : String → Option ℚ
  intOfText : String → Option Int
  strOf : Json → Option String

namespace PayloadReader

variable (R : PayloadReader)

/-- `bool(value)`. -/
def truthy : Json → Bool
  | .null => false
  | .bool b => b
  | .int n => n ≠ 0
  | .float text => R.floatValue text ≠ some 0
  | .str s => s ≠ ""
  | .arr items => !items.isEmpty
  | .obj members => !members.isEmpty

/-- `int(value)`: a float is cut off towards zero. -/
def int? : Json → Option Int
  | .bool b => some (if b then 1 else 0)
  | .int n => some n
  | .float text => (R.floatValue text).map fun q => q.num.tdiv q.den
  | .str s => R.intOfText s
  | _ => none

/-- `str(value)`. -/
def str? : Json → Option String
  | .str s => some s
  | value => R.strOf value

end PayloadReader

/-- The items of a value that is iterated: of a list its items, of a text its characters, of a mapping its names. -/
def iterate? : Json → Option (List Json)
  | .arr items => some items
  | .str s => some (s.toList.map fun c => .str (String.singleton c))
  | .obj members => some (members.map fun m => .str m.1)
  | _ => none

/-- `isinstance(value, Mapping)`. -/
def mapping? : Json → Option (List (String × Json))
  | .obj members => some members
  | _ => none

section Decode

variable (R : PayloadReader)

/-- `payload.get(name, ())`, iterated. -/
def itemsOf (payload : List (String × Json)) (name : String) : Except SnapshotError (List Json) :=
  match member? name payload with
  | none => .ok []
  | some value => orRaise (iterate? value)

/-- `tuple(str(item) for item in payload.get(name, ()))`. -/
def textsOf (payload : List (String × Json)) (name : String) : Except SnapshotError (List String) := do
  (← itemsOf payload name).mapM fun item => orRaise (R.str? item)

/-- `read(payload[name])`. -/
def required {α : Type} (read : Json → Option α) (payload : List (String × Json)) (name : String) : Except SnapshotError α := do
  orRaise (read (← orRaise (member? name payload)))

/-- `read(payload.get(name) or default)`. -/
def readOr {α : Type} (read : Json → Option α) (default : α) (payload : List (String × Json)) (name : String) : Except SnapshotError α :=
  match member? name payload with
  | none => .ok default
  | some value => if R.truthy value then orRaise (read value) else .ok default

/-- `read(payload[name]) if payload.get(name) is not None else None`. -/
def readOptional {α : Type} (read : Json → Option α) (payload : List (String × Json)) (name : String) : Except SnapshotError (Option α) :=
  match member? name payload with
  | none => .ok none
  | some .null => .ok none
  | some value => do return some (← orRaise (read value))

/-- `str(payload.get(name) or "").strip() or None`. -/
def strippedOf (payload : List (String × Json)) (name : String) : Except SnapshotError (Option String) := do
  let text := strip (← readOr R R.str? "" payload name)
  return if text = "" then none else some text

/-- A column of a payload. -/
def columnFromPayload (value : Json) : Except SnapshotError ColumnSnapshot := do
  let column ← orRaise (mapping? value)
  return {
    name := ← required R.str? column "name"
    dataType := ← required R.str? column "data_type"
    nullable := ← required (fun value => some (R.truthy value)) column "nullable"
    ordinalPosition := ← required R.int? column "ordinal_position" }

/-- A foreign key of a payload. -/
def foreignKeyFromPayload (value : Json) : Except SnapshotError ForeignKeySnapshot := do
  let foreignKey ← orRaise (mapping? value)
  return {
    name := ← required R.str? foreignKey "name"
    columns := ← textsOf R foreignKey "columns"
    targetRelationId := ← required R.str? foreignKey "target_relation_id"
    targetColumns := ← textsOf R foreignKey "target_columns" }

/-- An index of a payload. -/
def indexFromPayload (value : Json) : Except SnapshotError IndexSnapshot := do
  let index ← orRaise (mapping? value)
  return {
    name := ← required R.str? index "name"
    columns := ← textsOf R index "columns"
    unique := ← required (fun value => some (R.truthy value)) index "unique"
    primary := ← required (fun value => some (R.truthy value)) index "primary"
    predicate := ← strippedOf R index "predicate" }

/-- A coverage binding of a payload. -/
def bindingFromPayload (entry : List (String × Json)) : Except SnapshotError OrganizationCoverageBinding := do
  return {
    scopeLevel := ← readOr R R.str? "" entry "scope_level"
    field := ← readOptional R.str? entry "field"
    valueType := ← readOptional R.str? entry "value_type" }

/-- The coverage of a payload's relation: none in the legacy format, and no entry that is not a mapping. -/
def coverageFromPayload (payload : List (String × Json)) (formatVersion : String) : Except SnapshotError (List OrganizationCoverageBinding) :=
  if formatVersion = legacyFormatVersion then .ok []
  else do ((← itemsOf payload "organization_coverage").filterMap mapping?).mapM (bindingFromPayload R)

/-- `_relation_from_payload`. -/
def relationFromPayload (formatVersion : String) (payload : List (String × Json)) : Except SnapshotError RelationSnapshot := do
  let organizationCoverage ← coverageFromPayload R payload formatVersion
  return {
    relationId := ← required R.str? payload "relation_id"
    schemaName := ← required R.str? payload "schema_name"
    relationName := ← required R.str? payload "relation_name"
    relationKind := ← required R.str? payload "relation_kind"
    columns := ← (← itemsOf payload "columns").mapM (columnFromPayload R)
    primaryKey := ← textsOf R payload "primary_key"
    foreignKeys := ← (← itemsOf payload "foreign_keys").mapM (foreignKeyFromPayload R)
    indexes := ← (← itemsOf payload "indexes").mapM (indexFromPayload R)
    partitionKey := ← strippedOf R payload "partition_key"
    parentRelationId := ← readOptional R.str? payload "parent_relation_id"
    estimatedRows := ← readOr R R.int? 0 payload "estimated_rows"
    totalBytes := ← readOr R R.int? 0 payload "total_bytes"
    sensitivity := ← readOr R R.str? "unclassified" payload "sensitivity"
    sensitiveColumns := ← textsOf R payload "sensitive_columns"
    aggregateCoverage := ← textsOf R payload "aggregate_coverage"
    freshnessSlaSeconds := ← readOptional R.int? payload "freshness_sla_seconds"
    organizationCoverage }

/-- The format of a payload: without a marker it is the legacy one. -/
def formatOf (payload : List (String × Json)) : Except SnapshotError String := do
  let format := (← readOptional R.str? payload "format_version").getD legacyFormatVersion
  if format ∉ [formatVersion, legacyFormatVersion] then throw .formatUnsupported
  return format

/-- What is read from a payload, before it is checked. -/
def candidateFromPayload (payload : List (String × Json)) (checksum : String) : Except SnapshotError SchemaSnapshotCandidate := do
  let formatVersion ← formatOf R payload
  let relations ← ((← itemsOf payload "relations").filterMap mapping?).mapM (relationFromPayload R formatVersion)
  return {
    sourceIdentifier := ← readOr R R.str? "" payload "source_identifier"
    approvedSchemas := ← textsOf R payload "approved_schemas"
    relations
    checksum
    schemaChecksum := ← readOr R R.str? "" payload "schema_checksum"
    parserVersion := ← readOr R R.str? "" payload "parser_version"
    formatVersion }

/-- The structure checksum that a candidate should have. -/
def SchemaSnapshotCandidate.structureDigest (sha256 : String → String) (candidate : SchemaSnapshotCandidate) : Except SnapshotError String :=
  canonicalDigest sha256 (structurePayload candidate.sourceIdentifier candidate.approvedSchemas candidate.parserVersion candidate.relations)

/-- `schema_snapshot_candidate_from_payload`. -/
def schemaSnapshotCandidateFromPayload (sha256 : String → String) (payload : List (String × Json)) (checksum : String) :
    Except SnapshotError SchemaSnapshotCandidate := do
  let candidate ← candidateFromPayload R payload checksum
  if pyEq R.floatValue (.obj payload) (.obj candidate.toPayload) = false then throw .notCanonical
  if (← canonicalDigest sha256 (.obj candidate.toPayload)) ≠ checksum then throw .checksumMismatch
  if (← candidate.structureDigest sha256) ≠ candidate.schemaChecksum then throw .structureMismatch
  return candidate

end Decode

end Nl2Sql.Snapshot
