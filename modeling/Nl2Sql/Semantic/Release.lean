import Nl2Sql.Semantic.Materialize

/-!
# Accepting a release candidate

`bind_schema_snapshot` of `semantic/schema_snapshot.py` and `_validate_release_candidate` of `semantic/registry.py`: a candidate is bound to
a validated snapshot of the schema, and the publisher accepts it where its documents, assets, aliases, edges and issues fit together. The
hexadecimal digest of a text is an argument, and so is `int(value)` of a value that is not an integer.
-/

namespace Nl2Sql.Authoring

open Py

/-- What binding and acceptance may raise. -/
inductive CandidateError where
  | semanticRelease (message : String)
  /-- the exception of `int(value)` -/
  | conversion
  deriving DecidableEq, Repr

/-- A `SemanticReleaseError` where a condition holds. -/
def rejectIf (c : Prop) [Decidable c] (message : String) : Except CandidateError Unit :=
  if c then .error (.semanticRelease message) else .ok ()

/-! ## Binding -/

/-- A schema snapshot: what binding reads of it. -/
structure SchemaSnapshot where
  snapshotId : String
  /-- the text of a UUID -/
  named : isBlank snapshotId = false
  state : SchemaSnapshotState
  checksum : String
  schemaChecksum : String
  /-- what the checksum of the candidate is of -/
  payload : Json
  /-- what the checksum of its structure is of -/
  structurePayload : Json
  validationReport : Nl2Sql.ValidationReport

/-- The text that a member of a report is. -/
def reportText (name : String) (report : Nl2Sql.ValidationReport) : Option String :=
  match Json.member? name report with
  | some (.str text) => some text
  | _ => none

/-- `_validate_candidate_checksums`, of the candidate of a snapshot. -/
def SchemaSnapshot.checksumsHold (sha256 : String → String) (snapshot : SchemaSnapshot) : Prop :=
  sha256 snapshot.structurePayload.dumps = snapshot.schemaChecksum ∧ sha256 snapshot.payload.dumps = snapshot.checksum

instance (sha256 : String → String) (snapshot : SchemaSnapshot) : Decidable (snapshot.checksumsHold sha256) :=
  inferInstanceAs (Decidable (_ ∧ _))

/-- The checksum of a candidate that is bound. -/
def boundChecksum (sha256 : String → String) (candidate : SemanticReleaseCandidate) (snapshot : SchemaSnapshot) : String :=
  sha256 (Json.obj [("schema_snapshot_checksum", .str snapshot.checksum),
    ("semantic_materialization_checksum", .str candidate.checksum)]).dumps

/-- `bind_schema_snapshot`. -/
def bindSchemaSnapshot (sha256 : String → String) (candidate : SemanticReleaseCandidate) (snapshot : SchemaSnapshot) :
    Except CandidateError SemanticReleaseCandidate := do
  rejectIf (snapshot.state ≠ .validated) "semantic release requires a validated schema snapshot"
  rejectIf (¬snapshot.checksumsHold sha256) "semantic release schema snapshot is corrupt"
  rejectIf (snapshot.validationReport.isOk = false ∨ reportText "candidate_checksum" snapshot.validationReport ≠ some snapshot.checksum ∨
      reportText "schema_checksum" snapshot.validationReport ≠ some snapshot.schemaChecksum)
    "semantic release schema snapshot validation report is invalid"
  match candidate.schemaSnapshotId with
  | some snapshotId =>
    rejectIf (snapshotId ≠ snapshot.snapshotId ∨ candidate.schemaSnapshotChecksum ≠ some snapshot.checksum)
      "semantic release is already bound to another schema snapshot"
    pure candidate
  | none =>
    pure
      { candidate with
        checksum := boundChecksum sha256 candidate snapshot
        validationReport :=
          Dict.setEntries "schema_snapshot_checksum" (.str snapshot.checksum)
            (Dict.setEntries "schema_snapshot_id" (.str snapshot.snapshotId) candidate.validationReport)
        schemaSnapshotId := some snapshot.snapshotId
        schemaSnapshotChecksum := some snapshot.checksum }

/-! ## Acceptance -/

/-- The snapshot that a candidate is bound to. -/
def checkBinding (candidate : SemanticReleaseCandidate) : Except CandidateError Unit := do
  let snapshotId := strip (candidate.schemaSnapshotId.getD "")
  let snapshotChecksum := strip (candidate.schemaSnapshotChecksum.getD "")
  rejectIf (¬(snapshotId = "" ↔ snapshotChecksum = "")) "semantic release schema snapshot binding is incomplete"
  rejectIf (candidate.assets ≠ [] ∧ snapshotId = "") "typed semantic releases require a validated schema snapshot"

/-- The documents of a candidate. -/
def checkDocuments (documents : List RegistryDocument) : Except CandidateError Unit := do
  rejectIf (documents = []) "a semantic release requires at least one document"
  rejectIf (¬(documents.map fun document => document.documentId).Nodup) "semantic document ids must be unique"
  rejectIf (∃ document ∈ documents, isBlank document.documentId = true ∨ isBlank document.content = true)
    "semantic documents require non-empty ids and content"

/-- `_ASSET_TYPES`, `_ASSET_STATUSES`, `_EDGE_TYPES`, `_EDGE_STATUSES` and `_ISSUE_SEVERITIES`. -/
def assetTypes : List String := ["domain", "metric", "dimension", "relation", "example", "policy", "qa", "view"]
def assetStatuses : List String := ["active", "retired", "error"]
def edgeTypes : List String := ["approved_join", "metric_dependency", "lineage"]
def edgeStatuses : List String := ["approved", "retired", "rejected"]
def issueSeverities : List String := ["error", "warning"]

/-- One asset of a candidate with the documents of some ids. -/
def checkAsset (documentIds : List String) (asset : SemanticAssetRecord) : Except CandidateError Unit := do
  rejectIf (∃ value ∈ [asset.assetId, asset.domain, asset.owner, asset.sensitivity, asset.content], isBlank value = true)
    "semantic assets require complete identity and governance metadata"
  rejectIf (asset.assetType ∉ assetTypes) ("unsupported semantic asset type: " ++ asset.assetType)
  rejectIf (asset.status ∉ assetStatuses) ("unsupported semantic asset status: " ++ asset.status)
  rejectIf (asset.assetId ∉ documentIds) ("semantic asset is missing its compatibility document: " ++ asset.assetId)

/-- One alias, after those of some normalized texts. -/
def checkAliasRecord (assetIds : List String) (seen : List String) (record : SemanticAliasRecord) :
    Except CandidateError (List String) := do
  rejectIf (record.assetId ∉ assetIds) ("semantic alias references an unknown asset: " ++ record.assetId)
  rejectIf (isBlank record.text = true ∨ isBlank record.normalizedAlias = true) "semantic aliases must not be empty"
  rejectIf (record.normalizedAlias ∈ seen) ("duplicate normalized semantic alias: " ++ record.normalizedAlias)
  pure (record.normalizedAlias :: seen)

/-- One edge, after those of some ids. -/
def checkEdge (assetIds : List String) (seen : List String) (edge : SemanticEdgeRecord) : Except CandidateError (List String) := do
  rejectIf (edge.edgeId ∈ seen) ("duplicate semantic edge id: " ++ edge.edgeId)
  rejectIf (edge.sourceAssetId ∉ assetIds ∨ edge.targetAssetId ∉ assetIds)
    ("semantic edge references an unknown asset: " ++ edge.edgeId)
  rejectIf (edge.sourceAssetId = edge.targetAssetId) ("semantic edge must not be self-referential: " ++ edge.edgeId)
  rejectIf (edge.edgeType ∉ edgeTypes) ("unsupported semantic edge type: " ++ edge.edgeType)
  rejectIf (edge.status ∉ edgeStatuses) ("unsupported semantic edge status: " ++ edge.status)
  pure (edge.edgeId :: seen)

/-- One issue of a candidate. -/
def checkIssue (assetIds : List String) (issue : SemanticValidationIssueRecord) : Except CandidateError Unit := do
  rejectIf (∃ assetId ∈ issue.assetId, assetId ∉ assetIds)
    ("semantic issue references an unknown asset: " ++ issue.assetId.getD "")
  rejectIf (issue.severity ∉ issueSeverities) ("unsupported semantic issue severity: " ++ issue.severity)
  rejectIf (isBlank issue.code = true ∨ isBlank issue.message = true ∨ isBlank issue.owner = true)
    "semantic validation issues require code, message, and owner"

/-- The members of the report that speak of the candidate. -/
def checkReport (integer : Json → Option Int) (candidate : SemanticReleaseCandidate) : Except CandidateError Unit := do
  match Json.member? "issues" candidate.validationReport with
  | some (.arr issues) =>
    rejectIf (issues.length ≠ candidate.validationIssues.length) "semantic validation issues do not match the validation report"
  | _ => pure ()
  match Json.member? "schema_version" candidate.validationReport with
  | none | some .null => pure ()
  | some (.int version) =>
    rejectIf (version ≠ candidate.schemaVersion) "semantic candidate and validation report schema versions differ"
  | some value =>
    match integer value with
    | none => throw .conversion
    | some version =>
      rejectIf (version ≠ candidate.schemaVersion) "semantic candidate and validation report schema versions differ"

/-- `_embedding_dimension`. -/
def embeddingDimension (documents : List RegistryDocument) (assets : List SemanticAssetRecord) : Except CandidateError (Option Nat) := do
  let dimensions := ((documents.filterMap fun document => document.embedding) ++ assets.filterMap fun asset => asset.embedding).map List.length
  match fromKeys dimensions with
  | [] => pure none
  | dimension :: others =>
    rejectIf (0 ∈ dimension :: others) "semantic embedding must not be empty"
    rejectIf (others ≠ []) "semantic embeddings must use one fixed dimension"
    pure (some dimension)

/-- The embedding profile of a candidate. -/
def checkEmbedding (candidate : SemanticReleaseCandidate) : Except CandidateError Unit := do
  match ← embeddingDimension candidate.documents candidate.assets with
  | none =>
    rejectIf (candidate.embeddingProfile ≠ none ∨ candidate.embeddingDimension ≠ none)
      "embedding contract exists without semantic embeddings"
  | some dimension =>
    rejectIf (candidate.embeddingProfile.getD "" = "" ∨ candidate.embeddingDimension ≠ some dimension)
      "semantic embeddings require one matching model profile and dimension"

/-- `_validate_release_candidate`. -/
def validateReleaseCandidate (integer : Json → Option Int) (candidate : SemanticReleaseCandidate) : Except CandidateError Unit := do
  rejectIf (candidate.validationReport.isOk = false) "semantic release validation failed"
  rejectIf (isBlank candidate.checksum = true) "semantic release checksum must not be empty"
  rejectIf (candidate.schemaVersion ≠ 3) "semantic release schema_version must be 3"
  rejectIf (isBlank candidate.parserVersion = true) "semantic release parser_version must not be empty"
  checkBinding candidate
  checkDocuments candidate.documents
  let assetIds := candidate.assets.map SemanticAssetRecord.assetId
  rejectIf (¬assetIds.Nodup) "semantic asset ids must be unique"
  candidate.assets.forM (checkAsset (candidate.documents.map fun document => document.documentId))
  let _ ← candidate.aliases.foldlM (checkAliasRecord assetIds) []
  let _ ← candidate.edges.foldlM (checkEdge assetIds) []
  candidate.validationIssues.forM (checkIssue assetIds)
  checkReport integer candidate
  checkEmbedding candidate

end Nl2Sql.Authoring
