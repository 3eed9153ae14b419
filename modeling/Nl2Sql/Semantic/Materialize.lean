import Nl2Sql.Semantic.Authoring

/-!
# Materializing a release

`materialize_authoring_ir` of `semantic/materialization.py`: the assets, aliases, edges and documents of a release candidate, and its
checksum. A set is the list of its elements as they came in; the order in which a set of texts is iterated is an argument, and so are the
hexadecimal digest of a text and the Unicode forms. The texts of a set are sorted before they are used, some of them by a key that
different texts share.
-/

namespace Nl2Sql.Authoring

open Py

/-- `PARSER_VERSION`. -/
def parserVersion : String := "semantic-authoring-v3"

structure SemanticAssetRecord where
  assetId : String
  assetType : String
  status : String
  domain : String
  owner : String
  sensitivity : String
  content : String
  /-- the members of a JSON object -/
  payload : List (String × Json)
  /-- the texts of the vector's components -/
  embedding : Option (List String) := none

structure SemanticAliasRecord where
  assetId : String
  text : String
  normalizedAlias : String
  language : String
  deriving DecidableEq

structure SemanticEdgeRecord where
  edgeId : String
  sourceAssetId : String
  targetAssetId : String
  edgeType : String
  status : String
  /-- the members of a JSON object -/
  payload : List (String × Json)

structure SemanticValidationIssueRecord where
  code : String
  severity : String
  message : String
  assetId : Option String
  path : String
  owner : String

structure SemanticReleaseCandidate where
  checksum : String
  documents : List RegistryDocument
  validationReport : Nl2Sql.ValidationReport
  assets : List SemanticAssetRecord
  aliases : List SemanticAliasRecord
  edges : List SemanticEdgeRecord
  validationIssues : List SemanticValidationIssueRecord
  schemaVersion : Int
  parserVersion : String
  schemaSnapshotId : Option String := none
  schemaSnapshotChecksum : Option String := none
  embeddingProfile : Option String := none
  embeddingDimension : Option Nat := none

/-- What materialization may raise. -/
inductive MaterializeError where
  | semanticRelease (message : String)
  | keyError
  deriving DecidableEq, Repr

/-- A value, or the error for its absence. -/
def orRaise {α : Type} (e : MaterializeError) : Option α → Except MaterializeError α
  | none => .error e
  | some a => .ok a

/-- A `SemanticReleaseError` where a condition holds. -/
def raiseIf (c : Prop) [Decidable c] (message : String) : Except MaterializeError Unit :=
  if c then .error (.semanticRelease message) else .ok ()

/-- `values.add(value)`. -/
def setAdd {α : Type} [DecidableEq α] (values : List α) (value : α) : List α := if value ∈ values then values else values ++ [value]

/-! ## Texts -/

/-- `_governance_value`. -/
def governanceValue (value : Option String) (fallback : String) : String :=
  if strip (value.getD "") ≠ "" then strip (value.getD "") else fallback

/-- `_unique_text`. -/
def uniqueText (values : List (Option String)) : List String :=
  (values.map fun value => strip (value.getD "")).foldl (fun result cleaned =>
    if cleaned ≠ "" ∧ cleaned ∉ result then result ++ [cleaned] else result) []

/-- The texts that `_asset_content` joins. -/
def contentValues : AuthoringAsset → List (Option String)
  | .metric a => [some a.metricKey, some a.displayName] ++ a.aliases.map some ++ [a.sourceRelation, a.formula]
  | .qa a => [some a.caseId, some a.question, some a.answer, some a.sql] ++ a.metricKeys.map some
  | .view a => [some a.name, some a.sourceRelation] ++ a.columns.map some

/-- `_asset_content`. -/
def assetContent (asset : AuthoringAsset) : Except MaterializeError String := do
  let content := " ".intercalate (uniqueText (contentValues asset))
  raiseIf (content = "") ("semantic asset has no searchable content: " ++ asset.assetId)
  pure content

/-- `_asset_aliases`. -/
def assetAliases : AuthoringAsset → List String
  | .metric a => uniqueText ([some a.metricKey, some a.displayName] ++ a.aliases.map some)
  | .qa a => uniqueText [some a.caseId, some a.question]
  | .view a => uniqueText [some a.name]

/-- `_alias_language`. -/
def aliasLanguage (text : String) : String :=
  if text.toList.any fun c => 0x3400 ≤ c.toNat ∧ c.toNat ≤ 0x9fff then "zh"
  else if text.toList.all fun c => c.toNat < 128 then "en"
  else "und"

/-- `text.rsplit(".", maxsplit=1)[-1]`. -/
def lastPart (text : String) : String := String.ofList (text.toList.reverse.takeWhile (· ≠ '.')).reverse

/-- `_normalize_relation`. -/
def normalizeRelation (U : UnicodeForms) (value : String) : String :=
  String.ofList ((U.normalize value).toList.filter (· ≠ '"'))

variable (sha256 : String → String)

/-- The first characters of a digest. -/
def shortDigest (text : String) : String := String.ofList ((sha256 text).toList.take 24)

/-- `_relation_asset_id`. -/
def relationAssetId (normalizedRelation : String) : String :=
  "relation." ++ shortDigest sha256 normalizedRelation

/-- A character as `json.dumps` writes it where it keeps to ASCII: a character beyond the basic plane is two units. -/
def asciiChar (c : Char) : List Char :=
  let unit (n : Nat) : List Char := '\\' :: 'u' :: [n / 4096 % 16, n / 256 % 16, n / 16 % 16, n % 16].map Nat.digitChar
  if c.toNat < 0x7f then [c]
  else if c.toNat < 0x10000 then unit c.toNat
  else unit (0xd800 + (c.toNat - 0x10000) / 1024) ++ unit (0xdc00 + (c.toNat - 0x10000) % 1024)

/-- `json.dumps(value, sort_keys=True, separators=(",", ":"))`. -/
def asciiDumps (value : Json) : String := String.ofList (value.dumps.toList.flatMap asciiChar)

/-! ## Alignment -/

/-- `_validate_alignment`. -/
def validateAlignment (ir : AuthoringIR) (report : ValidationReport) : Except MaterializeError Unit := do
  raiseIf (ir.schemaVersion ≠ report.schemaVersion) "authoring IR and validation report schema versions differ"
  raiseIf (ir.checksum sha256 ≠ report.checksum) "authoring IR and validation report checksums differ"
  let assetIds := ir.assets.map AuthoringAsset.assetId
  raiseIf (∃ assetId ∈ assetIds, isBlank assetId) "authoring asset ids must not be empty"
  raiseIf (¬assetIds.Nodup) "authoring asset ids must be unique across all asset types"
  raiseIf (¬SameSet assetIds report.assetStatuses.keys ∨ ¬SameSet assetIds report.assetDomains.keys)
    "validation report does not cover every authoring asset"
  raiseIf (∃ asset ∈ ir.assets, report.assetDomains.get? asset.assetId ≠ some asset.domain)
    "authoring IR and validation report domains differ"

/-! ## Relations -/

/-- `_RelationAccumulator`. -/
structure RelationAccumulator where
  names : List String := []
  statuses : List AssetStatus := []
  domains : List String := []
  owners : List String := []
  sensitivities : List String := []

/-- The relations an asset names. -/
def relationNames : AuthoringAsset → List String
  | .metric a => a.sourceRelation.toList.filter (· ≠ "")
  | .qa _ => []
  | .view a => a.sourceRelation :: a.joins.map JoinDefinition.table

/-- `_register_relation`. -/
def registerRelation (U : UnicodeForms) (source : SemanticAssetRecord) (status : AssetStatus)
    (accumulators : Dict String RelationAccumulator) (relationName : String) : Except MaterializeError (Dict String RelationAccumulator) := do
  let key := normalizeRelation U relationName
  raiseIf (key = "") ("semantic asset has an empty relation: " ++ source.assetId)
  let accumulator := (accumulators.get? key).getD {}
  pure (accumulators.set key
    { names := setAdd accumulator.names (strip relationName)
      statuses := setAdd accumulator.statuses status
      domains := setAdd accumulator.domains source.domain
      owners := setAdd accumulator.owners source.owner
      sensitivities := setAdd accumulator.sensitivities source.sensitivity })

/-- `_aggregate_status`. -/
def aggregateStatus (statuses : List AssetStatus) : AssetStatus :=
  if .error ∈ statuses then .error else if .active ∈ statuses then .active else .retired

/-- `_single_or`. -/
def singleOr (values : List String) (fallback : String) : String :=
  match fromKeys ((values.map strip).filter (· ≠ "")) with
  | [value] => value
  | _ => fallback

/-- The spellings of a relation as they are ordered: `sorted(accumulator.names, key=lambda value: value.casefold())`. -/
def orderedNames (U : UnicodeForms) (setOrder : List String → List String) (names : List String) : List String :=
  sortBy U.casefold (setOrder names)

/-- The record of a relation under the first of its spellings. -/
def relationRecord (key displayName : String) (accumulator : RelationAccumulator) : SemanticAssetRecord where
  assetId := relationAssetId sha256 key
  assetType := "relation"
  status := (aggregateStatus accumulator.statuses).value
  domain := singleOr accumulator.domains "shared"
  owner := singleOr accumulator.owners "semantic-registry"
  sensitivity := singleOr accumulator.sensitivities "mixed"
  content := "relation " ++ displayName
  payload :=
    [("asset_id", .str (relationAssetId sha256 key)), ("asset_type", .str "relation"), ("domains", texts (sortedStr accumulator.domains)),
      ("relation_name", .str displayName), ("schema_version", .int 3), ("status", .str (aggregateStatus accumulator.statuses).value)]

/-- `sorted(accumulators.items())`. -/
def relationGroups (accumulators : Dict String RelationAccumulator) : List (String × RelationAccumulator) :=
  sortBy Prod.fst accumulators.entries

/-- The assets of `_materialize_relations`. -/
def relationAssets (U : UnicodeForms) (sha256 : String → String) (setOrder : List String → List String)
    (accumulators : Dict String RelationAccumulator) : List SemanticAssetRecord :=
  (relationGroups accumulators).map fun group =>
    relationRecord sha256 group.1 ((orderedNames U setOrder group.2.names).head?.getD "") group.2

/-- The ids of `_materialize_relations`, by key. -/
def relationIds (accumulators : Dict String RelationAccumulator) : Dict String String :=
  Dict.ofList ((relationGroups accumulators).map fun group => (group.1, relationAssetId sha256 group.1))

/-- The spellings of `_materialize_relations`, by id, before they are ordered. -/
def relationSpellings (accumulators : Dict String RelationAccumulator) : Dict String (List String) :=
  Dict.ofList ((relationGroups accumulators).map fun group => (relationAssetId sha256 group.1, group.2.names))

/-! ## Aliases -/

/-- The record of an alias of an asset. -/
def aliasRecord (U : UnicodeForms) (assetId text : String) : SemanticAliasRecord where
  assetId := assetId
  text := strip text
  normalizedAlias := U.normalize text
  language := aliasLanguage text

/-- `_add_alias`. -/
def addAlias (U : UnicodeForms) (aliases : Dict String SemanticAliasRecord) (push : String × String) :
    Except MaterializeError (Dict String SemanticAliasRecord) :=
  let normalized := U.normalize push.2
  if normalized = "" then .ok aliases
  else
    match aliases.get? normalized with
    | some existing =>
      if existing.assetId ≠ push.1 then
        .error (.semanticRelease ("normalized semantic alias maps to multiple assets: " ++ normalized))
      else .ok aliases
    | none => .ok (aliases.set normalized (aliasRecord U push.1 push.2))

/-- The aliases of the authored assets, with the assets, in the order they are added. -/
def authoredPushes (ir : AuthoringIR) : List (String × String) :=
  ir.sortedAssets.flatMap fun asset => (assetAliases asset).map fun text => (asset.assetId, text)

/-- The aliases of one spelling of a relation. -/
def spellingPushes (assetId spelling : String) : List (String × String) := [(assetId, spelling), (assetId, lastPart spelling)]

/-- The aliases of the relations, in the order they are added. -/
def relationPushes (U : UnicodeForms) (sha256 : String → String) (setOrder : List String → List String)
    (accumulators : Dict String RelationAccumulator) : List (String × String) :=
  ((relationGroups accumulators).map fun group => relationAssetId sha256 group.1).flatMap fun assetId =>
    (orderedNames U setOrder (((relationSpellings sha256 accumulators).get? assetId).getD [])).flatMap (spellingPushes assetId)

/-- `_materialize_aliases`. -/
def materializeAliases (U : UnicodeForms) (pushes : List (String × String)) : Except MaterializeError (List SemanticAliasRecord) := do
  let aliases ← pushes.foldlM (addAlias U) Dict.empty
  pure ((sortBy Prod.fst aliases.entries).map Prod.snd)

/-! ## Edges -/

/-- `_edge_status`. -/
def edgeStatus (statuses : List AssetStatus) : String :=
  if .error ∈ statuses then "rejected" else if .retired ∈ statuses then "retired" else "approved"

/-- The edge that `_add_edge` adds. -/
def edgeRecord (sourceAssetId targetAssetId edgeType status : String) (payload : List (String × Json)) :
    SemanticEdgeRecord where
  edgeId := edgeType ++ "." ++ shortDigest sha256 (Json.obj [("edge_type", .str edgeType), ("payload", .obj payload),
    ("source_asset_id", .str sourceAssetId), ("target_asset_id", .str targetAssetId)]).dumps
  sourceAssetId := sourceAssetId
  targetAssetId := targetAssetId
  edgeType := edgeType
  status := status
  payload := payload

/-- What the edges are made from. -/
structure EdgeContext where
  forms : UnicodeForms
  sha256 : String → String
  report : ValidationReport
  metricsByKey : Dict String MetricAsset
  relationIds : Dict String String
  statusByAssetId : Dict String AssetStatus

namespace EdgeContext

variable (C : EdgeContext)

/-- `report.asset_statuses[asset_id]`. -/
def reported (assetId : String) : Except MaterializeError AssetStatus := orRaise .keyError (C.report.assetStatuses.get? assetId)

/-- `status_by_asset_id[asset_id]`. -/
def statusOf (assetId : String) : Except MaterializeError AssetStatus := orRaise .keyError (C.statusByAssetId.get? assetId)

/-- `_required_relation_id`. -/
def requiredRelationId (relationName : String) : Except MaterializeError String :=
  orRaise (.semanticRelease ("relation is missing from the materialized release: " ++ relationName))
    (C.relationIds.get? (normalizeRelation C.forms relationName))

/-- `_add_lineage_edge`. -/
def lineageEdge (sourceAssetId relationName : String) (sourceStatus : AssetStatus) : Except MaterializeError SemanticEdgeRecord := do
  let relationId ← C.requiredRelationId relationName
  let status ← C.statusOf relationId
  pure (edgeRecord C.sha256 sourceAssetId relationId "lineage" (edgeStatus [sourceStatus, status]) [("relation_name", .str relationName)])

/-- The edge of one dependency of a metric. -/
def dependencyEdge (metric : MetricAsset) (sourceStatus : AssetStatus) (dependencyKey : String) :
    Except MaterializeError SemanticEdgeRecord := do
  let dependency ← orRaise (.semanticRelease ("metric dependency is missing from the materialized release: " ++ dependencyKey))
    (C.metricsByKey.get? dependencyKey)
  let status ← C.reported dependency.assetId
  pure (edgeRecord C.sha256 metric.assetId dependency.assetId "metric_dependency" (edgeStatus [sourceStatus, status])
    [("source_metric_key", .str metric.metricKey), ("target_metric_key", .str dependency.metricKey)])

/-- The edges of a metric. -/
def metricEdges (metric : MetricAsset) : Except MaterializeError (List SemanticEdgeRecord) := do
  let sourceStatus ← C.reported metric.assetId
  let dependencies ← (sortedStr (fromKeys metric.dependencies)).mapM (C.dependencyEdge metric sourceStatus)
  let lineage ← (relationNames (.metric metric)).mapM fun relation => C.lineageEdge metric.assetId relation sourceStatus
  pure (dependencies ++ lineage)

/-- The edge of one metric of a question. -/
def questionEdge (qa : QAAsset) (metricKey : String) : Except MaterializeError SemanticEdgeRecord := do
  let metric ← orRaise (.semanticRelease ("QA metric reference is missing from the materialized release: " ++ metricKey))
    (C.metricsByKey.get? metricKey)
  let source ← C.reported qa.assetId
  let target ← C.reported metric.assetId
  pure (edgeRecord C.sha256 qa.assetId metric.assetId "lineage" (edgeStatus [source, target])
    [("metric_key", .str metricKey), ("relationship", .str "qa_metric")])

/-- The edges of a question. -/
def questionEdges (qa : QAAsset) : Except MaterializeError (List SemanticEdgeRecord) :=
  (sortedStr (fromKeys qa.metricKeys)).mapM (C.questionEdge qa)

/-- The edge of one join of a view. -/
def joinEdge (view : ViewAsset) (viewStatus : AssetStatus) (sourceRelationId : String) (join : JoinDefinition) :
    Except MaterializeError SemanticEdgeRecord := do
  let targetRelationId ← C.requiredRelationId join.table
  raiseIf (sourceRelationId = targetRelationId) ("self joins require distinct relation identities: " ++ view.assetId)
  let source ← C.statusOf sourceRelationId
  let target ← C.statusOf targetRelationId
  pure (edgeRecord C.sha256 sourceRelationId targetRelationId "approved_join" (edgeStatus [viewStatus, source, target])
    [("join_condition", textOrNull join.joinCondition), ("join_type", .str join.joinType), ("source_relation", .str view.sourceRelation),
      ("target_relation", .str join.table), ("using", texts join.usingColumns), ("view_asset_id", .str view.assetId)])

/-- The edges of a view. -/
def viewEdges (view : ViewAsset) : Except MaterializeError (List SemanticEdgeRecord) := do
  let viewStatus ← C.reported view.assetId
  let lineage ← C.lineageEdge view.assetId view.sourceRelation viewStatus
  let sourceRelationId ← C.requiredRelationId view.sourceRelation
  let joins ← view.joins.mapM (C.joinEdge view viewStatus sourceRelationId)
  pure (lineage :: joins)

/-- `_materialize_edges`: an edge that is there already is written again. -/
def materializeEdges (ir : AuthoringIR) : Except MaterializeError (List SemanticEdgeRecord) := do
  let metrics ← (sortBy MetricAsset.assetId ir.metrics).mapM C.metricEdges
  let qas ← (sortBy QAAsset.assetId ir.qas).mapM C.questionEdges
  let views ← (sortBy ViewAsset.assetId ir.views).mapM C.viewEdges
  let edges := Dict.ofList ((metrics.flatten ++ qas.flatten ++ views.flatten).map fun edge => (edge.edgeId, edge))
  pure ((sortBy Prod.fst edges.entries).map Prod.snd)

end EdgeContext

/-! ## The candidate -/

/-- The local variables of the loop over the assets. -/
structure Materialized where
  records : List SemanticAssetRecord := []
  accumulators : Dict String RelationAccumulator := Dict.empty
  statusByAssetId : Dict String AssetStatus := Dict.empty
  ownerByAssetId : Dict String String := Dict.empty

/-- The record of an asset with the status the report gives it. -/
def assetRecord (report : ValidationReport) (asset : AuthoringAsset) (status : AssetStatus) :
    Except MaterializeError SemanticAssetRecord := do
  let owner := governanceValue asset.owner "unassigned"
  let sensitivity := governanceValue asset.sensitivity "unclassified"
  raiseIf (report.ok = true ∧ status = .active ∧ (owner = "unassigned" ∨ sensitivity = "unclassified"))
    ("validated active asset is missing governance metadata: " ++ asset.assetId)
  let content ← assetContent asset
  pure
    { assetId := asset.assetId
      assetType := asset.assetType.value
      status := status.value
      domain := governanceValue (some asset.domain) "unknown"
      owner := owner
      sensitivity := sensitivity
      content := content
      payload := asset.payload status }

/-- One asset of the loop. -/
def materializeAsset (U : UnicodeForms) (report : ValidationReport) (s : Materialized) (asset : AuthoringAsset) :
    Except MaterializeError Materialized := do
  let status ← orRaise .keyError (report.assetStatuses.get? asset.assetId)
  let record ← assetRecord report asset status
  let accumulators ← (relationNames asset).foldlM (registerRelation U record status) s.accumulators
  pure
    { records := s.records ++ [record]
      accumulators := accumulators
      statusByAssetId := s.statusByAssetId.set record.assetId status
      ownerByAssetId := s.ownerByAssetId.set record.assetId record.owner }

/-- The status of each relation over the statuses of the assets. -/
def withRelations (s : Materialized) : Dict String AssetStatus :=
  s.statusByAssetId.update
    ((relationGroups s.accumulators).map fun group => (relationAssetId sha256 group.1, aggregateStatus group.2.statuses))

/-- The record of an issue. -/
def issueRecord (owners : Dict String String) (issue : AuthoringIssue) : SemanticValidationIssueRecord where
  code := issue.code
  severity := issue.severity.value
  message := issue.message
  assetId := if issue.assetId ≠ "" then some issue.assetId else none
  path := issue.path
  owner := (owners.get? issue.assetId).getD "unassigned"

/-- The document of an asset. -/
def documentOf (asset : SemanticAssetRecord) : RegistryDocument where
  documentId := asset.assetId
  metadata := Dict.ofList ([("asset_type", asset.assetType), ("domain", asset.domain), ("owner", asset.owner),
    ("sensitivity", asset.sensitivity), ("status", asset.status)] ++
      match Json.member? "execution_contract" asset.payload with
      | some contract => [("execution_contract", asciiDumps contract)]
      | none => [])
  content := asset.content
  embedding := none

/-- The metrics by their keys, the last of each. -/
def AuthoringIR.metricsByKey (ir : AuthoringIR) : Dict String MetricAsset :=
  Dict.ofList (ir.metrics.map fun metric => (metric.metricKey, metric))

/-- An asset, an alias, an edge and an issue as JSON objects. -/
def SemanticAssetRecord.toJson (asset : SemanticAssetRecord) : Json :=
  .obj [("asset_id", .str asset.assetId), ("asset_type", .str asset.assetType), ("status", .str asset.status),
    ("domain", .str asset.domain), ("owner", .str asset.owner), ("sensitivity", .str asset.sensitivity), ("content", .str asset.content),
    ("payload", .obj asset.payload), ("embedding", .null)]

def SemanticAliasRecord.toJson (record : SemanticAliasRecord) : Json :=
  .obj [("asset_id", .str record.assetId), ("alias", .str record.text), ("normalized_alias", .str record.normalizedAlias),
    ("language", .str record.language)]

def SemanticEdgeRecord.toJson (edge : SemanticEdgeRecord) : Json :=
  .obj [("edge_id", .str edge.edgeId), ("source_asset_id", .str edge.sourceAssetId), ("target_asset_id", .str edge.targetAssetId),
    ("edge_type", .str edge.edgeType), ("status", .str edge.status), ("payload", .obj edge.payload)]

def SemanticValidationIssueRecord.toJson (issue : SemanticValidationIssueRecord) : Json :=
  .obj [("code", .str issue.code), ("severity", .str issue.severity), ("message", .str issue.message),
    ("asset_id", textOrNull issue.assetId), ("path", .str issue.path), ("owner", .str issue.owner), ("details", .null)]

/-- `_release_checksum`. -/
def releaseChecksum (ir : AuthoringIR) (assets : List SemanticAssetRecord) (aliases : List SemanticAliasRecord)
    (edges : List SemanticEdgeRecord) (issues : List SemanticValidationIssueRecord) : String :=
  sha256 (Json.obj [("aliases", .arr (aliases.map SemanticAliasRecord.toJson)), ("assets", .arr (assets.map SemanticAssetRecord.toJson)),
    ("authoring_checksum", .str (ir.checksum sha256)), ("edges", .arr (edges.map SemanticEdgeRecord.toJson)),
    ("parser_version", .str parserVersion), ("schema_version", .int ir.schemaVersion),
    ("validation_issues", .arr (issues.map SemanticValidationIssueRecord.toJson))]).dumps

/-- `sorted((*authoring_assets, *relation_assets), key=lambda item: item.asset_id)`. -/
def releaseAssets (U : UnicodeForms) (sha256 : String → String) (setOrder : List String → List String) (s : Materialized) :
    List SemanticAssetRecord :=
  sortBy SemanticAssetRecord.assetId (s.records ++ relationAssets U sha256 setOrder s.accumulators)

/-- The candidate of what was materialized. -/
def candidateFrom (ir : AuthoringIR) (report : ValidationReport) (owners : Dict String String)
    (assets : List SemanticAssetRecord) (aliases : List SemanticAliasRecord) (edges : List SemanticEdgeRecord) :
    SemanticReleaseCandidate where
  checksum := releaseChecksum sha256 ir assets aliases edges (report.issues.map (issueRecord owners))
  documents := assets.map documentOf
  validationReport := report.toDict
  assets := assets
  aliases := aliases
  edges := edges
  validationIssues := report.issues.map (issueRecord owners)
  schemaVersion := ir.schemaVersion
  parserVersion := parserVersion

/-- `materialize_authoring_ir`. -/
def materializeAuthoringIR (U : UnicodeForms) (sha256 : String → String) (setOrder : List String → List String) (ir : AuthoringIR)
    (report : ValidationReport) : Except MaterializeError SemanticReleaseCandidate := do
  validateAlignment sha256 ir report
  let s ← ir.sortedAssets.foldlM (materializeAsset U report) {}
  let aliases ← materializeAliases U (authoredPushes ir ++ relationPushes U sha256 setOrder s.accumulators)
  let edges ← EdgeContext.materializeEdges
    ⟨U, sha256, report, ir.metricsByKey, relationIds sha256 s.accumulators, withRelations sha256 s⟩ ir
  pure (candidateFrom sha256 ir report s.ownerByAssetId (releaseAssets U sha256 setOrder s) aliases edges)

end Nl2Sql.Authoring
