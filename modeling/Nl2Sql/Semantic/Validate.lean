import Mathlib.Data.List.Infix
import Nl2Sql.Lib.DepthFirst
import Nl2Sql.Semantic.Materialize

/-!
# Validating an authored set

`validate_authoring_ir` of `semantic/authoring.py`: what it finds in the metadata, the metrics, the views and the questions of an authored
set, and in the graph of its dependencies. `sqlglot` and the policy of the gateway are arguments, with the classes of characters that a
regular expression asks for. A set is the list of its elements.
-/

namespace Nl2Sql.Authoring

open Py

/-- What validation reads of a parsed query: the names of its common table expressions, its tables with the names they go by, and its
columns with the names of their tables. -/
structure ParsedQuery where
  ctes : List String
  tables : List (String × String)
  columns : List (String × String)

/-- What validation calls of other packages and of Python. -/
structure AuthoringTools where
  forms : UnicodeForms
  /-- white space has no words in any form -/
  forms_blank : ∀ value, isBlank value = true → forms.normalize value = ""
  /-- `hashlib.sha256(text).hexdigest()` -/
  digest : String → Sha256
  /-- the characters of `\w` -/
  isWord : Char → Bool
  /-- `str.lower` -/
  lower : String → String
  /-- `sqlglot.parse_one`, or the type of its exception -/
  parseOne : String → Except String ParsedQuery
  /-- `PolicyEngine().prepare`, or the type and the text of its exception -/
  prepare : String → Except (String × String) Unit

/-- The digest of a text, as a text. -/
def AuthoringTools.sha256 (T : AuthoringTools) (text : String) : String := (T.digest text).val

/-! ## Regular expressions -/

/-- An identifier of two classes of characters at the start of a text, and what follows it. -/
def takeIdentifier (head tail : Char → Bool) : List Char → Option (String × List Char)
  | [] => none
  | c :: cs => if head c then some (String.ofList (c :: cs.takeWhile tail), cs.dropWhile tail) else none

/-- `[A-Za-z_]`. -/
def identifierHead (c : Char) : Bool := isLowerAscii c || isUpperAscii c || c == '_'

/-- `[A-Za-z0-9_]`. -/
def identifierTail (c : Char) : Bool := identifierHead c || isDigitAscii c

/-- `_QUALIFIED_IDENTIFIER_RE` at the start of a text, and the length of its match. -/
def qualifiedAt (isWord : Char → Bool) (cs : List Char) : Option ((String × String) × Nat) :=
  match takeIdentifier identifierHead identifierTail cs with
  | some (table, '.' :: rest) =>
    match takeIdentifier identifierHead identifierTail rest with
    | some (column, rest) =>
      if rest.head?.any isWord then none else some ((table, column), table.length + 1 + column.length)
    | none => none
  | _ => none

/-- The matches of `_QUALIFIED_IDENTIFIER_RE` in what follows a character; `skip` characters of a match are still to come. -/
def qualifiedRefsFrom (isWord : Char → Bool) : Nat → Option Char → List Char → List (String × String)
  | _, _, [] => []
  | skip + 1, _, c :: cs => qualifiedRefsFrom isWord skip (some c) cs
  | 0, before, c :: cs =>
    match if before.any isWord then none else qualifiedAt isWord (c :: cs) with
    | some (ref, length) => ref :: qualifiedRefsFrom isWord (length - 1) (some c) cs
    | none => qualifiedRefsFrom isWord 0 (some c) cs

/-- `_qualified_refs`. -/
def qualifiedRefs (isWord : Char → Bool) (value : String) : List (String × String) := qualifiedRefsFrom isWord 0 none value.toList

/-- The letters beyond ASCII that `re.IGNORECASE` takes for one of ASCII. -/
def ignoresCaseTo (c : Char) : Bool := [0x130, 0x131, 0x17f, 0x212a].contains c.toNat

/-- `AS\s+([A-Za-z_][A-Za-z0-9_]*)\s*$` at the start of a text, without regard to case. -/
def outputNameAt : List Char → Option String
  | a :: s :: space :: rest =>
    if (a == 'a' || a == 'A') && (s == 's' || s == 'S' || s.toNat == 0x17f) && isSpace space then
      match takeIdentifier (fun c => identifierHead c || ignoresCaseTo c) (fun c => identifierTail c || ignoresCaseTo c)
          (rest.dropWhile isSpace) with
      | some (name, after) => if after.all isSpace then some name else none
      | none => none
    else none
  | _ => none

/-- The first match of the same in what follows a character, at the start of a word. -/
def outputNameFrom (isWord : Char → Bool) : Option Char → List Char → Option String
  | _, [] => none
  | before, c :: cs =>
    (if before.any isWord then none else outputNameAt (c :: cs)).or (outputNameFrom isWord (some c) cs)

/-- `_column_output_name`. -/
def columnOutputName (isWord : Char → Bool) (expression : String) : Option String :=
  (outputNameFrom isWord none expression.toList).or ((qualifiedRefs isWord expression).getLast?.map Prod.snd)

/-- `_LEGACY_SHORTHAND_RE.search`. -/
def hasLegacyShorthand (text : String) : Bool :=
  ["同上", "命名规律同上", "按上述", "依此类推", "同前"].any fun phrase => decide (phrase.toList <:+: text.toList)

/-! ## The catalog of relations -/

/-- `RelationCatalog`: the columns of the relations by their normalized names. -/
abbrev RelationCatalog : Type := Dict String (List String)

namespace RelationCatalog

/-- `has_relation`. -/
def hasRelation (U : UnicodeForms) (catalog : RelationCatalog) (relation : String) : Bool :=
  (catalog.get? (normalizeRelation U relation)).isSome

/-- `has_column`. -/
def hasColumn (U : UnicodeForms) (catalog : RelationCatalog) (relation column : String) : Bool :=
  match catalog.get? (normalizeRelation U relation) with
  | none => true
  | some known => known.contains column

/-- `setdefault(relation, set()).update(columns)`. -/
def addColumns (catalog : RelationCatalog) (relation : String) (columns : List String) : RelationCatalog :=
  catalog.set relation (columns.foldl setAdd ((catalog.get? relation).getD []))

/-- `with_external_columns`. -/
def withExternalColumns (U : UnicodeForms) (catalog : RelationCatalog) (external : List (String × List String)) : RelationCatalog :=
  catalog.update (external.map fun relation => (normalizeRelation U relation.1, fromKeys relation.2))

end RelationCatalog

variable (T : AuthoringTools)

/-- The first lines of a join in `_build_relation_catalog`, and the columns its condition names. -/
def catalogJoin (declared : List String) (s : RelationCatalog × Dict String String) (join : JoinDefinition) :
    RelationCatalog × Dict String String :=
  let relation := normalizeRelation T.forms join.table
  let catalog := if relation ∈ declared then s.1.addColumns relation [] else s.1
  let aliases := if join.joinAlias ≠ "" then s.2.set join.joinAlias relation else s.2
  ((qualifiedRefs T.isWord (join.joinCondition.getD "")).foldl
    (fun catalog ref => catalog.addColumns ((aliases.get? ref.1).getD "") [ref.2]) catalog, aliases)

/-- One view of `_build_relation_catalog`. -/
def catalogView (declared : List String) (catalog : RelationCatalog) (view : ViewAsset) : RelationCatalog :=
  let source := normalizeRelation T.forms view.sourceRelation
  let catalog := if source ≠ "" then catalog.addColumns source [] else catalog
  let aliases : Dict String String := if view.sourceAlias ≠ "" then Dict.empty.set view.sourceAlias source else Dict.empty
  let (catalog, aliases) := view.joins.foldl (catalogJoin T declared) (catalog, aliases)
  let catalog := (view.columns.flatMap (qualifiedRefs T.isWord)).foldl (fun catalog ref =>
    match aliases.get? ref.1 with
    | some relation => if relation ∈ declared then catalog.addColumns relation [ref.2] else catalog
    | none => catalog) catalog
  catalog.addColumns (normalizeRelation T.forms view.name)
    ((view.columns.filterMap (columnOutputName T.isWord)).filter (· ≠ ""))

/-- `_build_relation_catalog`. -/
def buildRelationCatalog (views : List ViewAsset) : RelationCatalog :=
  let viewNames := ((views.map ViewAsset.name).filter (· ≠ "")).map (normalizeRelation T.forms)
  let sources := ((views.map ViewAsset.sourceRelation).filter (· ≠ "")).map (normalizeRelation T.forms)
  let catalog := views.foldl (catalogView T (sources ++ viewNames)) Dict.empty
  let named : RelationCatalog := Dict.ofList (catalog.entries.filter fun entry => entry.1 ≠ "")
  viewNames.foldl (fun catalog name => catalog.addColumns name []) named

/-! ## Metadata -/

/-- The issue of a field that an asset does not fill. -/
def missingField (assetId : String) (subject field code : String) : AuthoringIssue where
  code := code
  message := subject ++ " requires " ++ field
  assetId := assetId
  path := field

/-- `value is None or value == ""`. -/
def isMissing (value : Option String) : Bool := value == none || value == some ""

/-- The metadata of one asset. -/
def assetMetadataIssues (asset : AuthoringAsset) : List AuthoringIssue :=
  if asset.status ≠ .active then []
  else
    failIf (isMissing asset.owner) (missingField asset.assetId "active asset" "owner" "missing_owner") ++
      failIf (isMissing asset.sensitivity) (missingField asset.assetId "active asset" "sensitivity" "missing_sensitivity") ++
      failIf (asset.freshnessSlaSeconds = none)
        (missingField asset.assetId "active asset" "freshness_sla_seconds" "missing_freshness") ++
      failIf (asset.legacyMetadataInferred = true)
        { code := "legacy_metadata_inferred"
          message := "owner/sensitivity/freshness were inferred for a legacy asset; fill the v3 template before release"
          assetId := asset.assetId
          path := "metadata"
          severity := .warning }

/-- `_validate_metadata`. -/
def validateMetadata (assets : List AuthoringAsset) : List AuthoringIssue := assets.flatMap assetMetadataIssues

/-! ## Metrics -/

/-- The fields that an active derived metric fills. -/
def derivedIssues (metric : MetricAsset) : List AuthoringIssue :=
  let missing (field code : String) : AuthoringIssue := missingField metric.assetId "active derived metric" field code
  failIf (isMissing metric.formula) (missing "formula" "missing_formula") ++
    failIf (isMissing metric.calculationTemplateId) (missing "calculation_template_id" "missing_template") ++
    failIf (isMissing metric.calculationTemplateVersion) (missing "calculation_template_version" "missing_template_version") ++
    failIf (metric.decimalScale = none) (missing "decimal_scale" "missing_precision") ++
    failIf (isMissing metric.rounding) (missing "rounding" "missing_rounding") ++
    failIf (isMissing metric.unit) (missing "unit" "missing_unit") ++
    failIf (isMissing metric.nullStrategy) (missing "null_strategy" "missing_null_strategy") ++
    failIf (isMissing metric.zeroStrategy) (missing "zero_strategy" "missing_zero_strategy")

variable (catalog : RelationCatalog)

/-- The source relation of an active metric, and the columns it names. -/
def sourceIssues (metric : MetricAsset) : List AuthoringIssue :=
  let relation := metric.sourceRelation.getD ""
  (if relation = "" then
    [{ code := "missing_source_relation", message := "active metric requires source_relation", assetId := metric.assetId,
       path := "source_relation" }]
  else
    failIf (catalog.hasRelation T.forms relation = false)
      { code := "unknown_relation", message := "source relation does not exist in the view catalog: " ++ relation,
        assetId := metric.assetId, path := "source_relation" }) ++
  metric.sourceColumns.flatMap fun column =>
    failIf (relation ≠ "" ∧ catalog.hasColumn T.forms relation column = false)
      { code := "unknown_column", message := "source column does not exist: " ++ relation ++ "." ++ column, assetId := metric.assetId,
        path := "source_columns" }

/-- One metric of `_validate_metrics`. -/
def metricIssues (metric : MetricAsset) : List AuthoringIssue :=
  if metric.metricKey = "" then
    [{ code := "missing_metric_key", message := "metric key is required", assetId := metric.assetId }]
  else if metric.status ≠ .active then []
  else
    failIf (hasLegacyShorthand metric.rawText = true)
        { code := "implicit_shorthand", message := "active metric must spell out every dimension and time variant",
          assetId := metric.assetId, path := "raw_text" } ++
      sourceIssues T catalog metric ++ if T.lower metric.kind ∈ ["derived", "kpi"] then derivedIssues metric else []

/-- `_validate_metrics`. -/
def validateMetrics (metrics : List MetricAsset) (catalog : RelationCatalog) : List AuthoringIssue :=
  metrics.flatMap (metricIssues T catalog)

/-! ## Views -/

/-- `_alias_relation`. -/
def aliasRelation (view : ViewAsset) (name : String) : String :=
  if name = view.sourceAlias then view.sourceRelation
  else ((view.joins.find? fun join => join.joinAlias = name).map JoinDefinition.table).getD name

/-- A column that a view names, under an alias of the view or not. -/
def referenceIssues (view : ViewAsset) (aliases : List String) (unknownAlias unknownColumn path : String)
    (ref : String × String) : List AuthoringIssue :=
  if ref.1 ∉ aliases then
    [{ code := "unknown_relation", message := unknownAlias ++ ref.1, assetId := view.assetId, path := path }]
  else
    failIf (catalog.hasRelation T.forms (aliasRelation view ref.1) = true ∧
        catalog.hasColumn T.forms (aliasRelation view ref.1) ref.2 = false)
      { code := "unknown_column", message := unknownColumn ++ ref.1 ++ "." ++ ref.2, assetId := view.assetId, path := path }

/-- One join of a view, with the aliases before it; the aliases after it are the second. -/
def joinIssues (view : ViewAsset) (aliases : List String) (join : JoinDefinition) :
    List AuthoringIssue × List String :=
  let illegal (message : String) : AuthoringIssue :=
    { code := "illegal_join", message := message, assetId := view.assetId, path := "joins" }
  let next := setAdd aliases join.joinAlias
  (failIf (T.lower join.joinType ∉ ["inner", "left", "right", "full"]) (illegal ("join type is not allowed: " ++ join.joinType)) ++
    failIf (join.table = "" ∨ join.joinAlias = "") (illegal "every join requires table and alias") ++
    failIf (join.joinCondition.getD "" = "" ∧ join.usingColumns = []) (illegal "join must declare join_condition or using") ++
    failIf (join.joinAlias ∈ aliases)
      { code := "duplicate_relation_alias", message := "relation alias is duplicated: " ++ join.joinAlias, assetId := view.assetId,
        path := "joins" } ++
    failIf (join.table ≠ "" ∧ catalog.hasRelation T.forms join.table = false)
      { code := "unknown_relation", message := "joined relation does not exist in the view catalog: " ++ join.table,
        assetId := view.assetId, path := "joins" } ++
    (qualifiedRefs T.isWord (join.joinCondition.getD "")).flatMap
      (referenceIssues T catalog view next "join references unknown alias: " "join column does not exist: " "joins.join_condition"),
    next)

/-- The joins of a view, one after another. -/
def joinsIssues (catalog : RelationCatalog) (view : ViewAsset) : List String → List JoinDefinition → List AuthoringIssue × List String
  | aliases, [] => ([], aliases)
  | aliases, join :: joins =>
    let first := joinIssues T catalog view aliases join
    let rest := joinsIssues catalog view first.2 joins
    (first.1 ++ rest.1, rest.2)

/-- One column of a view. -/
def columnIssues (view : ViewAsset) (aliases : List String) (expression : String) : List AuthoringIssue :=
  let refs := qualifiedRefs T.isWord expression
  failIf (refs = [] ∧ isBlank expression = true)
      { code := "missing_view_column", message := "view column cannot be empty", assetId := view.assetId, path := "columns" } ++
    refs.flatMap
      (referenceIssues T catalog view aliases "view column references unknown alias: " "view column does not exist: " "columns")

/-- One view of `_validate_views`. -/
def viewIssues (view : ViewAsset) : List AuthoringIssue :=
  if view.status ≠ .active then []
  else
    let joins := joinsIssues T catalog view (if view.sourceAlias ≠ "" then [view.sourceAlias] else []) view.joins
    failIf (view.name = "") { code := "missing_view_name", message := "view name is required", assetId := view.assetId } ++
      failIf (view.sourceRelation = "")
        { code := "missing_source_relation", message := "view source_table is required", assetId := view.assetId } ++
      failIf (view.sourceAlias = "")
        { code := "missing_source_alias", message := "view source_alias is required", assetId := view.assetId } ++
      joins.1 ++ view.columns.flatMap (columnIssues T catalog view joins.2)

/-- `_validate_views`. -/
def validateViews (views : List ViewAsset) (catalog : RelationCatalog) : List AuthoringIssue := views.flatMap (viewIssues T catalog)

/-! ## Questions -/

/-- The tables of a query: the names they go by, and the relations among them that the catalog does not have. -/
def tableAliases (parsed : ParsedQuery) : Dict String String := Dict.ofList (parsed.tables.map fun table => (table.2, table.1))

/-- `_validate_query_catalog`. -/
def validateQueryCatalog (parsed : ParsedQuery) (assetId : String) (catalog : RelationCatalog) : List AuthoringIssue :=
  (parsed.tables.flatMap fun table =>
    failIf (table.1 ∉ parsed.ctes ∧ catalog.hasRelation T.forms table.1 = false)
      { code := "unknown_relation", message := "QA SQL references an unknown relation: " ++ table.1, assetId := assetId, path := "sql" }) ++
  parsed.columns.flatMap fun column =>
    let named := ((tableAliases parsed).get? column.1).getD ""
    let relation := if named = "" then column.1 else named
    failIf (column.1 ≠ "" ∧ catalog.hasRelation T.forms relation = true ∧ catalog.hasColumn T.forms relation column.2 = false)
      { code := "unknown_column", message := "QA SQL references an unknown column: " ++ column.1 ++ "." ++ column.2, assetId := assetId,
        path := "sql" }

/-- The policy of the gateway on the query of a question. -/
def preflightIssues (qa : QAAsset) : List AuthoringIssue :=
  match T.prepare qa.sql with
  | .ok _ => []
  | .error (type, text) =>
    [{ code := if "join".toList <:+: (T.lower text).toList then "illegal_join" else "qa_preflight_failed"
       message := "active QA SQL failed QueryGateway preflight: " ++ type, assetId := qa.assetId, path := "sql" }]

/-- One question of `_validate_qas`. -/
def questionIssues (qa : QAAsset) : List AuthoringIssue :=
  if qa.status ≠ .active then []
  else
    failIf (qa.caseId = "") { code := "missing_case_id", message := "active QA requires case_id", assetId := qa.assetId } ++
      if qa.sql = "" then
        [{ code := "missing_sql", message := "active QA requires SQL", assetId := qa.assetId, path := "sql" }]
      else
        match T.parseOne qa.sql with
        | .error type =>
          [{ code := "qa_sql_parse_failed", message := "SQLGlot could not parse active QA SQL: " ++ type, assetId := qa.assetId,
             path := "sql" }]
        | .ok parsed => preflightIssues T qa ++ validateQueryCatalog T parsed qa.assetId catalog

/-- `_validate_qas`. -/
def validateQAs (qas : List QAAsset) (catalog : RelationCatalog) : List AuthoringIssue := qas.flatMap (questionIssues T catalog)

/-! ## Dependencies -/

/-- `graph`: the dependencies of the active metrics by their keys. -/
def dependencyGraph (metrics : List MetricAsset) : Dict String (List String) :=
  Dict.ofList ((metrics.filter fun metric => metric.metricKey ≠ "" ∧ metric.status = .active).map fun metric =>
    (metric.metricKey, fromKeys metric.dependencies))

/-- The dependencies of an active metric that no metric has the key of. -/
def unknownDependencies (metrics : List MetricAsset) (metric : MetricAsset) : List AuthoringIssue :=
  if metric.metricKey = "" ∨ metric.status ≠ .active then []
  else
    (fromKeys metric.dependencies).flatMap fun dependency =>
      failIf (dependency ∉ (metrics.map MetricAsset.metricKey).filter (· ≠ ""))
        { code := "unknown_metric_dependency", message := "metric dependency does not exist: " ++ dependency, assetId := metric.assetId,
          path := "dependencies" }

/-- The issue of a cycle, that is come to along a path. -/
def cycleIssue (metrics : List MetricAsset) (cycle : List String × String) : AuthoringIssue where
  code := "formula_dependency_cycle"
  message := "formula dependency cycle detected: " ++ " -> ".intercalate (cycle.1 ++ [cycle.2])
  assetId :=
    match metrics.find? fun metric => metric.metricKey = cycle.2 with
    | some metric => metric.assetId
    | none => "metric." ++ cycle.2
  path := "dependencies"

/-- `_validate_dependency_graph`. -/
def validateDependencyGraph (metrics : List MetricAsset) : List AuthoringIssue :=
  let graph := dependencyGraph metrics
  metrics.flatMap (unknownDependencies metrics) ++
    (Search.visitAll graph (sortedStr graph.keys)).cycles.map (cycleIssue metrics)

/-! ## Names -/

/-- The names seen so far, with the metrics they are of, and the issues found. -/
structure SeenNames where
  keys : Dict String String := Dict.empty
  aliases : Dict String String := Dict.empty
  issues : List AuthoringIssue := []

/-- One alias of a metric with a normalized key. -/
def checkAlias (metric : MetricAsset) (key : String) (s : SeenNames) (name : String) : SeenNames :=
  let token := T.forms.normalize name
  if token = "" ∨ token = key then s
  else
    let seen := (s.aliases.get? token).getD ""
    let previous := if seen = "" then (s.keys.get? token).getD "" else seen
    if previous ≠ "" ∧ previous ≠ metric.assetId then
      { s with issues := s.issues ++ [{ code := "duplicate_metric_alias", message := "metric alias duplicates " ++ previous,
                                        assetId := metric.assetId, path := "aliases" }] }
    else { s with aliases := s.aliases.set token metric.assetId }

/-- The key of a metric. -/
def checkKey (metric : MetricAsset) (key : String) (s : SeenNames) : SeenNames :=
  if key = "" then s
  else
    match s.keys.get? key with
    | some first =>
      { s with issues := s.issues ++ [{ code := "duplicate_metric_key", message := "metric key duplicates " ++ first,
                                        assetId := metric.assetId, path := "metric_key" }] }
    | none => { s with keys := s.keys.set key metric.assetId }

/-- One metric of `_duplicate_metric_issues`. -/
def checkNames (s : SeenNames) (metric : MetricAsset) : SeenNames :=
  let key := T.forms.normalize metric.metricKey
  metric.aliases.foldl (checkAlias T metric key) (checkKey metric key s)

/-- `_duplicate_metric_issues`. -/
def duplicateMetricIssues (metrics : List MetricAsset) : List AuthoringIssue := (metrics.foldl (checkNames T) {}).issues

/-! ## The report -/

/-- The issues of the schema versions. -/
def schemaVersionIssues (ir : AuthoringIR) : List AuthoringIssue :=
  failIf (ir.schemaVersion ≠ 3) { code := "schema_version_mismatch", message := "IR schema_version must be 3" } ++
    ir.assets.flatMap fun asset =>
      failIf (asset.schemaVersion ≠ 3)
        { code := "schema_version_mismatch", message := "asset schema_version must be 3", assetId := asset.assetId,
          path := "schema_version" }

/-- The issues of an authored set, in the order they are found. -/
def foundIssues (external : List (String × List String)) (ir : AuthoringIR) : List AuthoringIssue :=
  let catalog := (buildRelationCatalog T ir.views).withExternalColumns T.forms external
  schemaVersionIssues ir ++ duplicateMetricIssues T ir.metrics ++ validateMetadata ir.assets ++ validateMetrics T ir.metrics catalog ++
    validateViews T ir.views catalog ++ validateQAs T ir.qas catalog ++ validateDependencyGraph ir.metrics

/-- `_sort_issues`. -/
def sortIssues (issues : List AuthoringIssue) : List AuthoringIssue :=
  sortBy (fun issue => [issue.assetId, issue.path, issue.code, issue.severity.value, issue.message]) issues

/-- `error_asset_ids`. -/
def errorAssetIds (issues : List AuthoringIssue) : List String :=
  ((issues.filter fun issue => issue.severity = .error).map AuthoringIssue.assetId).filter (· ≠ "")

/-- `validate_authoring_ir`, with the columns of the relations outside the views. -/
def validateAuthoringIR (external : List (String × List String)) (ir : AuthoringIR) : ValidationReport :=
  let issues := sortIssues (foundIssues T external ir)
  { schemaVersion := ir.schemaVersion
    checksum := ir.checksum T.sha256
    metricHeadingCount := (fromKeys (ir.metrics.map fun metric => (metric.sourceLine, metric.displayName))).length
    qaCount := ir.qas.length
    viewCount := ir.views.length
    issues := issues
    assetStatuses := Dict.ofList (ir.assets.map fun asset =>
      (asset.assetId, if asset.assetId ∈ errorAssetIds issues then .error else asset.status))
    assetDomains := Dict.ofList (ir.assets.map fun asset => (asset.assetId, asset.domain)) }

end Nl2Sql.Authoring
