import Nl2Sql.Lib.Sorting
import Nl2Sql.Planner.Time
import Nl2Sql.Semantic.Registry

/-!
# Semantic authoring

The intermediate representation of `semantic/authoring.py`: metrics, questions and views as their authors wrote them, the payload and the
checksum of a set of them, and the report of its validation.
-/

namespace Nl2Sql.Authoring

open Py

/-! ## Assets -/

inductive AssetType where
  | metric | qa | view
  deriving DecidableEq, Repr

/-- The value of the enumeration. -/
def AssetType.value : AssetType → String
  | .metric => "metric"
  | .qa => "qa"
  | .view => "view"

inductive AssetStatus where
  | active | retired | error
  deriving DecidableEq, Repr

/-- The value of the enumeration. -/
def AssetStatus.value : AssetStatus → String
  | .active => "active"
  | .retired => "retired"
  | .error => "error"

inductive IssueSeverity where
  | error | warning
  deriving DecidableEq, Repr

/-- The value of the enumeration. -/
def IssueSeverity.value : IssueSeverity → String
  | .error => "error"
  | .warning => "warning"

structure AuthoringIssue where
  code : String
  message : String
  assetId : String := ""
  path : String := ""
  severity : IssueSeverity := .error
  deriving DecidableEq

structure MetricAsset where
  assetId : String
  metricKey : String
  displayName : String
  sourceRelation : Option String := none
  status : AssetStatus := .active
  domain : String := "unknown"
  aliases : List String := []
  kind : String := "base"
  dependencies : List String := []
  formula : Option String := none
  calculationTemplateId : Option String := none
  calculationTemplateVersion : Option String := none
  decimalScale : Option Int := none
  rounding : Option String := none
  unit : Option String := none
  nullStrategy : Option String := none
  zeroStrategy : Option String := none
  sourceColumns : List String := []
  owner : Option String := none
  sensitivity : Option String := none
  freshnessSlaSeconds : Option Int := none
  schemaVersion : Int := 3
  sourceLine : Option Int := none
  rawText : String := ""
  legacyMetadataInferred : Bool := false
  /-- the members of a JSON object -/
  executionContract : Option (List (String × Json)) := none

structure QAAsset where
  assetId : String
  caseId : String
  question : String
  sql : String
  status : AssetStatus := .active
  domain : String := "unknown"
  metricKeys : List String := []
  answer : String := ""
  owner : Option String := none
  sensitivity : Option String := none
  freshnessSlaSeconds : Option Int := none
  schemaVersion : Int := 3
  legacyMetadataInferred : Bool := false

structure JoinDefinition where
  table : String
  joinAlias : String
  joinType : String := "left"
  joinCondition : Option String := none
  usingColumns : List String := []

structure ViewAsset where
  assetId : String
  name : String
  sourceRelation : String
  sourceAlias : String
  columns : List String := []
  joins : List JoinDefinition := []
  /-- the members of JSON objects -/
  filters : List (List (String × Json)) := []
  status : AssetStatus := .active
  domain : String := "shared"
  owner : Option String := none
  sensitivity : Option String := none
  freshnessSlaSeconds : Option Int := none
  schemaVersion : Int := 3
  legacyMetadataInferred : Bool := false

inductive AuthoringAsset where
  | metric (asset : MetricAsset)
  | qa (asset : QAAsset)
  | view (asset : ViewAsset)

namespace AuthoringAsset

def assetId : AuthoringAsset → String
  | metric a => a.assetId
  | qa a => a.assetId
  | view a => a.assetId

def assetType : AuthoringAsset → AssetType
  | metric _ => .metric
  | qa _ => .qa
  | view _ => .view

def status : AuthoringAsset → AssetStatus
  | metric a => a.status
  | qa a => a.status
  | view a => a.status

def domain : AuthoringAsset → String
  | metric a => a.domain
  | qa a => a.domain
  | view a => a.domain

def owner : AuthoringAsset → Option String
  | metric a => a.owner
  | qa a => a.owner
  | view a => a.owner

def sensitivity : AuthoringAsset → Option String
  | metric a => a.sensitivity
  | qa a => a.sensitivity
  | view a => a.sensitivity

def freshnessSlaSeconds : AuthoringAsset → Option Int
  | metric a => a.freshnessSlaSeconds
  | qa a => a.freshnessSlaSeconds
  | view a => a.freshnessSlaSeconds

def schemaVersion : AuthoringAsset → Int
  | metric a => a.schemaVersion
  | qa a => a.schemaVersion
  | view a => a.schemaVersion

def legacyMetadataInferred : AuthoringAsset → Bool
  | metric a => a.legacyMetadataInferred
  | qa a => a.legacyMetadataInferred
  | view a => a.legacyMetadataInferred

end AuthoringAsset

/-! ## Payloads -/

/-- A list of texts. -/
def texts (values : List String) : Json := .arr (values.map .str)

/-- A text that may be none. -/
def textOrNull : Option String → Json
  | none => .null
  | some text => .str text

/-- A number that may be none. -/
def intOrNull : Option Int → Json
  | none => .null
  | some n => .int n

mutual

/-- `_canonicalize`: the members of every object in the order of their names. -/
def canonicalize : Json → Json
  | .arr items => .arr (canonicalizeItems items)
  | .obj members => .obj (sortBy Prod.fst (canonicalizeMembers members))
  | value => value

def canonicalizeItems : List Json → List Json
  | [] => []
  | value :: rest => canonicalize value :: canonicalizeItems rest

def canonicalizeMembers : List (String × Json) → List (String × Json)
  | [] => []
  | (name, value) :: rest => (name, canonicalize value) :: canonicalizeMembers rest

end

/-- The members of a metric that `_asset_payload` keeps, without its status. -/
def MetricAsset.members (a : MetricAsset) : List (String × Json) :=
  [("aliases", texts a.aliases), ("asset_id", .str a.assetId), ("asset_type", .str "metric"),
    ("calculation_template_id", textOrNull a.calculationTemplateId),
    ("calculation_template_version", textOrNull a.calculationTemplateVersion), ("decimal_scale", intOrNull a.decimalScale),
    ("dependencies", texts a.dependencies), ("display_name", .str a.displayName), ("domain", .str a.domain)] ++
    (match a.executionContract with
      | none => []
      | some contract => [("execution_contract", .obj contract)]) ++
    [("formula", textOrNull a.formula), ("freshness_sla_seconds", intOrNull a.freshnessSlaSeconds), ("kind", .str a.kind),
      ("metric_key", .str a.metricKey), ("null_strategy", textOrNull a.nullStrategy), ("owner", textOrNull a.owner),
      ("rounding", textOrNull a.rounding), ("schema_version", .int a.schemaVersion), ("sensitivity", textOrNull a.sensitivity),
      ("source_columns", texts a.sourceColumns), ("source_relation", textOrNull a.sourceRelation), ("unit", textOrNull a.unit),
      ("zero_strategy", textOrNull a.zeroStrategy)]

/-- The members of a question that `_asset_payload` keeps, without its status. -/
def QAAsset.members (a : QAAsset) : List (String × Json) :=
  [("answer", .str a.answer), ("asset_id", .str a.assetId), ("asset_type", .str "qa"), ("case_id", .str a.caseId),
    ("domain", .str a.domain), ("freshness_sla_seconds", intOrNull a.freshnessSlaSeconds), ("metric_keys", texts a.metricKeys),
    ("owner", textOrNull a.owner), ("question", .str a.question), ("schema_version", .int a.schemaVersion),
    ("sensitivity", textOrNull a.sensitivity), ("sql", .str a.sql)]

/-- A join as a JSON object. -/
def JoinDefinition.toJson (join : JoinDefinition) : Json :=
  .obj [("alias", .str join.joinAlias), ("join_condition", textOrNull join.joinCondition), ("join_type", .str join.joinType),
    ("table", .str join.table), ("using", texts join.usingColumns)]

/-- The members of a view that `_asset_payload` keeps, without its status. -/
def ViewAsset.members (a : ViewAsset) : List (String × Json) :=
  [("asset_id", .str a.assetId), ("asset_type", .str "view"), ("columns", texts a.columns), ("domain", .str a.domain),
    ("filters", .arr (a.filters.map .obj)), ("freshness_sla_seconds", intOrNull a.freshnessSlaSeconds),
    ("joins", .arr (a.joins.map JoinDefinition.toJson)), ("name", .str a.name), ("owner", textOrNull a.owner),
    ("schema_version", .int a.schemaVersion), ("sensitivity", textOrNull a.sensitivity), ("source_alias", .str a.sourceAlias),
    ("source_relation", .str a.sourceRelation)]

/-- `_asset_payload` with a status, the asset's own or the one a report gives it. -/
def AuthoringAsset.payload (asset : AuthoringAsset) (status : AssetStatus) : List (String × Json) :=
  let members :=
    match asset with
    | .metric a => a.members
    | .qa a => a.members
    | .view a => a.members
  sortBy Prod.fst (("status", .str status.value) :: canonicalizeMembers members)

/-! ## The intermediate representation -/

structure AuthoringIR where
  metrics : List MetricAsset := []
  qas : List QAAsset := []
  views : List ViewAsset := []
  schemaVersion : Int := 3

namespace AuthoringIR

/-- `assets`. -/
def assets (ir : AuthoringIR) : List AuthoringAsset :=
  ir.metrics.map .metric ++ ir.qas.map .qa ++ ir.views.map .view

/-- `sorted(ir.assets, key=lambda item: item.asset_id)`. -/
def sortedAssets (ir : AuthoringIR) : List AuthoringAsset := sortBy AuthoringAsset.assetId ir.assets

/-- `to_payload`. -/
def toPayload (ir : AuthoringIR) : Json :=
  .obj [("schema_version", .int ir.schemaVersion), ("assets", .arr (ir.sortedAssets.map fun asset => .obj (asset.payload asset.status)))]

/-- `checksum`, of the hexadecimal digest `sha256` of a text. -/
def checksum (sha256 : String → String) (ir : AuthoringIR) : String := sha256 (canonicalize ir.toPayload).dumps

end AuthoringIR

/-! ## Reports -/

/-- `ValidationReport`. -/
structure ValidationReport where
  schemaVersion : Int
  checksum : String
  metricHeadingCount : Nat
  qaCount : Nat
  viewCount : Nat
  issues : List AuthoringIssue
  assetStatuses : Dict String AssetStatus
  assetDomains : Dict String String := Dict.empty
  defaultReleaseDomain : String := "complaint"

namespace ValidationReport

variable (report : ValidationReport)

/-- `ok`. -/
def ok : Bool := !report.issues.any fun issue => issue.severity = .error

/-- `error_count` and `warning_count`. -/
def countOf (severity : IssueSeverity) : Nat := report.issues.countP fun issue => issue.severity = severity

/-- `default_release_ready`. -/
def defaultReleaseReady : Bool :=
  !report.issues.any fun issue => issue.assetId ≠ "" ∧ report.assetDomains.get? issue.assetId = some report.defaultReleaseDomain

/-- `status_counts`, of one status. -/
def statusCount (status : AssetStatus) : Nat := report.assetStatuses.values.countP fun other => other = status

/-- An issue as a JSON object. -/
def issueJson (issue : AuthoringIssue) : Json :=
  .obj [("asset_id", .str issue.assetId), ("code", .str issue.code), ("message", .str issue.message), ("path", .str issue.path),
    ("severity", .str issue.severity.value)]

/-- A number of a report. -/
def countJson (n : Nat) : Json := .int n

/-- `to_dict`. -/
def toDict : Nl2Sql.ValidationReport :=
  [("asset_statuses", .obj (sortBy Prod.fst (report.assetStatuses.entries.map fun entry => (entry.1, .str entry.2.value)))),
    ("asset_domains", .obj (sortBy Prod.fst (report.assetDomains.entries.map fun entry => (entry.1, .str entry.2)))),
    ("checksum", .str report.checksum), ("default_release_domain", .str report.defaultReleaseDomain),
    ("default_release_ready", .bool report.defaultReleaseReady), ("error_count", countJson (report.countOf .error)),
    ("issues", .arr (report.issues.map issueJson)), ("metric_heading_count", countJson report.metricHeadingCount),
    ("ok", .bool report.ok), ("qa_count", countJson report.qaCount), ("schema_version", .int report.schemaVersion),
    ("release_candidates", texts (if report.defaultReleaseReady then [report.defaultReleaseDomain] else [])),
    ("status_counts", .obj ([AssetStatus.active, .retired, .error].map fun status => (status.value, countJson (report.statusCount status)))),
    ("validated_domains", texts (sortedStr (fromKeys report.assetDomains.values))), ("view_count", countJson report.viewCount),
    ("warning_count", countJson (report.countOf .warning))]

end ValidationReport

end Nl2Sql.Authoring
