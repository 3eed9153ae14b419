import Nl2Sql.Lemmas.Metric
import Nl2Sql.Lib.SqlAnswers
import Nl2Sql.Theorems.Plan

/-!
# A compiled metric query sees the caller's rows only

Whatever a request asks for, the query compiled for it under an authorization is a function of the rows whose organization column holds
an authorized id: two states of the database that agree on these rows have the same answer, and one answer only.
-/

namespace Nl2Sql

open Py Sql

/-- A row is in the scope of an authorization, by the column that a coverage names. -/
def AuthorizationContext.Sees (authorization : AuthorizationContext) (coverage : OrganizationCoverageBinding) (row : Sql.Row) : Prop :=
  ∃ field ∈ coverage.field, ∃ valueType ∈ coverage.valueType, authorization.Covers valueType (row field)

instance (authorization : AuthorizationContext) (coverage : OrganizationCoverageBinding) (row : Sql.Row) :
    Decidable (authorization.Sees coverage row) :=
  inferInstanceAs (Decidable (∃ field ∈ coverage.field, ∃ valueType ∈ coverage.valueType, authorization.Covers valueType (row field)))

namespace MetricAux

open MetricQueryCompiler SourceRequest

variable {D : MetricDigests} {c : MetricQueryCompiler} {q : CompiledMetricQuery}

/-! ## The order of a compiled query -/

/-- The order of a compiled query names what it groups by. -/
theorem query_determined (S : Dialect) (r : SourceRequest) (dimension : Option (OrganizationCoverageBinding × String))
    (conditions : List Cond) : (r.query dimension conditions).Determined S := by
  intro key hkey
  have hgroup : r.groupKey dimension = some key := hkey
  refine ⟨?_, fun row => ?_⟩
  · unfold groupKey at hgroup
    change key.2 ∈ (r.orderBy dimension).map OrderKey.name
    unfold SourceRequest.orderBy
    split at hgroup
    · rename_i htrend
      cases hgroup
      rw [if_pos htrend]
      exact List.mem_singleton.mpr rfl
    · rename_i htrend
      obtain ⟨pair, rfl, rfl⟩ := Option.map_eq_some_iff.mp hgroup
      rw [if_neg htrend, if_neg (by simp)]
      split <;> simp [OrderKey.name]
  · unfold Query.project SourceRequest.query
    cases r.metric.ratio with
    | none => rfl
    | some ratio =>
      simp only [Option.isSome_some, if_true, hgroup]
      simp [ratioProjection, OutRow.get, RowExpr.eval]

/-! ## The relation of a compiled query -/

/-- The relation of a source is the only one of its name. -/
theorem relation_eq_ok {r : SourceRequest} {found relation : RelationSnapshot} (h : r.relation = .ok found)
    (hmem : relation ∈ r.snapshot.relations) (hid : relation.relationId = r.binding.relationId) : relation = found := by
  obtain ⟨-, -, h⟩ := bind_eq_ok.mp h
  dsimp only at h
  split at h
  · rename_i doc only hdocs hrelations
    cases h
    have hin : relation ∈ r.snapshot.relations.filter fun item => item.relationId = r.binding.relationId :=
      List.mem_filter.mpr ⟨hmem, by simpa using hid⟩
    rw [hrelations] at hin
    exact List.mem_singleton.mp hin
  · nomatch h

/-- What the query of a source under an authorization is made of. -/
theorem compileSource_eq_ok {r : SourceRequest} {reason : SelectionReason} {degradation : List SourceDegradation}
    (h : c.compileSource D r reason degradation = .ok q) {authorization : AuthorizationContext}
    (hauthorization : c.authorization = some authorization) :
    q.sourceId = r.binding.deploymentSourceId ∧ ∃ relation found grouping draft, r.relation = .ok relation ∧
      validateOrganizationCoverage relation = [] ∧
      authorizationCoverage relation.organizationCoverage authorization.scopeLevel = .ok found ∧
      q.query = r.query grouping draft.conditions ∧ q.params = draft.params ∧
      ∀ field, found.field = some field → ∃ valueType ids, found.valueType = some valueType ∧
        (∀ v ∈ ids, authorization.Covers valueType v) ∧ Scoped field ids draft := by
  obtain ⟨-, -, h⟩ := bind_eq_ok.mp h
  obtain ⟨relation, hrelation, h⟩ := bind_eq_ok.mp h
  obtain ⟨_, hchecked, h⟩ := bind_eq_ok.mp h
  obtain ⟨authorized, hauthorized, h⟩ := bind_eq_ok.mp h
  obtain ⟨⟨dimension, filters⟩, -, h⟩ := bind_eq_ok.mp h
  obtain ⟨-, -, h⟩ := bind_eq_ok.mp h
  obtain ⟨-, -, h⟩ := bind_eq_ok.mp h
  obtain ⟨-, -, h⟩ := bind_eq_ok.mp h
  obtain ⟨-, -, h⟩ := bind_eq_ok.mp h
  obtain ⟨start, hscoped, h⟩ := bind_eq_ok.mp h
  obtain ⟨grouping, -, h⟩ := bind_eq_ok.mp h
  obtain ⟨draft, hdraft, h⟩ := bind_eq_ok.mp h
  cases h
  rw [hauthorization] at hauthorized hchecked hscoped
  obtain ⟨found, hfound, hauthorized⟩ := bind_eq_ok.mp hauthorized
  cases hauthorized
  obtain ⟨_, hvalid, -⟩ := bind_eq_ok.mp hchecked
  have hcoverage : validateOrganizationCoverage relation = [] := by
    by_contra hne
    exact rejectIf_eq_ok.mp hvalid ⟨rfl, hne⟩
  refine ⟨rfl, relation, found, grouping, draft, hrelation, hcoverage, hfound, rfl, rfl, fun field hfield => ?_⟩
  obtain ⟨valueType, ids, htype, hcovers, hstart⟩ := authorizationDraft_scoped hfield hscoped
  exact ⟨valueType, ids, htype, hcovers, ((hstart.source r _).dimension grouping).filterDraft hdraft⟩

end MetricAux

open MetricAux

/-- Authorization noninterference. A query that is compiled under an authorization, over a relation whose coverage of the caller's
scope names a column, has exactly one answer in every state, and the same one in two states that agree on the rows of the relation
that the authorization sees. -/
theorem authorization_noninterference (D : MetricDigests) (c : MetricQueryCompiler) (authorization : AuthorizationContext)
    (hauthorization : c.authorization = some authorization) (plan : QueryPlan) (context : ContextBundle) (q : CompiledMetricQuery)
    (hcompiled : c.compile D plan context = .ok q) (binding : RelationBinding) (hbinding : binding ∈ c.bindings)
    (hsource : binding.deploymentSourceId = q.sourceId) (snapshot : SchemaSnapshot)
    (hsnapshot : c.snapshots context.schemaSnapshotId.val = some snapshot) (relation : RelationSnapshot)
    (hrelation : relation ∈ snapshot.relations) (hname : relation.relationId = binding.relationId)
    (coverage : OrganizationCoverageBinding) (hcoverage : coverage ∈ relation.organizationCoverage)
    (hlevel : coverage.scopeLevel = authorization.scopeLevel.text) (hfield : coverage.field.isSome = true) (S : Dialect)
    (db db' : Database)
    (hagree : ((db binding.schemaName binding.relationName).filter (authorization.Sees coverage)).Perm
      ((db' binding.schemaName binding.relationName).filter (authorization.Sees coverage))) :
    ∃ answer, (∀ out, q.query.Answers S q.params db out ↔ out = answer) ∧
      ∀ out, q.query.Answers S q.params db' out ↔ out = answer := by
  obtain ⟨r, -, hr, hread, reason, degradation, hsourced⟩ := compile_eq_ok hcompiled
  obtain ⟨hid, found, authorized, grouping, draft, hfound, hvalid, hauthorized, hquery, hparams, hscoped⟩ :=
    compileSource_eq_ok hsourced hauthorization
  have hsame : binding = r.binding := List.inj_on_of_nodup_map c.bindings_unique hbinding hr (hsource.trans hid)
  subst hsame
  rw [hsnapshot] at hread
  cases hread
  obtain rfl := relation_eq_ok hfound hrelation hname
  obtain rfl := authorizationCoverage_eq hvalid hauthorized hcoverage hlevel
  obtain ⟨field, hfield⟩ := Option.isSome_iff_exists.mp hfield
  obtain ⟨valueType, ids, htype, hcovers, names, hcond, hnames⟩ := hscoped field hfield
  have hvisible : ∀ row, (Cond.isIn (.column field) names).eval S q.params row = .true →
      decide (authorization.Sees coverage row) = true := by
    intro row hrow
    obtain ⟨name, hmem, hvalue, -⟩ := Cond.isIn_eval hrow
    obtain ⟨-, v, hv, hget⟩ := hnames name hmem
    have hrowv : row field = v := by
      rw [paramValue, hparams, hget] at hvalue
      exact hvalue
    exact decide_eq_true ⟨field, hfield, valueType, htype, hrowv ▸ hcovers v hv⟩
  have hkept : (q.query.grouped.kept S q.params db).Perm (q.query.grouped.kept S q.params db') := by
    rw [hquery]
    exact Grouped.kept_perm hcond hvisible hagree
  have hdetermined : q.query.Determined S := hquery ▸ query_determined S r grouping draft.conditions
  obtain ⟨answer, hanswer⟩ := Query.exists_answer_iff hdetermined db
  exact ⟨answer, hanswer, fun out => (Query.answers_congr hkept out).symm.trans (hanswer out)⟩

/-! ## Complaints by team, for one area -/

/-- The definition of the metric. -/
def complaintCount : MetricContract where
  metricKey := ⟨"complaint_count", by decide⟩
  displayName := "Complaints"
  domain := "complaint"
  owner := some "service"
  approver := none
  releaseStatus := .active
  dailyReportEnabled := false
  dailyReportOrder := none
  assistantEnabled := true
  benchmarkEligible := false
  sourceRef := ⟨"complaints", by decide⟩
  formulaVersion := ⟨"v1", by decide⟩
  eligibilityPolicyId := ⟨"eligibility.default", by decide⟩
  ratio := none
  businessTimeColumn := ⟨"created_at", by decide⟩
  supportedGrains := [.day, .month]
  supportedDimensions := [.area, .team]
  predicates := []
  filters := [⟨⟨"channel", by decide⟩, .text⟩]
  requiredPermissions := ["nl2sql:invoke"]
  freshnessSlaSeconds := none
  name_non_empty := by decide
  domain_eq := rfl
  owned := by decide
  report_order := nofun
  grains_valid := by decide
  dimensions_valid := by decide
  filters_unique := by decide
  permissions_valid := by decide
  sla_pos := nofun

/-- The relation of the deployment. -/
def complaintBinding : RelationBinding where
  sourceRef := ⟨"complaints", by decide⟩
  relationAssetId := "relation.complaints"
  schemaName := ⟨"ai", by decide⟩
  relationName := ⟨"complaints", by decide⟩
  allowedColumns := [⟨"created_at", by decide⟩, ⟨"is_valid_for_metrics", Eq.refl true⟩, ⟨"channel", by decide⟩,
    ⟨"area_id", by decide⟩, ⟨"team_id", by decide⟩]
  requiredPermissions := []
  timestampKind := .timestamp
  countColumn := none
  maxDays := 366
  sourceId := none
  aggregate := none
  allowDetailFallback := false
  allowDetailRequired := true
  maxEstimatedRows := 1000000
  bootstrapScanMaxRows := none
  asset_non_empty := by decide
  columns_non_empty := by decide
  days_bounds := by decide
  rows_pos := by decide
  bootstrap_pos := nofun

/-- The coverage of the areas. -/
def areaCoverage : OrganizationCoverageBinding := ⟨"area", some "area_id", some "integer"⟩

/-- The relation in the schema. -/
def complaintRelation : RelationSnapshot where
  relationId := "ai.complaints"
  columns := [⟨"created_at", "timestamp without time zone"⟩, ⟨"is_valid_for_metrics", "boolean"⟩, ⟨"channel", "text"⟩,
    ⟨"area_id", "bigint"⟩, ⟨"team_id", "text"⟩]
  indexes := [⟨["created_at"], none⟩]
  estimatedRows := 2000
  sensitivity := "internal"
  sensitiveColumns := []
  aggregateCoverage := []
  organizationCoverage := [areaCoverage, ⟨"team", some "team_id", some "text"⟩]

/-- The approved schema. -/
def complaintSnapshot : SchemaSnapshot :=
  ⟨salesSnapshot.val, .validated, "9d2f1a70c7d0f3e1b6a4587c2e90d4b3f8a1650e7c3b29d4856fe0a1b2c3d4e5", [complaintRelation]⟩

/-- The active release: the metric and its relation. -/
def complaintRelease : SemanticRelease where
  releaseId := salesRelease.val
  state := .active
  documents :=
    [⟨"metric.complaint_count", Dict.ofList [("status", "active"), ("domain", "complaint"), ("owner", "service"),
        ("execution_contract",
          "\x7b\"metric_key\":\"complaint_count\",\"display_name\":\"Complaints\",\"owner\":\"service\"," ++
          "\"release_status\":\"active\",\"source_ref\":\"complaints\",\"formula_version\":\"v1\"," ++
          "\"eligibility_policy_id\":\"eligibility.default\",\"business_time_column\":\"created_at\"," ++
          "\"supported_dimensions\":[\"area\",\"team\"],\"filters\":[\x7b\"field\":\"channel\",\"value_type\":\"text\"\x7d]," ++
          "\"required_permissions\":[\"nl2sql:invoke\"]\x7d")]⟩,
      ⟨"relation.complaints", Dict.ofList [("status", "active"), ("asset_type", "relation")]⟩]
  schemaSnapshotId := some salesSnapshot.val
  schemaSnapshotChecksum := some "9d2f1a70c7d0f3e1b6a4587c2e90d4b3f8a1650e7c3b29d4856fe0a1b2c3d4e5"

/-- The caller may see one area. -/
def areaAuthorization : AuthorizationContext := ⟨⟨"rev-1", by decide⟩, true, .area, ["7"], by decide, by decide⟩

/-- The compiler of the request. -/
def complaintCompiler : MetricQueryCompiler where
  bindings := [complaintBinding]
  policies := [⟨⟨"eligibility.default", by decide⟩, []⟩]
  identity := ⟨["nl2sql:invoke"]⟩
  authorization := some areaAuthorization
  expectedRevision := none
  active := some complaintRelease
  snapshots id := if id = salesSnapshot.val then some complaintSnapshot else none
  freshness _ := none
  clock := some 63905155200000000
  parseContract _ := some complaintCount
  instant localTime := localTime - 28800000000
  bindings_unique := by decide
  policies_unique := by decide

/-- Complaints of January 2026 through the app, by team. -/
def complaintPlan : QueryPlan :=
  { januaryPlan "metric.complaint_count" (by decide) with
    intent := .comparison
    domain := ⟨"complaint", by decide⟩
    dimensions := ["team"]
    filters := [⟨⟨"channel", by decide⟩, .eq, some (.str "app"), .user, ⟨_, rfl⟩⟩]
    dimensions_length := by decide
    dimensions_valid := by decide
    filters_length := Nat.le_of_ble_eq_true rfl
    limit_ranking := fun _ => rfl
    dates_trend := fun h => absurd rfl h }

/-- The context of the request. -/
def complaintContext : ContextBundle :=
  { salesContext with
    domains := ["complaint"]
    assetIds := ["metric.complaint_count"]
    approvedRelationIds := ["relation.complaints"]
    domains_length := by decide
    assets_length := by decide
    relations_length := by decide
    all_valid := by decide }

/-- The digests at the contracts of the request. -/
def complaintDigests : MetricDigests :=
  { salesDigests with
    queryPlan := fun _ => ⟨"2d6ae29362e040ddc77f0fc43811442e2fbeef00f21c2e5ca06373ca2b9a08de", isSha256_ofList rfl⟩
    context := fun _ => ⟨"7c6e9668898967071a5d9f0d471ce61b86bc84de0863b30b2aea097cd1beb011", isSha256_ofList rfl⟩
    metric := fun _ => ⟨"638fcb92bff0b6cbb31dfc2398324933b6157b1d223dea8bc087951b0f694531", isSha256_ofList rfl⟩
    eligibility := fun _ => ⟨"e39f49665df4b13a2f29c78667b872b75e3d5e946e09ce04ac885afe384936ef", isSha256_ofList rfl⟩
    signature := fun _ => ⟨"6fcc9c996431eaf2e68a8c41d5bd9a0282f2b6e67e8589c520b2cf649c2fc721", isSha256_ofList rfl⟩ }

/-- A complaint of one area and one team. -/
def complaintRow (area : Int) (team : String) : Sql.Row
  | "created_at" => .timestamp 63904032000000000
  | "is_valid_for_metrics" => .bool true
  | "channel" => .text "app"
  | "area_id" => .int area
  | "team_id" => .text team
  | _ => .null

/-- The functions of the database, on the values of the request: no summer time, days and sums that are not negative. -/
def complaintDialect : Dialect where
  atTimeZone _ t := t + 28800000000
  dateTrunc _ t := t - t % dayMicros
  date t := t / dayMicros
  bigint q := if (q + 1 / 2).floor < 2 ^ 63 then some (q + 1 / 2).floor else none
  percent n d := ((10000 * n / d + 1 / 2 : ℚ).floor : ℚ) / 100

/-- The query for the complaints by team is compiled, and complaints of other areas do not change its answer. -/
theorem authorization_noninterference_complaints :
    match complaintCompiler.compile complaintDigests complaintPlan complaintContext with
    | .ok q => ∃ answer,
        (∀ out, q.query.Answers complaintDialect q.params (fun _ _ => [complaintRow 7 "north", complaintRow 8 "south"]) out ↔
          out = answer) ∧
        ∀ out, q.query.Answers complaintDialect q.params (fun _ _ => [complaintRow 9 "north", complaintRow 7 "north"]) out ↔
          out = answer
    | .error _ => False := by
  have hcompiled : ((complaintCompiler.compile complaintDigests complaintPlan complaintContext).toOption.map (·.sourceId)) =
      some complaintBinding.deploymentSourceId := by decide +kernel
  have hseen : areaAuthorization.Sees areaCoverage (complaintRow 7 "north") := by decide +kernel
  have hsouth : ¬ areaAuthorization.Sees areaCoverage (complaintRow 8 "south") := by decide +kernel
  have hnorth : ¬ areaAuthorization.Sees areaCoverage (complaintRow 9 "north") := by decide +kernel
  split
  · rename_i q hq
    rw [hq] at hcompiled
    refine authorization_noninterference complaintDigests complaintCompiler areaAuthorization rfl complaintPlan complaintContext q hq
      complaintBinding (List.mem_singleton.mpr rfl) (Option.some.inj hcompiled).symm complaintSnapshot rfl complaintRelation
      (List.mem_singleton.mpr rfl) rfl areaCoverage List.mem_cons_self rfl rfl complaintDialect _ _ ?_
    simp [hseen, hsouth, hnorth]
  · rename_i e he
    rw [he] at hcompiled
    nomatch hcompiled

end Nl2Sql
