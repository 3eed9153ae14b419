import Nl2Sql.Lemmas.Candidate

/-!
# Lemmas about the edges of a candidate

When the edges of a set are made, and which of them are accepted: all but dependencies of a metric on itself. Of edges with one id the last
is kept, so that such a dependency is lost where another has its id.
-/

namespace Nl2Sql.Authoring

open Py

/-- The dependencies of one metric that are metrics of a set. -/
def AuthoringIR.dependenciesOf (ir : AuthoringIR) (metric : MetricAsset) : List (MetricAsset × MetricAsset) :=
  (sortedStr (fromKeys metric.dependencies)).filterMap fun key => (ir.metricsByKey.get? key).map fun dependency => (metric, dependency)

/-- The edge of a dependency, with a status. -/
def dependencyRecord (sha256 : String → String) (status : String) (pair : MetricAsset × MetricAsset) : SemanticEdgeRecord :=
  edgeRecord sha256 pair.1.assetId pair.2.assetId "metric_dependency" status
    [("source_metric_key", .str pair.1.metricKey), ("target_metric_key", .str pair.2.metricKey)]

/-- The id of the edge of a dependency. -/
def dependencyId (sha256 : String → String) (pair : MetricAsset × MetricAsset) : String := (dependencyRecord sha256 "" pair).edgeId

/-- The dependencies of a set by the ids of their edges: of those with one id the last. -/
def AuthoringIR.dependenciesById (sha256 : String → String) (ir : AuthoringIR) : Dict String (MetricAsset × MetricAsset) :=
  Dict.ofList (((sortBy MetricAsset.assetId ir.metrics).flatMap ir.dependenciesOf).map fun pair => (dependencyId sha256 pair, pair))

namespace ReleaseAux

open MaterializeAux

variable {ir : AuthoringIR}

/-! ## Edges -/

theorem edgeStatus_mem (statuses : List AssetStatus) : edgeStatus statuses ∈ edgeStatuses := by
  unfold edgeStatus
  split
  · decide
  · split <;> decide

/-- What the edges of a set are made from. -/
structure EdgeFacts (ir : AuthoringIR) (C : EdgeContext) : Prop where
  metrics : C.metricsByKey = ir.metricsByKey
  reported : ∀ asset ∈ ir.assets, C.report.assetStatuses.get? asset.assetId = some asset.status
  relation : ∀ asset ∈ ir.assets, ∀ name ∈ relationNames asset,
    C.relationIds.get? (normalizeRelation C.forms name) = some (relationAssetId C.sha256 (normalizeRelation C.forms name))
  status : ∀ asset ∈ ir.assets, ∀ name ∈ relationNames asset,
    ∃ status, C.statusByAssetId.get? (relationAssetId C.sha256 (normalizeRelation C.forms name)) = some status
  ids : (ir.assets.map AuthoringAsset.assetId ++ (ir.relationKeys C.forms).map (relationAssetId C.sha256)).Nodup

/-- The ids of the assets of a set and of the relations it names. -/
def releaseIds (C : EdgeContext) (ir : AuthoringIR) : List String :=
  ir.assets.map AuthoringAsset.assetId ++ (ir.relationKeys C.forms).map (relationAssetId C.sha256)

/-- An edge that is no dependency, nor has the id of one, and that is accepted. -/
structure OtherEdge (assetIds : List String) (edge : SemanticEdgeRecord) : Prop where
  passes : EdgePasses assetIds edge
  id : edge.edgeId.toList.head? ≠ some 'm'

section Edges

variable {C : EdgeContext} (hC : EdgeFacts ir C)

theorem mem_releaseIds_of_asset {asset : AuthoringAsset} (h : asset ∈ ir.assets) : asset.assetId ∈ releaseIds C ir :=
  List.mem_append_left _ (List.mem_map_of_mem h)

theorem relationAssetId_mem {asset : AuthoringAsset} (hasset : asset ∈ ir.assets) {name : String} (hname : name ∈ relationNames asset) :
    relationAssetId C.sha256 (normalizeRelation C.forms name) ∈ (ir.relationKeys C.forms).map (relationAssetId C.sha256) :=
  List.mem_map_of_mem (mem_relationKeys.mpr ⟨name, List.mem_flatMap.mpr ⟨asset, hasset, hname⟩, rfl⟩)

include hC

theorem requiredRelationId_eq {asset : AuthoringAsset} (hasset : asset ∈ ir.assets) {name : String} (hname : name ∈ relationNames asset) :
    C.requiredRelationId name = .ok (relationAssetId C.sha256 (normalizeRelation C.forms name)) :=
  orRaise_eq_ok.mpr (hC.relation asset hasset name hname)

theorem statusOf_eq {asset : AuthoringAsset} (hasset : asset ∈ ir.assets) {name : String} (hname : name ∈ relationNames asset) :
    ∃ status, C.statusOf (relationAssetId C.sha256 (normalizeRelation C.forms name)) = .ok status :=
  (hC.status asset hasset name hname).imp fun _ h => orRaise_eq_ok.mpr h

theorem reported_eq {asset : AuthoringAsset} (hasset : asset ∈ ir.assets) : C.reported asset.assetId = .ok asset.status :=
  orRaise_eq_ok.mpr (hC.reported asset hasset)

/-- The edge from an asset to a relation it names. -/
theorem lineageEdge_isOk {asset : AuthoringAsset} (hasset : asset ∈ ir.assets) {name : String} (hname : name ∈ relationNames asset)
    (status : AssetStatus) : ∃ edge, C.lineageEdge asset.assetId name status = .ok edge := by
  obtain ⟨relationStatus, hstatus⟩ := statusOf_eq hC hasset hname
  unfold EdgeContext.lineageEdge
  simp only [Py.bind_eq_ok, pure_eq_ok, requiredRelationId_eq hC hasset hname, Except.ok.injEq, exists_eq_left', hstatus]
  exact ⟨_, rfl⟩

theorem lineageEdge_other {asset : AuthoringAsset} (hasset : asset ∈ ir.assets) {name : String} (hname : name ∈ relationNames asset)
    {status : AssetStatus} {edge : SemanticEdgeRecord} (h : C.lineageEdge asset.assetId name status = .ok edge) :
    OtherEdge (releaseIds C ir) edge := by
  unfold EdgeContext.lineageEdge at h
  simp only [Py.bind_eq_ok, pure_eq_ok, requiredRelationId_eq hC hasset hname, Except.ok.injEq, exists_eq_left'] at h
  obtain ⟨relationStatus, -, rfl⟩ := h
  have hrelation := relationAssetId_mem (C := C) hasset hname
  have hne : asset.assetId ≠ relationAssetId C.sha256 (normalizeRelation C.forms name) :=
    (List.nodup_append.mp hC.ids).2.2 _ (List.mem_map_of_mem hasset) _ hrelation
  refine ⟨⟨mem_releaseIds_of_asset hasset, List.mem_append_right _ hrelation, hne, ?_, edgeStatus_mem _⟩, ?_⟩
  · exact show "lineage" ∈ edgeTypes by decide
  · unfold edgeRecord
    simp

/-- The record of the edge of a dependency. -/
def dependencyEdgeOf (C : EdgeContext) (pair : MetricAsset × MetricAsset) : SemanticEdgeRecord :=
  dependencyRecord C.sha256 (edgeStatus [pair.1.status, pair.2.status]) pair

omit hC in
theorem mem_metricsByKey {key : String} {dependency : MetricAsset} (h : ir.metricsByKey.get? key = some dependency) :
    dependency ∈ ir.metrics ∧ dependency.metricKey = key := by
  obtain ⟨metric, hmetric, heq⟩ := List.mem_map.mp (Dict.mem_of_get?_ofList h)
  obtain ⟨rfl, rfl⟩ := Prod.mk.inj heq
  exact ⟨hmetric, rfl⟩

omit hC in
theorem exists_metricsByKey {key : String} : (∃ dependency, ir.metricsByKey.get? key = some dependency) ↔
    key ∈ ir.metrics.map MetricAsset.metricKey := by
  rw [← Option.isSome_iff_exists, Dict.get?_isSome_iff]
  unfold AuthoringIR.metricsByKey
  rw [Dict.mem_keys_ofList, List.map_map]
  rfl

omit hC in
theorem mem_assets_of_metric {metric : MetricAsset} (h : metric ∈ ir.metrics) : .metric metric ∈ ir.assets :=
  List.mem_append_left _ (List.mem_append_left _ (List.mem_map_of_mem h))

omit hC in
theorem mem_assets_of_qa {qa : QAAsset} (h : qa ∈ ir.qas) : .qa qa ∈ ir.assets :=
  List.mem_append_left _ (List.mem_append_right _ (List.mem_map_of_mem h))

omit hC in
theorem mem_assets_of_view {view : ViewAsset} (h : view ∈ ir.views) : .view view ∈ ir.assets :=
  List.mem_append_right _ (List.mem_map_of_mem h)

omit hC in
/-- A dependency is accepted unless it is of a metric on itself. -/
theorem dependencyEdgeOf_passes {pair : MetricAsset × MetricAsset} (hmetric : pair.1 ∈ ir.metrics) (hdependency : pair.2 ∈ ir.metrics)
    (hne : pair.2.assetId ≠ pair.1.assetId) : EdgePasses (releaseIds C ir) (dependencyEdgeOf C pair) where
  source := mem_releaseIds_of_asset (mem_assets_of_metric hmetric)
  target := mem_releaseIds_of_asset (mem_assets_of_metric hdependency)
  ne := hne.symm
  type := show "metric_dependency" ∈ edgeTypes by decide
  status := edgeStatus_mem _

theorem dependencyEdge_eq_ok {metric : MetricAsset} {key : String} {edge : SemanticEdgeRecord} :
    C.dependencyEdge metric metric.status key = .ok edge ↔
      ∃ dependency, ir.metricsByKey.get? key = some dependency ∧ dependencyEdgeOf C (metric, dependency) = edge := by
  unfold EdgeContext.dependencyEdge
  simp only [Py.bind_eq_ok, pure_eq_ok, orRaise_eq_ok, hC.metrics]
  refine exists_congr fun dependency => and_congr_right fun hget => ?_
  have hreported := reported_eq hC (mem_assets_of_metric (mem_metricsByKey hget).1)
  constructor
  · rintro ⟨status, hstatus, rfl⟩
    cases hreported.symm.trans hstatus
    rfl
  · rintro rfl
    exact ⟨_, hreported, rfl⟩

/-- The edges of the dependencies of a metric. -/
theorem dependencyEdges_eq {metric : MetricAsset} {keys : List String} {edges : List SemanticEdgeRecord}
    (h : keys.mapM (C.dependencyEdge metric metric.status) = .ok edges) :
    edges = (keys.filterMap fun key => (ir.metricsByKey.get? key).map fun dependency => (metric, dependency)).map (dependencyEdgeOf C) := by
  induction keys generalizing edges with
  | nil =>
    cases h
    rfl
  | cons key keys ih =>
    simp only [List.mapM_cons, Py.bind_eq_ok, dependencyEdge_eq_ok hC] at h
    obtain ⟨_, ⟨dependency, hget, rfl⟩, rest, hrest, hmade⟩ := h
    cases hmade
    rw [List.filterMap_cons, hget, Option.map_some, List.map_cons, ih hrest]

/-- A metric has its edges where its dependencies are metrics of the set. -/
theorem metricEdges_isOk {metric : MetricAsset} (hmetric : metric ∈ ir.metrics) :
    (∃ edges, C.metricEdges metric = .ok edges) ↔ ∀ key ∈ metric.dependencies, key ∈ ir.metrics.map MetricAsset.metricKey := by
  have hasset := mem_assets_of_metric hmetric
  have hlineage := mapM_isOk.mpr fun name hname => lineageEdge_isOk hC hasset hname metric.status
  have hkeys : (∃ edges, (sortedStr (fromKeys metric.dependencies)).mapM (C.dependencyEdge metric metric.status) = .ok edges) ↔
      ∀ key ∈ metric.dependencies, key ∈ ir.metrics.map MetricAsset.metricKey := by
    unfold sortedStr
    simp only [mapM_isOk, dependencyEdge_eq_ok hC, List.mem_insertionSort, mem_fromKeys]
    refine forall₂_congr fun key _ => ?_
    rw [← exists_metricsByKey]
    exact ⟨fun ⟨_, dependency, hget, _⟩ => ⟨dependency, hget⟩, fun ⟨dependency, hget⟩ => ⟨_, dependency, hget, rfl⟩⟩
  unfold EdgeContext.metricEdges
  simp only [Py.bind_eq_ok, pure_eq_ok, show C.reported metric.assetId = .ok metric.status from reported_eq hC hasset,
    Except.ok.injEq, exists_eq_left']
  rw [← hkeys]
  constructor
  · rintro ⟨_, dependencies, hdependencies, -⟩
    exact ⟨dependencies, hdependencies⟩
  · rintro ⟨dependencies, hdependencies⟩
    obtain ⟨lineage, hlineage⟩ := hlineage
    exact ⟨_, dependencies, hdependencies, lineage, hlineage, rfl⟩

theorem metricEdges_eq {metric : MetricAsset} (hmetric : metric ∈ ir.metrics) {edges : List SemanticEdgeRecord}
    (h : C.metricEdges metric = .ok edges) :
    ∃ lineage, edges = (ir.dependenciesOf metric).map (dependencyEdgeOf C) ++ lineage ∧ ∀ edge ∈ lineage, OtherEdge (releaseIds C ir) edge := by
  have hasset := mem_assets_of_metric hmetric
  unfold EdgeContext.metricEdges at h
  simp only [Py.bind_eq_ok, pure_eq_ok, show C.reported metric.assetId = .ok metric.status from reported_eq hC hasset,
    Except.ok.injEq, exists_eq_left'] at h
  obtain ⟨dependencies, hdependencies, lineage, hlineage, rfl⟩ := h
  refine ⟨lineage, congrArg (· ++ lineage) (dependencyEdges_eq hC hdependencies), fun edge hedge => ?_⟩
  obtain ⟨name, hname, hmade⟩ := exists_of_mem_mapM hlineage hedge
  exact lineageEdge_other hC hasset hname hmade

/-- A question has its edges where its metrics are metrics of the set. -/
theorem questionEdges_isOk {qa : QAAsset} (hqa : qa ∈ ir.qas) :
    (∃ edges, C.questionEdges qa = .ok edges) ↔ ∀ key ∈ qa.metricKeys, key ∈ ir.metrics.map MetricAsset.metricKey := by
  have hreported : C.reported qa.assetId = .ok qa.status := reported_eq hC (mem_assets_of_qa hqa)
  unfold EdgeContext.questionEdges sortedStr
  simp only [mapM_isOk, List.mem_insertionSort, mem_fromKeys]
  refine forall₂_congr fun key _ => ?_
  rw [← exists_metricsByKey]
  unfold EdgeContext.questionEdge
  simp only [Py.bind_eq_ok, pure_eq_ok, orRaise_eq_ok, hC.metrics, hreported, Except.ok.injEq, exists_eq_left']
  constructor
  · rintro ⟨_, metric, hget, -⟩
    exact ⟨metric, hget⟩
  · rintro ⟨metric, hget⟩
    exact ⟨_, metric, hget, metric.status, reported_eq hC (mem_assets_of_metric (mem_metricsByKey hget).1), rfl⟩

theorem questionEdges_other {qa : QAAsset} (hqa : qa ∈ ir.qas) {edges : List SemanticEdgeRecord} (h : C.questionEdges qa = .ok edges)
    {edge : SemanticEdgeRecord} (hedge : edge ∈ edges) : OtherEdge (releaseIds C ir) edge := by
  obtain ⟨key, -, hmade⟩ := exists_of_mem_mapM h hedge
  unfold EdgeContext.questionEdge at hmade
  simp only [Py.bind_eq_ok, pure_eq_ok, orRaise_eq_ok, hC.metrics] at hmade
  obtain ⟨metric, hget, source, -, target, -, rfl⟩ := hmade
  have hqaAsset := mem_assets_of_qa hqa
  have hmetricAsset := mem_assets_of_metric (mem_metricsByKey hget).1
  have hne : qa.assetId ≠ metric.assetId := fun hsame => by
    cases List.inj_on_of_nodup_map (List.nodup_append.mp hC.ids).1 hqaAsset hmetricAsset hsame
  exact ⟨⟨mem_releaseIds_of_asset hqaAsset, mem_releaseIds_of_asset hmetricAsset, hne, show "lineage" ∈ edgeTypes by decide,
    edgeStatus_mem _⟩, by unfold edgeRecord; simp⟩

/-- The ids of relations differ where their names do. -/
theorem relationAssetId_inj {asset other : AuthoringAsset} (hasset : asset ∈ ir.assets) (hother : other ∈ ir.assets) {name name' : String}
    (hname : name ∈ relationNames asset) (hname' : name' ∈ relationNames other) :
    relationAssetId C.sha256 (normalizeRelation C.forms name) = relationAssetId C.sha256 (normalizeRelation C.forms name') ↔
      normalizeRelation C.forms name = normalizeRelation C.forms name' :=
  ⟨fun h => List.inj_on_of_nodup_map (List.nodup_append.mp hC.ids).2.1
    (mem_relationKeys.mpr ⟨name, List.mem_flatMap.mpr ⟨asset, hasset, hname⟩, rfl⟩)
    (mem_relationKeys.mpr ⟨name', List.mem_flatMap.mpr ⟨other, hother, hname'⟩, rfl⟩) h, fun h => by rw [h]⟩

/-- A view has its edges where it joins no relation with itself. -/
theorem viewEdges_isOk {view : ViewAsset} (hview : view ∈ ir.views) :
    (∃ edges, C.viewEdges view = .ok edges) ↔
      ∀ join ∈ view.joins, normalizeRelation C.forms join.table ≠ normalizeRelation C.forms view.sourceRelation := by
  have hasset := mem_assets_of_view hview
  have hsource : view.sourceRelation ∈ relationNames (.view view) := List.mem_cons_self
  have hreported : C.reported view.assetId = .ok view.status := reported_eq hC hasset
  obtain ⟨lineage, hlineage⟩ := lineageEdge_isOk hC hasset hsource view.status
  obtain ⟨sourceStatus, hsourceStatus⟩ := statusOf_eq hC hasset hsource
  have hjoin : ∀ join ∈ view.joins,
      (∃ edge, C.joinEdge view view.status (relationAssetId C.sha256 (normalizeRelation C.forms view.sourceRelation)) join = .ok edge) ↔
        normalizeRelation C.forms join.table ≠ normalizeRelation C.forms view.sourceRelation := by
    intro join hjoin
    have htarget : join.table ∈ relationNames (.view view) := List.mem_cons_of_mem _ (List.mem_map_of_mem hjoin)
    obtain ⟨targetStatus, htargetStatus⟩ := statusOf_eq hC hasset htarget
    unfold EdgeContext.joinEdge
    simp only [Py.bind_eq_ok, pure_eq_ok, raiseIf_eq_ok, requiredRelationId_eq hC hasset htarget, hsourceStatus, htargetStatus,
      Except.ok.injEq, exists_eq_left', exists_const, exists_and_left, exists_eq', and_true,
      relationAssetId_inj hC hasset hasset hsource htarget]
    exact ⟨fun h h' => h h'.symm, fun h h' => h h'.symm⟩
  unfold EdgeContext.viewEdges
  have hlineage' : C.lineageEdge view.assetId view.sourceRelation view.status = .ok lineage := hlineage
  simp only [Py.bind_eq_ok, pure_eq_ok, hreported, requiredRelationId_eq hC hasset hsource, hlineage', Except.ok.injEq,
    exists_eq_left']
  rw [← forall₂_congr hjoin, ← mapM_isOk]
  constructor
  · rintro ⟨_, joins, h, _⟩
    exact ⟨joins, h⟩
  · rintro ⟨joins, h⟩
    exact ⟨_, joins, h, rfl⟩

theorem viewEdges_other {view : ViewAsset} (hview : view ∈ ir.views) {edges : List SemanticEdgeRecord} (h : C.viewEdges view = .ok edges)
    {edge : SemanticEdgeRecord} (hedge : edge ∈ edges) : OtherEdge (releaseIds C ir) edge := by
  have hasset := mem_assets_of_view hview
  have hsource : view.sourceRelation ∈ relationNames (.view view) := List.mem_cons_self
  unfold EdgeContext.viewEdges at h
  simp only [Py.bind_eq_ok, pure_eq_ok, requiredRelationId_eq hC hasset hsource, Except.ok.injEq, exists_eq_left'] at h
  obtain ⟨viewStatus, -, lineage, hlineage, joins, hjoins, rfl⟩ := h
  rcases List.mem_cons.mp hedge with rfl | hedge
  · exact lineageEdge_other hC hasset hsource hlineage
  · obtain ⟨join, hjoin, hmade⟩ := exists_of_mem_mapM hjoins hedge
    have htarget : join.table ∈ relationNames (.view view) := List.mem_cons_of_mem _ (List.mem_map_of_mem hjoin)
    unfold EdgeContext.joinEdge at hmade
    simp only [Py.bind_eq_ok, pure_eq_ok, raiseIf_eq_ok, requiredRelationId_eq hC hasset htarget, Except.ok.injEq,
      exists_eq_left', exists_const] at hmade
    obtain ⟨hne, source, -, target, -, rfl⟩ := hmade
    exact ⟨⟨List.mem_append_right _ (relationAssetId_mem hasset hsource), List.mem_append_right _ (relationAssetId_mem hasset htarget), hne,
      show "approved_join" ∈ edgeTypes by decide, edgeStatus_mem _⟩, by unfold edgeRecord; simp⟩

/-- The edges of a set are made where all its metrics, questions and views have theirs. -/
theorem materializeEdges_isOk :
    (∃ edges, C.materializeEdges ir = .ok edges) ↔
      (∀ metric ∈ ir.metrics, ∀ key ∈ metric.dependencies, key ∈ ir.metrics.map MetricAsset.metricKey) ∧
      (∀ qa ∈ ir.qas, ∀ key ∈ qa.metricKeys, key ∈ ir.metrics.map MetricAsset.metricKey) ∧
      ∀ view ∈ ir.views, ∀ join ∈ view.joins,
        normalizeRelation C.forms join.table ≠ normalizeRelation C.forms view.sourceRelation := by
  have hmetrics : (∃ made, (sortBy MetricAsset.assetId ir.metrics).mapM C.metricEdges = .ok made) ↔ _ := mapM_isOk
  have hqas : (∃ made, (sortBy QAAsset.assetId ir.qas).mapM C.questionEdges = .ok made) ↔ _ := mapM_isOk
  have hviews : (∃ made, (sortBy ViewAsset.assetId ir.views).mapM C.viewEdges = .ok made) ↔ _ := mapM_isOk
  simp only [mem_sortBy] at hmetrics hqas hviews
  refine Iff.trans ?_ (and_congr (hmetrics.trans (forall₂_congr fun metric hmetric => metricEdges_isOk hC hmetric))
    (and_congr (hqas.trans (forall₂_congr fun qa hqa => questionEdges_isOk hC hqa))
      (hviews.trans (forall₂_congr fun view hview => viewEdges_isOk hC hview))))
  unfold EdgeContext.materializeEdges
  simp only [Py.bind_eq_ok, pure_eq_ok]
  constructor
  · rintro ⟨_, metrics, h, qas, h', views, h'', -⟩
    exact ⟨⟨metrics, h⟩, ⟨qas, h'⟩, views, h''⟩
  · rintro ⟨⟨metrics, h⟩, ⟨qas, h'⟩, views, h''⟩
    exact ⟨_, metrics, h, qas, h', views, h'', rfl⟩

omit hC in
/-- Whether an edge has the id of a dependency. -/
def hasDependencyId (edge : SemanticEdgeRecord) : Bool := edge.edgeId.toList.head? = some 'm'

omit hC in
theorem hasDependencyId_dependency (pair : MetricAsset × MetricAsset) : hasDependencyId (dependencyEdgeOf C pair) = true := by
  unfold hasDependencyId dependencyEdgeOf dependencyRecord edgeRecord
  simp

omit hC in
theorem filter_other {edges : List SemanticEdgeRecord} {assetIds : List String} (h : ∀ edge ∈ edges, OtherEdge assetIds edge) :
    edges.filter hasDependencyId = [] :=
  List.filter_eq_nil_iff.mpr fun edge hedge hid => (h edge hedge).id (of_decide_eq_true hid)

omit hC in
theorem filter_dependencies (pairs : List (MetricAsset × MetricAsset)) :
    (pairs.map (dependencyEdgeOf C)).filter hasDependencyId = pairs.map (dependencyEdgeOf C) := by
  refine List.filter_eq_self.mpr fun edge hedge => ?_
  obtain ⟨pair, -, rfl⟩ := List.mem_map.mp hedge
  exact hasDependencyId_dependency pair

/-- Among the edges of the metrics those with the id of a dependency are the dependencies, and the others are accepted. -/
theorem metricEdges_split {metrics : List MetricAsset} (hmetrics : metrics ⊆ ir.metrics) {edges : List (List SemanticEdgeRecord)}
    (h : metrics.mapM C.metricEdges = .ok edges) :
    edges.flatten.filter hasDependencyId = (metrics.flatMap ir.dependenciesOf).map (dependencyEdgeOf C) ∧
      ∀ edge ∈ edges.flatten, hasDependencyId edge = true ∨ OtherEdge (releaseIds C ir) edge := by
  induction metrics generalizing edges with
  | nil =>
    cases h
    exact ⟨rfl, fun _ h => absurd h List.not_mem_nil⟩
  | cons metric metrics ih =>
    simp only [List.mapM_cons, Py.bind_eq_ok] at h
    obtain ⟨first, hfirst, rest, hrest, hmade⟩ := h
    cases hmade
    obtain ⟨hmetric, hmetrics⟩ := List.cons_subset.mp hmetrics
    obtain ⟨hfilter, hothers⟩ := ih hmetrics hrest
    obtain ⟨lineage, rfl, hlineage⟩ := metricEdges_eq hC hmetric hfirst
    constructor
    · rw [List.flatten_cons, List.filter_append, List.filter_append, filter_dependencies, filter_other hlineage, List.append_nil, hfilter,
        List.flatMap_cons, List.map_append]
    · intro edge hedge
      rcases List.mem_append.mp hedge with hedge | hedge
      · rcases List.mem_append.mp hedge with hedge | hedge
        · obtain ⟨pair, -, rfl⟩ := List.mem_map.mp hedge
          exact .inl (hasDependencyId_dependency pair)
        · exact .inr (hlineage edge hedge)
      · exact hothers edge hedge

omit hC in
/-- The edge under the id of a dependency is the last of the dependencies with the id. -/
theorem get?_dependency (ir : AuthoringIR) (C : EdgeContext) (id : String) :
    (Dict.ofList ((((sortBy MetricAsset.assetId ir.metrics).flatMap ir.dependenciesOf).map (dependencyEdgeOf C)).map fun edge =>
      (edge.edgeId, edge))).get? id = ((ir.dependenciesById C.sha256).get? id).map (dependencyEdgeOf C) := by
  unfold AuthoringIR.dependenciesById
  rw [← Dict.get?_ofList_map, List.map_map, List.map_map]
  rfl

omit hC in
/-- A dictionary of edges by their ids has edges under their ids. -/
theorem edge_of_entry {all : List SemanticEdgeRecord} {entry : String × SemanticEdgeRecord}
    (h : entry ∈ (Dict.ofList (all.map fun edge => (edge.edgeId, edge))).entries) : entry.2.edgeId = entry.1 ∧ entry.2 ∈ all := by
  obtain ⟨edge, hedge, heq⟩ := List.mem_map.mp (Dict.mem_of_get?_ofList (Dict.get?_eq_some_iff.mpr h))
  obtain ⟨hid, hsame⟩ := Prod.mk.inj heq
  exact ⟨hsame ▸ hid, hsame ▸ hedge⟩

omit hC in
/-- No two edges have one id. -/
theorem nodup_edgeIds {edges : List SemanticEdgeRecord} (h : C.materializeEdges ir = .ok edges) :
    (edges.map SemanticEdgeRecord.edgeId).Nodup := by
  unfold EdgeContext.materializeEdges at h
  simp only [Py.bind_eq_ok, pure_eq_ok] at h
  obtain ⟨metrics, -, qas, -, views, -, rfl⟩ := h
  generalize metrics.flatten ++ qas.flatten ++ views.flatten = all
  have hkeys : (Dict.ofList (all.map fun edge => (edge.edgeId, edge))).entries.map (SemanticEdgeRecord.edgeId ∘ Prod.snd) =
      (Dict.ofList (all.map fun edge => (edge.edgeId, edge))).keys := List.map_congr_left fun entry hentry => (edge_of_entry hentry).1
  rw [List.map_map, ((sortBy_perm Prod.fst _).map _).nodup_iff, hkeys]
  exact Dict.nodup _

omit hC in
/-- A dependency that is kept is one of a metric on a metric of the set. -/
theorem pair_of_dependenciesById {sha256 : String → String} {id : String} {pair : MetricAsset × MetricAsset}
    (h : (ir.dependenciesById sha256).get? id = some pair) :
    pair.1 ∈ ir.metrics ∧ ∃ key ∈ pair.1.dependencies, ir.metricsByKey.get? key = some pair.2 := by
  obtain ⟨other, hother, heq⟩ := List.mem_map.mp (Dict.mem_of_get?_ofList h)
  obtain ⟨-, rfl⟩ := Prod.mk.inj heq
  obtain ⟨metric, hmetric, hpair⟩ := List.mem_flatMap.mp hother
  unfold AuthoringIR.dependenciesOf sortedStr at hpair
  obtain ⟨key, hkey, hpair⟩ := List.mem_filterMap.mp hpair
  rw [List.mem_insertionSort, mem_fromKeys] at hkey
  obtain ⟨dependency, hget, rfl⟩ := Option.map_eq_some_iff.mp hpair
  exact ⟨mem_sortBy.mp hmetric, key, hkey, hget⟩

/-- The edges that are made: each is under its id the last that there is, and those that are no dependencies are accepted. -/
theorem edges_made {edges : List SemanticEdgeRecord} (h : C.materializeEdges ir = .ok edges) :
      (∀ edge ∈ edges, OtherEdge (releaseIds C ir) edge ∨
        ∃ pair, (ir.dependenciesById C.sha256).get? edge.edgeId = some pair ∧ dependencyEdgeOf C pair = edge) ∧
      ∀ pair ∈ (ir.dependenciesById C.sha256).values, dependencyEdgeOf C pair ∈ edges := by
  unfold EdgeContext.materializeEdges at h
  simp only [Py.bind_eq_ok, pure_eq_ok] at h
  obtain ⟨metrics, hmetrics, qas, hqas, views, hviews, rfl⟩ := h
  obtain ⟨hfilter, hothers⟩ := metricEdges_split hC (fun metric hmetric => mem_sortBy.mp hmetric) hmetrics
  have hqas' : ∀ edge ∈ qas.flatten, OtherEdge (releaseIds C ir) edge := by
    intro edge hedge
    obtain ⟨made, hmade, hedge⟩ := List.mem_flatten.mp hedge
    obtain ⟨qa, hqa, hmade⟩ := exists_of_mem_mapM hqas hmade
    exact questionEdges_other hC (mem_sortBy.mp hqa) hmade hedge
  have hviews' : ∀ edge ∈ views.flatten, OtherEdge (releaseIds C ir) edge := by
    intro edge hedge
    obtain ⟨made, hmade, hedge⟩ := List.mem_flatten.mp hedge
    obtain ⟨view, hview, hmade⟩ := exists_of_mem_mapM hviews hmade
    exact viewEdges_other hC (mem_sortBy.mp hview) hmade hedge
  generalize hall : metrics.flatten ++ qas.flatten ++ views.flatten = all
  have hkinds : ∀ edge ∈ all, hasDependencyId edge = true ∨ OtherEdge (releaseIds C ir) edge := by
    intro edge hedge
    rw [← hall] at hedge
    rcases List.mem_append.mp hedge with hedge | hedge
    · rcases List.mem_append.mp hedge with hedge | hedge
      · exact hothers edge hedge
      · exact .inr (hqas' edge hedge)
    · exact .inr (hviews' edge hedge)
  have hdependencies : all.filter hasDependencyId =
      ((sortBy MetricAsset.assetId ir.metrics).flatMap ir.dependenciesOf).map (dependencyEdgeOf C) := by
    rw [← hall, List.filter_append, List.filter_append, hfilter, filter_other hqas', filter_other hviews', List.append_nil, List.append_nil]
  -- under the id of a dependency only dependencies count
  have hget (id : String) (hid : id.toList.head? = some 'm') :
      (Dict.ofList (all.map fun edge => (edge.edgeId, edge))).get? id =
        ((ir.dependenciesById C.sha256).get? id).map (dependencyEdgeOf C) := by
    rw [← get?_dependency, ← hdependencies]
    refine (Dict.get?_update_filter (p := fun pair => hasDependencyId pair.2) ?_ Dict.empty rfl).trans ?_
    · intro pair hpair hkey
      obtain ⟨edge, -, rfl⟩ := List.mem_map.mp hpair
      have hsame : edge.edgeId = id := hkey
      exact decide_eq_true (hsame ▸ hid)
    · rw [List.filter_map]
      rfl
  refine ⟨fun edge hedge => ?_, fun pair hpair => ?_⟩
  · obtain ⟨entry, hentry, rfl⟩ := List.mem_map.mp hedge
    rw [mem_sortBy] at hentry
    obtain ⟨hid, hmem⟩ := edge_of_entry hentry
    refine (hkinds entry.2 hmem).symm.imp_right fun hdependency => ?_
    have hfound := hget entry.1 (hid ▸ of_decide_eq_true hdependency)
    rw [Dict.get?_eq_some_iff.mpr hentry] at hfound
    obtain ⟨pair, hpair, heq⟩ := Option.map_eq_some_iff.mp hfound.symm
    exact ⟨pair, hid ▸ hpair, heq⟩
  · obtain ⟨id, hpair⟩ := Dict.mem_values_iff.mp hpair
    obtain ⟨other, -, heq⟩ := List.mem_map.mp (Dict.mem_of_get?_ofList hpair)
    obtain ⟨rfl, rfl⟩ := Prod.mk.inj heq
    have hid : (dependencyId C.sha256 other).toList.head? = some 'm' := of_decide_eq_true (hasDependencyId_dependency (C := C) other)
    have hfound := hget _ hid
    rw [hpair, Option.map_some] at hfound
    exact List.mem_map.mpr ⟨_, mem_sortBy.mpr (Dict.get?_eq_some_iff.mp hfound), rfl⟩

end Edges
end ReleaseAux

end Nl2Sql.Authoring
