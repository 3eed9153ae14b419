import Nl2Sql.Lemmas.CatalogOrder
import Nl2Sql.Lemmas.NameOrder
import Nl2Sql.Theorems.Releasable

/-!
# Verdicts and the order of authoring

Which authored sets validation judges alike however their metrics, questions and views are ordered: those whose orders all find a name
twice or all do not, and whose keys lead round in a cycle whichever metric a key that is used twice stands for.
-/

namespace Nl2Sql.Authoring

open Py

/-- A set in another order. -/
structure Reordered (ir ir' : AuthoringIR) : Prop where
  metrics : ir'.metrics.Perm ir.metrics
  qas : ir'.qas.Perm ir.qas
  views : ir'.views.Perm ir.views
  schemaVersion : ir'.schemaVersion = ir.schemaVersion

/-- Two reports are both ok or both not, and have issues of the same codes. -/
def SameVerdict (report report' : ValidationReport) : Prop :=
  report.ok = report'.ok ∧ ∀ code, code ∈ report.issues.map AuthoringIssue.code ↔ code ∈ report'.issues.map AuthoringIssue.code

/-! ## Cycles -/

/-- Of the active metrics of each key one is chosen. -/
structure Picks (metrics : List MetricAsset) (pick : String → Option MetricAsset) : Prop where
  picked : ∀ key metric, pick key = some metric → metric ∈ metrics ∧ metric.metricKey = key ∧ key ≠ "" ∧ metric.status = .active
  every : ∀ metric ∈ metrics, metric.metricKey ≠ "" → metric.status = .active → pick metric.metricKey ≠ none

/-- The dependencies of the chosen metrics lead from some key back to it. -/
def Cyclic (pick : String → Option MetricAsset) : Prop :=
  ∃ key, Relation.TransGen (fun a b => ∃ metric, pick a = some metric ∧ b ∈ metric.dependencies) key key

/-- The dependencies lead round whichever metrics are chosen, or never. -/
def CyclesSettled (metrics : List MetricAsset) : Prop := ∀ pick pick', Picks metrics pick → Picks metrics pick' → (Cyclic pick ↔ Cyclic pick')

section Cycles

variable {metrics order : List MetricAsset}

/-- The active metrics that have keys, by their keys. -/
def keyed (metrics : List MetricAsset) : List (String × MetricAsset) :=
  (metrics.filter fun metric => metric.metricKey ≠ "" ∧ metric.status = .active).map fun metric => (metric.metricKey, metric)

theorem mem_keyed {pair : String × MetricAsset} :
    pair ∈ keyed metrics ↔ pair.2 ∈ metrics ∧ pair.2.metricKey = pair.1 ∧ pair.1 ≠ "" ∧ pair.2.status = .active := by
  obtain ⟨key, metric⟩ := pair
  rw [keyed, List.mem_map]
  constructor
  · rintro ⟨metric', hmem, heq⟩
    obtain ⟨rfl, rfl⟩ := Prod.mk.inj heq
    obtain ⟨hmem, hkey⟩ := List.mem_filter.mp hmem
    exact ⟨hmem, rfl, of_decide_eq_true hkey⟩
  · rintro ⟨hmem, hkey, hrest⟩
    exact ⟨metric, List.mem_filter.mpr ⟨hmem, decide_eq_true (hkey ▸ hrest)⟩, Prod.ext hkey rfl⟩

/-- The metric that a key stands for in an order: the last of its active metrics. -/
def lastPick (metrics : List MetricAsset) (key : String) : Option MetricAsset := (Dict.ofList (keyed metrics)).get? key

theorem lastPick_picks (horder : order.Perm metrics) : Picks metrics (lastPick order) := by
  refine ⟨fun key metric hpick => ?_, fun metric hmem hkey hactive hnone => ?_⟩
  · obtain ⟨hmem, hrest⟩ := mem_keyed.mp (Dict.mem_of_get?_ofList hpick)
    exact ⟨horder.mem_iff.mp hmem, hrest⟩
  · have hkeyed : (metric.metricKey, metric) ∈ keyed order := mem_keyed.mpr ⟨horder.mem_iff.mpr hmem, rfl, hkey, hactive⟩
    obtain ⟨v, hv⟩ := Dict.exists_get?_ofList (List.mem_map_of_mem (f := Prod.fst) hkeyed)
    rw [lastPick, hv] at hnone
    nomatch hnone

/-- The search goes along the dependencies of the metrics that the keys stand for. -/
theorem circular_iff : Search.Circular (dependencyGraph order) ↔ Cyclic (lastPick order) := by
  have hgraph : ∀ key, (dependencyGraph order).get? key = (lastPick order key).map fun metric => fromKeys metric.dependencies := by
    intro key
    rw [lastPick, ← Dict.get?_ofList_map, keyed, List.map_map]
    rfl
  have hedge : Search.Edge (dependencyGraph order) = fun a b => ∃ metric, lastPick order a = some metric ∧ b ∈ metric.dependencies := by
    funext a b
    rw [Search.Edge, hgraph]
    cases lastPick order a <;> simp
  rw [Search.Circular, hedge, Cyclic]

/-- Any choice is that of some order: the chosen metrics come last. -/
theorem exists_lastPick {pick : String → Option MetricAsset} (hpick : Picks metrics pick) :
    ∃ order, order.Perm metrics ∧ lastPick order = pick := by
  classical
  let chosen : MetricAsset → Bool := fun metric => pick metric.metricKey = some metric
  refine ⟨metrics.filter (fun metric => !chosen metric) ++ metrics.filter chosen, ?_, ?_⟩
  · exact List.perm_append_comm.trans (List.filter_append_perm chosen metrics)
  · funext key
    have hkeyed : keyed (metrics.filter (fun metric => !chosen metric) ++ metrics.filter chosen) =
        keyed (metrics.filter fun metric => !chosen metric) ++ keyed (metrics.filter chosen) := by
      rw [keyed, List.filter_append, List.map_append, keyed, keyed]
    rw [lastPick, hkeyed]
    cases hkey : pick key with
    | some metric =>
      obtain ⟨hmem, rfl, hne, hactive⟩ := hpick.picked key metric hkey
      have hlast : (metric.metricKey, metric) ∈ keyed (metrics.filter chosen) :=
        mem_keyed.mpr ⟨List.mem_filter.mpr ⟨hmem, decide_eq_true hkey⟩, rfl, hne, hactive⟩
      obtain ⟨other, hother, hget⟩ := Dict.get?_update_of_mem (List.mem_map_of_mem (f := Prod.fst) hlast)
        (Dict.ofList (keyed (metrics.filter fun metric => !chosen metric)))
      obtain ⟨hin, hsame, -⟩ := mem_keyed.mp hother
      have hchosen : pick other.metricKey = some other := of_decide_eq_true (List.mem_filter.mp hin).2
      rw [hsame, hkey] at hchosen
      rw [Dict.ofList, List.foldl_append]
      exact hget.trans hchosen.symm
    | none =>
      refine Dict.get?_eq_none_iff.mpr fun hmem => ?_
      obtain ⟨⟨_, metric⟩, hpair, rfl⟩ := List.mem_map.mp (Dict.mem_keys_ofList.mp hmem)
      rw [← hkeyed] at hpair
      obtain ⟨hin, hsame, hne, hactive⟩ := mem_keyed.mp hpair
      have hmetric : metric ∈ metrics := (List.mem_append.mp hin).elim (fun h => (List.mem_filter.mp h).1) fun h => (List.mem_filter.mp h).1
      exact hpick.every metric hmetric (hsame ▸ hne) hactive (hsame ▸ hkey)

/-- The orders of some metrics all have a cycle or all have none, exactly where the choices do. -/
theorem cycles_settled_iff :
    (∀ order, order.Perm metrics → (Search.Circular (dependencyGraph order) ↔ Search.Circular (dependencyGraph metrics))) ↔
      CyclesSettled metrics := by
  simp only [circular_iff]
  constructor
  · intro h pick pick' hpick hpick'
    obtain ⟨order, horder, rfl⟩ := exists_lastPick hpick
    obtain ⟨order', horder', rfl⟩ := exists_lastPick hpick'
    exact (h order horder).trans (h order' horder').symm
  · exact fun h order horder => h _ _ (lastPick_picks horder) (lastPick_picks (.refl metrics))

end Cycles

/-! ## Issues that no order changes -/

section Plain

variable (T : AuthoringTools) (external : List (String × List String))

/-- The issues of a set but for those of names and cycles. -/
def plainIssues (ir : AuthoringIR) : List AuthoringIssue :=
  let catalog := (buildRelationCatalog T ir.views).withExternalColumns T.forms external
  schemaVersionIssues ir ++ validateMetadata ir.assets ++ validateMetrics T ir.metrics catalog ++ validateViews T ir.views catalog ++
    validateQAs T ir.qas catalog ++ ir.metrics.flatMap (unknownDependencies ir.metrics)

/-- The issues of the cycles. -/
def cycleIssues (metrics : List MetricAsset) : List AuthoringIssue :=
  (Search.visitAll (dependencyGraph metrics) (sortedStr (dependencyGraph metrics).keys)).cycles.map (cycleIssue metrics)

variable {T external} {ir ir' : AuthoringIR}

theorem mem_foundIssues_iff {issue : AuthoringIssue} :
    issue ∈ foundIssues T external ir ↔
      issue ∈ plainIssues T external ir ∨ issue ∈ duplicateMetricIssues T ir.metrics ∨ issue ∈ cycleIssues ir.metrics := by
  simp only [foundIssues, plainIssues, cycleIssues, validateDependencyGraph, List.mem_append]
  tauto

theorem Reordered.assets (h : Reordered ir ir') : ir'.assets.Perm ir.assets :=
  ((h.metrics.map _).append (h.qas.map _)).append (h.views.map _)

variable {catalog other : RelationCatalog}

theorem metricIssues_congr (h : AlikeCatalogs catalog other) : metricIssues T catalog = metricIssues T other := by
  funext metric
  simp only [metricIssues, sourceIssues, h.hasRelation, h.hasColumn]

theorem referenceIssues_congr (h : AlikeCatalogs catalog other) : referenceIssues T catalog = referenceIssues T other := by
  funext view aliases unknownAlias unknownColumn path ref
  simp only [referenceIssues, h.hasRelation, h.hasColumn]

theorem viewIssues_congr (h : AlikeCatalogs catalog other) : viewIssues T catalog = viewIssues T other := by
  funext view
  have hjoin : joinIssues T catalog = joinIssues T other := by
    funext view aliases join
    simp only [joinIssues, h.hasRelation, referenceIssues_congr h]
  have hjoins : ∀ (joins : List JoinDefinition) (aliases : List String),
      joinsIssues T catalog view aliases joins = joinsIssues T other view aliases joins := by
    intro joins
    induction joins with
    | nil => exact fun _ => rfl
    | cons join joins ih =>
      intro aliases
      rw [joinsIssues, joinsIssues, hjoin, ih]
  have hcolumn : columnIssues T catalog = columnIssues T other := by
    funext view aliases expression
    simp only [columnIssues, referenceIssues_congr h]
  simp only [viewIssues, hjoins, hcolumn]

theorem questionIssues_congr (h : AlikeCatalogs catalog other) : questionIssues T catalog = questionIssues T other := by
  funext qa
  simp only [questionIssues, validateQueryCatalog, h.hasRelation, h.hasColumn]

theorem unknownDependencies_congr {metrics order : List MetricAsset} (h : order.Perm metrics) :
    unknownDependencies order = unknownDependencies metrics := by
  funext metric
  have hmem : ∀ key, key ∈ (order.map MetricAsset.metricKey).filter (· ≠ "") ↔ key ∈ (metrics.map MetricAsset.metricKey).filter (· ≠ "") :=
    fun key => ((h.map _).filter _).mem_iff
  simp only [unknownDependencies, hmem]

/-- These issues are the same in every order. -/
theorem mem_plainIssues (h : Reordered ir ir') {issue : AuthoringIssue} :
    issue ∈ plainIssues T external ir' ↔ issue ∈ plainIssues T external ir := by
  have hcatalog := (buildRelationCatalog_perm (T := T) h.views).withExternalColumns (U := T.forms) external
  have hversions : issue ∈ schemaVersionIssues ir' ↔ issue ∈ schemaVersionIssues ir := by
    rw [schemaVersionIssues, schemaVersionIssues, h.schemaVersion, List.mem_append, List.mem_append]
    exact or_congr_right (h.assets.flatMap_right _).mem_iff
  have hmetadata : issue ∈ validateMetadata ir'.assets ↔ issue ∈ validateMetadata ir.assets := (h.assets.flatMap_right _).mem_iff
  simp only [plainIssues, List.mem_append, hversions, hmetadata, validateMetrics, validateViews, validateQAs, metricIssues_congr hcatalog,
    viewIssues_congr hcatalog, questionIssues_congr hcatalog, unknownDependencies_congr h.metrics, (h.metrics.flatMap_right _).mem_iff,
    (h.views.flatMap_right _).mem_iff, (h.qas.flatMap_right _).mem_iff]

/-- What holds of every one of some issues. -/
def AllIssues (P : AuthoringIssue → Prop) (issues : List AuthoringIssue) : Prop := ∀ issue ∈ issues, P issue

section AllIssues

variable {P : AuthoringIssue → Prop} {issues issues' : List AuthoringIssue}

theorem AllIssues.nil : AllIssues P [] := fun _ h => absurd h List.not_mem_nil

theorem AllIssues.append (h : AllIssues P issues) (h' : AllIssues P issues') : AllIssues P (issues ++ issues') :=
  fun issue hissue => (List.mem_append.mp hissue).elim (h issue) (h' issue)

theorem AllIssues.singleton {issue : AuthoringIssue} (h : P issue) : AllIssues P [issue] := fun _ hother => List.mem_singleton.mp hother ▸ h

theorem AllIssues.failIf {c : Prop} [Decidable c] {issue : AuthoringIssue} (h : P issue) : AllIssues P (failIf c issue) :=
  fun _ hother => (mem_failIf.mp hother).2 ▸ h

theorem AllIssues.flatMap {α : Type} {f : α → List AuthoringIssue} (h : ∀ a, AllIssues P (f a)) (values : List α) :
    AllIssues P (values.flatMap f) := by
  intro issue hissue
  obtain ⟨a, -, ha⟩ := List.mem_flatMap.mp hissue
  exact h a issue ha

theorem AllIssues.ite {c : Prop} [Decidable c] (h : AllIssues P issues) (h' : AllIssues P issues') :
    AllIssues P (if c then issues else issues') := by
  split
  · exact h
  · exact h'

end AllIssues

/-- An issue that is not of a name or a cycle. -/
def IsPlain (issue : AuthoringIssue) : Prop := issue.code ≠ "duplicate_metric_alias" ∧ issue.code ≠ "formula_dependency_cycle"

theorem assetMetadataIssues_plain (asset : AuthoringAsset) : AllIssues IsPlain (assetMetadataIssues asset) := by
  refine .ite .nil ?_
  repeat' apply AllIssues.append
  all_goals exact .failIf ⟨by simp [missingField], by simp [missingField]⟩

theorem metricIssues_plain (metric : MetricAsset) : AllIssues IsPlain (metricIssues T catalog metric) := by
  have hsource : AllIssues IsPlain (sourceIssues T catalog metric) :=
    (AllIssues.ite (.singleton ⟨by simp, by simp⟩) (.failIf ⟨by simp, by simp⟩)).append (.flatMap (fun _ => .failIf ⟨by simp, by simp⟩) _)
  have hderived : AllIssues IsPlain (derivedIssues metric) := by
    unfold derivedIssues
    repeat' apply AllIssues.append
    all_goals exact .failIf ⟨by simp [missingField], by simp [missingField]⟩
  exact .ite (.singleton ⟨by simp, by simp⟩) (.ite .nil (((AllIssues.failIf ⟨by simp, by simp⟩).append hsource).append (.ite hderived .nil)))

theorem referenceIssues_plain (view : ViewAsset) (aliases : List String) (unknownAlias unknownColumn path : String) (ref : String × String) :
    AllIssues IsPlain (referenceIssues T catalog view aliases unknownAlias unknownColumn path ref) :=
  .ite (.singleton ⟨by simp, by simp⟩) (.failIf ⟨by simp, by simp⟩)

theorem joinsIssues_plain (view : ViewAsset) (aliases : List String) (joins : List JoinDefinition) :
    AllIssues IsPlain (joinsIssues T catalog view aliases joins).1 := by
  induction joins generalizing aliases with
  | nil => exact .nil
  | cons join joins ih =>
    have hjoin : AllIssues IsPlain (joinIssues T catalog view aliases join).1 := by
      refine .append ?_ (.flatMap (referenceIssues_plain view _ _ _ _) _)
      repeat' apply AllIssues.append
      all_goals exact .failIf ⟨by simp, by simp⟩
    exact hjoin.append (ih _)

theorem viewIssues_plain (view : ViewAsset) : AllIssues IsPlain (viewIssues T catalog view) := by
  have hcolumn (aliases : List String) (expression : String) : AllIssues IsPlain (columnIssues T catalog view aliases expression) :=
    (AllIssues.failIf ⟨by simp, by simp⟩).append (.flatMap (referenceIssues_plain view _ _ _ _) _)
  refine .ite .nil ((AllIssues.append ?_ (joinsIssues_plain view _ _)).append (.flatMap (hcolumn _) _))
  repeat' apply AllIssues.append
  all_goals exact .failIf ⟨by simp, by simp⟩

theorem questionIssues_plain (qa : QAAsset) : AllIssues IsPlain (questionIssues T catalog qa) := by
  have hcatalog (parsed : ParsedQuery) : AllIssues IsPlain (validateQueryCatalog T parsed qa.assetId catalog) :=
    (AllIssues.flatMap (fun _ => .failIf ⟨by simp, by simp⟩) _).append (.flatMap (fun _ => .failIf ⟨by simp, by simp⟩) _)
  have hpreflight : AllIssues IsPlain (preflightIssues T qa) := by
    unfold preflightIssues
    split
    · exact .nil
    · refine .singleton ⟨?_, ?_⟩
      all_goals
        dsimp only
        split <;> simp
  refine .ite .nil ((AllIssues.failIf ⟨by simp, by simp⟩).append (.ite (.singleton ⟨by simp, by simp⟩) ?_))
  split
  · exact .singleton ⟨by simp, by simp⟩
  · exact hpreflight.append (hcatalog _)

theorem plainIssues_plain : AllIssues IsPlain (plainIssues T external ir) := by
  have hversions : AllIssues IsPlain (schemaVersionIssues ir) :=
    (AllIssues.failIf ⟨by simp, by simp⟩).append (.flatMap (fun _ => .failIf ⟨by simp, by simp⟩) _)
  have hdependencies (metric : MetricAsset) : AllIssues IsPlain (unknownDependencies ir.metrics metric) :=
    .ite .nil (.flatMap (fun _ => .failIf ⟨by simp, by simp⟩) _)
  exact ((((hversions.append (.flatMap assetMetadataIssues_plain _)).append (.flatMap metricIssues_plain _)).append
    (.flatMap viewIssues_plain _)).append (.flatMap questionIssues_plain _)).append (.flatMap hdependencies _)

end Plain

/-! ## Verdicts -/

section Verdicts

variable {T : AuthoringTools} {external : List (String × List String)} {ir ir' : AuthoringIR}

theorem cycleIssues_ne_nil_iff {metrics : List MetricAsset} : cycleIssues metrics ≠ [] ↔ Search.Circular (dependencyGraph metrics) := by
  have hkeys : (dependencyGraph metrics).keys ⊆ sortedStr (dependencyGraph metrics).keys := fun key hkey => (List.mem_insertionSort _).mpr hkey
  rw [cycleIssues, ne_eq, List.map_eq_nil_iff]
  exact Search.visitAll_cycles_iff hkeys

theorem mem_codes_iff (hids : ∀ metric ∈ ir.metrics, metric.assetId ≠ "") {code : String} :
    code ∈ (validateAuthoringIR T external ir).issues.map AuthoringIssue.code ↔
      code ∈ (plainIssues T external ir).map AuthoringIssue.code ∨ (code = "duplicate_metric_key" ∧ ¬(keyTokens T ir.metrics).Nodup) ∨
        (code = "duplicate_metric_alias" ∧ ¬Quiet T ir.metrics) ∨
        (code = "formula_dependency_cycle" ∧ Search.Circular (dependencyGraph ir.metrics)) := by
  have hseen := seen (T := T) ir.metrics hids
  have hnames : (∃ issue ∈ duplicateMetricIssues T ir.metrics, issue.code = code) ↔
      (code = "duplicate_metric_key" ∧ ¬(keyTokens T ir.metrics).Nodup) ∨ (code = "duplicate_metric_alias" ∧ ¬Quiet T ir.metrics) := by
    rw [← hseen.duplicateKey, ← hseen.duplicateAlias]
    constructor
    · rintro ⟨issue, hissue, rfl⟩
      exact (hseen.codes issue hissue).imp (fun h => ⟨h, issue, hissue, h⟩) fun h => ⟨h, issue, hissue, h⟩
    · rintro (⟨rfl, h⟩ | ⟨rfl, h⟩)
      · exact h
      · exact h
  have hcycles : (∃ issue ∈ cycleIssues ir.metrics, issue.code = code) ↔
      code = "formula_dependency_cycle" ∧ Search.Circular (dependencyGraph ir.metrics) := by
    have hcode : ∀ issue ∈ cycleIssues ir.metrics, issue.code = "formula_dependency_cycle" := by
      intro issue hissue
      obtain ⟨cycle, -, rfl⟩ := List.mem_map.mp hissue
      rfl
    rw [← cycleIssues_ne_nil_iff]
    constructor
    · rintro ⟨issue, hissue, rfl⟩
      exact ⟨hcode issue hissue, List.ne_nil_of_mem hissue⟩
    · rintro ⟨rfl, hne⟩
      obtain ⟨issue, hissue⟩ := List.exists_mem_of_ne_nil _ hne
      exact ⟨issue, hissue, hcode issue hissue⟩
  have hfound : ∀ issue, issue ∈ (validateAuthoringIR T external ir).issues ↔ issue ∈ foundIssues T external ir := fun issue => mem_sortBy
  simp only [List.mem_map, hfound, mem_foundIssues_iff, or_and_right, exists_or, hnames, hcycles, or_assoc]

theorem ok_iff_plain (hids : ∀ metric ∈ ir.metrics, metric.assetId ≠ "") :
    (validateAuthoringIR T external ir).ok = true ↔ (∀ issue ∈ plainIssues T external ir, issue.severity ≠ .error) ∧
      (keyTokens T ir.metrics).Nodup ∧ Quiet T ir.metrics ∧ ¬Search.Circular (dependencyGraph ir.metrics) := by
  have hseen := seen (T := T) ir.metrics hids
  have hnames : (∀ issue ∈ duplicateMetricIssues T ir.metrics, issue.severity ≠ .error) ↔ (keyTokens T ir.metrics).Nodup ∧ Quiet T ir.metrics := by
    rw [← not_iff_not, not_and_or, ← hseen.duplicateKey, ← hseen.duplicateAlias]
    constructor
    · intro h
      push Not at h
      obtain ⟨issue, hissue, -⟩ := h
      exact (hseen.codes issue hissue).imp (fun h => ⟨issue, hissue, h⟩) fun h => ⟨issue, hissue, h⟩
    · rintro (⟨issue, hissue, -⟩ | ⟨issue, hissue, -⟩) h
      · exact h issue hissue (ReleaseAux.duplicateMetricIssues_errors T ir.metrics issue hissue)
      · exact h issue hissue (ReleaseAux.duplicateMetricIssues_errors T ir.metrics issue hissue)
  have hcycles : (∀ issue ∈ cycleIssues ir.metrics, issue.severity ≠ .error) ↔ ¬Search.Circular (dependencyGraph ir.metrics) := by
    rw [← cycleIssues_ne_nil_iff, not_ne_iff, List.eq_nil_iff_forall_not_mem]
    refine forall_congr' fun issue => imp_congr_right fun hissue => ?_
    obtain ⟨cycle, -, rfl⟩ := List.mem_map.mp hissue
    exact iff_of_false (fun h => h rfl) fun h => h
  rw [ReleaseAux.ok_iff, ← hcycles, ← and_assoc (a := (keyTokens T ir.metrics).Nodup), ← hnames]
  simp only [mem_foundIssues_iff, or_imp, forall_and]

/-- Names in another order: no key more is used twice. -/
theorem keyTokens_nodup_iff {metrics order : List MetricAsset} (h : order.Perm metrics) : (keyTokens T order).Nodup ↔ (keyTokens T metrics).Nodup :=
  ((h.map _).filter _).nodup_iff

/-- Two orders of a set have the same verdict exactly where both find aliases twice or none, and cycles or none. -/
theorem sameVerdict_iff (hids : ∀ metric ∈ ir.metrics, metric.assetId ≠ "") (h : Reordered ir ir') :
    SameVerdict (validateAuthoringIR T external ir') (validateAuthoringIR T external ir) ↔
      (Quiet T ir'.metrics ↔ Quiet T ir.metrics) ∧
        (Search.Circular (dependencyGraph ir'.metrics) ↔ Search.Circular (dependencyGraph ir.metrics)) := by
  have hids' : ∀ metric ∈ ir'.metrics, metric.assetId ≠ "" := fun metric hmetric => hids metric (h.metrics.mem_iff.mp hmetric)
  have hplain : ∀ code, code ∈ (plainIssues T external ir').map AuthoringIssue.code ↔ code ∈ (plainIssues T external ir).map AuthoringIssue.code := by
    intro code
    simp only [List.mem_map, mem_plainIssues h]
  constructor
  · rintro ⟨-, hcodes⟩
    have hnone : ∀ code, code ∈ (plainIssues T external ir).map AuthoringIssue.code →
        code ≠ "duplicate_metric_alias" ∧ code ≠ "formula_dependency_cycle" := by
      intro code hcode
      obtain ⟨issue, hissue, rfl⟩ := List.mem_map.mp hcode
      exact plainIssues_plain issue hissue
    constructor
    · have hiff := hcodes "duplicate_metric_alias"
      rw [mem_codes_iff hids', mem_codes_iff hids, hplain] at hiff
      have hnot : "duplicate_metric_alias" ∉ (plainIssues T external ir).map AuthoringIssue.code := fun hmem => (hnone _ hmem).1 rfl
      simpa [hnot, not_iff_not] using hiff
    · have hiff := hcodes "formula_dependency_cycle"
      rw [mem_codes_iff hids', mem_codes_iff hids, hplain] at hiff
      have hnot : "formula_dependency_cycle" ∉ (plainIssues T external ir).map AuthoringIssue.code := fun hmem => (hnone _ hmem).2 rfl
      simpa [hnot] using hiff
  · rintro ⟨hquiet, hcircular⟩
    constructor
    · refine Bool.eq_iff_iff.mpr ?_
      rw [ok_iff_plain hids', ok_iff_plain hids, keyTokens_nodup_iff h.metrics, hquiet, hcircular]
      simp only [mem_plainIssues h]
    · intro code
      rw [mem_codes_iff hids', mem_codes_iff hids, hplain, keyTokens_nodup_iff h.metrics, hquiet, hcircular]

variable (T external)

/-- The verdict on a set whose metrics have identities does not depend on its order exactly where the names of the metrics stand apart, or
share an alias, or go round, and their cycles do not hang on which metric a key stands for. -/
theorem authoring_order_iff (ir : AuthoringIR) (hids : ∀ metric ∈ ir.metrics, metric.assetId ≠ "") :
    (∀ ir', Reordered ir ir' → SameVerdict (validateAuthoringIR T external ir') (validateAuthoringIR T external ir)) ↔
      (NamesApart T ir.metrics ∨ AliasShared T ir.metrics ∨ NamesGoRound T ir.metrics) ∧ CyclesSettled ir.metrics := by
  rw [← quiet_settled_iff, ← cycles_settled_iff]
  constructor
  · intro h
    have hboth : ∀ order : List MetricAsset, order.Perm ir.metrics → (Quiet T order ↔ Quiet T ir.metrics) ∧
        (Search.Circular (dependencyGraph order) ↔ Search.Circular (dependencyGraph ir.metrics)) := by
      intro order horder
      have hreordered : Reordered ir { ir with metrics := order } := ⟨horder, .refl _, .refl _, rfl⟩
      exact (sameVerdict_iff hids hreordered).mp (h _ hreordered)
    exact ⟨fun order horder => (hboth order horder).1, fun order horder => (hboth order horder).2⟩
  · rintro ⟨hquiet, hcycles⟩ ir' h
    exact (sameVerdict_iff hids h).mpr ⟨hquiet _ h.metrics, hcycles _ h.metrics⟩

end Verdicts

/-- A set of two headings with names and aliases of their own. -/
theorem authoring_order_two : (∀ metric ∈ twoKeys.metrics, metric.assetId ≠ "") ∧ ∀ ir', Reordered twoKeys ir' →
    SameVerdict (validateAuthoringIR plainTools [] ir') (validateAuthoringIR plainTools [] twoKeys) := by
  refine ⟨by decide, (authoring_order_iff plainTools [] twoKeys (by decide)).mpr ⟨.inl ?_, fun pick pick' hpick hpick' => ?_⟩⟩
  · unfold NamesApart GoesBy
    decide +kernel
  · have hnone : ∀ metric ∈ twoKeys.metrics, metric.dependencies = [] := by decide
    have hnever : ∀ pick, Picks twoKeys.metrics pick → ¬Cyclic pick := by
      rintro pick hpick ⟨key, hcycle⟩
      obtain ⟨b, ⟨metric, hmetric, hb⟩, -⟩ := Relation.TransGen.head'_iff.mp hcycle
      rw [hnone metric (hpick.picked key metric hmetric).1] at hb
      nomatch hb
    exact iff_of_false (hnever pick hpick) (hnever pick' hpick')

/-- A metric with a key and aliases. -/
def namedMetric (key : String) (names : List String) : MetricAsset := { headingMetric key key key with aliases := names }

/-- The key of the first metric is an alias of the second. -/
def keyFirst : AuthoringIR :=
  { metrics := [namedMetric "orders" [], namedMetric "all_orders" ["orders"]], qas := [ordersQuestion "orders"], views := [ordersView] }

/-- The same metrics, the one with the alias first. -/
def aliasFirst : AuthoringIR := { keyFirst with metrics := keyFirst.metrics.reverse }

/-- A name used twice is found where its key comes first, and not where its alias does. -/
theorem authoring_order_missed :
    Reordered keyFirst aliasFirst ∧ (validateAuthoringIR plainTools [] keyFirst).ok = false ∧
      (validateAuthoringIR plainTools [] aliasFirst).ok = true := by
  refine ⟨⟨List.reverse_perm _, .refl _, .refl _, rfl⟩, ?_, ?_⟩
  · decide +kernel
  · decide +kernel

end Nl2Sql.Authoring
