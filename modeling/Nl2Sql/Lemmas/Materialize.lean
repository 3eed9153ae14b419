import Nl2Sql.Semantic.Materialize

/-!
# Lemmas about materialization

First the order of the assets: whatever it is, they are sorted before they are used, by ids that differ. Then the aliases: adding them one
after another keeps the first of each, and fails exactly where two assets have one. Last the relations an authored set names, and their
spellings, which the loop over the assets gathers.
-/

namespace Nl2Sql.Authoring

open Py

namespace MaterializeAux

theorem pure_eq_ok {α : Type} {a b : α} : (pure a : Except MaterializeError α) = .ok b ↔ a = b :=
  ⟨fun h => by cases h; rfl, fun h => by rw [h]; rfl⟩

theorem raiseIf_eq_ok {c : Prop} [Decidable c] {message : String} {u : Unit} : raiseIf c message = .ok u ↔ ¬c := by
  unfold raiseIf
  by_cases h : c
  · rw [if_pos h]
    exact ⟨fun h' => (nomatch h'), fun h' => absurd h h'⟩
  · rw [if_neg h]
    exact ⟨fun _ => h, fun _ => rfl⟩

theorem raiseIf_congr {c c' : Prop} [Decidable c] [Decidable c'] (h : c ↔ c') (message : String) : raiseIf c message = raiseIf c' message := by
  unfold raiseIf
  simp only [h]

theorem orRaise_eq_ok {α : Type} {e : MaterializeError} {o : Option α} {a : α} : orRaise e o = .ok a ↔ o = some a := by
  cases o with
  | none => exact ⟨fun h => (by cases h), fun h => (by cases h)⟩
  | some b => exact ⟨fun h => by cases h; rfl, fun h => by cases h; rfl⟩

end MaterializeAux

open MaterializeAux

/-! ## The order of the assets -/

/-- The same assets in another order. -/
structure AuthoringIR.Reorders (ir ir' : AuthoringIR) : Prop where
  metrics : ir.metrics.Perm ir'.metrics
  qas : ir.qas.Perm ir'.qas
  views : ir.views.Perm ir'.views
  schemaVersion : ir.schemaVersion = ir'.schemaVersion

namespace MaterializeAux

variable {U : UnicodeForms} {sha256 : String → String} {ir ir' : AuthoringIR} {report : ValidationReport}

theorem assets_perm (h : ir.Reorders ir') : ir.assets.Perm ir'.assets :=
  ((h.metrics.map _).append (h.qas.map _)).append (h.views.map _)

theorem sortedAssets_eq (h : ir.Reorders ir') (hids : (ir.assets.map AuthoringAsset.assetId).Nodup) :
    ir.sortedAssets = ir'.sortedAssets := sortBy_eq_of_perm (assets_perm h) hids

theorem checksum_eq (h : ir.Reorders ir') (hids : (ir.assets.map AuthoringAsset.assetId).Nodup) :
    ir.checksum sha256 = ir'.checksum sha256 := by
  unfold AuthoringIR.checksum AuthoringIR.toPayload
  rw [sortedAssets_eq h hids, h.schemaVersion]

theorem sorted_metrics_eq (h : ir.Reorders ir') (hids : (ir.assets.map AuthoringAsset.assetId).Nodup) :
    sortBy MetricAsset.assetId ir.metrics = sortBy MetricAsset.assetId ir'.metrics := by
  refine sortBy_eq_of_perm h.metrics ?_
  unfold AuthoringIR.assets at hids
  rw [List.map_append, List.map_append, List.map_map] at hids
  exact hids.of_append_left.of_append_left

theorem sorted_qas_eq (h : ir.Reorders ir') (hids : (ir.assets.map AuthoringAsset.assetId).Nodup) :
    sortBy QAAsset.assetId ir.qas = sortBy QAAsset.assetId ir'.qas := by
  refine sortBy_eq_of_perm h.qas ?_
  unfold AuthoringIR.assets at hids
  rw [List.map_append, List.map_append, List.map_map, List.map_map] at hids
  exact hids.of_append_left.of_append_right

theorem sorted_views_eq (h : ir.Reorders ir') (hids : (ir.assets.map AuthoringAsset.assetId).Nodup) :
    sortBy ViewAsset.assetId ir.views = sortBy ViewAsset.assetId ir'.views := by
  refine sortBy_eq_of_perm h.views ?_
  unfold AuthoringIR.assets at hids
  rw [List.map_append, List.map_append, List.map_map, List.map_map, List.map_map] at hids
  exact hids.of_append_right

/-- A dictionary of different keys does not depend on the order they were set in. -/
theorem get?_ofList_perm {κ υ : Type} [DecidableEq κ] {pairs pairs' : List (κ × υ)} (h : pairs.Perm pairs')
    (hkeys : (pairs.map Prod.fst).Nodup) (k : κ) : (Dict.ofList pairs).get? k = (Dict.ofList pairs').get? k := by
  have hkeys' : (pairs'.map Prod.fst).Perm (pairs.map Prod.fst) := (h.map Prod.fst).symm
  by_cases hk : k ∈ pairs.map Prod.fst
  · obtain ⟨v, hv, hget⟩ := Dict.get?_update_of_mem hk Dict.empty
    obtain ⟨v', hv', hget'⟩ := Dict.get?_update_of_mem (hkeys'.mem_iff.mpr hk) Dict.empty
    have hsame := List.inj_on_of_nodup_map hkeys hv (h.mem_iff.mpr hv') rfl
    rw [(Prod.mk.inj hsame).2] at hget
    exact hget.trans hget'.symm
  · exact (Dict.get?_update_of_not_mem hk Dict.empty).trans
      (Dict.get?_update_of_not_mem (fun h' => hk (hkeys'.mem_iff.mp h')) Dict.empty).symm

theorem metricsByKey_get? (h : ir.Reorders ir') (hkeys : (ir.metrics.map MetricAsset.metricKey).Nodup) (k : String) :
    ir.metricsByKey.get? k = ir'.metricsByKey.get? k := by
  refine get?_ofList_perm (h.metrics.map _) ?_ k
  rw [List.map_map]
  exact hkeys

/-- The edges read the metrics by their keys only. -/
theorem materializeEdges_congr {C C' : EdgeContext} (hforms : C.forms = C'.forms) (hsha : C.sha256 = C'.sha256)
    (hreport : C.report = C'.report) (hmetrics : ∀ k, C.metricsByKey.get? k = C'.metricsByKey.get? k)
    (hrelations : C.relationIds = C'.relationIds) (hstatus : C.statusByAssetId = C'.statusByAssetId) (h : ir.Reorders ir')
    (hids : (ir.assets.map AuthoringAsset.assetId).Nodup) : C.materializeEdges ir = C'.materializeEdges ir' := by
  obtain ⟨forms, sha, report, metrics, relations, status⟩ := C
  obtain ⟨forms', sha', report', metrics', relations', status'⟩ := C'
  simp only at hforms hsha hreport hmetrics hrelations hstatus
  subst hforms hsha hreport hrelations hstatus
  have hmetric : EdgeContext.metricEdges ⟨forms, sha, report, metrics, relations, status⟩ =
      EdgeContext.metricEdges ⟨forms, sha, report, metrics', relations, status⟩ := by
    have hdependency : EdgeContext.dependencyEdge ⟨forms, sha, report, metrics, relations, status⟩ =
        EdgeContext.dependencyEdge ⟨forms, sha, report, metrics', relations, status⟩ := by
      funext metric sourceStatus dependencyKey
      unfold EdgeContext.dependencyEdge
      simp only [hmetrics]
      rfl
    funext metric
    unfold EdgeContext.metricEdges
    rw [hdependency]
    rfl
  have hquestion : EdgeContext.questionEdges ⟨forms, sha, report, metrics, relations, status⟩ =
      EdgeContext.questionEdges ⟨forms, sha, report, metrics', relations, status⟩ := by
    have hedge : EdgeContext.questionEdge ⟨forms, sha, report, metrics, relations, status⟩ =
        EdgeContext.questionEdge ⟨forms, sha, report, metrics', relations, status⟩ := by
      funext qa metricKey
      unfold EdgeContext.questionEdge
      simp only [hmetrics]
      rfl
    funext qa
    unfold EdgeContext.questionEdges
    rw [hedge]
  unfold EdgeContext.materializeEdges
  rw [hmetric, hquestion, sorted_metrics_eq h hids, sorted_qas_eq h hids, sorted_views_eq h hids]
  rfl

theorem validateAlignment_eq (h : ir.Reorders ir') (hids : (ir.assets.map AuthoringAsset.assetId).Nodup) :
    validateAlignment sha256 ir report = validateAlignment sha256 ir' report := by
  have hperm := assets_perm h
  have hmem : ∀ a, a ∈ ir.assets ↔ a ∈ ir'.assets := fun a => hperm.mem_iff
  have hmemId : ∀ a, a ∈ ir.assets.map AuthoringAsset.assetId ↔ a ∈ ir'.assets.map AuthoringAsset.assetId :=
    fun a => (hperm.map _).mem_iff
  have hsame : ∀ keys : List String, SameSet (ir.assets.map AuthoringAsset.assetId) keys ↔
      SameSet (ir'.assets.map AuthoringAsset.assetId) keys := by
    intro keys
    unfold SameSet
    simp only [hmemId]
  unfold validateAlignment
  rw [checksum_eq h hids, h.schemaVersion]
  simp only
  rw [raiseIf_congr (exists_congr fun assetId => and_congr_left fun _ => hmemId assetId),
    raiseIf_congr (not_congr (hperm.map AuthoringAsset.assetId).nodup_iff),
    raiseIf_congr (or_congr (not_congr (hsame report.assetStatuses.keys)) (not_congr (hsame report.assetDomains.keys))),
    raiseIf_congr (exists_congr fun asset => and_congr_left fun _ => hmem asset)]

/-- What validation of the alignment says of the assets. -/
theorem ids_of_aligned (h : validateAlignment sha256 ir report = .ok ()) : (ir.assets.map AuthoringAsset.assetId).Nodup := by
  unfold validateAlignment at h
  simp only [bind_eq_ok, raiseIf_eq_ok, not_not] at h
  obtain ⟨_, -, _, -, _, -, _, hids, -⟩ := h
  exact hids

/-- The assets may come in any order. -/
theorem materialize_reorders (h : ir.Reorders ir') (hids : (ir.assets.map AuthoringAsset.assetId).Nodup)
    (hkeys : (ir.metrics.map MetricAsset.metricKey).Nodup) (setOrder : List String → List String) :
    materializeAuthoringIR U sha256 setOrder ir report = materializeAuthoringIR U sha256 setOrder ir' report := by
  have hsorted := sortedAssets_eq h hids
  have hpushes : authoredPushes ir = authoredPushes ir' := by
    unfold authoredPushes
    rw [hsorted]
  have hedges (relations : Dict String String) (status : Dict String AssetStatus) :
      EdgeContext.materializeEdges ⟨U, sha256, report, ir.metricsByKey, relations, status⟩ ir =
        EdgeContext.materializeEdges ⟨U, sha256, report, ir'.metricsByKey, relations, status⟩ ir' :=
    materializeEdges_congr rfl rfl rfl (metricsByKey_get? h hkeys) rfl rfl h hids
  have hcandidate : candidateFrom sha256 ir = candidateFrom sha256 ir' := by
    funext report owners assets aliases edges
    unfold candidateFrom releaseChecksum
    rw [checksum_eq h hids, h.schemaVersion]
  unfold materializeAuthoringIR
  rw [validateAlignment_eq h hids, hsorted, hpushes, hcandidate]
  simp only [hedges]

end MaterializeAux

/-! ## Aliases -/

/-- The record that a text added for an asset gives under a normalized alias, if it gives one. -/
def aliasOf (U : UnicodeForms) (normalized : String) (push : String × String) : Option SemanticAliasRecord :=
  if normalized ≠ "" ∧ U.normalize push.2 = normalized then some (aliasRecord U push.1 push.2) else none

/-- No two assets have one normalized alias. -/
def Agree (U : UnicodeForms) (pushes : List (String × String)) : Prop :=
  ∀ push ∈ pushes, ∀ other ∈ pushes, U.normalize push.2 ≠ "" → U.normalize push.2 = U.normalize other.2 → push.1 = other.1

namespace MaterializeAux

variable {U : UnicodeForms}

theorem aliasOf_eq_some {normalized : String} {push : String × String} {r : SemanticAliasRecord} (h : aliasOf U normalized push = some r) :
    normalized ≠ "" ∧ U.normalize push.2 = normalized ∧ r = aliasRecord U push.1 push.2 := by
  unfold aliasOf at h
  split at h
  · rename_i hpush
    exact ⟨hpush.1, hpush.2, (Option.some.inj h).symm⟩
  · nomatch h

theorem aliasOf_of_eq {normalized : String} {push : String × String} (hne : normalized ≠ "") (h : U.normalize push.2 = normalized) :
    aliasOf U normalized push = some (aliasRecord U push.1 push.2) := if_pos ⟨hne, h⟩

theorem aliasOf_of_ne {normalized : String} {push : String × String} (h : U.normalize push.2 ≠ normalized) :
    aliasOf U normalized push = none := if_neg fun hpush => h hpush.2

/-- Adding a text succeeds unless another asset has its alias, and then the first record under each alias stays. -/
theorem addAlias_eq_ok {aliases aliases' : Dict String SemanticAliasRecord} {push : String × String}
    (h : addAlias U aliases push = .ok aliases') (normalized : String) :
    aliases'.get? normalized = (aliases.get? normalized).or (aliasOf U normalized push) := by
  unfold addAlias at h
  simp only at h
  split at h
  · rename_i hempty
    cases h
    by_cases hsame : U.normalize push.2 = normalized
    · have hnone : aliasOf U normalized push = none := if_neg fun hpush => hpush.1 (hsame ▸ hempty)
      rw [hnone, Option.or_none]
    · rw [aliasOf_of_ne hsame, Option.or_none]
  · rename_i hne
    split at h
    · rename_i existing hexisting
      split at h
      · cases h
      · cases h
        by_cases hsame : U.normalize push.2 = normalized
        · rw [hsame] at hexisting
          rw [hexisting, Option.some_or]
        · rw [aliasOf_of_ne hsame, Option.or_none]
    · rename_i hnone
      cases h
      by_cases hsame : U.normalize push.2 = normalized
      · subst hsame
        rw [Dict.get?_set_self, hnone, Option.none_or, aliasOf_of_eq hne rfl]
      · rw [Dict.get?_set_of_ne _ _ hsame, aliasOf_of_ne hsame, Option.or_none]

theorem addAlias_isOk {aliases : Dict String SemanticAliasRecord} {push : String × String} :
    (∃ aliases', addAlias U aliases push = .ok aliases') ↔
      ∀ existing, aliases.get? (U.normalize push.2) = some existing → U.normalize push.2 ≠ "" → existing.assetId = push.1 := by
  unfold addAlias
  simp only
  by_cases hempty : U.normalize push.2 = ""
  · rw [if_pos hempty]
    exact iff_of_true ⟨_, rfl⟩ fun _ _ hne => absurd hempty hne
  · rw [if_neg hempty]
    cases hget : aliases.get? (U.normalize push.2) with
    | none => exact iff_of_true ⟨_, rfl⟩ fun _ h => (by cases h)
    | some existing =>
      simp only
      by_cases hsame : existing.assetId = push.1
      · rw [if_neg (not_not.mpr hsame)]
        exact iff_of_true ⟨_, rfl⟩ fun other hother _ => Option.some.inj hother ▸ hsame
      · rw [if_pos hsame]
        exact iff_of_false ((by rintro ⟨_, h⟩; cases h)) fun hall => hsame (hall existing rfl hempty)

/-- The first text under each alias stays. -/
theorem foldlM_addAlias_get? (pushes : List (String × String)) {aliases aliases' : Dict String SemanticAliasRecord}
    (h : pushes.foldlM (addAlias U) aliases = .ok aliases') (normalized : String) :
    aliases'.get? normalized = (aliases.get? normalized).or (pushes.findSome? (aliasOf U normalized)) := by
  induction pushes generalizing aliases with
  | nil =>
    cases h
    rw [List.findSome?_nil, Option.or_none]
  | cons push pushes ih =>
    rw [List.foldlM_cons, bind_eq_ok] at h
    obtain ⟨next, hnext, h⟩ := h
    rw [ih h, addAlias_eq_ok hnext, List.findSome?_cons, Option.or_assoc]
    cases aliasOf U normalized push with
    | none => rw [Option.none_or]
    | some r => rw [Option.some_or]

/-- Adding texts succeeds where no two assets have one alias, those already there included. -/
theorem foldlM_addAlias_isOk (pushes : List (String × String)) (aliases : Dict String SemanticAliasRecord) :
    (∃ aliases', pushes.foldlM (addAlias U) aliases = .ok aliases') ↔
      (∀ push ∈ pushes, ∀ existing, aliases.get? (U.normalize push.2) = some existing → U.normalize push.2 ≠ "" →
        existing.assetId = push.1) ∧ Agree U pushes := by
  induction pushes generalizing aliases with
  | nil => exact iff_of_true ⟨_, rfl⟩ ⟨fun _ h => absurd h List.not_mem_nil, fun _ h => absurd h List.not_mem_nil⟩
  | cons push pushes ih =>
    have hsplit : (∃ aliases', (push :: pushes).foldlM (addAlias U) aliases = .ok aliases') ↔
        ∃ next, addAlias U aliases push = .ok next ∧ ∃ aliases', pushes.foldlM (addAlias U) next = .ok aliases' := by
      simp only [List.foldlM_cons, bind_eq_ok]
      exact ⟨fun ⟨a, n, hn, ha⟩ => ⟨n, hn, a, ha⟩, fun ⟨n, hn, a, ha⟩ => ⟨a, n, hn, ha⟩⟩
    rw [hsplit]
    constructor
    · rintro ⟨next, hnext, hrest⟩
      obtain ⟨hexisting, hagree⟩ := (ih next).mp hrest
      have hget := addAlias_eq_ok hnext
      have hpush := addAlias_isOk.mp ⟨next, hnext⟩
      have hfirst : ∀ other ∈ pushes, U.normalize push.2 ≠ "" → U.normalize push.2 = U.normalize other.2 → push.1 = other.1 := by
        intro other hother hne hsame
        cases hold : aliases.get? (U.normalize push.2) with
        | some existing =>
          have hnew := hget (U.normalize push.2)
          rw [hold, Option.some_or] at hnew
          rw [← hpush existing hold hne]
          exact hexisting other hother existing (hsame ▸ hnew) (hsame ▸ hne)
        | none =>
          have hnew := hget (U.normalize push.2)
          rw [hold, Option.none_or, aliasOf_of_eq hne rfl] at hnew
          exact hexisting other hother _ (hsame ▸ hnew) (hsame ▸ hne)
      constructor
      · intro other hother existing hold hne
        rcases List.mem_cons.mp hother with rfl | hother
        · exact hpush existing hold hne
        · refine hexisting other hother existing ?_ hne
          rw [hget, hold, Option.some_or]
      · intro a hmemA b hmemB hne hsame
        rcases List.mem_cons.mp hmemA with heqA | ha
        · rcases List.mem_cons.mp hmemB with heqB | hb
          · rw [heqA, heqB]
          · rw [heqA] at hne hsame ⊢
            exact hfirst b hb hne hsame
        · rcases List.mem_cons.mp hmemB with heqB | hb
          · rw [heqB] at hsame ⊢
            exact (hfirst a ha (hsame ▸ hne) hsame.symm).symm
          · exact hagree a ha b hb hne hsame
    · rintro ⟨hexisting, hagree⟩
      obtain ⟨next, hnext⟩ := addAlias_isOk.mpr fun existing hold hne => hexisting push List.mem_cons_self existing hold hne
      refine ⟨next, hnext, (ih next).mpr ⟨?_, fun a ha b hb => hagree a (List.mem_cons_of_mem _ ha) b (List.mem_cons_of_mem _ hb)⟩⟩
      intro other hother existing hnew hne
      rw [addAlias_eq_ok hnext] at hnew
      cases hold : aliases.get? (U.normalize other.2) with
      | some first =>
        rw [hold, Option.some_or] at hnew
        exact Option.some.inj hnew ▸ hexisting other (List.mem_cons_of_mem _ hother) first hold hne
      | none =>
        rw [hold, Option.none_or] at hnew
        obtain ⟨-, hsame, rfl⟩ := aliasOf_eq_some hnew
        exact hagree push List.mem_cons_self other (List.mem_cons_of_mem _ hother) (hsame ▸ hne) hsame

theorem materializeAliases_isOk {pushes : List (String × String)} :
    (∃ records, materializeAliases U pushes = .ok records) ↔ Agree U pushes := by
  have hfold := foldlM_addAlias_isOk (U := U) pushes Dict.empty
  have hempty : ∀ push ∈ pushes, ∀ existing, (Dict.empty : Dict String SemanticAliasRecord).get? (U.normalize push.2) = some existing →
      U.normalize push.2 ≠ "" → existing.assetId = push.1 := fun _ _ _ h => (nomatch h)
  rw [and_iff_right hempty] at hfold
  rw [← hfold]
  unfold materializeAliases
  simp only [bind_eq_ok, pure_eq_ok]
  exact ⟨fun ⟨_, a, ha, _⟩ => ⟨a, ha⟩, fun ⟨a, ha⟩ => ⟨_, a, ha, rfl⟩⟩

/-- The aliases are what the first text under each alias gives. -/
theorem mem_materializeAliases {pushes : List (String × String)} {records : List SemanticAliasRecord}
    (h : materializeAliases U pushes = .ok records) {r : SemanticAliasRecord} :
    r ∈ records ↔ pushes.findSome? (aliasOf U r.normalizedAlias) = some r := by
  unfold materializeAliases at h
  simp only [bind_eq_ok, pure_eq_ok] at h
  obtain ⟨aliases, haliases, rfl⟩ := h
  have hget := foldlM_addAlias_get? pushes haliases
  simp only [Dict.get?_empty, Option.none_or] at hget
  simp only [List.mem_map, mem_sortBy, Prod.exists, exists_eq_right]
  constructor
  · rintro ⟨normalized, hentry⟩
    have hfound := (hget normalized).symm.trans (Dict.get?_eq_some_iff.mpr hentry)
    obtain ⟨push, -, hpush⟩ := List.exists_of_findSome?_eq_some hfound
    obtain ⟨-, hsame, rfl⟩ := aliasOf_eq_some hpush
    have hkey : (aliasRecord U push.1 push.2).normalizedAlias = normalized := hsame
    rw [hkey]
    exact hfound
  · intro hfound
    exact ⟨r.normalizedAlias, Dict.get?_eq_some_iff.mp ((hget _).trans hfound)⟩

theorem entries_perm {κ υ : Type} [DecidableEq κ] {d d' : Dict κ υ} (h : ∀ k, d.get? k = d'.get? k) : d.entries.Perm d'.entries := by
  refine (List.perm_ext_iff_of_nodup (List.Nodup.of_map _ d.nodup) (List.Nodup.of_map _ d'.nodup)).mpr ?_
  rintro ⟨k, v⟩
  rw [← Dict.get?_eq_some_iff, ← Dict.get?_eq_some_iff, h]

/-- The same texts in another order give the same aliases, where each alias is first given alike. -/
theorem materializeAliases_congr {pushes pushes' : List (String × String)} (hmem : ∀ push, push ∈ pushes' → push ∈ pushes)
    (hfirst : ∀ normalized, pushes.findSome? (aliasOf U normalized) = pushes'.findSome? (aliasOf U normalized))
    {records : List SemanticAliasRecord} (h : materializeAliases U pushes = .ok records) :
    materializeAliases U pushes' = .ok records := by
  have hagree : Agree U pushes' := fun a ha b hb => materializeAliases_isOk.mp ⟨records, h⟩ a (hmem a ha) b (hmem b hb)
  obtain ⟨records', h'⟩ := materializeAliases_isOk.mpr hagree
  rw [h']
  unfold materializeAliases at h h'
  simp only [bind_eq_ok, pure_eq_ok] at h h'
  obtain ⟨aliases, haliases, rfl⟩ := h
  obtain ⟨aliases', haliases', rfl⟩ := h'
  have hget : ∀ k, aliases.get? k = aliases'.get? k := by
    intro k
    rw [foldlM_addAlias_get? pushes haliases, foldlM_addAlias_get? pushes' haliases', hfirst]
  rw [sortBy_eq_of_perm (entries_perm hget) aliases.nodup]

end MaterializeAux

end Nl2Sql.Authoring
