import Nl2Sql.Lemmas.Release
import Nl2Sql.Lib.TextSplit
import Nl2Sql.Theorems.Materialize

/-!
# Lemmas about the parts of a candidate

When a set with its report is materialized, and what comes of it: the records of its assets, the relations it names with their spellings,
and the aliases.
-/

namespace Nl2Sql.Authoring

open Py

/-- The relations that a set names, by their normalized names. -/
def AuthoringIR.relationKeys (U : UnicodeForms) (ir : AuthoringIR) : List String :=
  fromKeys ((ir.assets.flatMap relationNames).map (normalizeRelation U))

/-- The aliases that a set gives, with their assets: those of its own assets, and those of every spelling of a relation. -/
def AuthoringIR.aliasTexts (U : UnicodeForms) (sha256 : String → String) (ir : AuthoringIR) : List (String × String) :=
  authoredPushes ir ++ (ir.assets.flatMap relationNames).flatMap fun name =>
    spellingPushes (relationAssetId sha256 (normalizeRelation U name)) (strip name)

namespace ReleaseAux

open MaterializeAux

variable {T : AuthoringTools} {U : UnicodeForms} {sha256 : String → String} {external : List (String × List String)} {ir : AuthoringIR}
  {report : ValidationReport}

/-! ## Alignment -/

/-- The report of a set is of the set, so that only the ids of its assets may stand in the way. -/
theorem validateAlignment_eq_ok :
    validateAlignment T.sha256 ir (validateAuthoringIR T external ir) = .ok () ↔
      (∀ asset ∈ ir.assets, isBlank asset.assetId = false) ∧ (ir.assets.map AuthoringAsset.assetId).Nodup := by
  have hkeys {υ : Type} (f : AuthoringAsset → υ) :
      SameSet (ir.assets.map AuthoringAsset.assetId) (Dict.ofList (ir.assets.map fun asset => (asset.assetId, f asset))).keys := by
    have hmem (id : String) :
        id ∈ (Dict.ofList (ir.assets.map fun asset => (asset.assetId, f asset))).keys ↔ id ∈ ir.assets.map AuthoringAsset.assetId := by
      rw [Dict.mem_keys_ofList, List.map_map]
      rfl
    exact ⟨fun id hid => (hmem id).mpr hid, fun id hid => (hmem id).mp hid⟩
  unfold validateAlignment
  simp only [Py.bind_eq_ok, raiseIf_eq_ok, exists_const, not_not, not_or, not_exists, not_and, Bool.not_eq_true,
    List.forall_mem_map, ne_eq]
  constructor
  · rintro ⟨-, -, hnamed, hids, -⟩
    exact ⟨hnamed, hids⟩
  · rintro ⟨hnamed, hids⟩
    refine ⟨rfl, rfl, hnamed, hids, ⟨hkeys _, hkeys _⟩, fun asset hasset => ?_⟩
    refine Dict.get?_ofList_of_mem ?_ (List.mem_map_of_mem hasset)
    rw [List.map_map]
    exact hids

/-! ## Records -/

theorem isBlank_eq_false {text : String} : isBlank text = false ↔ strip text ≠ "" := by
  unfold isBlank
  rw [beq_eq_false_iff_ne]

theorem isBlank_strip {text : String} (h : strip text ≠ "") : isBlank (strip text) = false := by
  unfold isBlank
  rw [strip_strip, beq_eq_false_iff_ne]
  exact h

/-- A governance value is not blank. -/
theorem isBlank_governanceValue (value : Option String) {fallback : String} (h : isBlank fallback = false) :
    isBlank (governanceValue value fallback) = false := by
  unfold governanceValue
  split
  · rename_i hne
    exact isBlank_strip hne
  · exact h

theorem governanceValue_ne_iff {value : Option String} {fallback : String} :
    governanceValue value fallback ≠ fallback ↔ strip (value.getD "") ∉ ["", fallback] := by
  unfold governanceValue
  split <;> simp_all

/-- What all assets of a release are by themselves. -/
structure RecordPasses (record : SemanticAssetRecord) : Prop where
  domain : isBlank record.domain = false
  owner : isBlank record.owner = false
  sensitivity : isBlank record.sensitivity = false
  content : isBlank record.content = false
  type : record.assetType ∈ assetTypes
  status : record.status ∈ assetStatuses
  embedding : record.embedding = none

theorem mem_uniqueText {values : List (Option String)} {text : String} :
    text ∈ uniqueText values ↔ text ≠ "" ∧ ∃ value ∈ values, strip (value.getD "") = text := by
  have hfold (cleaned result : List String) (hresult : ∀ text ∈ result, text ≠ "") :
      text ∈ cleaned.foldl (fun result cleaned => if cleaned ≠ "" ∧ cleaned ∉ result then result ++ [cleaned] else result) result ↔
        text ∈ result ∨ text ≠ "" ∧ text ∈ cleaned := by
    induction cleaned generalizing result with
    | nil => simp
    | cons first rest ih =>
      rw [List.foldl_cons]
      split
      · rename_i hfirst
        rw [ih _ fun t ht => (List.mem_append.mp ht).elim (hresult t) fun ht => List.mem_singleton.mp ht ▸ hfirst.1]
        simp only [List.mem_append, List.mem_cons, List.not_mem_nil, or_false]
        constructor
        · rintro ((h | rfl) | h)
          · exact .inl h
          · exact .inr ⟨hfirst.1, .inl rfl⟩
          · exact .inr ⟨h.1, .inr h.2⟩
        · rintro (h | ⟨hne, rfl | h⟩)
          · exact .inl (.inl h)
          · exact .inl (.inr rfl)
          · exact .inr ⟨hne, h⟩
      · rename_i hfirst
        rw [ih _ hresult, List.mem_cons]
        constructor
        · rintro (h | h)
          · exact .inl h
          · exact .inr ⟨h.1, .inr h.2⟩
        · rintro (h | ⟨hne, rfl | h⟩)
          · exact .inl h
          · exact .inl (not_not.mp fun hnew => hfirst ⟨hne, hnew⟩)
          · exact .inr ⟨hne, h⟩
  unfold uniqueText
  rw [hfold _ _ fun _ h => absurd h List.not_mem_nil, List.mem_map]
  simp only [List.not_mem_nil, false_or]

theorem assetContent_isOk {asset : AuthoringAsset} :
    (∃ content, assetContent asset = .ok content) ↔ ∃ text ∈ contentValues asset, strip (text.getD "") ≠ "" := by
  unfold assetContent
  simp only [Py.bind_eq_ok, raiseIf_eq_ok, pure_eq_ok, exists_const, exists_and_left, exists_eq', and_true]
  constructor
  · intro hne
    obtain ⟨text, htext⟩ : ∃ text, text ∈ uniqueText (contentValues asset) := by
      refine List.exists_mem_of_ne_nil _ fun hnil => hne ?_
      rw [hnil]
      rfl
    obtain ⟨hempty, value, hvalue, rfl⟩ := mem_uniqueText.mp htext
    exact ⟨value, hvalue, hempty⟩
  · rintro ⟨value, hvalue, hempty⟩ hnil
    have hsub : (strip (value.getD "")).toList ⊆ (" ".intercalate (uniqueText (contentValues asset))).toList :=
      subset_intercalate (mem_uniqueText.mpr ⟨hempty, value, hvalue, rfl⟩)
    have hblank := isBlank_of_mem (isBlank_strip hempty) hsub
    rw [hnil] at hblank
    exact absurd hblank (by decide)

theorem isBlank_of_assetContent {asset : AuthoringAsset} {content : String} (h : assetContent asset = .ok content) :
    isBlank content = false := by
  obtain ⟨value, hvalue, hne⟩ := assetContent_isOk.mp ⟨content, h⟩
  unfold assetContent at h
  simp only [Py.bind_eq_ok, raiseIf_eq_ok, pure_eq_ok, exists_const] at h
  rw [← h.2]
  exact isBlank_of_mem (isBlank_strip hne) (subset_intercalate (mem_uniqueText.mpr ⟨hne, value, hvalue, rfl⟩))

theorem status_mem (status : AssetStatus) : status.value ∈ assetStatuses := by cases status <;> decide

theorem type_mem (type : AssetType) : type.value ∈ assetTypes := by cases type <;> decide

/-- A record is made of each asset that is governed and can be searched. -/
theorem assetRecord_isOk (hok : report.ok = true) {asset : AuthoringAsset} {status : AssetStatus} :
    (∃ record, assetRecord report asset status = .ok record) ↔
      (status = .active → strip (asset.owner.getD "") ∉ ["", "unassigned"] ∧ strip (asset.sensitivity.getD "") ∉ ["", "unclassified"]) ∧
        ∃ text ∈ contentValues asset, strip (text.getD "") ≠ "" := by
  rw [← assetContent_isOk]
  unfold assetRecord
  simp only [Py.bind_eq_ok, raiseIf_eq_ok, pure_eq_ok, exists_const, hok, true_and, not_and, not_or, ← governanceValue_ne_iff]
  constructor
  · rintro ⟨_, hgoverned, content, hcontent, _⟩
    exact ⟨hgoverned, content, hcontent⟩
  · rintro ⟨hgoverned, content, hcontent⟩
    exact ⟨_, hgoverned, content, hcontent, rfl⟩

theorem recordPasses_of_ok {asset : AuthoringAsset} {status : AssetStatus} {record : SemanticAssetRecord}
    (h : assetRecord report asset status = .ok record) : record.assetId = asset.assetId ∧ RecordPasses record := by
  unfold assetRecord at h
  simp only [Py.bind_eq_ok, raiseIf_eq_ok, pure_eq_ok, exists_const] at h
  obtain ⟨-, content, hcontent, rfl⟩ := h
  have hfallback : ∀ fallback ∈ ["unknown", "unassigned", "unclassified"], isBlank fallback = false := by decide +kernel
  have hdomain := isBlank_governanceValue (some asset.domain) (hfallback "unknown" (by simp))
  have howner := isBlank_governanceValue asset.owner (hfallback "unassigned" (by simp))
  have hsensitivity := isBlank_governanceValue asset.sensitivity (hfallback "unclassified" (by simp))
  -- reduced first: a field against `governanceValue` would unfold the stripping of its text
  refine ⟨rfl, ⟨?_, ?_, ?_, isBlank_of_assetContent hcontent, type_mem _, status_mem _, rfl⟩⟩
  · simp only [hdomain]
  · simp only [howner]
  · simp only [hsensitivity]

/-! ## The loop over the assets -/

theorem registerRelation_isOk {source : SemanticAssetRecord} {status : AssetStatus} (accumulators : Dict String RelationAccumulator)
    (name : String) : (∃ next, registerRelation U source status accumulators name = .ok next) ↔ normalizeRelation U name ≠ "" := by
  unfold registerRelation
  simp only [Py.bind_eq_ok, raiseIf_eq_ok, pure_eq_ok, exists_const, exists_and_left, exists_eq', and_true, ne_eq]

/-- What an asset needs in the loop. -/
structure AssetPasses (U : UnicodeForms) (asset : AuthoringAsset) : Prop where
  governed : asset.status = .active →
    strip (asset.owner.getD "") ∉ ["", "unassigned"] ∧ strip (asset.sensitivity.getD "") ∉ ["", "unclassified"]
  searchable : ∃ text ∈ contentValues asset, strip (text.getD "") ≠ ""
  relations : ∀ name ∈ relationNames asset, normalizeRelation U name ≠ ""

theorem materializeAsset_isOk (hok : report.ok = true) {asset : AuthoringAsset}
    (hstatus : report.assetStatuses.get? asset.assetId = some asset.status) (s : Materialized) :
    (∃ next, materializeAsset U report s asset = .ok next) ↔ AssetPasses U asset := by
  have hrelations (record : SemanticAssetRecord) :
      (∃ last, (relationNames asset).foldlM (registerRelation U record asset.status) s.accumulators = .ok last) ↔
        ∀ name ∈ relationNames asset, normalizeRelation U name ≠ "" :=
    foldlM_isOk (fun accumulators name => registerRelation_isOk accumulators name) (relationNames asset) s.accumulators
  have hrecord : (∃ record, assetRecord report asset asset.status = .ok record) ↔ _ := assetRecord_isOk hok
  unfold materializeAsset
  simp only [Py.bind_eq_ok, pure_eq_ok, orRaise_eq_ok, hstatus, Option.some.injEq, exists_eq_left']
  constructor
  · rintro ⟨next, record, hmade, accumulators, haccumulators, -⟩
    obtain ⟨hgoverned, hsearchable⟩ := hrecord.mp ⟨record, hmade⟩
    exact ⟨hgoverned, hsearchable, (hrelations record).mp ⟨accumulators, haccumulators⟩⟩
  · rintro ⟨hgoverned, hsearchable, hnames⟩
    obtain ⟨record, hmade⟩ := hrecord.mpr ⟨hgoverned, hsearchable⟩
    obtain ⟨accumulators, haccumulators⟩ := (hrelations record).mpr hnames
    exact ⟨_, record, hmade, accumulators, haccumulators, rfl⟩

/-- The loop goes through where every asset has what it needs. -/
theorem loop_isOk (hok : report.ok = true) (assets : List AuthoringAsset)
    (hstatus : ∀ asset ∈ assets, report.assetStatuses.get? asset.assetId = some asset.status) (s : Materialized) :
    (∃ last, assets.foldlM (materializeAsset U report) s = .ok last) ↔ ∀ asset ∈ assets, AssetPasses U asset := by
  induction assets generalizing s with
  | nil => exact iff_of_true ⟨s, rfl⟩ fun _ h => absurd h List.not_mem_nil
  | cons asset assets ih =>
    obtain ⟨hfirst, hrest⟩ := List.forall_mem_cons.mp hstatus
    have hstep := materializeAsset_isOk (U := U) hok hfirst s
    simp only [List.foldlM_cons, Py.bind_eq_ok, List.forall_mem_cons]
    constructor
    · rintro ⟨last, next, hnext, hlast⟩
      exact ⟨hstep.mp ⟨next, hnext⟩, (ih hrest next).mp ⟨last, hlast⟩⟩
    · rintro ⟨hpasses, hall⟩
      obtain ⟨next, hnext⟩ := hstep.mpr hpasses
      obtain ⟨last, hlast⟩ := (ih hrest next).mpr hall
      exact ⟨last, next, hnext, hlast⟩

/-- What the loop has made of some assets. -/
structure Made (report : ValidationReport) (done : List AuthoringAsset) (s : Materialized) : Prop where
  ids : s.records.map SemanticAssetRecord.assetId = done.map AuthoringAsset.assetId
  records : ∀ record ∈ s.records, RecordPasses record
  statuses : ∀ asset ∈ done, ∃ status, s.statusByAssetId.get? asset.assetId = some status
  owners : ∀ assetId owner, s.ownerByAssetId.get? assetId = some owner → isBlank owner = false

theorem Made.step {done : List AuthoringAsset} {s next : Materialized} (h : Made report done s) {asset : AuthoringAsset}
    (hnext : materializeAsset U report s asset = .ok next) : Made report (done ++ [asset]) next := by
  unfold materializeAsset at hnext
  simp only [Py.bind_eq_ok, pure_eq_ok] at hnext
  obtain ⟨status, -, record, hrecord, accumulators, -, rfl⟩ := hnext
  obtain ⟨hid, hpasses⟩ := recordPasses_of_ok hrecord
  constructor
  · rw [List.map_append, List.map_append, h.ids, List.map_singleton, List.map_singleton, hid]
  · intro other hother
    rcases List.mem_append.mp hother with hother | hother
    · exact h.records other hother
    · exact List.mem_singleton.mp hother ▸ hpasses
  · intro other hother
    by_cases hsame : record.assetId = other.assetId
    · exact ⟨status, by rw [← hsame, Dict.get?_set_self]⟩
    · rw [Dict.get?_set_of_ne _ _ hsame]
      rcases List.mem_append.mp hother with hother | hother
      · exact h.statuses other hother
      · rw [List.mem_singleton.mp hother] at hsame
        exact absurd hid hsame
  · intro assetId owner howner
    by_cases hsame : record.assetId = assetId
    · rw [← hsame, Dict.get?_set_self] at howner
      exact Option.some.inj howner ▸ hpasses.owner
    · rw [Dict.get?_set_of_ne _ _ hsame] at howner
      exact h.owners assetId owner howner

theorem Made.foldlM (assets : List AuthoringAsset) {done : List AuthoringAsset} {s last : Materialized} (h : Made report done s)
    (hlast : assets.foldlM (materializeAsset U report) s = .ok last) : Made report (done ++ assets) last := by
  induction assets generalizing done s with
  | nil =>
    cases hlast
    rwa [List.append_nil]
  | cons asset assets ih =>
    rw [List.foldlM_cons, Py.bind_eq_ok] at hlast
    obtain ⟨next, hnext, hlast⟩ := hlast
    rw [List.append_cons]
    exact ih (h.step hnext) hlast

/-- What the whole loop makes. -/
theorem made_of_loop {s : Materialized} (h : ir.sortedAssets.foldlM (materializeAsset U report) {} = .ok s) : Made report ir.sortedAssets s :=
  Made.foldlM ir.sortedAssets ⟨rfl, fun _ h => absurd h List.not_mem_nil, fun _ h => absurd h List.not_mem_nil,
    fun _ _ h => absurd h.symm (Option.some_ne_none _)⟩ h

/-! ## Relations -/

/-- The spellings of a relation are how it is named. -/
theorem mem_spellings_foldl (relations : List String) (spellings : Dict String (List String)) {key spelling : String} :
    spelling ∈ ((relations.foldl (addSpelling U) spellings).get? key).getD [] ↔
      spelling ∈ (spellings.get? key).getD [] ∨ ∃ name ∈ relations, normalizeRelation U name = key ∧ strip name = spelling := by
  induction relations generalizing spellings with
  | nil => simp
  | cons name relations ih =>
    have hadd : spelling ∈ ((addSpelling U spellings name).get? key).getD [] ↔
        spelling ∈ (spellings.get? key).getD [] ∨ normalizeRelation U name = key ∧ strip name = spelling := by
      unfold addSpelling
      by_cases hkey : normalizeRelation U name = key
      · subst hkey
        rw [Dict.get?_set_self, Option.getD_some]
        unfold setAdd
        split
        · rename_i hmem
          exact ⟨.inl, fun h => h.elim id fun h => h.2 ▸ hmem⟩
        · rw [List.mem_append, List.mem_singleton]
          exact or_congr Iff.rfl ⟨fun h => ⟨rfl, h.symm⟩, fun h => h.2.symm⟩
      · rw [Dict.get?_set_of_ne _ _ hkey]
        exact ⟨.inl, fun h => h.elim id fun h => absurd h.1 hkey⟩
    rw [List.foldl_cons, ih, hadd, or_assoc]
    simp only [List.mem_cons, exists_eq_or_imp]

theorem mem_relationNames {name : String} : name ∈ ir.sortedAssets.flatMap relationNames ↔ name ∈ ir.assets.flatMap relationNames := by
  unfold AuthoringIR.sortedAssets
  simp only [List.mem_flatMap, mem_sortBy]

theorem mem_spellings {key spelling : String} :
    spelling ∈ ((ir.spellings U).get? key).getD [] ↔
      ∃ name ∈ ir.assets.flatMap relationNames, normalizeRelation U name = key ∧ strip name = spelling := by
  unfold AuthoringIR.spellings
  rw [mem_spellings_foldl]
  simp only [Dict.get?_empty, Option.getD_none, List.not_mem_nil, false_or, mem_relationNames]

theorem mem_relationKeys {key : String} :
    key ∈ ir.relationKeys U ↔ ∃ name ∈ ir.assets.flatMap relationNames, normalizeRelation U name = key := by
  unfold AuthoringIR.relationKeys
  rw [mem_fromKeys, List.mem_map]

/-- The relations of the spellings are those that the set names. -/
theorem keys_spellings_perm : (ir.spellings U).keys.Perm (ir.relationKeys U) := by
  refine (List.perm_ext_iff_of_nodup (ir.spellings U).nodup (fromKeys_nodup _)).mpr fun key => ?_
  have hsome : key ∈ (ir.spellings U).keys ↔ ∃ names, (ir.spellings U).get? key = some names :=
    Dict.get?_isSome_iff.symm.trans Option.isSome_iff_exists
  refine Iff.trans (Iff.trans hsome ?_) mem_relationKeys.symm
  constructor
  · rintro ⟨names, hnames⟩
    obtain ⟨spelling, hspelling⟩ := List.exists_mem_of_ne_nil _ (spellings_ne_nil (Dict.get?_eq_some_iff.mp hnames))
    have hmem : spelling ∈ ((ir.spellings U).get? key).getD [] := by
      rw [hnames]
      exact hspelling
    obtain ⟨name, hname, hkey, -⟩ := mem_spellings.mp hmem
    exact ⟨name, hname, hkey⟩
  · rintro ⟨name, hname, hkey⟩
    have hspelling := mem_spellings.mpr ⟨name, hname, hkey, rfl⟩
    cases hget : (ir.spellings U).get? key with
    | some names => exact ⟨names, rfl⟩
    | none =>
      rw [hget] at hspelling
      exact absurd hspelling List.not_mem_nil

section Loop

variable {s : Materialized} (hloop : ir.sortedAssets.foldlM (materializeAsset U report) {} = .ok s)

include hloop

/-- The relations of the loop are those that the set names. -/
theorem groupIds_perm : (groupIds sha256 s.accumulators).Perm ((ir.relationKeys U).map (relationAssetId sha256)) := by
  have hgroups := relationGroups_names (namesOf_loop hloop)
  have hids : groupIds sha256 s.accumulators = (sortBy Prod.fst (ir.spellings U).entries).map fun group => relationAssetId sha256 group.1 := by
    rw [← hgroups, List.map_map]
    rfl
  rw [hids]
  refine ((sortBy_perm Prod.fst _).map _).trans ?_
  have hkeys : ((ir.spellings U).keys.map (relationAssetId sha256)).Perm _ := keys_spellings_perm.map (relationAssetId sha256)
  unfold Dict.keys at hkeys
  rwa [List.map_map] at hkeys

/-- The ids of the assets of the candidate. -/
theorem releaseIds_perm (setOrder : List String → List String) :
    ((releaseAssets U sha256 setOrder s).map SemanticAssetRecord.assetId).Perm
      (ir.assets.map AuthoringAsset.assetId ++ (ir.relationKeys U).map (relationAssetId sha256)) := by
  unfold releaseAssets
  refine ((sortBy_perm _ _).map _).trans ?_
  rw [List.map_append, (made_of_loop hloop).ids]
  refine ((sortBy_perm _ _).map _).append ?_
  unfold relationAssets
  rw [List.map_map]
  exact groupIds_perm hloop

/-- The id of a relation that is named. -/
theorem relationIds_get? {name : String} (hname : name ∈ ir.assets.flatMap relationNames) :
    (relationIds sha256 s.accumulators).get? (normalizeRelation U name) = some (relationAssetId sha256 (normalizeRelation U name)) := by
  have hgroups := relationGroups_names (namesOf_loop hloop)
  have hkey : normalizeRelation U name ∈ ((relationGroups s.accumulators).map fun group => (group.1, relationAssetId sha256 group.1)).map
      Prod.fst := by
    have hkeys : (relationGroups s.accumulators).map Prod.fst = (sortBy Prod.fst (ir.spellings U).entries).map Prod.fst := by
      rw [← hgroups, List.map_map]
      rfl
    rw [List.map_map]
    change _ ∈ (relationGroups s.accumulators).map Prod.fst
    rw [hkeys, ((sortBy_perm Prod.fst _).map _).mem_iff]
    exact keys_spellings_perm.mem_iff.mpr (mem_relationKeys.mpr ⟨name, hname, rfl⟩)
  obtain ⟨assetId, hget⟩ := Dict.exists_get?_ofList hkey
  obtain ⟨group, -, hgroup⟩ := List.mem_map.mp (Dict.mem_of_get?_ofList hget)
  obtain ⟨hkey', rfl⟩ := Prod.mk.inj hgroup
  unfold relationIds
  rw [hget, hkey']

/-- A relation that is named has a status. -/
theorem withRelations_get? {name : String} (hname : name ∈ ir.assets.flatMap relationNames) :
    ∃ status, (withRelations sha256 s).get? (relationAssetId sha256 (normalizeRelation U name)) = some status := by
  unfold withRelations
  refine (Dict.get?_update_of_mem ?_ s.statusByAssetId).imp fun status h => h.2
  rw [List.map_map]
  change _ ∈ groupIds sha256 s.accumulators
  rw [(groupIds_perm hloop).mem_iff]
  exact List.mem_map_of_mem (mem_relationKeys.mpr ⟨name, hname, rfl⟩)

/-- The asset of an alias that is added is an asset of the set, or a relation that it names. -/
theorem asset_of_push {setOrder : List String → List String} (horder : IsSetOrder setOrder) {push : String × String}
    (h : push ∈ authoredPushes ir ++ relationPushes U sha256 setOrder s.accumulators) :
    push.1 ∈ ir.assets.map AuthoringAsset.assetId ++ (ir.relationKeys U).map (relationAssetId sha256) := by
  rw [List.mem_append, mem_relationPushes horder] at h
  rcases h with h | ⟨assetId, hasset, spelling, -, hpush⟩
  · unfold authoredPushes AuthoringIR.sortedAssets at h
    simp only [List.mem_flatMap, mem_sortBy, List.mem_map] at h
    obtain ⟨asset, hasset, text, -, rfl⟩ := h
    exact List.mem_append_left _ (List.mem_map_of_mem hasset)
  · have hid : push.1 = assetId := by
      unfold spellingPushes at hpush
      rcases List.mem_cons.mp hpush with rfl | hpush
      · rfl
      · rw [List.mem_singleton.mp hpush]
    exact List.mem_append_right _ (hid ▸ (groupIds_perm hloop).mem_iff.mp hasset)

section

variable (hids : ((ir.relationKeys U).map (relationAssetId sha256)).Nodup)
include hids

/-- The spellings of a relation, where no two relations have one id. -/
theorem spellingsOf_eq {key : String} (hkey : key ∈ ir.relationKeys U) :
    spellingsOf sha256 s.accumulators (relationAssetId sha256 key) = ((ir.spellings U).get? key).getD [] := by
  have hin : key ∈ (ir.spellings U).keys := keys_spellings_perm.mem_iff.mpr hkey
  obtain ⟨names, hnames⟩ := Option.isSome_iff_exists.mp (Dict.get?_isSome_iff.mpr hin)
  have hkeys : (groupIds sha256 s.accumulators).Nodup := (groupIds_perm hloop).nodup_iff.mpr hids
  unfold spellingsOf
  rw [relationSpellings_eq (namesOf_loop hloop), hnames]
  unfold AuthoringIR.spellingsById
  rw [Dict.get?_ofList_of_mem (v := names)]
  · rw [List.map_map]
    unfold groupIds at hkeys
    have hgroups := relationGroups_names (namesOf_loop hloop)
    rw [← hgroups, List.map_map]
    exact hkeys
  · exact List.mem_map.mpr ⟨(key, names), mem_sortBy.mpr (Dict.get?_eq_some_iff.mp hnames), rfl⟩

/-- The aliases that are added are those that the set gives. -/
theorem mem_pushes {setOrder : List String → List String} (horder : IsSetOrder setOrder) {push : String × String} :
    push ∈ authoredPushes ir ++ relationPushes U sha256 setOrder s.accumulators ↔ push ∈ ir.aliasTexts U sha256 := by
  unfold AuthoringIR.aliasTexts
  rw [List.mem_append, List.mem_append, mem_relationPushes horder, List.mem_flatMap]
  refine or_congr Iff.rfl ⟨?_, ?_⟩
  · rintro ⟨assetId, hasset, spelling, hspelling, hpush⟩
    rw [(groupIds_perm hloop).mem_iff] at hasset
    obtain ⟨key, hkey, rfl⟩ := List.mem_map.mp hasset
    rw [spellingsOf_eq hloop hids hkey] at hspelling
    obtain ⟨name, hname, rfl, rfl⟩ := mem_spellings.mp hspelling
    exact ⟨name, hname, hpush⟩
  · rintro ⟨name, hname, hpush⟩
    have hkey : normalizeRelation U name ∈ ir.relationKeys U := mem_relationKeys.mpr ⟨name, hname, rfl⟩
    refine ⟨_, (groupIds_perm hloop).mem_iff.mpr (List.mem_map_of_mem hkey), strip name, ?_, hpush⟩
    rw [spellingsOf_eq hloop hids hkey]
    exact mem_spellings.mpr ⟨name, hname, rfl, rfl⟩

theorem agree_pushes {setOrder : List String → List String} (horder : IsSetOrder setOrder) :
    Agree U (authoredPushes ir ++ relationPushes U sha256 setOrder s.accumulators) ↔ Agree U (ir.aliasTexts U sha256) := by
  unfold Agree
  simp only [mem_pushes hloop hids horder]

end

end Loop

/-! ## Aliases -/

/-- The normalized texts of aliases are different. -/
theorem nodup_materializeAliases {pushes : List (String × String)} {records : List SemanticAliasRecord}
    (h : materializeAliases U pushes = .ok records) : (records.map SemanticAliasRecord.normalizedAlias).Nodup := by
  unfold materializeAliases at h
  simp only [Py.bind_eq_ok, pure_eq_ok] at h
  obtain ⟨aliases, haliases, rfl⟩ := h
  have hget := foldlM_addAlias_get? pushes haliases
  have hkey : ∀ entry ∈ aliases.entries, entry.2.normalizedAlias = entry.1 := by
    intro entry hentry
    have hfound := (hget entry.1).symm.trans (Dict.get?_eq_some_iff.mpr hentry)
    rw [Dict.get?_empty, Option.none_or] at hfound
    obtain ⟨push, -, hpush⟩ := List.exists_of_findSome?_eq_some hfound
    obtain ⟨-, hsame, heq⟩ := aliasOf_eq_some hpush
    rw [heq]
    exact hsame
  have hkeys : aliases.entries.map (SemanticAliasRecord.normalizedAlias ∘ Prod.snd) = aliases.keys := List.map_congr_left hkey
  rw [List.map_map, ((sortBy_perm Prod.fst _).map _).nodup_iff, hkeys]
  exact aliases.nodup

/-- An alias that is made is accepted. -/
theorem alias_passes {pushes : List (String × String)} {records : List SemanticAliasRecord}
    (hmade : materializeAliases T.forms pushes = .ok records) {assetIds : List String} (hassets : ∀ push ∈ pushes, push.1 ∈ assetIds)
    {record : SemanticAliasRecord} (h : record ∈ records) :
    record.assetId ∈ assetIds ∧ isBlank record.text = false ∧ isBlank record.normalizedAlias = false := by
  obtain ⟨push, hpush, halias⟩ := List.exists_of_findSome?_eq_some ((mem_materializeAliases hmade).mp h)
  obtain ⟨hne, hsame, heq⟩ := aliasOf_eq_some halias
  have hblank : isBlank push.2 = false := by
    by_contra htext
    rw [Bool.not_eq_false] at htext
    exact hne (hsame ▸ T.forms_blank push.2 htext)
  refine ⟨heq ▸ hassets push hpush, ?_, ?_⟩
  · rw [heq]
    exact isBlank_strip (isBlank_eq_false.mp hblank)
  · rw [← hsame] at hne ⊢
    exact isBlank_join_words hne

end ReleaseAux

end Nl2Sql.Authoring
