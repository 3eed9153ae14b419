import Nl2Sql.Lemmas.Edges

/-!
# Validated sets that can be released

What a set with an ok report still lacks to be released: validation, materialization and the publisher each have rules of their own, and
those that no earlier layer implies are gathered here as one condition on the set.
-/

namespace Nl2Sql.Authoring

open Py

/-- A snapshot that a candidate can be bound to. -/
structure SchemaSnapshot.Validated (sha256 : String → String) (snapshot : SchemaSnapshot) : Prop where
  state : snapshot.state = .validated
  checksums : snapshot.checksumsHold sha256
  ok : snapshot.validationReport.isOk = true
  candidateChecksum : reportText "candidate_checksum" snapshot.validationReport = some snapshot.checksum
  schemaChecksum : reportText "schema_checksum" snapshot.validationReport = some snapshot.schemaChecksum

/-- A set is materialized with its report, and the candidate is accepted once it is bound to a snapshot. -/
def Released (T : AuthoringTools) (external : List (String × List String)) (setOrder : List String → List String)
    (integer : Json → Option Int) (ir : AuthoringIR) (snapshot : SchemaSnapshot) : Prop :=
  ∃ candidate, materializeAuthoringIR T.forms T.sha256 setOrder ir (validateAuthoringIR T external ir) = .ok candidate ∧
    ∃ bound, bindSchemaSnapshot T.sha256 candidate snapshot = .ok bound ∧ validateReleaseCandidate integer bound = .ok ()

/-- What a set needs, beyond a report that is ok, to be released. -/
structure AuthoringIR.Releasable (U : UnicodeForms) (sha256 : String → String) (ir : AuthoringIR) : Prop where
  nonempty : ir.assets ≠ []
  named : ∀ asset ∈ ir.assets, isBlank asset.assetId = false
  ids : (ir.assets.map AuthoringAsset.assetId ++ (ir.relationKeys U).map (relationAssetId sha256)).Nodup
  /-- white space and the words for what is missing are no owner and no sensitivity -/
  governed : ∀ asset ∈ ir.assets, asset.status = .active →
    strip (asset.owner.getD "") ∉ ["", "unassigned"] ∧ strip (asset.sensitivity.getD "") ∉ ["", "unclassified"]
  searchable : ∀ asset ∈ ir.assets, ∃ text ∈ contentValues asset, strip (text.getD "") ≠ ""
  relations : ∀ asset ∈ ir.assets, ∀ name ∈ relationNames asset, normalizeRelation U name ≠ ""
  aliases : Agree U (ir.aliasTexts U sha256)
  /-- the dependencies of an active metric are validated -/
  dependencies : ∀ metric ∈ ir.metrics, metric.status ≠ .active → ∀ key ∈ metric.dependencies, key ∈ ir.metrics.map MetricAsset.metricKey
  selfless : ∀ pair ∈ (ir.dependenciesById sha256).values, pair.1.status ≠ .active → pair.2.assetId ≠ pair.1.assetId
  questions : ∀ qa ∈ ir.qas, ∀ key ∈ qa.metricKeys, key ∈ ir.metrics.map MetricAsset.metricKey
  joins : ∀ view ∈ ir.views, ∀ join ∈ view.joins, normalizeRelation U join.table ≠ normalizeRelation U view.sourceRelation

namespace ReleaseAux

open MaterializeAux

variable {T : AuthoringTools} {sha256 : String → String} {external : List (String × List String)} {ir : AuthoringIR}

/-! ## Binding -/

theorem member?_setEntries_of_ne {name key : String} (hne : name ≠ key) (value : Json) (members : List (String × Json)) :
    Json.member? name (Dict.setEntries key value members) = Json.member? name members := by
  induction members with
  | nil => exact if_neg hne.symm
  | cons m members ih =>
    by_cases hkey : m.1 = key
    · simp only [Dict.setEntries, hkey, if_true, Json.member?, if_neg hne.symm]
    · simp only [Dict.setEntries, hkey, if_false, Json.member?, ih]

theorem isBlank_sha256 (T : AuthoringTools) (text : String) : isBlank (T.sha256 text) = false := by
  have hdigest := (T.digest text).property
  unfold isSha256 at hdigest
  rw [Bool.and_eq_true, decide_eq_true_eq, List.all_eq_true, ← String.length_toList] at hdigest
  have hne : (T.digest text).val.toList ≠ [] := fun hnil => by
    rw [hnil] at hdigest
    exact absurd hdigest.2 (by decide)
  obtain ⟨c, hc⟩ := List.exists_mem_of_ne_nil _ hne
  refine isBlank_eq_false_iff.mpr ⟨c, hc, ?_⟩
  have hchar := hdigest.1 c hc
  simp only [isDigitAscii, Bool.or_eq_true, Bool.and_eq_true, decide_eq_true_eq, Char.le_def, UInt32.le_iff_toNat_le] at hchar
  have hrange : 48 ≤ c.toNat ∧ c.toNat ≤ 102 := by
    rcases hchar with ⟨h, h'⟩ | ⟨h, h'⟩
    · exact ⟨h, le_trans h' (by decide)⟩
    · exact ⟨le_trans (by decide) h, h'⟩
  unfold isSpace
  simp
  omega

/-- A candidate that is bound to a snapshot. -/
def boundTo (sha256 : String → String) (candidate : SemanticReleaseCandidate) (snapshot : SchemaSnapshot) : SemanticReleaseCandidate :=
  { candidate with
    checksum := boundChecksum sha256 candidate snapshot
    validationReport :=
      Dict.setEntries "schema_snapshot_checksum" (.str snapshot.checksum)
        (Dict.setEntries "schema_snapshot_id" (.str snapshot.snapshotId) candidate.validationReport)
    schemaSnapshotId := some snapshot.snapshotId
    schemaSnapshotChecksum := some snapshot.checksum }

theorem bindSchemaSnapshot_eq {candidate : SemanticReleaseCandidate} (hnone : candidate.schemaSnapshotId = none) {snapshot : SchemaSnapshot}
    (h : snapshot.Validated sha256) : bindSchemaSnapshot sha256 candidate snapshot = .ok (boundTo sha256 candidate snapshot) := by
  unfold bindSchemaSnapshot
  simp only [Py.bind_eq_ok, rejectIf_eq_ok, exists_const, hnone]
  refine ⟨fun hstate => hstate h.state, fun hchecksums => hchecksums h.checksums, ?_, rfl⟩
  rintro (hok | hcandidate | hschema)
  · rw [h.ok] at hok
    cases hok
  · exact hcandidate h.candidateChecksum
  · exact hschema h.schemaChecksum

/-- A member of the report of a bound candidate, but for those that binding adds. -/
theorem member?_boundTo {name : String} (hne : name ≠ "schema_snapshot_checksum") (hne' : name ≠ "schema_snapshot_id")
    (candidate : SemanticReleaseCandidate) (snapshot : SchemaSnapshot) :
    Json.member? name (boundTo sha256 candidate snapshot).validationReport = Json.member? name candidate.validationReport :=
  (member?_setEntries_of_ne hne _ _).trans (member?_setEntries_of_ne hne' _ _)

theorem checkBinding_boundTo {candidate : SemanticReleaseCandidate} {snapshot : SchemaSnapshot} (h : snapshot.Validated T.sha256) :
    checkBinding (boundTo T.sha256 candidate snapshot) = .ok () := by
  have hid : strip snapshot.snapshotId ≠ "" := isBlank_eq_false.mp snapshot.named
  have hchecksum : strip snapshot.checksum ≠ "" := by
    rw [← h.checksums.2]
    exact isBlank_eq_false.mp (isBlank_sha256 T _)
  unfold checkBinding
  exact Py.bind_eq_ok.mpr ⟨(), rejectIf_eq_ok.mpr (not_not.mpr (iff_of_false hid hchecksum)), rejectIf_eq_ok.mpr fun h => hid h.2⟩

/-! ## The candidate of a set -/

section Candidate

/-- The candidate of a set with its report. -/
def candidateOf (T : AuthoringTools) (external : List (String × List String)) (setOrder : List String → List String) (ir : AuthoringIR)
    (s : Materialized) (aliases : List SemanticAliasRecord) (edges : List SemanticEdgeRecord) : SemanticReleaseCandidate :=
  candidateFrom T.sha256 ir (validateAuthoringIR T external ir) s.ownerByAssetId (releaseAssets T.forms T.sha256 setOrder s) aliases edges

/-- The context that the edges of a set are made in. -/
def edgeContext (T : AuthoringTools) (external : List (String × List String)) (ir : AuthoringIR) (s : Materialized) : EdgeContext :=
  ⟨T.forms, T.sha256, validateAuthoringIR T external ir, ir.metricsByKey, relationIds T.sha256 s.accumulators, withRelations T.sha256 s⟩

variable {setOrder : List String → List String} {s : Materialized} {aliases : List SemanticAliasRecord} {edges : List SemanticEdgeRecord}
  {snapshot : SchemaSnapshot} {candidate : SemanticReleaseCandidate}
  (hok : (validateAuthoringIR T external ir).ok = true)
  (hloop : ir.sortedAssets.foldlM (materializeAsset T.forms (validateAuthoringIR T external ir)) {} = .ok s)
  (hcandidate : candidate = candidateOf T external setOrder ir s aliases edges)

include hok hloop in
theorem edgeFacts (hids : (releaseIds (edgeContext T external ir s) ir).Nodup) : EdgeFacts ir (edgeContext T external ir s) where
  metrics := rfl
  reported _ hasset := assetStatuses_of_ok hok (List.nodup_append.mp hids).1 hasset
  relation asset hasset _ hname := relationIds_get? hloop (List.mem_flatMap.mpr ⟨asset, hasset, hname⟩)
  status asset hasset _ hname := withRelations_get? hloop (List.mem_flatMap.mpr ⟨asset, hasset, hname⟩)
  ids := hids

theorem isBlank_singleOr (values : List String) {fallback : String} (h : isBlank fallback = false) :
    isBlank (singleOr values fallback) = false := by
  unfold singleOr
  split
  · rename_i value hvalue
    have hmem : value ∈ fromKeys ((values.map strip).filter (· ≠ "")) := hvalue ▸ List.mem_singleton_self _
    rw [mem_fromKeys, List.mem_filter, List.mem_map] at hmem
    obtain ⟨⟨text, -, rfl⟩, hne⟩ := hmem
    exact isBlank_strip (of_decide_eq_true hne)
  · exact h

theorem isBlank_append {start : String} (h : isBlank start = false) (rest : String) : isBlank (start ++ rest) = false := by
  refine isBlank_of_mem h ?_
  rw [String.toList_append]
  exact List.subset_append_left _ _

theorem relationRecord_passes (key name : String) (accumulator : RelationAccumulator) :
    RecordPasses (relationRecord sha256 key name accumulator) where
  domain := isBlank_singleOr _ (by decide +kernel)
  owner := isBlank_singleOr _ (by decide +kernel)
  sensitivity := isBlank_singleOr _ (by decide +kernel)
  content := isBlank_append (by decide +kernel) name
  type := show "relation" ∈ assetTypes by decide
  status := status_mem _
  embedding := rfl

include hloop hcandidate

/-- The assets of the candidate pass, those of relations among them. -/
theorem candidate_pass {record : SemanticAssetRecord} (h : record ∈ candidate.assets) : RecordPasses record := by
  rw [hcandidate] at h
  change record ∈ releaseAssets T.forms T.sha256 setOrder s at h
  unfold releaseAssets at h
  rw [mem_sortBy, List.mem_append] at h
  rcases h with h | h
  · exact (made_of_loop hloop).records record h
  · obtain ⟨group, -, rfl⟩ := List.mem_map.mp h
    exact relationRecord_passes _ _ _

theorem candidate_ids_perm :
    (candidate.assets.map SemanticAssetRecord.assetId).Perm (releaseIds (edgeContext T external ir s) ir) := by
  rw [hcandidate]
  exact releaseIds_perm hloop setOrder

omit hloop in
theorem candidate_documents : candidate.documents = candidate.assets.map documentOf := by
  rw [hcandidate]
  rfl

omit hloop in
theorem candidate_documentIds :
    candidate.documents.map (fun document => document.documentId) = candidate.assets.map SemanticAssetRecord.assetId := by
  rw [candidate_documents hcandidate, List.map_map]
  rfl

omit hloop in
theorem candidate_members : Json.member? "ok" candidate.validationReport = some (.bool (validateAuthoringIR T external ir).ok) ∧
    Json.member? "issues" candidate.validationReport =
      some (.arr ((validateAuthoringIR T external ir).issues.map ValidationReport.issueJson)) ∧
    Json.member? "schema_version" candidate.validationReport = some (.int ir.schemaVersion) := by
  rw [hcandidate]
  unfold candidateOf candidateFrom ValidationReport.toDict
  simp [Json.member?, validateAuthoringIR]

/-- There are documents where there are assets. -/
theorem candidate_documents_ne_nil : candidate.documents ≠ [] ↔ ir.assets ≠ [] := by
  have hlength := (candidate_ids_perm hloop hcandidate).length_eq
  rw [List.length_map, releaseIds, List.length_append, List.length_map, List.length_map] at hlength
  rw [candidate_documents hcandidate, ne_eq, List.map_eq_nil_iff]
  refine not_congr ⟨fun hnil => ?_, fun hnil => ?_⟩
  · rw [hnil, List.length_nil] at hlength
    exact List.length_eq_zero_iff.mp (by omega)
  · have hkeys : ir.relationKeys T.forms = [] := by
      unfold AuthoringIR.relationKeys
      rw [hnil]
      rfl
    rw [hnil, show ir.relationKeys (edgeContext T external ir s).forms = [] from hkeys] at hlength
    exact List.length_eq_zero_iff.mp hlength

section

variable (hnamed : ∀ asset ∈ ir.assets, isBlank asset.assetId = false)
include hnamed

theorem candidate_named {record : SemanticAssetRecord} (h : record ∈ candidate.assets) : isBlank record.assetId = false := by
  have hid := (candidate_ids_perm hloop hcandidate).mem_iff.mp (List.mem_map_of_mem h)
  rcases List.mem_append.mp hid with hid | hid
  · obtain ⟨asset, hasset, heq⟩ := List.mem_map.mp hid
    exact heq ▸ hnamed asset hasset
  · obtain ⟨key, -, heq⟩ := List.mem_map.mp hid
    exact heq ▸ isBlank_append (by decide +kernel) _

/-- The documents of the candidate are accepted where there is an asset and no two have one id. -/
theorem checkDocuments_candidate :
    checkDocuments candidate.documents = .ok () ↔ ir.assets ≠ [] ∧ (releaseIds (edgeContext T external ir s) ir).Nodup := by
  rw [checkDocuments_eq_ok, candidate_documentIds hcandidate, (candidate_ids_perm hloop hcandidate).nodup_iff,
    candidate_documents_ne_nil hloop hcandidate]
  refine and_congr_right fun _ => and_iff_left fun document hdocument => ?_
  rw [candidate_documents hcandidate] at hdocument
  obtain ⟨record, hrecord, rfl⟩ := List.mem_map.mp hdocument
  exact ⟨candidate_named hloop hcandidate hnamed hrecord, (candidate_pass hloop hcandidate hrecord).content⟩

theorem checkAssets_candidate {record : SemanticAssetRecord}
    (h : record ∈ candidate.assets) : checkAsset (candidate.documents.map fun document => document.documentId) record = .ok () := by
  have hpasses := candidate_pass hloop hcandidate h
  refine checkAsset_eq_ok.mpr ⟨?_, hpasses.type, hpasses.status, ?_⟩
  · simp only [List.forall_mem_cons, List.not_mem_nil, false_implies, implies_true, and_true]
    exact ⟨candidate_named hloop hcandidate hnamed h, hpasses.domain, hpasses.owner, hpasses.sensitivity, hpasses.content⟩
  · rw [candidate_documentIds hcandidate]
    exact List.mem_map_of_mem h

end

/-- The issues of the candidate are warnings about its assets. -/
theorem checkIssues_candidate (hok : (validateAuthoringIR T external ir).ok = true)
    (hnamed : ∀ asset ∈ ir.assets, isBlank asset.assetId = false) {issue : SemanticValidationIssueRecord}
    (h : issue ∈ candidate.validationIssues) :
    checkIssue (candidate.assets.map SemanticAssetRecord.assetId) issue = .ok () := by
  have hids := candidate_ids_perm hloop hcandidate
  rw [hcandidate] at h
  obtain ⟨found, hfound, rfl⟩ := List.mem_map.mp h
  obtain ⟨asset, hasset, rfl⟩ := issue_of_ok hok hfound
  have hcode : isBlank (inferredIssue "").code = false := by decide +kernel
  have hmessage : isBlank (inferredIssue "").message = false := by decide +kernel
  have hunassigned : isBlank "unassigned" = false := by decide +kernel
  have howner : isBlank ((s.ownerByAssetId.get? asset.assetId).getD "unassigned") = false := by
    cases hget : s.ownerByAssetId.get? asset.assetId with
    | none => exact hunassigned
    | some owner => exact (made_of_loop hloop).owners _ owner hget
  refine checkIssue_eq_ok.mpr ⟨?_, show "warning" ∈ issueSeverities by decide, hcode, hmessage, howner⟩
  intro assetId hid
  have hne : asset.assetId ≠ "" := fun hnil => by
    have hblank := hnamed asset hasset
    rw [hnil] at hblank
    exact absurd hblank (by decide)
  have hsome : (issueRecord s.ownerByAssetId (inferredIssue asset.assetId)).assetId = some asset.assetId := if_pos hne
  rw [hsome, Option.mem_some_iff] at hid
  rw [hids.mem_iff, ← hid]
  exact mem_releaseIds_of_asset hasset

theorem checkEmbedding_candidate : checkEmbedding (boundTo T.sha256 candidate snapshot) = .ok () := by
  have hdocuments : candidate.documents.filterMap (fun document => document.embedding) = [] := by
    refine List.filterMap_eq_nil_iff.mpr fun document hdocument => ?_
    rw [candidate_documents hcandidate] at hdocument
    obtain ⟨record, -, rfl⟩ := List.mem_map.mp hdocument
    rfl
  have hassets : candidate.assets.filterMap (fun asset => asset.embedding) = [] :=
    List.filterMap_eq_nil_iff.mpr fun record hrecord => (candidate_pass hloop hcandidate hrecord).embedding
  have hdimension : embeddingDimension candidate.documents candidate.assets = .ok none := by
    unfold embeddingDimension
    rw [hdocuments, hassets]
    rfl
  have hbound : embeddingDimension (boundTo T.sha256 candidate snapshot).documents (boundTo T.sha256 candidate snapshot).assets = .ok none :=
    hdimension
  have hnone : candidate.embeddingProfile = none ∧ candidate.embeddingDimension = none := by
    rw [hcandidate]
    exact ⟨rfl, rfl⟩
  unfold checkEmbedding
  rw [hbound]
  exact rejectIf_eq_ok.mpr fun h => h.elim (fun h => h hnone.1) fun h => h hnone.2

omit hloop in
theorem checkReport_candidate (integer : Json → Option Int) : checkReport integer (boundTo T.sha256 candidate snapshot) = .ok () := by
  obtain ⟨-, hissues, hversion⟩ := candidate_members hcandidate
  unfold checkReport
  rw [member?_boundTo (by decide) (by decide), member?_boundTo (by decide) (by decide), hissues, hversion]
  refine Py.bind_eq_ok.mpr ⟨(), rejectIf_eq_ok.mpr (not_not.mpr ?_), rejectIf_eq_ok.mpr (not_not.mpr ?_)⟩
  · rw [hcandidate]
    exact (List.length_map _).trans (List.length_map _).symm
  · rw [hcandidate]
    rfl

theorem candidate_aliases_pass {pushes : List (String × String)} (haliases : materializeAliases T.forms pushes = .ok aliases)
    (hpushes : ∀ push ∈ pushes, push.1 ∈ releaseIds (edgeContext T external ir s) ir) :
    ∃ last, candidate.aliases.foldlM (checkAliasRecord (candidate.assets.map SemanticAssetRecord.assetId)) [] = .ok last := by
  have hids := candidate_ids_perm hloop hcandidate
  rw [show candidate.aliases = aliases by rw [hcandidate]; rfl]
  have hstep (seen : List String) (record : SemanticAliasRecord) (next : List String) :
      checkAliasRecord (candidate.assets.map SemanticAssetRecord.assetId) seen record = .ok next ↔ _ := checkAliasRecord_eq_ok
  refine (foldlM_seen hstep aliases []).mpr ⟨fun record hrecord => ?_, ?_, fun _ _ => List.not_mem_nil⟩
  · exact alias_passes haliases (fun push hpush => hids.mem_iff.mpr (hpushes push hpush)) hrecord
  · exact nodup_materializeAliases haliases

theorem candidate_edges_pass_iff (hedges : (edges.map SemanticEdgeRecord.edgeId).Nodup) :
    (∃ last, candidate.edges.foldlM (checkEdge (candidate.assets.map SemanticAssetRecord.assetId)) [] = .ok last) ↔
      ∀ edge ∈ edges, EdgePasses (releaseIds (edgeContext T external ir s) ir) edge := by
  have hids := candidate_ids_perm hloop hcandidate
  rw [show candidate.edges = edges by rw [hcandidate]; rfl]
  have hstep (seen : List String) (edge : SemanticEdgeRecord) (next : List String) :
      checkEdge (candidate.assets.map SemanticAssetRecord.assetId) seen edge = .ok next ↔ _ := checkEdge_eq_ok
  refine (foldlM_seen hstep edges []).trans ⟨fun hpass edge hedge => ?_, fun hall => ?_⟩
  · have h := hpass.1 edge hedge
    exact ⟨hids.mem_iff.mp h.source, hids.mem_iff.mp h.target, h.ne, h.type, h.status⟩
  · refine ⟨fun edge hedge => ?_, hedges, fun _ _ => List.not_mem_nil⟩
    have h := hall edge hedge
    exact ⟨hids.mem_iff.mpr h.source, hids.mem_iff.mpr h.target, h.ne, h.type, h.status⟩

include hok in
/-- The candidate is accepted exactly when there is an asset, the ids are different and the edges are between different assets. -/
theorem candidate_accepted_iff (hnamed : ∀ asset ∈ ir.assets, isBlank asset.assetId = false) (hsnapshot : snapshot.Validated T.sha256)
    {pushes : List (String × String)} (haliases : materializeAliases T.forms pushes = .ok aliases)
    (hpushes : ∀ push ∈ pushes, push.1 ∈ releaseIds (edgeContext T external ir s) ir)
    (hedges : (edges.map SemanticEdgeRecord.edgeId).Nodup) {integer : Json → Option Int} :
    validateReleaseCandidate integer (boundTo T.sha256 candidate snapshot) = .ok () ↔
      ir.assets ≠ [] ∧ (releaseIds (edgeContext T external ir s) ir).Nodup ∧
        ∀ edge ∈ edges, EdgePasses (releaseIds (edgeContext T external ir s) ir) edge := by
  have hreport : (boundTo T.sha256 candidate snapshot).validationReport.isOk = true := by
    unfold Nl2Sql.ValidationReport.isOk
    rw [member?_boundTo (by decide) (by decide), (candidate_members hcandidate).1, hok]
  have hversion : candidate.schemaVersion = 3 := by
    rw [hcandidate]
    exact schemaVersion_of_ok hok
  have hparser : isBlank candidate.parserVersion = false := by
    rw [hcandidate]
    exact show isBlank parserVersion = false by decide +kernel
  have hpassAliases := candidate_aliases_pass hloop hcandidate haliases hpushes
  rw [validateReleaseCandidate_eq_ok]
  constructor
  · rintro ⟨-, ⟨-, hdocuments⟩, -, -, hpass, -⟩
    obtain ⟨hnonempty, hnodup⟩ := (checkDocuments_candidate hloop hcandidate hnamed).mp hdocuments
    exact ⟨hnonempty, hnodup, (candidate_edges_pass_iff hloop hcandidate hedges).mp hpass⟩
  · rintro ⟨hnonempty, hnodup, hpass⟩
    exact ⟨⟨hreport, isBlank_sha256 T _, hversion, hparser⟩,
      ⟨checkBinding_boundTo hsnapshot, (checkDocuments_candidate hloop hcandidate hnamed).mpr ⟨hnonempty, hnodup⟩⟩,
      ⟨(candidate_ids_perm hloop hcandidate).nodup_iff.mpr hnodup, fun _ h => checkAssets_candidate hloop hcandidate hnamed h⟩,
      hpassAliases, (candidate_edges_pass_iff hloop hcandidate hedges).mpr hpass,
      fun _ h => checkIssues_candidate hloop hcandidate hok hnamed h, checkReport_candidate hcandidate integer,
      checkEmbedding_candidate hloop hcandidate⟩

end Candidate

end ReleaseAux

open ReleaseAux MaterializeAux

/-- A set whose report is ok is materialized and accepted exactly when it is releasable. -/
theorem validated_releasable_iff (T : AuthoringTools) {external : List (String × List String)} {ir : AuthoringIR}
    (hok : (validateAuthoringIR T external ir).ok = true) {snapshot : SchemaSnapshot} (hsnapshot : snapshot.Validated T.sha256)
    {setOrder : List String → List String} (horder : IsSetOrder setOrder) (integer : Json → Option Int) :
    Released T external setOrder integer ir snapshot ↔ ir.Releasable T.forms T.sha256 := by
  have hpasses {s : Materialized} (hids : (ir.assets.map AuthoringAsset.assetId).Nodup) :
      (∃ last, ir.sortedAssets.foldlM (materializeAsset T.forms (validateAuthoringIR T external ir)) s = .ok last) ↔
        ∀ asset ∈ ir.assets, AssetPasses T.forms asset := by
    rw [loop_isOk hok ir.sortedAssets fun asset hasset => assetStatuses_of_ok hok hids (mem_sortBy.mp hasset)]
    unfold AuthoringIR.sortedAssets
    simp only [mem_sortBy]
  constructor
  · rintro ⟨candidate, hmade, bound, hbound, haccepted⟩
    obtain ⟨haligned, s, hloop, aliases, haliases, edges, hedges, rfl⟩ := materialize_eq_ok.mp hmade
    obtain ⟨hnamed, hassets⟩ := validateAlignment_eq_ok.mp haligned
    cases (bindSchemaSnapshot_eq rfl hsnapshot).symm.trans hbound
    have hall := (hpasses hassets).mp ⟨s, hloop⟩
    obtain ⟨hnonempty, hids, hpass⟩ := (candidate_accepted_iff hok hloop rfl hnamed hsnapshot haliases
      (fun push hpush => asset_of_push hloop horder hpush) (nodup_edgeIds hedges)).mp haccepted
    have hC := edgeFacts hok hloop hids
    obtain ⟨hdependencies, hquestions, hjoins⟩ := (materializeEdges_isOk hC).mp ⟨edges, hedges⟩
    obtain ⟨-, hlast⟩ := edges_made hC hedges
    exact
      { nonempty := hnonempty
        named := hnamed
        ids := hids
        governed := fun asset hasset => (hall asset hasset).governed
        searchable := fun asset hasset => (hall asset hasset).searchable
        relations := fun asset hasset => (hall asset hasset).relations
        aliases := (agree_pushes hloop (List.nodup_append.mp hids).2.1 horder).mp (materializeAliases_isOk.mp ⟨aliases, haliases⟩)
        dependencies := fun metric hmetric _ => hdependencies metric hmetric
        selfless := fun pair hpair _ => (hpass _ (hlast pair hpair)).ne.symm
        questions := hquestions
        joins := hjoins }
  · intro h
    have hnodup := List.nodup_append.mp h.ids
    obtain ⟨s, hloop⟩ := (hpasses (s := {}) hnodup.1).mpr fun asset hasset =>
      ⟨h.governed asset hasset, h.searchable asset hasset, h.relations asset hasset⟩
    obtain ⟨aliases, haliases⟩ := materializeAliases_isOk.mpr ((agree_pushes hloop hnodup.2.1 horder).mpr h.aliases)
    have hC := edgeFacts hok hloop h.ids
    have hdependencies : ∀ metric ∈ ir.metrics, ∀ key ∈ metric.dependencies, key ∈ ir.metrics.map MetricAsset.metricKey := by
      intro metric hmetric key hkey
      by_cases hactive : metric.status = .active
      · exact dependency_of_ok hok hmetric hactive hkey
      · exact h.dependencies metric hmetric hactive key hkey
    obtain ⟨edges, hedges⟩ := (materializeEdges_isOk hC).mpr ⟨hdependencies, h.questions, h.joins⟩
    have hpass : ∀ edge ∈ edges, EdgePasses (releaseIds (edgeContext T external ir s) ir) edge := by
      intro edge hedge
      rcases (edges_made hC hedges).1 edge hedge with hother | ⟨pair, hpair, rfl⟩
      · exact hother.passes
      · obtain ⟨hmetric, key, hkey, hget⟩ := pair_of_dependenciesById hpair
        refine dependencyEdgeOf_passes hmetric (mem_metricsByKey hget).1 ?_
        by_cases hactive : pair.1.status = .active
        · exact dependency_ne_of_ok hok hnodup.1 hmetric hactive hkey hget
        · exact h.selfless pair (Dict.mem_values_iff.mpr ⟨_, hpair⟩) hactive
    exact ⟨_, materialize_eq_ok.mpr ⟨validateAlignment_eq_ok.mpr ⟨h.named, hnodup.1⟩, s, hloop, aliases, haliases, edges, hedges, rfl⟩, _,
      bindSchemaSnapshot_eq rfl hsnapshot, (candidate_accepted_iff hok hloop rfl h.named hsnapshot haliases
        (fun push hpush => asset_of_push hloop horder hpush) (nodup_edgeIds hedges)).mpr ⟨h.nonempty, h.ids, hpass⟩⟩

/-! ## A set of one heading -/

/-- A number that a text is folded into. -/
def foldedText (text : String) : Nat := text.toList.foldl (fun n c => (n * 1114112 + c.toNat) % 16 ^ 64) 1

theorem isSha256_digits (n : Nat) : isSha256 (String.ofList ((List.range 64).map fun i => Nat.digitChar (n / 16 ^ i % 16))) = true := by
  have hdigit : ∀ m < 16, (isDigitAscii (Nat.digitChar m) || ('a' ≤ Nat.digitChar m && Nat.digitChar m ≤ 'f')) = true := by decide
  unfold isSha256
  rw [Bool.and_eq_true, List.all_eq_true, decide_eq_true_eq, String.toList_ofList, ← String.length_toList, String.toList_ofList]
  refine ⟨fun c hc => ?_, by rw [List.length_map, List.length_range]⟩
  obtain ⟨i, -, rfl⟩ := List.mem_map.mp hc
  exact hdigit _ (Nat.mod_lt _ (by decide))

/-- Tools that take a query to read one relation. -/
def plainTools : AuthoringTools where
  forms := plainForms
  forms_blank value h := by
    have hstrip : strip value = "" := of_decide_eq_true ((beq_eq_decide _ _).symm.trans h)
    change " ".intercalate (words (lower (strip value))) = ""
    rw [hstrip]
    rfl
  digest text := ⟨_, isSha256_digits (foldedText text)⟩
  isWord c := c.isAlphanum || c == '_'
  lower := lower
  parseOne _ := .ok ⟨[], [("orders", "orders")], []⟩
  prepare _ := .ok ()

/-- A metric of a heading that declares keys. -/
def headingMetric (title key name : String) : MetricAsset where
  assetId := "metric." ++ key
  metricKey := key
  displayName := title
  aliases := [name]
  sourceRelation := some "orders"
  owner := some "ops"
  sensitivity := some "internal"
  freshnessSlaSeconds := some 86400

def ordersQuestion (key : String) : QAAsset where
  assetId := "qa.1"
  caseId := "qa-1"
  question := "How many orders?"
  sql := "SELECT count(*) FROM orders"
  metricKeys := [key]
  owner := some "ops"
  sensitivity := some "internal"
  freshnessSlaSeconds := some 86400

def ordersView : ViewAsset where
  assetId := "view.v_orders"
  name := "v_orders"
  sourceRelation := "orders"
  sourceAlias := "o"
  columns := ["o.amount"]
  owner := some "ops"
  sensitivity := some "internal"
  freshnessSlaSeconds := some 86400

/-- The set of a heading with one key. -/
def oneKey : AuthoringIR :=
  { metrics := [headingMetric "Order total" "order_total_day" "Order total"], qas := [ordersQuestion "order_total_day"],
    views := [ordersView] }

/-- The set of a heading with two keys: they share the title, and have an alias each. -/
def twoKeys : AuthoringIR :=
  { metrics := [headingMetric "Order total" "order_total_day" "Order total::order_total_day",
      headingMetric "Order total" "order_total_month" "Order total::order_total_month"],
    qas := [ordersQuestion "order_total_day"], views := [ordersView] }

/-- A validated snapshot. -/
def plainSnapshot : SchemaSnapshot where
  snapshotId := "3f0a"
  named := by decide +kernel
  state := .validated
  checksum := plainTools.sha256 (Json.obj []).dumps
  schemaChecksum := plainTools.sha256 (Json.obj []).dumps
  payload := .obj []
  structurePayload := .obj []
  validationReport := [("ok", .bool true), ("candidate_checksum", .str (plainTools.sha256 (Json.obj []).dumps)),
    ("schema_checksum", .str (plainTools.sha256 (Json.obj []).dumps))]

theorem oneKey_ok : (validateAuthoringIR plainTools [] oneKey).ok = true := by decide +kernel

theorem plainSnapshot_validated : plainSnapshot.Validated plainTools.sha256 := ⟨rfl, ⟨rfl, rfl⟩, rfl, rfl, rfl⟩

theorem oneKey_releasable : oneKey.Releasable plainTools.forms plainTools.sha256 where
  nonempty := by decide +kernel
  named := by decide +kernel
  ids := by decide +kernel
  governed := by decide +kernel
  searchable := by decide +kernel
  relations := by decide +kernel
  aliases := by
    unfold Agree
    decide +kernel
  dependencies := by decide +kernel
  selfless := by decide +kernel
  questions := by decide +kernel
  joins := by decide +kernel

/-- A set of one heading with one key is released. -/
theorem validated_releasable_one : Released plainTools [] id (fun _ => none) oneKey plainSnapshot :=
  (validated_releasable_iff plainTools oneKey_ok plainSnapshot_validated (fun names => List.Perm.refl names) fun _ => none).mpr
    oneKey_releasable

/-- A set of one heading with two keys has a report that is ok, and no candidate: the title is an alias of both metrics. -/
theorem validated_heading_refused : (validateAuthoringIR plainTools [] twoKeys).ok = true ∧
    ∀ setOrder, (∀ candidate, materializeAuthoringIR plainTools.forms plainTools.sha256 setOrder twoKeys
        (validateAuthoringIR plainTools [] twoKeys) ≠ .ok candidate) ∧
      ∀ integer snapshot, ¬Released plainTools [] setOrder integer twoKeys snapshot := by
  have hrefused (setOrder : List String → List String) (candidate : SemanticReleaseCandidate) :
      materializeAuthoringIR plainTools.forms plainTools.sha256 setOrder twoKeys (validateAuthoringIR plainTools [] twoKeys) ≠
        .ok candidate := by
    intro hmade
    obtain ⟨-, s, -, aliases, haliases, -⟩ := materialize_eq_ok.mp hmade
    have hpushes : ("metric.order_total_day", "Order total") ∈ authoredPushes twoKeys ∧
        ("metric.order_total_month", "Order total") ∈ authoredPushes twoKeys := by decide +kernel
    have hnormalized : plainTools.forms.normalize "Order total" ≠ "" := by decide +kernel
    have hsame := materializeAliases_isOk.mp ⟨aliases, haliases⟩ _ (List.mem_append_left _ hpushes.1) _
      (List.mem_append_left _ hpushes.2) hnormalized rfl
    exact absurd hsame (by decide)
  refine ⟨by decide +kernel, fun setOrder => ⟨hrefused setOrder, ?_⟩⟩
  rintro integer snapshot ⟨candidate, hmade, -⟩
  exact hrefused setOrder candidate hmade

end Nl2Sql.Authoring
