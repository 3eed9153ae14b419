import Nl2Sql.Theorems.SnapshotOrder

/-!
# What schema drift sees

Two built snapshots have no drift exactly when they agree in what the comparison reads: the source, the parser, the schemas, the set of
relations, and of every relation its structure, its sensitivity, its sensitive columns and its organization coverage. The aggregate coverage
and the freshness of a policy are not read.
-/

namespace Nl2Sql.Snapshot

open Py

/-! ## What is asked of the comparison -/

/-- A candidate that `build_schema_snapshot_candidate` returns for some catalog. -/
def Built (sha256 : String → String) (candidate : SchemaSnapshotCandidate) : Prop :=
  ∃ (ν : Type) (R : ValueReader ν) (sourceIdentifier : String) (approvedSchemas : List String) (rows : CatalogRows ν)
    (policies : Dict String RelationPolicy) (parserVersion : String),
    buildSchemaSnapshotCandidate R sha256 sourceIdentifier approvedSchemas rows policies parserVersion = .ok candidate

/-- The governance policy of a relation: every field of `RelationPolicy`. -/
def policyOf (relation : RelationSnapshot) : RelationPolicy where
  sensitivity := relation.sensitivity
  sensitiveColumns := relation.sensitiveColumns
  aggregateCoverage := relation.aggregateCoverage
  freshnessSlaSeconds := relation.freshnessSlaSeconds
  organizationCoverage := relation.organizationCoverage

/-- Two snapshots have the same source, parser, schemas and relations, and what is asked of the two snapshots of each relation. -/
structure Agree (Same : RelationSnapshot → RelationSnapshot → Prop) (previous candidate : SchemaSnapshotCandidate) : Prop where
  source : previous.sourceIdentifier = candidate.sourceIdentifier
  parser : previous.parserVersion = candidate.parserVersion
  schemas : previous.approvedSchemas = candidate.approvedSchemas
  identities : ∀ relationId, relationId ∈ previous.relations.map (·.relationId) ↔ relationId ∈ candidate.relations.map (·.relationId)
  relations : ∀ before ∈ previous.relations, ∀ after ∈ candidate.relations, before.relationId = after.relationId → Same before after

/-- A relation has the structure and the policy it had. -/
def Unchanged (before after : RelationSnapshot) : Prop := relationStructure before = relationStructure after ∧ policyOf before = policyOf after

/-- A relation without its estimates. -/
def withoutEstimates (relation : RelationSnapshot) : RelationSnapshot := { relation with estimatedRows := 0, totalBytes := 0 }

/-- What is asked of the comparison of two snapshots: it is empty exactly when nothing but estimates changed, changed estimates alone raise no
issue, and a relation of the same structure is not said to have changed its structure. -/
structure DriftLaw (previous candidate : SchemaSnapshotCandidate) : Prop where
  complete : schemaDriftIssues previous candidate = [] ↔ Agree Unchanged previous candidate
  estimates : { candidate with relations := candidate.relations.map withoutEstimates, checksum := "" } =
      { previous with relations := previous.relations.map withoutEstimates, checksum := "" } → schemaDriftIssues previous candidate = []
  structural : ∀ before ∈ previous.relations, ∀ after ∈ candidate.relations, before.relationId = after.relationId →
    relationStructure before = relationStructure after → .relationStructureChanged before.relationId ∉ schemaDriftIssues previous candidate

/-! ## Where it is met -/

/-- What is compared of a relation. -/
def ComparedSame (before after : RelationSnapshot) : Prop :=
  relationStructure before = relationStructure after ∧ before.sensitivity = after.sensitivity ∧
    before.sensitiveColumns = after.sensitiveColumns ∧ before.organizationCoverage = after.organizationCoverage

/-- A relation has the aggregate coverage and the freshness it had. -/
def CoverageKept (before after : RelationSnapshot) : Prop :=
  before.aggregateCoverage = after.aggregateCoverage ∧ before.freshnessSlaSeconds = after.freshnessSlaSeconds

theorem unchanged_iff {before after : RelationSnapshot} : Unchanged before after ↔ ComparedSame before after ∧ CoverageKept before after := by
  unfold Unchanged ComparedSame CoverageKept policyOf
  rw [RelationPolicy.mk.injEq]
  tauto

/-- The relations of a built candidate have different identities. -/
theorem Built.nodup {sha256 : String → String} {candidate : SchemaSnapshotCandidate} (h : Built sha256 candidate) :
    (candidate.relations.map (·.relationId)).Nodup := by
  obtain ⟨ν, R, sourceIdentifier, approvedSchemas, rows, policies, parserVersion, h⟩ := h
  unfold buildSchemaSnapshotCandidate at h
  simp only at h
  split at h
  · nomatch h
  · split at h
    · nomatch h
    · obtain ⟨schemas, -, h⟩ := bind_eq_ok.mp h
      obtain ⟨normalized, -, h⟩ := bind_eq_ok.mp h
      obtain ⟨relations, hrelations, h⟩ := bind_eq_ok.mp h
      obtain ⟨schemaChecksum, -, h⟩ := bind_eq_ok.mp h
      obtain ⟨checksum, -, h⟩ := bind_eq_ok.mp h
      obtain rfl := Except.ok.inj h
      exact buildRelations_nodup hrelations

section Drift

variable {previous candidate : SchemaSnapshotCandidate}

theorem relationDriftIssues_eq_nil_iff {relationId : String} {before after : RelationSnapshot} :
    relationDriftIssues relationId before after = [] ↔ ComparedSame before after := by
  unfold relationDriftIssues ComparedSame
  simp only [List.append_eq_nil_iff, ite_eq_right_iff, imp_false, not_not, and_assoc, List.cons_ne_nil]

/-- The relations of a snapshot, by identity. -/
def byId (relations : List RelationSnapshot) : Dict String RelationSnapshot :=
  Dict.ofList (relations.map fun relation => (relation.relationId, relation))

theorem mem_keys_byId {relations : List RelationSnapshot} {relationId : String} :
    relationId ∈ (byId relations).keys ↔ relationId ∈ relations.map (·.relationId) := by
  rw [byId, Dict.mem_keys_ofList, List.map_map]
  rfl

theorem get?_byId {relations : List RelationSnapshot} (hids : (relations.map (·.relationId)).Nodup) {relationId : String}
    {relation : RelationSnapshot} : (byId relations).get? relationId = some relation ↔ relation ∈ relations ∧ relation.relationId = relationId := by
  constructor
  · intro h
    obtain ⟨relation', hmem, heq⟩ := List.mem_map.mp (Dict.mem_of_get?_ofList h)
    obtain ⟨rfl, rfl⟩ := Prod.mk.inj heq
    exact ⟨hmem, rfl⟩
  · rintro ⟨hmem, rfl⟩
    refine Dict.get?_ofList_of_mem ?_ (List.mem_map_of_mem hmem)
    rw [List.map_map]
    exact hids

/-- The issues of the relations that both snapshots have. -/
def sharedIssues (previous candidate : SchemaSnapshotCandidate) (relationId : String) : List DriftIssue :=
  match (byId previous.relations).get? relationId, (byId candidate.relations).get? relationId with
  | some before, some after => relationDriftIssues relationId before after
  | _, _ => []

theorem mem_relationDriftIssues_structure {relationId other : String} {before after : RelationSnapshot}
    (h : .relationStructureChanged other ∈ relationDriftIssues relationId before after) :
    relationId = other ∧ relationStructure before ≠ relationStructure after := by
  unfold relationDriftIssues at h
  simp only [List.mem_append] at h
  rcases h with ((h | h) | h) | h <;> split at h
  · rename_i hne
    exact ⟨(DriftIssue.relationStructureChanged.inj (List.mem_singleton.mp h)).symm, hne⟩
  all_goals first
    | exact absurd h List.not_mem_nil
    | nomatch List.mem_singleton.mp h

section

variable (hprevious : (previous.relations.map (·.relationId)).Nodup)
include hprevious

theorem mem_sharedIssues (hcandidate : (candidate.relations.map (·.relationId)).Nodup)
    {relationId : String} {issue : DriftIssue} : issue ∈ sharedIssues previous candidate relationId ↔
      ∃ before ∈ previous.relations, ∃ after ∈ candidate.relations, before.relationId = relationId ∧ after.relationId = relationId ∧
        issue ∈ relationDriftIssues relationId before after := by
  unfold sharedIssues
  constructor
  · intro h
    split at h
    · rename_i before after hbefore hafter
      obtain ⟨hmem, hid⟩ := (get?_byId hprevious).mp hbefore
      obtain ⟨hmem', hid'⟩ := (get?_byId hcandidate).mp hafter
      exact ⟨before, hmem, after, hmem', hid, hid', h⟩
    · exact absurd h List.not_mem_nil
  · rintro ⟨before, hmem, after, hmem', hid, hid', h⟩
    rw [(get?_byId hprevious).mpr ⟨hmem, hid⟩, (get?_byId hcandidate).mpr ⟨hmem', hid'⟩]
    exact h

/-- The issues, stream by stream. -/
theorem mem_schemaDriftIssues
    (hcandidate : (candidate.relations.map (·.relationId)).Nodup) {issue : DriftIssue} : issue ∈ schemaDriftIssues previous candidate ↔
      (previous.sourceIdentifier ≠ candidate.sourceIdentifier ∧ issue = .snapshotSourceChanged) ∨
      (previous.parserVersion ≠ candidate.parserVersion ∧ issue = .snapshotParserChanged) ∨
      (previous.approvedSchemas ≠ candidate.approvedSchemas ∧ issue = .approvedSchemaDrift) ∨
      (∃ relationId, relationId ∈ previous.relations.map (·.relationId) ∧ relationId ∉ candidate.relations.map (·.relationId) ∧
        issue = .relationRemoved relationId) ∨
      (∃ relationId, relationId ∈ candidate.relations.map (·.relationId) ∧ relationId ∉ previous.relations.map (·.relationId) ∧
        issue = .relationAdded relationId) ∨
      ∃ before ∈ previous.relations, ∃ after ∈ candidate.relations, before.relationId = after.relationId ∧
        issue ∈ relationDriftIssues before.relationId before after := by
  have hone : ∀ (P : Prop) [Decidable P] (one : DriftIssue), (issue ∈ if P then [one] else []) ↔ P ∧ issue = one := by
    intro P _ one
    by_cases h : P
    · rw [if_pos h, List.mem_singleton]
      exact (and_iff_right h).symm
    · rw [if_neg h]
      exact iff_of_false List.not_mem_nil fun hand => h hand.1
  have hmissing : ∀ (relations others : List RelationSnapshot) (make : String → DriftIssue),
      issue ∈ (sortBy id ((byId relations).keys.filter fun relationId => relationId ∉ (byId others).keys)).map make ↔
        ∃ relationId, relationId ∈ relations.map (·.relationId) ∧ relationId ∉ others.map (·.relationId) ∧ issue = make relationId := by
    intro relations others make
    rw [List.mem_map]
    refine exists_congr fun relationId => ?_
    rw [mem_sortBy, List.mem_filter, decide_eq_true_eq, mem_keys_byId, mem_keys_byId, and_assoc, eq_comm (b := issue)]
  have hshared : issue ∈ (sortBy id ((byId previous.relations).keys.filter fun relationId => relationId ∈ (byId candidate.relations).keys)).flatMap
        (sharedIssues previous candidate) ↔
      ∃ before ∈ previous.relations, ∃ after ∈ candidate.relations, before.relationId = after.relationId ∧
        issue ∈ relationDriftIssues before.relationId before after := by
    rw [List.mem_flatMap]
    constructor
    · rintro ⟨relationId, -, h⟩
      obtain ⟨before, hmem, after, hmem', rfl, hid', h⟩ := (mem_sharedIssues hprevious hcandidate).mp h
      exact ⟨before, hmem, after, hmem', hid'.symm, h⟩
    · rintro ⟨before, hmem, after, hmem', hid, h⟩
      refine ⟨before.relationId, ?_, (mem_sharedIssues hprevious hcandidate).mpr ⟨before, hmem, after, hmem', rfl, hid.symm, h⟩⟩
      rw [mem_sortBy, List.mem_filter, decide_eq_true_eq, mem_keys_byId, mem_keys_byId]
      exact ⟨List.mem_map_of_mem hmem, List.mem_map.mpr ⟨after, hmem', hid.symm⟩⟩
  rw [← hone, ← hone, ← hone, ← hmissing, ← hmissing, ← hshared]
  simp only [schemaDriftIssues, List.mem_append, or_assoc]
  rfl

/-- No issue is raised exactly when what is compared is the same. -/
theorem schemaDriftIssues_eq_nil_iff (hcandidate : (candidate.relations.map (·.relationId)).Nodup) :
    schemaDriftIssues previous candidate = [] ↔ Agree ComparedSame previous candidate := by
  rw [List.eq_nil_iff_forall_not_mem]
  simp only [mem_schemaDriftIssues hprevious hcandidate]
  constructor
  · intro h
    refine ⟨?_, ?_, ?_, fun relationId => ⟨?_, ?_⟩, ?_⟩
    · exact not_not.mp fun hne => h _ (.inl ⟨hne, rfl⟩)
    · exact not_not.mp fun hne => h _ (.inr (.inl ⟨hne, rfl⟩))
    · exact not_not.mp fun hne => h _ (.inr (.inr (.inl ⟨hne, rfl⟩)))
    · exact fun hmem => not_not.mp fun hmissing => h _ (.inr (.inr (.inr (.inl ⟨relationId, hmem, hmissing, rfl⟩))))
    · exact fun hmem => not_not.mp fun hmissing => h _ (.inr (.inr (.inr (.inr (.inl ⟨relationId, hmem, hmissing, rfl⟩)))))
    · intro before hmem after hmem' hid
      have hnone : relationDriftIssues before.relationId before after = [] := List.eq_nil_iff_forall_not_mem.mpr fun issue hissue =>
        h issue (.inr (.inr (.inr (.inr (.inr ⟨before, hmem, after, hmem', hid, hissue⟩)))))
      exact relationDriftIssues_eq_nil_iff.mp hnone
  · rintro hagree issue (⟨hne, -⟩ | ⟨hne, -⟩ | ⟨hne, -⟩ | ⟨relationId, hmem, hmissing, -⟩ | ⟨relationId, hmem, hmissing, -⟩ |
      ⟨before, hmem, after, hmem', hid, hissue⟩)
    · exact hne hagree.source
    · exact hne hagree.parser
    · exact hne hagree.schemas
    · exact hmissing ((hagree.identities relationId).mp hmem)
    · exact hmissing ((hagree.identities relationId).mpr hmem)
    · rw [relationDriftIssues_eq_nil_iff.mpr (hagree.relations before hmem after hmem' hid)] at hissue
      exact List.not_mem_nil hissue

/-- A relation that is said to have changed its structure has. -/
theorem structure_of_mem (hcandidate : (candidate.relations.map (·.relationId)).Nodup)
    {before after : RelationSnapshot} (hbefore : before ∈ previous.relations) (hafter : after ∈ candidate.relations)
    (hid : before.relationId = after.relationId)
    (h : .relationStructureChanged before.relationId ∈ schemaDriftIssues previous candidate) : relationStructure before ≠ relationStructure after := by
  rcases (mem_schemaDriftIssues hprevious hcandidate).mp h with ⟨-, h⟩ | ⟨-, h⟩ | ⟨-, h⟩ | ⟨_, -, -, h⟩ | ⟨_, -, -, h⟩ |
    ⟨before', hmem, after', hmem', hid', h⟩
  · nomatch h
  · nomatch h
  · nomatch h
  · nomatch h
  · nomatch h
  · obtain ⟨hsame, hne⟩ := mem_relationDriftIssues_structure h
    obtain rfl := List.inj_on_of_nodup_map hprevious hmem hbefore hsame
    obtain rfl := List.inj_on_of_nodup_map hcandidate hmem' hafter (hid'.symm.trans hid)
    exact hne

end

/-- Snapshots that differ in their estimates alone agree in the rest. -/
theorem agree_of_estimates (hcandidate : (candidate.relations.map (·.relationId)).Nodup)
    (h : { candidate with relations := candidate.relations.map withoutEstimates, checksum := "" } =
      { previous with relations := previous.relations.map withoutEstimates, checksum := "" }) : Agree ComparedSame previous candidate := by
  obtain ⟨hsource, hschemas, hrelations, -, -, hparser, -⟩ := SchemaSnapshotCandidate.mk.inj h
  have hids : ∀ relations : List RelationSnapshot, (relations.map withoutEstimates).map (·.relationId) = relations.map (·.relationId) := by
    intro relations
    rw [List.map_map]
    rfl
  have hsameIds : candidate.relations.map (·.relationId) = previous.relations.map (·.relationId) := by
    rw [← hids, hrelations, hids]
  refine ⟨hsource.symm, hparser.symm, hschemas.symm, fun relationId => by rw [hsameIds], fun before hbefore after hafter hid => ?_⟩
  have hmem : withoutEstimates before ∈ candidate.relations.map withoutEstimates := hrelations ▸ List.mem_map_of_mem hbefore
  obtain ⟨after', hafter', hsame⟩ := List.mem_map.mp hmem
  have hid' : after'.relationId = before.relationId := congrArg (·.relationId) hsame
  obtain rfl := List.inj_on_of_nodup_map hcandidate hafter' hafter (hid'.trans hid)
  have hread : ∀ relation : RelationSnapshot, ComparedSame (withoutEstimates relation) relation := fun relation => ⟨rfl, rfl, rfl, rfl⟩
  have hbeforeRead := hread before
  have hafterRead := hread after'
  rw [hsame] at hafterRead
  unfold ComparedSame at hbeforeRead hafterRead ⊢
  obtain ⟨hstructure, hsensitivity, hcolumns, hcoverage⟩ := hbeforeRead
  obtain ⟨hstructure', hsensitivity', hcolumns', hcoverage'⟩ := hafterRead
  exact ⟨hstructure.symm.trans hstructure', hsensitivity.symm.trans hsensitivity', hcolumns.symm.trans hcolumns', hcoverage.symm.trans hcoverage'⟩

end Drift

/-- The comparison of two built snapshots is complete exactly when it does not find all it compares the same while the aggregate coverage or the
freshness of a relation changed. -/
theorem schema_drift_iff {sha256 : String → String} {previous candidate : SchemaSnapshotCandidate} (hprevious : Built sha256 previous)
    (hcandidate : Built sha256 candidate) : DriftLaw previous candidate ↔ (Agree ComparedSame previous candidate →
      ∀ before ∈ previous.relations, ∀ after ∈ candidate.relations, before.relationId = after.relationId → CoverageKept before after) := by
  have hnil := schemaDriftIssues_eq_nil_iff hprevious.nodup hcandidate.nodup
  constructor
  · intro hlaw hagree before hbefore after hafter hid
    have hunchanged := hlaw.complete.mp (hnil.mpr hagree)
    exact (unchanged_iff.mp (hunchanged.relations before hbefore after hafter hid)).2
  · intro hkept
    refine ⟨hnil.trans ⟨fun hagree => ?_, fun hagree => ?_⟩, fun h => hnil.mpr (agree_of_estimates hcandidate.nodup h), ?_⟩
    · refine { hagree with relations := fun before hbefore after hafter hid => unchanged_iff.mpr ⟨?_, ?_⟩ }
      · exact hagree.relations before hbefore after hafter hid
      · exact hkept hagree before hbefore after hafter hid
    · exact { hagree with relations := fun before hbefore after hafter hid =>
        (unchanged_iff.mp (hagree.relations before hbefore after hafter hid)).1 }
    · intro before hbefore after hafter hid hsame hissue
      exact structure_of_mem hprevious.nodup hcandidate.nodup hbefore hafter hid hissue hsame

/-- The build of a table of orders with a freshness. -/
def buildOrders (freshnessSlaSeconds : Option Int) : Except SnapshotError SchemaSnapshotCandidate :=
  buildSchemaSnapshotCandidate plainReader id "warehouse" ["public"] (orders [columnRow "id" "bigint" 1])
    (Dict.ofList [("orders", { freshnessSlaSeconds })]) parserVersionV1

theorem built_of_buildOrders {freshnessSlaSeconds : Option Int} {candidate : SchemaSnapshotCandidate}
    (h : buildOrders freshnessSlaSeconds = .ok candidate) : Built id candidate := ⟨_, _, _, _, _, _, _, h⟩

/-- A snapshot has not drifted from itself. -/
theorem schema_drift_same : ∃ candidate, Built id candidate ∧ DriftLaw candidate candidate := by
  have hbuilt : (buildOrders none).toBool = true := by decide +kernel
  cases horders : buildOrders none with
  | error error =>
    rw [horders] at hbuilt
    nomatch hbuilt
  | ok candidate =>
    have hids := (built_of_buildOrders horders).nodup
    refine ⟨candidate, built_of_buildOrders horders, (schema_drift_iff (built_of_buildOrders horders) (built_of_buildOrders horders)).mpr ?_⟩
    intro _ before hbefore after hafter hid
    obtain rfl := List.inj_on_of_nodup_map hids hbefore hafter hid
    exact ⟨rfl, rfl⟩

/-- The freshness of a table is dropped, and no issue is raised. -/
theorem schema_drift_freshness : ∃ previous candidate, buildOrders (some 3600) = .ok previous ∧ buildOrders none = .ok candidate ∧
    schemaDriftIssues previous candidate = [] ∧ ¬Agree Unchanged previous candidate := by
  have hrun : (do
      let previous ← buildOrders (some 3600)
      let candidate ← buildOrders none
      return decide (schemaDriftIssues previous candidate = [] ∧
        previous.relations.map (fun relation => (relation.relationId, relation.freshnessSlaSeconds)) = [("public.orders", some 3600)] ∧
        candidate.relations.map (fun relation => (relation.relationId, relation.freshnessSlaSeconds)) = [("public.orders", none)])) =
      (.ok true : Except SnapshotError Bool) := by decide +kernel
  obtain ⟨previous, hprevious, hrun⟩ := bind_eq_ok.mp hrun
  obtain ⟨candidate, hcandidate, hrun⟩ := bind_eq_ok.mp hrun
  obtain ⟨hissues, hbefore, hafter⟩ := of_decide_eq_true (Except.ok.inj hrun)
  refine ⟨previous, candidate, hprevious, hcandidate, hissues, fun hagree => ?_⟩
  obtain ⟨before, hmem, hbefore⟩ := List.mem_map.mp (hbefore ▸ List.mem_singleton_self _)
  obtain ⟨after, hmem', hafter⟩ := List.mem_map.mp (hafter ▸ List.mem_singleton_self _)
  obtain ⟨hid, hfreshness⟩ := Prod.mk.inj hbefore
  obtain ⟨hid', hfreshness'⟩ := Prod.mk.inj hafter
  have hpolicy := (hagree.relations before hmem after hmem' (hid.trans hid'.symm)).2
  have hsame : before.freshnessSlaSeconds = after.freshnessSlaSeconds := congrArg (·.freshnessSlaSeconds) hpolicy
  rw [hfreshness, hfreshness'] at hsame
  nomatch hsame

end Nl2Sql.Snapshot
