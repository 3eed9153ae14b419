import Nl2Sql.Lemmas.Materialize

/-!
# Materialization and the order of sets

What is materialized does not depend on the order of the assets. It depends on the order in which the spellings of a relation come out of
their set exactly where two of them fold to one text and the choice between them shows: as the name of the relation, or as the text of an
alias.
-/

namespace Nl2Sql.Authoring

open Py

/-- An order to iterate sets of texts in. -/
def IsSetOrder (setOrder : List String → List String) : Prop := ∀ names, (setOrder names).Perm names

/-- A relation that is named once more. -/
def addSpelling (U : UnicodeForms) (spellings : Dict String (List String)) (relationName : String) : Dict String (List String) :=
  spellings.set (normalizeRelation U relationName)
    (setAdd ((spellings.get? (normalizeRelation U relationName)).getD []) (strip relationName))

/-- The relations that the assets name, each with its spellings. -/
def AuthoringIR.spellings (U : UnicodeForms) (ir : AuthoringIR) : Dict String (List String) :=
  (ir.sortedAssets.flatMap relationNames).foldl (addSpelling U) Dict.empty

/-- The spellings by the id of the relation: of relations with one id the last. -/
def AuthoringIR.spellingsById (U : UnicodeForms) (sha256 : String → String) (ir : AuthoringIR) : Dict String (List String) :=
  Dict.ofList ((sortBy Prod.fst (ir.spellings U).entries).map fun group => (relationAssetId sha256 group.1, group.2))

/-- The record that a spelling gives under a normalized alias, if it gives one. -/
def spellingAlias (U : UnicodeForms) (assetId normalized spelling : String) : Option SemanticAliasRecord :=
  (spellingPushes assetId spelling).findSome? (aliasOf U normalized)

/-- No choice between spellings shows: each relation has one spelling that folds to the least text, and where spellings that fold to one
text are the first to give an alias that no asset gives, they give it alike. -/
structure AuthoringIR.SpellingsSettled (U : UnicodeForms) (sha256 : String → String) (ir : AuthoringIR) : Prop where
  name : ∀ group ∈ (ir.spellings U).entries,
    ∃ name ∈ group.2, ∀ other ∈ group.2, U.casefold other ≤ U.casefold name → other = name
  aliases : ∀ group ∈ (ir.spellingsById U sha256).entries, ∀ normalized, (∀ push ∈ authoredPushes ir, U.normalize push.2 ≠ normalized) →
    ∀ a ∈ group.2, ∀ b ∈ group.2, spellingAlias U group.1 normalized a ≠ none → spellingAlias U group.1 normalized b ≠ none →
      U.casefold a = U.casefold b →
      (∀ c ∈ group.2, spellingAlias U group.1 normalized c ≠ none → U.casefold a ≤ U.casefold c) →
      spellingAlias U group.1 normalized a = spellingAlias U group.1 normalized b

namespace MaterializeAux

variable {U : UnicodeForms} {sha256 : String → String} {ir : AuthoringIR} {report : ValidationReport}

/-! ## The spellings that the loop gathers -/

/-- What the accumulators know of spellings. -/
def namesOf (accumulators : Dict String RelationAccumulator) : List (String × List String) :=
  accumulators.entries.map fun entry => (entry.1, entry.2.names)

theorem map_setEntries {α β : Type} (f : α → β) (k : String) (v : α) (entries : List (String × α)) :
    (Dict.setEntries k v entries).map (fun entry => (entry.1, f entry.2)) =
      Dict.setEntries k (f v) (entries.map fun entry => (entry.1, f entry.2)) := by
  induction entries with
  | nil => rfl
  | cons entry entries ih =>
    by_cases hk : entry.1 = k
    · simp [Dict.setEntries, hk]
    · simp [Dict.setEntries, hk, ih]

theorem getEntries_map {α β : Type} (f : α → β) (k : String) (entries : List (String × α)) :
    Dict.getEntries k (entries.map fun entry => (entry.1, f entry.2)) = (Dict.getEntries k entries).map f := by
  induction entries with
  | nil => rfl
  | cons entry entries ih =>
    by_cases hk : entry.1 = k
    · simp [Dict.getEntries, hk]
    · simp [Dict.getEntries, hk, ih]

theorem registerRelation_names {source : SemanticAssetRecord} {status : AssetStatus} {accumulators next : Dict String RelationAccumulator}
    {relationName : String} (h : registerRelation U source status accumulators relationName = .ok next)
    {spellings : Dict String (List String)} (hnames : namesOf accumulators = spellings.entries) :
    namesOf next = (addSpelling U spellings relationName).entries := by
  unfold registerRelation at h
  simp only [bind_eq_ok, pure_eq_ok] at h
  obtain ⟨_, -, rfl⟩ := h
  have hget : (spellings.get? (normalizeRelation U relationName)) =
      (accumulators.get? (normalizeRelation U relationName)).map RelationAccumulator.names := by
    unfold Dict.get?
    rw [← hnames]
    exact getEntries_map RelationAccumulator.names _ _
  unfold namesOf addSpelling
  rw [hget]
  refine (map_setEntries RelationAccumulator.names _ _ _).trans ?_
  change Dict.setEntries _ _ (namesOf accumulators) = Dict.setEntries _ _ spellings.entries
  rw [hnames]
  cases accumulators.get? (normalizeRelation U relationName) <;> rfl

theorem foldlM_registerRelation_names {source : SemanticAssetRecord} {status : AssetStatus} (relations : List String)
    {accumulators next : Dict String RelationAccumulator} (h : relations.foldlM (registerRelation U source status) accumulators = .ok next)
    {spellings : Dict String (List String)} (hnames : namesOf accumulators = spellings.entries) :
    namesOf next = (relations.foldl (addSpelling U) spellings).entries := by
  induction relations generalizing accumulators spellings with
  | nil =>
    cases h
    exact hnames
  | cons relation relations ih =>
    rw [List.foldlM_cons, bind_eq_ok] at h
    obtain ⟨between, hbetween, h⟩ := h
    rw [List.foldl_cons]
    exact ih h (registerRelation_names hbetween hnames)

/-- The loop gathers the spellings of the assets. -/
theorem loop_names (assets : List AuthoringAsset) {s next : Materialized} (h : assets.foldlM (materializeAsset U report) s = .ok next)
    {spellings : Dict String (List String)} (hnames : namesOf s.accumulators = spellings.entries) :
    namesOf next.accumulators = ((assets.flatMap relationNames).foldl (addSpelling U) spellings).entries := by
  induction assets generalizing s spellings with
  | nil =>
    cases h
    exact hnames
  | cons asset assets ih =>
    rw [List.foldlM_cons, bind_eq_ok] at h
    obtain ⟨between, hbetween, h⟩ := h
    rw [List.flatMap_cons, List.foldl_append]
    refine ih h ?_
    unfold materializeAsset at hbetween
    simp only [bind_eq_ok, pure_eq_ok] at hbetween
    obtain ⟨status, -, record, -, accumulators, haccumulators, rfl⟩ := hbetween
    exact foldlM_registerRelation_names _ haccumulators hnames

theorem namesOf_loop {s : Materialized} (h : ir.sortedAssets.foldlM (materializeAsset U report) {} = .ok s) :
    namesOf s.accumulators = (ir.spellings U).entries := loop_names ir.sortedAssets h rfl

/-- The groups of the accumulators are those of the spellings. -/
theorem relationGroups_names {accumulators : Dict String RelationAccumulator} (h : namesOf accumulators = (ir.spellings U).entries) :
    (relationGroups accumulators).map (fun group => (group.1, group.2.names)) = sortBy Prod.fst (ir.spellings U).entries := by
  unfold relationGroups
  rw [← h]
  unfold namesOf
  rw [sortBy_map]
  rfl

theorem relationSpellings_eq {accumulators : Dict String RelationAccumulator} (h : namesOf accumulators = (ir.spellings U).entries) :
    relationSpellings sha256 accumulators = ir.spellingsById U sha256 := by
  unfold relationSpellings AuthoringIR.spellingsById
  rw [← relationGroups_names h, List.map_map]
  rfl

theorem foldl_addSpelling_ne_nil (relations : List String) (spellings : Dict String (List String))
    (h : ∀ names ∈ spellings.values, names ≠ []) : ∀ names ∈ (relations.foldl (addSpelling U) spellings).values, names ≠ [] := by
  induction relations generalizing spellings with
  | nil => exact h
  | cons relation relations ih =>
    rw [List.foldl_cons]
    refine ih _ (Dict.forall_values_set h ?_)
    unfold setAdd
    split
    · rename_i hmem
      exact List.ne_nil_of_mem hmem
    · exact List.append_ne_nil_of_right_ne_nil _ (List.cons_ne_nil _ _)

theorem spellings_ne_nil {group : String × List String} (h : group ∈ (ir.spellings U).entries) : group.2 ≠ [] :=
  foldl_addSpelling_ne_nil _ Dict.empty (fun _ h => absurd h List.not_mem_nil) group.2 (List.mem_map_of_mem h)

/-! ## Orders of sets -/

/-- The order that puts one element of one set first. -/
def bringFirst (names : List String) (first : String) (other : List String) : List String :=
  if other = names then first :: names.erase first else other

theorem isSetOrder_bringFirst {names : List String} {first : String} (h : first ∈ names) : IsSetOrder (bringFirst names first) := by
  intro other
  unfold bringFirst
  split
  · rename_i hsame
    rw [hsame]
    exact (List.perm_cons_erase h).symm
  · exact List.Perm.refl other

theorem mem_orderedNames {setOrder : List String → List String} (h : IsSetOrder setOrder) {names : List String} {name : String} :
    name ∈ orderedNames U setOrder names ↔ name ∈ names := by
  unfold orderedNames
  rw [mem_sortBy, (h names).mem_iff]

theorem orderedNames_bringFirst (names : List String) (first : String) :
    ∃ before after, orderedNames U (bringFirst names first) names = before ++ first :: after ∧
      ∀ other ∈ before, U.casefold other < U.casefold first := by
  unfold orderedNames bringFirst
  rw [if_pos rfl]
  exact sortBy_cons U.casefold first (names.erase first)

/-- A spelling that folds to the least text is the name, where its order puts it first. -/
theorem head_bringFirst {names : List String} {first : String} (hfirst : first ∈ names)
    (hleast : ∀ other ∈ names, U.casefold first ≤ U.casefold other) :
    (orderedNames U (bringFirst names first) names).head? = some first := by
  obtain ⟨before, after, heq, hbefore⟩ := orderedNames_bringFirst (U := U) names first
  have hmem : ∀ other ∈ before, other ∈ names := by
    intro other hother
    rw [← mem_orderedNames (isSetOrder_bringFirst hfirst) (U := U), heq]
    exact List.mem_append_left _ hother
  rw [heq]
  cases before with
  | nil => rfl
  | cons other before =>
    exact absurd (hbefore other List.mem_cons_self) (hleast other (hmem other List.mem_cons_self)).not_gt

/-- Of the spellings that may be found and fold to the least text, the one found is the one its order puts first. -/
theorem findSome?_bringFirst {β : Type} {names : List String} {first : String} (hfirst : first ∈ names) {g : String → Option β}
    (hg : g first ≠ none) (hleast : ∀ other ∈ names, g other ≠ none → U.casefold first ≤ U.casefold other) :
    (orderedNames U (bringFirst names first) names).findSome? g = g first := by
  obtain ⟨before, after, heq, hbefore⟩ := orderedNames_bringFirst (U := U) names first
  have hmem : ∀ other ∈ before, other ∈ names := by
    intro other hother
    rw [← mem_orderedNames (isSetOrder_bringFirst hfirst) (U := U), heq]
    exact List.mem_append_left _ hother
  have hnone : before.findSome? g = none := by
    refine List.findSome?_eq_none_iff.mpr fun other hother => ?_
    by_contra hfound
    exact absurd (hbefore other hother) (hleast other (hmem other hother) hfound).not_gt
  rw [heq, List.findSome?_append, hnone, Option.none_or, List.findSome?_cons]
  cases hfound : g first with
  | none => exact absurd hfound hg
  | some r => rfl

/-! ## What materialization returns -/

/-- The parts of a candidate that is returned. -/
theorem materialize_eq_ok {setOrder : List String → List String} {candidate : SemanticReleaseCandidate} :
    materializeAuthoringIR U sha256 setOrder ir report = .ok candidate ↔
      validateAlignment sha256 ir report = .ok () ∧ ∃ s, ir.sortedAssets.foldlM (materializeAsset U report) {} = .ok s ∧
        ∃ aliases, materializeAliases U (authoredPushes ir ++ relationPushes U sha256 setOrder s.accumulators) = .ok aliases ∧
          ∃ edges, EdgeContext.materializeEdges
              ⟨U, sha256, report, ir.metricsByKey, relationIds sha256 s.accumulators, withRelations sha256 s⟩ ir = .ok edges ∧
            candidateFrom sha256 ir report s.ownerByAssetId (releaseAssets U sha256 setOrder s) aliases edges = candidate := by
  unfold materializeAuthoringIR
  simp only [bind_eq_ok, pure_eq_ok]
  exact ⟨fun ⟨_, h, rest⟩ => ⟨h, rest⟩, fun ⟨h, rest⟩ => ⟨(), h, rest⟩⟩

/-- The ids of the relations, in the order of their keys. -/
def groupIds (sha256 : String → String) (accumulators : Dict String RelationAccumulator) : List String :=
  (relationGroups accumulators).map fun group => relationAssetId sha256 group.1

/-- The spellings of a relation id. -/
def spellingsOf (sha256 : String → String) (accumulators : Dict String RelationAccumulator) (assetId : String) : List String :=
  ((relationSpellings sha256 accumulators).get? assetId).getD []

/-- The first alias that the relations give is the first that one of them gives. -/
theorem relationPushes_findSome? (setOrder : List String → List String) (accumulators : Dict String RelationAccumulator)
    (normalized : String) :
    (relationPushes U sha256 setOrder accumulators).findSome? (aliasOf U normalized) =
      (groupIds sha256 accumulators).findSome? fun assetId =>
        (orderedNames U setOrder (spellingsOf sha256 accumulators assetId)).findSome? (spellingAlias U assetId normalized) := by
  unfold relationPushes groupIds
  rw [findSome?_flatMap]
  congr 1
  funext assetId
  exact findSome?_flatMap _ _ _

theorem mem_relationPushes {setOrder : List String → List String} (h : IsSetOrder setOrder)
    {accumulators : Dict String RelationAccumulator} {push : String × String} :
    push ∈ relationPushes U sha256 setOrder accumulators ↔ ∃ assetId ∈ groupIds sha256 accumulators,
      ∃ spelling ∈ spellingsOf sha256 accumulators assetId, push ∈ spellingPushes assetId spelling := by
  unfold relationPushes groupIds spellingsOf
  simp only [List.mem_flatMap, mem_orderedNames h]

/-- An alias that a spelling gives is of a text that is added for it. -/
theorem spellingAlias_ne_none {assetId normalized spelling : String} (h : spellingAlias U assetId normalized spelling ≠ none) :
    normalized ≠ "" ∧ ∃ text, (assetId, text) ∈ spellingPushes assetId spelling ∧ U.normalize text = normalized := by
  obtain ⟨r, hr⟩ := Option.ne_none_iff_exists'.mp h
  obtain ⟨push, hpush, halias⟩ := List.exists_of_findSome?_eq_some hr
  obtain ⟨hne, hsame, -⟩ := aliasOf_eq_some halias
  have hasset : push.1 = assetId := by
    unfold spellingPushes at hpush
    rcases List.mem_cons.mp hpush with rfl | hpush
    · rfl
    · rw [List.mem_singleton.mp hpush]
  exact ⟨hne, push.2, hasset ▸ hpush, hsame⟩

/-- The key of a record is the alias it is found under. -/
theorem normalized_of_spellingAlias {assetId normalized spelling : String} {r : SemanticAliasRecord}
    (h : spellingAlias U assetId normalized spelling = some r) : r.normalizedAlias = normalized := by
  obtain ⟨push, -, halias⟩ := List.exists_of_findSome?_eq_some h
  obtain ⟨-, hsame, rfl⟩ := aliasOf_eq_some halias
  exact hsame

/-- The spellings of an id are those of a relation with the id. -/
theorem mem_groupIds {accumulators : Dict String RelationAccumulator} {group : String × List String}
    (h : group ∈ (relationSpellings sha256 accumulators).entries) :
    group.1 ∈ groupIds sha256 accumulators ∧ spellingsOf sha256 accumulators group.1 = group.2 := by
  have hget := Dict.get?_eq_some_iff.mpr h
  constructor
  · by_contra hnot
    have hnone : (relationSpellings sha256 accumulators).get? group.1 = none := by
      refine Dict.get?_update_of_not_mem (fun hmem => hnot ?_) Dict.empty
      rw [List.map_map] at hmem
      exact hmem
    rw [hnone] at hget
    nomatch hget
  · unfold spellingsOf
    rw [hget]
    rfl

/-! ## Settled spellings are enough -/

theorem relationAssets_settled (hsettled : ir.SpellingsSettled U sha256) {accumulators : Dict String RelationAccumulator}
    (hnames : namesOf accumulators = (ir.spellings U).entries) {setOrder setOrder' : List String → List String}
    (horder : IsSetOrder setOrder) (horder' : IsSetOrder setOrder') :
    relationAssets U sha256 setOrder accumulators = relationAssets U sha256 setOrder' accumulators := by
  unfold relationAssets
  refine List.map_congr_left fun group hgroup => ?_
  have hentry : (group.1, group.2.names) ∈ (ir.spellings U).entries := by
    rw [← hnames]
    exact List.mem_map.mpr ⟨group, mem_sortBy.mp hgroup, rfl⟩
  obtain ⟨name, hname, honly⟩ := hsettled.name _ hentry
  have hhead {order : List String → List String} (h : IsSetOrder order) : (orderedNames U order group.2.names).head? = some name :=
    head?_sortBy ((h _).mem_iff.mpr hname) fun other hother => honly other ((h _).mem_iff.mp hother)
  rw [hhead horder, hhead horder']

theorem firstAlias_settled (hsettled : ir.SpellingsSettled U sha256) {accumulators : Dict String RelationAccumulator}
    (hnames : namesOf accumulators = (ir.spellings U).entries) {setOrder setOrder' : List String → List String}
    (horder : IsSetOrder setOrder) (horder' : IsSetOrder setOrder') (normalized : String) :
    (authoredPushes ir ++ relationPushes U sha256 setOrder accumulators).findSome? (aliasOf U normalized) =
      (authoredPushes ir ++ relationPushes U sha256 setOrder' accumulators).findSome? (aliasOf U normalized) := by
  rw [List.findSome?_append, List.findSome?_append]
  cases hauthored : (authoredPushes ir).findSome? (aliasOf U normalized) with
  | some r => rfl
  | none =>
    rw [relationPushes_findSome?, relationPushes_findSome?, Option.none_or, Option.none_or]
    congr 1
    funext assetId
    cases hspellings : (relationSpellings sha256 accumulators).get? assetId with
    | none =>
      have hnil : spellingsOf sha256 accumulators assetId = [] := by
        unfold spellingsOf
        rw [hspellings]
        rfl
      have hempty {order : List String → List String} (h : IsSetOrder order) : orderedNames U order [] = [] := by
        refine List.eq_nil_iff_forall_not_mem.mpr fun name hname => ?_
        exact absurd ((mem_orderedNames h).mp hname) List.not_mem_nil
      rw [hnil, hempty horder, hempty horder']
    | some names =>
      have hof : spellingsOf sha256 accumulators assetId = names := by
        unfold spellingsOf
        rw [hspellings]
        rfl
      have hentry : (assetId, names) ∈ (ir.spellingsById U sha256).entries := by
        rw [← relationSpellings_eq hnames]
        exact Dict.get?_eq_some_iff.mp hspellings
      rw [hof]
      refine findSome?_sortBy_congr ((horder names).trans (horder' names).symm) ?_
      intro a ha b hb hga hgb hsame hleast
      have hfree : ∀ push ∈ authoredPushes ir, U.normalize push.2 ≠ normalized := by
        intro push hpush hnormalized
        have hnone := List.findSome?_eq_none_iff.mp hauthored push hpush
        rw [aliasOf_of_eq (spellingAlias_ne_none hga).1 hnormalized] at hnone
        nomatch hnone
      exact hsettled.aliases _ hentry normalized hfree a ((horder names).mem_iff.mp ha) b ((horder names).mem_iff.mp hb) hga hgb hsame
        fun c hc => hleast c ((horder names).mem_iff.mpr hc)

theorem materialize_settled (hsettled : ir.SpellingsSettled U sha256) {setOrder setOrder' : List String → List String}
    (horder : IsSetOrder setOrder) (horder' : IsSetOrder setOrder') {candidate : SemanticReleaseCandidate}
    (h : materializeAuthoringIR U sha256 setOrder ir report = .ok candidate) :
    materializeAuthoringIR U sha256 setOrder' ir report = .ok candidate := by
  obtain ⟨haligned, s, hs, aliases, haliases, edges, hedges, rfl⟩ := materialize_eq_ok.mp h
  have hnames := namesOf_loop hs
  refine materialize_eq_ok.mpr ⟨haligned, s, hs, aliases, ?_, edges, hedges, ?_⟩
  · refine materializeAliases_congr (fun push hpush => ?_) (firstAlias_settled hsettled hnames horder horder') haliases
    rw [List.mem_append, mem_relationPushes horder'] at hpush
    rw [List.mem_append, mem_relationPushes horder]
    exact hpush
  · unfold releaseAssets
    rw [relationAssets_settled hsettled hnames horder horder']

/-! ## Settled spellings are needed -/

/-- In every order of the sets the candidate is the same. -/
def OrderFree (U : UnicodeForms) (sha256 : String → String) (ir : AuthoringIR) (report : ValidationReport)
    (candidate : SemanticReleaseCandidate) : Prop :=
  ∀ setOrder, IsSetOrder setOrder → materializeAuthoringIR U sha256 setOrder ir report = .ok candidate

/-- Two orders give the same relations and the same aliases. -/
theorem same_of_orderFree {candidate : SemanticReleaseCandidate} (h : OrderFree U sha256 ir report candidate) :
    ∃ s, namesOf s.accumulators = (ir.spellings U).entries ∧ ∀ setOrder, IsSetOrder setOrder →
      materializeAliases U (authoredPushes ir ++ relationPushes U sha256 setOrder s.accumulators) = .ok candidate.aliases ∧
        releaseAssets U sha256 setOrder s = candidate.assets := by
  obtain ⟨-, s, hs, -⟩ := materialize_eq_ok.mp (h id fun names => List.Perm.refl names)
  refine ⟨s, namesOf_loop hs, fun setOrder horder => ?_⟩
  obtain ⟨-, s', hs', aliases, haliases, edges, -, rfl⟩ := materialize_eq_ok.mp (h setOrder horder)
  rw [hs] at hs'
  cases hs'
  exact ⟨haliases, rfl⟩

theorem name_of_orderFree {candidate : SemanticReleaseCandidate} (h : OrderFree U sha256 ir report candidate)
    {group : String × List String} (hgroup : group ∈ (ir.spellings U).entries) :
    ∃ name ∈ group.2, ∀ other ∈ group.2, U.casefold other ≤ U.casefold name → other = name := by
  obtain ⟨s, hnames, hsame⟩ := same_of_orderFree h
  obtain ⟨name, hname, hleast⟩ := exists_least U.casefold (spellings_ne_nil hgroup)
  refine ⟨name, hname, fun other hother hle => ?_⟩
  have hleast' : ∀ third ∈ group.2, U.casefold other ≤ U.casefold third := fun third hthird => hle.trans (hleast third hthird)
  have hassets := (hsame _ (isSetOrder_bringFirst hother)).2.trans (hsame _ (isSetOrder_bringFirst hname)).2.symm
  unfold releaseAssets at hassets
  have hkeys (order : List String → List String) : (s.records ++ relationAssets U sha256 order s.accumulators).map SemanticAssetRecord.assetId =
      s.records.map SemanticAssetRecord.assetId ++ groupIds sha256 s.accumulators := by
    unfold relationAssets groupIds
    rw [List.map_append, List.map_map]
    rfl
  have hrelations := List.append_cancel_left (eq_of_sortBy_eq ((hkeys _).trans (hkeys _).symm) hassets)
  rw [← hnames] at hgroup
  obtain ⟨entry, hentry, rfl⟩ := List.mem_map.mp hgroup
  have hrecord := List.map_inj_left.mp hrelations entry (mem_sortBy.mpr hentry)
  rw [head_bringFirst hother hleast', head_bringFirst hname hleast] at hrecord
  have hpayload := congrArg SemanticAssetRecord.payload hrecord
  simp only [relationRecord, Option.getD_some, List.cons.injEq, Prod.mk.injEq, Json.str.injEq, true_and] at hpayload
  exact hpayload.1

/-- The alias that the order of one relation's spellings puts first. -/
theorem firstAlias_bringFirst {accumulators : Dict String RelationAccumulator} {group : String × List String}
    (hgroup : group ∈ (relationSpellings sha256 accumulators).entries) {normalized first : String}
    (hfree : ∀ push ∈ authoredPushes ir, U.normalize push.2 ≠ normalized) (hfirst : first ∈ group.2)
    (hgiven : spellingAlias U group.1 normalized first ≠ none)
    (hleast : ∀ other ∈ group.2, spellingAlias U group.1 normalized other ≠ none → U.casefold first ≤ U.casefold other)
    (hagree : Agree U (authoredPushes ir ++ relationPushes U sha256 (bringFirst group.2 first) accumulators)) :
    (authoredPushes ir ++ relationPushes U sha256 (bringFirst group.2 first) accumulators).findSome? (aliasOf U normalized) =
      spellingAlias U group.1 normalized first := by
  have horder := isSetOrder_bringFirst hfirst
  obtain ⟨hid, hnames⟩ := mem_groupIds hgroup
  have hauthored : (authoredPushes ir).findSome? (aliasOf U normalized) = none :=
    List.findSome?_eq_none_iff.mpr fun push hpush => aliasOf_of_ne (hfree push hpush)
  -- a text that gives the alias for another relation would be an alias of two assets
  have hpush {assetId spelling : String} (hin : assetId ∈ groupIds sha256 accumulators)
      (hspelling : spelling ∈ spellingsOf sha256 accumulators assetId) (halias : spellingAlias U assetId normalized spelling ≠ none) :
      normalized ≠ "" ∧ ∃ text, U.normalize text = normalized ∧
        (assetId, text) ∈ authoredPushes ir ++ relationPushes U sha256 (bringFirst group.2 first) accumulators := by
    obtain ⟨hne, text, htext, hsame⟩ := spellingAlias_ne_none halias
    exact ⟨hne, text, hsame, List.mem_append_right _ ((mem_relationPushes horder).mpr ⟨assetId, hin, spelling, hspelling, htext⟩)⟩
  obtain ⟨hne, text, hsame, hmem⟩ := hpush hid (hnames.symm ▸ hfirst) hgiven
  rw [List.findSome?_append, hauthored, Option.none_or, relationPushes_findSome?, findSome?_eq_of_unique hid]
  · rw [hnames]
    exact findSome?_bringFirst hfirst hgiven hleast
  · intro other hother hfound
    obtain ⟨r, hr⟩ := Option.ne_none_iff_exists'.mp hfound
    obtain ⟨spelling, hspelling, halias⟩ := List.exists_of_findSome?_eq_some hr
    obtain ⟨-, text', hsame', hmem'⟩ := hpush hother ((mem_orderedNames horder).mp hspelling) (halias ▸ Option.some_ne_none r)
    exact hagree _ hmem' _ hmem (hsame'.trans_ne hne) (hsame'.trans hsame.symm)

theorem alias_of_orderFree {candidate : SemanticReleaseCandidate} (h : OrderFree U sha256 ir report candidate)
    {group : String × List String} (hgroup : group ∈ (ir.spellingsById U sha256).entries) {normalized : String}
    (hfree : ∀ push ∈ authoredPushes ir, U.normalize push.2 ≠ normalized) {a b : String} (ha : a ∈ group.2) (hb : b ∈ group.2)
    (hga : spellingAlias U group.1 normalized a ≠ none) (hgb : spellingAlias U group.1 normalized b ≠ none)
    (hsame : U.casefold a = U.casefold b)
    (hleast : ∀ c ∈ group.2, spellingAlias U group.1 normalized c ≠ none → U.casefold a ≤ U.casefold c) :
    spellingAlias U group.1 normalized a = spellingAlias U group.1 normalized b := by
  obtain ⟨s, hnames, hall⟩ := same_of_orderFree h
  rw [← relationSpellings_eq hnames] at hgroup
  have haliases := (hall _ (isSetOrder_bringFirst ha)).1
  have haliases' := (hall _ (isSetOrder_bringFirst hb)).1
  have hfirst := firstAlias_bringFirst hgroup hfree ha hga hleast (materializeAliases_isOk.mp ⟨_, haliases⟩)
  have hfirst' := firstAlias_bringFirst hgroup hfree hb hgb (fun c hc hgc => hsame ▸ hleast c hc hgc)
    (materializeAliases_isOk.mp ⟨_, haliases'⟩)
  obtain ⟨r, hr⟩ := Option.ne_none_iff_exists'.mp hga
  have hkey := normalized_of_spellingAlias hr
  have hmem : r ∈ candidate.aliases := (mem_materializeAliases haliases).mpr (by rw [hkey, hfirst, hr])
  have hfound := (mem_materializeAliases haliases').mp hmem
  rw [hkey, hfirst'] at hfound
  rw [hr, hfound]

end MaterializeAux

open MaterializeAux

/-- A candidate that materialization returns is returned for every order of the assets and every order of the sets, exactly when the
spellings of the relations are settled. -/
theorem materialize_deterministic_iff (U : UnicodeForms) (sha256 : String → String) {ir : AuthoringIR} {report : ValidationReport}
    (hkeys : (ir.metrics.map MetricAsset.metricKey).Nodup) {setOrder : List String → List String} (horder : IsSetOrder setOrder)
    {candidate : SemanticReleaseCandidate} (h : materializeAuthoringIR U sha256 setOrder ir report = .ok candidate) :
    (∀ ir', ir.Reorders ir' → ∀ setOrder', IsSetOrder setOrder' →
      materializeAuthoringIR U sha256 setOrder' ir' report = .ok candidate) ↔ ir.SpellingsSettled U sha256 := by
  constructor
  · intro hall
    have hfree : OrderFree U sha256 ir report candidate := fun setOrder' horder' =>
      hall ir ⟨List.Perm.refl _, List.Perm.refl _, List.Perm.refl _, rfl⟩ setOrder' horder'
    exact ⟨fun group hgroup => name_of_orderFree hfree hgroup, fun group hgroup normalized hauthored a ha b hb hga hgb hsame hleast =>
      alias_of_orderFree hfree hgroup hauthored ha hb hga hgb hsame hleast⟩
  · intro hsettled ir' hreorders setOrder' horder'
    have hids := ids_of_aligned (materialize_eq_ok.mp h).1
    rw [← materialize_reorders hreorders hids hkeys]
    exact materialize_settled hsettled horder horder' h

/-! ## Two spellings of one relation -/

/-- A metric of a relation. -/
def metricOf (key relation : String) : MetricAsset where
  assetId := "metric." ++ key
  metricKey := key
  displayName := key
  sourceRelation := some relation
  owner := some "w"
  sensitivity := some "s"

/-- A report that finds nothing to say about active assets. -/
def cleanReport (sha256 : String → String) (ir : AuthoringIR) : ValidationReport where
  schemaVersion := ir.schemaVersion
  checksum := ir.checksum sha256
  metricHeadingCount := ir.metrics.length
  qaCount := ir.qas.length
  viewCount := ir.views.length
  issues := []
  assetStatuses := Dict.ofList (ir.assets.map fun asset => (asset.assetId, .active))
  assetDomains := Dict.ofList (ir.assets.map fun asset => (asset.assetId, asset.domain))

def oneSpelling : AuthoringIR := { metrics := [metricOf "a" "o", metricOf "b" "o"] }

/-- Where all assets name a relation alike, the candidate is the same for every order. -/
theorem materialize_deterministic_one : ∃ candidate, ∀ ir', oneSpelling.Reorders ir' → ∀ setOrder', IsSetOrder setOrder' →
    materializeAuthoringIR plainForms (fun _ => "d") setOrder' ir' (cleanReport (fun _ => "d") oneSpelling) = .ok candidate := by
  have hreturns : (materializeAuthoringIR plainForms (fun _ => "d") id oneSpelling (cleanReport (fun _ => "d") oneSpelling)).toOption.isSome =
      true := by decide +kernel
  obtain ⟨candidate, hcandidate⟩ := Option.isSome_iff_exists.mp hreturns
  have h : materializeAuthoringIR plainForms (fun _ => "d") id oneSpelling (cleanReport (fun _ => "d") oneSpelling) = .ok candidate := by
    cases hresult : materializeAuthoringIR plainForms (fun _ => "d") id oneSpelling (cleanReport (fun _ => "d") oneSpelling) with
    | error e => rw [hresult] at hcandidate; nomatch hcandidate
    | ok other => rw [hresult] at hcandidate; exact congrArg _ (Option.some.inj hcandidate)
  refine ⟨candidate, (materialize_deterministic_iff plainForms (fun _ => "d") (by decide +kernel) (fun names => List.Perm.refl names) h).mpr ?_⟩
  have hspellings : (oneSpelling.spellings plainForms).entries = [("o", ["o"])] := by decide +kernel
  have hbyId : (oneSpelling.spellingsById plainForms fun _ => "d").entries = [("relation.d", ["o"])] := by decide +kernel
  constructor
  · intro group hgroup
    rw [hspellings] at hgroup
    rw [List.mem_singleton.mp hgroup]
    exact ⟨"o", List.mem_singleton_self _, fun other hother _ => List.mem_singleton.mp hother⟩
  · intro group hgroup normalized _ a ha b hb _ _ _ _
    rw [hbyId] at hgroup
    rw [List.mem_singleton.mp hgroup] at ha hb
    rw [List.mem_singleton.mp ha, List.mem_singleton.mp hb]

def twoSpellings : AuthoringIR := { metrics := [metricOf "a" "O", metricOf "b" "o"] }

/-- The contents of the assets that are materialized for an order of the sets. -/
def contentsIn (setOrder : List String → List String) : Option (List String) :=
  (materializeAuthoringIR plainForms (fun _ => "d") setOrder twoSpellings (cleanReport (fun _ => "d") twoSpellings)).toOption.map
    fun candidate => candidate.assets.map SemanticAssetRecord.content

/-- The relation is named by the spelling that its set gives first, whatever the digest and the report. -/
theorem materialize_spelling : contentsIn id = some ["a O", "b o", "relation O"] ∧
    contentsIn List.reverse = some ["a O", "b o", "relation o"] ∧
      ∀ sha256 report candidate, ¬OrderFree plainForms sha256 twoSpellings report candidate := by
  refine ⟨by decide +kernel, by decide +kernel, fun sha256 report candidate hfree => ?_⟩
  have hspellings : (twoSpellings.spellings plainForms).entries = [("o", ["O", "o"])] := by decide +kernel
  have hfold : ∀ a ∈ ["O", "o"], plainForms.casefold a = "o" := by decide +kernel
  obtain ⟨name, hname, honly⟩ := name_of_orderFree hfree (hspellings ▸ List.mem_singleton_self _)
  have heq (other : String) (hother : other ∈ ["O", "o"]) : other = name :=
    honly other hother ((hfold other hother).trans (hfold name hname).symm).le
  exact absurd ((heq "O" (by decide)).trans (heq "o" (by decide)).symm) (by decide)

end Nl2Sql.Authoring
