import Nl2Sql.Semantic.Validate

/-!
# Catalogs and the order of views

A catalog is built by adding columns to relations, and what a view adds depends on the view and on the names of all views alone. So views in
two orders give catalogs that answer every question alike.
-/

namespace Nl2Sql.Authoring

open Py

/-! ## Alike catalogs -/

/-- A catalog knows a column of a relation. -/
def KnowsColumn (catalog : RelationCatalog) (relation column : String) : Prop :=
  ∃ known, catalog.get? relation = some known ∧ column ∈ known

/-- Two catalogs have the same relations, with the same columns. -/
structure AlikeCatalogs (catalog other : RelationCatalog) : Prop where
  relations : ∀ relation, relation ∈ catalog ↔ relation ∈ other
  columns : ∀ relation column, KnowsColumn catalog relation column ↔ KnowsColumn other relation column

section Alike

variable {catalog other : RelationCatalog} {U : UnicodeForms}

theorem AlikeCatalogs.hasRelation (h : AlikeCatalogs catalog other) : catalog.hasRelation U = other.hasRelation U := by
  funext relation
  refine Bool.eq_iff_iff.mpr ?_
  rw [RelationCatalog.hasRelation, RelationCatalog.hasRelation, Dict.get?_isSome_iff, Dict.get?_isSome_iff]
  exact h.relations _

/-- What a catalog answers about a column: it is unknown only of a relation that the catalog has. -/
theorem hasColumn_iff {relation column : String} :
    catalog.hasColumn U relation column = true ↔
      (normalizeRelation U relation ∈ catalog → KnowsColumn catalog (normalizeRelation U relation) column) := by
  rw [RelationCatalog.hasColumn, Dict.mem_iff_mem_keys, ← Dict.get?_isSome_iff]
  cases hget : catalog.get? (normalizeRelation U relation) with
  | none => exact iff_of_true rfl fun h => nomatch h
  | some known =>
    rw [List.contains_iff_mem]
    constructor
    · exact fun hmem _ => ⟨known, hget, hmem⟩
    · intro h
      obtain ⟨known', hget', hmem⟩ := h rfl
      obtain rfl := Option.some.inj (hget.symm.trans hget')
      exact hmem

theorem AlikeCatalogs.hasColumn (h : AlikeCatalogs catalog other) : catalog.hasColumn U = other.hasColumn U := by
  funext relation column
  refine Bool.eq_iff_iff.mpr ?_
  rw [hasColumn_iff, hasColumn_iff, h.relations, h.columns]

/-- Columns of other relations go over those of alike catalogs. -/
theorem AlikeCatalogs.withExternalColumns (h : AlikeCatalogs catalog other) (external : List (String × List String)) :
    AlikeCatalogs (catalog.withExternalColumns U external) (other.withExternalColumns U external) := by
  unfold RelationCatalog.withExternalColumns
  generalize external.map (fun relation => (normalizeRelation U relation.1, fromKeys relation.2)) = pairs
  have hget : ∀ relation, (catalog.update pairs).get? relation = (other.update pairs).get? relation ∨
      ((catalog.update pairs).get? relation = catalog.get? relation ∧ (other.update pairs).get? relation = other.get? relation) := by
    intro relation
    by_cases hmem : relation ∈ pairs.map Prod.fst
    · exact .inl ((Dict.get?_update_eq_ofList hmem catalog).trans (Dict.get?_update_eq_ofList hmem other).symm)
    · exact .inr ⟨Dict.get?_update_of_not_mem hmem catalog, Dict.get?_update_of_not_mem hmem other⟩
  refine ⟨fun relation => ?_, fun relation column => ?_⟩
  · rw [Dict.mem_iff_mem_keys, ← Dict.get?_isSome_iff, Dict.mem_iff_mem_keys, ← Dict.get?_isSome_iff]
    rcases hget relation with heq | ⟨heq, heq'⟩
    · rw [heq]
    · rw [heq, heq', Dict.get?_isSome_iff, Dict.get?_isSome_iff]
      exact h.relations relation
  · rw [KnowsColumn, KnowsColumn]
    rcases hget relation with heq | ⟨heq, heq'⟩
    · rw [heq]
    · rw [heq, heq']
      exact h.columns relation column

end Alike

/-! ## What is added -/

/-- Columns added to relations, one after another. -/
def addAll (catalog : RelationCatalog) (additions : List (String × List String)) : RelationCatalog :=
  additions.foldl (fun catalog addition => catalog.addColumns addition.1 addition.2) catalog

theorem mem_setAdd {values : List String} {value other : String} : other ∈ setAdd values value ↔ other ∈ values ∨ other = value := by
  unfold setAdd
  split
  · rename_i hvalue
    exact (or_iff_left_of_imp fun heq => heq ▸ hvalue).symm
  · rw [List.mem_append, List.mem_singleton]

theorem mem_foldl_setAdd {columns known : List String} {column : String} :
    column ∈ columns.foldl setAdd known ↔ column ∈ known ∨ column ∈ columns := by
  induction columns generalizing known with
  | nil => exact (or_iff_left List.not_mem_nil).symm
  | cons first columns ih => rw [List.foldl_cons, ih, mem_setAdd, List.mem_cons, or_assoc]

theorem knowsColumn_addColumns {catalog : RelationCatalog} {relation other column : String} {columns : List String} :
    KnowsColumn (catalog.addColumns relation columns) other column ↔
      KnowsColumn catalog other column ∨ (other = relation ∧ column ∈ columns) := by
  rw [KnowsColumn, RelationCatalog.addColumns, Dict.get?_set]
  by_cases heq : relation = other
  · subst heq
    rw [if_pos rfl]
    simp only [Option.some.injEq, ↓existsAndEq, true_and, mem_foldl_setAdd]
    refine or_congr_left ?_
    rw [KnowsColumn]
    cases catalog.get? relation <;> simp
  · rw [if_neg heq]
    exact (or_iff_left fun h => heq h.1.symm).symm

theorem mem_addAll {additions : List (String × List String)} {catalog : RelationCatalog} {relation : String} :
    relation ∈ addAll catalog additions ↔ relation ∈ catalog ∨ ∃ columns, (relation, columns) ∈ additions := by
  induction additions generalizing catalog with
  | nil => exact (or_iff_left fun ⟨_, h⟩ => List.not_mem_nil h).symm
  | cons addition additions ih =>
    have hrest : relation ∈ addAll catalog (addition :: additions) ↔
        relation ∈ catalog.addColumns addition.1 addition.2 ∨ ∃ columns, (relation, columns) ∈ additions := ih
    rw [hrest, RelationCatalog.addColumns, Dict.mem_set, or_assoc]
    refine or_congr_right ?_
    simp only [List.mem_cons, exists_or]
    refine or_congr_left ⟨fun h => ⟨addition.2, by rw [h]⟩, fun ⟨_, h⟩ => ?_⟩
    rw [← h]

theorem knowsColumn_addAll {additions : List (String × List String)} {catalog : RelationCatalog} {relation column : String} :
    KnowsColumn (addAll catalog additions) relation column ↔
      KnowsColumn catalog relation column ∨ ∃ columns, (relation, columns) ∈ additions ∧ column ∈ columns := by
  induction additions generalizing catalog with
  | nil => exact (or_iff_left fun ⟨_, h, _⟩ => List.not_mem_nil h).symm
  | cons addition additions ih =>
    have hrest : KnowsColumn (addAll catalog (addition :: additions)) relation column ↔
        KnowsColumn (catalog.addColumns addition.1 addition.2) relation column ∨ ∃ columns, (relation, columns) ∈ additions ∧ column ∈ columns := ih
    rw [hrest, knowsColumn_addColumns, or_assoc]
    refine or_congr_right ?_
    simp only [List.mem_cons, or_and_right, exists_or]
    refine or_congr_left ⟨fun h => ⟨addition.2, by rw [h.1], h.2⟩, fun ⟨_, h, hmem⟩ => ?_⟩
    rw [← h]
    exact ⟨rfl, hmem⟩

/-- The same additions in another order, to alike catalogs. -/
theorem AlikeCatalogs.addAll {catalog other : RelationCatalog} (h : AlikeCatalogs catalog other) {additions additions' : List (String × List String)}
    (hsame : ∀ addition, addition ∈ additions ↔ addition ∈ additions') :
    AlikeCatalogs (addAll catalog additions) (addAll other additions') := by
  refine ⟨fun relation => ?_, fun relation column => ?_⟩
  · rw [mem_addAll, mem_addAll, h.relations]
    simp only [hsame]
  · rw [knowsColumn_addAll, knowsColumn_addAll, h.columns]
    simp only [hsame]

/-- A step that adds the same whatever the catalog. -/
def Adds (step : RelationCatalog → RelationCatalog) : Prop := ∃ additions, ∀ catalog, step catalog = addAll catalog additions

theorem Adds.nothing : Adds fun catalog => catalog := ⟨[], fun _ => rfl⟩

theorem Adds.addColumns (relation : String) (columns : List String) : Adds fun catalog => catalog.addColumns relation columns :=
  ⟨[(relation, columns)], fun _ => rfl⟩

theorem Adds.comp {step next : RelationCatalog → RelationCatalog} (h : Adds step) (hnext : Adds next) : Adds fun catalog => next (step catalog) := by
  obtain ⟨additions, hstep⟩ := h
  obtain ⟨more, hmore⟩ := hnext
  refine ⟨additions ++ more, fun catalog => ?_⟩
  show next (step catalog) = _
  rw [hmore, hstep, Authoring.addAll, Authoring.addAll, Authoring.addAll, List.foldl_append]

theorem Adds.foldl {α : Type} {step : RelationCatalog → α → RelationCatalog} (h : ∀ a, Adds fun catalog => step catalog a) (values : List α) :
    Adds fun catalog => values.foldl step catalog := by
  induction values with
  | nil => exact .nothing
  | cons a values ih => exact (h a).comp ih

theorem Adds.ite {c : Prop} [Decidable c] {step : RelationCatalog → RelationCatalog} (h : Adds step) :
    Adds fun catalog => if c then step catalog else catalog := by
  by_cases hc : c
  · simp only [if_pos hc]
    exact h
  · simp only [if_neg hc]
    exact .nothing

section Views

variable (T : AuthoringTools) (declared : List String)

/-- A join adds to a catalog what its condition names under the aliases so far. -/
theorem catalogJoin_adds (aliases : Dict String String) (join : JoinDefinition) :
    ∃ aliases' step, Adds step ∧ ∀ catalog, catalogJoin T declared (catalog, aliases) join = (step catalog, aliases') := by
  let relation := normalizeRelation T.forms join.table
  let aliases' := if join.joinAlias ≠ "" then aliases.set join.joinAlias relation else aliases
  have htable : Adds fun catalog => if relation ∈ declared then catalog.addColumns relation [] else catalog := .ite (.addColumns relation [])
  have hrefs := Adds.foldl (fun ref : String × String => .addColumns ((aliases'.get? ref.1).getD "") [ref.2])
    (qualifiedRefs T.isWord (join.joinCondition.getD ""))
  exact ⟨aliases', _, htable.comp hrefs, fun catalog => rfl⟩

theorem joins_add (joins : List JoinDefinition) (aliases : Dict String String) :
    ∃ aliases' step, Adds step ∧ ∀ catalog, joins.foldl (catalogJoin T declared) (catalog, aliases) = (step catalog, aliases') := by
  induction joins generalizing aliases with
  | nil => exact ⟨aliases, _, .nothing, fun _ => rfl⟩
  | cons join joins ih =>
    obtain ⟨aliases₁, step, hstep, hjoin⟩ := catalogJoin_adds T declared aliases join
    obtain ⟨aliases₂, rest, hrest, hjoins⟩ := ih aliases₁
    refine ⟨aliases₂, _, hstep.comp hrest, fun catalog => ?_⟩
    rw [List.foldl_cons, hjoin, hjoins]

theorem qualifiedRef_adds (aliases : Dict String String) (ref : String × String) : Adds fun catalog => match aliases.get? ref.1 with
    | some relation => if relation ∈ declared then catalog.addColumns relation [ref.2] else catalog
    | none => catalog := by
  cases aliases.get? ref.1 with
  | none => exact .nothing
  | some relation => exact .ite (.addColumns relation [ref.2])

/-- A view adds to a catalog what depends on the view alone, and on which relations are declared. -/
theorem catalogView_adds (view : ViewAsset) : Adds fun catalog => catalogView T declared catalog view := by
  obtain ⟨aliases', step, hstep, hjoins⟩ := joins_add T declared view.joins
    (if view.sourceAlias ≠ "" then Dict.empty.set view.sourceAlias (normalizeRelation T.forms view.sourceRelation) else Dict.empty)
  have hsource : Adds fun catalog => if normalizeRelation T.forms view.sourceRelation ≠ "" then
      catalog.addColumns (normalizeRelation T.forms view.sourceRelation) [] else catalog := .ite (.addColumns _ [])
  have hnames := Adds.addColumns (normalizeRelation T.forms view.name) ((view.columns.filterMap (columnOutputName T.isWord)).filter (· ≠ ""))
  obtain ⟨additions, hadds⟩ := ((hsource.comp hstep).comp (.foldl (qualifiedRef_adds declared aliases') (view.columns.flatMap (qualifiedRefs T.isWord)))).comp hnames
  refine ⟨additions, fun catalog => ?_⟩
  rw [← hadds]
  simp only [catalogView, hjoins] <;> rfl

variable {T} {declared}

/-- Only which relations are declared matters. -/
theorem catalogView_congr {declared' : List String} (h : ∀ relation, relation ∈ declared ↔ relation ∈ declared') :
    catalogView T declared = catalogView T declared' := by
  have hjoin : catalogJoin T declared = catalogJoin T declared' := by
    funext s join
    simp only [catalogJoin, h]
  funext catalog view
  simp only [catalogView, hjoin, h]

/-- The relations with names. -/
theorem get?_named {catalog : RelationCatalog} {relation : String} {known : List String} :
    (Dict.ofList (catalog.entries.filter fun entry => entry.1 ≠ "")).get? relation = some known ↔
      relation ≠ "" ∧ catalog.get? relation = some known := by
  have hkeys : ((catalog.entries.filter fun entry => entry.1 ≠ "").map Prod.fst).Nodup := catalog.nodup.sublist (List.filter_sublist.map _)
  have hmem : (relation, known) ∈ catalog.entries.filter (fun entry => entry.1 ≠ "") ↔ relation ≠ "" ∧ catalog.get? relation = some known := by
    rw [List.mem_filter, Dict.get?_eq_some_iff, and_comm, decide_eq_true_iff]
  exact ⟨fun h => hmem.mp (Dict.mem_of_get?_ofList h), fun h => Dict.get?_ofList_of_mem hkeys (hmem.mpr h)⟩

theorem AlikeCatalogs.named {catalog other : RelationCatalog} (h : AlikeCatalogs catalog other) :
    AlikeCatalogs (Dict.ofList (catalog.entries.filter fun entry => entry.1 ≠ "")) (Dict.ofList (other.entries.filter fun entry => entry.1 ≠ "")) := by
  have hmem : ∀ (catalog : RelationCatalog) (relation : String), relation ∈ catalog ↔ ∃ known, catalog.get? relation = some known := by
    intro catalog relation
    rw [Dict.mem_iff_mem_keys, ← Dict.get?_isSome_iff, Option.isSome_iff_exists]
  refine ⟨fun relation => ?_, fun relation column => ?_⟩
  · rw [hmem, hmem]
    simp only [get?_named, exists_and_left, ← hmem, h.relations]
  · simp only [KnowsColumn, get?_named, and_assoc, exists_and_left]
    exact and_congr_right fun _ => h.columns relation column

/-- Views in two orders give alike catalogs. -/
theorem buildRelationCatalog_perm {views views' : List ViewAsset} (h : views.Perm views') :
    AlikeCatalogs (buildRelationCatalog T views) (buildRelationCatalog T views') := by
  have hnames : (((views.map ViewAsset.name).filter (· ≠ "")).map (normalizeRelation T.forms)).Perm
      (((views'.map ViewAsset.name).filter (· ≠ "")).map (normalizeRelation T.forms)) := ((h.map _).filter _).map _
  have hsources : (((views.map ViewAsset.sourceRelation).filter (· ≠ "")).map (normalizeRelation T.forms)).Perm
      (((views'.map ViewAsset.sourceRelation).filter (· ≠ "")).map (normalizeRelation T.forms)) := ((h.map _).filter _).map _
  simp only [buildRelationCatalog]
  rw [catalogView_congr fun relation => (hsources.append hnames).mem_iff]
  generalize ((views'.map ViewAsset.sourceRelation).filter (· ≠ "")).map (normalizeRelation T.forms) ++
    ((views'.map ViewAsset.name).filter (· ≠ "")).map (normalizeRelation T.forms) = declared
  have hadds : ∀ view, ∃ additions, ∀ catalog, catalogView T declared catalog view = addAll catalog additions := catalogView_adds T declared
  choose additions hview using hadds
  have hfold : ∀ views : List ViewAsset, ∀ catalog, views.foldl (catalogView T declared) catalog = addAll catalog (views.flatMap additions) := by
    intro views
    induction views with
    | nil => exact fun _ => rfl
    | cons view views ih =>
      intro catalog
      rw [List.foldl_cons, ih, hview, List.flatMap_cons, addAll, addAll, addAll, List.foldl_append]
  have hviews : AlikeCatalogs (views.foldl (catalogView T declared) Dict.empty) (views'.foldl (catalogView T declared) Dict.empty) := by
    rw [hfold, hfold]
    exact AlikeCatalogs.addAll ⟨fun _ => .rfl, fun _ _ => .rfl⟩ fun addition => (h.flatMap_right additions).mem_iff
  have hnone : ∀ (names : List String) (catalog : RelationCatalog),
      names.foldl (fun catalog name => catalog.addColumns name []) catalog = addAll catalog (names.map fun name => (name, [])) := by
    intro names catalog
    rw [addAll, List.foldl_map]
  simp only [hnone]
  exact hviews.named.addAll fun addition => (hnames.map _).mem_iff

end Views

end Nl2Sql.Authoring
