import Mathlib.Data.List.ReduceOption
import Nl2Sql.Lib.Lists
import Nl2Sql.Semantic.SchemaSnapshot

/-!
# A snapshot does not depend on the order of the catalog rows

Each stream of rows is read row by row, what is read is grouped by the relation it belongs to, and every group is sorted by a key that no two
of its members share. So rows in another order are read as the same things in another order, and the order is forgotten.
-/

namespace Nl2Sql.Snapshot

open Py

section Order

variable {ν : Type} (R : ValueReader ν)

/-- No two rows of a stream have one name in one relation. -/
def NamesUnique (name : String) (rows : List (Dict String ν)) : Prop :=
  rows.Pairwise fun row other => ∀ oid text, intField R row "relation_oid" = .ok oid → textField R row name = .ok text →
    intField R other "relation_oid" = .ok oid → textField R other name ≠ .ok text

/-- The rows of two catalogs are the same, stream by stream, in any order. -/
structure CatalogRows.Perm (rows other : CatalogRows ν) : Prop where
  relations : rows.relations.Perm other.relations
  columns : rows.columns.Perm other.columns
  constraints : rows.constraints.Perm other.constraints
  indexes : rows.indexes.Perm other.indexes

/-- The names of columns, constraints and indexes are unique within a relation. -/
structure CatalogRows.Unique (rows : CatalogRows ν) : Prop where
  columns : NamesUnique R "column_name" rows.columns
  constraints : NamesUnique R "constraint_name" rows.constraints
  indexes : NamesUnique R "index_name" rows.indexes

variable {R}

theorem NamesUnique.perm {name : String} {rows other : List (Dict String ν)} (h : NamesUnique R name rows) (hperm : rows.Perm other) :
    NamesUnique R name other := by
  refine (List.Perm.pairwise_iff ?_ hperm).mp h
  intro row other hpair oid text hoid htext hoid' htext'
  exact hpair oid text hoid' htext' hoid htext

theorem CatalogRows.Unique.perm {rows other : CatalogRows ν} (h : rows.Unique R) (hperm : rows.Perm other) : other.Unique R :=
  ⟨h.columns.perm hperm.columns, h.constraints.perm hperm.constraints, h.indexes.perm hperm.indexes⟩

theorem CatalogRows.Perm.symm {rows other : CatalogRows ν} (h : rows.Perm other) : other.Perm rows :=
  ⟨h.relations.symm, h.columns.symm, h.constraints.symm, h.indexes.symm⟩

/-! ## Groups -/

theorem rowsOf_perm {α : Type} {rows other : List (Int × α)} (h : rows.Perm other) (oid : Int) : (rowsOf oid rows).Perm (rowsOf oid other) :=
  h.filterMap _

/-- What is read for one relation has different names, as the rows have. -/
theorem nodup_rowsOf {α β : Type} {read : Dict String ν → Except SnapshotError β} {pick : β → Option (Int × α)} {nameOf : α → String}
    {name : String} (hread : ∀ row b oid item, read row = .ok b → pick b = some (oid, item) →
      intField R row "relation_oid" = .ok oid ∧ textField R row name = .ok (nameOf item))
    {rows : List (Dict String ν)} (hunique : NamesUnique R name rows) {made : List β} (hmade : rows.mapM read = .ok made) (oid : Int) :
    ((rowsOf oid (made.filterMap pick)).map nameOf).Nodup := by
  have hpairs : made.Pairwise fun b b' => ∀ item item', pick b = some (oid, item) → pick b' = some (oid, item') → nameOf item ≠ nameOf item' := by
    refine pairwise_mapM ?_ hunique hmade
    intro row row' b b' hrows hb hb' item item' hitem hitem' hname
    obtain ⟨hoid, htext⟩ := hread row b oid item hb hitem
    obtain ⟨hoid', htext'⟩ := hread row' b' oid item' hb' hitem'
    exact hrows oid (nameOf item) hoid htext hoid' (hname ▸ htext')
  rw [rowsOf, List.filterMap_filterMap, List.Nodup, List.pairwise_map, List.pairwise_filterMap]
  refine hpairs.imp fun {b b'} hpair item hitem item' hitem' => ?_
  have hpick : ∀ {b : β} {item : α}, ((pick b).bind fun row => if row.1 = oid then some row.2 else none) = some item → pick b = some (oid, item) := by
    intro b item h
    obtain ⟨⟨oid', item'⟩, hb, hif⟩ := Option.bind_eq_some_iff.mp h
    split at hif
    · rename_i heq
      rw [hb, ← Option.some.inj hif, ← heq]
    · cases hif
  exact hpair item item' (hpick hitem) (hpick hitem')

/-! ## Relations -/

theorem collectRelation_eq_ok {schemas : List String} {collected next : List (CollectedRelation ν)} {row : Dict String ν} :
    collectRelation R schemas collected row = .ok next ↔ ∃ relation, readRelationRow R schemas row = .ok relation ∧
      (relation.oid ∉ collected.map (·.oid) ∧ relation.relationId ∉ collected.map (·.relationId)) ∧ next = collected ++ [relation] := by
  unfold collectRelation
  rw [bind_eq_ok]
  refine exists_congr fun relation => and_congr_right fun _ => ?_
  by_cases hdup : relation.oid ∈ collected.map (·.oid) ∨ relation.relationId ∈ collected.map (·.relationId)
  · rw [if_pos hdup]
    exact iff_of_false (fun h => nomatch h) fun h => hdup.elim h.1.1 h.1.2
  · rw [if_neg hdup]
    exact ⟨fun h => ⟨not_or.mp hdup, (Except.ok.inj h).symm⟩, fun h => congrArg Except.ok h.2.symm⟩

/-- The relation rows are accepted where each of them is read, and no oid and no identity comes twice. -/
theorem collectRelations_eq_ok {schemas : List String} {rows : List (Dict String ν)} {collected : List (CollectedRelation ν)} :
    rows.foldlM (collectRelation R schemas) [] = .ok collected ↔ rows.mapM (readRelationRow R schemas) = .ok collected ∧
      (collected.map (·.oid)).Nodup ∧ (collected.map (·.relationId)).Nodup := by
  rw [foldlM_read (fun _ _ _ => collectRelation_eq_ok) rows []]
  have hfresh : ∀ made : List (CollectedRelation ν),
      (∀ (before : List (CollectedRelation ν)) relation after, made = before ++ relation :: after →
        relation.oid ∉ before.map (·.oid) ∧ relation.relationId ∉ before.map (·.relationId)) ↔
      (made.map (·.oid)).Nodup ∧ (made.map (·.relationId)).Nodup := by
    intro made
    rw [← eachAfter_fresh_iff, ← eachAfter_fresh_iff]
    constructor
    · exact fun h => ⟨fun before a after heq => (h before a after heq).1, fun before a after heq => (h before a after heq).2⟩
    · exact fun h before a after heq => ⟨h.1 before a after heq, h.2 before a after heq⟩
  constructor
  · rintro ⟨made, hmade, rfl, hall⟩
    exact ⟨hmade, (hfresh _).mp hall⟩
  · rintro ⟨hmade, hnodup⟩
    exact ⟨collected, hmade, rfl, (hfresh collected).mpr hnodup⟩

/-! ## Columns, constraints and indexes -/

theorem readColumnRow_congr {oids oids' : List Int} (h : ∀ oid, oid ∈ oids ↔ oid ∈ oids') : readColumnRow R oids = readColumnRow R oids' := by
  funext row
  unfold readColumnRow
  simp only [h]

theorem readIndexRow_congr {oids oids' : List Int} (h : ∀ oid, oid ∈ oids ↔ oid ∈ oids') : readIndexRow R oids = readIndexRow R oids' := by
  funext row
  unfold readIndexRow
  simp only [h]

theorem readConstraintRow_congr {collected collected' : List (CollectedRelation ν)} (h : collected.Perm collected') :
    readConstraintRow R collected = readConstraintRow R collected' := by
  funext row
  unfold readConstraintRow
  simp only [(h.map _).mem_iff]

theorem readColumnRow_some {oids : List Int} {row : Dict String ν} {b : Option (Int × ColumnSnapshot)}
    (h : readColumnRow R oids row = .ok b) {oid : Int} {column : ColumnSnapshot} (hb : b = some (oid, column)) :
    intField R row "relation_oid" = .ok oid ∧ textField R row "column_name" = .ok column.name := by
  subst hb
  obtain ⟨oid', hoid, h⟩ := bind_eq_ok.mp h
  split at h
  · nomatch h
  · obtain ⟨name, hname, h⟩ := bind_eq_ok.mp h
    obtain ⟨dataType, -, h⟩ := bind_eq_ok.mp h
    obtain ⟨nullable, -, h⟩ := bind_eq_ok.mp h
    obtain ⟨ordinal, -, h⟩ := bind_eq_ok.mp h
    cases h
    exact ⟨hoid, hname⟩

theorem readIndexRow_some {oids : List Int} {row : Dict String ν} {b : Option (Int × IndexSnapshot)}
    (h : readIndexRow R oids row = .ok b) {oid : Int} {index : IndexSnapshot} (hb : b = some (oid, index)) :
    intField R row "relation_oid" = .ok oid ∧ textField R row "index_name" = .ok index.name := by
  subst hb
  obtain ⟨oid', hoid, h⟩ := bind_eq_ok.mp h
  split at h
  · nomatch h
  · obtain ⟨predicate, -, h⟩ := bind_eq_ok.mp h
    obtain ⟨name, hname, h⟩ := bind_eq_ok.mp h
    obtain ⟨columns, -, h⟩ := bind_eq_ok.mp h
    obtain ⟨unique, -, h⟩ := bind_eq_ok.mp h
    obtain ⟨primary, -, h⟩ := bind_eq_ok.mp h
    cases h
    exact ⟨hoid, hname⟩

/-- The primary key of a constraint row, with the oid of its relation. -/
def asPrimaryKey : Option CollectedConstraint → Option (Int × List String)
  | some (.primaryKey oid columns) => some (oid, columns)
  | _ => none

/-- The foreign key of a constraint row, with the oid of its relation. -/
def asForeignKey : Option CollectedConstraint → Option (Int × ForeignKeySnapshot)
  | some (.foreignKey oid foreignKey) => some (oid, foreignKey)
  | _ => none

theorem readConstraintRow_some {collected : List (CollectedRelation ν)} {row : Dict String ν} {constraint : Option CollectedConstraint}
    (h : readConstraintRow R collected row = .ok constraint) {oid : Int} {foreignKey : ForeignKeySnapshot}
    (hkey : asForeignKey constraint = some (oid, foreignKey)) :
    intField R row "relation_oid" = .ok oid ∧ textField R row "constraint_name" = .ok foreignKey.name := by
  obtain ⟨oid', hoid, h⟩ := bind_eq_ok.mp h
  split at h
  · cases h
    nomatch hkey
  · obtain ⟨value, -, h⟩ := bind_eq_ok.mp h
    obtain ⟨constraintType, -, h⟩ := bind_eq_ok.mp h
    obtain ⟨columns, -, h⟩ := bind_eq_ok.mp h
    split at h
    · cases h
      nomatch hkey
    · split at h
      · obtain ⟨targetSchema, -, h⟩ := bind_eq_ok.mp h
        obtain ⟨targetRelation, -, h⟩ := bind_eq_ok.mp h
        split at h
        · cases h
          nomatch hkey
        · split at h
          · cases h
            nomatch hkey
          · obtain ⟨targetRelationId, -, h⟩ := bind_eq_ok.mp h
            obtain ⟨name, hname, h⟩ := bind_eq_ok.mp h
            obtain ⟨targetColumns, -, h⟩ := bind_eq_ok.mp h
            cases h
            cases hkey
            exact ⟨hoid, hname⟩
      · cases h
        nomatch hkey

theorem collectConstraint_eq_ok {collected : List (CollectedRelation ν)} {keys next : CollectedKeys} {row : Dict String ν} :
    collectConstraint R collected keys row = .ok next ↔ ∃ constraint, readConstraintRow R collected row = .ok constraint ∧
      (∀ oid columns, asPrimaryKey constraint = some (oid, columns) → oid ∉ keys.primaryKeys.map Prod.fst) ∧
      next = ⟨keys.primaryKeys ++ (asPrimaryKey constraint).toList, keys.foreignKeys ++ (asForeignKey constraint).toList⟩ := by
  unfold collectConstraint
  rw [bind_eq_ok]
  refine exists_congr fun constraint => and_congr_right fun _ => ?_
  obtain ⟨primaryKeys, foreignKeys⟩ := keys
  match constraint with
  | none =>
    simp only [asPrimaryKey, asForeignKey, Option.toList_none, List.append_nil, reduceCtorEq, false_implies, implies_true, true_and]
    exact ⟨fun h => (Except.ok.inj h).symm, fun h => congrArg Except.ok h.symm⟩
  | some (.primaryKey oid columns) =>
    simp only [asPrimaryKey, asForeignKey, Option.toList_none, List.append_nil, Option.toList_some, Option.some.injEq, Prod.mk.injEq, and_imp]
    by_cases hdup : oid ∈ primaryKeys.map Prod.fst
    · rw [if_pos hdup]
      exact iff_of_false (fun h => nomatch h) fun h => h.1 oid columns rfl rfl hdup
    · rw [if_neg hdup]
      exact ⟨fun h => ⟨fun _ _ hoid _ => hoid ▸ hdup, (Except.ok.inj h).symm⟩, fun h => congrArg Except.ok h.2.symm⟩
  | some (.foreignKey oid foreignKey) =>
    simp only [asPrimaryKey, asForeignKey, Option.toList_none, List.append_nil, Option.toList_some, reduceCtorEq, false_implies, implies_true,
      true_and]
    exact ⟨fun h => (Except.ok.inj h).symm, fun h => congrArg Except.ok h.symm⟩

theorem nodup_append_toList {keys : List (Int × List String)} (h : (keys.map Prod.fst).Nodup) (key : Option (Int × List String)) :
    ((keys ++ key.toList).map Prod.fst).Nodup ↔ ∀ oid columns, key = some (oid, columns) → oid ∉ keys.map Prod.fst := by
  cases key with
  | none =>
    rw [Option.toList_none, List.append_nil]
    exact iff_of_true h fun _ _ h => nomatch h
  | some key =>
    rw [Option.toList_some, List.map_append, List.map_singleton, List.nodup_append]
    constructor
    · rintro ⟨-, -, hdisjoint⟩ oid columns heq hmem
      obtain rfl := Option.some.inj heq
      exact hdisjoint _ hmem _ (List.mem_singleton_self _) rfl
    · intro hfresh
      refine ⟨h, List.nodup_singleton _, fun k hk k' hk' heq => hfresh key.1 key.2 rfl ?_⟩
      rw [← List.mem_singleton.mp hk', ← heq]
      exact hk

/-- The constraint rows are accepted where each of them is read and no relation has two primary keys. -/
theorem collectConstraints_eq_ok {collected : List (CollectedRelation ν)} {rows : List (Dict String ν)} {keys last : CollectedKeys}
    (hkeys : (keys.primaryKeys.map Prod.fst).Nodup) :
    rows.foldlM (collectConstraint R collected) keys = .ok last ↔ ∃ made, rows.mapM (readConstraintRow R collected) = .ok made ∧
      last = ⟨keys.primaryKeys ++ made.filterMap asPrimaryKey, keys.foreignKeys ++ made.filterMap asForeignKey⟩ ∧
      (last.primaryKeys.map Prod.fst).Nodup := by
  induction rows generalizing keys with
  | nil =>
    rw [List.foldlM_nil, List.mapM_nil]
    constructor
    · intro h
      cases h
      refine ⟨[], rfl, ?_, hkeys⟩
      rw [List.filterMap_nil, List.filterMap_nil, List.append_nil, List.append_nil]
    · rintro ⟨made, hmade, rfl, -⟩
      cases hmade
      rw [List.filterMap_nil, List.filterMap_nil, List.append_nil, List.append_nil]
      rfl
  | cons row rows ih =>
    have hcons : ∀ {α : Type} (pick : Option CollectedConstraint → Option α) (kept : List α) (constraint : Option CollectedConstraint)
        (made : List (Option CollectedConstraint)),
        kept ++ (constraint :: made).filterMap pick = (kept ++ (pick constraint).toList) ++ made.filterMap pick := by
      intro α pick kept constraint made
      rw [List.filterMap_cons, List.append_assoc]
      cases pick constraint <;> rfl
    simp only [List.foldlM_cons, List.mapM_cons, bind_eq_ok, collectConstraint_eq_ok]
    constructor
    · rintro ⟨_, ⟨constraint, hconstraint, hfresh, rfl⟩, hrest⟩
      obtain ⟨made, hmade, rfl, hnodup⟩ := (ih ((nodup_append_toList hkeys _).mpr hfresh)).mp hrest
      refine ⟨constraint :: made, ⟨constraint, hconstraint, made, hmade, rfl⟩, ?_, hnodup⟩
      rw [hcons, hcons]
    · rintro ⟨_, ⟨constraint, hconstraint, made, hmade, heq⟩, rfl, hnodup⟩
      cases heq
      have hstep : ((keys.primaryKeys ++ (asPrimaryKey constraint).toList).map Prod.fst).Nodup := by
        rw [hcons, List.map_append] at hnodup
        exact (List.nodup_append.mp hnodup).1
      refine ⟨_, ⟨constraint, hconstraint, (nodup_append_toList hkeys _).mp hstep, rfl⟩, (ih hstep).mpr ⟨made, hmade, ?_, hnodup⟩⟩
      rw [hcons, hcons]

/-! ## The relations of a snapshot -/

/-- Of rows of different relations at most one is of an oid. -/
theorem rowsOf_head?_perm {α : Type} {rows other : List (Int × α)} (h : rows.Perm other) (hnodup : (rows.map Prod.fst).Nodup) (oid : Int) :
    (rowsOf oid rows).head? = (rowsOf oid other).head? := by
  have hshort : (rowsOf oid rows).length ≤ 1 := by
    induction rows generalizing other with
    | nil => exact Nat.zero_le 1
    | cons row rows ih =>
      rw [List.map_cons, List.nodup_cons] at hnodup
      rw [rowsOf, List.filterMap_cons]
      split
      · exact ih (.refl rows) hnodup.2
      · rename_i item hitem
        have hnone : rowsOf oid rows = [] := by
          refine List.filterMap_eq_nil_iff.mpr fun row' hrow' => if_neg fun hoid => hnodup.1 ?_
          split at hitem
          · rename_i heq
            rw [heq, ← hoid]
            exact List.mem_map_of_mem hrow'
          · cases hitem
        change (item :: rowsOf oid rows).length ≤ 1
        rw [hnone]
        exact le_refl 1
  have hperm := rowsOf_perm h oid
  cases hrows : rowsOf oid rows with
  | nil =>
    rw [hrows] at hperm
    rw [hperm.nil_eq]
  | cons item rest =>
    rw [hrows, List.length_cons] at hshort
    obtain rfl := List.eq_nil_of_length_eq_zero (Nat.le_zero.mp (Nat.le_of_succ_le_succ hshort))
    rw [hrows] at hperm
    rw [List.singleton_perm.mp hperm]

theorem parentOf_congr {collected collected' : List (CollectedRelation ν)} (h : collected.Perm collected') :
    parentOf R collected = parentOf R collected' := by
  funext row
  unfold parentOf
  simp only [(h.map _).mem_iff]

/-- The snapshot of a relation does not depend on the order in which its columns, keys and indexes were read. -/
theorem buildRelation_congr {policies : Dict String RelationPolicy} {collected collected' : List (CollectedRelation ν)}
    {columns columns' : List (Int × ColumnSnapshot)} {keys keys' : CollectedKeys} {indexes indexes' : List (Int × IndexSnapshot)}
    (hcollected : collected.Perm collected') (hcolumns : columns.Perm columns') (hprimary : keys.primaryKeys.Perm keys'.primaryKeys)
    (hforeign : keys.foreignKeys.Perm keys'.foreignKeys) (hindexes : indexes.Perm indexes')
    (hcolumnNames : ∀ oid, ((rowsOf oid columns).map (·.name)).Nodup) (hoids : (keys.primaryKeys.map Prod.fst).Nodup)
    (hforeignNames : ∀ oid, ((rowsOf oid keys.foreignKeys).map (·.name)).Nodup) (hindexNames : ∀ oid, ((rowsOf oid indexes).map (·.name)).Nodup) :
    buildRelation R policies collected columns keys indexes = buildRelation R policies collected' columns' keys' indexes' := by
  funext relation
  have hsortColumns : sortBy (fun column : ColumnSnapshot => toLex (column.ordinalPosition, column.name)) (rowsOf relation.oid columns) =
      sortBy (fun column => toLex (column.ordinalPosition, column.name)) (rowsOf relation.oid columns') := by
    refine sortBy_eq_of_perm (rowsOf_perm hcolumns _) (List.Nodup.of_map (fun key => (ofLex key).2) ?_)
    rw [List.map_map]
    exact hcolumnNames relation.oid
  have hsortForeign := sortBy_eq_of_perm (rowsOf_perm hforeign relation.oid) (hforeignNames relation.oid)
  have hsortIndexes := sortBy_eq_of_perm (rowsOf_perm hindexes relation.oid) (hindexNames relation.oid)
  unfold buildRelation
  rw [parentOf_congr hcollected, hsortColumns, hsortForeign, hsortIndexes, rowsOf_head?_perm hprimary hoids]

theorem buildRelation_relationId {policies : Dict String RelationPolicy} {collected : List (CollectedRelation ν)}
    {columns : List (Int × ColumnSnapshot)} {keys : CollectedKeys} {indexes : List (Int × IndexSnapshot)} {relation : CollectedRelation ν}
    {built : RelationSnapshot} (h : buildRelation R policies collected columns keys indexes relation = .ok built) :
    built.relationId = relation.relationId := by
  unfold buildRelation at h
  simp only [bind_eq_ok] at h
  obtain ⟨_, -, _, -, _, -, _, -, _, -, _, -, _, -, h⟩ := h
  obtain rfl := Except.ok.inj h
  rfl

/-- The relations that are built of collected relations have their identities. -/
theorem nodup_buildRelation {policies : Dict String RelationPolicy} {collected : List (CollectedRelation ν)}
    {columns : List (Int × ColumnSnapshot)} {keys : CollectedKeys} {indexes : List (Int × IndexSnapshot)} {built : List RelationSnapshot}
    (hids : (collected.map (·.relationId)).Nodup)
    (hbuilt : collected.mapM (buildRelation R policies collected columns keys indexes) = .ok built) : (built.map (·.relationId)).Nodup := by
  rw [List.Nodup, List.pairwise_map] at hids ⊢
  refine pairwise_mapM ?_ hids hbuilt
  intro relation relation' built built' hne hbuilt hbuilt'
  rwa [buildRelation_relationId hbuilt, buildRelation_relationId hbuilt']

theorem buildRelations_nodup {schemas : List String} {policies : Dict String RelationPolicy} {rows : CatalogRows ν}
    {relations : List RelationSnapshot} (h : buildRelations R schemas policies rows = .ok relations) : (relations.map (·.relationId)).Nodup := by
  obtain ⟨collected, hcollected, h⟩ := bind_eq_ok.mp h
  obtain ⟨columns, -, h⟩ := bind_eq_ok.mp h
  split at h
  · nomatch h
  · obtain ⟨keys, -, h⟩ := bind_eq_ok.mp h
    obtain ⟨indexes, -, h⟩ := bind_eq_ok.mp h
    obtain ⟨built, hbuilt, h⟩ := bind_eq_ok.mp h
    obtain rfl := Except.ok.inj h
    exact ((sortBy_perm _ built).map _).nodup_iff.mpr (nodup_buildRelation (collectRelations_eq_ok.mp hcollected).2.2 hbuilt)

/-- Rows in another order give the same relations, where they give any. -/
theorem buildRelations_perm {schemas : List String} {policies : Dict String RelationPolicy} {rows other : CatalogRows ν} (hperm : rows.Perm other)
    (hunique : rows.Unique R) {relations : List RelationSnapshot} (h : buildRelations R schemas policies rows = .ok relations) :
    buildRelations R schemas policies other = .ok relations := by
  obtain ⟨collected, hcollected, h⟩ := bind_eq_ok.mp h
  obtain ⟨columns, hcolumns, h⟩ := bind_eq_ok.mp h
  obtain ⟨hread, hoids, hids⟩ := collectRelations_eq_ok.mp hcollected
  obtain ⟨collected', hread', hrelations⟩ := mapM_perm hperm.relations hread
  have hcollected' : other.relations.foldlM (collectRelation R schemas) [] = .ok collected' :=
    collectRelations_eq_ok.mpr ⟨hread', (hrelations.map _).nodup_iff.mp hoids, (hrelations.map _).nodup_iff.mp hids⟩
  have hsameOids : ∀ oid, oid ∈ collected.map (·.oid) ↔ oid ∈ collected'.map (·.oid) := fun oid => (hrelations.map _).mem_iff
  have hsameIds : ∀ relationId, relationId ∈ collected.map (·.relationId) ↔ relationId ∈ collected'.map (·.relationId) :=
    fun relationId => (hrelations.map _).mem_iff
  obtain ⟨columns', hcolumns', hcolumnsPerm⟩ := mapM_perm hperm.columns hcolumns
  rw [readColumnRow_congr hsameOids] at hcolumns'
  have hpolicies : (policies.keys.filter fun relationId => relationId ∉ collected.map (·.relationId)) =
      policies.keys.filter fun relationId => relationId ∉ collected'.map (·.relationId) := by
    simp only [hsameIds]
  rw [hpolicies] at h
  refine bind_eq_ok.mpr ⟨collected', hcollected', bind_eq_ok.mpr ⟨columns', hcolumns', ?_⟩⟩
  split at h
  · nomatch h
  · rename_i hknown
    simp only
    obtain ⟨keys, hkeys, h⟩ := bind_eq_ok.mp h
    obtain ⟨indexes, hindexes, h⟩ := bind_eq_ok.mp h
    obtain ⟨built, hbuilt, h⟩ := bind_eq_ok.mp h
    have hempty : ((⟨[], []⟩ : CollectedKeys).primaryKeys.map Prod.fst).Nodup := List.nodup_nil
    obtain ⟨made, hmade, hkeysEq, hprimary⟩ := (collectConstraints_eq_ok hempty).mp hkeys
    obtain ⟨made', hmade', hmadePerm⟩ := mapM_perm hperm.constraints hmade
    rw [readConstraintRow_congr hrelations] at hmade'
    obtain ⟨keys', hkeysEq'⟩ : ∃ keys' : CollectedKeys, keys' = ⟨made'.filterMap asPrimaryKey, made'.filterMap asForeignKey⟩ := ⟨_, rfl⟩
    have hprimaryPerm : keys.primaryKeys.Perm keys'.primaryKeys := by
      rw [hkeysEq, hkeysEq']
      exact hmadePerm.filterMap asPrimaryKey
    have hforeignPerm : keys.foreignKeys.Perm keys'.foreignKeys := by
      rw [hkeysEq, hkeysEq']
      exact hmadePerm.filterMap asForeignKey
    have hkeys' : other.constraints.foldlM (collectConstraint R collected') ⟨[], []⟩ = .ok keys' :=
      (collectConstraints_eq_ok hempty).mpr ⟨made', hmade', hkeysEq', (hprimaryPerm.map _).nodup_iff.mp hprimary⟩
    obtain ⟨indexes', hindexes', hindexesPerm⟩ := mapM_perm hperm.indexes hindexes
    rw [readIndexRow_congr hsameOids] at hindexes'
    have hcolumnRead : ∀ row b oid (item : ColumnSnapshot), readColumnRow R (collected.map (·.oid)) row = .ok b → id b = some (oid, item) →
        intField R row "relation_oid" = .ok oid ∧ textField R row "column_name" = .ok item.name := fun row b oid item hb hitem =>
      readColumnRow_some hb hitem
    have hindexRead : ∀ row b oid (item : IndexSnapshot), readIndexRow R (collected.map (·.oid)) row = .ok b → id b = some (oid, item) →
        intField R row "relation_oid" = .ok oid ∧ textField R row "index_name" = .ok item.name := fun row b oid item hb hitem =>
      readIndexRow_some hb hitem
    have hcolumnNames := nodup_rowsOf hcolumnRead hunique.columns hcolumns
    have hindexNames := nodup_rowsOf hindexRead hunique.indexes hindexes
    have hforeignNames : ∀ oid, ((rowsOf oid keys.foreignKeys).map (·.name)).Nodup := by
      rw [hkeysEq]
      exact nodup_rowsOf (fun row b oid item hb hitem => readConstraintRow_some hb hitem) hunique.constraints hmade
    have hcolumnsKept : columns.reduceOption.Perm columns'.reduceOption := hcolumnsPerm.filterMap id
    have hindexesKept : indexes.reduceOption.Perm indexes'.reduceOption := hindexesPerm.filterMap id
    have hbuiltIds := nodup_buildRelation hids hbuilt
    rw [buildRelation_congr hrelations hcolumnsKept hprimaryPerm hforeignPerm hindexesKept hcolumnNames hprimary hforeignNames
      hindexNames] at hbuilt
    obtain ⟨built', hbuilt', hbuiltPerm⟩ := mapM_perm hrelations hbuilt
    refine bind_eq_ok.mpr ⟨_, hkeys', bind_eq_ok.mpr ⟨indexes', hindexes', bind_eq_ok.mpr ⟨built', hbuilt', ?_⟩⟩⟩
    obtain rfl := Except.ok.inj h
    exact congrArg Except.ok (sortBy_eq_of_perm hbuiltPerm hbuiltIds).symm

end Order

/-- Whatever order the rows of the catalog come in, the build raises, or it returns the same candidate, with the same checksums. -/
theorem snapshot_row_order {ν : Type} (R : ValueReader ν) (sha256 : String → String) (sourceIdentifier : String) (approvedSchemas : List String)
    (policies : Dict String RelationPolicy) (parserVersion : String) {rows other : CatalogRows ν} (hperm : rows.Perm other)
    (hunique : rows.Unique R) :
    (∃ error error', buildSchemaSnapshotCandidate R sha256 sourceIdentifier approvedSchemas rows policies parserVersion = .error error ∧
      buildSchemaSnapshotCandidate R sha256 sourceIdentifier approvedSchemas other policies parserVersion = .error error') ∨
    ∃ candidate candidate', buildSchemaSnapshotCandidate R sha256 sourceIdentifier approvedSchemas rows policies parserVersion = .ok candidate ∧
      buildSchemaSnapshotCandidate R sha256 sourceIdentifier approvedSchemas other policies parserVersion = .ok candidate' ∧
      candidate.checksum = candidate'.checksum ∧ candidate.schemaChecksum = candidate'.schemaChecksum ∧ candidate = candidate' := by
  have hbuild : ∀ {rows other : CatalogRows ν}, rows.Perm other → rows.Unique R → ∀ {candidate},
      buildSchemaSnapshotCandidate R sha256 sourceIdentifier approvedSchemas rows policies parserVersion = .ok candidate →
      buildSchemaSnapshotCandidate R sha256 sourceIdentifier approvedSchemas other policies parserVersion = .ok candidate := by
    intro rows other hperm hunique candidate h
    unfold buildSchemaSnapshotCandidate at h ⊢
    simp only at h ⊢
    split at h
    · nomatch h
    · rename_i hsource
      rw [if_neg hsource]
      split at h
      · nomatch h
      · rename_i hparser
        rw [if_neg hparser]
        obtain ⟨schemas, hschemas, h⟩ := bind_eq_ok.mp h
        obtain ⟨normalized, hnormalized, h⟩ := bind_eq_ok.mp h
        obtain ⟨relations, hrelations, h⟩ := bind_eq_ok.mp h
        refine bind_eq_ok.mpr ⟨schemas, hschemas, bind_eq_ok.mpr ⟨normalized, hnormalized, bind_eq_ok.mpr ⟨relations, ?_, h⟩⟩⟩
        exact buildRelations_perm hperm hunique hrelations
  cases hrows : buildSchemaSnapshotCandidate R sha256 sourceIdentifier approvedSchemas rows policies parserVersion with
  | ok candidate => exact .inr ⟨candidate, candidate, rfl, hbuild hperm hunique hrows, rfl, rfl, rfl⟩
  | error error =>
    cases hother : buildSchemaSnapshotCandidate R sha256 sourceIdentifier approvedSchemas other policies parserVersion with
    | error error' => exact .inl ⟨error, error', rfl, rfl⟩
    | ok candidate => exact absurd (hrows.symm.trans (hbuild hperm.symm (hunique.perm hperm) hother)) fun h => nomatch h

/-- Values as a driver gives them. -/
inductive PlainValue where
  | none
  | bool (b : Bool)
  | int (n : Int)
  | str (s : String)
  deriving DecidableEq

/-- `int`, `str` and `bool` of such values, where they are used on their own type. -/
def plainReader : ValueReader PlainValue where
  int value := match value with
    | .int n => some n
    | _ => Option.none
  str value := match value with
    | .str s => some s
    | _ => Option.none
  bool value := match value with
    | .bool b => some b
    | .int n => some (n ≠ 0)
    | .str s => some (s ≠ "")
    | .none => some false
  items _ := Option.none
  isNone value := value = .none
  text? value := match value with
    | .str s => some s
    | _ => Option.none
  bytes? _ := Option.none

/-- A column row. -/
def columnRow (name dataType : String) (ordinalPosition : Int) : Dict String PlainValue :=
  Dict.ofList [("relation_oid", .int 1), ("column_name", .str name), ("data_type", .str dataType), ("nullable", .bool false),
    ("ordinal_position", .int ordinalPosition)]

/-- A table of two columns, whose rows come in the order given. -/
def orders (columns : List (Dict String PlainValue)) : CatalogRows PlainValue where
  relations := [Dict.ofList [("relation_oid", .int 1), ("schema_name", .str "public"), ("relation_name", .str "orders"),
    ("relation_kind", .str "table")]]
  columns
  constraints := []
  indexes := []

theorem snapshot_row_order_columns : ∃ candidate candidate',
    buildSchemaSnapshotCandidate plainReader id "warehouse" ["public"] (orders [columnRow "id" "bigint" 1, columnRow "day" "date" 2]) Dict.empty
      parserVersionV1 = .ok candidate ∧
    buildSchemaSnapshotCandidate plainReader id "warehouse" ["public"] (orders [columnRow "day" "date" 2, columnRow "id" "bigint" 1]) Dict.empty
      parserVersionV1 = .ok candidate' ∧ candidate.checksum = candidate'.checksum := by
  have hperm : (orders [columnRow "id" "bigint" 1, columnRow "day" "date" 2]).Perm (orders [columnRow "day" "date" 2, columnRow "id" "bigint" 1]) :=
    ⟨.refl _, .swap _ _ [], .refl _, .refl _⟩
  have hcolumns : NamesUnique plainReader "column_name" [columnRow "id" "bigint" 1, columnRow "day" "date" 2] := by
    refine List.pairwise_pair.mpr fun oid text _ htext _ htext' => ?_
    have hid : textField plainReader (columnRow "id" "bigint" 1) "column_name" = .ok "id" := by decide
    have hday : textField plainReader (columnRow "day" "date" 2) "column_name" = .ok "day" := by decide
    have hsame : "id" = "day" := (Except.ok.inj (hid.symm.trans htext)).trans (Except.ok.inj (hday.symm.trans htext')).symm
    exact absurd hsame (by decide)
  have hbuilt : (buildSchemaSnapshotCandidate plainReader id "warehouse" ["public"]
      (orders [columnRow "id" "bigint" 1, columnRow "day" "date" 2]) Dict.empty parserVersionV1).toBool = true := by decide +kernel
  rcases snapshot_row_order plainReader id "warehouse" ["public"] Dict.empty parserVersionV1 hperm
    ⟨hcolumns, List.Pairwise.nil, List.Pairwise.nil⟩ with ⟨error, _, herror, _⟩ | ⟨candidate, candidate', hrows, hother, hchecksum, _⟩
  · rw [herror] at hbuilt
    nomatch hbuilt
  · exact ⟨candidate, candidate', hrows, hother, hchecksum⟩

end Nl2Sql.Snapshot
