import Nl2Sql.Semantic.SnapshotPayload
import Nl2Sql.Theorems.SchemaDrift

/-!
# The snapshot payload codec

A built candidate is decoded from what is stored of its payload. Conversely a payload that the decoder accepts is equal to what was read from
it, in the sense of Python's `==`, which does not tell a boolean from 0 or 1, nor an integer from a float. The checksum is of what was read.
So it is the payload's own exactly where each boolean and integer field holds one.
-/

namespace Nl2Sql.Snapshot

open Py Json

/-! ## Reading back -/

/-- A text that stripping leaves as it is, and that is not empty. -/
def Stripped (s : String) : Prop := strip s = s ∧ s ≠ ""

section Fields

variable {R : PayloadReader} {members stored : List (String × Json)} {name : String}

/-- What is stored has what the object has, by name. -/
def Stores (members stored : List (String × Json)) : Prop :=
  ∀ name v, member? name members = some v → ∃ v', member? name stored = some v' ∧ Stored v v'

theorem Stores.of_stored {j : Json} (h : Stored (.obj members) j) (hn : (members.map Prod.fst).Nodup) :
    ∃ stored, j = .obj stored ∧ Stores members stored := by
  obtain ⟨stored, rfl, -, hmember⟩ := h.obj_inv hn
  exact ⟨stored, rfl, hmember⟩

variable (h : Stores members stored)

include h

theorem Stores.text {s : String} (hs : member? name members = some (.str s)) : member? name stored = some (.str s) := by
  obtain ⟨v', hv', hstored⟩ := h name _ hs
  rw [hv', hstored.text?]

theorem Stores.required_text {s : String} (hs : member? name members = some (.str s)) : required R.str? stored name = .ok s := by
  rw [required, h.text hs]
  rfl

theorem Stores.required_bool {b : Bool} (hb : member? name members = some (.bool b)) :
    required (fun value => some (R.truthy value)) stored name = .ok b := by
  obtain ⟨v', hv', hstored⟩ := h name _ hb
  rw [required, hv', hstored.bool_inv]
  rfl

theorem Stores.required_int {n : Int} (hn : member? name members = some (.int n)) : required R.int? stored name = .ok n := by
  obtain ⟨v', hv', hstored⟩ := h name _ hn
  rw [required, hv', hstored.int_inv]
  rfl

/-- A text is read as it is, unless it is empty. -/
theorem Stores.readOr_text {s default : String} (hs : member? name members = some (.str s)) (hdefault : s = "" → default = "") :
    readOr R R.str? default stored name = .ok s := by
  simp only [readOr, h.text hs, PayloadReader.truthy, decide_eq_true_eq, ne_eq]
  by_cases hempty : s = ""
  · rw [if_neg (not_not.mpr hempty), hdefault hempty, hempty]
  · rw [if_pos hempty]
    rfl

theorem Stores.readOr_int {n : Int} (hn : member? name members = some (.int n)) : readOr R R.int? 0 stored name = .ok n := by
  obtain ⟨v', hv', hstored⟩ := h name _ hn
  simp only [readOr, hv', hstored.int_inv, PayloadReader.truthy, decide_eq_true_eq, ne_eq]
  by_cases hzero : n = 0
  · rw [if_neg (not_not.mpr hzero), hzero]
  · rw [if_pos hzero]
    rfl

theorem Stores.readOptional_text {s : Option String} (hs : member? name members = some (nullable .str s)) :
    readOptional R.str? stored name = .ok s := by
  obtain ⟨v', hv', hstored⟩ := h name _ hs
  cases s with
  | none =>
    rw [readOptional, hv', hstored.null_inv]
  | some s =>
    rw [readOptional, hv', Stored.text? hstored]
    rfl

theorem Stores.readOptional_int {n : Option Int} (hn : member? name members = some (nullable .int n)) :
    readOptional R.int? stored name = .ok n := by
  obtain ⟨v', hv', hstored⟩ := h name _ hn
  cases n with
  | none =>
    rw [readOptional, hv', hstored.null_inv]
  | some n =>
    rw [readOptional, hv', Stored.int_inv hstored]
    rfl

/-- A text that was stripped is read as it is. -/
theorem Stores.strippedOf {s : Option String} (hs : member? name members = some (nullable .str s))
    (hstripped : ∀ t ∈ s, Stripped t) : strippedOf R stored name = .ok s := by
  cases s with
  | none =>
    obtain ⟨v', hv', hstored⟩ := h name _ hs
    simp only [Snapshot.strippedOf, readOr, hv', hstored.null_inv, PayloadReader.truthy]
    rfl
  | some s =>
    obtain ⟨hstrip, hne⟩ := hstripped s rfl
    rw [Snapshot.strippedOf, h.readOr_text hs fun _ => rfl]
    have htext : (if strip s = "" then none else some (strip s)) = some s := by rw [hstrip, if_neg hne]
    exact congrArg Except.ok htext

theorem Stores.itemsOf {items : List Json} (name : String) (hitems : member? name members = some (.arr items)) :
    ∃ items', itemsOf stored name = .ok items' ∧ StoredItems items items' := by
  obtain ⟨v', hv', hstored⟩ := h name _ hitems
  obtain ⟨items', rfl, hall⟩ := hstored.arr_inv
  exact ⟨items', by rw [Snapshot.itemsOf, hv']; rfl, hall⟩

end Fields

/-- The items of a stored array are read when each is. -/
theorem mapM_of_stored {α : Type} {write : α → Json} {read : Json → Except SnapshotError α} {xs : List α} {items : List Json}
    (h : StoredItems (xs.map write) items) (hread : ∀ x ∈ xs, ∀ j, Stored (write x) j → read j = .ok x) : items.mapM read = .ok xs := by
  induction xs generalizing items with
  | nil =>
    cases h
    rfl
  | cons x xs ih =>
    cases h with
    | cons hv hrest =>
      rw [List.mapM_cons, hread x List.mem_cons_self _ hv, ih hrest fun y hy => hread y (List.mem_cons_of_mem x hy)]
      rfl

/-- The mappings of a stored array of objects are read when each is. -/
theorem mapM_mappings_of_stored {α : Type} {write : α → Json} {read : List (String × Json) → Except SnapshotError α} {xs : List α}
    {items : List Json} (hobject : ∀ x, ∃ members, write x = .obj members) (h : StoredItems (xs.map write) items)
    (hread : ∀ x ∈ xs, ∀ members, Stored (write x) (.obj members) → read members = .ok x) : (items.filterMap mapping?).mapM read = .ok xs := by
  induction xs generalizing items with
  | nil =>
    cases h
    rfl
  | cons x xs ih =>
    cases h with
    | @cons _ v' _ _ hv hrest =>
      obtain ⟨members, rfl⟩ : ∃ members, v' = .obj members := by
        obtain ⟨_, hx⟩ := hobject x
        rw [hx] at hv
        cases hv
        exact ⟨_, rfl⟩
      rw [List.filterMap_cons_some (by rfl), List.mapM_cons, hread x List.mem_cons_self members hv,
        ih hrest fun y hy => hread y (List.mem_cons_of_mem x hy)]
      rfl

theorem Stores.textsOf {R : PayloadReader} {members stored : List (String × Json)} {name : String} (h : Stores members stored)
    {values : List String} (hvalues : member? name members = some (texts values)) : textsOf R stored name = .ok values := by
  obtain ⟨items, hitems, hall⟩ := h.itemsOf name hvalues
  rw [Snapshot.textsOf, hitems]
  refine mapM_of_stored hall fun s _ j hj => ?_
  rw [hj.text?]
  rfl

section Decode

variable {R : PayloadReader}

theorem columnFromPayload_of_stored {column : ColumnSnapshot} {j : Json} (h : Stored column.payload j) :
    columnFromPayload R j = .ok column := by
  obtain ⟨stored, rfl, hstores⟩ := Stores.of_stored h (by simp)
  have hname : required R.str? stored "name" = .ok column.name := hstores.required_text rfl
  have hdataType : required R.str? stored "data_type" = .ok column.dataType := hstores.required_text rfl
  have hnullable : required (fun value => some (R.truthy value)) stored "nullable" = .ok column.nullable := hstores.required_bool rfl
  have hordinal : required R.int? stored "ordinal_position" = .ok column.ordinalPosition := hstores.required_int rfl
  refine bind_eq_ok.mpr ⟨stored, rfl, ?_⟩
  rw [hname, hdataType, hnullable, hordinal]
  rfl

theorem foreignKeyFromPayload_of_stored {foreignKey : ForeignKeySnapshot} {j : Json} (h : Stored foreignKey.payload j) :
    foreignKeyFromPayload R j = .ok foreignKey := by
  obtain ⟨stored, rfl, hstores⟩ := Stores.of_stored h (by simp)
  have hname : required R.str? stored "name" = .ok foreignKey.name := hstores.required_text rfl
  have hcolumns : textsOf R stored "columns" = .ok foreignKey.columns := hstores.textsOf rfl
  have htarget : required R.str? stored "target_relation_id" = .ok foreignKey.targetRelationId := hstores.required_text rfl
  have htargets : textsOf R stored "target_columns" = .ok foreignKey.targetColumns := hstores.textsOf rfl
  refine bind_eq_ok.mpr ⟨stored, rfl, ?_⟩
  rw [hname, hcolumns, htarget, htargets]
  rfl

theorem indexFromPayload_of_stored {index : IndexSnapshot} (hpredicate : ∀ s ∈ index.predicate, Stripped s) {j : Json}
    (h : Stored index.payload j) : indexFromPayload R j = .ok index := by
  obtain ⟨stored, rfl, hstores⟩ := Stores.of_stored h (by simp)
  have hname : required R.str? stored "name" = .ok index.name := hstores.required_text rfl
  have hcolumns : textsOf R stored "columns" = .ok index.columns := hstores.textsOf rfl
  have hunique : required (fun value => some (R.truthy value)) stored "unique" = .ok index.unique := hstores.required_bool rfl
  have hprimary : required (fun value => some (R.truthy value)) stored "primary" = .ok index.primary := hstores.required_bool rfl
  have hpredicate' : strippedOf R stored "predicate" = .ok index.predicate := hstores.strippedOf rfl hpredicate
  refine bind_eq_ok.mpr ⟨stored, rfl, ?_⟩
  rw [hname, hcolumns, hunique, hprimary, hpredicate']
  rfl

theorem bindingFromPayload_of_stored {binding : OrganizationCoverageBinding} {entry : List (String × Json)}
    (h : Stored binding.payload (.obj entry)) : bindingFromPayload R entry = .ok binding := by
  obtain ⟨stored, heq, hstores⟩ := Stores.of_stored h (by simp)
  obtain rfl := Json.obj.inj heq
  have hscope : readOr R R.str? "" entry "scope_level" = .ok binding.scopeLevel := hstores.readOr_text rfl fun _ => rfl
  have hfield : readOptional R.str? entry "field" = .ok binding.field := hstores.readOptional_text rfl
  have htype : readOptional R.str? entry "value_type" = .ok binding.valueType := hstores.readOptional_text rfl
  rw [bindingFromPayload, hscope, hfield, htype]
  rfl

/-- What reading back asks of a relation. -/
structure Encodable (relation : RelationSnapshot) : Prop where
  predicate : ∀ index ∈ relation.indexes, ∀ s ∈ index.predicate, Stripped s
  partitionKey : ∀ s ∈ relation.partitionKey, Stripped s
  sensitivity : relation.sensitivity ≠ ""

theorem relationFromPayload_of_stored {relation : RelationSnapshot} (hencodable : Encodable relation) {payload : List (String × Json)}
    (h : Stored (relationPayload relation true) (.obj payload)) : relationFromPayload R formatVersion payload = .ok relation := by
  obtain ⟨stored, heq, hstores⟩ := Stores.of_stored h (by simp)
  obtain rfl := Json.obj.inj heq
  have hcoverage : coverageFromPayload R payload formatVersion = .ok relation.organizationCoverage := by
    obtain ⟨items, hitems, hall⟩ := hstores.itemsOf "organization_coverage" rfl
    rw [coverageFromPayload, if_neg (by decide), hitems]
    exact mapM_mappings_of_stored (fun _ => ⟨_, rfl⟩) hall fun binding _ members hmembers => bindingFromPayload_of_stored hmembers
  have hcolumns : (do (← itemsOf payload "columns").mapM (columnFromPayload R)) = .ok relation.columns := by
    obtain ⟨items, hitems, hall⟩ := hstores.itemsOf "columns" rfl
    exact bind_eq_ok.mpr ⟨items, hitems, mapM_of_stored hall fun column _ j hj => columnFromPayload_of_stored hj⟩
  have hforeignKeys : (do (← itemsOf payload "foreign_keys").mapM (foreignKeyFromPayload R)) = .ok relation.foreignKeys := by
    obtain ⟨items, hitems, hall⟩ := hstores.itemsOf "foreign_keys" rfl
    exact bind_eq_ok.mpr ⟨items, hitems, mapM_of_stored hall fun foreignKey _ j hj => foreignKeyFromPayload_of_stored hj⟩
  have hindexes : (do (← itemsOf payload "indexes").mapM (indexFromPayload R)) = .ok relation.indexes := by
    obtain ⟨items, hitems, hall⟩ := hstores.itemsOf "indexes" rfl
    exact bind_eq_ok.mpr ⟨items, hitems, mapM_of_stored hall fun index hindex j hj =>
      indexFromPayload_of_stored (hencodable.predicate index hindex) hj⟩
  have hrelationId : required R.str? payload "relation_id" = .ok relation.relationId := hstores.required_text rfl
  have hschemaName : required R.str? payload "schema_name" = .ok relation.schemaName := hstores.required_text rfl
  have hrelationName : required R.str? payload "relation_name" = .ok relation.relationName := hstores.required_text rfl
  have hrelationKind : required R.str? payload "relation_kind" = .ok relation.relationKind := hstores.required_text rfl
  have hprimaryKey : textsOf R payload "primary_key" = .ok relation.primaryKey := hstores.textsOf rfl
  have hpartitionKey : strippedOf R payload "partition_key" = .ok relation.partitionKey := hstores.strippedOf rfl hencodable.partitionKey
  have hparent : readOptional R.str? payload "parent_relation_id" = .ok relation.parentRelationId := hstores.readOptional_text rfl
  have hestimated : readOr R R.int? 0 payload "estimated_rows" = .ok relation.estimatedRows := hstores.readOr_int rfl
  have htotal : readOr R R.int? 0 payload "total_bytes" = .ok relation.totalBytes := hstores.readOr_int rfl
  have hsensitivity : readOr R R.str? "unclassified" payload "sensitivity" = .ok relation.sensitivity :=
    hstores.readOr_text rfl fun hempty => absurd hempty hencodable.sensitivity
  have hsensitive : textsOf R payload "sensitive_columns" = .ok relation.sensitiveColumns := hstores.textsOf rfl
  have haggregate : textsOf R payload "aggregate_coverage" = .ok relation.aggregateCoverage := hstores.textsOf rfl
  have hfreshness : readOptional R.int? payload "freshness_sla_seconds" = .ok relation.freshnessSlaSeconds := hstores.readOptional_int rfl
  rw [relationFromPayload]
  simp only [bind_eq_ok] at hcolumns hforeignKeys hindexes ⊢
  obtain ⟨columns, hcolumns, hcolumns'⟩ := hcolumns
  obtain ⟨foreignKeys, hforeignKeys, hforeignKeys'⟩ := hforeignKeys
  obtain ⟨indexes, hindexes, hindexes'⟩ := hindexes
  exact ⟨_, hcoverage, _, hrelationId, _, hschemaName, _, hrelationName, _, hrelationKind, _, hcolumns, _, hcolumns', _, hprimaryKey, _,
    hforeignKeys, _, hforeignKeys', _, hindexes, _, hindexes', _, hpartitionKey, _, hparent, _, hestimated, _, htotal, _, hsensitivity, _,
    hsensitive, _, haggregate, _, hfreshness, rfl⟩

/-- A candidate of the current format is read from what is stored of its payload. -/
theorem candidateFromPayload_of_stored {candidate : SchemaSnapshotCandidate} (hformat : candidate.formatVersion = formatVersion)
    (hencodable : ∀ relation ∈ candidate.relations, Encodable relation) {payload : List (String × Json)}
    (h : Stored (.obj candidate.toPayload) (.obj payload)) : candidateFromPayload R payload candidate.checksum = .ok candidate := by
  obtain ⟨sourceIdentifier, approvedSchemas, relations, checksum, schemaChecksum, parserVersion, format⟩ := candidate
  obtain rfl : format = formatVersion := hformat
  obtain ⟨stored, heq, hstores⟩ := Stores.of_stored h (by simp [SchemaSnapshotCandidate.toPayload, formatVersion, legacyFormatVersion])
  obtain rfl := Json.obj.inj heq
  have hformat : formatOf R payload = .ok formatVersion := by
    have hmarker : readOptional R.str? payload "format_version" = .ok (some formatVersion) := by
      rw [readOptional, hstores.text (s := formatVersion) (by rfl)]
      rfl
    exact bind_eq_ok.mpr ⟨_, hmarker, rfl⟩
  have hrelations : (do ((← itemsOf payload "relations").filterMap mapping?).mapM (relationFromPayload R formatVersion)) = .ok relations := by
    obtain ⟨items, hitems, hall⟩ := hstores.itemsOf "relations" (by rfl)
    exact bind_eq_ok.mpr ⟨items, hitems, mapM_mappings_of_stored (fun _ => ⟨_, rfl⟩) hall fun relation hrelation members hmembers =>
      relationFromPayload_of_stored (hencodable relation hrelation) hmembers⟩
  have hsource : readOr R R.str? "" payload "source_identifier" = .ok sourceIdentifier := hstores.readOr_text rfl fun _ => rfl
  have hschemas : textsOf R payload "approved_schemas" = .ok approvedSchemas := hstores.textsOf rfl
  have hschemaChecksum : readOr R R.str? "" payload "schema_checksum" = .ok schemaChecksum := hstores.readOr_text rfl fun _ => rfl
  have hparser : readOr R R.str? "" payload "parser_version" = .ok parserVersion := hstores.readOr_text rfl fun _ => rfl
  rw [candidateFromPayload]
  simp only [bind_eq_ok] at hrelations ⊢
  obtain ⟨items, hitems, hrelations⟩ := hrelations
  exact ⟨_, hformat, items, hitems, _, hrelations, _, hsource, _, hschemas, _, hschemaChecksum, _, hparser, rfl⟩

end Decode

/-! ## What is built -/

section Build

variable {ν : Type} {R : ValueReader ν}

theorem stripped_of_strippedField {row : Dict String ν} {name : String} {s : Option String} (h : strippedField R row name = .ok s) :
    ∀ t ∈ s, Stripped t := by
  obtain ⟨text, -, h⟩ := bind_eq_ok.mp h
  by_cases hempty : strip text = ""
  · simp only [hempty, if_true] at h
    obtain rfl := Except.ok.inj h
    nofun
  · simp only [hempty, if_false] at h
    obtain rfl := Except.ok.inj h
    rintro t ht
    obtain rfl := Option.some.inj ht
    exact ⟨strip_strip text, hempty⟩

theorem stripped_of_readIndexRow {oids : List Int} {row : Dict String ν} {oid : Int} {index : IndexSnapshot}
    (h : readIndexRow R oids row = .ok (some (oid, index))) : ∀ s ∈ index.predicate, Stripped s := by
  obtain ⟨oid', -, h⟩ := bind_eq_ok.mp h
  split at h
  · nomatch h
  · obtain ⟨predicate, hpredicate, h⟩ := bind_eq_ok.mp h
    obtain ⟨name, -, h⟩ := bind_eq_ok.mp h
    obtain ⟨columns, -, h⟩ := bind_eq_ok.mp h
    obtain ⟨unique, -, h⟩ := bind_eq_ok.mp h
    obtain ⟨primary, -, h⟩ := bind_eq_ok.mp h
    cases h
    exact stripped_of_strippedField hpredicate

theorem encodable_of_buildRelation {policies : Dict String RelationPolicy} {collected : List (CollectedRelation ν)}
    {columns : List (Int × ColumnSnapshot)} {keys : CollectedKeys} {indexes : List (Int × IndexSnapshot)} {relation : CollectedRelation ν}
    {built : RelationSnapshot} (hindexes : ∀ row ∈ indexes, ∀ s ∈ row.2.predicate, Stripped s)
    (h : buildRelation R policies collected columns keys indexes relation = .ok built) : Encodable built := by
  unfold buildRelation at h
  simp only [bind_eq_ok] at h
  obtain ⟨_, -, _, -, _, -, _, -, partitionKey, hpartitionKey, _, -, _, -, h⟩ := h
  obtain rfl := Except.ok.inj h
  refine ⟨fun index hindex => ?_, stripped_of_strippedField hpartitionKey, ?_⟩
  · obtain ⟨row, hrow, hif⟩ := List.mem_filterMap.mp (mem_sortBy.mp hindex)
    split at hif
    · obtain rfl := Option.some.inj hif
      exact hindexes row hrow
    · cases hif
  · change (if _ then _ else _) ≠ _
    split
    · decide
    · rename_i hsensitivity
      exact hsensitivity

theorem encodable_of_buildRelations {schemas : List String} {policies : Dict String RelationPolicy} {rows : CatalogRows ν}
    {relations : List RelationSnapshot} (h : buildRelations R schemas policies rows = .ok relations) :
    ∀ relation ∈ relations, Encodable relation := by
  obtain ⟨collected, -, h⟩ := bind_eq_ok.mp h
  obtain ⟨columns, -, h⟩ := bind_eq_ok.mp h
  split at h
  · nomatch h
  · obtain ⟨keys, -, h⟩ := bind_eq_ok.mp h
    obtain ⟨indexes, hindexes, h⟩ := bind_eq_ok.mp h
    obtain ⟨built, hbuilt, h⟩ := bind_eq_ok.mp h
    obtain rfl := Except.ok.inj h
    intro relation hrelation
    obtain ⟨_, -, hrelation⟩ := exists_of_mem_mapM hbuilt (mem_sortBy.mp hrelation)
    refine encodable_of_buildRelation (fun row hrow => ?_) hrelation
    obtain ⟨read, hread, hrow⟩ := List.mem_filterMap.mp hrow
    obtain ⟨_, -, hindex⟩ := exists_of_mem_mapM hindexes hread
    obtain rfl : read = some row := hrow
    exact stripped_of_readIndexRow hindex

end Build

/-- What is known of a built candidate: it is of the current format, its relations can be read back, and its checksums are what they should be. -/
structure Sealed (sha256 : String → String) (candidate : SchemaSnapshotCandidate) : Prop where
  format : candidate.formatVersion = formatVersion
  encodable : ∀ relation ∈ candidate.relations, Encodable relation
  schemaChecksum : candidate.structureDigest sha256 = .ok candidate.schemaChecksum
  checksum : canonicalDigest sha256 (.obj candidate.toPayload) = .ok candidate.checksum

theorem Built.sealed {sha256 : String → String} {candidate : SchemaSnapshotCandidate} (h : Built sha256 candidate) : Sealed sha256 candidate := by
  obtain ⟨ν, R, sourceIdentifier, approvedSchemas, rows, policies, parserVersion, h⟩ := h
  unfold buildSchemaSnapshotCandidate at h
  simp only at h
  split at h
  · nomatch h
  · split at h
    · nomatch h
    · obtain ⟨schemas, -, h⟩ := bind_eq_ok.mp h
      obtain ⟨normalized, -, h⟩ := bind_eq_ok.mp h
      obtain ⟨relations, hrelations, h⟩ := bind_eq_ok.mp h
      obtain ⟨schemaChecksum, hschemaChecksum, h⟩ := bind_eq_ok.mp h
      obtain ⟨checksum, hchecksum, h⟩ := bind_eq_ok.mp h
      obtain rfl := Except.ok.inj h
      exact ⟨rfl, encodable_of_buildRelations hrelations, hschemaChecksum, hchecksum⟩

/-! ## Payloads that are written -/

/-- The fields that hold a boolean and those that hold an integer. -/
def payloadField : NumberField := fun name value =>
  match value with
  | .bool _ => decide (name ∈ ["nullable", "unique", "primary"])
  | .int _ => decide (name ∈ ["ordinal_position", "estimated_rows", "total_bytes", "freshness_sla_seconds"])
  | _ => false

theorem payloadField_exact (floatValue : String → Option ℚ) : payloadField.Exact floatValue where
  number {name v} h := by
    cases v <;> first | rfl | nomatch h
  eq {name v w} hv hw h := by
    cases v with
    | bool b =>
      cases w with
      | bool b' =>
        have heq : (if b then (1 : ℚ) else 0) = if b' then 1 else 0 := of_decide_eq_true h
        cases b <;> cases b' <;> simp_all
      | int n =>
        simp only [payloadField, decide_eq_true_eq] at hv hw
        simp only [List.mem_cons, List.not_mem_nil, or_false] at hv hw
        rcases hv with rfl | rfl | rfl <;> simp at hw
      | _ => nomatch hw
    | int n =>
      cases w with
      | int n' =>
        have heq : (n : ℚ) = n' := of_decide_eq_true h
        rw [Int.cast_injective heq]
      | bool b =>
        simp only [payloadField, decide_eq_true_eq] at hv hw
        simp only [List.mem_cons, List.not_mem_nil, or_false] at hv hw
        rcases hw with rfl | rfl | rfl <;> simp at hv
      | _ => nomatch hw
    | _ => nomatch hv

/-- A value that a payload may hold: without floats, the names of its objects differ, and its numbers stand in fields for them. -/
def Fit (v : Json) : Prop := v.Plain ∧ Typed payloadField v

theorem fit_str (s : String) : Fit (.str s) := ⟨trivial, rfl⟩

theorem fit_nullable_str (s : Option String) : Fit (nullable .str s) := by
  cases s with
  | none => exact ⟨trivial, rfl⟩
  | some s => exact fit_str s

theorem fit_arr {items : List Json} (h : ∀ v ∈ items, Fit v) : Fit (.arr items) :=
  ⟨plainItems_iff.mpr fun v hv => (h v hv).1, typedItems_iff.mpr fun v hv => (h v hv).2⟩

theorem fit_map {α : Type} {write : α → Json} {values : List α} (h : ∀ a, Fit (write a)) : Fit (.arr (values.map write)) :=
  fit_arr fun v hv => by
    obtain ⟨a, -, rfl⟩ := List.mem_map.mp hv
    exact h a

theorem fit_texts (values : List String) : Fit (texts values) := fit_map fit_str

/-- An object of different names is fit where each value is, or is a number of its field. -/
theorem fit_obj {members : List (String × Json)} (hnodup : (members.map Prod.fst).Nodup)
    (h : ∀ m ∈ members, Fit m.2 ∨ m.2.Plain ∧ payloadField m.1 m.2 = true) : Fit (.obj members) := by
  refine ⟨⟨hnodup, plainMembers_iff.mpr fun m hm => ?_⟩, typedMembers_iff.mpr fun m hm => ?_⟩
  · exact (h m hm).elim (·.1) (·.1)
  · exact (h m hm).elim (fun h => .inr h.2) fun h => .inl h.2

theorem fit_column (column : ColumnSnapshot) : Fit column.payload := by
  refine fit_obj (by simp) ?_
  simp only [List.forall_mem_cons]
  exact ⟨.inl (fit_str _), .inl (fit_str _), .inr ⟨trivial, rfl⟩, .inr ⟨trivial, rfl⟩, nofun⟩

theorem fit_foreignKey (foreignKey : ForeignKeySnapshot) : Fit foreignKey.payload := by
  refine fit_obj (by simp) ?_
  simp only [List.forall_mem_cons]
  exact ⟨.inl (fit_texts _), .inl (fit_str _), .inl (fit_texts _), .inl (fit_str _), nofun⟩

theorem fit_index (index : IndexSnapshot) : Fit index.payload := by
  refine fit_obj (by simp) ?_
  simp only [List.forall_mem_cons]
  exact ⟨.inl (fit_texts _), .inl (fit_str _), .inl (fit_nullable_str _), .inr ⟨trivial, rfl⟩, .inr ⟨trivial, rfl⟩, nofun⟩

theorem fit_binding (binding : OrganizationCoverageBinding) : Fit binding.payload := by
  refine fit_obj (by simp) ?_
  simp only [List.forall_mem_cons]
  exact ⟨.inl (fit_nullable_str _), .inl (fit_str _), .inl (fit_nullable_str _), nofun⟩

theorem fit_relation (relation : RelationSnapshot) (includeOrganizationCoverage : Bool) :
    Fit (relationPayload relation includeOrganizationCoverage) := by
  have hfreshness : Fit (nullable .int relation.freshnessSlaSeconds) ∨ (nullable Json.int relation.freshnessSlaSeconds).Plain ∧
      payloadField "freshness_sla_seconds" (nullable .int relation.freshnessSlaSeconds) = true := by
    cases relation.freshnessSlaSeconds with
    | none => exact .inl ⟨trivial, rfl⟩
    | some seconds => exact .inr ⟨trivial, rfl⟩
  cases includeOrganizationCoverage with
  | true =>
    refine fit_obj (by simp) ?_
    simp only [if_true, List.cons_append, List.nil_append, List.forall_mem_cons]
    exact ⟨.inl (fit_texts _), .inl (fit_map fit_column), .inr ⟨trivial, rfl⟩, .inl (fit_map fit_foreignKey), hfreshness,
      .inl (fit_map fit_index), .inl (fit_nullable_str _), .inl (fit_nullable_str _), .inl (fit_texts _), .inl (fit_str _),
      .inl (fit_str _), .inl (fit_str _), .inl (fit_str _), .inl (fit_texts _), .inl (fit_str _), .inr ⟨trivial, rfl⟩,
      .inl (fit_map fit_binding), nofun⟩
  | false =>
    refine fit_obj (by simp) ?_
    simp only [Bool.false_eq_true, if_false, List.append_nil, List.forall_mem_cons]
    exact ⟨.inl (fit_texts _), .inl (fit_map fit_column), .inr ⟨trivial, rfl⟩, .inl (fit_map fit_foreignKey), hfreshness,
      .inl (fit_map fit_index), .inl (fit_nullable_str _), .inl (fit_nullable_str _), .inl (fit_texts _), .inl (fit_str _),
      .inl (fit_str _), .inl (fit_str _), .inl (fit_str _), .inl (fit_texts _), .inl (fit_str _), .inr ⟨trivial, rfl⟩, nofun⟩

/-- Every payload that is written is fit. -/
theorem fit_toPayload (candidate : SchemaSnapshotCandidate) : Fit (.obj candidate.toPayload) := by
  unfold SchemaSnapshotCandidate.toPayload
  by_cases hformat : candidate.formatVersion ≠ legacyFormatVersion
  · simp only [if_pos hformat]
    refine fit_obj (by simp) ?_
    simp only [List.cons_append, List.nil_append, List.forall_mem_cons]
    exact ⟨.inl (fit_texts _), .inl (fit_str _), .inl (fit_map fun relation => fit_relation relation _), .inl (fit_str _), .inl (fit_str _),
      .inl (fit_str _), nofun⟩
  · simp only [if_neg hformat, List.append_nil]
    refine fit_obj (by simp) ?_
    simp only [List.forall_mem_cons]
    exact ⟨.inl (fit_texts _), .inl (fit_str _), .inl (fit_map fun relation => fit_relation relation _), .inl (fit_str _), .inl (fit_str _),
      nofun⟩

/-! ## The decoder -/

section Codec

variable {R : PayloadReader} {sha256 : String → String} {payload : List (String × Json)} {checksum : String} {candidate : SchemaSnapshotCandidate}

/-- A payload is accepted where it is equal to what was read from it and the two checksums are those of what was read. -/
theorem fromPayload_eq_ok : schemaSnapshotCandidateFromPayload R sha256 payload checksum = .ok candidate ↔
    candidateFromPayload R payload checksum = .ok candidate ∧ pyEq R.floatValue (.obj payload) (.obj candidate.toPayload) = true ∧
      canonicalDigest sha256 (.obj candidate.toPayload) = .ok checksum ∧
      candidate.structureDigest sha256 = .ok candidate.schemaChecksum := by
  unfold schemaSnapshotCandidateFromPayload
  rw [bind_eq_ok]
  constructor
  · rintro ⟨read, hread, h⟩
    split at h
    · nomatch h
    · rename_i hequal
      obtain ⟨digest, hdigest, h⟩ := bind_eq_ok.mp h
      split at h
      · nomatch h
      · rename_i hchecksum
        obtain ⟨shape, hshape, h⟩ := bind_eq_ok.mp h
        split at h
        · nomatch h
        · rename_i hschema
          obtain rfl := Except.ok.inj h
          rw [not_not] at hchecksum hschema
          exact ⟨hread, Bool.not_eq_false _ ▸ hequal, hchecksum ▸ hdigest, hschema ▸ hshape⟩
  · rintro ⟨hread, hequal, hdigest, hshape⟩
    refine ⟨candidate, hread, ?_⟩
    rw [if_neg (by rw [hequal]; decide)]
    refine bind_eq_ok.mpr ⟨checksum, hdigest, ?_⟩
    rw [if_neg (not_not.mpr rfl)]
    refine bind_eq_ok.mpr ⟨_, hshape, ?_⟩
    rw [if_neg (not_not.mpr rfl)]
    rfl

/-- A payload without a marker is read as one of the legacy format: without coverage. -/
theorem legacy_of_candidateFromPayload (h : candidateFromPayload R payload checksum = .ok candidate)
    (hmarker : member? "format_version" payload = none) :
    candidate.formatVersion = legacyFormatVersion ∧ ∀ relation ∈ candidate.relations, relation.organizationCoverage = [] := by
  obtain ⟨format, hformat, h⟩ := bind_eq_ok.mp h
  have hlegacy : formatOf R payload = .ok legacyFormatVersion := by
    rw [formatOf, readOptional, hmarker]
    rfl
  obtain rfl : legacyFormatVersion = format := Except.ok.inj (hlegacy.symm.trans hformat)
  simp only [bind_eq_ok] at h
  obtain ⟨items, -, relations, hrelations, _, -, _, -, _, -, _, -, h⟩ := h
  obtain rfl := Except.ok.inj h
  refine ⟨rfl, fun relation hrelation => ?_⟩
  obtain ⟨members, -, hread⟩ := exists_of_mem_mapM hrelations hrelation
  obtain ⟨coverage, hcoverage, hread⟩ := bind_eq_ok.mp hread
  rw [coverageFromPayload, if_pos rfl] at hcoverage
  obtain rfl := Except.ok.inj hcoverage
  simp only [bind_eq_ok] at hread
  obtain ⟨_, -, _, -, _, -, _, -, _, -, _, -, _, -, _, -, _, -, _, -, _, -, _, -, _, -, _, -, _, -, _, -, _, -, _, -, _, -, hread⟩ := hread
  obtain rfl := Except.ok.inj hread
  rfl

/-- What is asked of a decoded candidate: it is written as a payload equal to its own, the checksum is the canonical hash of the payload, its
structure checksum is the hash of its structure, and without a marker it has no coverage and is written without a marker. -/
structure CodecLaw (R : PayloadReader) (sha256 : String → String) (payload : List (String × Json)) (checksum : String)
    (candidate : SchemaSnapshotCandidate) : Prop where
  equal : pyEq R.floatValue (.obj payload) (.obj candidate.toPayload) = true
  canonical : canonicalDigest sha256 (.obj payload) = .ok checksum
  schemaChecksum : candidate.structureDigest sha256 = .ok candidate.schemaChecksum
  legacy : member? "format_version" payload = none →
    (∀ relation ∈ candidate.relations, relation.organizationCoverage = []) ∧ member? "format_version" candidate.toPayload = none

theorem not_mem_toPayload_legacy (h : candidate.formatVersion = legacyFormatVersion) : member? "format_version" candidate.toPayload = none := by
  simp [SchemaSnapshotCandidate.toPayload, h, member?]

/-- Values that are the same but for the order of names have one digest. -/
theorem canonicalDigest_congr {v w : Json} (h : v.sortKeys = w.sortKeys) : canonicalDigest sha256 v = canonicalDigest sha256 w := by
  rw [canonicalDigest, canonicalDigest, ← writable_sortKeys v, ← writable_sortKeys w, ← dumps_sortKeys v, ← dumps_sortKeys w, h]

theorem eq_of_canonicalDigest {v w : Json} {digest : String} (hv : canonicalDigest sha256 v = .ok digest)
    (hw : canonicalDigest sha256 w = .ok digest) : sha256 v.dumps = sha256 w.dumps := by
  unfold canonicalDigest at hv hw
  split at hv
  · split at hw
    · exact (Except.ok.inj hv).trans (Except.ok.inj hw).symm
    · nomatch hw
  · nomatch hv

/-- A payload with the text of one whose numbers stand in fields for them is such a payload. -/
theorem typed_of_text {v w : Json} (hv : v.Tidy) (hw : w.Tidy) (htyped : Typed payloadField w) (h : v.dumps = w.dumps) : Typed payloadField v := by
  have hnumber : ∀ {name v}, payloadField name v = true → v.isNumber = true := (payloadField_exact fun _ => none).number
  exact (typed_sortKeys hnumber v).mp (sortKeys_eq_of_text hv hw h ▸ (typed_sortKeys hnumber w).mpr htyped)

end Codec

/-- A built candidate is decoded from what is stored of its payload. For a payload that is accepted, the law holds exactly where each boolean
and integer field of it holds a boolean and an integer, where the digest tells the text of the payload from the one that was written. -/
theorem payload_codec_iff (R : PayloadReader) (sha256 : String → String) :
    (∀ candidate payload, Built sha256 candidate → Stored (.obj candidate.toPayload) (.obj payload) →
      schemaSnapshotCandidateFromPayload R sha256 payload candidate.checksum = .ok candidate) ∧
    ∀ payload checksum candidate, (Json.obj payload).Tidy → schemaSnapshotCandidateFromPayload R sha256 payload checksum = .ok candidate →
      (sha256 (Json.obj payload).dumps = sha256 (Json.obj candidate.toPayload).dumps →
        (Json.obj payload).dumps = (Json.obj candidate.toPayload).dumps) →
      (CodecLaw R sha256 payload checksum candidate ↔ Typed payloadField (.obj payload)) := by
  constructor
  · intro candidate payload hbuilt hstored
    have hsealed := hbuilt.sealed
    have hequal : pyEq R.floatValue (.obj payload) (.obj candidate.toPayload) = true := pyEq_of_stored _ _ (fit_toPayload candidate).1 hstored
    exact fromPayload_eq_ok.mpr ⟨candidateFromPayload_of_stored hsealed.format hsealed.encodable hstored, hequal, hsealed.checksum,
      hsealed.schemaChecksum⟩
  · intro payload checksum candidate htidy haccepted hdigest
    obtain ⟨hread, hequal, hchecksum, hschema⟩ := fromPayload_eq_ok.mp haccepted
    obtain ⟨hplain, htyped⟩ := fit_toPayload candidate
    constructor
    · -- one digest is of one text, and one text of values that are the same but for the order of names
      intro hlaw
      exact typed_of_text htidy hplain.tidy htyped (hdigest (eq_of_canonicalDigest hlaw.canonical hchecksum))
    · intro hpayload
      have hsame := sortKeys_eq_of_pyEq (payloadField_exact R.floatValue) _ _ htidy hplain.tidy hpayload htyped hequal
      refine ⟨hequal, (canonicalDigest_congr hsame).trans hchecksum, hschema, fun hmarker => ?_⟩
      obtain ⟨hformat, hcoverage⟩ := legacy_of_candidateFromPayload hread hmarker
      exact ⟨hcoverage, not_mem_toPayload_legacy hformat⟩

/-! ## The table of orders -/

/-- A reader of payloads whose fields are of their own kind. -/
def plainPayloadReader : PayloadReader where
  floatValue _ := none
  intOfText _ := none
  strOf _ := none

/-- The candidate of the table of orders, with its checksums. -/
def ordersCandidate (schemaChecksum checksum : String) : SchemaSnapshotCandidate where
  sourceIdentifier := "warehouse"
  approvedSchemas := ["public"]
  relations := [{
    relationId := "public.orders", schemaName := "public", relationName := "orders", relationKind := "table"
    columns := [⟨"id", "bigint", false, 1⟩], primaryKey := [], foreignKeys := [], indexes := [], partitionKey := none
    parentRelationId := none, estimatedRows := 0, totalBytes := 0, sensitivity := "unclassified", sensitiveColumns := []
    aggregateCoverage := [], freshnessSlaSeconds := none }]
  checksum
  schemaChecksum

theorem exists_buildOrders : ∃ schemaChecksum checksum, buildOrders none = .ok (ordersCandidate schemaChecksum checksum) := by
  have hbuilt : (buildOrders none).map (fun candidate => { candidate with checksum := "", schemaChecksum := "" }) =
      .ok (ordersCandidate "" "") := by decide +kernel
  cases horders : buildOrders none with
  | error error =>
    rw [horders] at hbuilt
    nomatch hbuilt
  | ok candidate =>
    rw [horders] at hbuilt
    have hfields := Except.ok.inj hbuilt
    rw [ordersCandidate, SchemaSnapshotCandidate.mk.injEq] at hfields
    obtain ⟨hsource, hschemas, hrelations, -, -, hparser, hformat⟩ := hfields
    obtain ⟨source, schemas, relations, checksum, schemaChecksum, parser, format⟩ := candidate
    obtain rfl : source = _ := hsource
    obtain rfl : schemas = _ := hschemas
    obtain rfl : relations = _ := hrelations
    obtain rfl : parser = _ := hparser
    obtain rfl : format = _ := hformat
    exact ⟨schemaChecksum, checksum, rfl⟩

/-- A built candidate, decoded from its payload, keeps the law. -/
theorem payload_codec_orders : ∃ candidate, buildOrders none = .ok candidate ∧
    schemaSnapshotCandidateFromPayload plainPayloadReader id candidate.toPayload candidate.checksum = .ok candidate ∧
    CodecLaw plainPayloadReader id candidate.toPayload candidate.checksum candidate := by
  obtain ⟨schemaChecksum, checksum, horders⟩ := exists_buildOrders
  obtain ⟨hdecode, hlaw⟩ := payload_codec_iff plainPayloadReader id
  obtain ⟨hplain, htyped⟩ := fit_toPayload (ordersCandidate schemaChecksum checksum)
  have haccepted := hdecode _ _ (built_of_buildOrders horders) (Stored.refl _)
  exact ⟨_, horders, haccepted, (hlaw _ _ _ hplain.tidy haccepted id).mpr htyped⟩

/-- The payload of the table of orders, with a number where its column's `nullable` belongs. -/
def loosePayload (schemaChecksum : String) : List (String × Json) :=
  [("approved_schemas", texts ["public"]), ("parser_version", .str parserVersionV1),
    ("relations", .arr [.obj [("aggregate_coverage", texts []),
      ("columns", .arr [.obj [("name", .str "id"), ("data_type", .str "bigint"), ("nullable", .int 0), ("ordinal_position", .int 1)]]),
      ("estimated_rows", .int 0), ("foreign_keys", .arr []), ("freshness_sla_seconds", .null), ("indexes", .arr []),
      ("parent_relation_id", .null), ("partition_key", .null), ("primary_key", texts []), ("relation_id", .str "public.orders"),
      ("relation_kind", .str "table"), ("relation_name", .str "orders"), ("schema_name", .str "public"), ("sensitive_columns", texts []),
      ("sensitivity", .str "unclassified"), ("total_bytes", .int 0), ("organization_coverage", .arr [])]]),
    ("schema_checksum", .str schemaChecksum), ("source_identifier", .str "warehouse"), ("format_version", .str formatVersion)]

theorem candidateFromPayload_loose (schemaChecksum checksum : String) :
    candidateFromPayload plainPayloadReader (loosePayload schemaChecksum) checksum = .ok (ordersCandidate schemaChecksum checksum) := by
  have hstores : Stores (loosePayload schemaChecksum) (loosePayload schemaChecksum) := fun _ v hv => ⟨v, hv, Stored.refl v⟩
  have hschema : readOr plainPayloadReader plainPayloadReader.str? "" (loosePayload schemaChecksum) "schema_checksum" = .ok schemaChecksum :=
    hstores.readOr_text rfl fun _ => rfl
  rw [candidateFromPayload]
  simp only [bind_eq_ok]
  exact ⟨_, rfl, _, rfl, _, rfl, _, rfl, _, rfl, _, hschema, _, rfl, rfl⟩

theorem pyEq_loose (schemaChecksum checksum : String) : pyEq plainPayloadReader.floatValue (.obj (loosePayload schemaChecksum))
    (.obj (ordersCandidate schemaChecksum checksum).toPayload) = true := by
  simp [loosePayload, SchemaSnapshotCandidate.toPayload, ordersCandidate, pyEq, pyEqMembers, pyEqItems, member?, texts, relationPayload,
    ColumnSnapshot.payload, nullable, sameNumber, number?, formatVersion, legacyFormatVersion, parserVersionV1]

theorem plain_loose (schemaChecksum : String) : (Json.obj (loosePayload schemaChecksum)).Plain := by
  simp [loosePayload, Plain, Json.PlainMembers, Json.PlainItems, texts]

theorem not_typed_loose (schemaChecksum : String) : ¬ Typed payloadField (.obj (loosePayload schemaChecksum)) := by
  simp [loosePayload, Typed, TypedMembers, TypedItems, texts, payloadField, isNumber]

/-- It is accepted with the checksum of the built candidate, which is not its own. -/
theorem payload_codec_loose : ∃ candidate, buildOrders none = .ok candidate ∧
    schemaSnapshotCandidateFromPayload plainPayloadReader id (loosePayload candidate.schemaChecksum) candidate.checksum = .ok candidate ∧
    ¬ CodecLaw plainPayloadReader id (loosePayload candidate.schemaChecksum) candidate.checksum candidate := by
  obtain ⟨schemaChecksum, checksum, horders⟩ := exists_buildOrders
  have hsealed := (built_of_buildOrders horders).sealed
  refine ⟨_, horders, fromPayload_eq_ok.mpr ⟨candidateFromPayload_loose schemaChecksum checksum, pyEq_loose schemaChecksum checksum,
    hsealed.checksum, hsealed.schemaChecksum⟩, fun hlaw => not_typed_loose schemaChecksum ?_⟩
  obtain ⟨hplain, htyped⟩ := fit_toPayload (ordersCandidate schemaChecksum checksum)
  have htext := eq_of_canonicalDigest hlaw.canonical hsealed.checksum
  exact typed_of_text (plain_loose schemaChecksum).tidy hplain.tidy htyped htext

end Nl2Sql.Snapshot
