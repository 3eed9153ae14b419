import Nl2Sql.Artifact.Repository
import Nl2Sql.Lib.Lists
import Nl2Sql.Lib.Sessions
import Nl2Sql.Lib.TextSplit
import Nl2Sql.Theorems.Stored

/-!
# Where the artifact repositories are interchangeable

The in-memory repository and the table go through the same calls. As long as each call is one that both serve, the table holds the row of each
record, in the same order. They part where a text holds a NUL or a payload an integer without a text, where a replacement names an id or an
owner that no envelope has, and where an owner lists more than one artifact: the table lists the newest first.
-/

namespace Nl2Sql.Artifacts

open Py Json StoredAux

variable {sha256 : String → Sha256} {jsonb : Json → Json}

/-! ## Rows -/

theorem AnalysisArtifact.ofJson?_of_stored {artifact : AnalysisArtifact} {j : Json} (h : Stored (ArtifactPayload.analysis artifact).toJson j) :
    AnalysisArtifact.ofJson? j = some artifact := by
  obtain ⟨members, hfields, rfl, hmember⟩ := fields?_of_stored h (by simp)
  obtain ⟨_, htitle, hs⟩ := hmember "title" _ rfl
  obtain rfl := hs.text?
  obtain ⟨_, hsummary, hs⟩ := hmember "summary" _ rfl
  obtain rfl := hs.text?
  obtain ⟨_, hnoncanonical, hs⟩ := hmember "noncanonical" _ rfl
  obtain rfl := hs.bool_inv
  change fields? ["title", "summary", "noncanonical"] _ = _ at hfields
  simp only [AnalysisArtifact.ofJson?, hfields, htitle, hsummary, hnoncanonical, readBounded_val, Option.bind_eq_bind, Option.bind_some,
    Option.pure_def]

theorem CustomDefinitionArtifact.ofJson?_of_stored {artifact : CustomDefinitionArtifact} {j : Json}
    (h : Stored (ArtifactPayload.customDefinition artifact).toJson j) : CustomDefinitionArtifact.ofJson? j = some artifact := by
  obtain ⟨members, hfields, rfl, hmember⟩ := fields?_of_stored h (by simp)
  obtain ⟨_, hid, hs⟩ := hmember "definition_id" _ rfl
  obtain rfl := hs.text?
  obtain ⟨_, hversion, hs⟩ := hmember "definition_version" _ rfl
  obtain rfl := hs.int_inv
  obtain ⟨_, hchecksum, hs⟩ := hmember "definition_checksum" _ rfl
  obtain rfl := hs.text?
  have hread : readVersion (.int artifact.definitionVersion.val) = some artifact.definitionVersion := by
    have hpos : (1 : Int) ≤ artifact.definitionVersion.val := by exact_mod_cast artifact.definitionVersion.property
    simp only [readVersion, dif_pos hpos, Int.toNat_natCast]
  change fields? ["definition_id", "definition_version", "definition_checksum"] _ = _ at hfields
  simp only [CustomDefinitionArtifact.ofJson?, hfields, hid, hversion, hchecksum, hread, readBounded_val, readPattern_val,
    Option.bind_eq_bind, Option.bind_some, Option.pure_def]

/-- What is known of a record that a repository made. -/
structure Kept (record : ArtifactEnvelope) : Prop where
  type : record.artifactType = record.payload.type
  owner : isBlank record.ownerUserId.val = false
  order : record.createdAt ≤ record.updatedAt

/-- The row of a record, with the checksum of its payload. -/
def keptRow (sha256 : String → Sha256) (jsonb : Json → Json) (record : ArtifactEnvelope) : ArtifactRow :=
  rowOf jsonb record (sha256 record.payload.toJson.dumps)

theorem readPayload_keptRow (hjsonb : ∀ v, Stored v (jsonb v)) {record : ArtifactEnvelope} (htype : record.artifactType = record.payload.type) :
    readPayload (keptRow sha256 jsonb record) = some (record.artifactType, record.payload) := by
  have hpayload : (keptRow sha256 jsonb record).payload = jsonb record.payload.toJson := rfl
  have htext : (keptRow sha256 jsonb record).artifactType = record.payload.type.text := congrArg ArtifactType.text htype
  rw [readPayload, htext, hpayload, htype]
  cases record.payload with
  | analysis artifact =>
    rw [if_pos (by rfl), AnalysisArtifact.ofJson?_of_stored (hjsonb _)]
    rfl
  | customDefinition artifact =>
    rw [if_neg (by change ¬ "custom_definition" = "analysis"; decide), if_pos (by rfl), CustomDefinitionArtifact.ofJson?_of_stored (hjsonb _)]
    rfl

theorem bounded?_eq_some {low high : Nat} {s : String} {t : BoundedText low high} : bounded? low high s = some t ↔ t.val = s := by
  unfold bounded?
  constructor
  · intro h
    split at h
    · cases h
      rfl
    · nomatch h
  · rintro rfl
    exact dif_pos t.property

theorem provenance?_eq_some {s : Option String} {t : Option (BoundedText 0 128)} : provenance? s = some t ↔ t.map (·.val) = s := by
  cases s with
  | none => cases t <;> simp [provenance?]
  | some s =>
    rw [provenance?, Option.map_eq_some_iff, Option.map_eq_some_iff]
    exact ⟨fun ⟨a, ha, heq⟩ => ⟨a, heq.symm, bounded?_eq_some.mp ha⟩, fun ⟨a, heq, ha⟩ => ⟨a, bounded?_eq_some.mpr ha, heq.symm⟩⟩

/-- An envelope is accepted as the one with the given parts. -/
theorem ArtifactEnvelope.of?_eq_some {artifactId : String} {artifactType : ArtifactType} {ownerUserId : String} {threadId runId : Option String}
    {createdAt updatedAt : Int} {payload : ArtifactPayload} {record : ArtifactEnvelope} :
    ArtifactEnvelope.of? artifactId artifactType ownerUserId threadId runId createdAt updatedAt payload = some record ↔
      record.artifactId.val = artifactId ∧ record.artifactType = artifactType ∧ record.ownerUserId.val = ownerUserId ∧
        record.threadId.map (·.val) = threadId ∧ record.runId.map (·.val) = runId ∧ record.createdAt = createdAt ∧
        record.updatedAt = updatedAt ∧ record.payload = payload := by
  constructor
  · intro h
    obtain ⟨owner, howner, h⟩ := Option.bind_eq_some_iff.mp h
    obtain ⟨thread, hthread, h⟩ := Option.bind_eq_some_iff.mp h
    obtain ⟨run, hrun, h⟩ := Option.bind_eq_some_iff.mp h
    by_cases hid : isArtifactId artifactId = true
    · rw [dif_pos hid] at h
      cases h
      exact ⟨rfl, rfl, bounded?_eq_some.mp howner, provenance?_eq_some.mp hthread, provenance?_eq_some.mp hrun, rfl, rfl, rfl⟩
    · rw [dif_neg hid] at h
      nomatch h
  · rintro ⟨rfl, rfl, rfl, rfl, rfl, rfl, rfl, rfl⟩
    rw [ArtifactEnvelope.of?, bounded?_eq_some.mpr rfl, provenance?_eq_some.mpr rfl, provenance?_eq_some.mpr rfl]
    exact dif_pos record.artifactId.property

/-- The parts of an envelope make it again. -/
theorem ArtifactEnvelope.of?_parts (record : ArtifactEnvelope) : ArtifactEnvelope.of? record.artifactId.val record.artifactType
    record.ownerUserId.val (record.threadId.map (·.val)) (record.runId.map (·.val)) record.createdAt record.updatedAt record.payload =
      some record := of?_eq_some.mpr ⟨rfl, rfl, rfl, rfl, rfl, rfl, rfl, rfl⟩

/-- The row of a record is read back as the record. -/
theorem envelopeFromRow_keptRow (hjsonb : ∀ v, Stored v (jsonb v)) {record : ArtifactEnvelope} (htype : record.artifactType = record.payload.type)
    (hwritable : record.payload.toJson.writable = true) : envelopeFromRow sha256 (keptRow sha256 jsonb record) = .ok record := by
  rw [envelopeFromRow, readPayload_keptRow hjsonb htype]
  simp only [keptRow, rowOf, record.of?_parts, payloadChecksum, if_pos hwritable]
  exact if_neg (not_not.mpr rfl)

/-- The row of a record that a repository made meets the constraints. -/
theorem allowed_keptRow {record : ArtifactEnvelope} (h : Kept record) : (keptRow sha256 jsonb record).allowed = true := by
  have htype : record.artifactType.text = "analysis" ∨ record.artifactType.text = "custom_definition" := by
    cases record.artifactType with
    | analysis => exact .inl rfl
    | customDefinition => exact .inr rfl
  have howner : record.ownerUserId.val.toList.all (· == ' ') = false := by
    obtain ⟨c, hc, hspace⟩ := isBlank_eq_false_iff.mp h.owner
    refine List.all_eq_false.mpr ⟨c, hc, fun heq => ?_⟩
    rw [beq_iff_eq.mp heq] at hspace
    exact absurd hspace (by decide)
  simp only [ArtifactRow.allowed, keptRow, rowOf, howner, Bool.not_false, Bool.and_true, Bool.and_eq_true]
  exact ⟨⟨⟨⟨record.artifactId.property, decide_eq_true htype⟩, decide_eq_true record.ownerUserId.property.2⟩, (sha256 _).property⟩,
    decide_eq_true h.order⟩

/-! ## The records and their rows -/

/-- An entry of the table keeps an entry of the records. -/
structure KeepsEntry (sha256 : String → Sha256) (jsonb : Json → Json) (e : String × ArtifactEnvelope) (r : String × ArtifactRow) : Prop where
  key : e.1 = r.1
  id : e.1 = e.2.artifactId.val
  row : r.2 = keptRow sha256 jsonb e.2
  record : Kept e.2
  writable : e.2.payload.toJson.writable = true

/-- The table keeps the records, in their order. -/
def Keeps (sha256 : String → Sha256) (jsonb : Json → Json) (records : Records) (table : ArtifactTable) : Prop :=
  List.Forall₂ (KeepsEntry sha256 jsonb) records.entries table.entries

namespace Keeps

variable {records : Records} {table : ArtifactTable}

section

variable (h : Keeps sha256 jsonb records table)
include h

/-- A record and its row are found together. -/
theorem get? (id : String) : (records.get? id = none ∧ table.get? id = none) ∨
    ∃ record, records.get? id = some record ∧ table.get? id = some (keptRow sha256 jsonb record) ∧
      KeepsEntry sha256 jsonb (id, record) (id, keptRow sha256 jsonb record) := by
  rcases Dict.getEntries_of_forall₂ (fun _ _ hentry => hentry.key) h id with hnone | ⟨record, row, hrecord, hrow, hentry⟩
  · exact .inl hnone
  · obtain rfl : row = keptRow sha256 jsonb record := hentry.row
    exact .inr ⟨record, hrecord, hrow, hentry⟩

theorem keys : records.keys = table.keys := Dict.map_fst_of_forall₂ (fun _ _ hentry => hentry.key) h

theorem values : table.values = records.values.map (keptRow sha256 jsonb) := by
  have hentries {es rs} (h : List.Forall₂ (KeepsEntry sha256 jsonb) es rs) :
      rs.map Prod.snd = (es.map Prod.snd).map (keptRow sha256 jsonb) := by
    induction h with
    | nil => rfl
    | cons hentry _ ih => rw [List.map_cons, List.map_cons, List.map_cons, hentry.row, ih]
  exact hentries h

theorem of_mem_values {record : ArtifactEnvelope} (hrecord : record ∈ records.values) :
    Kept record ∧ record.payload.toJson.writable = true := by
  obtain ⟨id, hget⟩ := Dict.mem_values_iff.mp hrecord
  rcases h.get? id with ⟨hnone, _⟩ | ⟨record', hget', _, hentry⟩
  · rw [hnone] at hget
    nomatch hget
  · obtain rfl := Option.some.inj (hget.symm.trans hget')
    exact ⟨hentry.record, hentry.writable⟩

/-- The table keeps a record that is set with its row. -/
theorem set {record : ArtifactEnvelope} (hrecord : Kept record) (hwritable : record.payload.toJson.writable = true) :
    Keeps sha256 jsonb (records.set record.artifactId.val record) (table.set record.artifactId.val (keptRow sha256 jsonb record)) :=
  Dict.forall₂_setEntries (fun _ _ hentry => hentry.key) (fun _ _ hentry _ => hentry) ⟨rfl, rfl, rfl, hrecord, hwritable⟩ records.nodup h

/-- What the table holds is what the records hold. -/
theorem held (hjsonb : ∀ v, Stored v (jsonb v)) (id : String) :
    (table.get? id).map (envelopeFromRow sha256) = (records.get? id).map .ok := by
  rcases h.get? id with ⟨hnone, hnone'⟩ | ⟨record, hrecord, hrow, hentry⟩
  · rw [hnone, hnone']
    rfl
  · rw [hrecord, hrow, Option.map_some, Option.map_some, envelopeFromRow_keptRow hjsonb hentry.record.type hentry.writable]

end

end Keeps

/-! ## Ids and times to come -/

/-- The id that a call draws. -/
def ArtifactCall.newId? : ArtifactCall → Option ArtifactId
  | .create newId .. => some newId
  | _ => none

/-- The time that a call draws. -/
def ArtifactCall.now? : ArtifactCall → Option Int
  | .create _ now .. => some now
  | .replacePayload now .. => some now
  | _ => none

/-- The ids of the calls to come are new and their times are later, and the records were created one after another. -/
structure Ahead (records : Records) (calls : List ArtifactCall) : Prop where
  ids : (calls.filterMap ArtifactCall.newId?).Nodup
  fresh : ∀ id ∈ calls.filterMap ArtifactCall.newId?, id.val ∉ records.keys
  times : (calls.filterMap ArtifactCall.now?).Pairwise (· < ·)
  later : ∀ record ∈ records.values, ∀ now ∈ calls.filterMap ArtifactCall.now?, record.createdAt < now ∧ record.updatedAt < now
  order : (records.values.map (·.createdAt)).Pairwise (· < ·)

/-- What a call does to the records: nothing, or it sets a new record, or it sets a record again with another payload. -/
theorem Records.step_cases (records : Records) (call : ArtifactCall) :
    (records.step call).2 = records ∨
    (∃ record : ArtifactEnvelope, call.newId? = some record.artifactId ∧ call.now? = some record.createdAt ∧
      record.updatedAt = record.createdAt ∧ (records.step call).2 = records.set record.artifactId.val record) ∨
    ∃ id now payload record, call.newId? = none ∧ call.now? = some now ∧ records.get? id = some record ∧
      (records.step call).2 = records.set id { record with payload, updatedAt := now } := by
  cases call with
  | get ownerUserId artifactId => exact .inl rfl
  | listForOwner ownerUserId => exact .inl rfl
  | create newId now ownerUserId payload threadId runId =>
    simp only [Records.step, Records.create]
    by_cases hblank : isBlank ownerUserId = true
    · exact .inl (by rw [if_pos hblank])
    · rw [if_neg hblank]
      cases hrecord : ArtifactEnvelope.of? newId.val payload.type ownerUserId threadId runId now now payload with
      | none => exact .inl rfl
      | some record =>
        obtain ⟨hid, -, -, -, -, rfl, hupdated, -⟩ := ArtifactEnvelope.of?_eq_some.mp hrecord
        exact .inr (.inl ⟨record, congrArg some (Subtype.ext hid.symm), rfl, hupdated, rfl⟩)
  | replacePayload now ownerUserId artifactId payload =>
    simp only [Records.step, Records.replacePayload, Records.get]
    cases hget : records.get? artifactId with
    | none => exact .inl rfl
    | some record =>
      by_cases howner : record.ownerUserId.val ≠ ownerUserId
      · exact .inl (by simp only [if_pos howner])
      · simp only [if_neg howner]
        by_cases htype : payload.type ≠ record.artifactType
        · exact .inl (by rw [if_pos htype])
        · rw [if_neg htype]
          exact .inr (.inr ⟨artifactId, now, payload, record, rfl, rfl, hget, rfl⟩)

/-- What a call draws stands before what is drawn later. -/
theorem mem_filterMap_cons {α : Type} {f : ArtifactCall → Option α} {call : ArtifactCall} {rest : List ArtifactCall} {a : α}
    (h : a ∈ rest.filterMap f) : a ∈ (call :: rest).filterMap f := by
  obtain ⟨later, hlater, ha⟩ := List.mem_filterMap.mp h
  exact List.mem_filterMap.mpr ⟨later, List.mem_cons_of_mem call hlater, ha⟩

/-- The records stay behind the calls that are left. -/
theorem Ahead.step {records : Records} {call : ArtifactCall} {rest : List ArtifactCall} (h : Ahead records (call :: rest)) :
    Ahead (records.step call).2 rest := by
  have hids : (rest.filterMap ArtifactCall.newId?).Nodup := h.ids.sublist ((List.sublist_cons_self call rest).filterMap _)
  have htimes : (rest.filterMap ArtifactCall.now?).Pairwise (· < ·) := h.times.sublist ((List.sublist_cons_self call rest).filterMap _)
  have hfresh : ∀ id ∈ rest.filterMap ArtifactCall.newId?, id.val ∉ records.keys := fun id hid => h.fresh id (mem_filterMap_cons hid)
  have hlater : ∀ record ∈ records.values, ∀ now ∈ rest.filterMap ArtifactCall.now?, record.createdAt < now ∧ record.updatedAt < now :=
    fun record hrecord now hnow => h.later record hrecord now (mem_filterMap_cons hnow)
  have hnow {now : Int} (hcall : call.now? = some now) : ∀ later ∈ rest.filterMap ArtifactCall.now?, now < later := by
    have htimes := h.times
    rw [List.filterMap_cons_some hcall] at htimes
    exact (List.pairwise_cons.mp htimes).1
  rcases records.step_cases call with hsame | ⟨record, hid, htime, hupdated, hset⟩ | ⟨id, now, payload, record, hid, htime, hget, hset⟩
  · rw [hsame]
    exact ⟨hids, hfresh, htimes, hlater, h.order⟩
  · have hnew : record.artifactId.val ∉ records.keys :=
      h.fresh record.artifactId (List.mem_filterMap.mpr ⟨call, List.mem_cons_self, hid⟩)
    have hfirst := h.ids
    rw [List.filterMap_cons_some hid] at hfirst
    rw [hset]
    refine ⟨hids, fun id hmem => ?_, htimes, ?_, ?_⟩
    · rw [Dict.keys_set, if_neg hnew, List.mem_append, List.mem_singleton, not_or]
      exact ⟨hfresh id hmem, fun heq => (List.nodup_cons.mp hfirst).1 (Subtype.ext heq ▸ hmem)⟩
    · refine Dict.forall_values_set hlater fun later hmem => ?_
      rw [hupdated]
      exact ⟨hnow htime later hmem, hnow htime later hmem⟩
    · have hvalues : (records.set record.artifactId.val record).values = records.values ++ [record] := by
        rw [Dict.values, Dict.entries_set_of_not_mem _ _ hnew, List.map_append]
        rfl
      rw [hvalues, List.map_append, List.pairwise_append]
      refine ⟨h.order, List.pairwise_singleton _ _, fun created hcreated last hlast => ?_⟩
      obtain ⟨older, holder, rfl⟩ := List.mem_map.mp hcreated
      rw [List.map_singleton, List.mem_singleton] at hlast
      rw [hlast]
      exact (h.later older holder _ (List.mem_filterMap.mpr ⟨call, List.mem_cons_self, htime⟩)).1
  · have hmem : record ∈ records.values := Dict.mem_values_iff.mpr ⟨id, hget⟩
    have hkey : id ∈ records.keys := Dict.get?_isSome_iff.mp (by rw [hget]; rfl)
    rw [hset]
    refine ⟨hids, fun id' hid' => ?_, htimes, ?_, ?_⟩
    · rw [Dict.keys_set, if_pos hkey]
      exact hfresh id' hid'
    · exact Dict.forall_values_set hlater fun later hlater' => ⟨(hlater record hmem later hlater').1, hnow htime later hlater'⟩
    · have hvalues : (records.set id { record with payload, updatedAt := now }).values.map (·.createdAt) = records.values.map (·.createdAt) :=
        Dict.map_values_set_of_get? _ hget rfl
      rw [hvalues]
      exact h.order

/-! ## What both serve -/

/-- The owner and the provenance that a new artifact may have. -/
def Acceptable (ownerUserId : String) (threadId runId : Option String) : Prop :=
  isBlank ownerUserId = false ∧ ownerUserId.length ≤ 256 ∧ (∀ s ∈ threadId, s.length ≤ 128) ∧ ∀ s ∈ runId, s.length ≤ 128

/-- A payload that a row can keep: its integers have a text, and its texts hold no NUL. -/
def Storable (payload : ArtifactPayload) : Prop := payload.toJson.writable = true ∧ storableJson payload.toJson = true

/-- A call that both repositories serve alike: nothing it sends holds a NUL or an integer without a text, a replacement names what an envelope
may have as its id and owner, and an owner who lists has at most one artifact. -/
def BothServe (records : Records) : ArtifactCall → Prop
  | .create _ _ ownerUserId payload threadId runId => Acceptable ownerUserId threadId runId →
    Storable payload ∧ storableText ownerUserId = true ∧ (∀ s ∈ threadId, storableText s = true) ∧ ∀ s ∈ runId, storableText s = true
  | .get _ artifactId => storableText artifactId = true
  | .listForOwner ownerUserId => storableText ownerUserId = true ∧ records.values.countP (fun record => record.ownerUserId.val = ownerUserId) ≤ 1
  | .replacePayload _ ownerUserId artifactId payload =>
    isArtifactId artifactId = true ∧ (1 ≤ ownerUserId.length ∧ ownerUserId.length ≤ 256) ∧ Storable payload ∧ storableText ownerUserId = true

/-- An envelope is accepted for an owner and a provenance that a new artifact may have, and for no other that is not blank. -/
theorem exists_of?_iff {newId : ArtifactId} {ownerUserId : String} {threadId runId : Option String} (now : Int) (payload : ArtifactPayload)
    (hblank : isBlank ownerUserId = false) :
    (∃ record, ArtifactEnvelope.of? newId.val payload.type ownerUserId threadId runId now now payload = some record) ↔
      Acceptable ownerUserId threadId runId := by
  have hprovenance {s : Option String} : (∃ t : Option (BoundedText 0 128), t.map (·.val) = s) ↔ ∀ t ∈ s, t.length ≤ 128 := by
    constructor
    · rintro ⟨t, rfl⟩ s hs
      obtain ⟨t, -, rfl⟩ := Option.map_eq_some_iff.mp hs
      exact t.property.2
    · intro h
      cases s with
      | none => exact ⟨none, rfl⟩
      | some s => exact ⟨some ⟨s, Nat.zero_le _, h s rfl⟩, rfl⟩
  constructor
  · rintro ⟨record, hrecord⟩
    obtain ⟨-, -, rfl, hthread, hrun, -⟩ := ArtifactEnvelope.of?_eq_some.mp hrecord
    exact ⟨hblank, record.ownerUserId.property.2, hprovenance.mp ⟨_, hthread⟩, hprovenance.mp ⟨_, hrun⟩⟩
  · rintro ⟨-, howner, hthread, hrun⟩
    have hpos : 1 ≤ ownerUserId.length := by
      obtain ⟨c, hc, -⟩ := isBlank_eq_false_iff.mp hblank
      rw [← String.length_toList]
      exact List.length_pos_of_mem hc
    obtain ⟨thread, hthread⟩ := hprovenance.mpr hthread
    obtain ⟨run, hrun⟩ := hprovenance.mpr hrun
    exact ⟨⟨newId, payload.type, ⟨ownerUserId, hpos, howner⟩, thread, run, now, now, payload⟩,
      ArtifactEnvelope.of?_eq_some.mpr ⟨rfl, rfl, rfl, hthread, hrun, rfl, rfl, rfl⟩⟩

/-! ## Each call -/

section Calls

variable {records : Records} {table : ArtifactTable}

/-- What the columns of a new row can hold. -/
def StorableParts (record : ArtifactEnvelope) : Prop :=
  storableText record.ownerUserId.val = true ∧ (∀ s ∈ record.threadId.map (·.val), storableText s = true) ∧
    (∀ s ∈ record.runId.map (·.val), storableText s = true) ∧ storableJson record.payload.toJson = true

theorem storableParts_iff {record : ArtifactEnvelope} : (storableText record.ownerUserId.val && (record.threadId.map (·.val)).all storableText &&
    (record.runId.map (·.val)).all storableText && storableJson record.payload.toJson) = true ↔ StorableParts record := by
  rw [Bool.and_eq_true, Bool.and_eq_true, Bool.and_eq_true, Option.all_eq_true, Option.all_eq_true, and_assoc, and_assoc]
  rfl

/-- A new record that can be stored gets its row. -/
theorem insert_eq_ok {record : ArtifactEnvelope} (hparts : StorableParts record) (hrecord : Kept record)
    (hfresh : record.artifactId.val ∉ table) : ArtifactTable.insert jsonb table record (sha256 record.payload.toJson.dumps) =
      .ok (table.set record.artifactId.val (keptRow sha256 jsonb record)) := by
  have hallowed : (keptRow sha256 jsonb record).allowed = true := allowed_keptRow hrecord
  refine (if_neg ?_).trans ((if_neg hfresh).trans (if_neg ?_))
  · rw [Bool.not_eq_true', Bool.not_eq_false]
    exact storableParts_iff.mpr hparts
  · rw [Bool.not_eq_true', Bool.not_eq_false]
    exact hallowed

/-- A record that cannot be stored is refused. -/
theorem insert_eq_error {record : ArtifactEnvelope} (hparts : ¬ StorableParts record) (checksum : Sha256) :
    ArtifactTable.insert jsonb table record checksum = .error .database := by
  refine if_pos ?_
  rw [Bool.not_eq_true', Bool.eq_false_iff]
  exact fun h => hparts (storableParts_iff.mp h)

theorem create_differs {newId : ArtifactId} {now : Int} {ownerUserId : String} {payload : ArtifactPayload} {threadId runId : Option String}
    (hserve : ¬ BothServe records (.create newId now ownerUserId payload threadId runId)) :
    (records.create newId now ownerUserId payload threadId runId).1 ≠
      (ArtifactTable.create sha256 jsonb table newId now ownerUserId payload threadId runId).1 := by
  obtain ⟨hacceptable, hserve⟩ := Classical.not_imp.mp hserve
  have hblank := hacceptable.1
  have hrecord : ∃ record, ArtifactEnvelope.of? newId.val payload.type ownerUserId threadId runId now now payload = some record :=
    (exists_of?_iff now payload hblank).mpr hacceptable
  obtain ⟨record, hrecord⟩ := hrecord
  unfold Records.create ArtifactTable.create
  rw [hblank, if_neg (by decide), if_neg (by decide)]
  obtain ⟨-, -, rfl, rfl, rfl, -, -, rfl⟩ := ArtifactEnvelope.of?_eq_some.mp hrecord
  simp only [hrecord, payloadChecksum]
  by_cases hwritable : record.payload.toJson.writable = true
  · have hparts : ¬ StorableParts record := fun ⟨howner, hthread, hrun, hpayload⟩ => hserve ⟨⟨hwritable, hpayload⟩, howner, hthread, hrun⟩
    simp only [if_pos hwritable, insert_eq_error hparts]
    nofun
  · simp only [if_neg hwritable]
    nofun

/-- The records answer with a record or without one. -/
theorem get_cases (records : Records) (ownerUserId artifactId : String) :
    records.get ownerUserId artifactId = .error .notFound ∨ ∃ record, records.get ownerUserId artifactId = .ok record := by
  unfold Records.get
  cases records.get? artifactId with
  | none => exact .inl rfl
  | some record =>
    by_cases howner : record.ownerUserId.val ≠ ownerUserId
    · exact .inl (if_pos howner)
    · exact .inr ⟨record, if_neg howner⟩

section

variable (h : Keeps sha256 jsonb records table)
include h

theorem create_agrees {newId : ArtifactId} {now : Int} {ownerUserId : String} {payload : ArtifactPayload}
    {threadId runId : Option String} (hfresh : newId.val ∉ records.keys)
    (hserve : BothServe records (.create newId now ownerUserId payload threadId runId)) :
    (records.create newId now ownerUserId payload threadId runId).1 =
        (ArtifactTable.create sha256 jsonb table newId now ownerUserId payload threadId runId).1 ∧
      Keeps sha256 jsonb (records.create newId now ownerUserId payload threadId runId).2
        (ArtifactTable.create sha256 jsonb table newId now ownerUserId payload threadId runId).2 := by
  unfold Records.create ArtifactTable.create
  cases hblank : isBlank ownerUserId with
  | true => exact ⟨rfl, h⟩
  | false =>
    rw [if_neg (by decide), if_neg (by decide)]
    cases hrecord : ArtifactEnvelope.of? newId.val payload.type ownerUserId threadId runId now now payload with
    | none => exact ⟨rfl, h⟩
    | some record =>
      obtain ⟨hstorable, howner, hthread, hrun⟩ := hserve ((exists_of?_iff now payload hblank).mp ⟨record, hrecord⟩)
      obtain ⟨hid, htype, rfl, rfl, rfl, hcreated, hupdated, rfl⟩ := ArtifactEnvelope.of?_eq_some.mp hrecord
      have hkept : Kept record := ⟨htype, hblank, by rw [hcreated, hupdated]⟩
      have hnew : record.artifactId.val ∉ table := by
        rw [Dict.mem_iff_mem_keys, ← h.keys, hid]
        exact hfresh
      simp only [payloadChecksum, if_pos hstorable.1, insert_eq_ok ⟨howner, hthread, hrun, hstorable.2⟩ hkept hnew]
      exact ⟨trivial, h.set hkept hstorable.1⟩

theorem get_agrees (hjsonb : ∀ v, Stored v (jsonb v)) {ownerUserId artifactId : String} :
    records.get ownerUserId artifactId = ArtifactTable.get sha256 table ownerUserId artifactId ↔ storableText artifactId = true := by
  unfold ArtifactTable.get
  cases hstorable : storableText artifactId with
  | false =>
    refine iff_of_false ?_ (by decide)
    rw [Bool.not_false, if_pos rfl]
    rcases get_cases records ownerUserId artifactId with hget | ⟨record, hget⟩
    · rw [hget]
      nofun
    · rw [hget]
      nofun
  | true =>
    refine iff_of_true ?_ rfl
    rw [Bool.not_true, if_neg (by decide), Records.get]
    rcases h.get? artifactId with ⟨hnone, hnone'⟩ | ⟨record, hrecord, hrow, hentry⟩
    · rw [hnone, hnone']
    · rw [hrecord, hrow]
      by_cases howner : record.ownerUserId.val ≠ ownerUserId
      · exact (if_pos howner).trans (if_pos (c := (keptRow sha256 jsonb record).ownerUserId ≠ ownerUserId) howner).symm
      · have hread : envelopeFromRow sha256 (keptRow sha256 jsonb record) = .ok record :=
          envelopeFromRow_keptRow hjsonb hentry.record.type hentry.writable
        simp only [if_neg howner]
        exact ((if_neg (c := (keptRow sha256 jsonb record).ownerUserId ≠ ownerUserId) howner).trans hread).symm

/-- The table lists an owner's artifacts in the order that is the reverse of the records': the newest first. -/
theorem listForOwner_eq_reverse (hjsonb : ∀ v, Stored v (jsonb v))
    (horder : (records.values.map (·.createdAt)).Pairwise (· < ·)) {ownerUserId : String} (hstorable : storableText ownerUserId = true) :
    ArtifactTable.listForOwner sha256 table ownerUserId = .ok (records.listForOwner ownerUserId).reverse := by
  have hrows : (table.values.filter fun row => row.ownerUserId = ownerUserId) =
      (records.listForOwner ownerUserId).map (keptRow sha256 jsonb) := by
    rw [h.values, List.filter_map]
    rfl
  have hcreated : (records.listForOwner ownerUserId).Pairwise fun a b => a.createdAt < b.createdAt :=
    (List.pairwise_map.mp horder).filter _
  have hsort : sortBy ArtifactTable.listingOrder ((records.listForOwner ownerUserId).map (keptRow sha256 jsonb)) =
      (records.listForOwner ownerUserId).reverse.map (keptRow sha256 jsonb) := by
    rw [List.map_reverse]
    refine sortBy_eq_reverse (List.pairwise_map.mpr (hcreated.imp fun {a b} hab => ?_))
    exact (Prod.Lex.toLex_lt_toLex).mpr (.inl (neg_lt_neg hab))
  have hread : ∀ listed : List ArtifactEnvelope, (∀ record ∈ listed, record ∈ records.values) →
      (listed.map (keptRow sha256 jsonb)).mapM (envelopeFromRow sha256) = .ok listed := by
    intro listed hlisted
    induction listed with
    | nil => rfl
    | cons record listed ih =>
      obtain ⟨hkept, hwritable⟩ := h.of_mem_values (hlisted record List.mem_cons_self)
      rw [List.map_cons, List.mapM_cons, envelopeFromRow_keptRow hjsonb hkept.type hwritable,
        ih fun r hr => hlisted r (List.mem_cons_of_mem record hr)]
      rfl
  unfold ArtifactTable.listForOwner
  rw [hstorable, Bool.not_true, if_neg (by decide), hrows, hsort]
  exact hread _ fun record hrecord => (List.mem_filter.mp (List.mem_reverse.mp hrecord)).1

theorem listForOwner_agrees (hjsonb : ∀ v, Stored v (jsonb v))
    (horder : (records.values.map (·.createdAt)).Pairwise (· < ·)) {ownerUserId : String} :
    .ok (records.listForOwner ownerUserId) = ArtifactTable.listForOwner sha256 table ownerUserId ↔ BothServe records (.listForOwner ownerUserId) := by
  have hcreated : (records.listForOwner ownerUserId).Pairwise fun a b => a.createdAt < b.createdAt :=
    (List.pairwise_map.mp horder).filter _
  rw [BothServe, List.countP_eq_length_filter]
  cases hstorable : storableText ownerUserId with
  | false =>
    refine iff_of_false ?_ fun hserve => by cases hserve.1
    rw [ArtifactTable.listForOwner, hstorable, Bool.not_false, if_pos rfl]
    rintro ⟨⟩
  | true =>
    rw [listForOwner_eq_reverse h hjsonb horder hstorable, Except.ok.injEq]
    exact (eq_reverse_iff hcreated fun hab hba => (hab.trans hba).false).trans (and_iff_right rfl).symm

end

/-- The text of an id holds no NUL. -/
theorem storableText_of_isArtifactId {id : String} (h : isArtifactId id = true) : storableText id = true := by
  simp only [isArtifactId, Bool.and_eq_true, beq_iff_eq, List.all_eq_true] at h
  obtain ⟨⟨hhead, htail⟩, -⟩ := h
  refine List.all_eq_true.mpr fun c hc => ?_
  rw [decide_eq_true_eq]
  rintro rfl
  rw [← List.take_append_drop 4 id.toList, List.mem_append, hhead] at hc
  rcases hc with hc | hc
  · exact absurd hc (by decide)
  · exact absurd (htail _ hc) (by decide)

theorem type_text_inj {a b : ArtifactType} : a.text = b.text ↔ a = b := by
  cases a <;> cases b <;> decide

/-- The answers of a replacement on the records. -/
theorem replacePayload_cases (records : Records) (now : Int) (ownerUserId artifactId : String) (payload : ArtifactPayload) :
    (records.replacePayload now ownerUserId artifactId payload).1 = .error .notFound ∨
    (records.replacePayload now ownerUserId artifactId payload).1 = .error .typeMismatch ∨
    ∃ record, (records.replacePayload now ownerUserId artifactId payload).1 = .ok record := by
  unfold Records.replacePayload
  rcases get_cases records ownerUserId artifactId with hget | ⟨record, hget⟩
  · rw [hget]
    exact .inl rfl
  · rw [hget]
    by_cases htype : payload.type ≠ record.artifactType
    · exact .inr (.inl (by simp only [if_pos htype]))
    · exact .inr (.inr ⟨_, by simp only [if_neg htype]; rfl⟩)

variable {now : Int} {ownerUserId artifactId : String} {payload : ArtifactPayload}

/-- A replacement that the table refuses with an error of its own is answered differently. -/
theorem replacePayload_ne {e : ArtifactError}
    (hnotFound : e ≠ .notFound) (htype : e ≠ .typeMismatch) : (records.replacePayload now ownerUserId artifactId payload).1 ≠ .error e := by
  intro heq
  rcases replacePayload_cases records now ownerUserId artifactId payload with h | h | ⟨record, h⟩
  · exact hnotFound (Except.error.inj (heq.symm.trans h))
  · exact htype (Except.error.inj (heq.symm.trans h))
  · nomatch heq.symm.trans h

/-- The envelope a replacement is checked with is accepted for an id and an owner that an envelope may have. -/
theorem exists_source_iff :
    (∃ source, ArtifactEnvelope.of? artifactId payload.type ownerUserId none none now now payload = some source) ↔
      isArtifactId artifactId = true ∧ 1 ≤ ownerUserId.length ∧ ownerUserId.length ≤ 256 := by
  constructor
  · rintro ⟨source, hsource⟩
    obtain ⟨rfl, -, rfl, -⟩ := ArtifactEnvelope.of?_eq_some.mp hsource
    exact ⟨source.artifactId.property, source.ownerUserId.property⟩
  · rintro ⟨hid, howner⟩
    exact ⟨⟨⟨artifactId, hid⟩, payload.type, ⟨ownerUserId, howner⟩, none, none, now, now, payload⟩,
      ArtifactEnvelope.of?_eq_some.mpr ⟨rfl, rfl, rfl, rfl, rfl, rfl, rfl, rfl⟩⟩

theorem replacePayload_differs (hserve : ¬ BothServe records (.replacePayload now ownerUserId artifactId payload)) :
    (records.replacePayload now ownerUserId artifactId payload).1 ≠
      (ArtifactTable.replacePayload sha256 jsonb table now ownerUserId artifactId payload).1 := by
  unfold ArtifactTable.replacePayload
  cases hsource : ArtifactEnvelope.of? artifactId payload.type ownerUserId none none now now payload with
  | none => exact replacePayload_ne (by rintro ⟨⟩) (by rintro ⟨⟩)
  | some source =>
    obtain ⟨hid, howner⟩ := exists_source_iff.mp ⟨source, hsource⟩
    obtain ⟨-, -, -, -, -, -, -, rfl⟩ := ArtifactEnvelope.of?_eq_some.mp hsource
    by_cases hwritable : source.payload.toJson.writable = true
    · have hstorable : (storableText ownerUserId && storableText artifactId && storableJson source.payload.toJson) = false := by
        rw [Bool.eq_false_iff, ne_eq, Bool.and_eq_true, Bool.and_eq_true]
        rintro ⟨⟨htext, _⟩, hpayload⟩
        exact hserve ⟨hid, howner, ⟨hwritable, hpayload⟩, htext⟩
      simp only [payloadChecksum, if_pos hwritable, ArtifactTable.update, hstorable, Bool.not_false, if_true]
      exact replacePayload_ne (by rintro ⟨⟩) (by rintro ⟨⟩)
    · simp only [payloadChecksum, if_neg hwritable]
      exact replacePayload_ne (by rintro ⟨⟩) (by rintro ⟨⟩)

/-- What the guarded UPDATE does to the row of a record: it writes the row of the record with the new payload, or nothing. -/
theorem update_keptRow {record : ArtifactEnvelope}
    (hcolumns : (storableText ownerUserId && storableText artifactId && storableJson payload.toJson) = true)
    (hrow : table.get? artifactId = some (keptRow sha256 jsonb record)) (hrecord : Kept record)
    (hlater : record.createdAt < now ∧ record.updatedAt < now) :
    ArtifactTable.update jsonb table now ownerUserId artifactId payload (sha256 payload.toJson.dumps) =
      .ok (if record.ownerUserId.val = ownerUserId ∧ record.artifactType = payload.type then
        some (keptRow sha256 jsonb { record with payload, updatedAt := now }) else none) := by
  unfold ArtifactTable.update
  rw [hcolumns, Bool.not_true, if_neg (by decide), hrow]
  have htext : (keptRow sha256 jsonb record).artifactType = payload.type.text ↔ record.artifactType = payload.type := type_text_inj
  by_cases hwrites : record.ownerUserId.val = ownerUserId ∧ record.artifactType = payload.type
  · have hkept : Kept { record with payload, updatedAt := now } := ⟨hwrites.2, hrecord.owner, hlater.1.le⟩
    rw [if_pos hwrites]
    refine (if_pos ⟨hwrites.1, htext.mpr hwrites.2⟩).trans (if_neg ?_)
    rw [not_or, Bool.not_eq_true', Bool.not_eq_false]
    refine ⟨not_lt.mpr hlater.2.le, ?_⟩
    change (keptRow sha256 jsonb { record with payload, updatedAt := now }).allowed = true
    exact allowed_keptRow hkept
  · rw [if_neg hwrites]
    exact if_neg fun h => hwrites ⟨h.1, htext.mp h.2⟩

theorem replacePayload_agrees (h : Keeps sha256 jsonb records table) (hjsonb : ∀ v, Stored v (jsonb v)) {now : Int}
    {ownerUserId artifactId : String} {payload : ArtifactPayload}
    (hlater : ∀ record ∈ records.values, record.createdAt < now ∧ record.updatedAt < now)
    (hserve : BothServe records (.replacePayload now ownerUserId artifactId payload)) :
    (records.replacePayload now ownerUserId artifactId payload).1 =
        (ArtifactTable.replacePayload sha256 jsonb table now ownerUserId artifactId payload).1 ∧
      Keeps sha256 jsonb (records.replacePayload now ownerUserId artifactId payload).2
        (ArtifactTable.replacePayload sha256 jsonb table now ownerUserId artifactId payload).2 := by
  obtain ⟨hid, howner, hstorable, htext⟩ := hserve
  obtain ⟨source, hsource⟩ : ∃ source, ArtifactEnvelope.of? artifactId payload.type ownerUserId none none now now payload = some source :=
    exists_source_iff.mpr ⟨hid, howner⟩
  have hpayload : source.payload = payload := (ArtifactEnvelope.of?_eq_some.mp hsource).2.2.2.2.2.2.2
  have hcolumns : (storableText ownerUserId && storableText artifactId && storableJson payload.toJson) = true := by
    rw [htext, storableText_of_isArtifactId hid, hstorable.2]
    rfl
  simp only [ArtifactTable.replacePayload, hsource, hpayload, payloadChecksum, if_pos hstorable.1]
  unfold Records.replacePayload Records.get
  rcases h.get? artifactId with ⟨hnone, hnone'⟩ | ⟨record, hrecord, hrow, hentry⟩
  · simp only [hnone, ArtifactTable.update, hcolumns, hnone', Bool.not_true, Bool.false_eq_true, if_false, Option.filter_none]
    exact ⟨trivial, h⟩
  · have hlater := hlater record (Dict.mem_values_iff.mpr ⟨artifactId, hrecord⟩)
    rw [update_keptRow hcolumns hrow hentry.record hlater, hrecord, hrow]
    by_cases hmine : record.ownerUserId.val = ownerUserId
    · have hfound : (some (keptRow sha256 jsonb record)).filter (fun row => row.ownerUserId = ownerUserId) = some (keptRow sha256 jsonb record) :=
        Option.filter_some_pos (decide_eq_true hmine)
      by_cases htype : record.artifactType = payload.type
      · have hkept : Kept { record with payload, updatedAt := now } := ⟨htype, hentry.record.owner, hlater.1.le⟩
        have hset := h.set hkept hstorable.1
        rw [← hentry.id] at hset
        have hread : envelopeFromRow sha256 (keptRow sha256 jsonb { record with payload, updatedAt := now }) = .ok _ :=
          envelopeFromRow_keptRow hjsonb hkept.type hstorable.1
        simp only [if_pos (And.intro hmine htype), if_neg (not_not.mpr hmine), if_neg (not_not.mpr htype.symm), hread]
        exact ⟨trivial, hset⟩
      · simp only [hmine, htype, Ne.symm htype, and_false, if_false, ne_eq, not_true, not_false_iff, if_true, hfound]
        exact ⟨trivial, h⟩
    · have hmissing : (some (keptRow sha256 jsonb record)).filter (fun row => row.ownerUserId = ownerUserId) = none :=
        Option.filter_some_neg (decide_eq_false hmine)
      simp only [hmine, false_and, if_false, ne_eq, not_false_iff, if_true, hmissing]
      exact ⟨trivial, h⟩

end Calls

/-! ## Runs -/

section Runs

/-- The artifacts that the table holds, by id. -/
def ArtifactTable.held (sha256 : String → Sha256) (table : ArtifactTable) (id : String) : Option (Except ArtifactError ArtifactEnvelope) :=
  (table.get? id).map (envelopeFromRow sha256)

/-- The repositories answer the same calls alike, and hold the same artifacts afterwards. -/
def Interchangeable (sha256 : String → Sha256) (jsonb : Json → Json) (calls : List ArtifactCall) : Prop :=
  answersOf Records.step Dict.empty calls = answersOf (ArtifactTable.step sha256 jsonb) Dict.empty calls ∧
    ∀ id, (Py.stateAfter (ArtifactTable.step sha256 jsonb) Dict.empty calls).held sha256 id =
      ((Py.stateAfter Records.step Dict.empty calls).get? id).map .ok

/-- The table keeps the records, and the records are behind the calls to come. -/
def InStep (sha256 : String → Sha256) (jsonb : Json → Json) (records : Records) (table : ArtifactTable) (calls : List ArtifactCall) : Prop :=
  Keeps sha256 jsonb records table ∧ Ahead records calls

theorem answerOf_inj {a b : Except ArtifactError ArtifactEnvelope} : answerOf a = answerOf b ↔ a = b := by
  cases a <;> cases b <;> simp [answerOf]

variable {records : Records} {table : ArtifactTable} {call : ArtifactCall} {rest : List ArtifactCall}

theorem InStep.answer (hjsonb : ∀ v, Stored v (jsonb v)) (h : InStep sha256 jsonb records table (call :: rest)) :
    (records.step call).1 = (ArtifactTable.step sha256 jsonb table call).1 ↔ BothServe records call := by
  obtain ⟨hkeeps, hahead⟩ := h
  cases call with
  | create newId now ownerUserId payload threadId runId =>
    have hfresh := hahead.fresh newId (List.mem_filterMap.mpr ⟨_, List.mem_cons_self, rfl⟩)
    simp only [Records.step, ArtifactTable.step]
    exact answerOf_inj.trans ⟨not_imp_not.mp create_differs, fun hserve => (create_agrees hkeeps hfresh hserve).1⟩
  | get ownerUserId artifactId =>
    simp only [Records.step, ArtifactTable.step]
    exact answerOf_inj.trans (get_agrees hkeeps hjsonb)
  | listForOwner ownerUserId =>
    have hagrees : .ok (records.listForOwner ownerUserId) = ArtifactTable.listForOwner sha256 table ownerUserId ↔ _ :=
      listForOwner_agrees hkeeps hjsonb hahead.order
    refine Iff.trans ?_ hagrees
    simp only [Records.step, ArtifactTable.step]
    cases ArtifactTable.listForOwner sha256 table ownerUserId with
    | ok listed => simp
    | error e => simp
  | replacePayload now ownerUserId artifactId payload =>
    have hlater := fun record hrecord => hahead.later record hrecord now (List.mem_filterMap.mpr ⟨_, List.mem_cons_self, rfl⟩)
    simp only [Records.step, ArtifactTable.step]
    exact answerOf_inj.trans ⟨not_imp_not.mp replacePayload_differs, fun hserve => (replacePayload_agrees hkeeps hjsonb hlater hserve).1⟩

theorem InStep.next (hjsonb : ∀ v, Stored v (jsonb v)) (h : InStep sha256 jsonb records table (call :: rest)) (hserve : BothServe records call) :
    InStep sha256 jsonb (records.step call).2 (ArtifactTable.step sha256 jsonb table call).2 rest := by
  refine ⟨?_, h.2.step⟩
  obtain ⟨hkeeps, hahead⟩ := h
  cases call with
  | create newId now ownerUserId payload threadId runId =>
    simp only [Records.step, ArtifactTable.step]
    exact (create_agrees hkeeps (hahead.fresh newId (List.mem_filterMap.mpr ⟨_, List.mem_cons_self, rfl⟩)) hserve).2
  | get ownerUserId artifactId => exact hkeeps
  | listForOwner ownerUserId => exact hkeeps
  | replacePayload now ownerUserId artifactId payload =>
    have hlater := fun record hrecord => hahead.later record hrecord now (List.mem_filterMap.mpr ⟨_, List.mem_cons_self, rfl⟩)
    simp only [Records.step, ArtifactTable.step]
    exact (replacePayload_agrees hkeeps hjsonb hlater hserve).2

theorem inStep_empty {calls : List ArtifactCall} (hids : (calls.filterMap ArtifactCall.newId?).Nodup)
    (htimes : (calls.filterMap ArtifactCall.now?).Pairwise (· < ·)) : InStep sha256 jsonb Dict.empty Dict.empty calls :=
  ⟨.nil, hids, (fun _ _ h => nomatch h), htimes, (fun _ h => nomatch h), List.Pairwise.nil⟩

theorem answers_iff {calls : List ArtifactCall} (hjsonb : ∀ v, Stored v (jsonb v)) (h : InStep sha256 jsonb Dict.empty Dict.empty calls) :
    answersOf Records.step Dict.empty calls = answersOf (ArtifactTable.step sha256 jsonb) Dict.empty calls ↔
      AtEach Records.step BothServe Dict.empty calls :=
  answersOf_eq_iff (fun _ _ _ _ h => h.answer hjsonb) (fun _ _ _ _ h hserve => h.next hjsonb hserve) h

/-- The in-memory repository and the table are interchangeable in a run exactly where each call is one that both serve. The ids that are drawn
are different, the times go up, and a `jsonb` column gives back the value it was given up to the order of members. -/
theorem artifact_ports_iff (sha256 : String → Sha256) (jsonb : Json → Json) (calls : List ArtifactCall) (hjsonb : ∀ v, Stored v (jsonb v))
    (hids : (calls.filterMap ArtifactCall.newId?).Nodup) (htimes : (calls.filterMap ArtifactCall.now?).Pairwise (· < ·)) :
    Interchangeable sha256 jsonb calls ↔ AtEach Records.step BothServe Dict.empty calls := by
  have hstart : InStep sha256 jsonb Dict.empty Dict.empty calls := inStep_empty hids htimes
  constructor
  · exact fun h => (answers_iff hjsonb hstart).mp h.1
  · intro h
    refine ⟨(answers_iff hjsonb hstart).mpr h, fun id => ?_⟩
    exact (stateAfter_related (fun _ _ _ _ h hserve => h.next hjsonb hserve) hstart h).1.held hjsonb id

instance (payload : ArtifactPayload) : Decidable (Storable payload) := inferInstanceAs (Decidable (_ ∧ _))

instance (ownerUserId : String) (threadId runId : Option String) : Decidable (Acceptable ownerUserId threadId runId) :=
  inferInstanceAs (Decidable (_ ∧ _ ∧ _ ∧ _))

instance (records : Records) : DecidablePred (BothServe records)
  | .create .. => inferInstanceAs (Decidable (_ → _ ∧ _ ∧ _ ∧ _))
  | .get .. => inferInstanceAs (Decidable (_ = _))
  | .listForOwner .. => inferInstanceAs (Decidable (_ ∧ _))
  | .replacePayload .. => inferInstanceAs (Decidable (_ ∧ _ ∧ _ ∧ _))

/-- An analysis of the sales of some month. -/
def sales (summary : BoundedText 1 4096) : ArtifactPayload := .analysis ⟨⟨"Sales", by decide⟩, summary⟩

def salesOfMay : ArtifactPayload := sales ⟨"Sales of May", by decide⟩

def salesOfJune : ArtifactPayload := sales ⟨"Sales of June", by decide⟩

/-- The digests of the two. -/
def salesDigest (text : String) : Sha256 :=
  if text = salesOfMay.toJson.dumps then ⟨"1668a245d0aff079936d74b06960b8d084b81299dbb494512b6ca6fe7863b50d", isSha256_ofList rfl⟩
  else ⟨"4236e2dc4e0ba167b6e945ba8a96db817addced4d609d18729996457be6188bf", isSha256_ofList rfl⟩

def firstArtifact : ArtifactId := ⟨"art_00000000000000000000000000000001", by decide⟩

def secondArtifact : ArtifactId := ⟨"art_00000000000000000000000000000002", by decide⟩

/-- An artifact is replaced, listed and asked for by another user: both repositories answer alike. -/
theorem artifact_ports_replaced : Interchangeable salesDigest id [.create firstArtifact 0 "alice" salesOfMay none (some "run-1"),
    .replacePayload 1 "alice" firstArtifact.val salesOfJune, .listForOwner "alice", .get "bob" firstArtifact.val] :=
  (artifact_ports_iff salesDigest id _ Stored.refl (by decide) (by decide)).mpr (by decide +kernel)

/-- The owner of two artifacts lists them: the records give the older one first, the table the newer one. -/
theorem artifact_ports_listing : ¬ Interchangeable salesDigest id [.create firstArtifact 0 "alice" salesOfMay none none,
    .create secondArtifact 1 "alice" salesOfJune none none, .listForOwner "alice"] := by
  rintro ⟨hanswers, -⟩
  have hjsonb : ∀ v, Stored v (id v) := Stored.refl
  have hserved := (answers_iff hjsonb (inStep_empty (by decide) (by decide))).mp hanswers
  revert hserved
  decide +kernel

end Runs

end Nl2Sql.Artifacts
