import Mathlib.Data.Prod.Lex
import Nl2Sql.Artifact.PublicationStore
import Nl2Sql.Lib.Sorting
import Nl2Sql.Lib.Writable

/-!
# Artifact repositories

`artifacts/contracts.py`, `artifacts/repository.py` and `artifacts/control_store.py` over the table `product_artifacts` of
`005_product_artifacts.sql`: the in-memory repository keeps envelopes by their ids, the durable one keeps rows and reads envelopes back from
them. The id of a new artifact and the time of a call come from outside; a time is a number of microseconds.
-/

namespace Nl2Sql.Artifacts

open Py Json

/-! ## Contracts -/

inductive ArtifactType where
  | analysis | customDefinition
  deriving DecidableEq, Repr

def ArtifactType.text : ArtifactType → String
  | .analysis => "analysis"
  | .customDefinition => "custom_definition"

/-- The pattern of an artifact's id: `^art_[0-9a-f]{32}$`. -/
def isArtifactId (s : String) : Bool :=
  s.toList.take 4 == "art_".toList && (s.toList.drop 4).all (fun c => isDigitAscii c || ('a' ≤ c && c ≤ 'f')) && decide (s.length = 36)

/-- The id of an artifact. -/
abbrev ArtifactId : Type := { s : String // isArtifactId s = true }

/-- A run-scoped analysis result. -/
structure AnalysisArtifact where
  title : BoundedText 1 256
  summary : BoundedText 1 4096
  deriving DecidableEq

/-- A version of a definition that an artifact points at. -/
structure CustomDefinitionArtifact where
  definitionId : BoundedText 1 128
  definitionVersion : { n : Nat // 1 ≤ n }
  definitionChecksum : Sha256
  deriving DecidableEq

inductive ArtifactPayload where
  | analysis (artifact : AnalysisArtifact)
  | customDefinition (artifact : CustomDefinitionArtifact)
  deriving DecidableEq

/-- `_artifact_type_of`. -/
def ArtifactPayload.type : ArtifactPayload → ArtifactType
  | .analysis _ => .analysis
  | .customDefinition _ => .customDefinition

/-- `model_dump(mode="json")` of a payload. -/
def ArtifactPayload.toJson : ArtifactPayload → Json
  | .analysis artifact => .obj [("title", .str artifact.title.val), ("summary", .str artifact.summary.val), ("noncanonical", .bool true)]
  | .customDefinition artifact =>
    .obj [("definition_id", .str artifact.definitionId.val), ("definition_version", .int artifact.definitionVersion.val),
      ("definition_checksum", .str artifact.definitionChecksum.val)]

/-- One artifact of an owner. -/
structure ArtifactEnvelope where
  artifactId : ArtifactId
  artifactType : ArtifactType
  ownerUserId : BoundedText 1 256
  threadId : Option (BoundedText 0 128)
  runId : Option (BoundedText 0 128)
  createdAt : Int
  updatedAt : Int
  payload : ArtifactPayload
  deriving DecidableEq

/-- What a repository raises: `ValueError` for a blank owner, `ValidationError`, `ArtifactNotFound`, `ArtifactTypeMismatch`, `ValueError` for
an integer of too many digits, `ArtifactIntegrityError`, or an error of the database. -/
inductive ArtifactError where
  | blankOwner | validation | notFound | typeMismatch | tooManyDigits | integrity | database
  deriving DecidableEq, Repr

/-- A text within its bounds. -/
def bounded? (low high : Nat) (s : String) : Option (BoundedText low high) :=
  if h : low ≤ s.length ∧ s.length ≤ high then some ⟨s, h⟩ else none

/-- A text that may be missing, of at most 128 characters. -/
def provenance? : Option String → Option (Option (BoundedText 0 128))
  | none => some none
  | some s => (bounded? 0 128 s).map some

/-- An envelope, if the model accepts it. -/
def ArtifactEnvelope.of? (artifactId : String) (artifactType : ArtifactType) (ownerUserId : String) (threadId runId : Option String)
    (createdAt updatedAt : Int) (payload : ArtifactPayload) : Option ArtifactEnvelope := do
  let ownerUserId ← bounded? 1 256 ownerUserId
  let threadId ← provenance? threadId
  let runId ← provenance? runId
  if h : isArtifactId artifactId = true then
    return ⟨⟨artifactId, h⟩, artifactType, ownerUserId, threadId, runId, createdAt, updatedAt, payload⟩
  else none

/-- `payload_checksum`. -/
def payloadChecksum (sha256 : String → Sha256) (payload : ArtifactPayload) : Except ArtifactError Sha256 :=
  if payload.toJson.writable then .ok (sha256 payload.toJson.dumps) else .error .tooManyDigits

/-! ## In memory -/

/-- `_records` of an `InMemoryArtifactRepository`. -/
abbrev Records : Type := Dict String ArtifactEnvelope

namespace Records

variable (records : Records)

/-- `create`. -/
def create (newId : ArtifactId) (now : Int) (ownerUserId : String) (payload : ArtifactPayload) (threadId runId : Option String) :
    Except ArtifactError ArtifactEnvelope × Records :=
  if isBlank ownerUserId then (.error .blankOwner, records)
  else
    match ArtifactEnvelope.of? newId.val payload.type ownerUserId threadId runId now now payload with
    | none => (.error .validation, records)
    | some record => (.ok record, records.set record.artifactId.val record)

/-- `get`. -/
def get (ownerUserId artifactId : String) : Except ArtifactError ArtifactEnvelope :=
  match records.get? artifactId with
  | none => .error .notFound
  | some record => if record.ownerUserId.val ≠ ownerUserId then .error .notFound else .ok record

/-- `list_for_owner`. -/
def listForOwner (ownerUserId : String) : List ArtifactEnvelope := records.values.filter fun record => record.ownerUserId.val = ownerUserId

/-- `replace_payload`. -/
def replacePayload (now : Int) (ownerUserId artifactId : String) (payload : ArtifactPayload) :
    Except ArtifactError ArtifactEnvelope × Records :=
  match records.get ownerUserId artifactId with
  | .error e => (.error e, records)
  | .ok current =>
    if payload.type ≠ current.artifactType then (.error .typeMismatch, records)
    else
      let updated := { current with payload, updatedAt := now }
      (.ok updated, records.set artifactId updated)

end Records

/-! ## On PostgreSQL -/

/-- A row of `product_artifacts`. -/
structure ArtifactRow where
  artifactId : String
  artifactType : String
  ownerUserId : String
  threadId : Option String
  runId : Option String
  payload : Json
  payloadChecksum : String
  createdAt : Int
  updatedAt : Int

/-- The table, by its primary key. -/
abbrev ArtifactTable : Type := Dict String ArtifactRow

/-- The CHECK constraints of the table. -/
def ArtifactRow.allowed (row : ArtifactRow) : Bool :=
  isArtifactId row.artifactId && decide (row.artifactType = "analysis" ∨ row.artifactType = "custom_definition") &&
    (!row.ownerUserId.toList.all (· == ' ')) && decide (row.ownerUserId.length ≤ 256) && isSha256 row.payloadChecksum &&
    decide (row.createdAt ≤ row.updatedAt)

/-- A jsonb column holds no NUL. -/
def storableJson (value : Json) : Bool := value.texts.all storableText

/-- `AnalysisArtifact.model_validate`. -/
def AnalysisArtifact.ofJson? (j : Json) : Option AnalysisArtifact := do
  let members ← fields? ["title", "summary", "noncanonical"] j
  let title ← readBounded 1 256 (← member? "title" members)
  let summary ← readBounded 1 4096 (← member? "summary" members)
  match member? "noncanonical" members with
  | none => return ⟨title, summary⟩
  | some (.bool true) => return ⟨title, summary⟩
  | some _ => none

/-- An integer from 1 on. -/
def readVersion : Json → Option { n : Nat // 1 ≤ n }
  | .int n => if h : 1 ≤ n then some ⟨n.toNat, one_le_toNat h⟩ else none
  | _ => none

/-- `CustomDefinitionArtifact.model_validate`. -/
def CustomDefinitionArtifact.ofJson? (j : Json) : Option CustomDefinitionArtifact := do
  let members ← fields? ["definition_id", "definition_version", "definition_checksum"] j
  let definitionId ← readBounded 1 128 (← member? "definition_id" members)
  let definitionVersion ← readVersion (← member? "definition_version" members)
  let definitionChecksum ← readPattern isSha256 (← member? "definition_checksum" members)
  return ⟨definitionId, definitionVersion, definitionChecksum⟩

/-- The payload a row declares, if it can be decoded. -/
def readPayload (row : ArtifactRow) : Option (ArtifactType × ArtifactPayload) :=
  if row.artifactType = "analysis" then
    (AnalysisArtifact.ofJson? row.payload).map fun artifact => (.analysis, .analysis artifact)
  else if row.artifactType = "custom_definition" then
    (CustomDefinitionArtifact.ofJson? row.payload).map fun artifact => (.customDefinition, .customDefinition artifact)
  else none

section Control

variable (sha256 : String → Sha256) (jsonb : Json → Json)

/-- `_envelope_from_row`. -/
def envelopeFromRow (row : ArtifactRow) : Except ArtifactError ArtifactEnvelope :=
  match readPayload row with
  | none => .error .integrity
  | some (artifactType, payload) =>
    match ArtifactEnvelope.of? row.artifactId artifactType row.ownerUserId row.threadId row.runId row.createdAt row.updatedAt payload with
    | none => .error .integrity
    | some envelope => do
      let checksum ← payloadChecksum sha256 envelope.payload
      if checksum.val ≠ row.payloadChecksum then throw .integrity
      return envelope

/-- The row of an envelope. -/
def rowOf (record : ArtifactEnvelope) (checksum : Sha256) : ArtifactRow where
  artifactId := record.artifactId.val
  artifactType := record.artifactType.text
  ownerUserId := record.ownerUserId.val
  threadId := record.threadId.map (·.val)
  runId := record.runId.map (·.val)
  payload := jsonb record.payload.toJson
  payloadChecksum := checksum.val
  createdAt := record.createdAt
  updatedAt := record.updatedAt

namespace ArtifactTable

variable (table : ArtifactTable)

/-- The INSERT of `create`: refused where a value cannot be held, where the id is taken and where a CHECK fails. -/
def insert (record : ArtifactEnvelope) (checksum : Sha256) : Except ArtifactError ArtifactTable :=
  let row := rowOf jsonb record checksum
  if !(storableText row.ownerUserId && row.threadId.all storableText && row.runId.all storableText && storableJson record.payload.toJson) then
    .error .database
  else if row.artifactId ∈ table then .error .database
  else if !row.allowed then .error .database
  else .ok (table.set row.artifactId row)

/-- `create`. -/
def create (newId : ArtifactId) (now : Int) (ownerUserId : String) (payload : ArtifactPayload) (threadId runId : Option String) :
    Except ArtifactError ArtifactEnvelope × ArtifactTable :=
  if isBlank ownerUserId then (.error .blankOwner, table)
  else
    match ArtifactEnvelope.of? newId.val payload.type ownerUserId threadId runId now now payload with
    | none => (.error .validation, table)
    | some record =>
      match payloadChecksum sha256 record.payload with
      | .error e => (.error e, table)
      | .ok checksum =>
        match insert jsonb table record checksum with
        | .error e => (.error e, table)
        | .ok after => (.ok record, after)

/-- `get`. -/
def get (ownerUserId artifactId : String) : Except ArtifactError ArtifactEnvelope :=
  if !storableText artifactId then .error .database
  else
    match table.get? artifactId with
    | none => .error .notFound
    | some row => if row.ownerUserId ≠ ownerUserId then .error .notFound else envelopeFromRow sha256 row

/-- `ORDER BY created_at DESC, artifact_id`. -/
def listingOrder (row : ArtifactRow) : Int ×ₗ String := toLex (-row.createdAt, row.artifactId)

/-- `list_for_owner`. -/
def listForOwner (ownerUserId : String) : Except ArtifactError (List ArtifactEnvelope) :=
  if !storableText ownerUserId then .error .database
  else (sortBy listingOrder (table.values.filter fun row => row.ownerUserId = ownerUserId)).mapM (envelopeFromRow sha256)

/-- The guarded UPDATE of `replace_payload`, with the CHECK constraints and the trigger: the row that was written, if there is one. -/
def update (now : Int) (ownerUserId artifactId : String) (payload : ArtifactPayload) (checksum : Sha256) :
    Except ArtifactError (Option ArtifactRow) :=
  if !(storableText ownerUserId && storableText artifactId && storableJson payload.toJson) then .error .database
  else
    match table.get? artifactId with
    | none => .ok none
    | some row =>
      if row.ownerUserId = ownerUserId ∧ row.artifactType = payload.type.text then
        let written := { row with payload := jsonb payload.toJson, payloadChecksum := checksum.val, updatedAt := now }
        if written.updatedAt < row.updatedAt ∨ !written.allowed then .error .database else .ok (some written)
      else .ok none

/-- `replace_payload`. -/
def replacePayload (now : Int) (ownerUserId artifactId : String) (payload : ArtifactPayload) :
    Except ArtifactError ArtifactEnvelope × ArtifactTable :=
  match ArtifactEnvelope.of? artifactId payload.type ownerUserId none none now now payload with
  | none => (.error .validation, table)
  | some source =>
    match payloadChecksum sha256 source.payload with
    | .error e => (.error e, table)
    | .ok checksum =>
      match update jsonb table now ownerUserId artifactId payload checksum with
      | .error e => (.error e, table)
      | .ok (some written) => (envelopeFromRow sha256 written, table.set artifactId written)
      | .ok none =>
        match (table.get? artifactId).filter fun row => row.ownerUserId = ownerUserId with
        | none => (.error .notFound, table)
        | some _ => (.error .typeMismatch, table)

end ArtifactTable

end Control

/-! ## Calls on the port -/

/-- One call on a repository, with the id and the time it draws. -/
inductive ArtifactCall where
  | create (newId : ArtifactId) (now : Int) (ownerUserId : String) (payload : ArtifactPayload) (threadId runId : Option String)
  | get (ownerUserId artifactId : String)
  | listForOwner (ownerUserId : String)
  | replacePayload (now : Int) (ownerUserId artifactId : String) (payload : ArtifactPayload)
  deriving DecidableEq

/-- What a call returns or raises. -/
inductive ArtifactAnswer where
  | envelope (record : ArtifactEnvelope)
  | listing (records : List ArtifactEnvelope)
  | raised (e : ArtifactError)
  deriving DecidableEq

/-- The answer that is one envelope. -/
def answerOf : Except ArtifactError ArtifactEnvelope → ArtifactAnswer
  | .ok record => .envelope record
  | .error e => .raised e

/-- A call on the in-memory repository. -/
def Records.step (records : Records) : ArtifactCall → ArtifactAnswer × Records
  | .create newId now ownerUserId payload threadId runId =>
    ((answerOf (records.create newId now ownerUserId payload threadId runId).1), (records.create newId now ownerUserId payload threadId runId).2)
  | .get ownerUserId artifactId => (answerOf (records.get ownerUserId artifactId), records)
  | .listForOwner ownerUserId => (.listing (records.listForOwner ownerUserId), records)
  | .replacePayload now ownerUserId artifactId payload =>
    (answerOf (records.replacePayload now ownerUserId artifactId payload).1, (records.replacePayload now ownerUserId artifactId payload).2)

/-- A call on the durable repository. -/
def ArtifactTable.step (sha256 : String → Sha256) (jsonb : Json → Json) (table : ArtifactTable) : ArtifactCall → ArtifactAnswer × ArtifactTable
  | .create newId now ownerUserId payload threadId runId =>
    (answerOf (ArtifactTable.create sha256 jsonb table newId now ownerUserId payload threadId runId).1,
      (ArtifactTable.create sha256 jsonb table newId now ownerUserId payload threadId runId).2)
  | .get ownerUserId artifactId => (answerOf (ArtifactTable.get sha256 table ownerUserId artifactId), table)
  | .listForOwner ownerUserId =>
    (match ArtifactTable.listForOwner sha256 table ownerUserId with
      | .ok records => .listing records
      | .error e => .raised e, table)
  | .replacePayload now ownerUserId artifactId payload =>
    (answerOf (ArtifactTable.replacePayload sha256 jsonb table now ownerUserId artifactId payload).1,
      (ArtifactTable.replacePayload sha256 jsonb table now ownerUserId artifactId payload).2)

end Nl2Sql.Artifacts
