import Nl2Sql.Lib.Method
import Nl2Sql.Metric.Contracts

/-!
# The semantic release registry

`SemanticRegistry` of `semantic/registry.py`: immutable releases with a lifecycle state, and a pointer to the active one. A method is a
program over the registry that may raise, and what it wrote before raising stays written. The identifier a draft gets and the time
of its creation come from outside, so they are arguments; the checksum is a function of the documents. A validator is any function
of a release that returns a report or raises.
-/

namespace Nl2Sql

open Py

/-- A document of a release, its text and vector with it. -/
structure RegistryDocument extends SemanticDocument where
  content : String
  /-- the texts of the vector's components -/
  embedding : Option (List String)

/-- The report of a validator: the members of a JSON object. -/
abbrev ValidationReport : Type := List (String × Json)

/-- `report.get("ok") is True`. -/
def ValidationReport.isOk (report : ValidationReport) : Bool :=
  match Json.member? "ok" report with
  | some (.bool ok) => ok
  | _ => false

/-- A release as the registry keeps it. -/
structure RegistryRelease where
  releaseId : String
  version : Nat
  checksum : Sha256
  state : SemanticReleaseState
  documents : List RegistryDocument
  validationReport : Option ValidationReport
  changeSummary : String
  previousReleaseId : Option String
  /-- the text of a datetime -/
  createdAt : String

structure SemanticRegistry where
  releases : Dict String RegistryRelease
  activeReleaseId : Option String

/-- What a method of the registry may raise. -/
inductive RegistryError where
  | semanticRelease (message : String)
  /-- the exception of a validator -/
  | validator
  /-- a pointer to a release that is not there -/
  | keyError
  deriving DecidableEq, Repr

/-- A validator of releases. -/
abbrev ReleaseValidator : Type := RegistryRelease → Except Unit ValidationReport

abbrev RegistryM : Type → Type := EStateM RegistryError SemanticRegistry

namespace SemanticRegistry

/-- `SemanticRegistry()`. -/
def initial : SemanticRegistry := ⟨Dict.empty, none⟩

/-- `active_release`, of a pointer that is none or names a release. -/
def activeRelease (s : SemanticRegistry) : Option RegistryRelease := s.activeReleaseId.bind s.releases.get?

/-- `get`. -/
def lookup (releaseId : String) : RegistryM RegistryRelease := do
  match (← get).releases.get? releaseId with
  | some release => pure release
  | none => throw (.semanticRelease ("unknown semantic release: " ++ releaseId))

/-- `self._releases[release_id] = release`. -/
def store (releaseId : String) (release : RegistryRelease) : RegistryM Unit :=
  modify fun s => { s with releases := s.releases.set releaseId release }

/-- `create_draft`. -/
def createDraft (checksum : List RegistryDocument → Sha256) (newId : String) (now : String) (documents : List RegistryDocument)
    (changeSummary : String) : RegistryM RegistryRelease := do
  if documents = [] then
    throw (.semanticRelease "a semantic release requires at least one document")
  if documents.any fun document => isBlank document.content then
    throw (.semanticRelease "semantic documents must not be empty")
  let s ← get
  let release : RegistryRelease :=
    { releaseId := newId
      version := s.releases.entries.length + 1
      checksum := checksum documents
      state := .draft
      documents := documents
      validationReport := none
      changeSummary := strip changeSummary
      previousReleaseId := s.activeReleaseId
      createdAt := now }
  store newId release
  pure release

/-- `validate`. -/
def validate (releaseId : String) (validator : ReleaseValidator) : RegistryM RegistryRelease := do
  let release ← lookup releaseId
  if release.state ≠ .draft then
    throw (.semanticRelease "only draft releases can be validated")
  match validator release with
  | .error _ => throw .validator
  | .ok report =>
    if report.isOk = false then
      throw (.semanticRelease "semantic release validation failed")
    let validated := { release with state := .validated, validationReport := some report }
    store releaseId validated
    pure validated

/-- The release the pointer names becomes retired. -/
def retireActive : RegistryM Unit := do
  match (← get).activeReleaseId with
  | none => pure ()
  | some oldActiveId =>
    match (← get).releases.get? oldActiveId with
    | none => throw .keyError
    | some oldActive => store oldActiveId { oldActive with state := .retired }

/-- `activate`. -/
def activate (releaseId : String) : RegistryM RegistryRelease := do
  let candidate ← lookup releaseId
  if candidate.state ≠ .validated then
    throw (.semanticRelease "only validated releases can become active")
  retireActive
  let active := { candidate with state := .active }
  store releaseId active
  modify fun s => { s with activeReleaseId := some releaseId }
  pure active

/-- `rollback`. -/
def rollback (releaseId : String) : RegistryM RegistryRelease := do
  let target ← lookup releaseId
  if target.state ≠ .retired then
    throw (.semanticRelease "rollback target must be a retired release")
  store releaseId { target with state := .validated }
  activate releaseId

/-- `publish`. -/
def publish (checksum : List RegistryDocument → Sha256) (newId : String) (now : String) (documents : List RegistryDocument)
    (changeSummary : String) (validator : ReleaseValidator) : RegistryM RegistryRelease := do
  let draft ← createDraft checksum newId now documents changeSummary
  let _ ← validate draft.releaseId validator
  activate draft.releaseId

end SemanticRegistry

/-! ## Runs of a registry -/

/-- One call on a registry. -/
inductive RegistryCall where
  | createDraft (newId : String) (now : String) (documents : List RegistryDocument) (changeSummary : String)
  | validate (releaseId : String) (validator : ReleaseValidator)
  | activate (releaseId : String)
  | rollback (releaseId : String)
  | publish (newId : String) (now : String) (documents : List RegistryDocument) (changeSummary : String) (validator : ReleaseValidator)

namespace RegistryCall

/-- The method a call runs. -/
def exec (checksum : List RegistryDocument → Sha256) : RegistryCall → RegistryM RegistryRelease
  | .createDraft newId now documents changeSummary => SemanticRegistry.createDraft checksum newId now documents changeSummary
  | .validate releaseId validator => SemanticRegistry.validate releaseId validator
  | .activate releaseId => SemanticRegistry.activate releaseId
  | .rollback releaseId => SemanticRegistry.rollback releaseId
  | .publish newId now documents changeSummary validator =>
    SemanticRegistry.publish checksum newId now documents changeSummary validator

/-- The identifier a call draws from `uuid4`. -/
def newId? : RegistryCall → Option String
  | .createDraft newId _ _ _ => some newId
  | .publish newId _ _ _ _ => some newId
  | _ => none

/-- The validator a call runs. -/
def validator? : RegistryCall → Option ReleaseValidator
  | .validate _ validator => some validator
  | .publish _ _ _ _ validator => some validator
  | _ => none

end RegistryCall

variable (checksum : List RegistryDocument → Sha256)

/-- The registry after a call, whether it returned or raised. -/
def SemanticRegistry.after (s : SemanticRegistry) (call : RegistryCall) : SemanticRegistry :=
  match (call.exec checksum).run s with
  | .ok _ s' => s'
  | .error _ s' => s'

/-- A call raises in a registry. -/
def RegistryCall.Raises (call : RegistryCall) (s : SemanticRegistry) : Prop :=
  ∃ e s', (call.exec checksum).run s = .error e s'

/-- The registry after a run of calls, those that raised left in the run. -/
def SemanticRegistry.runCalls (calls : List RegistryCall) : SemanticRegistry :=
  calls.foldl (SemanticRegistry.after checksum) SemanticRegistry.initial

end Nl2Sql
