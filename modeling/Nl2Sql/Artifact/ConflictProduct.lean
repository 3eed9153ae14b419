import Nl2Sql.Artifact.Library
import Nl2Sql.Semantic.PersonalConflict

/-!
# Choosing between personal candidates

`artifacts/personal_conflict_product_service.py`: the service keeps, for a user, thread, run and conflict, the projection that is active and
the selection that waits to be used. A call reads the definitions, the library and the catalogue as they are then, and its writes come after
its last wait for them, so a call is one step.
-/

namespace Nl2Sql

open Py

namespace DefinitionStore

variable (s : DefinitionStore)

/-- `get_owned_definition`. -/
def getOwnedDefinition (ownerUserId definitionId : String) : Except DefinitionError CustomDefinition :=
  match s.definitions.get? definitionId with
  | none => .error .notFound
  | some definition => if definition.ownerUserId.val ≠ ownerUserId then .error .notFound else .ok definition

/-- `get_exact_version`. -/
def getExactVersion (ownerUserId definitionId : String) (version : Nat) : Except DefinitionError DefinitionVersion := do
  let current ← s.getOwnedDefinition ownerUserId definitionId
  match s.versions.get? (definitionId, version) with
  | some exact => return exact
  | none =>
    match (s.drafts.get? definitionId).filter fun draft => draft.version = version with
    | some draft => return draft
    | none => if current.currentVersion.version = version then return current.currentVersion else throw .notFound

theorem session_unsaved : RetentionAxis.session = .saved → ConfirmationAxis.draft = .confirmed := by decide

/-- `get_version_lifecycle`. -/
def getVersionLifecycle (ownerUserId definitionId : String) (version : Nat) : Except DefinitionError DefinitionVersionLifecycle := do
  let exact ← s.getExactVersion ownerUserId definitionId version
  match s.lifecycle.get? (definitionId, version) with
  | some recorded => return recorded
  | none =>
    if exact.semanticClosed ∧ (s.versions.get? (definitionId, version)).isSome then
      return { confirmation := .confirmed, retention := .saved, saved_confirmed := fun _ => rfl }
    else return { saved_confirmed := session_unsaved }

end DefinitionStore

namespace Personal

/-- The code of a `PersonalConflictProductError`. -/
inductive ProductCode where
  | notSavedConfirmed | versionUnavailable | installRequired | publicationNotFound | mustBeRunScoped | runBindingInvalid | notPending
  | service (code : ServiceCode)
  deriving DecidableEq, Repr

def ProductCode.text : ProductCode → String
  | .notSavedConfirmed => "personal_candidate_not_saved_confirmed"
  | .versionUnavailable => "personal_candidate_version_unavailable"
  | .installRequired => "personal_conflict_install_required"
  | .publicationNotFound => "personal_conflict_publication_not_found"
  | .mustBeRunScoped => "personal_selection_must_be_run_scoped"
  | .runBindingInvalid => "personal_selection_run_binding_invalid"
  | .notPending => "personal_selection_not_pending"
  | .service code => code.text

/-- What a call raises: its own error, that of the definitions, of the library or the catalogue, another of the comparison, or the
`StopIteration` of a selected candidate that is not there. -/
inductive ProductError where
  | product (code : ProductCode)
  | definition (e : DefinitionError)
  | unavailable
  | conflict (e : ConflictError)
  | stopIteration
  deriving DecidableEq, Repr

/-- `except PersonalConflictServiceError`. -/
def ofConflict {α : Type} : Except ConflictError α → Except ProductError α
  | .ok a => .ok a
  | .error (.service code) => .error (.product (.service code))
  | .error e => .error (.conflict e)

/-- What a port answers, where it answers. -/
def ofPort {α : Type} : Option α → Except ProductError α
  | some a => .ok a
  | none => .error .unavailable

/-- What the definitions answer. -/
def ofDefinitions {α : Type} : Except DefinitionError α → Except ProductError α
  | .ok a => .ok a
  | .error e => .error (.definition e)

/-- The definitions, and what the library and the catalogue answer, during one call: none where a port raises. -/
structure ProductPorts where
  definitions : DefinitionStore
  getInstall : String → String → Option (Option InstalledMetricBinding)
  get : String → Int → Option (Option PublishedVersion)
  certificationState : String → Int → Option String
  starCount : String → Option Nat

/-- What is asked to be resolved, with what the ports answer then. -/
structure ResolveRequest where
  ports : ProductPorts
  userId : String
  ownDefinitionId : String
  installedIdentityId : String
  threadId : Option String := none
  runId : Option String := none
  ownVersion : Option Int := none

/-- `user_id, thread_id, run_id, conflict_id`. -/
structure BindingKey where
  userId : String
  threadId : String
  runId : String
  conflictId : String
  deriving DecidableEq

/-- The state of a `PersonalConflictProductService`. -/
structure ProductState where
  activeConflicts : Dict BindingKey PersonalConflictProjection
  pendingSelections : Dict BindingKey PersonalSelection

/-- `PersonalConflictProductService(...)`. -/
def ProductState.initial : ProductState := ⟨Dict.empty, Dict.empty⟩

/-- The state a certification is shown as. -/
def certificationOf (raw : String) : CertificationState :=
  if raw = "uncertified" then .uncertified else if raw = "certified" then .certified else .unknown

section Service

variable (sha256 : String → Sha256)

/-- The version of one's own definition that is compared. -/
def ownVersionOf (saved : List DefinitionVersion) (ownVersion : Option Int) : Except ProductError Nat :=
  match saved.getLast? with
  | none => .error (.product .notSavedConfirmed)
  | some last =>
    match saved.find? fun item => (item.version : Int) = ownVersion.getD last.version with
    | none => .error (.product .versionUnavailable)
    | some item => .ok item.version

/-- The first half of `resolve`: the projection of the two candidates. -/
def projectionOf (request : ResolveRequest) : Except ProductError PersonalConflictProjection := do
  let definitions := request.ports.definitions
  let _ ← ofDefinitions (definitions.getOwnedDefinition request.userId request.ownDefinitionId)
  let saved ← ofDefinitions (definitions.listSavedVersions request.userId request.ownDefinitionId)
  let ownVersion ← ownVersionOf saved request.ownVersion
  let version ← ofDefinitions (definitions.getExactVersion request.userId request.ownDefinitionId ownVersion)
  let lifecycle ← ofDefinitions (definitions.getVersionLifecycle request.userId request.ownDefinitionId version.version)
  match ← ofPort (request.ports.getInstall request.userId request.installedIdentityId) with
  | none => throw (.product .installRequired)
  | some install =>
    match ← ofPort (request.ports.get request.installedIdentityId install.version) with
    | none => throw (.product .publicationNotFound)
    | some published =>
      let certification ← ofPort (request.ports.certificationState request.installedIdentityId install.version)
      let own ← ofConflict (projectOwnSavedCandidate sha256 version lifecycle request.userId (some request.userId))
      let starCount ← ofPort (request.ports.starCount request.installedIdentityId)
      let installed ← ofConflict (projectInstalledPublishedCandidate sha256 published (certificationOf certification) starCount)
      ofConflict (resolvePersonalCandidateConflict sha256 [own, installed] "metric")

/-- A text that is there and not empty. -/
def truthy : Option String → Option String
  | none => none
  | some text => if text = "" then none else some text

/-- The key a projection is bound to, where it is of a conflict and bound to a thread and a run. -/
def bindingKey (request : ResolveRequest) (projection : PersonalConflictProjection) : Option (BindingKey × SemanticConflict) :=
  match projection.semanticConflict, truthy request.threadId, truthy request.runId with
  | some conflict, some threadId, some runId => some (⟨request.userId, threadId, runId, conflict.conflictId.val⟩, conflict)
  | _, _, _ => none

/-- `projection.model_copy(update=...)`, with the chosen candidate. -/
def selectedProjection (selectedCandidateId : BoundedText 1 128) (reference : PersonalCandidateRef) : PersonalConflictProjection where
  resolution := ⟨.resolved, [], no_words_length, no_words_blank, List.nodup_nil, fun _ => rfl⟩
  selectedCandidateId := some selectedCandidateId
  selectedDefinitionId := some reference.definitionId
  selectedVersion := some reference.definitionVersion
  conflict_iff := iff_of_false (by decide) (by decide)
  comparison_iff := iff_of_false (by decide) (by decide)

namespace ProductState

variable (s : ProductState)

/-- `consume_selection`. -/
def consumeSelection (key : BindingKey) : Except ProductError PersonalSelection × ProductState :=
  match s.pendingSelections.get? key with
  | none => (.error (.product .notPending), s)
  | some selection => (.ok selection, ⟨s.activeConflicts.erase key, s.pendingSelections.erase key⟩)

/-- `resolve`. -/
def resolve (request : ResolveRequest) : Except ProductError PersonalConflictProjection × ProductState :=
  match projectionOf sha256 request with
  | .error e => (.error e, s)
  | .ok projection =>
    match bindingKey request projection with
    | none => (.ok projection, s)
    | some (key, conflict) =>
      let active : ProductState := { s with activeConflicts := s.activeConflicts.set key projection }
      match active.pendingSelections.get? key with
      | none => (.ok projection, active)
      | some _ =>
        match active.consumeSelection key with
        | (.error e, after) => (.error e, after)
        | (.ok consumed, after) =>
          match conflict.candidates.find? fun item => item.candidateId = consumed.selectedCandidateId with
          | none => (.error .stopIteration, after)
          | some reference => (.ok (selectedProjection consumed.selectedCandidateId reference), after)

/-- `validate_selection`. -/
def validateSelection (request : ResolveRequest) (selection : PersonalSelection) :
    Except ProductError (PersonalConflictProjection × PersonalSelection) × ProductState :=
  if selection.selectionScope ≠ .runScoped then (.error (.product .mustBeRunScoped), s)
  else
    match request.threadId, request.runId with
    | some threadId, some runId =>
      match s.activeConflicts.get? ⟨request.userId, threadId, runId, selection.conflictId.val⟩ with
      | none => (.error (.product .runBindingInvalid), s)
      | some projection =>
        match ofConflict (validatePersonalSelection selection projection) with
        | .error e => (.error e, s)
        | .ok validated =>
          (.ok (projection, validated),
            { s with pendingSelections := s.pendingSelections.set ⟨request.userId, threadId, runId, validated.conflictId.val⟩ validated })
    | _, _ =>
      match s.resolve sha256 { request with threadId := none, runId := none } with
      | (.error e, after) => (.error e, after)
      | (.ok projection, after) =>
        match ofConflict (validatePersonalSelection selection projection) with
        | .error e => (.error e, after)
        | .ok validated => (.ok (projection, validated), after)

end ProductState

/-! ## Runs of the service -/

/-- One call on the service. -/
inductive ProductCall where
  | resolve (request : ResolveRequest)
  | validateSelection (request : ResolveRequest) (selection : PersonalSelection)
  | consumeSelection (key : BindingKey)

/-- What a call returns or raises. -/
inductive ProductAnswer where
  | resolved (projection : PersonalConflictProjection)
  | validated (projection : PersonalConflictProjection) (selection : PersonalSelection)
  | consumed (selection : PersonalSelection)
  | raised (e : ProductError)

/-- The step of a call. -/
def ProductState.step (s : ProductState) : ProductCall → ProductAnswer × ProductState
  | .resolve request =>
    match s.resolve sha256 request with
    | (.ok projection, after) => (.resolved projection, after)
    | (.error e, after) => (.raised e, after)
  | .validateSelection request selection =>
    match s.validateSelection sha256 request selection with
    | (.ok (projection, validated), after) => (.validated projection validated, after)
    | (.error e, after) => (.raised e, after)
  | .consumeSelection key =>
    match s.consumeSelection key with
    | (.ok selection, after) => (.consumed selection, after)
    | (.error e, after) => (.raised e, after)

end Service

end Personal

end Nl2Sql
