import Nl2Sql.Calculation.Spec
import Nl2Sql.Lib.Method

/-!
# Custom definitions

`artifacts/custom_definition.py` and `CustomDefinitionService` of `artifacts/service.py`: a definition of a user with its versions, the
axes of its current version and the lifecycle of each version. A method is a program over the store that may raise, and what it wrote
before raising stays written; no method waits for anything outside, so a call is one step. The identifier a new definition gets and the
time of a version come from outside. The checksums of a calculation and of a parameter contract are functions of their content, and the
check that a metric is governed is a function that may raise.
-/

namespace Nl2Sql

open Py

/-- The pattern of a definition's identifier: `^def_[0-9a-f]{32}$`. -/
def isDefinitionId (s : String) : Bool :=
  s.toList.take 4 == "def_".toList && (s.toList.drop 4).all (fun c => isDigitAscii c || ('a' ≤ c && c ≤ 'f')) &&
    decide (s.length = 36)

/-- The identifier of a definition. -/
abbrev DefinitionId : Type := { s : String // isDefinitionId s = true }

/-- The declared parameters. -/
structure ParameterContract where
  parameters : List ParameterSpec
  length_le : parameters.length ≤ 32
  deriving DecidableEq

/-- `derive_parameter_contract`. -/
def deriveParameterContract (calculation : CalculationSpec) : ParameterContract := ⟨calculation.parameters, calculation.parameters_length⟩

inductive ConfirmationAxis where
  | draft | confirmed
  deriving DecidableEq, Repr

inductive RetentionAxis where
  | session | saved
  deriving DecidableEq, Repr

inductive PublicationAxis where
  | unpublished | published
  deriving DecidableEq, Repr

inductive CertificationAxis where
  | uncertified | certified
  deriving DecidableEq, Repr

/-- Four axes with their implications. -/
structure DefinitionAxes where
  confirmation : ConfirmationAxis := .draft
  retention : RetentionAxis := .session
  publication : PublicationAxis := .unpublished
  certification : CertificationAxis := .uncertified
  saved_confirmed : retention = .saved → confirmation = .confirmed := by decide
  published_saved : publication = .published → retention = .saved ∧ confirmation = .confirmed := by decide
  certified_published : certification = .certified → publication = .published := by decide
  deriving DecidableEq

namespace DefinitionAxes

variable (axes : DefinitionAxes)

/-- The axes of a definition that is confirmed now. -/
def confirm : DefinitionAxes :=
  { axes with
    confirmation := .confirmed
    saved_confirmed := fun _ => rfl
    published_saved := fun h => ⟨(axes.published_saved h).1, rfl⟩ }

/-- The axes of a confirmed definition that is saved now. -/
def save (h : axes.confirmation = .confirmed) : DefinitionAxes :=
  { axes with
    retention := .saved
    saved_confirmed := fun _ => h
    published_saved := fun _ => ⟨rfl, h⟩ }

/-- The axes of a saved definition that is published now. -/
def publish (h : axes.confirmation = .confirmed ∧ axes.retention = .saved) : DefinitionAxes :=
  { axes with
    publication := .published
    certification := .uncertified
    published_saved := fun _ => ⟨h.2, h.1⟩
    certified_published := nofun }

/-- The axes of a published definition that is certified now. -/
def certify (h : axes.publication = .published) : DefinitionAxes :=
  { axes with
    certification := .certified
    certified_published := fun _ => h }

end DefinitionAxes

/-- The lifecycle of one version. -/
structure DefinitionVersionLifecycle where
  confirmation : ConfirmationAxis := .draft
  retention : RetentionAxis := .session
  saved_confirmed : retention = .saved → confirmation = .confirmed := by decide
  deriving DecidableEq

/-- One version of a definition. -/
structure DefinitionVersion where
  definitionId : DefinitionId
  version : Nat
  calculation : CalculationSpec
  parameterContract : ParameterContract
  title : BoundedText 1 256
  semanticClosed : Bool
  derivedFromDefinitionId : Option DefinitionId
  derivedFromVersion : Option { n : Nat // 1 ≤ n }
  /-- the text of a datetime -/
  createdAt : String
  version_pos : 1 ≤ version
  coherent : parameterContract.parameters = calculation.parameters

/-- A definition with its axes and its current version. -/
structure CustomDefinition where
  definitionId : DefinitionId
  ownerUserId : BoundedText 1 256
  axes : DefinitionAxes
  currentVersion : DefinitionVersion

/-- The digests of a definition's parts, as functions of what is digested. -/
structure DefinitionDigests extends CalculationDigests where
  parameters : ParameterContract → Sha256

/-- The state of a `CustomDefinitionService`. -/
structure DefinitionStore where
  definitions : Dict String CustomDefinition
  drafts : Dict String DefinitionVersion
  versions : Dict (String × Nat) DefinitionVersion
  lifecycle : Dict (String × Nat) DefinitionVersionLifecycle

/-- What a method may raise. -/
inductive DefinitionError where
  | notFound
  | blankOwner
  | newVersionRequired
  | confirmUnclosed
  | savedRequiresConfirmed
  | savedRequiresClosure
  | confirmedImmutable
  | incoherentContract
  | noncanonicalInput
  | ineligibleMetric
  | provenanceUnavailable
  | projectionRequiresSaved
  | certificationRequiresPublished
  | revisionRequiresConfirmed
  /-- a model rejects its data -/
  | validation
  | keyError
  /-- the exception of the check that a metric is governed -/
  | resolver
  deriving DecidableEq, Repr

/-- The message of an error of the service itself. -/
def DefinitionError.message : DefinitionError → String
  | .notFound => "definition_not_found"
  | .blankOwner => "definition owner must be a non-blank identity"
  | .newVersionRequired => "confirmed definition requires a new version"
  | .confirmUnclosed => "confirm requires semantic closure"
  | .savedRequiresConfirmed => "SAVED requires CONFIRMED"
  | .savedRequiresClosure => "SAVED requires semantic closure"
  | .confirmedImmutable => "a confirmed version is immutable"
  | .incoherentContract => "semantic closure requires a coherent parameter contract"
  | .noncanonicalInput => "semantic closure rejects a run-scoped noncanonical input"
  | .ineligibleMetric => "semantic closure requires an existing eligible published_gold metric"
  | .provenanceUnavailable => "semantic closure provenance authority is unavailable"
  | .projectionRequiresSaved => "publication projection requires CONFIRMED and SAVED"
  | .certificationRequiresPublished => "certification projection requires PUBLISHED"
  | .revisionRequiresConfirmed => "revision requires a confirmed definition"
  | .validation => "validation_error"
  | .keyError => "key_error"
  | .resolver => "resolver_error"

abbrev DefinitionM : Type → Type := EStateM DefinitionError DefinitionStore

/-- A text of 1 to 256 characters. -/
def boundedText? (s : String) : Option (BoundedText 1 256) := if h : 1 ≤ s.length ∧ s.length ≤ 256 then some ⟨s, h⟩ else none

/-- The lineage of a version: none where the model rejects it. -/
def lineage? (definitionId : String) (version : Int) : Option (DefinitionId × { n : Nat // 1 ≤ n }) :=
  if h : isDefinitionId definitionId = true ∧ 1 ≤ version then some (⟨definitionId, h.1⟩, ⟨version.toNat, by omega⟩) else none

namespace DefinitionVersion

/-- The first version of a definition, if the model accepts it. -/
def first? (definitionId : DefinitionId) (calculation : CalculationSpec) (parameterContract : ParameterContract) (title : String)
    (lineage : Option (DefinitionId × { n : Nat // 1 ≤ n })) (now : String) : Option DefinitionVersion := do
  let title ← boundedText? title
  if h : parameterContract.parameters = calculation.parameters then
    some
      { definitionId := definitionId, version := 1, calculation := calculation, parameterContract := parameterContract, title := title,
        semanticClosed := false, derivedFromDefinitionId := lineage.map (·.1), derivedFromVersion := lineage.map (·.2), createdAt := now,
        version_pos := Nat.one_pos, coherent := h }
  else none

/-- A draft with other contents, if the model accepts it. -/
def edited? (draft : DefinitionVersion) (calculation : CalculationSpec) (parameterContract : ParameterContract) (title : String)
    (semanticClosed : Bool) : Option DefinitionVersion := do
  let title ← boundedText? title
  if h : parameterContract.parameters = calculation.parameters then
    some { draft with calculation := calculation, parameterContract := parameterContract, title := title,
                      semanticClosed := semanticClosed, coherent := h }
  else none

/-- The next version of a definition, with its lineage. -/
def revision (prior : DefinitionVersion) (definitionId : DefinitionId) (now : String) : DefinitionVersion :=
  { prior with
    definitionId := definitionId
    version := prior.version + 1
    semanticClosed := false
    derivedFromDefinitionId := some prior.definitionId
    derivedFromVersion := some ⟨prior.version, prior.version_pos⟩
    createdAt := now
    version_pos := Nat.le_add_left 1 prior.version }

end DefinitionVersion

namespace DefinitionStore

/-- `CustomDefinitionService()`. -/
def initial : DefinitionStore := ⟨Dict.empty, Dict.empty, Dict.empty, Dict.empty⟩

/-- `if c: raise e`. -/
def raiseIf (c : Prop) [Decidable c] (e : DefinitionError) : DefinitionM Unit := if c then throw e else pure ()

/-- A value, or the error for its absence. -/
def orRaise {α : Type} (e : DefinitionError) : Option α → DefinitionM α
  | none => throw e
  | some a => pure a

/-- `_owned`. -/
def owned (ownerUserId definitionId : String) : DefinitionM CustomDefinition := do
  let definition ← orRaise .notFound ((← get).definitions.get? definitionId)
  raiseIf (definition.ownerUserId.val ≠ ownerUserId) .notFound
  pure definition

/-- `self._drafts[definition_id]`. -/
def draftOf (definitionId : String) : DefinitionM DefinitionVersion := do
  orRaise .keyError ((← get).drafts.get? definitionId)

/-- `self._definitions[definition_id] = definition`. -/
def putDefinition (definitionId : String) (definition : CustomDefinition) (s : DefinitionStore) : DefinitionStore :=
  { s with definitions := s.definitions.set definitionId definition }

/-- `self._drafts[definition_id] = draft`. -/
def putDraft (definitionId : String) (draft : DefinitionVersion) (s : DefinitionStore) : DefinitionStore :=
  { s with drafts := s.drafts.set definitionId draft }

/-- `self._versions[(definition_id, version)] = exact`. -/
def putVersion (definitionId : String) (version : Nat) (exact : DefinitionVersion) (s : DefinitionStore) : DefinitionStore :=
  { s with versions := s.versions.set (definitionId, version) exact }

/-- `self._lifecycle[(definition_id, version)] = lifecycle`. -/
def putLifecycle (definitionId : String) (version : Nat) (lifecycle : DefinitionVersionLifecycle) (s : DefinitionStore) :
    DefinitionStore :=
  { s with lifecycle := s.lifecycle.set (definitionId, version) lifecycle }

/-- The writes of a new definition. The owner is checked by the model of the definition, after the draft is written. -/
def openDefinition (ownerUserId : String) (definitionId : DefinitionId) (draft : DefinitionVersion) : DefinitionM DefinitionVersion := do
  modify fun s => (s.putDraft definitionId.val draft).putLifecycle definitionId.val draft.version {}
  let owner ← orRaise .validation (boundedText? ownerUserId)
  modify fun s => s.putDefinition definitionId.val ⟨definitionId, owner, {}, draft⟩
  pure draft

/-- `create_draft`. -/
def createDraft (newId : DefinitionId) (now : String) (ownerUserId title : String) (calculation : CalculationSpec)
    (parameterContract : Option ParameterContract) : DefinitionM DefinitionVersion := do
  raiseIf (isBlank ownerUserId) .blankOwner
  let contract := parameterContract.getD (deriveParameterContract calculation)
  let draft ← orRaise .validation (DefinitionVersion.first? newId calculation contract title none now)
  openDefinition ownerUserId newId draft

/-- `create_fork`. -/
def createFork (newId : DefinitionId) (now : String) (ownerUserId title : String) (calculation : CalculationSpec)
    (sourceDefinitionId : String) (sourceVersion : Int) : DefinitionM DefinitionVersion := do
  let lineage ← orRaise .validation (lineage? sourceDefinitionId sourceVersion)
  let fork ← orRaise .validation
    (DefinitionVersion.first? newId calculation (deriveParameterContract calculation) title (some lineage) now)
  openDefinition ownerUserId newId fork

/-- `update_draft`. -/
def updateDraft (D : DefinitionDigests) (ownerUserId definitionId : String) (calculation : Option CalculationSpec)
    (parameterContract : Option ParameterContract) (title : Option String) : DefinitionM DefinitionVersion := do
  let current ← owned ownerUserId definitionId
  raiseIf (current.axes.confirmation = .confirmed) .newVersionRequired
  let draft ← draftOf definitionId
  let newCalculation := calculation.getD draft.calculation
  let calculationChanged := newCalculation.checksum D.toCalculationDigests ≠ draft.calculation.checksum D.toCalculationDigests
  let newContract :=
    match parameterContract with
    | some contract => contract
    | none => if calculationChanged then deriveParameterContract newCalculation else draft.parameterContract
  let newTitle := title.getD draft.title.val
  let inputsChanged := calculationChanged ∨ D.parameters newContract ≠ D.parameters draft.parameterContract
  let newClosed := if inputsChanged then false else draft.semanticClosed
  let updated ← orRaise .validation (draft.edited? newCalculation newContract newTitle newClosed)
  modify fun s => (s.putDraft definitionId updated).putDefinition definitionId { current with currentVersion := updated }
  pure updated

/-- The check of one input of `mark_semantic_closed`. -/
def checkInput (isGoverned : String → Except Unit Bool) (input : CalculationInputSpec) : Except DefinitionError Unit :=
  match input.provenance with
  | .adHocMetric => .error .noncanonicalInput
  | .publishedGold =>
    match input.metricKey with
    | none => .error .ineligibleMetric
    | some key =>
      match isGoverned key.val with
      | .error _ => .error .resolver
      | .ok governed => if governed then .ok () else .error .ineligibleMetric
  | .definitionBackedComputed => .error .provenanceUnavailable
  | .productPublishedState => .error .provenanceUnavailable

/-- The checks of all inputs, in order. -/
def checkInputs (isGoverned : String → Except Unit Bool) : List CalculationInputSpec → DefinitionM Unit
  | [] => pure ()
  | input :: rest =>
    match checkInput isGoverned input with
    | .error e => throw e
    | .ok _ => checkInputs isGoverned rest

/-- `mark_semantic_closed`. -/
def markSemanticClosed (isGoverned : String → Except Unit Bool) (ownerUserId definitionId : String) :
    DefinitionM DefinitionVersion := do
  let current ← owned ownerUserId definitionId
  raiseIf (current.axes.confirmation = .confirmed) .confirmedImmutable
  let draft ← draftOf definitionId
  raiseIf (draft.parameterContract.parameters ≠ draft.calculation.parameters) .incoherentContract
  checkInputs isGoverned draft.calculation.inputs
  if draft.semanticClosed then pure draft
  else
    let closed := { draft with semanticClosed := true }
    modify fun s => (s.putDraft definitionId closed).putDefinition definitionId { current with currentVersion := closed }
    pure closed

/-- `confirm`. -/
def confirm (now : String) (ownerUserId definitionId : String) : DefinitionM CustomDefinition := do
  let current ← owned ownerUserId definitionId
  let draft ← draftOf definitionId
  raiseIf (draft.semanticClosed = false) .confirmUnclosed
  let publishedVersion := { draft with createdAt := now }
  let confirmed := { current with axes := current.axes.confirm, currentVersion := publishedVersion }
  modify fun s =>
    ((s.putVersion definitionId publishedVersion.version publishedVersion).putLifecycle definitionId publishedVersion.version
      { confirmation := .confirmed, retention := .session }).putDefinition definitionId confirmed
  pure confirmed

/-- `save`. -/
def save (ownerUserId definitionId : String) : DefinitionM CustomDefinition := do
  let current ← owned ownerUserId definitionId
  if h : current.axes.confirmation = .confirmed then do
    raiseIf (current.currentVersion.semanticClosed = false) .savedRequiresClosure
    let saved := { current with axes := current.axes.save h }
    modify fun s =>
      (s.putDefinition definitionId saved).putLifecycle definitionId current.currentVersion.version
        { confirmation := .confirmed, retention := .saved }
    pure saved
  else throw .savedRequiresConfirmed

/-- `project_published`: only the current version is projected. -/
def projectPublished (ownerUserId definitionId : String) (version : Int) : DefinitionM Unit := do
  let current ← owned ownerUserId definitionId
  if (current.currentVersion.version : Int) ≠ version then pure ()
  else if h : current.axes.confirmation = .confirmed ∧ current.axes.retention = .saved then
    modify fun s => s.putDefinition definitionId { current with axes := current.axes.publish h }
  else throw .projectionRequiresSaved

/-- `project_certified`. -/
def projectCertified (ownerUserId definitionId : String) : DefinitionM Unit := do
  let current ← owned ownerUserId definitionId
  if h : current.axes.publication = .published then
    modify fun s => s.putDefinition definitionId { current with axes := current.axes.certify h }
  else throw .certificationRequiresPublished

/-- `create_revision`. -/
def createRevision (now : String) (ownerUserId definitionId : String) : DefinitionM DefinitionVersion := do
  let current ← owned ownerUserId definitionId
  raiseIf (current.axes.confirmation ≠ .confirmed) .revisionRequiresConfirmed
  let revision := current.currentVersion.revision current.definitionId now
  modify fun s =>
    ((s.putDraft definitionId revision).putLifecycle definitionId revision.version {}).putDefinition definitionId
      { current with axes := {}, currentVersion := revision }
  pure revision

/-- The saved versions of a definition by their number, as `list_saved_versions` collects them: what the version map holds, then the
current version. -/
def savedVersions (s : DefinitionStore) (definitionId : String) (current : DefinitionVersion) : Dict Nat DefinitionVersion :=
  let isSaved (version : Nat) : Bool := ((s.lifecycle.get? (definitionId, version)).map (·.retention)) == some .saved
  let stored := (s.versions.entries.filter fun entry => entry.1.1 = definitionId ∧ isSaved entry.1.2).map fun entry => (entry.1.2, entry.2)
  let saved := Dict.ofList stored
  if isSaved current.version then saved.set current.version current else saved

/-- `list_saved_versions`. -/
def listSavedVersions (s : DefinitionStore) (ownerUserId definitionId : String) : Except DefinitionError (List DefinitionVersion) :=
  match s.definitions.get? definitionId with
  | none => .error .notFound
  | some definition =>
    if definition.ownerUserId.val ≠ ownerUserId then .error .notFound
    else
      let saved := s.savedVersions definitionId definition.currentVersion
      .ok ((saved.keys.insertionSort (· ≤ ·)).filterMap saved.get?)

end DefinitionStore

/-! ## Runs of the service -/

/-- One call on the service. -/
inductive DefinitionCall where
  | createDraft (newId : DefinitionId) (now : String) (ownerUserId title : String) (calculation : CalculationSpec)
      (parameterContract : Option ParameterContract)
  | updateDraft (ownerUserId definitionId : String) (calculation : Option CalculationSpec)
      (parameterContract : Option ParameterContract) (title : Option String)
  | markSemanticClosed (ownerUserId definitionId : String)
  | confirm (now : String) (ownerUserId definitionId : String)
  | save (ownerUserId definitionId : String)
  | createRevision (now : String) (ownerUserId definitionId : String)
  | createFork (newId : DefinitionId) (now : String) (ownerUserId title : String) (calculation : CalculationSpec)
      (sourceDefinitionId : String) (sourceVersion : Int)
  | projectPublished (ownerUserId definitionId : String) (version : Int)
  | projectCertified (ownerUserId definitionId : String)

/-- The server's part of the service: its digests, and which metrics are governed. -/
structure DefinitionServer where
  digests : DefinitionDigests
  isGovernedMetricKey : String → Except Unit Bool

namespace DefinitionCall

/-- The method a call runs. -/
def exec (server : DefinitionServer) : DefinitionCall → DefinitionM Unit
  | .createDraft newId now ownerUserId title calculation parameterContract =>
    discard (DefinitionStore.createDraft newId now ownerUserId title calculation parameterContract)
  | .updateDraft ownerUserId definitionId calculation parameterContract title =>
    discard (DefinitionStore.updateDraft server.digests ownerUserId definitionId calculation parameterContract title)
  | .markSemanticClosed ownerUserId definitionId =>
    discard (DefinitionStore.markSemanticClosed server.isGovernedMetricKey ownerUserId definitionId)
  | .confirm now ownerUserId definitionId => discard (DefinitionStore.confirm now ownerUserId definitionId)
  | .save ownerUserId definitionId => discard (DefinitionStore.save ownerUserId definitionId)
  | .createRevision now ownerUserId definitionId => discard (DefinitionStore.createRevision now ownerUserId definitionId)
  | .createFork newId now ownerUserId title calculation sourceDefinitionId sourceVersion =>
    discard (DefinitionStore.createFork newId now ownerUserId title calculation sourceDefinitionId sourceVersion)
  | .projectPublished ownerUserId definitionId version => DefinitionStore.projectPublished ownerUserId definitionId version
  | .projectCertified ownerUserId definitionId => DefinitionStore.projectCertified ownerUserId definitionId

/-- The identifier a call draws from `uuid4`. -/
def newId? : DefinitionCall → Option DefinitionId
  | .createDraft newId .. => some newId
  | .createFork newId .. => some newId
  | _ => none

/-- A call raises in a store. -/
def Raises (server : DefinitionServer) (call : DefinitionCall) (s : DefinitionStore) : Prop :=
  ∃ e s', (call.exec server).run s = .error e s'

end DefinitionCall

/-- The store after a call, whether it returned or raised. -/
def DefinitionStore.after (server : DefinitionServer) (s : DefinitionStore) (call : DefinitionCall) : DefinitionStore :=
  finalState ((call.exec server).run s)

/-- The store after a run of calls, those that raised left in the run. -/
def DefinitionStore.runCalls (server : DefinitionServer) (calls : List DefinitionCall) : DefinitionStore :=
  calls.foldl (DefinitionStore.after server) DefinitionStore.initial

end Nl2Sql
