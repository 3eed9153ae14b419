import Nl2Sql.Artifact.Definition
import Nl2Sql.Calculation.Dump
import Nl2Sql.Lib.DecimalText

/-!
# Published versions

`artifacts/publication.py`, with the JSON form of a package of `artifacts/publication_control_store.py`: a published version of a metric
identity with its reusable semantic package, and the process-local catalogue of them. Models are equal in Python's sense when their
fields are, and decimals when they are the same number.
-/

namespace Nl2Sql

open Py Json

/-- The reusable semantics of one published version. -/
structure PublishedSemanticPackage where
  calculation : CalculationSpec
  parameterContract : ParameterContract
  sourceDefinitionId : String
  sourceDefinitionVersion : Int
  sourceDefinitionChecksum : String
  coherent : parameterContract.parameters = calculation.parameters

/-- `model_dump(mode="json")` of a parameter contract. -/
def ParameterContract.toJson (contract : ParameterContract) : Json :=
  .obj [("parameters", .arr (contract.parameters.map ParameterSpec.toJson))]

/-- `_semantic_payload`, as a JSON value. -/
def semanticPayload (package : PublishedSemanticPackage) : Json :=
  .obj [("calculation", package.calculation.toJson), ("parameter_contract", package.parameterContract.toJson),
    ("source_definition_id", .str package.sourceDefinitionId), ("source_definition_version", .int package.sourceDefinitionVersion),
    ("source_definition_checksum", .str package.sourceDefinitionChecksum)]

/-- What `str` and `int` make of a value of another JSON type. -/
structure PackageCoercions extends Coercions where
  str : Json → String
  integer : Json → Option Int

/-- `publication_semantic_package_incoherent`. -/
inductive PublicationIntegrityError where
  | incoherent
  deriving DecidableEq, Repr

section Read

variable (co : PackageCoercions)

/-- `ParameterContract.model_validate(..., strict=False)`. -/
def ParameterContract.ofJson? (j : Json) : Option ParameterContract := do
  let members ← fields? ["parameters"] j
  let parameters ← readDefault [] (readItems 0 32 (ParameterSpec.ofJson? co.toCoercions)) (member? "parameters" members)
  if h : parameters.length ≤ 32 then return ⟨parameters, h⟩ else none

/-- `str(value)`. -/
def strOf : Json → String
  | .str s => s
  | j => co.str j

/-- `int(value)`. -/
def intOf : Json → Option Int
  | .int n => some n
  | j => co.integer j

/-- The members of a JSON object. -/
def membersOf : Json → Option (List (String × Json))
  | .obj members => some members
  | _ => none

/-- The package a stored value decodes as. -/
def readPackage (raw : Json) : Option PublishedSemanticPackage := do
  let payload ← membersOf raw
  let calculation ← CalculationSpec.ofJson? co.toCoercions (← member? "calculation" payload)
  let parameterContract ← ParameterContract.ofJson? co (← member? "parameter_contract" payload)
  let sourceDefinitionId := strOf co (← member? "source_definition_id" payload)
  let sourceDefinitionVersion ← intOf co (← member? "source_definition_version" payload)
  let sourceDefinitionChecksum := strOf co (← member? "source_definition_checksum" payload)
  if h : parameterContract.parameters = calculation.parameters then
    return ⟨calculation, parameterContract, sourceDefinitionId, sourceDefinitionVersion, sourceDefinitionChecksum, h⟩
  else none

/-- `_semantic_package`. -/
def semanticPackage : Option Json → Except PublicationIntegrityError (Option PublishedSemanticPackage)
  | none => .ok none
  | some raw =>
    match readPackage co raw with
    | some package => .ok (some package)
    | none => .error .incoherent

end Read

/-! ## Versions -/

/-- One immutable published version of a metric identity. -/
structure PublishedVersion where
  identityId : String
  version : Int
  title : String
  ownerUserId : String
  ownerLabel : String
  sourceLabel : String
  definitionChecksum : String
  publishedAt : String
  unit : String := "ratio"
  value : Option String := none
  derivedFromIdentity : Option String := none
  derivedFromVersion : Option Int := none
  semantic : Option PublishedSemanticPackage := none

/-- A text of a decimal that equal numbers share. -/
def numberText (d : Decimal) : String := if d.coeff = 0 then "0" else d.plainText

/-- What equal specs share. -/
def CalculationSpec.key (spec : CalculationSpec) : String := (spec.dump numberText).dumps

/-- What equal packages share. -/
structure PackageKey where
  calculation : String
  parameters : List ParameterSpec
  sourceDefinitionId : String
  sourceDefinitionVersion : Int
  sourceDefinitionChecksum : String
  deriving DecidableEq

def PublishedSemanticPackage.key (package : PublishedSemanticPackage) : PackageKey where
  calculation := package.calculation.key
  parameters := package.parameterContract.parameters
  sourceDefinitionId := package.sourceDefinitionId
  sourceDefinitionVersion := package.sourceDefinitionVersion
  sourceDefinitionChecksum := package.sourceDefinitionChecksum

/-- What equal versions share. -/
structure VersionKey where
  identityId : String
  version : Int
  title : String
  ownerUserId : String
  ownerLabel : String
  sourceLabel : String
  definitionChecksum : String
  publishedAt : String
  unit : String
  value : Option String
  derivedFromIdentity : Option String
  derivedFromVersion : Option Int
  semantic : Option PackageKey
  deriving DecidableEq

/-- Versions with the same key are equal in Python's sense. -/
def PublishedVersion.key (item : PublishedVersion) : VersionKey where
  identityId := item.identityId
  version := item.version
  title := item.title
  ownerUserId := item.ownerUserId
  ownerLabel := item.ownerLabel
  sourceLabel := item.sourceLabel
  definitionChecksum := item.definitionChecksum
  publishedAt := item.publishedAt
  unit := item.unit
  value := item.value
  derivedFromIdentity := item.derivedFromIdentity
  derivedFromVersion := item.derivedFromVersion
  semantic := item.semantic.map PublishedSemanticPackage.key

/-- What a call of a catalogue may raise. -/
inductive PublicationError where
  | value (message : String)
  | lookup (message : String)
  /-- a stored row that does not decode -/
  | integrity
  /-- the database refuses a statement, by the name of a constraint or because of a value -/
  | database (reason : String)
  deriving DecidableEq, Repr

def seedRefuses : PublicationError := .value "seed refuses to overwrite an existing publication"

def currentVersionInvalid : String := "publication_current_version_invalid"

def currentVersionRegression : PublicationError := .value "publication_current_version_regression"

def versionImmutable : PublicationError := .value "published version is immutable"

def semanticRequired : PublicationError := .value "publication requires a semantic package"

def versionNotFound : PublicationError := .lookup "publication_version_not_found"

/-- A call of a catalogue. -/
inductive PublicationCall where
  | seed (item : PublishedVersion) (current : Bool)
  | publish (item : PublishedVersion)
  | certifyLocalDemo (identityId : String) (version : Int) (certifiedBy : String)
  | withdraw (identityId : String) (version : Int)
  | get (identityId : String) (version : Int)
  | versions (identityId : String)
  | identities
  | currentVersion (identityId : String)
  | title (identityId : String)
  | certificationState (identityId : String) (version : Int)
  | certifiedBy (identityId : String) (version : Int)
  | isWithdrawn (identityId : String) (version : Int)

/-- What a call returns. -/
inductive PublicationAnswer where
  | done
  | item (item : PublishedVersion)
  | found (item : Option PublishedVersion)
  | items (items : List PublishedVersion)
  | names (names : List String)
  | number (n : Int)
  | text (s : String)
  | optionalText (s : Option String)
  | flag (b : Bool)

/-! ## The process-local catalogue -/

/-- The state of a `PublicationCatalogue`. -/
structure PublicationCatalogue where
  versions : Dict (String × Int) PublishedVersion := .empty
  current : Dict String Int := .empty
  titles : Dict String String := .empty
  certification : Dict (String × Int) String := .empty
  certifiedBy : Dict (String × Int) String := .empty
  withdrawn : Dict (String × Int) Bool := .empty

namespace PublicationCatalogue

variable (s : PublicationCatalogue)

/-- `get`. -/
def get (identityId : String) (version : Int) : Option PublishedVersion := s.versions.get? (identityId, version)

/-- `versions`. -/
def versionsOf (identityId : String) : List PublishedVersion :=
  ((s.versions.entries.filter fun entry => entry.1.1 = identityId).map Prod.snd).insertionSort fun a b => a.version ≤ b.version

/-- `identities`. -/
def identities : List String := sortedStr (fromKeys (s.versions.entries.map fun entry => entry.1.1))

/-- `current_version`. -/
def currentVersion (identityId : String) : Except PublicationError Int :=
  if s.versionsOf identityId = [] then .error (.lookup "publication_identity_not_found")
  else
    match s.current.get? identityId with
    | none => .error (.lookup "publication_current_version_unbound")
    | some current =>
      match s.get identityId current with
      | none => .error (.lookup currentVersionInvalid)
      | some _ => .ok current

/-- `title`. -/
def title (identityId : String) : String := (s.titles.get? identityId).getD identityId

/-- `certification_state`. -/
def certificationState (identityId : String) (version : Int) : String := (s.certification.get? (identityId, version)).getD "uncertified"

/-- `is_withdrawn`. -/
def isWithdrawn (identityId : String) (version : Int) : Bool := (s.withdrawn.get? (identityId, version)).getD false

/-- `setdefault` of a title. -/
def titlesWith (item : PublishedVersion) : Dict String String :=
  match s.titles.get? item.identityId with
  | none => s.titles.set item.identityId item.title
  | some _ => s.titles

/-- The pointers after a `seed` that is to be current. -/
def seedPointers (item : PublishedVersion) : Except PublicationError (Dict String Int) :=
  if s.versionsOf item.identityId = [] then
    match s.current.get? item.identityId with
    | some _ => .error (.value currentVersionInvalid)
    | none => .ok (s.current.set item.identityId item.version)
  else do
    let current ← s.currentVersion item.identityId
    if item.version < current then .error currentVersionRegression
    else if current < item.version then .ok (s.current.set item.identityId item.version)
    else .ok s.current

/-- The pointers after a `seed`. -/
def seedCurrent (item : PublishedVersion) (current : Bool) : Except PublicationError (Dict String Int) :=
  if current then s.seedPointers item else .ok s.current

/-- Whether a version is there that is not equal to this one. -/
def conflicts (item : PublishedVersion) (existing : Option PublishedVersion) : Bool := existing.any fun e => e.key ≠ item.key

/-- `seed`. -/
def seed (item : PublishedVersion) (current : Bool) : Except PublicationError PublicationCatalogue :=
  if conflicts item (s.get item.identityId item.version) then .error seedRefuses
  else do
    let pointers ← s.seedCurrent item current
    .ok { s with
      versions := s.versions.set (item.identityId, item.version) item
      current := pointers
      titles := s.titlesWith item }

/-- The current version a publication is compared with: none where the identity has no versions. -/
def publishCurrent (item : PublishedVersion) : Except PublicationError (Option Int) :=
  if s.versionsOf item.identityId = [] then .ok none else (s.currentVersion item.identityId).map some

/-- `d.pop(key, None)`. -/
def pop {α : Type} (d : Dict (String × Int) α) (key : String × Int) : Dict (String × Int) α :=
  ⟨d.entries.filter fun entry => entry.1 ≠ key, (d.nodup.sublist (List.filter_sublist.map Prod.fst))⟩

/-- `publish`. -/
def publish (item : PublishedVersion) : Except PublicationError PublicationCatalogue :=
  if (s.get item.identityId item.version).isSome then .error versionImmutable
  else if item.semantic.isNone then .error semanticRequired
  else do
    let current ← s.publishCurrent item
    .ok
      { versions := s.versions.set (item.identityId, item.version) item
        titles := s.titlesWith item
        current := if current.all (· < item.version) then s.current.set item.identityId item.version else s.current
        certification := pop s.certification (item.identityId, item.version)
        certifiedBy := pop s.certifiedBy (item.identityId, item.version)
        withdrawn := pop s.withdrawn (item.identityId, item.version) }

/-- `certify_local_demo`. -/
def certifyLocalDemo (identityId : String) (version : Int) (certifiedBy : String) : Except PublicationError PublicationCatalogue :=
  if (s.get identityId version).isNone then .error versionNotFound
  else .ok { s with
    certification := s.certification.set (identityId, version) "certified"
    certifiedBy := s.certifiedBy.set (identityId, version) certifiedBy }

/-- `withdraw`. -/
def withdraw (identityId : String) (version : Int) : Except PublicationError PublicationCatalogue :=
  if (s.get identityId version).isNone then .error versionNotFound
  else .ok { s with withdrawn := s.withdrawn.set (identityId, version) true }

/-- A call on the catalogue: the state and what it returns, or what it raises, before it has written anything. -/
def call : PublicationCall → Except PublicationError (PublicationCatalogue × PublicationAnswer)
  | .seed item current => (s.seed item current).map fun s' => (s', .item item)
  | .publish item => (s.publish item).map fun s' => (s', .item item)
  | .certifyLocalDemo identityId version by_ => (s.certifyLocalDemo identityId version by_).map fun s' => (s', .done)
  | .withdraw identityId version => (s.withdraw identityId version).map fun s' => (s', .done)
  | .get identityId version => .ok (s, .found (s.get identityId version))
  | .versions identityId => .ok (s, .items (s.versionsOf identityId))
  | .identities => .ok (s, .names s.identities)
  | .currentVersion identityId => (s.currentVersion identityId).map fun n => (s, .number n)
  | .title identityId => .ok (s, .text (s.title identityId))
  | .certificationState identityId version => .ok (s, .text (s.certificationState identityId version))
  | .certifiedBy identityId version => .ok (s, .optionalText (s.certifiedBy.get? (identityId, version)))
  | .isWithdrawn identityId version => .ok (s, .flag (s.isWithdrawn identityId version))

end PublicationCatalogue

end Nl2Sql
