import Nl2Sql.Artifact.Publication
import Nl2Sql.Lib.Writable

/-!
# Personal conflicts

`semantic/personal_conflict_contract.py` and `semantic/personal_conflict_service.py`: the candidates that a user has for one request, each
with the exact semantics it stands for, are compared, and where more than one identity and version is left, the user chooses. A digest is
of a text, and a checksum is raised where its JSON text cannot be written.
-/

namespace Nl2Sql.Personal

open Py

/-! ## Errors -/

/-- Why a `PersonalConflictServiceError` is raised. -/
inductive ServiceCode where
  | notSavedConfirmed | ownerMissing | semanticsUnavailable | limitExceeded | semanticMismatch | idDuplicate
  | conflictMissing | conflictMismatch | slotMismatch | candidateMismatch
  deriving DecidableEq, Repr

/-- The code of a `PersonalConflictServiceError`. -/
def ServiceCode.text : ServiceCode → String
  | .notSavedConfirmed => "personal_candidate_not_saved_confirmed"
  | .ownerMissing => "personal_candidate_owner_missing"
  | .semanticsUnavailable => "personal_candidate_semantics_unavailable"
  | .limitExceeded => "personal_candidate_limit_exceeded"
  | .semanticMismatch => "personal_candidate_identity_semantic_mismatch"
  | .idDuplicate => "personal_candidate_id_duplicate"
  | .conflictMissing => "personal_selection_conflict_missing"
  | .conflictMismatch => "personal_selection_conflict_mismatch"
  | .slotMismatch => "personal_selection_slot_mismatch"
  | .candidateMismatch => "personal_selection_candidate_mismatch"

/-- What the comparison raises: its own error, the `ValidationError` of a model, the `ValueError` of an integer of too many digits, or a
`KeyError`. -/
inductive ConflictError where
  | service (code : ServiceCode)
  | validation | tooManyDigits | keyError
  deriving DecidableEq, Repr

/-- A value that a model has accepted. -/
def orInvalid {α : Type} : Option α → Except ConflictError α
  | some a => .ok a
  | none => .error .validation

/-- A text within its bounds. -/
def bounded? (low high : Nat) (s : String) : Option (BoundedText low high) :=
  if h : low ≤ s.length ∧ s.length ≤ high then some ⟨s, h⟩ else none

/-- `_canonical_json`. -/
def canonicalJson (payload : Json) : Except ConflictError String :=
  if payload.writable then .ok payload.dumps else .error .tooManyDigits

/-- `_checksum`. -/
def checksum (sha256 : String → Sha256) (payload : Json) : Except ConflictError Sha256 := sha256 <$> canonicalJson payload

/-- The checksum a parameter contract has: it holds no integer. -/
def contractChecksum (sha256 : String → Sha256) (contract : ParameterContract) : Sha256 := sha256 contract.toJson.dumps

/-! ## The contract -/

inductive CandidateKind where
  | savedCustomDefinition | installedPublishedMetric | installedDerivative | independentlyPublishedMetric
  deriving DecidableEq, Repr

def CandidateKind.text : CandidateKind → String
  | .savedCustomDefinition => "saved_custom_definition"
  | .installedPublishedMetric => "installed_published_metric"
  | .installedDerivative => "installed_derivative"
  | .independentlyPublishedMetric => "independently_published_metric"

inductive CandidateOrigin where
  | own | installed
  deriving DecidableEq, Repr

inductive CertificationState where
  | unknown | uncertified | certified
  deriving DecidableEq, Repr

inductive MaterialDifferenceKind where
  | unit | nullSemantics | population | grain | scope | timeSemantics | dimension | numeratorDenominator | deduplication
  | formulaVersionLineage | parameterContract | provenance
  deriving DecidableEq, Repr

inductive SelectionScope where
  | runScoped | persisted
  deriving DecidableEq, Repr

/-- An exact version. -/
abbrev Version : Type := { n : Nat // 1 ≤ n }

/-- The identity of one candidate, with what is shown of it. -/
structure PersonalCandidateRef where
  candidateId : BoundedText 1 128
  kind : CandidateKind
  origin : CandidateOrigin
  definitionId : BoundedText 1 128
  definitionVersion : Version
  displayName : BoundedText 1 256
  ownerLabel : Option (BoundedText 0 128) := none
  sourceLabel : Option (BoundedText 0 256) := none
  certificationState : CertificationState := .unknown
  starCount : Nat := 0
  deriving DecidableEq

namespace PersonalCandidateRef

/-- `identity`: what deduplication goes by. -/
def identity (reference : PersonalCandidateRef) : String × Nat := (reference.definitionId.val, reference.definitionVersion.val)

/-- What the checksum of the identity is of. -/
def identityPayload (reference : PersonalCandidateRef) : Json :=
  .obj [("definition_id", .str reference.definitionId.val), ("definition_version", .int reference.definitionVersion.val),
    ("kind", .str reference.kind.text)]

/-- `identity_checksum`. -/
def identityChecksum (sha256 : String → Sha256) (reference : PersonalCandidateRef) : Except ConflictError Sha256 :=
  checksum sha256 reference.identityPayload

end PersonalCandidateRef

/-- One typed difference between candidates. -/
structure MaterialDifference where
  kind : MaterialDifferenceKind
  summary : BoundedText 1 512
  riskNote : Option (BoundedText 0 512)
  candidateIds : List String
  length_candidateIds : 1 ≤ candidateIds.length ∧ candidateIds.length ≤ 8
  deriving DecidableEq

/-- A difference, if the model accepts it. -/
def MaterialDifference.of? (kind : MaterialDifferenceKind) (summary riskNote : String) (candidateIds : List String) :
    Option MaterialDifference := do
  let summary ← bounded? 1 512 summary
  let riskNote ← bounded? 0 512 riskNote
  if h : 1 ≤ candidateIds.length ∧ candidateIds.length ≤ 8 then return ⟨kind, summary, some riskNote, candidateIds, h⟩ else none

/-- What is presented where the user chooses. -/
structure SemanticConflict where
  conflictId : BoundedText 1 128
  requiredSlot : BoundedText 1 64
  candidates : List PersonalCandidateRef
  differences : List MaterialDifference
  length_candidates : 2 ≤ candidates.length ∧ candidates.length ≤ 16
  length_differences : differences.length ≤ 16
  nodup_ids : (candidates.map (·.candidateId.val)).Nodup
  nodup_identities : (candidates.map (·.identity)).Nodup
  known : ∀ difference ∈ differences, ∀ candidateId ∈ difference.candidateIds, candidateId ∈ candidates.map (·.candidateId.val)

/-- A conflict, if the model accepts it. -/
def SemanticConflict.of? (conflictId requiredSlot : String) (candidates : List PersonalCandidateRef) (differences : List MaterialDifference) :
    Option SemanticConflict := do
  let conflictId ← bounded? 1 128 conflictId
  let requiredSlot ← bounded? 1 64 requiredSlot
  if h : (2 ≤ candidates.length ∧ candidates.length ≤ 16) ∧ differences.length ≤ 16 ∧ (candidates.map (·.candidateId.val)).Nodup ∧
      (candidates.map (·.identity)).Nodup ∧
      ∀ difference ∈ differences, ∀ candidateId ∈ difference.candidateIds, candidateId ∈ candidates.map (·.candidateId.val) then
    return ⟨conflictId, requiredSlot, candidates, differences, h.1, h.2.1, h.2.2.1, h.2.2.2.1, h.2.2.2.2⟩
  else none

/-- An explicit choice of a user. -/
structure PersonalSelection where
  conflictId : BoundedText 1 128
  requiredSlot : BoundedText 1 64
  selectedCandidateId : BoundedText 1 128
  selectionScope : SelectionScope := .runScoped
  explicitUserRequest : Bool := false
  persisted_explicit : selectionScope = .persisted → explicitUserRequest = true := by decide
  deriving DecidableEq

inductive ResolutionOutcome where
  | resolved | clarificationRequired | noAuthoritativeDefinition
  deriving DecidableEq, Repr

/-- `SemanticResolution`. -/
structure SemanticResolution where
  outcome : ResolutionOutcome
  unresolvedSlots : List String
  length_slots : unresolvedSlots.length ≤ 16
  slots_non_blank : ∀ slot ∈ unresolvedSlots, isBlank slot = false
  slots_unique : unresolvedSlots.Nodup
  resolved_closed : outcome = .resolved → unresolvedSlots = []

/-- A resolution, if the model accepts it. -/
def SemanticResolution.of? (outcome : ResolutionOutcome) (unresolvedSlots : List String) : Option SemanticResolution :=
  if h : unresolvedSlots.length ≤ 16 ∧ (∀ slot ∈ unresolvedSlots, isBlank slot = false) ∧ unresolvedSlots.Nodup ∧
      (outcome = .resolved → unresolvedSlots = []) then
    some ⟨outcome, unresolvedSlots, h.1, h.2.1, h.2.2.1, h.2.2.2⟩
  else none

/-- One turn of the loop of `deduplicate_candidates`: the candidates kept so far. -/
def keepCandidate (kept : List PersonalCandidateRef) (candidate : PersonalCandidateRef) : List PersonalCandidateRef :=
  if candidate.identity ∈ kept.map (·.identity) then kept else kept ++ [candidate]

/-- `deduplicate_candidates`: the identities seen are those of the candidates kept. -/
def deduplicateCandidates (candidates : List PersonalCandidateRef) : List PersonalCandidateRef := candidates.foldl keepCandidate []

/-- `"conflict-" + _checksum([c.identity_checksum for c in deduped])[:32]`. -/
def conflictIdOf (sha256 : String → Sha256) (candidates : List PersonalCandidateRef) : Except ConflictError String := do
  let checksums ← candidates.mapM (·.identityChecksum sha256)
  let digest ← checksum sha256 (.arr (checksums.map fun checksum => .str checksum.val))
  return "conflict-" ++ String.ofList (digest.val.toList.take 32)

/-- `resolve_personal_conflict`. -/
def resolvePersonalConflict (sha256 : String → Sha256) (candidates : List PersonalCandidateRef) (requiredSlot : String)
    (differences : List MaterialDifference) : Except ConflictError (SemanticResolution × Option SemanticConflict) :=
  match deduplicateCandidates candidates with
  | [] => do return (← orInvalid (SemanticResolution.of? .noAuthoritativeDefinition []), none)
  | [_] => do return (← orInvalid (SemanticResolution.of? .resolved []), none)
  | deduped => do
    let conflictId ← conflictIdOf sha256 deduped
    let conflict ← orInvalid (SemanticConflict.of? conflictId requiredSlot deduped differences)
    let resolution ← orInvalid (SemanticResolution.of? .clarificationRequired [requiredSlot])
    return (resolution, some conflict)

/-! ## Candidates with their semantics -/

/-- Where a candidate comes from. -/
structure CandidateLineage where
  identityId : BoundedText 1 128
  version : Version
  derivedFromIdentity : Option (BoundedText 0 128) := none
  derivedFromVersion : Option Version := none
  sourceDefinitionId : BoundedText 1 128
  sourceDefinitionVersion : Version
  sourceDefinitionChecksum : Sha256
  derived_pair : derivedFromIdentity.isNone = derivedFromVersion.isNone
  deriving DecidableEq

/-- `model_dump(mode="json")` of a lineage. -/
def CandidateLineage.toJson (lineage : CandidateLineage) : Json :=
  .obj [("identity_id", .str lineage.identityId.val), ("version", .int lineage.version.val),
    ("derived_from_identity", nullableToJson (fun text => .str text.val) lineage.derivedFromIdentity),
    ("derived_from_version", nullableToJson (fun version => .int version.val) lineage.derivedFromVersion),
    ("source_definition_id", .str lineage.sourceDefinitionId.val), ("source_definition_version", .int lineage.sourceDefinitionVersion.val),
    ("source_definition_checksum", .str lineage.sourceDefinitionChecksum.val)]

/-- A candidate with the exact package it stands for. -/
structure ProjectedPersonalCandidate where
  reference : PersonalCandidateRef
  lineage : CandidateLineage
  calculation : CalculationSpec
  parameterContract : ParameterContract
  identity_eq : reference.definitionId.val = lineage.identityId.val
  version_eq : reference.definitionVersion = lineage.version
  kind_of_own : reference.origin = .own ↔ reference.kind = .savedCustomDefinition
  coherent : parameterContract.parameters = calculation.parameters

namespace ProjectedPersonalCandidate

/-- `_semantic_checksum`, which a candidate carries: a package holds no integer but a precision. -/
def semanticChecksum (sha256 : String → Sha256) (candidate : ProjectedPersonalCandidate) : Sha256 :=
  sha256 (Json.obj [("calculation", candidate.calculation.toJson), ("parameter_contract", candidate.parameterContract.toJson)]).dumps

/-- The unit of the result. -/
def unit (candidate : ProjectedPersonalCandidate) : UnitPolicy × Option { s : String // isCustomUnitId s = true } :=
  (candidate.calculation.unit, candidate.calculation.customUnitId)

/-- The declared inputs, as JSON. -/
def inputContract (candidate : ProjectedPersonalCandidate) : Json := .arr (candidate.calculation.inputs.map CalculationInputSpec.toJson)

/-- The expression and the policy of its value, as JSON. -/
def formulaShape (candidate : ProjectedPersonalCandidate) : Json :=
  .obj [("expression", candidate.calculation.expression.toJson),
    ("precision", nullableToJson (fun p => .int p.val) candidate.calculation.precision),
    ("rounding", nullableToJson (fun r => .str (literalText roundingLiterals r)) candidate.calculation.rounding)]

end ProjectedPersonalCandidate

/-- A row of the comparison that is shown. -/
structure ConflictComparisonCandidate where
  candidateId : BoundedText 1 128
  displayName : BoundedText 1 256
  origin : CandidateOrigin
  ownerLabel : Option (BoundedText 0 128)
  sourceLabel : Option (BoundedText 0 256)
  certificationState : CertificationState
  starCount : Nat
  lineage : CandidateLineage
  semanticChecksum : Sha256
  materialDifferenceKinds : List MaterialDifferenceKind
  length_kinds : materialDifferenceKinds.length ≤ 16

/-- The rows of a comparison. -/
structure ConflictComparison where
  conflictId : BoundedText 1 128
  requiredSlot : BoundedText 1 64
  candidates : List ConflictComparisonCandidate
  length_candidates : 2 ≤ candidates.length ∧ candidates.length ≤ 16
  nodup_ids : (candidates.map (·.candidateId.val)).Nodup

/-- A comparison, if the model accepts it. -/
def ConflictComparison.of? (conflictId : BoundedText 1 128) (requiredSlot : BoundedText 1 64) (candidates : List ConflictComparisonCandidate) :
    Option ConflictComparison :=
  if h : (2 ≤ candidates.length ∧ candidates.length ≤ 16) ∧ (candidates.map (·.candidateId.val)).Nodup then
    some ⟨conflictId, requiredSlot, candidates, h.1, h.2⟩
  else none

/-- The answer: a resolution, the conflict and its comparison where the user must choose, and the candidate that the user has chosen. -/
structure PersonalConflictProjection where
  resolution : SemanticResolution
  semanticConflict : Option SemanticConflict := none
  conflictComparison : Option ConflictComparison := none
  selectedCandidateId : Option (BoundedText 1 128) := none
  selectedDefinitionId : Option (BoundedText 1 128) := none
  selectedVersion : Option Version := none
  conflict_iff : resolution.outcome = .clarificationRequired ↔ semanticConflict.isSome = true
  comparison_iff : resolution.outcome = .clarificationRequired ↔ conflictComparison.isSome = true

/-- A projection without a choice, if the model accepts it. -/
def PersonalConflictProjection.of? (resolution : SemanticResolution) (semanticConflict : Option SemanticConflict)
    (conflictComparison : Option ConflictComparison) : Option PersonalConflictProjection :=
  if h : (resolution.outcome = .clarificationRequired ↔ semanticConflict.isSome = true) ∧
      (resolution.outcome = .clarificationRequired ↔ conflictComparison.isSome = true) then
    some { resolution, semanticConflict, conflictComparison, conflict_iff := h.1, comparison_iff := h.2 }
  else none

/-! ## The comparison -/

section Compare

variable (sha256 : String → Sha256)

/-- `semantic_by_identity.setdefault(...)`, and the check after it. -/
def checkSemantics (semanticByIdentity : Dict (String × Nat) Sha256) (candidate : ProjectedPersonalCandidate) :
    Except ConflictError (Dict (String × Nat) Sha256) :=
  let identity := candidate.reference.identity
  match semanticByIdentity.get? identity with
  | none => .ok (semanticByIdentity.set identity (candidate.semanticChecksum sha256))
  | some previous =>
    if previous ≠ candidate.semanticChecksum sha256 then .error (.service .semanticMismatch) else .ok semanticByIdentity

/-- `len({...}) > 1`. -/
def manyValues {α : Type} [DecidableEq α] (values : List α) : Bool := 1 < (fromKeys values).length

/-- `if many: differences.append(MaterialDifference(...))`. -/
def differenceIf (many : Bool) (kind : MaterialDifferenceKind) (summary riskNote : String) (candidateIds : List String) :
    Except ConflictError (List MaterialDifference) := do
  if many then return [← orInvalid (MaterialDifference.of? kind summary riskNote candidateIds)] else return []

/-- `_material_differences`. -/
def materialDifferences (candidates : List ProjectedPersonalCandidate) : Except ConflictError (List MaterialDifference) := do
  if candidates.length < 2 then return []
  let candidateIds := candidates.map (·.reference.candidateId.val)
  let units ← differenceIf (manyValues (candidates.map (·.unit))) .unit "Candidates declare different result units."
    "Values with different units are not interchangeable." candidateIds
  let parameterContracts ← differenceIf (manyValues (candidates.map fun item => contractChecksum sha256 item.parameterContract))
    .parameterContract "Candidates declare different parameter contracts."
    "A run binding valid for one candidate may be invalid for another." candidateIds
  let inputContracts ← candidates.mapM fun item => canonicalJson item.inputContract
  let provenance ← differenceIf (manyValues inputContracts) .provenance
    "Candidates require different metric identities or provenance." "The candidates are bound to different governed inputs." candidateIds
  let formulaShapes ← candidates.mapM fun item => canonicalJson item.formulaShape
  let lineages ← candidates.mapM fun item => canonicalJson item.lineage.toJson
  let formula ← differenceIf (manyValues formulaShapes || manyValues lineages) .formulaVersionLineage
    "Candidates have different formula semantics or version lineage." "The user must choose the intended reusable definition." candidateIds
  return units ++ parameterContracts ++ provenance ++ formula

/-- The row of one presented candidate. -/
def comparisonRow (byId : Dict String ProjectedPersonalCandidate) (differences : List MaterialDifference) (reference : PersonalCandidateRef) :
    Except ConflictError ConflictComparisonCandidate := do
  match byId.get? reference.candidateId.val with
  | none => throw .keyError
  | some candidate =>
    let kinds := fromKeys ((differences.filter fun difference => reference.candidateId.val ∈ difference.candidateIds).map (·.kind))
    if h : kinds.length ≤ 16 then
      return {
        candidateId := reference.candidateId
        displayName := reference.displayName
        origin := reference.origin
        ownerLabel := reference.ownerLabel
        sourceLabel := reference.sourceLabel
        certificationState := reference.certificationState
        starCount := reference.starCount
        lineage := candidate.lineage
        semanticChecksum := candidate.semanticChecksum sha256
        materialDifferenceKinds := kinds
        length_kinds := h }
    else throw .validation

/-- `resolve_personal_candidate_conflict`. -/
def resolvePersonalCandidateConflict (candidates : List ProjectedPersonalCandidate) (requiredSlot : String) :
    Except ConflictError PersonalConflictProjection := do
  if 16 < candidates.length then throw (.service .limitExceeded)
  let _ ← candidates.foldlM (checkSemantics sha256) Dict.empty
  if ¬ (candidates.map (·.reference.candidateId.val)).Nodup then throw (.service .idDuplicate)
  let differences ← materialDifferences sha256 candidates
  let (resolution, conflict) ← resolvePersonalConflict sha256 (candidates.map (·.reference)) requiredSlot differences
  match conflict with
  | none => orInvalid (PersonalConflictProjection.of? resolution none none)
  | some conflict =>
    let byId := Dict.ofList (candidates.map fun item => (item.reference.candidateId.val, item))
    let rows ← conflict.candidates.mapM (comparisonRow sha256 byId conflict.differences)
    let comparison ← orInvalid (ConflictComparison.of? conflict.conflictId conflict.requiredSlot rows)
    orInvalid (PersonalConflictProjection.of? resolution (some conflict) (some comparison))

/-- `validate_personal_selection`. -/
def validatePersonalSelection (selection : PersonalSelection) (projection : PersonalConflictProjection) :
    Except ConflictError PersonalSelection :=
  match projection.semanticConflict with
  | none => .error (.service .conflictMissing)
  | some conflict =>
    if selection.conflictId ≠ conflict.conflictId then .error (.service .conflictMismatch)
    else if selection.requiredSlot ≠ conflict.requiredSlot then .error (.service .slotMismatch)
    else if selection.selectedCandidateId ∉ conflict.candidates.map (·.candidateId) then .error (.service .candidateMismatch)
    else .ok selection

/-! ## Projections -/

/-- A version from 1 on. -/
def version? (n : Int) : Option Version := if h : 1 ≤ n then some ⟨n.toNat, one_le_toNat h⟩ else none

/-- A field that may be null, where the model accepts it. -/
def optional? {α β : Type} (read : α → Option β) : Option α → Option (Option β)
  | none => some none
  | some a => (read a).map some

/-- A lineage, if the model accepts it. -/
def CandidateLineage.of? (identityId : String) (version : Int) (derivedFromIdentity : Option String) (derivedFromVersion : Option Int)
    (sourceDefinitionId : String) (sourceDefinitionVersion : Int) (sourceDefinitionChecksum : String) : Option CandidateLineage := do
  let identityId ← bounded? 1 128 identityId
  let version ← version? version
  let derivedFromIdentity ← optional? (bounded? 0 128) derivedFromIdentity
  let derivedFromVersion ← optional? version? derivedFromVersion
  let sourceDefinitionId ← bounded? 1 128 sourceDefinitionId
  let sourceDefinitionVersion ← version? sourceDefinitionVersion
  if hsum : isSha256 sourceDefinitionChecksum = true then
    if h : derivedFromIdentity.isNone = derivedFromVersion.isNone then
      return ⟨identityId, version, derivedFromIdentity, derivedFromVersion, sourceDefinitionId, sourceDefinitionVersion,
        ⟨sourceDefinitionChecksum, hsum⟩, h⟩
    else none
  else none

/-- A reference, if the model accepts it. -/
def PersonalCandidateRef.of? (candidateId : String) (kind : CandidateKind) (origin : CandidateOrigin) (definitionId : String)
    (definitionVersion : Int) (displayName : String) (ownerLabel sourceLabel : Option String) (certificationState : CertificationState)
    (starCount : Nat) : Option PersonalCandidateRef := do
  return {
    candidateId := ← bounded? 1 128 candidateId
    kind
    origin
    definitionId := ← bounded? 1 128 definitionId
    definitionVersion := ← version? definitionVersion
    displayName := ← bounded? 1 256 displayName
    ownerLabel := ← optional? (bounded? 0 128) ownerLabel
    sourceLabel := ← optional? (bounded? 0 256) sourceLabel
    certificationState
    starCount }

/-- `_candidate`, if the model accepts it. -/
def candidate? (reference : PersonalCandidateRef) (lineage : CandidateLineage) (calculation : CalculationSpec)
    (parameterContract : ParameterContract) : Option ProjectedPersonalCandidate :=
  if h : reference.definitionId.val = lineage.identityId.val ∧ reference.definitionVersion = lineage.version ∧
      (reference.origin = .own ↔ reference.kind = .savedCustomDefinition) ∧ parameterContract.parameters = calculation.parameters then
    some ⟨reference, lineage, calculation, parameterContract, h.1, h.2.1, h.2.2.1, h.2.2.2⟩
  else none

/-- `_candidate_id`. -/
def candidateIdOf (label identity : String) (version : Int) : Except ConflictError String := do
  let digest ← checksum sha256 (.arr [.str identity, .int version])
  return "candidate-" ++ label ++ "-" ++ String.ofList (digest.val.toList.take 32)

/-- `DefinitionVersion.checksum`. -/
def versionChecksum (version : DefinitionVersion) : Except ConflictError Sha256 :=
  checksum sha256 (.obj [("schema_version", .str "1.0"), ("definition_id", .str version.definitionId.val), ("version", .int version.version),
    ("calculation_spec_checksum", .str (version.calculation.dumpChecksum sha256).val),
    ("parameter_contract_checksum", .str (contractChecksum sha256 version.parameterContract).val), ("title", .str version.title.val),
    ("semantic_closed", .bool version.semanticClosed),
    ("derived_from_definition_id", nullableToJson (fun id => .str id.val) version.derivedFromDefinitionId),
    ("derived_from_version", nullableToJson (fun n => .int n.val) version.derivedFromVersion)])

/-- `project_own_saved_candidate`, with the defaults of its last three arguments. -/
def projectOwnSavedCandidate (version : DefinitionVersion) (lifecycle : DefinitionVersionLifecycle) (ownerUserId : String)
    (ownerLabel : Option String) : Except ConflictError ProjectedPersonalCandidate := do
  if lifecycle.retention ≠ .saved ∨ lifecycle.confirmation ≠ .confirmed then throw (.service .notSavedConfirmed)
  if isBlank ownerUserId then throw (.service .ownerMissing)
  let sourceChecksum ← versionChecksum sha256 version
  let lineage ← orInvalid (CandidateLineage.of? version.definitionId.val version.version (version.derivedFromDefinitionId.map (·.val))
    (version.derivedFromVersion.map fun n => n.val) version.definitionId.val version.version sourceChecksum.val)
  let candidateId ← candidateIdOf sha256 "own" version.definitionId.val version.version
  let label := (ownerLabel.filter (· ≠ "")).getD ownerUserId
  let reference ← orInvalid (PersonalCandidateRef.of? candidateId .savedCustomDefinition .own version.definitionId.val version.version
    version.title.val (some label) (some "Own saved custom definition") .uncertified 0)
  orInvalid (candidate? reference lineage version.calculation version.parameterContract)

/-- `project_installed_published_candidate`. -/
def projectInstalledPublishedCandidate (published : PublishedVersion) (certificationState : CertificationState) (starCount : Nat) :
    Except ConflictError ProjectedPersonalCandidate := do
  match published.semantic with
  | none => throw (.service .semanticsUnavailable)
  | some semantic =>
    let lineage ← orInvalid (CandidateLineage.of? published.identityId published.version published.derivedFromIdentity
      published.derivedFromVersion semantic.sourceDefinitionId semantic.sourceDefinitionVersion semantic.sourceDefinitionChecksum)
    let candidateId ← candidateIdOf sha256 "installed" published.identityId published.version
    let kind := if published.derivedFromIdentity.isSome then .installedDerivative else .installedPublishedMetric
    let reference ← orInvalid (PersonalCandidateRef.of? candidateId kind .installed published.identityId published.version published.title
      (some published.ownerLabel) (some published.sourceLabel) certificationState starCount)
    orInvalid (candidate? reference lineage semantic.calculation semantic.parameterContract)

end Compare

end Nl2Sql.Personal
