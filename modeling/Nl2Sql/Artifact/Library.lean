import Mathlib.Data.Finset.Card
import Nl2Sql.Lib.Serial

/-!
# Personal library

`artifacts/library.py` and `artifacts/library_control_store.py`: a user's installs, stars and acknowledged withdrawals over a catalogue
of published versions. The in-memory repository runs a call at once. The durable repository runs it as statements, each atomic, and the
statements of other calls may run in between; a stage of a call says what its statements have found so far. Version rows are never
deleted, so a version that was read is still there when a row refers to it.
-/

namespace Nl2Sql

open Py

/-- An exact version an install is pinned to. -/
structure InstalledMetricBinding where
  identityId : String
  version : Int
  pinned : Bool := true
  deriving DecidableEq, Repr

/-- The installs, the stars, the acknowledged withdrawals and what the catalogue has withdrawn. -/
structure LibraryState where
  withdrawn : Finset (String × Int)
  installs : String × String → Option InstalledMetricBinding
  stars : Finset (String × String)
  acknowledged : Finset (String × String × Int)

inductive LibraryCall where
  | install (userId identityId : String) (version : Int)
  | upgrade (userId identityId : String) (toVersion : Int)
  | uninstall (userId identityId : String)
  | star (userId identityId : String)
  | unstar (userId identityId : String)
  | acknowledgeWithdrawal (userId identityId : String) (version : Int)
  | withdraw (identityId : String) (version : Int)
  deriving DecidableEq, Repr

inductive LibraryError where
  | identityNotFound (code : String)
  /-- the catalogue's own `LookupError` -/
  | lookup (code : String)
  /-- a CHECK of a personal table -/
  | checkViolation (constraint : String)
  deriving DecidableEq, Repr

inductive LibraryResult where
  | bound (binding : InstalledMetricBinding)
  | done
  | count (n : Nat)
  | error (e : LibraryError)
  deriving DecidableEq, Repr

def libraryVersionNotFound : LibraryResult := .error (.identityNotFound "library_version_not_found")

def publicationWithdrawn : LibraryResult := .error (.identityNotFound "publication_withdrawn")

def libraryInstallRequired : LibraryResult := .error (.identityNotFound "library_install_required")

def upgradeRequiresNewerVersion : LibraryResult := .error (.identityNotFound "upgrade_requires_newer_version")

def libraryIdentityNotFound : LibraryResult := .error (.identityNotFound "library_identity_not_found")

def acknowledgementVersionMismatch : LibraryResult := .error (.identityNotFound "library_acknowledgement_version_mismatch")

def publicationVersionNotFound : LibraryResult := .error (.lookup "publication_version_not_found")

namespace LibraryState

variable (s : LibraryState)

variable (userId identityId : String)

/-- The install of a user and an identity is this version. -/
def withInstall (version : Int) : LibraryState :=
  { s with installs := Function.update s.installs (userId, identityId) (some { identityId, version }) }

def withoutInstall : LibraryState :=
  { s with installs := Function.update s.installs (userId, identityId) none }

def withStar : LibraryState := { s with stars := insert (userId, identityId) s.stars }

def withoutStar : LibraryState := { s with stars := s.stars.erase (userId, identityId) }

def withAcknowledged (version : Int) : LibraryState :=
  { s with acknowledged := insert (userId, identityId, version) s.acknowledged }

def withWithdrawn (identityId : String) (version : Int) : LibraryState := { s with withdrawn := insert (identityId, version) s.withdrawn }

/-- `star_count`. -/
def starCount (identityId : String) : Nat := (s.stars.filter fun star => star.2 = identityId).card

end LibraryState

section InMemory

variable (published : Finset (String × Int)) (s : LibraryState)

variable (userId identityId : String)

/-- `InMemoryLibraryRepository.install`. -/
def installInMemory (version : Int) : LibraryState × LibraryResult :=
  if (identityId, version) ∉ published then (s, libraryVersionNotFound)
  else if (identityId, version) ∈ s.withdrawn then (s, publicationWithdrawn)
  else (s.withInstall userId identityId version, .bound { identityId, version })

/-- `InMemoryLibraryRepository.upgrade`. -/
def upgradeInMemory (toVersion : Int) : LibraryState × LibraryResult :=
  match s.installs (userId, identityId) with
  | none => (s, libraryInstallRequired)
  | some binding =>
    if (identityId, toVersion) ∉ published then (s, libraryVersionNotFound)
    else if (identityId, toVersion) ∈ s.withdrawn then (s, publicationWithdrawn)
    else if toVersion ≤ binding.version then (s, upgradeRequiresNewerVersion)
    else installInMemory published s userId identityId toVersion

/-- `InMemoryLibraryRepository.star`. -/
def starInMemory : LibraryState × LibraryResult :=
  if ∀ p ∈ published, p.1 ≠ identityId then (s, libraryIdentityNotFound)
  else (s.withStar userId identityId, .count ((s.withStar userId identityId).starCount identityId))

/-- `InMemoryLibraryRepository.unstar`. -/
def unstarInMemory : LibraryState × LibraryResult :=
  (s.withoutStar userId identityId, .count ((s.withoutStar userId identityId).starCount identityId))

/-- `InMemoryLibraryRepository.acknowledge_withdrawal`. -/
def acknowledgeInMemory (version : Int) : LibraryState × LibraryResult :=
  match s.installs (userId, identityId) with
  | none => (s, libraryInstallRequired)
  | some binding =>
    if binding.version ≠ version then (s, acknowledgementVersionMismatch)
    else (s.withAcknowledged userId identityId version, .done)

/-- `PublicationCatalogue.withdraw`. -/
def withdrawInMemory (identityId : String) (version : Int) : LibraryState × LibraryResult :=
  if (identityId, version) ∉ published then (s, publicationVersionNotFound)
  else (s.withWithdrawn identityId version, .done)

/-- A call on the in-memory repository over the in-memory catalogue. -/
def inMemoryLibrary : LibraryCall → LibraryState × LibraryResult
  | .install userId identityId version => installInMemory published s userId identityId version
  | .upgrade userId identityId toVersion => upgradeInMemory published s userId identityId toVersion
  | .uninstall userId identityId => (s.withoutInstall userId identityId, .done)
  | .star userId identityId => starInMemory published s userId identityId
  | .unstar userId identityId => unstarInMemory s userId identityId
  | .acknowledgeWithdrawal userId identityId version => acknowledgeInMemory s userId identityId version
  | .withdraw identityId version => withdrawInMemory published s identityId version

end InMemory

/-- What a call's statements have found. -/
inductive LibraryStage where
  | start
  /-- `install` has read the version -/
  | found
  /-- and that it is not withdrawn -/
  | admitted
  /-- `upgrade` has read the install -/
  | held (binding : InstalledMetricBinding)
  /-- and the version -/
  | heldFound (binding : InstalledMetricBinding)
  /-- and that it is newer and not withdrawn: `install` comes next -/
  | installing
  /-- `star` has read that the identity has versions -/
  | listed
  /-- the star is written or deleted -/
  | counting
  /-- the guarded statement of `acknowledge_withdrawal` has written nothing -/
  | missed
  /-- `withdraw` has read the version -/
  | located
  | finished (result : LibraryResult)
  deriving DecidableEq, Repr

/-- `btrim(user_id) = ''`. -/
def isBlankUser (userId : String) : Bool := userId.toList.all (· == ' ')

section Statements

variable (published : Finset (String × Int))

/-- `catalogue.get` of a version that must be there. -/
def getStatement (identityId : String) (version : Int) (missing : LibraryResult) (next : LibraryStage) : LibraryStage :=
  if (identityId, version) ∈ published then next else .finished missing

/-- The upsert of `install`. -/
def upsertInstall (s : LibraryState) (userId identityId : String) (version : Int) : LibraryStage × LibraryState :=
  if isBlankUser userId then (.finished (.error (.checkViolation "product_library_install_user_not_blank")), s)
  else (.finished (.bound { identityId, version }), s.withInstall userId identityId version)

variable (userId identityId : String)

/-- The statements of `ControlLibraryRepository.install`, once its version is read. -/
def installStatement (version : Int) (stage : LibraryStage) (s : LibraryState) : LibraryStage × LibraryState :=
  match stage with
  | .found => (if (identityId, version) ∈ s.withdrawn then .finished publicationWithdrawn else .admitted, s)
  | .admitted => upsertInstall s userId identityId version
  | stage => (stage, s)

/-- The statements of `ControlLibraryRepository.upgrade`, with those of the `install` it ends in. -/
def upgradeStatement (toVersion : Int) (stage : LibraryStage) (s : LibraryState) :
    LibraryStage × LibraryState :=
  match stage with
  | .start =>
    (match s.installs (userId, identityId) with
      | none => .finished libraryInstallRequired
      | some binding => .held binding, s)
  | .held binding => (getStatement published identityId toVersion libraryVersionNotFound (.heldFound binding), s)
  | .heldFound binding =>
    (if (identityId, toVersion) ∈ s.withdrawn then .finished publicationWithdrawn
      else if toVersion ≤ binding.version then .finished upgradeRequiresNewerVersion
      else .installing, s)
  | .installing => (getStatement published identityId toVersion libraryVersionNotFound .found, s)
  | stage => installStatement userId identityId toVersion stage s

/-- The statements of `ControlLibraryRepository.star`. -/
def starStatement (stage : LibraryStage) (s : LibraryState) : LibraryStage × LibraryState :=
  match stage with
  | .start => (if ∀ p ∈ published, p.1 ≠ identityId then .finished libraryIdentityNotFound else .listed, s)
  | .listed =>
    if isBlankUser userId then (.finished (.error (.checkViolation "product_library_star_user_not_blank")), s)
    else (.counting, s.withStar userId identityId)
  | .counting => (.finished (.count (s.starCount identityId)), s)
  | stage => (stage, s)

/-- The statements of `ControlLibraryRepository.unstar`. -/
def unstarStatement (stage : LibraryStage) (s : LibraryState) : LibraryStage × LibraryState :=
  match stage with
  | .start => (.counting, s.withoutStar userId identityId)
  | .counting => (.finished (.count (s.starCount identityId)), s)
  | stage => (stage, s)

/-- The statements of `ControlLibraryRepository.acknowledge_withdrawal`. -/
def acknowledgeStatement (version : Int) (stage : LibraryStage) (s : LibraryState) :
    LibraryStage × LibraryState :=
  match stage with
  | .start =>
    if (s.installs (userId, identityId)).map (·.version) = some version then
      if isBlankUser userId then (.finished (.error (.checkViolation "product_library_ack_user_not_blank")), s)
      else (.finished .done, s.withAcknowledged userId identityId version)
    else (.missed, s)
  | .missed =>
    (.finished (if s.installs (userId, identityId) = none then libraryInstallRequired else acknowledgementVersionMismatch), s)
  | stage => (stage, s)

/-- The next statement of a call on the durable repository over the durable catalogue. -/
def libraryStatement (call : LibraryCall) (stage : LibraryStage) (s : LibraryState) : LibraryStage × LibraryState :=
  match call with
  | .install userId identityId version =>
    match stage with
    | .start => (getStatement published identityId version libraryVersionNotFound .found, s)
    | stage => installStatement userId identityId version stage s
  | .upgrade userId identityId toVersion => upgradeStatement published userId identityId toVersion stage s
  | .uninstall userId identityId =>
    match stage with
    | .start => (.finished .done, s.withoutInstall userId identityId)
    | stage => (stage, s)
  | .star userId identityId => starStatement published userId identityId stage s
  | .unstar userId identityId => unstarStatement userId identityId stage s
  | .acknowledgeWithdrawal userId identityId version => acknowledgeStatement userId identityId version stage s
  | .withdraw identityId version =>
    match stage with
    | .start => (getStatement published identityId version publicationVersionNotFound .located, s)
    | .located => (.finished .done, s.withWithdrawn identityId version)
    | stage => (stage, s)

end Statements

/-- Calls in progress on the durable repository. -/
structure LibraryRun where
  state : LibraryState
  stage : Nat → LibraryStage
  /-- the states in which the statements of a call ran -/
  seen : Nat → List LibraryState

namespace LibraryRun

def start (s : LibraryState) : LibraryRun := ⟨s, fun _ => .start, fun _ => []⟩

variable (published : Finset (String × Int)) (calls : List LibraryCall)

/-- A call in a stage runs its next statement. -/
def advance (run : LibraryRun) (i : Nat) (call : LibraryCall) : LibraryRun :=
  let next := libraryStatement published call (run.stage i) run.state
  { state := next.2
    stage := Function.update run.stage i next.1
    seen := Function.update run.seen i (run.seen i ++ [run.state]) }

/-- The call with this number runs its next statement, if it has one. -/
def step (run : LibraryRun) (i : Nat) : LibraryRun :=
  match calls[i]?, run.stage i with
  | none, _ => run
  | some _, .finished _ => run
  | some call, _ => run.advance published i call

/-- The calls run their statements in the order of a schedule. -/
def steps (run : LibraryRun) (schedule : List Nat) : LibraryRun := schedule.foldl (step published calls) run

/-- A call has its result. -/
def result (run : LibraryRun) (i : Nat) : Option LibraryResult :=
  match run.stage i with
  | .finished result => some result
  | _ => none

end LibraryRun

end Nl2Sql
