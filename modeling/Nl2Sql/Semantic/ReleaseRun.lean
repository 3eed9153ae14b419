import Nl2Sql.Lib.Transactions
import Nl2Sql.Semantic.Materialize

/-!
# Concurrent releases

Calls of `publish_candidate` and `rollback` of `ControlSemanticReleasePublisher` as transactions under READ COMMITTED, one statement at a
time, over the tables of `002_semantic_registry.sql` and `004_semantic_registry_v3.sql`. A statement reads what is committed when it begins,
and what its own transaction wrote. The pointer row is locked until the transaction ends; a statement that writes a release waits for
nobody, so that it goes on at least as often as in the database. A version comes from a sequence, and is used up whether or not the
transaction commits. A transaction may be aborted at any time, by an error that a statement raises or from outside.
-/

namespace Nl2Sql

open Py

/-- A row of `schema_snapshots`. -/
structure SchemaSnapshotRow where
  checksum : String
  state : SchemaSnapshotState

/-- A row of `semantic_releases`. -/
structure ReleaseRow where
  version : Int
  checksum : String
  state : SemanticReleaseState
  previousReleaseId : Option String
  deriving DecidableEq, Repr

/-- An activation that is committed: the release that became active, the one that its transaction found active, whether it was a
publication, and the transaction. -/
structure Activation where
  releaseId : String
  found : Option String
  published : Bool
  txn : Nat
  deriving DecidableEq, Repr

/-- What is committed. A migration has inserted the pointer row. No statement reads the activations: they are the history, the last one
first. -/
structure ReleaseTables where
  releases : Dict String ReleaseRow := .empty
  pointer : Option String := none
  /-- `semantic_release_version_seq` -/
  nextVersion : Int := 1
  activations : List Activation := []

/-- What a statement may raise. -/
inductive ReleaseError where
  | semanticRelease (message : String)
  | database (constraint : String)
  deriving DecidableEq, Repr

/-- `_validate_schema_snapshot_binding`. -/
def validateSchemaSnapshotBinding (snapshots : Dict String SchemaSnapshotRow) (candidate : Authoring.SemanticReleaseCandidate) :
    Except ReleaseError Unit :=
  match candidate.schemaSnapshotId with
  | none => .ok ()
  | some snapshotId =>
    match snapshots.get? snapshotId with
    | none => .error (.semanticRelease "semantic release schema snapshot does not exist")
    | some row =>
      if row.state ≠ .validated then .error (.semanticRelease "semantic release schema snapshot is not validated")
      else if candidate.schemaSnapshotChecksum ≠ some row.checksum then
        .error (.semanticRelease "semantic release schema snapshot checksum mismatch")
      else .ok ()

section Statements

variable (rows : Dict String ReleaseRow) (releaseId : String)

/-- The constraint of `semantic_releases` that a row breaks, its primary key apart. -/
def releaseConstraint (row : ReleaseRow) : Option String :=
  let others := (rows.entries.filter fun entry => entry.1 ≠ releaseId).map Prod.snd
  if others.any fun other => other.version = row.version then some "semantic_releases_version_key"
  else if others.any fun other => other.checksum = row.checksum then some "semantic_releases_checksum_key"
  else if row.state = .active ∧ others.any fun other => other.state = .active then some "semantic_releases_one_active"
  else if row.previousReleaseId.any fun previous => previous ≠ releaseId ∧ (rows.get? previous).isNone then
    some "semantic_releases_previous_release_id_fkey"
  else none

/-- The row that the INSERT of a release writes. -/
def insertRelease (row : ReleaseRow) : Except ReleaseError ReleaseRow :=
  if (rows.get? releaseId).isSome then .error (.database "semantic_releases_pkey")
  else
    match releaseConstraint rows releaseId row with
    | some constraint => .error (.database constraint)
    | none => .ok row

/-- The row that `UPDATE semantic_releases SET state = ...` writes: none where no row meets its condition. -/
def updateState (condition : ReleaseRow → Bool) (state : SemanticReleaseState) : Except ReleaseError (Option ReleaseRow) :=
  match rows.get? releaseId with
  | none => .ok none
  | some row =>
    if condition row = false then .ok none
    else
      match releaseConstraint rows releaseId { row with state := state } with
      | some constraint => .error (.database constraint)
      | none => .ok (some { row with state := state })

/-- The checks of the target of a `rollback`. -/
def rollbackTarget : Except ReleaseError ReleaseRow :=
  match rows.get? releaseId with
  | none => .error (.semanticRelease "rollback target does not exist")
  | some target =>
    if target.state ≠ .retired ∧ target.state ≠ .validated then
      .error (.semanticRelease "rollback target must be retired or validated")
    else .ok target

/-- The UPDATE of the pointer row. -/
def movePointer : Except ReleaseError String :=
  if (rows.get? releaseId).isNone then .error (.database "semantic_release_pointers_release_id_fkey") else .ok releaseId

end Statements

/-- A call: a candidate that is accepted with the `uuid4()` it gets, or a release to go back to. -/
inductive ReleaseCall where
  | publishCandidate (releaseId : String) (candidate : Authoring.SemanticReleaseCandidate)
  | rollback (releaseId : String)

/-- The release that a call makes active. -/
def ReleaseCall.releaseId : ReleaseCall → String
  | .publishCandidate releaseId _ => releaseId
  | .rollback releaseId => releaseId

/-- Whether a call publishes a release. -/
def ReleaseCall.isPublication : ReleaseCall → Bool
  | .publishCandidate _ _ => true
  | .rollback _ => false

/-- How far a call is. -/
inductive ReleaseStage where
  | begun
  /-- the schema snapshot is validated -/
  | bound
  /-- the pointer row is there -/
  | ensured
  /-- the pointer row is locked -/
  | locked
  | numbered (version : Int)
  | inserted
  /-- the documents, assets, aliases, edges and issues are inserted -/
  | persisted
  /-- the target of a `rollback` is locked and checked -/
  | targeted
  | retired
  | activated
  | moved
  | committed
  | aborted

/-- Whether the pointer row is locked at a stage. -/
def ReleaseStage.isLocked : ReleaseStage → Bool
  | .locked | .numbered _ | .inserted | .persisted | .targeted | .retired | .activated | .moved => true
  | _ => false

/-- A call, the release it found active, and the rows of `semantic_releases` it wrote. -/
structure ReleaseTxn where
  call : ReleaseCall
  stage : ReleaseStage := .begun
  active : Option String := none
  writes : List (String × ReleaseRow) := []

namespace ReleaseTxn

variable (txn : ReleaseTxn)

/-- The transaction at another stage. -/
def at_ (stage : ReleaseStage) : ReleaseTxn := { txn with stage := stage }

/-- The transaction after it wrote a row, if it wrote one. -/
def write (releaseId : String) : Option ReleaseRow → ReleaseTxn
  | none => txn
  | some row => { txn with writes := txn.writes ++ [(releaseId, row)] }

/-- The releases as the transaction sees them. -/
def view (tables : ReleaseTables) : Dict String ReleaseRow := tables.releases.update txn.writes

/-- It has the pointer row. -/
def holdsPointer (txn : ReleaseTxn) (_ : Unit) : Prop := txn.stage.isLocked = true

end ReleaseTxn

abbrev ReleaseWorld : Type := World ReleaseTables ReleaseTxn

/-- The largest number of a `BIGINT` sequence. -/
def maxSequence : Int := 9223372036854775807

/-- One statement of a transaction, its commit or its abort. -/
inductive ReleaseAdvance (w : ReleaseWorld) (i : Nat) : ReleaseTables → ReleaseTxn → Prop
  | bind (hstage : (w.txns i).stage = .begun) {releaseId : String} {candidate : Authoring.SemanticReleaseCandidate}
      (hcall : (w.txns i).call = .publishCandidate releaseId candidate) (snapshots : Dict String SchemaSnapshotRow)
      (hbound : validateSchemaSnapshotBinding snapshots candidate = .ok ()) : ReleaseAdvance w i w.shared ((w.txns i).at_ .bound)
  | ensureBound (hstage : (w.txns i).stage = .bound) : ReleaseAdvance w i w.shared ((w.txns i).at_ .ensured)
  | ensureRollback (hstage : (w.txns i).stage = .begun) {releaseId : String} (hcall : (w.txns i).call = .rollback releaseId) :
      ReleaseAdvance w i w.shared ((w.txns i).at_ .ensured)
  | lock (hstage : (w.txns i).stage = .ensured) (hfree : w.Free ReleaseTxn.holdsPointer i ()) :
      ReleaseAdvance w i w.shared { (w.txns i).at_ .locked with active := w.shared.pointer }
  | number (hstage : (w.txns i).stage = .locked) (hcall : (w.txns i).call.isPublication = true)
      (hmax : w.shared.nextVersion ≤ maxSequence) :
      ReleaseAdvance w i { w.shared with nextVersion := w.shared.nextVersion + 1 } ((w.txns i).at_ (.numbered w.shared.nextVersion))
  | insert {version : Int} (hstage : (w.txns i).stage = .numbered version) {releaseId : String} {candidate : Authoring.SemanticReleaseCandidate}
      (hcall : (w.txns i).call = .publishCandidate releaseId candidate) {row : ReleaseRow}
      (hinsert : insertRelease ((w.txns i).view w.shared) releaseId
        { version := version, checksum := candidate.checksum, state := .validated, previousReleaseId := (w.txns i).active } = .ok row) :
      ReleaseAdvance w i w.shared (((w.txns i).write releaseId (some row)).at_ .inserted)
  | persist (hstage : (w.txns i).stage = .inserted) : ReleaseAdvance w i w.shared ((w.txns i).at_ .persisted)
  | target (hstage : (w.txns i).stage = .locked) {releaseId : String} (hcall : (w.txns i).call = .rollback releaseId) {row : ReleaseRow}
      (htarget : rollbackTarget ((w.txns i).view w.shared) releaseId = .ok row) :
      ReleaseAdvance w i w.shared ((w.txns i).at_ .targeted)
  | retireNone (hstage : (w.txns i).stage = .persisted ∨ (w.txns i).stage = .targeted) (hactive : (w.txns i).active = none) :
      ReleaseAdvance w i w.shared ((w.txns i).at_ .retired)
  | retirePrevious (hstage : (w.txns i).stage = .persisted) {previous : String} (hactive : (w.txns i).active = some previous)
      {row : Option ReleaseRow} (hupdate : updateState ((w.txns i).view w.shared) previous (fun _ => true) .retired = .ok row) :
      ReleaseAdvance w i w.shared (((w.txns i).write previous row).at_ .retired)
  | retireActive (hstage : (w.txns i).stage = .targeted) {active : String} (hactive : (w.txns i).active = some active)
      {row : Option ReleaseRow}
      (hupdate : updateState ((w.txns i).view w.shared) active (fun row => row.state = .active) .retired = .ok row) :
      ReleaseAdvance w i w.shared (((w.txns i).write active row).at_ .retired)
  | activate (hstage : (w.txns i).stage = .retired) {row : Option ReleaseRow}
      (hupdate : updateState ((w.txns i).view w.shared) (w.txns i).call.releaseId (fun _ => true) .active = .ok row) :
      ReleaseAdvance w i w.shared (((w.txns i).write (w.txns i).call.releaseId row).at_ .activated)
  | move (hstage : (w.txns i).stage = .activated) {pointer : String}
      (hmove : movePointer ((w.txns i).view w.shared) (w.txns i).call.releaseId = .ok pointer) :
      ReleaseAdvance w i w.shared ((w.txns i).at_ .moved)
  | commit (hstage : (w.txns i).stage = .moved) :
      ReleaseAdvance w i
        { w.shared with
          releases := (w.txns i).view w.shared
          pointer := some (w.txns i).call.releaseId
          activations :=
            { releaseId := (w.txns i).call.releaseId
              found := (w.txns i).active
              published := (w.txns i).call.isPublication
              txn := i } :: w.shared.activations }
        ((w.txns i).at_ .committed)
  | abort (hstage : (w.txns i).stage ≠ .committed) : ReleaseAdvance w i w.shared ((w.txns i).at_ .aborted)

/-- Calls on the migrated database without releases, none of which has begun. -/
def ReleaseWorld.initial (calls : Nat → ReleaseCall) : ReleaseWorld := ⟨{}, fun i => { call := calls i }⟩

/-- A call that is committed. -/
def ReleaseWorld.Committed (w : ReleaseWorld) (i : Nat) : Prop := (w.txns i).stage = .committed

/-- The release that is active after some activations, the last one first. -/
def activeAfter (activations : List Activation) : Option String := activations.head?.map (·.releaseId)

end Nl2Sql
