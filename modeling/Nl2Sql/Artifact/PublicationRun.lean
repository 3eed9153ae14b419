import Nl2Sql.Artifact.PublicationStore
import Nl2Sql.Lib.Transactions

/-!
# Concurrent publications

Calls of `publish` as transactions under READ COMMITTED, one statement at a time. A statement reads what is committed when it begins, and
what its own transaction wrote. An INSERT of a version waits for a transaction that has the same key uncommitted. The pointer statement
first reads the title; then, once no other transaction has the pointer row, it is evaluated on what is committed. Locks are held until
the transaction ends. A transaction may be aborted at any time, by an error that a statement raises or from outside.
-/

namespace Nl2Sql

open Py

/-- How far a call of `publish` is. -/
inductive PublishStage where
  | begun
  /-- its version was not there -/
  | absent
  /-- its identity had versions, at the first reading and at the second -/
  | listed
  | relisted
  /-- the pointer as it was read -/
  | pointed (current : Int)
  /-- the current version it is compared with -/
  | decided (current : Option Int)
  /-- its row is inserted -/
  | inserted (current : Option Int)
  /-- the pointer statement has read the title -/
  | titled (title : String)
  /-- the pointer statement is done: the row it wrote, if it wrote one -/
  | upserted (pointer : Option IdentityRow)
  | committed
  | aborted

/-- A call of `publish`: its argument, and `now()` of its transaction. -/
structure PublishTxn where
  item : PublishedVersion
  now : Int
  stage : PublishStage

namespace PublishTxn

variable (db : ControlDatabase) (txn : PublishTxn)

/-- The primary key of the version. -/
def key : String × Int := (txn.item.identityId, txn.item.version)

/-- The transaction at another stage. -/
def at_ (stage : PublishStage) : PublishTxn := { txn with stage := stage }

/-- The row of the version. -/
def row : VersionRow := versionRow db txn.now txn.item

/-- The tables as the transaction sees them after it inserted its row. -/
def view (tables : PublicationTables) : PublicationTables := { tables with versions := tables.versions.set txn.key (txn.row db) }

/-- It has a key uncommitted. -/
def holdsKey (txn : PublishTxn) (key : String × Int) : Prop :=
  txn.key = key ∧ ((∃ current, txn.stage = .inserted current) ∨ (∃ title, txn.stage = .titled title) ∨ ∃ row, txn.stage = .upserted row)

/-- It has the pointer row of an identity. -/
def holdsPointer (txn : PublishTxn) (identityId : String) : Prop :=
  txn.item.identityId = identityId ∧ ∃ row, txn.stage = .upserted row

/-- Its title was read before other transactions committed theirs: it is the title of a pointer row that is new. -/
def pointerRow (tables : PublicationTables) (title : String) : Except PublicationError (Option IdentityRow) :=
  ((txn.view db tables).pointerRow txn.item.identityId txn.item.title txn.item.version).map fun written =>
    written.map fun row => if (tables.identities.get? txn.item.identityId).isNone then { row with title := title } else row

end PublishTxn

abbrev PublishWorld : Type := World PublicationTables PublishTxn

/-- One statement of a transaction, its commit or its abort. -/
inductive PublishAdvance (db : ControlDatabase) (w : PublishWorld) (i : Nat) : PublicationTables → PublishTxn → Prop
  | readVersion (hstage : (w.txns i).stage = .begun)
      (hread : w.shared.readVersion db (w.txns i).item.identityId (w.txns i).item.version = .ok none)
      (hsemantic : (w.txns i).item.semantic ≠ none) : PublishAdvance db w i w.shared ((w.txns i).at_ .absent)
  | readNone (hstage : (w.txns i).stage = .absent) (hread : w.shared.readVersions db (w.txns i).item.identityId = .ok []) :
      PublishAdvance db w i w.shared ((w.txns i).at_ (.decided none))
  | readVersions (hstage : (w.txns i).stage = .absent) {versions : List PublishedVersion}
      (hread : w.shared.readVersions db (w.txns i).item.identityId = .ok versions) (hsome : versions ≠ []) :
      PublishAdvance db w i w.shared ((w.txns i).at_ .listed)
  | readAgain (hstage : (w.txns i).stage = .listed) {versions : List PublishedVersion}
      (hread : w.shared.readVersions db (w.txns i).item.identityId = .ok versions) (hsome : versions ≠ []) :
      PublishAdvance db w i w.shared ((w.txns i).at_ .relisted)
  | readPointer (hstage : (w.txns i).stage = .relisted) {current : Int}
      (hread : w.shared.readPointer (w.txns i).item.identityId = .ok (some current)) :
      PublishAdvance db w i w.shared ((w.txns i).at_ (.pointed current))
  | readCurrent {current : Int} (hstage : (w.txns i).stage = .pointed current) {version : PublishedVersion}
      (hread : w.shared.readVersion db (w.txns i).item.identityId current = .ok (some version)) :
      PublishAdvance db w i w.shared ((w.txns i).at_ (.decided (some current)))
  | insert {current : Option Int} (hstage : (w.txns i).stage = .decided current)
      (hfree : w.Free PublishTxn.holdsKey i (w.txns i).key) {tables : PublicationTables}
      (hinsert : w.shared.insertVersion db (w.txns i).now (w.txns i).item = .ok tables) :
      PublishAdvance db w i w.shared ((w.txns i).at_ (.inserted current))
  | readTitle {current : Option Int} (hstage : (w.txns i).stage = .inserted current)
      (hcurrent : ∀ n ∈ current, n < (w.txns i).item.version) :
      PublishAdvance db w i w.shared ((w.txns i).at_
        (.titled ((PublicationTables.firstTitle (((w.txns i).view db w.shared).rowsOf (w.txns i).item.identityId)).getD
          (w.txns i).item.title)))
  | upsert {title : String} (hstage : (w.txns i).stage = .titled title)
      (hfree : w.Free PublishTxn.holdsPointer i (w.txns i).item.identityId) {pointer : Option IdentityRow}
      (hpointer : (w.txns i).pointerRow db w.shared title = .ok pointer) :
      PublishAdvance db w i w.shared ((w.txns i).at_ (.upserted pointer))
  | commitHistorical {current : Int} (hstage : (w.txns i).stage = .inserted (some current))
      (hcurrent : (w.txns i).item.version ≤ current) :
      PublishAdvance db w i ((w.txns i).view db w.shared) ((w.txns i).at_ .committed)
  | commitCurrent {pointer : Option IdentityRow} (hstage : (w.txns i).stage = .upserted pointer) :
      PublishAdvance db w i (((w.txns i).view db w.shared).withPointer (w.txns i).item.identityId pointer) ((w.txns i).at_ .committed)
  | abort (hstage : (w.txns i).stage ≠ .committed) : PublishAdvance db w i w.shared ((w.txns i).at_ .aborted)

/-- Calls of `publish` on an empty catalogue, none of which has begun. -/
def PublishWorld.initial (calls : Nat → PublishedVersion × Int) : PublishWorld :=
  ⟨{}, fun i => ⟨(calls i).1, (calls i).2, .begun⟩⟩

/-- A call that has published its version. -/
def PublishWorld.Published (w : PublishWorld) (i : Nat) : Prop := (w.txns i).stage = .committed

/-- The versions of an identity that are published. -/
def PublishWorld.publishedVersions (w : PublishWorld) (identityId : String) : Set Int :=
  { n | ∃ i, w.Published i ∧ (w.txns i).item.identityId = identityId ∧ (w.txns i).item.version = n }

end Nl2Sql
