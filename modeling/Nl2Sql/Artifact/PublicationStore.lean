import Nl2Sql.Artifact.Publication

/-!
# The publication tables

`artifacts/publication_control_store.py` over the publication tables of `005_product_artifacts.sql`. A statement reads or writes the
tables, and a constraint, a trigger or a value that a column cannot hold refuses it. A call is a transaction: what it wrote before it
raised is rolled back. What the database does with JSON values and how it orders texts comes from outside.
-/

namespace Nl2Sql

open Py Json

/-- A row of `product_publication_versions`. -/
structure VersionRow where
  identityId : String
  version : Int
  title : String
  ownerUserId : String
  ownerLabel : String
  sourceLabel : String
  definitionChecksum : String
  publishedAt : String
  unit : String
  displayValue : Option String
  derivedFromIdentity : Option String
  derivedFromVersion : Option Int
  semantic : Option Json
  certification : String
  certifiedBy : Option String
  withdrawn : Bool
  /-- `now()`: when the transaction began -/
  createdAt : Int

/-- A row of `product_publication_identities`: the explicit current pointer. -/
structure IdentityRow where
  title : String
  currentVersion : Int
  deriving DecidableEq, Repr

/-- The tables, by their primary keys. -/
structure PublicationTables where
  versions : Dict (String × Int) VersionRow := .empty
  identities : Dict String IdentityRow := .empty

/-- What the code relies on of the database. -/
structure ControlDatabase where
  co : PackageCoercions
  /-- what a `jsonb` column gives back -/
  jsonb : Json → Json
  /-- the order of `ORDER BY` on a text, by the collation of the database -/
  collate : String → String → Bool

/-- A text column holds no NUL. -/
def storableText (s : String) : Bool := s.toList.all fun c => c ≠ '\x00'

/-- An INTEGER column holds 32 bits. -/
def storableInteger (n : Int) : Bool := decide (-2147483648 ≤ n ∧ n ≤ 2147483647)

/-- A value that a column cannot hold. -/
def dataError : PublicationError := .database "data_exception"

/-- The columns of a version can hold it. -/
def storableItem (item : PublishedVersion) : Bool :=
  storableText item.identityId && storableInteger item.version && storableText item.title && storableText item.ownerUserId &&
    storableText item.ownerLabel && storableText item.sourceLabel && storableText item.definitionChecksum &&
    storableText item.publishedAt && storableText item.unit && item.value.all storableText && item.derivedFromIdentity.all storableText &&
    item.derivedFromVersion.all storableInteger && item.semantic.all fun package => (semanticPayload package).texts.all storableText

section Statements

variable (db : ControlDatabase)

/-- `_version`. -/
def decodeVersion (row : VersionRow) : Except PublicationError PublishedVersion :=
  match semanticPackage db.co row.semantic with
  | .error _ => .error .integrity
  | .ok semantic =>
    .ok
      { identityId := row.identityId
        version := row.version
        title := row.title
        ownerUserId := row.ownerUserId
        ownerLabel := row.ownerLabel
        sourceLabel := row.sourceLabel
        definitionChecksum := row.definitionChecksum
        publishedAt := row.publishedAt
        unit := row.unit
        value := row.displayValue
        derivedFromIdentity := row.derivedFromIdentity
        derivedFromVersion := row.derivedFromVersion
        semantic := semantic }

/-- The row an INSERT of a version writes. -/
def versionRow (now : Int) (item : PublishedVersion) : VersionRow where
  identityId := item.identityId
  version := item.version
  title := item.title
  ownerUserId := item.ownerUserId
  ownerLabel := item.ownerLabel
  sourceLabel := item.sourceLabel
  definitionChecksum := item.definitionChecksum
  publishedAt := item.publishedAt
  unit := item.unit
  displayValue := item.value
  derivedFromIdentity := item.derivedFromIdentity
  derivedFromVersion := item.derivedFromVersion
  semantic := item.semantic.map fun package => db.jsonb (semanticPayload package)
  certification := "uncertified"
  certifiedBy := none
  withdrawn := false
  createdAt := now

end Statements

/-- `btrim(identity_id) = ''`. -/
def isBlankIdentity (identityId : String) : Bool := identityId.toList.all (· == ' ')

/-- The first CHECK of `product_publication_versions` that a row breaks. -/
def versionCheck (row : VersionRow) : Option String :=
  if isBlankIdentity row.identityId then some "product_publication_identity_not_blank"
  else if row.version < 1 then some "product_publication_version_positive"
  else if row.derivedFromIdentity.isSome ≠ row.derivedFromVersion.isSome then some "product_publication_derivation_complete"
  else if row.certification ≠ "uncertified" ∧ row.certification ≠ "certified" then some "product_publication_certification_known"
  else if (row.certification = "certified") ≠ (row.certifiedBy.isSome = true) then some "product_publication_certification_provenance"
  else none

/-- The trigger `product_publication_guard_version`: whether an UPDATE changes what is immutable. A `jsonb` value is compared by its text. -/
def guardVersion (old new : VersionRow) : Bool :=
  new.identityId ≠ old.identityId || new.version ≠ old.version || new.title ≠ old.title || new.ownerUserId ≠ old.ownerUserId ||
    new.ownerLabel ≠ old.ownerLabel || new.sourceLabel ≠ old.sourceLabel || new.definitionChecksum ≠ old.definitionChecksum ||
    new.publishedAt ≠ old.publishedAt || new.unit ≠ old.unit || new.displayValue ≠ old.displayValue ||
    new.derivedFromIdentity ≠ old.derivedFromIdentity || new.derivedFromVersion ≠ old.derivedFromVersion ||
    new.semantic.map Json.dumps ≠ old.semantic.map Json.dumps

/-- The trigger `product_publication_guard_pointer`: whether an UPDATE moves the pointer back. -/
def guardPointer (old new : IdentityRow) : Bool := new.currentVersion < old.currentVersion

namespace PublicationTables

variable (db : ControlDatabase) (t : PublicationTables)

variable (identityId : String)

/-- The rows of an identity. -/
def rowsOf : List VersionRow := (t.versions.entries.filter fun entry => entry.1.1 = identityId).map Prod.snd

/-- `_read_version`. -/
def readVersion (version : Int) : Except PublicationError (Option PublishedVersion) :=
  if ¬ (storableText identityId = true ∧ storableInteger version = true) then .error dataError
  else
    match t.versions.get? (identityId, version) with
    | none => .ok none
    | some row => (decodeVersion db row).map some

/-- `_read_versions`: `ORDER BY version`. -/
def readVersions : Except PublicationError (List PublishedVersion) :=
  if storableText identityId = false then .error dataError
  else ((t.rowsOf identityId).insertionSort fun a b => a.version ≤ b.version).mapM (decodeVersion db)

/-- `_read_pointer`. -/
def readPointer : Except PublicationError (Option Int) :=
  if storableText identityId = false then .error dataError else .ok ((t.identities.get? identityId).map (·.currentVersion))

/-- `_current_version_in`. -/
def currentVersionIn : Except PublicationError Int := do
  let existing ← t.readVersions db identityId
  if existing.isEmpty then .error (.lookup "publication_identity_not_found")
  else do
    let pointer ← t.readPointer identityId
    match pointer with
    | none => .error (.lookup "publication_current_version_unbound")
    | some current =>
      match t.readVersion db identityId current with
      | .error e => .error e
      | .ok none => .error (.lookup currentVersionInvalid)
      | .ok (some _) => .ok current

/-- `_insert_version`. -/
def insertVersion (now : Int) (item : PublishedVersion) : Except PublicationError PublicationTables :=
  if storableItem item = false then .error dataError
  else
    match versionCheck (versionRow db now item) with
    | some constraint => .error (.database constraint)
    | none =>
      if (t.versions.get? (item.identityId, item.version)).isSome then .error (.database "product_publication_versions_pkey")
      else .ok { t with versions := t.versions.set (item.identityId, item.version) (versionRow db now item) }

/-- The earlier of two rows: `ORDER BY created_at, version`. -/
def earlier (a b : VersionRow) : VersionRow :=
  if b.createdAt < a.createdAt ∨ (b.createdAt = a.createdAt ∧ b.version < a.version) then b else a

/-- The title of the earliest row: `LIMIT 1`. -/
def firstTitle : List VersionRow → Option String
  | [] => none
  | row :: rest => some (rest.foldl earlier row).title

/-- The row that the pointer statement writes: none where it leaves the pointer as it is. -/
def pointerRow (identityId title : String) (version : Int) : Except PublicationError (Option IdentityRow) :=
  if version < 1 then .error (.database "product_publication_current_positive")
  else
    match t.identities.get? identityId with
    | none =>
      if (t.versions.get? (identityId, version)).isNone then .error (.database "product_publication_current_exists")
      else .ok (some { title := (firstTitle (t.rowsOf identityId)).getD title, currentVersion := version })
    | some row =>
      if row.currentVersion < version then
        if guardPointer row { row with currentVersion := version } then .error (.database "publication_current_version_regression")
        else if (t.versions.get? (identityId, version)).isNone then .error (.database "product_publication_current_exists")
        else .ok (some { row with currentVersion := version })
      else .ok none

/-- The pointer of an identity is this row, or is left. -/
def withPointer : Option IdentityRow → PublicationTables
  | none => t
  | some row => { t with identities := t.identities.set identityId row }

/-- `_write_pointer`. -/
def writePointer (identityId title : String) (version : Int) : Except PublicationError PublicationTables :=
  (t.pointerRow identityId title version).map fun row => t.withPointer identityId row

/-- The pointer a `seed` that is to be current writes, if it writes one. -/
def seedPointer (item : PublishedVersion) : Except PublicationError (Option Int) := do
  let existing ← t.readVersions db item.identityId
  if existing.isEmpty then do
    let pointer ← t.readPointer item.identityId
    if pointer.isSome then .error (.value currentVersionInvalid) else .ok (some item.version)
  else do
    let current ← t.currentVersionIn db item.identityId
    if item.version < current then .error currentVersionRegression
    else .ok (if current < item.version then some item.version else none)

/-- `if pointer is not None`. -/
def writePointer? (item : PublishedVersion) (pointer : Option Int) : Except PublicationError PublicationTables :=
  match pointer with
  | none => .ok t
  | some version => t.writePointer item.identityId item.title version

/-- The pointer a `seed` writes, if it writes one. -/
def seedPointer? (item : PublishedVersion) (current : Bool) : Except PublicationError (Option Int) :=
  if current then t.seedPointer db item else .ok none

/-- `if existing is None`. -/
def insertMissing (now : Int) (item : PublishedVersion) (existing : Option PublishedVersion) : Except PublicationError PublicationTables :=
  if existing.isNone then t.insertVersion db now item else .ok t

/-- `seed`. -/
def seed (now : Int) (item : PublishedVersion) (current : Bool) : Except PublicationError PublicationTables := do
  let existing ← t.readVersion db item.identityId item.version
  if PublicationCatalogue.conflicts item existing then .error seedRefuses
  else do
    let pointer ← t.seedPointer? db item current
    let t' ← t.insertMissing db now item existing
    t'.writePointer? item pointer

/-- The current version a publication is compared with: none where the identity has no versions. -/
def publishCurrent (item : PublishedVersion) : Except PublicationError (Option Int) := do
  let existing ← t.readVersions db item.identityId
  if existing.isEmpty then .ok none else (t.currentVersionIn db item.identityId).map some

/-- A publisher of a version that is there already is refused as it is: `_is_duplicate_version`. -/
def asImmutable : Except PublicationError PublicationTables → Except PublicationError PublicationTables
  | .error (.database "product_publication_versions_pkey") => .error versionImmutable
  | r => r

/-- `publish`. -/
def publish (now : Int) (item : PublishedVersion) : Except PublicationError PublicationTables := do
  let existing ← t.readVersion db item.identityId item.version
  if existing.isSome then .error versionImmutable
  else if item.semantic.isNone then .error semanticRequired
  else do
    let current ← t.publishCurrent db item
    let t' ← asImmutable (t.insertVersion db now item)
    if current.all (· < item.version) then t'.writePointer item.identityId item.title item.version else .ok t'

/-- An UPDATE of the row of a version: the trigger, then the CHECKs. -/
def updateVersion (version : Int) (update : VersionRow → VersionRow) : Except PublicationError PublicationTables :=
  match t.versions.get? (identityId, version) with
  | none => .ok t
  | some row =>
    if guardVersion row (update row) then .error (.database "published_version_is_immutable")
    else
      match versionCheck (update row) with
      | some constraint => .error (.database constraint)
      | none => .ok { t with versions := t.versions.set (identityId, version) (update row) }

/-- `certify_local_demo`. -/
def certifyLocalDemo (version : Int) (certifiedBy : String) : Except PublicationError PublicationTables := do
  let existing ← t.readVersion db identityId version
  if existing.isNone then .error versionNotFound
  else if storableText certifiedBy = false then .error dataError
  else t.updateVersion identityId version fun row => { row with certification := "certified", certifiedBy := some certifiedBy }

/-- `withdraw`. -/
def withdraw (version : Int) : Except PublicationError PublicationTables := do
  let existing ← t.readVersion db identityId version
  if existing.isNone then .error versionNotFound
  else t.updateVersion identityId version fun row => { row with withdrawn := true }

/-- `identities`: `SELECT DISTINCT identity_id ... ORDER BY identity_id`. -/
def identityNames : List String :=
  (fromKeys (t.versions.entries.map fun entry => entry.1.1)).insertionSort fun a b => db.collate a b

/-- A column of a version, read by its key. -/
def readColumn {α : Type} (identityId : String) (version : Int) (column : VersionRow → α) : Except PublicationError (Option α) :=
  if ¬ (storableText identityId = true ∧ storableInteger version = true) then .error dataError
  else .ok ((t.versions.get? (identityId, version)).map column)

/-- `title`. -/
def readTitle : Except PublicationError String :=
  if storableText identityId = false then .error dataError else .ok ((firstTitle (t.rowsOf identityId)).getD identityId)

/-- A call on a `ControlPublicationCatalogue` whose transaction begins at a time: the tables and what it returns, or what it raises and
the tables are as before. -/
def call (now : Int) : PublicationCall → Except PublicationError (PublicationTables × PublicationAnswer)
  | .seed item current => (t.seed db now item current).map fun t' => (t', .item item)
  | .publish item => (t.publish db now item).map fun t' => (t', .item item)
  | .certifyLocalDemo identityId version by_ => (t.certifyLocalDemo db identityId version by_).map fun t' => (t', .done)
  | .withdraw identityId version => (t.withdraw db identityId version).map fun t' => (t', .done)
  | .get identityId version => (t.readVersion db identityId version).map fun item => (t, .found item)
  | .versions identityId => (t.readVersions db identityId).map fun items => (t, .items items)
  | .identities => .ok (t, .names (t.identityNames db))
  | .currentVersion identityId => (t.currentVersionIn db identityId).map fun n => (t, .number n)
  | .title identityId => (t.readTitle identityId).map fun title => (t, .text title)
  | .certificationState identityId version =>
    (t.readColumn identityId version (·.certification)).map fun state => (t, .text (state.getD "uncertified"))
  | .certifiedBy identityId version => (t.readColumn identityId version (·.certifiedBy)).map fun name => (t, .optionalText name.join)
  | .isWithdrawn identityId version => (t.readColumn identityId version (·.withdrawn)).map fun flag => (t, .flag (flag.getD false))

end PublicationTables

end Nl2Sql
