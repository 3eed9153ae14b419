import Nl2Sql.Artifact.PublicationRun
import Nl2Sql.Theorems.Catalogue

/-!
# Concurrent publications

Whatever the order of the statements of any number of publications, and whichever of them are aborted, each version is published once and
stays as it is, and the pointer of an identity is always at the greatest of its published versions.
-/

namespace Nl2Sql

open Py

namespace PublicationTables

/-- The pointer of an identity is at a version or beyond it. -/
def Reached (t : PublicationTables) (identityId : String) (version : Int) : Prop :=
  ∃ row, t.identities.get? identityId = some row ∧ version ≤ row.currentVersion

/-- What is stored stays, and no pointer moves back. -/
structure Ascends (t t' : PublicationTables) : Prop where
  versions : ∀ key row, t.versions.get? key = some row → t'.versions.get? key = some row
  pointers : ∀ identityId version, t.Reached identityId version → t'.Reached identityId version

theorem Ascends.refl (t : PublicationTables) : t.Ascends t := ⟨fun _ _ h => h, fun _ _ h => h⟩

theorem Ascends.trans {a b c : PublicationTables} (h : a.Ascends b) (h' : b.Ascends c) : a.Ascends c :=
  ⟨fun key row hrow => h'.versions key row (h.versions key row hrow),
    fun identityId version hreached => h'.pointers identityId version (h.pointers identityId version hreached)⟩

end PublicationTables

namespace PublishAux

variable {db : ControlDatabase} {w : PublishWorld} {i : Nat} {txn : PublishTxn} {tables : PublicationTables}

/-! ## What a transaction knows -/

/-- What a transaction knows of the pointer at its stage: the pointer it read or left has been reached, and the pointer it wrote is not
behind the one that is committed. -/
def Knows (tables : PublicationTables) (txn : PublishTxn) : Prop :=
  match txn.stage with
  | .pointed current => tables.Reached txn.item.identityId current
  | .decided (some current) => tables.Reached txn.item.identityId current
  | .inserted (some current) => tables.Reached txn.item.identityId current
  | .upserted none => tables.Reached txn.item.identityId txn.item.version
  | .upserted (some pointer) => pointer.currentVersion = txn.item.version ∧
      ∀ row, tables.identities.get? txn.item.identityId = some row → row.currentVersion ≤ txn.item.version
  | _ => True

/-- The invariant of a run. -/
structure Inv (db : ControlDatabase) (w : PublishWorld) : Prop where
  keys : w.Exclusive PublishTxn.holdsKey
  pointers : w.Exclusive PublishTxn.holdsPointer
  fresh : ∀ i, (w.txns i).holdsKey (w.txns i).key → w.shared.versions.get? (w.txns i).key = none
  rows : ∀ i, w.Published i → w.shared.versions.get? (w.txns i).key = some ((w.txns i).row db)
  stored : ∀ key row, w.shared.versions.get? key = some row → ∃ i, w.Published i ∧ (w.txns i).key = key
  once : ∀ i j, w.Published i → w.Published j → (w.txns i).key = (w.txns j).key → i = j
  named : ∀ identityId row, w.shared.identities.get? identityId = some row →
    ∃ version, w.shared.versions.get? (identityId, row.currentVersion) = some version
  reached : ∀ identityId version row, w.shared.versions.get? (identityId, version) = some row → w.shared.Reached identityId version
  knows : ∀ i, Knows w.shared (w.txns i)

theorem inv_initial (calls : Nat → PublishedVersion × Int) : Inv db (PublishWorld.initial calls) where
  keys i j k hi hj := by
    obtain ⟨-, ⟨_, h⟩ | ⟨_, h⟩ | ⟨_, h⟩⟩ := hi <;> nomatch h
  pointers i j k hi hj := by
    obtain ⟨-, _, h⟩ := hi
    nomatch h
  fresh i h := rfl
  rows i h := nomatch h
  stored key row h := nomatch h
  once i j h := nomatch h
  named identityId row h := nomatch h
  reached identityId version row h := nomatch h
  knows i := trivial

/-! ## What a statement finds -/

theorem readPointer_reached {identityId : String} {current : Int} (h : tables.readPointer identityId = .ok (some current)) :
    tables.Reached identityId current := by
  unfold PublicationTables.readPointer at h
  split at h
  · cases h
  · obtain ⟨row, hrow, hcurrent⟩ := Option.map_eq_some_iff.mp (Except.ok.inj h)
    exact ⟨row, hrow, hcurrent.ge⟩

theorem insertVersion_fresh {now : Int} {item : PublishedVersion} {next : PublicationTables}
    (h : tables.insertVersion db now item = .ok next) : tables.versions.get? (item.identityId, item.version) = none := by
  unfold PublicationTables.insertVersion at h
  split at h
  · cases h
  · split at h
    · cases h
    · split at h
      · cases h
      · rename_i hnone
        exact Option.not_isSome_iff_eq_none.mp hnone

/-- The pointer row that is written is at the version, ahead of the one that is there; where none is written, the one that is there is
at the version or beyond it. -/
theorem pointerRow_tables {identityId title : String} {version : Int} {pointer : Option IdentityRow}
    (h : tables.pointerRow identityId title version = .ok pointer) :
    (pointer = none ∧ tables.Reached identityId version) ∨ ∃ row, pointer = some row ∧ row.currentVersion = version ∧
      ∀ old, tables.identities.get? identityId = some old → old.currentVersion ≤ version := by
  unfold PublicationTables.pointerRow at h
  split at h
  · cases h
  · split at h
    · rename_i hnone
      split at h
      · cases h
      · refine .inr ⟨_, (Except.ok.inj h).symm, rfl, fun old hold => ?_⟩
        rw [hnone] at hold
        cases hold
    · rename_i row hrow
      split at h
      · rename_i hbehind
        split at h
        · cases h
        · split at h
          · cases h
          · refine .inr ⟨_, (Except.ok.inj h).symm, rfl, fun old hold => ?_⟩
            obtain rfl := Option.some.inj (hrow.symm.trans hold)
            exact hbehind.le
      · rename_i hahead
        exact .inl ⟨(Except.ok.inj h).symm, row, hrow, not_lt.mp hahead⟩

/-- What the pointer statement of a transaction finds. -/
theorem pointerRow_knows {title : String} {pointer : Option IdentityRow} (h : txn.pointerRow db tables title = .ok pointer) :
    Knows tables (txn.at_ (.upserted pointer)) := by
  unfold PublishTxn.pointerRow at h
  rcases hview : (txn.view db tables).pointerRow txn.item.identityId txn.item.title txn.item.version with e | written
  · rw [hview] at h
    nomatch h
  · rw [hview] at h
    have hpointer := Except.ok.inj h
    rcases pointerRow_tables hview with ⟨hnone, hreached⟩ | ⟨row, hrow, hversion, hbehind⟩
    · simp only [hnone, Option.map_none] at hpointer
      subst hpointer
      exact hreached
    · simp only [hrow, Option.map_some] at hpointer
      subst hpointer
      refine ⟨?_, hbehind⟩
      split
      · exact hversion
      · exact hversion

/-! ## Steps before a commit -/

/-- The pointer's row is only locked by a statement that comes after the INSERT. -/
theorem holdsKey_of_holdsPointer {identityId : String} (h : txn.holdsPointer identityId) : txn.holdsKey txn.key :=
  ⟨rfl, .inr (.inr h.2)⟩

/-- A version that is published is not the one of a transaction that still holds its key. -/
theorem Inv.key_ne (h : Inv db w) {j : Nat} (hi : (w.txns i).holdsKey (w.txns i).key) (hj : w.Published j) :
    (w.txns j).key ≠ (w.txns i).key := by
  intro hkey
  have hrow := h.rows j hj
  rw [hkey, h.fresh i hi] at hrow
  nomatch hrow

/-- A step that leaves the committed tables as they are and is no commit. -/
theorem Inv.quiet (h : Inv db w) {stage : PublishStage} (hbefore : ¬w.Published i) (hafter : stage ≠ .committed)
    (hkeys : ∀ key, ((w.txns i).at_ stage).holdsKey key →
      (w.txns i).holdsKey key ∨ w.Free PublishTxn.holdsKey i key ∧ w.shared.versions.get? key = none)
    (hpointers : ∀ identityId, ((w.txns i).at_ stage).holdsPointer identityId →
      (w.txns i).holdsPointer identityId ∨ w.Free PublishTxn.holdsPointer i identityId)
    (hknows : Knows w.shared ((w.txns i).at_ stage)) : Inv db (w.move i w.shared ((w.txns i).at_ stage)) := by
  have hne : ∀ j, PublishWorld.Published (w.move i w.shared ((w.txns i).at_ stage)) j → j ≠ i := by
    intro j hj hji
    subst hji
    rw [PublishWorld.Published, World.move_txns_self] at hj
    exact hafter hj
  have hold : ∀ j, PublishWorld.Published (w.move i w.shared ((w.txns i).at_ stage)) j → w.Published j := by
    intro j hj
    rw [PublishWorld.Published, World.move_txns_of_ne w _ _ (hne j hj)] at hj
    exact hj
  refine
    { keys := ?_, pointers := h.pointers.move hpointers, fresh := ?_, rows := ?_, stored := ?_, once := ?_, named := h.named,
      reached := h.reached, knows := World.forall_move (P := fun _ => Knows w.shared) hknows fun j _ => h.knows j }
  · exact h.keys.move fun key hkey => (hkeys key hkey).imp_right And.left
  · refine World.forall_move (P := fun _ (txn : PublishTxn) => txn.holdsKey txn.key → w.shared.versions.get? txn.key = none) (fun hi => ?_)
      fun j _ => h.fresh j
    rcases hkeys _ hi with hheld | ⟨-, hfresh⟩
    · exact h.fresh i hheld
    · exact hfresh
  · intro j hj
    rw [World.move_txns_of_ne w _ _ (hne j hj)]
    exact h.rows j (hold j hj)
  · intro key row hrow
    obtain ⟨j, hj, hkey⟩ := h.stored key row hrow
    have hji : j ≠ i := fun hji => hbefore (hji ▸ hj)
    refine ⟨j, ?_, ?_⟩
    · rw [PublishWorld.Published, World.move_txns_of_ne w _ _ hji]
      exact hj
    · rw [World.move_txns_of_ne w _ _ hji]
      exact hkey
  · intro a b ha hb hkey
    rw [World.move_txns_of_ne w _ _ (hne a ha), World.move_txns_of_ne w _ _ (hne b hb)] at hkey
    exact h.once a b (hold a ha) (hold b hb) hkey

/-- A step to a stage that has no lock. -/
theorem Inv.read (h : Inv db w) {stage : PublishStage} (hbefore : ¬w.Published i) (hafter : stage ≠ .committed)
    (hinserted : ∀ current, stage ≠ .inserted current) (htitled : ∀ title, stage ≠ .titled title) (hupserted : ∀ row, stage ≠ .upserted row)
    (hknows : Knows w.shared ((w.txns i).at_ stage)) : Inv db (w.move i w.shared ((w.txns i).at_ stage)) := by
  refine h.quiet hbefore hafter (fun key hkey => ?_) (fun identityId hpointer => ?_) hknows
  · obtain ⟨-, ⟨current, hstage⟩ | ⟨title, hstage⟩ | ⟨row, hstage⟩⟩ := hkey
    · exact absurd hstage (hinserted current)
    · exact absurd hstage (htitled title)
    · exact absurd hstage (hupserted row)
  · obtain ⟨-, row, hstage⟩ := hpointer
    exact absurd hstage (hupserted row)

/-! ## Commits -/

/-- The tables that a transaction commits. -/
def committed (db : ControlDatabase) (txn : PublishTxn) (tables : PublicationTables) (pointer : Option IdentityRow) : PublicationTables :=
  (txn.view db tables).withPointer txn.item.identityId pointer

/-- The version is inserted and the other versions stay. -/
theorem committed_versions (pointer : Option IdentityRow) :
    (committed db txn tables pointer).versions = tables.versions.set txn.key (txn.row db) := by
  cases pointer <;> rfl

/-- Where it writes a row, this is the pointer of the identity. -/
theorem committed_identities_some (row : IdentityRow) :
    (committed db txn tables (some row)).identities = tables.identities.set txn.item.identityId row := rfl

/-- The pointer with which a transaction commits. -/
def Commits (tables : PublicationTables) (txn : PublishTxn) (pointer : Option IdentityRow) : Prop := Knows tables (txn.at_ (.upserted pointer))

/-- A commit keeps what is stored and moves no pointer back. -/
theorem committed_ascends {pointer : Option IdentityRow} (hfresh : tables.versions.get? txn.key = none) (hcommits : Commits tables txn pointer) :
    tables.Ascends (committed db txn tables pointer) := by
  constructor
  · intro key row hrow
    have hne : txn.key ≠ key := by
      rintro rfl
      rw [hfresh] at hrow
      nomatch hrow
    rw [committed_versions, Dict.get?_set_of_ne _ _ hne]
    exact hrow
  · rintro identityId version ⟨row, hrow, hversion⟩
    cases pointer with
    | none => exact ⟨row, hrow, hversion⟩
    | some pointer =>
      obtain ⟨hcurrent, hbehind⟩ := hcommits
      rw [PublicationTables.Reached, committed_identities_some]
      by_cases hid : txn.item.identityId = identityId
      · subst hid
        refine ⟨pointer, Dict.get?_set_self _ _ _, ?_⟩
        calc version ≤ row.currentVersion := hversion
          _ ≤ txn.item.version := hbehind row hrow
          _ = pointer.currentVersion := hcurrent.symm
      · refine ⟨row, ?_, hversion⟩
        rw [Dict.get?_set_of_ne _ _ hid]
        exact hrow

/-- The pointer of the identity has reached the version that is committed. -/
theorem committed_reached {pointer : Option IdentityRow} (hcommits : Commits tables txn pointer) :
    (committed db txn tables pointer).Reached txn.item.identityId txn.item.version := by
  cases pointer with
  | none => exact hcommits
  | some pointer =>
    obtain ⟨hcurrent, -⟩ := hcommits
    exact ⟨pointer, Dict.get?_set_self _ _ _, hcurrent.ge⟩

/-- Each pointer names a stored version after a commit. -/
theorem committed_named {pointer : Option IdentityRow} (hascends : tables.Ascends (committed db txn tables pointer))
    (hcommits : Commits tables txn pointer)
    (hnamed : ∀ identityId row, tables.identities.get? identityId = some row →
      ∃ version, tables.versions.get? (identityId, row.currentVersion) = some version)
    {identityId : String} {row : IdentityRow} (hrow : (committed db txn tables pointer).identities.get? identityId = some row) :
    ∃ version, (committed db txn tables pointer).versions.get? (identityId, row.currentVersion) = some version := by
  have hkeep : tables.identities.get? identityId = some row →
      ∃ version, (committed db txn tables pointer).versions.get? (identityId, row.currentVersion) = some version := by
    intro hold
    obtain ⟨version, hversion⟩ := hnamed identityId row hold
    exact ⟨version, hascends.versions _ _ hversion⟩
  cases pointer with
  | none => exact hkeep hrow
  | some pointer =>
    obtain ⟨hcurrent, -⟩ := hcommits
    rw [committed_identities_some] at hrow
    by_cases hid : txn.item.identityId = identityId
    · subst hid
      rw [Dict.get?_set_self] at hrow
      obtain rfl := Option.some.inj hrow
      refine ⟨txn.row db, ?_⟩
      rw [committed_versions, hcurrent]
      exact Dict.get?_set_self _ _ _
    · rw [Dict.get?_set_of_ne _ _ hid] at hrow
      exact hkeep hrow

/-- What another transaction knows stays true, if the pointer it wrote is of an identity whose pointer the commit leaves. -/
theorem Knows.ascends {t t' : PublicationTables} (h : t.Ascends t') (hknows : Knows t txn)
    (hsame : ∀ row, txn.stage = .upserted (some row) → t'.identities.get? txn.item.identityId = t.identities.get? txn.item.identityId) :
    Knows t' txn := by
  unfold Knows at hknows ⊢
  split at hknows
  · exact h.pointers _ _ hknows
  · exact h.pointers _ _ hknows
  · exact h.pointers _ _ hknows
  · exact h.pointers _ _ hknows
  · rename_i pointer hstage
    rw [hsame pointer hstage]
    exact hknows
  · trivial

/-- A commit: the transaction holds its key, and its pointer row where it writes one. -/
theorem Inv.commit (h : Inv db w) {pointer : Option IdentityRow} (hbefore : ¬w.Published i)
    (hkey : (w.txns i).holdsKey (w.txns i).key)
    (hpointer : ∀ row, pointer = some row → (w.txns i).holdsPointer (w.txns i).item.identityId)
    (hcommits : Commits w.shared (w.txns i) pointer) :
    Inv db (w.move i (committed db (w.txns i) w.shared pointer) ((w.txns i).at_ .committed)) := by
  have hfresh := h.fresh i hkey
  have hascends : w.shared.Ascends (committed db (w.txns i) w.shared pointer) := committed_ascends hfresh hcommits
  refine
    { keys := ?_, pointers := ?_, fresh := ?_, rows := ?_, stored := ?_, once := ?_, named := ?_, reached := ?_, knows := ?_ }
  · refine h.keys.move fun key hkey => ?_
    obtain ⟨-, ⟨_, hstage⟩ | ⟨_, hstage⟩ | ⟨_, hstage⟩⟩ := hkey <;> nomatch hstage
  · refine h.pointers.move fun identityId hheld => ?_
    obtain ⟨-, _, hstage⟩ := hheld
    nomatch hstage
  · refine World.forall_move
      (P := fun _ (txn : PublishTxn) => txn.holdsKey txn.key → (committed db (w.txns i) w.shared pointer).versions.get? txn.key = none)
      (fun hheld => ?_) fun j hj hheld => ?_
    · obtain ⟨-, ⟨_, hstage⟩ | ⟨_, hstage⟩ | ⟨_, hstage⟩⟩ := hheld <;> nomatch hstage
    · have hne : (w.txns i).key ≠ (w.txns j).key := fun hsame => hj (h.keys j i _ hheld (hsame ▸ hkey))
      rw [committed_versions, Dict.get?_set_of_ne _ _ hne]
      exact h.fresh j hheld
  · refine World.forall_move
      (P := fun _ (txn : PublishTxn) => txn.stage = .committed →
        (committed db (w.txns i) w.shared pointer).versions.get? txn.key = some (txn.row db))
      (fun _ => ?_) fun j _ hj => hascends.versions _ _ (h.rows j hj)
    rw [committed_versions]
    exact Dict.get?_set_self _ _ _
  · intro key row hrow
    by_cases hsame : (w.txns i).key = key
    · refine ⟨i, ?_, ?_⟩
      · rw [PublishWorld.Published, World.move_txns_self]
        rfl
      · rw [World.move_txns_self]
        exact hsame
    · rw [World.move_shared, committed_versions, Dict.get?_set_of_ne _ _ hsame] at hrow
      obtain ⟨j, hj, hjkey⟩ := h.stored key row hrow
      have hji : j ≠ i := fun hji => hbefore (hji ▸ hj)
      refine ⟨j, ?_, ?_⟩
      · rw [PublishWorld.Published, World.move_txns_of_ne w _ _ hji]
        exact hj
      · rw [World.move_txns_of_ne w _ _ hji]
        exact hjkey
  · intro a b ha hb hsame
    by_cases hai : a = i
    · by_cases hbi : b = i
      · rw [hai, hbi]
      · rw [PublishWorld.Published, World.move_txns_of_ne w _ _ hbi] at hb
        rw [hai, World.move_txns_self, World.move_txns_of_ne w _ _ hbi] at hsame
        exact absurd hsame.symm (h.key_ne hkey hb)
    · rw [PublishWorld.Published, World.move_txns_of_ne w _ _ hai] at ha
      rw [World.move_txns_of_ne w _ _ hai] at hsame
      by_cases hbi : b = i
      · rw [hbi, World.move_txns_self] at hsame
        exact absurd hsame (h.key_ne hkey ha)
      · rw [PublishWorld.Published, World.move_txns_of_ne w _ _ hbi] at hb
        rw [World.move_txns_of_ne w _ _ hbi] at hsame
        exact h.once a b ha hb hsame
  · exact fun identityId row hrow => committed_named hascends hcommits h.named hrow
  · intro identityId version row hrow
    by_cases hsame : (w.txns i).key = (identityId, version)
    · obtain ⟨rfl, rfl⟩ := Prod.mk.inj hsame
      exact committed_reached hcommits
    · rw [World.move_shared, committed_versions, Dict.get?_set_of_ne _ _ hsame] at hrow
      exact hascends.pointers _ _ (h.reached identityId version row hrow)
  · refine World.forall_move (P := fun _ => Knows (committed db (w.txns i) w.shared pointer)) trivial fun j hj => ?_
    refine (h.knows j).ascends hascends fun row hstage => ?_
    cases pointer with
    | none => rfl
    | some pointer =>
      have hne : (w.txns i).item.identityId ≠ (w.txns j).item.identityId := fun hsame =>
        hj (h.pointers j i (w.txns i).item.identityId ⟨hsame.symm, _, hstage⟩ (hpointer pointer rfl))
      rw [committed_identities_some]
      exact Dict.get?_set_of_ne _ _ hne

/-- A step keeps the invariant, what is stored and how far the pointers are. -/
theorem Inv.step (h : Inv db w) {next : PublicationTables} (hadvance : PublishAdvance db w i next txn) :
    Inv db (w.move i next txn) ∧ w.shared.Ascends next := by
  have hopen : ∀ {stage}, (w.txns i).stage = stage → stage ≠ .committed → ¬w.Published i := fun hstage hne hpublished =>
    hne (hstage.symm.trans hpublished)
  have hself := h.knows i
  cases hadvance with
  | readVersion hstage hread hsemantic => exact ⟨h.read (hopen hstage nofun) nofun nofun nofun nofun trivial, .refl _⟩
  | readNone hstage hread => exact ⟨h.read (hopen hstage nofun) nofun nofun nofun nofun trivial, .refl _⟩
  | readVersions hstage hread hsome => exact ⟨h.read (hopen hstage nofun) nofun nofun nofun nofun trivial, .refl _⟩
  | readAgain hstage hread hsome => exact ⟨h.read (hopen hstage nofun) nofun nofun nofun nofun trivial, .refl _⟩
  | readPointer hstage hread =>
    exact ⟨h.read (hopen hstage nofun) nofun nofun nofun nofun (readPointer_reached hread), .refl _⟩
  | @readCurrent current hstage version hread =>
    rw [Knows, hstage] at hself
    exact ⟨h.read (hopen hstage nofun) nofun nofun nofun nofun hself, .refl _⟩
  | @insert current hstage hfree tables hinsert =>
    have hknows : Knows w.shared ((w.txns i).at_ (.inserted current)) := by
      rw [Knows, hstage] at hself
      cases current with
      | none => trivial
      | some current => exact hself
    refine ⟨h.quiet (hopen hstage nofun) nofun (fun key hkey => ?_) (fun id hid => ?_) hknows, .refl _⟩
    · obtain ⟨rfl, -⟩ := hkey
      exact .inr ⟨hfree, insertVersion_fresh hinsert⟩
    · obtain ⟨-, _, hupserted⟩ := hid
      nomatch hupserted
  | @readTitle current hstage hcurrent =>
    refine ⟨h.quiet (hopen hstage nofun) nofun (fun key hkey => ?_) (fun id hid => ?_) trivial, .refl _⟩
    · exact .inl ⟨hkey.1, .inl ⟨current, hstage⟩⟩
    · obtain ⟨-, _, hupserted⟩ := hid
      nomatch hupserted
  | @upsert title hstage hfree pointer hpointer =>
    refine ⟨h.quiet (hopen hstage nofun) nofun (fun key hkey => ?_) (fun id hid => ?_) (pointerRow_knows hpointer), .refl _⟩
    · exact .inl ⟨hkey.1, .inr (.inl ⟨title, hstage⟩)⟩
    · obtain ⟨rfl, -⟩ := hid
      exact .inr hfree
  | @commitHistorical current hstage hcurrent =>
    have hcommits : Commits w.shared (w.txns i) none := by
      rw [Knows, hstage] at hself
      obtain ⟨row, hrow, hversion⟩ := hself
      exact ⟨row, hrow, hcurrent.trans hversion⟩
    have hkey : (w.txns i).holdsKey (w.txns i).key := ⟨rfl, .inl ⟨_, hstage⟩⟩
    refine ⟨h.commit (hopen hstage nofun) hkey (fun row hrow => ?_) hcommits, committed_ascends (h.fresh i hkey) hcommits⟩
    nomatch hrow
  | @commitCurrent pointer hstage =>
    have hcommits : Commits w.shared (w.txns i) pointer := by
      rw [Knows, hstage] at hself
      exact hself
    have hpointer : (w.txns i).holdsPointer (w.txns i).item.identityId := ⟨rfl, pointer, hstage⟩
    have hkey := holdsKey_of_holdsPointer hpointer
    exact ⟨h.commit (hopen hstage nofun) hkey (fun _ _ => hpointer) hcommits, committed_ascends (h.fresh i hkey) hcommits⟩
  | abort hstage => exact ⟨h.read hstage nofun nofun nofun nofun trivial, .refl _⟩

/-! ## Runs -/

/-- A run keeps the invariant, what is stored and how far the pointers are. -/
theorem Inv.runs (h : Inv db w) {w' : PublishWorld} (hruns : World.Runs (PublishAdvance db) w w') :
    Inv db w' ∧ w.shared.Ascends w'.shared := by
  have hkeep : ∀ (w : PublishWorld) i d t, Inv db w → PublishAdvance db w i d t → Inv db (w.move i d t) := fun _ _ _ _ hw hadvance =>
    (hw.step hadvance).1
  refine ⟨hruns.invariant hkeep h, ?_⟩
  exact hruns.ascends hkeep (R := fun w w' => w.shared.Ascends w'.shared) (fun w => .refl w.shared)
    (fun _ _ _ hab hbc => hab.trans hbc) (fun _ _ _ _ hw hadvance => (hw.step hadvance).2) h

/-- A version is stored where a call has published it. -/
theorem Inv.mem_published (h : Inv db w) {identityId : String} {version : Int} :
    version ∈ w.publishedVersions identityId ↔ ∃ row, w.shared.versions.get? (identityId, version) = some row := by
  constructor
  · rintro ⟨i, hi, rfl, rfl⟩
    exact ⟨_, h.rows i hi⟩
  · rintro ⟨row, hrow⟩
    obtain ⟨i, hi, hkey⟩ := h.stored _ _ hrow
    obtain ⟨hid, hversion⟩ := Prod.mk.inj hkey
    exact ⟨i, hi, hid, hversion⟩

end PublishAux

open PublishAux

/-- However the statements of calls of `publish` on an empty catalogue interleave: a version is published by one call, and its row stays
as that call wrote it; the pointer of an identity names a stored version, and a later pointer is not behind it; and the pointer of an
identity that has published versions is at the greatest of them. -/
theorem publication_linear (db : ControlDatabase) (calls : Nat → PublishedVersion × Int) (w : PublishWorld)
    (hruns : World.Runs (PublishAdvance db) (PublishWorld.initial calls) w) :
    (∀ i j, w.Published i → w.Published j → (w.txns i).key = (w.txns j).key → i = j) ∧
      (∀ w', World.Runs (PublishAdvance db) w w' → ∀ key row, w.shared.versions.get? key = some row →
        w'.shared.versions.get? key = some row) ∧
      (∀ identityId pointer, w.shared.identities.get? identityId = some pointer →
        (∃ row, w.shared.versions.get? (identityId, pointer.currentVersion) = some row) ∧
          ∀ w', World.Runs (PublishAdvance db) w w' →
            ∃ later, w'.shared.identities.get? identityId = some later ∧ pointer.currentVersion ≤ later.currentVersion) ∧
      (∀ identityId, (w.publishedVersions identityId).Nonempty →
        ∃ pointer, w.shared.identities.get? identityId = some pointer ∧ IsGreatest (w.publishedVersions identityId) pointer.currentVersion) ∧
      ∀ i, w.Published i → w.shared.versions.get? (w.txns i).key = some ((w.txns i).row db) := by
  have h : Inv db w := ((inv_initial calls).runs hruns).1
  refine ⟨h.once, fun w' hlater => (h.runs hlater).2.versions, fun identityId pointer hpointer => ⟨h.named identityId pointer hpointer, ?_⟩,
    ?_, h.rows⟩
  · intro w' hlater
    exact (h.runs hlater).2.pointers identityId _ ⟨pointer, hpointer, le_refl _⟩
  · rintro identityId ⟨version, hversion⟩
    obtain ⟨row, hrow⟩ := h.mem_published.mp hversion
    obtain ⟨pointer, hpointer, -⟩ := h.reached identityId version row hrow
    refine ⟨pointer, hpointer, h.mem_published.mpr (h.named identityId pointer hpointer), fun n hn => ?_⟩
    obtain ⟨other, hother⟩ := h.mem_published.mp hn
    obtain ⟨same, hsame, hle⟩ := h.reached identityId n other hother
    obtain rfl := Option.some.inj (hpointer.symm.trans hsame)
    exact hle

/-- Two publications of one identity: the greater version, and the lesser one. -/
def twoCalls (i : Nat) : PublishedVersion × Int := (ratedVersion "a" (if i = 0 then 2 else 1), i)

/-- Both versions are inserted. The lesser one is committed first, while the greater one waits for the pointer. -/
theorem twoCalls_run : ∃ w : PublishWorld, World.Runs (PublishAdvance (keepingDatabase byCodePoint)) (PublishWorld.initial twoCalls) w ∧
    1 ∈ w.publishedVersions "a" ∧ 2 ∈ w.publishedVersions "a" := by
  have hstart : World.Runs (PublishAdvance (keepingDatabase byCodePoint)) (PublishWorld.initial twoCalls) _ := .refl _
  have hread := (((hstart.next (i := 0) (.readVersion rfl rfl nofun)).next (i := 0) (.readNone rfl rfl)).next (i := 1)
    (.readVersion rfl rfl nofun)).next (i := 1) (.readNone rfl rfl)
  have hlesser := hread.next (i := 1) (.insert rfl (fun j hj hheld => by
    obtain ⟨-, ⟨_, hstage⟩ | ⟨_, hstage⟩ | ⟨_, hstage⟩⟩ := hheld <;> rcases j with _ | _ | j <;> first | exact hj rfl | nomatch hstage) rfl)
  have hgreater := hlesser.next (i := 0) (.insert rfl (fun j hj hheld => by
    rcases j with _ | _ | j
    · exact hj rfl
    · exact absurd (congrArg Prod.snd hheld.1) (by decide)
    · obtain ⟨-, ⟨_, hstage⟩ | ⟨_, hstage⟩ | ⟨_, hstage⟩⟩ := hheld <;> nomatch hstage) rfl)
  have hpointed := (hgreater.next (i := 1) (.readTitle rfl nofun)).next (i := 1) (.upsert rfl (fun j hj hheld => by
    obtain ⟨-, _, hstage⟩ := hheld
    rcases j with _ | _ | j <;> first | exact hj rfl | nomatch hstage) rfl)
  have hcommitted := (hpointed.next (i := 0) (.readTitle rfl nofun)).next (i := 1) (.commitCurrent rfl)
  have hadvanced := hcommitted.next (i := 0) (.upsert rfl (fun j hj hheld => by
    obtain ⟨-, _, hstage⟩ := hheld
    rcases j with _ | _ | j <;> first | exact hj rfl | nomatch hstage) rfl)
  exact ⟨_, hadvanced.next (i := 0) (.commitCurrent rfl), ⟨1, rfl, rfl, rfl⟩, ⟨0, rfl, rfl, rfl⟩⟩

/-- The pointer is at the greater one. -/
theorem publication_linear_two : ∃ w : PublishWorld,
    World.Runs (PublishAdvance (keepingDatabase byCodePoint)) (PublishWorld.initial twoCalls) w ∧
      ∃ pointer, w.shared.identities.get? "a" = some pointer ∧ IsGreatest (w.publishedVersions "a") pointer.currentVersion := by
  obtain ⟨w, hruns, -, hgreater⟩ := twoCalls_run
  exact ⟨w, hruns, (publication_linear (keepingDatabase byCodePoint) twoCalls w hruns).2.2.2.1 "a" ⟨2, hgreater⟩⟩

end Nl2Sql
