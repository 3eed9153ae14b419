import Nl2Sql.Artifact.PublicationStore
import Nl2Sql.Lib.Serial
import Nl2Sql.Theorems.Stored

namespace Nl2Sql

open Py Json

/-! ## The durable catalogue and the process-local one -/

namespace CatalogueAux

/-! ### Lists -/

section Lists

variable {α β : Type} {R : α → β → Prop}

theorem forall₂_orderedInsert {le : α → α → Prop} {le' : β → β → Prop} [DecidableRel le] [DecidableRel le']
    (hle : ∀ a b a' b', R a a' → R b b' → (le a b ↔ le' a' b')) {a : α} {a' : β} (ha : R a a') {l : List α} {l' : List β}
    (h : List.Forall₂ R l l') : List.Forall₂ R (l.orderedInsert le a) (l'.orderedInsert le' a') := by
  induction h with
  | nil => exact .cons ha .nil
  | @cons b b' l l' hb hrest ih =>
    rw [List.orderedInsert_cons, List.orderedInsert_cons]
    by_cases hab : le a b
    · rw [if_pos hab, if_pos ((hle a b a' b' ha hb).mp hab)]
      exact .cons ha (.cons hb hrest)
    · rw [if_neg hab, if_neg fun hab' => hab ((hle a b a' b' ha hb).mpr hab')]
      exact .cons hb ih

/-- Related lists are related when they are sorted by orders that agree. -/
theorem forall₂_insertionSort {le : α → α → Prop} {le' : β → β → Prop} [DecidableRel le] [DecidableRel le']
    (hle : ∀ a b a' b', R a a' → R b b' → (le a b ↔ le' a' b')) {l : List α} {l' : List β} (h : List.Forall₂ R l l') :
    List.Forall₂ R (l.insertionSort le) (l'.insertionSort le') := by
  induction h with
  | nil => exact .nil
  | cons ha _ ih =>
    rw [List.insertionSort_cons, List.insertionSort_cons]
    exact forall₂_orderedInsert hle ha ih

/-- The values under the keys of a kind. -/
theorem forall₂_filter_snd {κ : Type} {P : κ × α → κ × β → Prop} (hkey : ∀ e r, P e r → e.1 = r.1)
    (hvalue : ∀ e r, P e r → R e.2 r.2) (p : κ → Bool) {es : List (κ × α)} {rs : List (κ × β)} (h : List.Forall₂ P es rs) :
    List.Forall₂ R ((es.filter fun e => p e.1).map Prod.snd) ((rs.filter fun r => p r.1).map Prod.snd) := by
  induction h with
  | nil => exact .nil
  | @cons e r es rs hp _ ih =>
    rw [List.filter_cons, List.filter_cons, ← hkey e r hp]
    cases p e.1 with
    | true => exact .cons (hvalue e r hp) ih
    | false => exact ih

theorem insertionSort_congr {le le' : α → α → Prop} [DecidableRel le] [DecidableRel le'] {l : List α}
    (h : ∀ a ∈ l, ∀ b ∈ l, (le a b ↔ le' a b)) : l.insertionSort le = l.insertionSort le' := by
  have hmap := List.map_insertionSort le le' id l h
  rwa [List.map_id, List.map_id] at hmap

end Lists

/-! ### Rows -/

/-- A row holds a version, with the axes that a catalogue has for it. -/
structure RowHolds (db : ControlDatabase) (s : PublicationCatalogue) (key : String × Int) (item : PublishedVersion) (row : VersionRow) :
    Prop where
  identity : row.identityId = key.1
  version : row.version = key.2
  decodes : ∃ item', decodeVersion db row = .ok item' ∧ item'.key = item.key
  certification : row.certification = s.certificationState key.1 key.2
  certifiedBy : row.certifiedBy = s.certifiedBy.get? key
  withdrawn : row.withdrawn = s.isWithdrawn key.1 key.2

/-- A row and an entry under one key. -/
def Holds (db : ControlDatabase) (s : PublicationCatalogue) (entry : (String × Int) × PublishedVersion)
    (row : (String × Int) × VersionRow) : Prop := entry.1 = row.1 ∧ RowHolds db s entry.1 entry.2 row.2

/-- The tables hold what the catalogue does, and every row was written until a time. -/
structure Refines (db : ControlDatabase) (last : Int) (s : PublicationCatalogue) (t : PublicationTables) : Prop where
  rows : List.Forall₂ (Holds db s) s.versions.entries t.versions.entries
  absent : ∀ key, s.versions.get? key = none → s.certification.get? key = none ∧ s.certifiedBy.get? key = none ∧ s.withdrawn.get? key = none
  current : ∀ identityId, s.current.get? identityId = (t.identities.get? identityId).map (·.currentVersion)
  pointed : ∀ identityId row, t.identities.get? identityId = some row →
    (t.versions.get? (identityId, row.currentVersion)).isSome = true ∧ storableInteger row.currentVersion = true
  titles : ∀ identityId, s.titles.get? identityId = PublicationTables.firstTitle (t.rowsOf identityId)
  created : ∀ row ∈ t.versions.values, row.createdAt ≤ last
  checked : ∀ row ∈ t.versions.values, versionCheck row = none

theorem refines_empty (db : ControlDatabase) (last : Int) : Refines db last {} {} :=
  ⟨.nil, fun _ _ => ⟨rfl, rfl, rfl⟩, fun _ => rfl, fun _ _ h => absurd h.symm (Option.some_ne_none _), fun _ => rfl,
    fun _ h => absurd h List.not_mem_nil, fun _ h => absurd h List.not_mem_nil⟩

section Reads

variable {db : ControlDatabase} {last : Int} {s : PublicationCatalogue} {t : PublicationTables} {identityId : String} {version : Int}

theorem RowHolds.version_eq {key : String × Int} {item : PublishedVersion} {row : VersionRow} (h : RowHolds db s key item row) :
    item.identityId = key.1 ∧ item.version = key.2 := by
  obtain ⟨item', hdecode, hkey⟩ := h.decodes
  unfold decodeVersion at hdecode
  split at hdecode
  · nomatch hdecode
  · cases hdecode
    exact ⟨(congrArg VersionKey.identityId hkey).symm.trans h.identity, (congrArg VersionKey.version hkey).symm.trans h.version⟩

theorem mapM_decode {items : List PublishedVersion} {rows : List VersionRow}
    (h : List.Forall₂ (fun item row => ∃ item', decodeVersion db row = .ok item' ∧ item'.key = item.key) items rows) :
    ∃ items', rows.mapM (decodeVersion db) = .ok items' ∧ items'.map PublishedVersion.key = items.map PublishedVersion.key := by
  induction h with
  | nil => exact ⟨[], rfl, rfl⟩
  | @cons item row items rows hrow _ ih =>
    obtain ⟨item', hdecode, hkey⟩ := hrow
    obtain ⟨items', hitems, hkeys⟩ := ih
    refine ⟨item' :: items', ?_, by rw [List.map_cons, List.map_cons, hkey, hkeys]⟩
    rw [List.mapM_cons, hdecode, hitems]
    rfl

theorem isEmpty_of_keys {items items' : List PublishedVersion}
    (h : items'.map PublishedVersion.key = items.map PublishedVersion.key) : items'.isEmpty = decide (items = []) := by
  have hlength := congrArg List.length h
  rw [List.length_map, List.length_map] at hlength
  cases items with
  | nil =>
    rw [List.length_nil, List.length_eq_zero_iff] at hlength
    rw [hlength]
    rfl
  | cons item rest =>
    cases items' with
    | nil => nomatch hlength
    | cons item' rest' => rfl

/-- A pointer that is written, or left. -/
def pointTo (current : Dict String Int) (identityId : String) : Option Int → Dict String Int
  | none => current
  | some version => current.set identityId version

theorem conflicts_congr {item : PublishedVersion} {found existing : Option PublishedVersion}
    (h : found.map PublishedVersion.key = existing.map PublishedVersion.key) :
    PublicationCatalogue.conflicts item found = PublicationCatalogue.conflicts item existing := by
  have hmap : ∀ o : Option PublishedVersion, PublicationCatalogue.conflicts item o = (o.map PublishedVersion.key).any (· ≠ item.key) := by
    intro o
    cases o <;> rfl
  rw [hmap, hmap, h]

variable (h : Refines db last s t)
include h

theorem Refines.get (key : String × Int) :
    (s.versions.get? key = none ∧ t.versions.get? key = none) ∨
      ∃ item row, s.versions.get? key = some item ∧ t.versions.get? key = some row ∧ RowHolds db s key item row := by
  rcases Dict.getEntries_of_forall₂ (fun _ _ hp => hp.1) h.rows key with hnone | ⟨item, row, hitem, hrow, hp⟩
  · exact .inl hnone
  · exact .inr ⟨item, row, hitem, hrow, hp.2⟩

theorem Refines.get_none (hget : s.get identityId version = none) :
    t.versions.get? (identityId, version) = none := by
  rcases h.get (identityId, version) with ⟨-, ht⟩ | ⟨_, _, hs, -, -⟩
  · exact ht
  · rw [PublicationCatalogue.get, hs] at hget
    nomatch hget

/-- The rows of an identity hold its versions. -/
theorem Refines.values (identityId : String) :
    List.Forall₂ (fun item row => ∃ key, RowHolds db s key item row)
      ((s.versions.entries.filter fun entry => entry.1.1 = identityId).map Prod.snd) (t.rowsOf identityId) :=
  forall₂_filter_snd (fun _ _ hp => hp.1) (fun e _ hp => ⟨e.1, hp.2⟩) (fun key => key.1 = identityId) h.rows

theorem Refines.rowsOf_eq_nil (hempty : s.versionsOf identityId = []) : t.rowsOf identityId = [] := by
  have hlength := congrArg List.length hempty
  rw [PublicationCatalogue.versionsOf, List.length_insertionSort, (h.values identityId).length_eq] at hlength
  exact List.length_eq_zero_iff.mp hlength

section

variable (hid : storableText identityId = true)
include hid

/-- A version is read as one equal to the catalogue's. -/
theorem Refines.readVersion (hv : storableInteger version = true) :
    ∃ found, t.readVersion db identityId version = .ok found ∧
      found.map PublishedVersion.key = (s.get identityId version).map PublishedVersion.key := by
  have hguard : ¬ ¬ (storableText identityId = true ∧ storableInteger version = true) := not_not_intro ⟨hid, hv⟩
  rw [PublicationTables.readVersion, if_neg hguard]
  rcases h.get (identityId, version) with ⟨hs, ht⟩ | ⟨item, row, hs, ht, hp⟩
  · rw [ht, PublicationCatalogue.get, hs]
    exact ⟨none, rfl, rfl⟩
  · obtain ⟨item', hdecode, hkey⟩ := hp.decodes
    rw [ht, PublicationCatalogue.get, hs]
    have hread : (decodeVersion db row).map some = .ok (some item') := by
      rw [hdecode]
      rfl
    exact ⟨some item', hread, congrArg some hkey⟩

/-- The versions of an identity are read as equal to the catalogue's, in the same order. -/
theorem Refines.readVersions :
    ∃ items, t.readVersions db identityId = .ok items ∧
      items.map PublishedVersion.key = (s.versionsOf identityId).map PublishedVersion.key := by
  have hguard : ¬ storableText identityId = false := by rw [hid]; rintro ⟨⟩
  rw [PublicationTables.readVersions, if_neg hguard]
  have hsorted : List.Forall₂ (fun item row => ∃ key, RowHolds db s key item row) (s.versionsOf identityId)
      ((t.rowsOf identityId).insertionSort fun a b => a.version ≤ b.version) := by
    refine forall₂_insertionSort (fun a b a' b' ha hb => ?_) (h.values identityId)
    obtain ⟨_, ha⟩ := ha
    obtain ⟨_, hb⟩ := hb
    rw [ha.version_eq.2, hb.version_eq.2, ha.version, hb.version]
  exact mapM_decode (hsorted.imp fun _ _ hp => hp.choose_spec.decodes)

theorem Refines.readPointer :
    t.readPointer identityId = .ok (s.current.get? identityId) := by
  have hguard : ¬ storableText identityId = false := by rw [hid]; rintro ⟨⟩
  rw [PublicationTables.readPointer, if_neg hguard, h.current]

/-- The current version is read as the catalogue's, with the same errors. -/
theorem Refines.currentVersionIn :
    t.currentVersionIn db identityId = s.currentVersion identityId := by
  obtain ⟨items, hitems, hkeys⟩ := h.readVersions hid
  unfold PublicationTables.currentVersionIn PublicationCatalogue.currentVersion
  rw [hitems, h.readPointer hid]
  simp only [bind, Except.bind, isEmpty_of_keys hkeys, decide_eq_true_eq]
  by_cases hempty : s.versionsOf identityId = []
  · rw [if_pos hempty, if_pos hempty]
  · rw [if_neg hempty, if_neg hempty]
    cases hcurrent : s.current.get? identityId with
    | none => rfl
    | some current =>
      rw [h.current, Option.map_eq_some_iff] at hcurrent
      obtain ⟨row, hrow, rfl⟩ := hcurrent
      obtain ⟨found, hfound, hfoundkey⟩ := h.readVersion hid (h.pointed identityId row hrow).2
      simp only [hfound]
      cases hget : s.get identityId row.currentVersion with
      | none =>
        rw [hget, Option.map_none, Option.map_eq_none_iff] at hfoundkey
        rw [hfoundkey]
      | some item =>
        rw [hget, Option.map_some, Option.map_eq_some_iff] at hfoundkey
        obtain ⟨item', rfl, -⟩ := hfoundkey
        rfl

end

theorem Refines.seedPointer {item : PublishedVersion} (hid : storableText item.identityId = true) :
    s.seedPointers item = (t.seedPointer db item).map (pointTo s.current item.identityId) := by
  obtain ⟨items, hitems, hkeys⟩ := h.readVersions hid
  unfold PublicationTables.seedPointer PublicationCatalogue.seedPointers
  rw [hitems, h.readPointer hid, h.currentVersionIn hid]
  simp only [bind, Except.bind, isEmpty_of_keys hkeys, decide_eq_true_eq]
  by_cases hempty : s.versionsOf item.identityId = []
  · rw [if_pos hempty, if_pos hempty]
    cases s.current.get? item.identityId with
    | none => rfl
    | some current => rfl
  · rw [if_neg hempty, if_neg hempty]
    cases s.currentVersion item.identityId with
    | error e => rfl
    | ok current =>
      simp only
      split
      · rfl
      · split <;> rfl

theorem Refines.publishCurrent {item : PublishedVersion} (hid : storableText item.identityId = true) :
    t.publishCurrent db item = s.publishCurrent item := by
  obtain ⟨items, hitems, hkeys⟩ := h.readVersions hid
  unfold PublicationTables.publishCurrent PublicationCatalogue.publishCurrent
  rw [hitems, h.currentVersionIn hid]
  simp only [bind, Except.bind, isEmpty_of_keys hkeys, decide_eq_true_eq]

end Reads

/-! ### Writes -/

section Writes

variable {db : ControlDatabase} {last now : Int} {s : PublicationCatalogue} {t : PublicationTables}

/-- The first title stays the first. -/
theorem firstTitle_append {rows : List VersionRow} {row : VersionRow} (h : ∀ r ∈ rows, r.createdAt < row.createdAt) :
    PublicationTables.firstTitle (rows ++ [row]) = some ((PublicationTables.firstTitle rows).getD row.title) := by
  cases rows with
  | nil => rfl
  | cons r rest =>
    have hmem : ∀ (rest : List VersionRow) (r : VersionRow), rest.foldl PublicationTables.earlier r ∈ r :: rest := by
      intro rest
      induction rest with
      | nil => exact fun r => List.mem_cons_self
      | cons r' rest ih =>
        intro r
        have hfold := ih (PublicationTables.earlier r r')
        rw [List.mem_cons] at hfold
        rw [List.foldl_cons, List.mem_cons, List.mem_cons]
        rcases hfold with hfold | hfold
        · rw [hfold]
          unfold PublicationTables.earlier
          split
          · exact .inr (.inl rfl)
          · exact .inl rfl
        · exact .inr (.inr hfold)
    have hearlier : ∀ first : VersionRow, first.createdAt < row.createdAt → PublicationTables.earlier first row = first := by
      intro first hlt
      unfold PublicationTables.earlier
      rw [if_neg]
      omega
    rw [List.cons_append, PublicationTables.firstTitle, List.foldl_append, List.foldl_cons, List.foldl_nil, hearlier _ (h _ (hmem rest r))]
    rfl

/-- The first title depends on when the rows were written, and on their versions and titles. -/
theorem firstTitle_congr {rows rows' : List VersionRow}
    (h : rows'.map (fun r => (r.createdAt, r.version, r.title)) = rows.map fun r => (r.createdAt, r.version, r.title)) :
    PublicationTables.firstTitle rows' = PublicationTables.firstTitle rows := by
  have hfold : ∀ (rest rest' : List VersionRow) (r r' : VersionRow),
      rest'.map (fun r => (r.createdAt, r.version, r.title)) = (rest.map fun r => (r.createdAt, r.version, r.title)) →
      (r'.createdAt, r'.version, r'.title) = (r.createdAt, r.version, r.title) →
      (rest'.foldl PublicationTables.earlier r').title = (rest.foldl PublicationTables.earlier r).title := by
    intro rest
    induction rest with
    | nil =>
      intro rest' r r' hrest hr
      rw [List.map_nil, List.map_eq_nil_iff] at hrest
      subst hrest
      exact (Prod.mk.inj (Prod.mk.inj hr).2).2
    | cons q rest ih =>
      intro rest' r r' hrest hr
      cases rest' with
      | nil => nomatch hrest
      | cons q' rest' =>
        rw [List.map_cons, List.map_cons, List.cons.injEq] at hrest
        refine ih rest' _ _ hrest.2 ?_
        simp only [Prod.mk.injEq] at hr hrest ⊢
        unfold PublicationTables.earlier
        simp only [hr, hrest]
        split
        · exact hrest.1
        · exact hr
  cases rows with
  | nil =>
    rw [List.map_nil, List.map_eq_nil_iff] at h
    rw [h]
  | cons r rest =>
    cases rows' with
    | nil => nomatch h
    | cons r' rest' =>
      rw [List.map_cons, List.map_cons, List.cons.injEq] at h
      exact congrArg some (hfold rest rest' r r' h.2 h.1)

/-- A catalogue has the same axes for a key as another. -/
def SameAxes (s s' : PublicationCatalogue) (key : String × Int) : Prop :=
  s'.certification.get? key = s.certification.get? key ∧ s'.certifiedBy.get? key = s.certifiedBy.get? key ∧
    s'.withdrawn.get? key = s.withdrawn.get? key

theorem RowHolds.congr {s' : PublicationCatalogue} {key : String × Int} {item : PublishedVersion} {row : VersionRow}
    (h : RowHolds db s key item row) (haxes : SameAxes s s' key) : RowHolds db s' key item row := by
  obtain ⟨hcertification, hcertifiedBy, hwithdrawn⟩ := haxes
  refine ⟨h.identity, h.version, h.decodes, ?_, ?_, ?_⟩
  · rw [h.certification, PublicationCatalogue.certificationState, PublicationCatalogue.certificationState, hcertification]
  · rw [h.certifiedBy, hcertifiedBy]
  · rw [h.withdrawn, PublicationCatalogue.isWithdrawn, PublicationCatalogue.isWithdrawn, hwithdrawn]

/-- Only the lookups of the axes matter, and time passes. -/
theorem Refines.congr {s' : PublicationCatalogue} (h : Refines db last s t) (hversions : s'.versions = s.versions)
    (hcurrent : s'.current = s.current) (htitles : s'.titles = s.titles) (haxes : ∀ key, SameAxes s s' key) (hlast : last ≤ now) :
    Refines db now s' t where
  rows := by
    rw [hversions]
    exact h.rows.imp fun _ _ hp => ⟨hp.1, hp.2.congr (haxes _)⟩
  absent key hkey := by
    obtain ⟨hcertification, hcertifiedBy, hwithdrawn⟩ := haxes key
    rw [hcertification, hcertifiedBy, hwithdrawn]
    exact h.absent key (hversions ▸ hkey)
  current := hcurrent ▸ h.current
  pointed := h.pointed
  titles := htitles ▸ h.titles
  created row hrow := (h.created row hrow).trans hlast
  checked := h.checked

/-- A well-formed item, of a package that is valid. -/
structure WellFormedItem (item : PublishedVersion) : Prop where
  version_pos : 1 ≤ item.version
  named : isBlankIdentity item.identityId = false
  derived : item.derivedFromIdentity.isSome = item.derivedFromVersion.isSome
  valid : ∀ package ∈ item.semantic, package.calculation.expression.Valid

/-- A row that was just written decodes as the item. -/
theorem decode_versionRow (hjsonb : ∀ j, Stored j (db.jsonb j)) {item : PublishedVersion} (hwf : WellFormedItem item) :
    decodeVersion db (versionRow db now item) = .ok item := by
  cases hsemantic : item.semantic with
  | none =>
    simp only [decodeVersion, versionRow, hsemantic, Option.map_none, semanticPackage]
    rw [← hsemantic]
  | some package =>
    have hread : semanticPackage db.co (some (db.jsonb (semanticPayload package))) = .ok (some package) :=
      StoredAux.package_of_stored (hwf.valid package hsemantic) (hjsonb (semanticPayload package))
    simp only [decodeVersion, versionRow, hsemantic, Option.map_some, hread]
    rw [← hsemantic]

theorem versionCheck_versionRow {item : PublishedVersion} (hwf : WellFormedItem item) : versionCheck (versionRow db now item) = none := by
  have hpos : ¬ item.version < 1 := not_lt.mpr hwf.version_pos
  have huncertified : ¬ ("uncertified" = "certified") := by decide
  simp [versionCheck, versionRow, hwf.named, hpos, hwf.derived, huncertified]

theorem titlesWith_get? (h : Refines db last s t) {item : PublishedVersion} (rows : String → List VersionRow) (row : VersionRow)
    (hrow : row.title = item.title) (hlt : last < row.createdAt)
    (hrows : ∀ identityId, rows identityId = if identityId = item.identityId then t.rowsOf identityId ++ [row] else t.rowsOf identityId)
    (identityId : String) : (s.titlesWith item).get? identityId = PublicationTables.firstTitle (rows identityId) := by
  have hcreated : ∀ r ∈ t.rowsOf identityId, r.createdAt < row.createdAt := by
    intro r hr
    obtain ⟨e, he, rfl⟩ := List.mem_map.mp hr
    exact lt_of_le_of_lt (h.created _ (List.mem_map_of_mem (List.mem_of_mem_filter he))) hlt
  rw [hrows]
  by_cases hid : identityId = item.identityId
  · subst hid
    rw [if_pos rfl, firstTitle_append hcreated, hrow, ← h.titles]
    unfold PublicationCatalogue.titlesWith
    cases htitle : s.titles.get? item.identityId with
    | none =>
      simp only [Dict.get?_set_self]
      rfl
    | some title =>
      simp only [htitle]
      rfl
  · rw [if_neg hid, ← h.titles]
    unfold PublicationCatalogue.titlesWith
    split
    · exact Dict.get?_set_of_ne _ _ fun heq => hid heq.symm
    · rfl

/-- A new version is inserted. -/
theorem Refines.insert (h : Refines db last s t) (hjsonb : ∀ j, Stored j (db.jsonb j)) {item : PublishedVersion}
    (hnew : s.get item.identityId item.version = none) (hwf : WellFormedItem item) (hstorable : storableItem item = true)
    (hlast : last < now) :
    ∃ t', t.insertVersion db now item = .ok t' ∧ t'.identities = t.identities ∧
      (t'.versions.get? (item.identityId, item.version)).isSome = true ∧
      Refines db now { s with versions := s.versions.set (item.identityId, item.version) item, titles := s.titlesWith item } t' := by
  have ht : t.versions.get? (item.identityId, item.version) = none := h.get_none hnew
  refine ⟨{ t with versions := t.versions.set (item.identityId, item.version) (versionRow db now item) }, ?_, rfl, ?_, ?_⟩
  · have hguard : ¬ storableItem item = false := by rw [hstorable]; rintro ⟨⟩
    rw [PublicationTables.insertVersion, if_neg hguard]
    simp only [versionCheck_versionRow hwf, ht, Option.isSome_none, Bool.false_eq_true, if_false]
  · rw [Dict.get?_set_self]
    rfl
  · have habsent := h.absent _ hnew
    have haxes : ∀ key, SameAxes s { s with versions := s.versions.set (item.identityId, item.version) item, titles := s.titlesWith item }
        key := fun _ => ⟨rfl, rfl, rfl⟩
    refine ⟨?_, fun key hkey => ?_, h.current, fun identityId row hrow => ?_, fun identityId => ?_,
      Dict.forall_values_set (fun row hrow => (h.created row hrow).trans hlast.le) le_rfl,
      Dict.forall_values_set h.checked (versionCheck_versionRow hwf)⟩
    · refine Dict.forall₂_setEntries (P := Holds db s) (fun _ _ hp => hp.1) (fun e r hp _ => ⟨hp.1, hp.2.congr (haxes _)⟩)
        ⟨rfl, rfl, rfl, ⟨item, decode_versionRow hjsonb hwf, rfl⟩, ?_, ?_, ?_⟩ s.versions.nodup h.rows
      · rw [PublicationCatalogue.certificationState, habsent.1]
        rfl
      · exact habsent.2.1.symm
      · rw [PublicationCatalogue.isWithdrawn, habsent.2.2]
        rfl
    · by_cases hk : (item.identityId, item.version) = key
      · rw [← hk, Dict.get?_set_self] at hkey
        cases hkey
      · rw [Dict.get?_set_of_ne _ _ hk] at hkey
        exact h.absent key hkey
    · obtain ⟨hsome, hpointer⟩ := h.pointed identityId row hrow
      refine ⟨?_, hpointer⟩
      by_cases hk : (item.identityId, item.version) = (identityId, row.currentVersion)
      · rw [← hk, Dict.get?_set_self]
        rfl
      · rw [Dict.get?_set_of_ne _ _ hk]
        exact hsome
    · refine titlesWith_get? h
        (PublicationTables.rowsOf { t with versions := t.versions.set (item.identityId, item.version) (versionRow db now item) })
        (versionRow db now item) rfl hlast (fun identityId => ?_) identityId
      have hkeys : (item.identityId, item.version) ∉ t.versions.keys := Dict.get?_eq_none_iff.mp ht
      unfold PublicationTables.rowsOf
      rw [Dict.entries_set_of_not_mem _ _ hkeys, List.filter_append, List.map_append]
      by_cases hid : identityId = item.identityId
      · rw [if_pos hid, List.filter_cons, if_pos (decide_eq_true hid.symm)]
        rfl
      · have hne : ¬ item.identityId = identityId := fun heq => hid heq.symm
        rw [if_neg hid, List.filter_cons, if_neg (by simpa using hne)]
        simp

/-- A version is replaced by an equal one. -/
theorem Refines.replace (h : Refines db last s t) {item existing : PublishedVersion}
    (hold : s.get item.identityId item.version = some existing) (hkey : existing.key = item.key) (hlast : last ≤ now) :
    Refines db now { s with versions := s.versions.set (item.identityId, item.version) item, titles := s.titlesWith item } t := by
  have htitles : s.titlesWith item = s.titles := by
    have hsome : ∃ title, s.titles.get? item.identityId = some title := by
      rw [h.titles]
      rcases h.get (item.identityId, item.version) with ⟨hnone, -⟩ | ⟨_, row, -, hrow, -⟩
      · rw [PublicationCatalogue.get, hnone] at hold
        nomatch hold
      · have hmem : row ∈ t.rowsOf item.identityId := by
          refine List.mem_map.mpr ⟨_, List.mem_filter.mpr ⟨Dict.get?_eq_some_iff.mp hrow, ?_⟩, rfl⟩
          exact decide_eq_true rfl
        cases hrows : t.rowsOf item.identityId with
        | nil =>
          rw [hrows] at hmem
          nomatch hmem
        | cons r rest => exact ⟨_, rfl⟩
    obtain ⟨title, htitle⟩ := hsome
    rw [PublicationCatalogue.titlesWith, htitle]
  refine ⟨?_, fun key hk => ?_, h.current, h.pointed, ?_, fun row hrow => (h.created row hrow).trans hlast, h.checked⟩
  · rcases h.get (item.identityId, item.version) with ⟨hnone, -⟩ | ⟨existing', row, hexisting, hrow, hp⟩
    · rw [PublicationCatalogue.get, hnone] at hold
      nomatch hold
    · rw [PublicationCatalogue.get, hexisting, Option.some.injEq] at hold
      subst hold
      have hset := Dict.setEntries_of_getEntries hrow
      rw [← hset]
      refine Dict.forall₂_setEntries (P := Holds db s) (fun _ _ hp => hp.1)
        (fun e r hp _ => ⟨hp.1, hp.2.congr ⟨rfl, rfl, rfl⟩⟩) ⟨rfl, ?_⟩ s.versions.nodup h.rows
      obtain ⟨item', hdecode, hitem'⟩ := hp.decodes
      exact ⟨hp.identity, hp.version, ⟨item', hdecode, hitem'.trans hkey⟩, hp.certification, hp.certifiedBy, hp.withdrawn⟩
  · by_cases hkey' : (item.identityId, item.version) = key
    · rw [← hkey', Dict.get?_set_self] at hk
      nomatch hk
    · rw [Dict.get?_set_of_ne _ _ hkey'] at hk
      exact h.absent key hk
  · rw [htitles]
    exact h.titles

/-- The pointer statement establishes or advances the pointer. -/
theorem Refines.point (h : Refines db last s t) {identityId title : String} {version : Int}
    (hexists : (t.versions.get? (identityId, version)).isSome = true) (hpos : 1 ≤ version) (hstorable : storableInteger version = true)
    (hlt : ∀ row, t.identities.get? identityId = some row → row.currentVersion < version) :
    ∃ t', t.writePointer identityId title version = .ok t' ∧
      Refines db last { s with current := s.current.set identityId version } t' := by
  have hcheck : ¬ version < 1 := not_lt.mpr hpos
  have hfk : ¬ (t.versions.get? (identityId, version)).isNone = true := by
    obtain ⟨row, hrow⟩ := Option.isSome_iff_exists.mp hexists
    rw [hrow]
    nofun
  obtain ⟨row, hrow, hversion⟩ : ∃ row : IdentityRow, t.pointerRow identityId title version = .ok (some row) ∧
      row.currentVersion = version := by
    unfold PublicationTables.pointerRow
    rw [if_neg hcheck]
    cases hrow : t.identities.get? identityId with
    | none =>
      simp only [if_neg hfk]
      exact ⟨_, rfl, rfl⟩
    | some row =>
      have hguard : ¬ guardPointer row { row with currentVersion := version } = true := by
        simp only [guardPointer, decide_eq_true_eq]
        exact not_lt.mpr (hlt row hrow).le
      simp only [if_pos (hlt row hrow), if_neg hguard, if_neg hfk]
      exact ⟨_, rfl, rfl⟩
  refine ⟨{ t with identities := t.identities.set identityId row }, by rw [PublicationTables.writePointer, hrow]; rfl, ?_⟩
  refine ⟨h.rows.imp fun _ _ hp => ⟨hp.1, hp.2.congr ⟨rfl, rfl, rfl⟩⟩, h.absent, fun id => ?_, fun id r hr => ?_, h.titles, h.created, h.checked⟩
  · by_cases hid : identityId = id
    · rw [← hid, Dict.get?_set_self, Dict.get?_set_self, Option.map_some, hversion]
    · rw [Dict.get?_set_of_ne _ _ hid, Dict.get?_set_of_ne _ _ hid]
      exact h.current id
  · by_cases hid : identityId = id
    · rw [← hid, Dict.get?_set_self, Option.some.injEq] at hr
      rw [← hr, hversion, ← hid]
      exact ⟨hexists, hstorable⟩
    · rw [Dict.get?_set_of_ne _ _ hid] at hr
      exact h.pointed id r hr

theorem versionCheck_certified {row : VersionRow} (h : versionCheck row = none) (by_ : String) :
    versionCheck { row with certification := "certified", certifiedBy := some by_ } = none := by
  unfold versionCheck at h ⊢
  simp only at h ⊢
  repeat' split at h
  all_goals simp_all

/-- An UPDATE of the axes of a version. -/
theorem Refines.update (h : Refines db last s t) (s' : PublicationCatalogue) {identityId : String} {version : Int}
    (update : VersionRow → VersionRow) (hversions : s'.versions = s.versions) (hcurrent : s'.current = s.current)
    (htitles : s'.titles = s.titles) (haxes : ∀ key, key ≠ (identityId, version) → SameAxes s s' key)
    (hkeep : ∀ row, decodeVersion db (update row) = decodeVersion db row ∧
      ((update row).createdAt, (update row).version, (update row).title) = (row.createdAt, row.version, row.title))
    (hadmits : ∀ row, versionCheck row = none → guardVersion row (update row) = false ∧ versionCheck (update row) = none)
    (hset : ∀ item row, RowHolds db s (identityId, version) item row → RowHolds db s' (identityId, version) item (update row))
    (hpresent : (s.get identityId version).isSome = true) :
    ∃ t', t.updateVersion identityId version update = .ok t' ∧ Refines db last s' t' := by
  rcases h.get (identityId, version) with ⟨hnone, -⟩ | ⟨item, row, hitem, hrow, hp⟩
  · rw [PublicationCatalogue.get, hnone] at hpresent
    cases hpresent
  obtain ⟨hguard, hcheck⟩ := hadmits row (h.checked row (Dict.mem_values_iff.mpr ⟨_, hrow⟩))
  have hget : ∀ key, (t.versions.get? key).isSome = true →
      ((t.versions.set (identityId, version) (update row)).get? key).isSome = true := by
    intro key hkey
    by_cases hk : (identityId, version) = key
    · rw [← hk, Dict.get?_set_self]
      rfl
    · rw [Dict.get?_set_of_ne _ _ hk]
      exact hkey
  refine ⟨{ t with versions := t.versions.set (identityId, version) (update row) }, ?_, ?_, fun key hkey => ?_, hcurrent ▸ h.current,
    fun id r hr => ?_, fun id => ?_, ?_, Dict.forall_values_set h.checked hcheck⟩
  · simp only [PublicationTables.updateVersion, hrow, hguard, Bool.false_eq_true, if_false, hcheck]
  · rw [hversions, ← Dict.setEntries_of_getEntries hitem]
    exact Dict.forall₂_setEntries (P := Holds db s) (fun _ _ hp => hp.1)
      (fun e r hp hne => ⟨hp.1, hp.2.congr (haxes e.1 hne)⟩) ⟨rfl, hset item row hp⟩ s.versions.nodup h.rows
  · rw [hversions] at hkey
    have hne : key ≠ (identityId, version) := by
      rintro rfl
      rw [hitem] at hkey
      cases hkey
    obtain ⟨hcertification, hcertifiedBy, hwithdrawn⟩ := haxes key hne
    rw [hcertification, hcertifiedBy, hwithdrawn]
    exact h.absent key hkey
  · obtain ⟨hsome, hstorable⟩ := h.pointed id r hr
    exact ⟨hget _ hsome, hstorable⟩
  · rw [htitles, h.titles]
    exact (firstTitle_congr (Dict.map_filter_setEntries _ (fun key => key.1 = id) hrow (hkeep row).2)).symm
  · refine Dict.forall_values_set h.created ?_
    rw [(Prod.mk.inj (hkeep row).2).1]
    exact h.created row (Dict.mem_values_iff.mpr ⟨_, hrow⟩)

end Writes

end CatalogueAux

/-! ### Calls -/

/-- Answers that are equal in Python's sense. -/
def PublicationAnswer.Same : PublicationAnswer → PublicationAnswer → Prop
  | .done, .done => True
  | .item a, .item b => a.key = b.key
  | .found a, .found b => a.map PublishedVersion.key = b.map PublishedVersion.key
  | .items a, .items b => a.map PublishedVersion.key = b.map PublishedVersion.key
  | .names a, .names b => a = b
  | .number a, .number b => a = b
  | .text a, .text b => a = b
  | .optionalText a, .optionalText b => a = b
  | .flag a, .flag b => a = b
  | _, _ => False

/-- The same error, or answers that are equal. -/
def SameOutcome : Except PublicationError PublicationAnswer → Except PublicationError PublicationAnswer → Prop
  | .error e, .error e' => e = e'
  | .ok a, .ok a' => a.Same a'
  | _, _ => False

/-- An identity has no versions, or its pointer is there and names such a version. -/
def PublicationTables.Admits (t : PublicationTables) (identityId : String) (P : Int → Prop) : Prop :=
  t.rowsOf identityId = [] ∨ ∃ row, t.identities.get? identityId = some row ∧ P row.currentVersion

namespace PublicationCall

open CatalogueAux

/-- The items a call writes are well formed. -/
def WellFormed : PublicationCall → Prop
  | .seed item _ => WellFormedItem item
  | .publish item => WellFormedItem item
  | _ => True

/-- A call that writes nothing. -/
def isRead : PublicationCall → Bool
  | .seed _ _ | .publish _ | .certifyLocalDemo _ _ _ | .withdraw _ _ => false
  | _ => true

/-- The condition under which the durable call does what the process-local one does: the columns can hold what its statements name, and
where identities are listed the collation orders them by code points. -/
def Meets (db : ControlDatabase) (t : PublicationTables) : PublicationCall → Prop
  | .seed item current =>
    storableText item.identityId = true ∧ storableInteger item.version = true ∧
      (t.versions.get? (item.identityId, item.version) = none → (current = true → t.Admits item.identityId (· ≤ item.version)) →
        storableItem item = true)
  | .publish item =>
    storableText item.identityId = true ∧ storableInteger item.version = true ∧
      (t.versions.get? (item.identityId, item.version) = none → item.semantic.isSome = true →
        t.Admits item.identityId (fun _ => True) → storableItem item = true)
  | .certifyLocalDemo identityId version by_ =>
    storableText identityId = true ∧ storableInteger version = true ∧
      ((t.versions.get? (identityId, version)).isSome = true → storableText by_ = true)
  | .withdraw identityId version => storableText identityId = true ∧ storableInteger version = true
  | .get identityId version => storableText identityId = true ∧ storableInteger version = true
  | .versions identityId => storableText identityId = true
  | .identities => ∀ a ∈ t.versions.keys, ∀ b ∈ t.versions.keys, (db.collate a.1 b.1 = true ↔ a.1 ≤ b.1)
  | .currentVersion identityId => storableText identityId = true
  | .title identityId => storableText identityId = true
  | .certificationState identityId version => storableText identityId = true ∧ storableInteger version = true
  | .certifiedBy identityId version => storableText identityId = true ∧ storableInteger version = true
  | .isWithdrawn identityId version => storableText identityId = true ∧ storableInteger version = true

end PublicationCall

namespace CatalogueAux

/-- Two calls raise the same error, or answer the same and go on in states of which one holds the other. -/
inductive Agrees (db : ControlDatabase) (now : Int) : Except PublicationError (PublicationCatalogue × PublicationAnswer) →
    Except PublicationError (PublicationTables × PublicationAnswer) → Prop
  | error (e : PublicationError) : Agrees db now (.error e) (.error e)
  | ok {s : PublicationCatalogue} {t : PublicationTables} {a a' : PublicationAnswer} (hsame : a.Same a') (h : Refines db now s t) :
      Agrees db now (.ok (s, a)) (.ok (t, a'))

section Calls

variable {db : ControlDatabase} {last now : Int} {s : PublicationCatalogue} {t : PublicationTables}

theorem Refines.later (h : Refines db last s t) (hlast : last ≤ now) : Refines db now s t :=
  h.congr rfl rfl rfl (fun _ => ⟨rfl, rfl, rfl⟩) hlast

variable {identityId : String} {version : Int}

/-- A version that is there is among those of its identity. -/
theorem versionsOf_ne_nil {item : PublishedVersion} (h : s.get identityId version = some item) :
    s.versionsOf identityId ≠ [] := by
  intro hnil
  have hmem : item ∈ s.versionsOf identityId := by
    rw [PublicationCatalogue.versionsOf, List.mem_insertionSort]
    exact List.mem_map.mpr ⟨_, List.mem_filter.mpr ⟨Dict.get?_eq_some_iff.mp h, decide_eq_true rfl⟩, rfl⟩
  rw [hnil] at hmem
  nomatch hmem

theorem current_of_currentVersion {n : Int} (h : s.currentVersion identityId = .ok n) :
    s.current.get? identityId = some n := by
  unfold PublicationCatalogue.currentVersion at h
  split at h
  · cases h
  · split at h
    · cases h
    · rename_i current hcurrent
      split at h
      · cases h
      · cases h
        exact hcurrent

theorem pop_get? {α : Type} {d : Dict (String × Int) α} {key : String × Int} (habsent : d.get? key = none) (key' : String × Int) :
    (PublicationCatalogue.pop d key).get? key' = d.get? key' := by
  have hnot : ∀ e ∈ d.entries, e.1 ≠ key := by
    rintro e he rfl
    exact Dict.get?_eq_none_iff.mp habsent (List.mem_map_of_mem he)
  have hfilter : d.entries.filter (fun entry => entry.1 ≠ key) = d.entries :=
    List.filter_eq_self.mpr fun e he => decide_eq_true (hnot e he)
  simp only [PublicationCatalogue.pop, Dict.get?, hfilter]

/-- A read of a version and the catalogue's find one, or both find none. -/
theorem found_isNone {found existing : Option PublishedVersion}
    (h : found.map PublishedVersion.key = existing.map PublishedVersion.key) : found.isNone = existing.isNone := by
  have hisNone : ∀ o : Option PublishedVersion, o.isNone = (o.map PublishedVersion.key).isNone := by
    intro o
    cases o <;> rfl
  rw [hisNone, hisNone existing, h]

/-- An UPDATE that keeps what is immutable passes the trigger. -/
theorem guardVersion_axes (row : VersionRow) (certification : String) (certifiedBy : Option String) (withdrawn : Bool) :
    guardVersion row { row with certification, certifiedBy, withdrawn } = false := by
  simp [guardVersion]

/-- A column of a version is read as the catalogue has it. -/
theorem readColumn_eq (hid : storableText identityId = true) (hv : storableInteger version = true) {α : Type} (column : VersionRow → α) :
    t.readColumn identityId version column = .ok ((t.versions.get? (identityId, version)).map column) := by
  have hguard : ¬ ¬ (storableText identityId = true ∧ storableInteger version = true) := not_not_intro ⟨hid, hv⟩
  rw [PublicationTables.readColumn, if_neg hguard]

theorem Agrees.later {r : Except PublicationError (PublicationCatalogue × PublicationAnswer)}
    {r' : Except PublicationError (PublicationTables × PublicationAnswer)} (h : Agrees db last r r') (hlast : last ≤ now) :
    Agrees db now r r' := by
  cases h with
  | error e => exact .error e
  | ok hsame h => exact .ok hsame (h.later hlast)

variable (h : Refines db last s t)
include h

variable {identityId : String} {version : Int}

/-- A pointer that is written advances the one that is there. -/
theorem Refines.lt_of_current {n version : Int} (hn : s.current.get? identityId = some n)
    (hlt : n < version) : ∀ row, t.identities.get? identityId = some row → row.currentVersion < version := by
  intro row hrow
  rw [h.current, hrow, Option.map_some, Option.some.injEq] at hn
  rw [hn]
  exact hlt

variable {item : PublishedVersion}

theorem Refines.seedPointer_some (hid : storableText item.identityId = true)
    {version : Int} (hpointer : t.seedPointer db item = .ok (some version)) :
    version = item.version ∧ ∀ row, t.identities.get? item.identityId = some row → row.currentVersion < version := by
  obtain ⟨items, hitems, hkeys⟩ := h.readVersions hid
  unfold PublicationTables.seedPointer at hpointer
  rw [hitems, h.readPointer hid, h.currentVersionIn hid] at hpointer
  simp only [bind, Except.bind] at hpointer
  split at hpointer
  · split at hpointer
    · cases hpointer
    · rename_i hnone
      cases hpointer
      refine ⟨rfl, fun row hrow => ?_⟩
      rw [h.current, hrow] at hnone
      exact absurd rfl hnone
  · cases hcurrent : s.currentVersion item.identityId with
    | error e =>
      rw [hcurrent] at hpointer
      cases hpointer
    | ok current =>
      rw [hcurrent] at hpointer
      simp only at hpointer
      split at hpointer
      · cases hpointer
      · split at hpointer
        · rename_i hlt
          cases hpointer
          exact ⟨rfl, h.lt_of_current (current_of_currentVersion hcurrent) hlt⟩
        · cases hpointer

theorem Refines.publishCurrent_lt {current : Option Int}
    (hcurrent : s.publishCurrent item = .ok current) (hall : current.all (· < item.version) = true) :
    ∀ row, t.identities.get? item.identityId = some row → row.currentVersion < item.version := by
  unfold PublicationCatalogue.publishCurrent at hcurrent
  split at hcurrent
  · rename_i hempty
    intro row hrow
    -- a pointer names a version that is there
    obtain ⟨hsome, -⟩ := h.pointed item.identityId row hrow
    rcases h.get (item.identityId, row.currentVersion) with ⟨-, hnone⟩ | ⟨existing, -, hexisting, -, -⟩
    · rw [hnone] at hsome
      nomatch hsome
    · exact absurd hempty (versionsOf_ne_nil hexisting)
  · cases hn : s.currentVersion item.identityId with
    | error e =>
      rw [hn] at hcurrent
      nomatch hcurrent
    | ok n =>
      rw [hn] at hcurrent
      cases hcurrent
      exact h.lt_of_current (current_of_currentVersion hn) (of_decide_eq_true hall)

theorem Refines.writePointer? {pointer : Option Int}
    (hexists : (t.versions.get? (item.identityId, item.version)).isSome = true) (hpos : 1 ≤ item.version)
    (hstorable : storableInteger item.version = true)
    (hpointer : ∀ version, pointer = some version →
      version = item.version ∧ ∀ row, t.identities.get? item.identityId = some row → row.currentVersion < version) :
    ∃ t', t.writePointer? item pointer = .ok t' ∧
      Refines db last { s with current := pointTo s.current item.identityId pointer } t' := by
  cases pointer with
  | none => exact ⟨t, rfl, h⟩
  | some version =>
    obtain ⟨rfl, hlt⟩ := hpointer version rfl
    exact h.point hexists hpos hstorable hlt

/-- Where the current version is found, the pointer is there and names it. -/
theorem Refines.admits {n : Int} {P : Int → Prop} (hn : s.currentVersion identityId = .ok n) (hP : P n) : t.Admits identityId P := by
  have hcurrent := current_of_currentVersion hn
  rw [h.current, Option.map_eq_some_iff] at hcurrent
  obtain ⟨row, hrow, rfl⟩ := hcurrent
  exact Or.inr ⟨row, hrow, hP⟩

theorem Refines.seedPointer_admits
    {pointers : Dict String Int} (hpointers : s.seedPointers item = .ok pointers) : t.Admits item.identityId (· ≤ item.version) := by
  unfold PublicationCatalogue.seedPointers at hpointers
  split at hpointers
  · rename_i hempty
    exact Or.inl (h.rowsOf_eq_nil hempty)
  · cases hn : s.currentVersion item.identityId with
    | error e =>
      rw [hn] at hpointers
      cases hpointers
    | ok n =>
      rw [hn] at hpointers
      simp only [bind, Except.bind] at hpointers
      split at hpointers
      · cases hpointers
      · rename_i hle
        exact h.admits hn (not_lt.mp hle)

theorem Refines.publishCurrent_admits {current : Option Int}
    (hcurrent : s.publishCurrent item = .ok current) : t.Admits item.identityId fun _ => True := by
  unfold PublicationCatalogue.publishCurrent at hcurrent
  split at hcurrent
  · rename_i hempty
    exact Or.inl (h.rowsOf_eq_nil hempty)
  · cases hn : s.currentVersion item.identityId with
    | error e =>
      rw [hn] at hcurrent
      nomatch hcurrent
    | ok n => exact h.admits hn trivial

theorem seed_agrees (hjsonb : ∀ j, Stored j (db.jsonb j)) {item : PublishedVersion} {current : Bool}
    (hwf : WellFormedItem item) (hmeets : (PublicationCall.seed item current).Meets db t) (hlast : last < now) :
    Agrees db now (s.call (.seed item current)) (t.call db now (.seed item current)) := by
  obtain ⟨hid, hv, hinserts⟩ := hmeets
  obtain ⟨found, hfound, hfoundkey⟩ := h.readVersion hid hv
  simp only [PublicationCatalogue.call, PublicationTables.call, PublicationCatalogue.seed, PublicationTables.seed, hfound, bind,
    Except.bind, conflicts_congr hfoundkey]
  by_cases hconflict : PublicationCatalogue.conflicts item (s.get item.identityId item.version) = true
  · rw [if_pos hconflict, if_pos hconflict]
    exact .error _
  rw [if_neg hconflict, if_neg hconflict]
  -- the pointer that is to be written is decided before anything is
  have hpointers : s.seedCurrent item current = (t.seedPointer? db item current).map (pointTo s.current item.identityId) := by
    cases current with
    | true => exact h.seedPointer hid
    | false => rfl
  have hsome : ∀ pointer, t.seedPointer? db item current = .ok pointer → ∀ version, pointer = some version →
      version = item.version ∧ ∀ row, t.identities.get? item.identityId = some row → row.currentVersion < version := by
    rintro pointer hpointer version rfl
    cases current with
    | true => exact h.seedPointer_some hid hpointer
    | false => cases hpointer
  rw [hpointers]
  cases hpointer : t.seedPointer? db item current with
  | error e => exact .error e
  | ok pointer =>
    have hpointer' := hsome pointer hpointer
    simp only [Except.map]
    cases hget : s.get item.identityId item.version with
    | none =>
      rw [hget, Option.map_none, Option.map_eq_none_iff] at hfoundkey
      have hadmits : current = true → t.Admits item.identityId (· ≤ item.version) := by
        rintro rfl
        rw [hpointer] at hpointers
        exact h.seedPointer_admits hpointers
      have hstorable := hinserts (h.get_none hget) hadmits
      obtain ⟨t', hinsert, hidentities, hexists, hrefines⟩ := h.insert hjsonb hget hwf hstorable hlast
      obtain ⟨t'', hwrite, hrefines'⟩ := hrefines.writePointer? hexists hwf.version_pos hv (by rw [hidentities]; exact hpointer')
      simp only [PublicationTables.insertMissing, hfoundkey, Option.isNone_none, if_true, hinsert, hwrite]
      exact .ok rfl hrefines'
    | some existing =>
      have hkey : existing.key = item.key := by
        rw [hget, PublicationCatalogue.conflicts, Option.any_some] at hconflict
        simpa using hconflict
      have hfoundsome : found.isNone = false := by
        rw [hget, Option.map_some, Option.map_eq_some_iff] at hfoundkey
        obtain ⟨_, rfl, -⟩ := hfoundkey
        rfl
      have hexists : (t.versions.get? (item.identityId, item.version)).isSome = true := by
        rcases h.get (item.identityId, item.version) with ⟨hnone, -⟩ | ⟨_, row, -, hrow, -⟩
        · rw [PublicationCatalogue.get, hnone] at hget
          cases hget
        · rw [hrow]
          rfl
      have hrefines := h.replace hget hkey hlast.le
      obtain ⟨t', hwrite, hrefines'⟩ := hrefines.writePointer? hexists hwf.version_pos hv hpointer'
      simp only [PublicationTables.insertMissing, hfoundsome, Bool.false_eq_true, if_false, hwrite]
      exact .ok rfl hrefines'

theorem publish_agrees (hjsonb : ∀ j, Stored j (db.jsonb j)) {item : PublishedVersion}
    (hwf : WellFormedItem item) (hmeets : (PublicationCall.publish item).Meets db t) (hlast : last < now) :
    Agrees db now (s.call (.publish item)) (t.call db now (.publish item)) := by
  obtain ⟨hid, hv, hinserts⟩ := hmeets
  obtain ⟨found, hfound, hfoundkey⟩ := h.readVersion hid hv
  simp only [PublicationCatalogue.call, PublicationTables.call, PublicationCatalogue.publish, PublicationTables.publish, hfound, bind,
    Except.bind, h.publishCurrent hid]
  cases hget : s.get item.identityId item.version with
  | some existing =>
    rw [hget, Option.map_some, Option.map_eq_some_iff] at hfoundkey
    obtain ⟨_, rfl, -⟩ := hfoundkey
    exact .error _
  | none =>
    rw [hget, Option.map_none, Option.map_eq_none_iff] at hfoundkey
    simp only [hfoundkey, Option.isSome_none, Bool.false_eq_true, if_false]
    by_cases hsemantic : item.semantic.isNone = true
    · rw [if_pos hsemantic, if_pos hsemantic]
      exact .error _
    rw [if_neg hsemantic, if_neg hsemantic]
    cases hcurrent : s.publishCurrent item with
    | error e => exact .error e
    | ok current =>
      have hstorable := hinserts (h.get_none hget) (Option.isSome_iff_ne_none.mpr fun hnone => hsemantic (by rw [hnone]; rfl)) (h.publishCurrent_admits hcurrent)
      obtain ⟨t', hinsert, hidentities, hexists, hrefines⟩ := h.insert hjsonb hget hwf hstorable hlast
      obtain ⟨hcertification, hcertifiedBy, hwithdrawn⟩ := h.absent (item.identityId, item.version) hget
      simp only [hinsert, PublicationTables.asImmutable]
      have hpop : ∀ key, (PublicationCatalogue.pop s.certification (item.identityId, item.version)).get? key = s.certification.get? key ∧
          (PublicationCatalogue.pop s.certifiedBy (item.identityId, item.version)).get? key = s.certifiedBy.get? key ∧
          (PublicationCatalogue.pop s.withdrawn (item.identityId, item.version)).get? key = s.withdrawn.get? key :=
        fun key => ⟨pop_get? hcertification key, pop_get? hcertifiedBy key, pop_get? hwithdrawn key⟩
      by_cases hall : current.all (· < item.version) = true
      · obtain ⟨t'', hwrite, hrefines'⟩ := hrefines.point hexists hwf.version_pos hv
          (by rw [hidentities]; exact h.publishCurrent_lt hcurrent hall)
        rw [if_pos hall, if_pos hall, hwrite]
        exact .ok rfl (hrefines'.congr rfl rfl rfl hpop le_rfl)
      · rw [if_neg hall, if_neg hall]
        exact .ok rfl (hrefines.congr rfl rfl rfl hpop le_rfl)

theorem certify_agrees {identityId by_ : String} {version : Int}
    (hmeets : (PublicationCall.certifyLocalDemo identityId version by_).Meets db t) (hlast : last ≤ now) :
    Agrees db now (s.call (.certifyLocalDemo identityId version by_)) (t.call db now (.certifyLocalDemo identityId version by_)) := by
  obtain ⟨hid, hv, hby⟩ := hmeets
  obtain ⟨found, hfound, hfoundkey⟩ := h.readVersion hid hv
  simp only [PublicationCatalogue.call, PublicationTables.call, PublicationCatalogue.certifyLocalDemo, PublicationTables.certifyLocalDemo,
    hfound, bind, Except.bind, found_isNone hfoundkey]
  cases hget : s.get identityId version with
  | none => exact .error _
  | some item =>
    have hguard : ¬ storableText by_ = false := by
      rcases h.get (identityId, version) with ⟨hnone, -⟩ | ⟨_, row, -, hrow, -⟩
      · rw [PublicationCatalogue.get, hnone] at hget
        cases hget
      · rw [hby (by rw [hrow]; rfl)]
        rintro ⟨⟩
    obtain ⟨t', hupdate, hrefines⟩ := (h.later hlast).update
      { s with
        certification := s.certification.set (identityId, version) "certified"
        certifiedBy := s.certifiedBy.set (identityId, version) by_ }
      (fun row => { row with certification := "certified", certifiedBy := some by_ }) rfl rfl rfl
      (fun key hne => ⟨Dict.get?_set_of_ne _ _ fun heq => hne heq.symm, Dict.get?_set_of_ne _ _ fun heq => hne heq.symm, rfl⟩)
      (fun row => ⟨rfl, rfl⟩)
      (fun row hcheck => ⟨guardVersion_axes row _ _ _, versionCheck_certified hcheck by_⟩)
      (fun item row hp => ⟨hp.identity, hp.version, hp.decodes, by
        rw [PublicationCatalogue.certificationState, Dict.get?_set_self]
        rfl, (Dict.get?_set_self _ _ _).symm, hp.withdrawn⟩)
      (by rw [hget]; rfl)
    rw [Option.isNone_some, if_neg Bool.false_ne_true, if_neg Bool.false_ne_true, if_neg hguard, hupdate]
    exact .ok trivial hrefines

theorem withdraw_agrees (hid : storableText identityId = true) (hv : storableInteger version = true) (hlast : last ≤ now) :
    Agrees db now (s.call (.withdraw identityId version)) (t.call db now (.withdraw identityId version)) := by
  obtain ⟨found, hfound, hfoundkey⟩ := h.readVersion hid hv
  simp only [PublicationCatalogue.call, PublicationTables.call, PublicationCatalogue.withdraw, PublicationTables.withdraw, hfound, bind,
    Except.bind, found_isNone hfoundkey]
  cases hget : s.get identityId version with
  | none => exact .error _
  | some item =>
    obtain ⟨t', hupdate, hrefines⟩ := (h.later hlast).update
      { s with withdrawn := s.withdrawn.set (identityId, version) true }
      (fun row => { row with withdrawn := true }) rfl rfl rfl
      (fun key hne => ⟨rfl, rfl, Dict.get?_set_of_ne _ _ fun heq => hne heq.symm⟩)
      (fun row => ⟨rfl, rfl⟩)
      (fun row hcheck => ⟨guardVersion_axes row _ _ _, hcheck⟩)
      (fun item row hp => ⟨hp.identity, hp.version, hp.decodes, hp.certification, hp.certifiedBy, by
        rw [PublicationCatalogue.isWithdrawn, Dict.get?_set_self]
        rfl⟩)
      (by rw [hget]; rfl)
    rw [Option.isNone_some, if_neg Bool.false_ne_true, if_neg Bool.false_ne_true, hupdate]
    exact .ok trivial hrefines

theorem certificationState_agrees (hid : storableText identityId = true) (hv : storableInteger version = true) :
    Agrees db last (s.call (.certificationState identityId version)) (t.call db now (.certificationState identityId version)) := by
  rw [PublicationCatalogue.call, PublicationTables.call, readColumn_eq hid hv]
  refine .ok ?_ h
  rcases h.get (identityId, version) with ⟨hs, ht⟩ | ⟨_, row, -, ht, hp⟩
  · rw [ht, PublicationCatalogue.certificationState, (h.absent _ hs).1]
    rfl
  · rw [ht, ← hp.certification]
    rfl

theorem certifiedBy_agrees (hid : storableText identityId = true) (hv : storableInteger version = true) :
    Agrees db last (s.call (.certifiedBy identityId version)) (t.call db now (.certifiedBy identityId version)) := by
  rw [PublicationCatalogue.call, PublicationTables.call, readColumn_eq hid hv]
  refine .ok ?_ h
  rcases h.get (identityId, version) with ⟨hs, ht⟩ | ⟨_, row, -, ht, hp⟩
  · rw [ht, (h.absent _ hs).2.1]
    rfl
  · rw [ht, ← hp.certifiedBy]
    rfl

theorem isWithdrawn_agrees (hid : storableText identityId = true) (hv : storableInteger version = true) :
    Agrees db last (s.call (.isWithdrawn identityId version)) (t.call db now (.isWithdrawn identityId version)) := by
  rw [PublicationCatalogue.call, PublicationTables.call, readColumn_eq hid hv]
  refine .ok ?_ h
  rcases h.get (identityId, version) with ⟨hs, ht⟩ | ⟨_, row, -, ht, hp⟩
  · rw [ht, PublicationCatalogue.isWithdrawn, (h.absent _ hs).2.2]
    rfl
  · rw [ht, ← hp.withdrawn]
    rfl

theorem Refines.names :
    (t.versions.entries.map fun entry => entry.1.1) = s.versions.entries.map fun entry => entry.1.1 := by
  have hmap := congrArg (List.map Prod.fst) (Dict.map_fst_of_forall₂ (fun _ _ hp => hp.1) h.rows).symm
  rwa [List.map_map, List.map_map] at hmap

/-- The identities are the same, and sorted alike where the collation orders them by code points. -/
theorem identities_agrees (hmeets : PublicationCall.identities.Meets db t) :
    Agrees db last (s.call .identities) (t.call db now .identities) := by
  refine .ok ?_ h
  rw [PublicationCatalogue.identities, PublicationTables.identityNames, h.names, sortedStr]
  refine insertionSort_congr fun a ha b hb => ?_
  have hmem : ∀ x ∈ fromKeys (s.versions.entries.map fun entry => entry.1.1), ∃ n, (x, n) ∈ t.versions.keys := by
    intro x hx
    rw [mem_fromKeys, ← h.names] at hx
    obtain ⟨⟨⟨x', n⟩, row⟩, hentry, rfl⟩ := List.mem_map.mp hx
    exact ⟨n, List.mem_map.mpr ⟨_, hentry, rfl⟩⟩
  obtain ⟨n, hn⟩ := hmem a ha
  obtain ⟨m, hm⟩ := hmem b hb
  exact (hmeets _ hn _ hm).symm

/-- A call that reads. -/
theorem read_agrees {call : PublicationCall} (hread : call.isRead = true) (hmeets : call.Meets db t) :
    Agrees db last (s.call call) (t.call db now call) := by
  cases call with
  | seed item current => cases hread
  | publish item => cases hread
  | certifyLocalDemo identityId version by_ => cases hread
  | withdraw identityId version => cases hread
  | get identityId version =>
    obtain ⟨found, hfound, hkey⟩ := h.readVersion hmeets.1 hmeets.2
    rw [PublicationCatalogue.call, PublicationTables.call, hfound]
    exact .ok hkey.symm h
  | versions identityId =>
    obtain ⟨items, hitems, hkeys⟩ := h.readVersions hmeets
    rw [PublicationCatalogue.call, PublicationTables.call, hitems]
    exact .ok hkeys.symm h
  | identities => exact identities_agrees h hmeets
  | currentVersion identityId =>
    rw [PublicationCatalogue.call, PublicationTables.call, h.currentVersionIn hmeets]
    cases s.currentVersion identityId with
    | error e => exact .error e
    | ok n => exact .ok rfl h
  | title identityId =>
    have hguard : ¬ storableText identityId = false := by rw [show storableText identityId = true from hmeets]; rintro ⟨⟩
    rw [PublicationCatalogue.call, PublicationTables.call, PublicationTables.readTitle, if_neg hguard, PublicationCatalogue.title, h.titles]
    exact .ok rfl h
  | certificationState identityId version => exact certificationState_agrees h hmeets.1 hmeets.2
  | certifiedBy identityId version => exact certifiedBy_agrees h hmeets.1 hmeets.2
  | isWithdrawn identityId version => exact isWithdrawn_agrees h hmeets.1 hmeets.2

/-- Every call. -/
theorem call_agrees (hjsonb : ∀ j, Stored j (db.jsonb j)) {call : PublicationCall} (hwell : call.WellFormed)
    (hmeets : call.Meets db t) (hlast : last < now) : Agrees db now (s.call call) (t.call db now call) := by
  cases call with
  | seed item current => exact seed_agrees h hjsonb hwell hmeets hlast
  | publish item => exact publish_agrees h hjsonb hwell hmeets hlast
  | certifyLocalDemo identityId version by_ => exact certify_agrees h hmeets hlast.le
  | withdraw identityId version => exact withdraw_agrees h hmeets.1 hmeets.2 hlast.le
  | _ => exact (read_agrees h rfl hmeets).later hlast.le

end Calls

end CatalogueAux

/-! ## Runs -/

namespace PublicationCatalogue

/-- A call, and the time it is made at: the catalogue after it, and what it returns or raises. -/
def apply (s : PublicationCatalogue) (call : Int × PublicationCall) : PublicationCatalogue × Except PublicationError PublicationAnswer :=
  attempt (fun s call => s.call call.2) s call

/-- Calls one at a time. -/
def run (s : PublicationCatalogue) (calls : List (Int × PublicationCall)) :
    PublicationCatalogue × List (Except PublicationError PublicationAnswer) :=
  runCalls apply s calls

end PublicationCatalogue

namespace PublicationTables

/-- A call, and the time its transaction begins at. -/
def apply (db : ControlDatabase) (t : PublicationTables) (call : Int × PublicationCall) :
    PublicationTables × Except PublicationError PublicationAnswer :=
  attempt (fun t call => t.call db call.1 call.2) t call

/-- Calls one at a time. -/
def run (db : ControlDatabase) (t : PublicationTables) (calls : List (Int × PublicationCall)) :
    PublicationTables × List (Except PublicationError PublicationAnswer) :=
  runCalls (apply db) t calls

/-- Every call of a run meets the condition where it is made. -/
def RunMeets (db : ControlDatabase) : PublicationTables → List (Int × PublicationCall) → Prop
  | _, [] => True
  | t, call :: rest => call.2.Meets db t ∧ RunMeets db (t.apply db call).1 rest

end PublicationTables

namespace CatalogueAux

section Runs

variable {db : ControlDatabase} {last : Int} {s : PublicationCatalogue} {t : PublicationTables}

/-- The calls that are left of a run, and the two states they are made in. -/
def Going (db : ControlDatabase) (calls : List (Int × PublicationCall)) (s : PublicationCatalogue) (t : PublicationTables) : Prop :=
  ∃ last, Refines db last s t ∧ ((last :: calls.map Prod.fst).Pairwise (· < ·)) ∧ (∀ call ∈ calls, call.2.WellFormed) ∧
    t.RunMeets db calls

theorem Agrees.apply {now now' : Int} {call : PublicationCall} (h : Agrees db now' (s.call call) (t.call db now call))
    (hrefines : Refines db now' s t) :
    SameOutcome (s.apply (now, call)).2 (t.apply db (now, call)).2 ∧ Refines db now' (s.apply (now, call)).1 (t.apply db (now, call)).1 := by
  generalize hr : s.call call = r at h
  generalize hr' : t.call db now call = r' at h
  cases h with
  | error e =>
    have hs : s.apply (now, call) = (s, .error e) := attempt_error hr
    have ht : t.apply db (now, call) = (t, .error e) := attempt_error hr'
    rw [hs, ht]
    exact ⟨rfl, hrefines⟩
  | @ok s' t' a a' hsame hrefines' =>
    have hs : s.apply (now, call) = (s', .ok a) := attempt_ok hr
    have ht : t.apply db (now, call) = (t', .ok a') := attempt_ok hr'
    rw [hs, ht]
    exact ⟨hsame, hrefines'⟩

theorem Going.step (hjsonb : ∀ j, Stored j (db.jsonb j)) {call : Int × PublicationCall} {rest : List (Int × PublicationCall)}
    (h : Going db (call :: rest) s t) :
    SameOutcome (s.apply call).2 (t.apply db call).2 ∧ Going db rest (s.apply call).1 (t.apply db call).1 := by
  obtain ⟨last, hrefines, htimes, hwell, hmeets⟩ := h
  rw [List.map_cons, List.pairwise_cons] at htimes
  have hlast : last < call.1 := htimes.1 call.1 List.mem_cons_self
  have hagrees := call_agrees hrefines hjsonb (hwell call List.mem_cons_self) hmeets.1 hlast
  obtain ⟨hsame, hrefines'⟩ := hagrees.apply (hrefines.later hlast.le)
  exact ⟨hsame, call.1, hrefines', htimes.2, fun c hc => hwell c (List.mem_cons_of_mem _ hc), hmeets.2⟩

theorem Going.names (hjsonb : ∀ j, Stored j (db.jsonb j)) {calls : List (Int × PublicationCall)} (h : Going db calls s t) :
    ((t.run db calls).1.versions.entries.map fun entry => entry.1.1) = (s.run calls).1.versions.entries.map fun entry => entry.1.1 := by
  obtain ⟨-, last, hrefines, -⟩ := runCalls_simulates (fun _ _ _ _ hgoing => hgoing.step hjsonb) calls h
  exact hrefines.names

/-- Where the answers are the same up to a list of the identities, the identities are in the same order. -/
theorem listed_identities (calls : List (Int × PublicationCall)) {now : Int}
    (h : List.Forall₂ SameOutcome (s.run (calls ++ [(now, .identities)])).2 (t.run db (calls ++ [(now, .identities)])).2) :
    (s.run calls).1.identities = (t.run db calls).1.identityNames db := by
  unfold PublicationCatalogue.run PublicationTables.run at h
  rw [runCalls_concat, runCalls_concat, ← List.forall₂_reverse_iff, List.reverse_append, List.reverse_append] at h
  have hlast : SameOutcome ((s.run calls).1.apply (now, .identities)).2 ((t.run db calls).1.apply db (now, .identities)).2 :=
    (List.forall₂_cons.mp h).1
  exact hlast

/-- A time before some times. -/
theorem exists_before (times : List Int) : ∃ last, ∀ time ∈ times, last < time := by
  induction times with
  | nil => exact ⟨0, nofun⟩
  | cons time rest ih =>
    obtain ⟨last, hlast⟩ := ih
    refine ⟨min last time - 1, List.forall_mem_cons.mpr ⟨by omega, fun time' htime' => ?_⟩⟩
    have := hlast time' htime'
    omega

end Runs

end CatalogueAux

/-- A database that gives back the JSON it is given, with an order of texts. -/
def keepingDatabase (collate : String → String → Bool) : ControlDatabase where
  co := plainCoercions
  jsonb := id
  collate := collate

/-- A version without a package. -/
def demoVersion (identityId : String) (version : Int) : PublishedVersion where
  identityId := identityId
  version := version
  title := identityId
  ownerUserId := "u1"
  ownerLabel := "Owner"
  sourceLabel := "Demo"
  definitionChecksum := "0"
  publishedAt := "2026-01-01"

/-- A version that is published with its package. -/
def ratedVersion (identityId : String) (version : Int) : PublishedVersion :=
  { demoVersion identityId version with
    semantic := some
      { calculation := complaintRate
        parameterContract := ⟨[], complaintRate.parameters_length⟩
        sourceDefinitionId := "d1"
        sourceDefinitionVersion := 1
        sourceDefinitionChecksum := "0"
        coherent := rfl } }

/-- Bootstrap, a publication, its certification, a late publication, a withdrawal, and the list of identities. -/
def demoCalls : List (Int × PublicationCall) :=
  [(1, .seed (demoVersion "complaints" 2) true), (2, .publish (ratedVersion "complaints" 3)), (3, .certifyLocalDemo "complaints" 3 "u2"),
    (4, .publish (ratedVersion "complaints" 1)), (5, .withdraw "complaints" 2), (6, .seed (demoVersion "Rate" 1) true), (7, .identities)]

/-- `COLLATE "C"`. -/
def byCodePoint (a b : String) : Bool := decide (a ≤ b)

/-- A collation that does not see the case of letters. -/
def byFoldedCase (a b : String) : Bool := decide (a.toList.map Char.toLower ≤ b.toList.map Char.toLower)

theorem demoVersion_wellFormed {identityId : String} {version : Int} (hpos : 1 ≤ version) (hnamed : isBlankIdentity identityId = false) :
    CatalogueAux.WellFormedItem (demoVersion identityId version) :=
  ⟨hpos, hnamed, rfl, fun _ h => absurd h.symm (Option.some_ne_none _)⟩

theorem ratedVersion_wellFormed {identityId : String} {version : Int} (hpos : 1 ≤ version) (hnamed : isBlankIdentity identityId = false) :
    CatalogueAux.WellFormedItem (ratedVersion identityId version) := by
  refine ⟨hpos, hnamed, rfl, ?_⟩
  rintro package ⟨⟩
  simp [complaintRate, Expression.Valid, whensValid, otherwiseValid, WhenBranch.Valid, Condition.Valid, conditionsValid,
    SimpleCondition.Valid, Decimal.constructible]

theorem demoCalls_wellFormed : ∀ call ∈ demoCalls, call.2.WellFormed := by
  simp only [demoCalls, List.forall_mem_cons, List.not_mem_nil, false_implies, implies_true, and_true]
  exact ⟨demoVersion_wellFormed (by decide) rfl, ratedVersion_wellFormed (by decide) rfl, trivial, ratedVersion_wellFormed (by decide) rfl,
    trivial, demoVersion_wellFormed (by decide) rfl, trivial⟩

theorem runMeets_append {db : ControlDatabase} {t : PublicationTables} {before : List (Int × PublicationCall)}
    (after : List (Int × PublicationCall)) (h : t.RunMeets db before) (hafter : (t.run db before).1.RunMeets db after) :
    t.RunMeets db (before ++ after) := by
  induction before generalizing t with
  | nil => exact hafter
  | cons call rest ih => exact ⟨h.1, ih h.2 hafter⟩

/-- The columns can hold what the calls before the last name, whatever the collation. -/
theorem earlyCalls_meets (collate : String → String → Bool) :
    PublicationTables.RunMeets (keepingDatabase collate) {} (demoCalls.take 6) := by
  have hseed : storableItem (demoVersion "complaints" 2) = true ∧ storableItem (demoVersion "Rate" 1) = true := by decide +kernel
  have hpublish : storableItem (ratedVersion "complaints" 3) = true ∧ storableItem (ratedVersion "complaints" 1) = true := by decide +kernel
  refine ⟨?_, ?_, ?_, ?_, ?_, ?_, trivial⟩
  · exact ⟨by decide, by decide, fun _ _ => hseed.1⟩
  · exact ⟨by decide, by decide, fun _ _ _ => hpublish.1⟩
  · exact ⟨by decide, by decide, fun _ => by decide⟩
  · exact ⟨by decide, by decide, fun _ _ _ => hpublish.2⟩
  · exact ⟨by decide, by decide⟩
  · exact ⟨by decide, by decide, fun _ _ => hseed.2⟩

/-- The code point order is the one that is asked for. -/
theorem demoCalls_meets : PublicationTables.RunMeets (keepingDatabase byCodePoint) {} demoCalls :=
  runMeets_append [(7, .identities)] (earlyCalls_meets byCodePoint) ⟨fun _ _ _ _ => decide_eq_true_iff, trivial⟩

theorem demoCalls_times : (demoCalls.map Prod.fst).Pairwise (· < ·) := by
  have htimes : demoCalls.map Prod.fst = [1, 2, 3, 4, 5, 6, 7] := rfl
  rw [htimes]
  decide

end Nl2Sql
