import Nl2Sql.Semantic.ReleaseRun

/-!
# The active release under concurrency

Whatever the order of the statements of any number of publications and rollbacks, and whichever of them are aborted, the pointer names the
only active release, and the activations that are committed follow one another without a gap.
-/

namespace Nl2Sql

open Py

/-- A row that differs from an older one in its state only. -/
structure ReleaseRow.Same (row old : ReleaseRow) : Prop where
  version : row.version = old.version
  checksum : row.checksum = old.checksum
  previous : row.previousReleaseId = old.previousReleaseId

theorem ReleaseRow.Same.refl (row : ReleaseRow) : row.Same row := ⟨rfl, rfl, rfl⟩

theorem ReleaseRow.Same.trans {a b c : ReleaseRow} (h : a.Same b) (h' : b.Same c) : a.Same c :=
  ⟨h.version.trans h'.version, h.checksum.trans h'.checksum, h.previous.trans h'.previous⟩

namespace ActiveReleaseAux

variable {w : ReleaseWorld} {i : Nat} {txn : ReleaseTxn} {t : ReleaseTables}

/-- The only active release is the one the pointer names. -/
structure OnlyActive (rows : Dict String ReleaseRow) (pointer : Option String) : Prop where
  only : ∀ releaseId row, rows.get? releaseId = some row → (row.state = .active ↔ pointer = some releaseId)
  named : ∀ releaseId, pointer = some releaseId → ∃ row, rows.get? releaseId = some row

/-- What the release of a call is to the committed ones: a release that is published is new, has the one that was active before it, and a
greater version than all. -/
def Own (t : ReleaseTables) (txn : ReleaseTxn) : Prop :=
  match txn.call with
  | .publishCandidate releaseId _ => t.releases.get? releaseId = none ∧ ∃ row, (txn.view t).get? releaseId = some row ∧
      row.previousReleaseId = t.pointer ∧ ∀ id old, t.releases.get? id = some old → old.version < row.version
  | .rollback releaseId => ∃ old, t.releases.get? releaseId = some old

/-- The releases as a transaction with the pointer row sees them: the committed ones, whose states it may have changed, and its own. -/
structure Drafts (t : ReleaseTables) (txn : ReleaseTxn) (pointer : Option String) : Prop where
  active : txn.active = t.pointer
  kept : ∀ releaseId old, t.releases.get? releaseId = some old → ∃ row, (txn.view t).get? releaseId = some row ∧ row.Same old
  rows : ∀ releaseId row, (txn.view t).get? releaseId = some row →
    (∃ old, t.releases.get? releaseId = some old) ∨ txn.call.releaseId = releaseId ∧ txn.call.isPublication = true
  numbers : ∀ releaseId row, (txn.view t).get? releaseId = some row → row.version < t.nextVersion
  only : OnlyActive (txn.view t) pointer
  own : Own t txn

/-- What a transaction knows at its stage. -/
def Knows (t : ReleaseTables) (txn : ReleaseTxn) : Prop :=
  match txn.stage with
  | .locked => txn.active = t.pointer ∧ txn.writes = []
  | .numbered version => txn.active = t.pointer ∧ txn.writes = [] ∧
      (∀ releaseId row, t.releases.get? releaseId = some row → row.version < version) ∧ version < t.nextVersion
  | .inserted | .persisted | .targeted => Drafts t txn t.pointer
  | .retired => Drafts t txn none
  | .activated | .moved => Drafts t txn (some txn.call.releaseId)
  | .begun | .bound | .ensured => txn.writes = []
  | .committed | .aborted => True

/-- What an activation is to those before it. -/
structure Follows (rows : Dict String ReleaseRow) (activation : Activation) (earlier : List Activation) : Prop where
  found : activation.found = activeAfter earlier
  stored : ∃ row, rows.get? activation.releaseId = some row
  previous : activation.published = true → ∀ row, rows.get? activation.releaseId = some row → row.previousReleaseId = activeAfter earlier
  first : activation.published = true → ∀ other ∈ earlier, other.releaseId ≠ activation.releaseId
  greater : activation.published = true → ∀ other ∈ earlier, ∀ row old, rows.get? activation.releaseId = some row →
    rows.get? other.releaseId = some old → old.version < row.version

/-- The invariant of a run. -/
structure Inv (w : ReleaseWorld) : Prop where
  lock : w.Exclusive ReleaseTxn.holdsPointer
  only : OnlyActive w.shared.releases w.shared.pointer
  numbers : ∀ releaseId row, w.shared.releases.get? releaseId = some row → row.version < w.shared.nextVersion
  pointer : w.shared.pointer = activeAfter w.shared.activations
  follows : ∀ later activation earlier, w.shared.activations = later ++ activation :: earlier →
    Follows w.shared.releases activation earlier
  published : ∀ releaseId row, w.shared.releases.get? releaseId = some row →
    ∃ activation ∈ w.shared.activations, activation.published = true ∧ activation.releaseId = releaseId
  once : (w.shared.activations.map Activation.txn).Nodup
  committed : ∀ i, w.Committed i ↔ i ∈ w.shared.activations.map Activation.txn
  calls : ∀ activation ∈ w.shared.activations, activation.releaseId = (w.txns activation.txn).call.releaseId ∧
    activation.published = (w.txns activation.txn).call.isPublication
  knows : ∀ i, Knows w.shared (w.txns i)

theorem inv_initial (calls : Nat → ReleaseCall) : Inv (ReleaseWorld.initial calls) where
  lock i j k hi hj := nomatch hi
  only := ⟨fun _ _ h => (nomatch h), fun _ h => (nomatch h)⟩
  numbers _ _ h := nomatch h
  pointer := rfl
  follows later activation earlier h := by
    cases later <;> nomatch h
  published _ _ h := nomatch h
  once := List.nodup_nil
  committed i := ⟨fun h => (nomatch h), fun h => (nomatch h)⟩
  calls _ h := nomatch h
  knows i := rfl

/-! ## What a statement writes -/

@[simp] theorem at_call (stage : ReleaseStage) : (txn.at_ stage).call = txn.call := rfl

@[simp] theorem write_call (releaseId : String) (row : Option ReleaseRow) : (txn.write releaseId row).call = txn.call := by
  cases row <;> rfl

/-- A row that is written is the one that is seen from then on. -/
theorem write_view (releaseId : String) (row : ReleaseRow) :
    (txn.write releaseId (some row)).view t = (txn.view t).set releaseId row := by
  unfold ReleaseTxn.view ReleaseTxn.write Dict.update
  rw [List.foldl_append]
  rfl

/-- An UPDATE of a release that is there and meets the condition changes its state. -/
theorem updateState_eq_ok {rows : Dict String ReleaseRow} {releaseId : String} {condition : ReleaseRow → Bool}
    {state : SemanticReleaseState} {written : Option ReleaseRow} (h : updateState rows releaseId condition state = .ok written)
    {row : ReleaseRow} (hrow : rows.get? releaseId = some row) (hcondition : condition row = true) :
    written = some { row with state := state } := by
  unfold updateState at h
  simp only [hrow, hcondition, Bool.true_eq_false, if_false] at h
  split at h
  · cases h
  · exact (Except.ok.inj h).symm

/-- An INSERT of a release that is not there writes the row. -/
theorem insertRelease_eq_ok {rows : Dict String ReleaseRow} {releaseId : String} {row written : ReleaseRow}
    (h : insertRelease rows releaseId row = .ok written) : rows.get? releaseId = none ∧ written = row := by
  unfold insertRelease at h
  split at h
  · cases h
  · rename_i hnone
    split at h
    · cases h
    · exact ⟨Option.not_isSome_iff_eq_none.mp hnone, (Except.ok.inj h).symm⟩

/-- Nothing is written: what is committed is what is seen. -/
theorem view_of_writes (h : txn.writes = []) : txn.view t = t.releases := by
  unfold ReleaseTxn.view
  rw [h]
  rfl

/-- A transaction that changes the state of a release that it sees. -/
theorem Drafts.setState {pointer pointer' : Option String} (h : Drafts t txn pointer) {releaseId : String} {row : ReleaseRow}
    (hrow : (txn.view t).get? releaseId = some row) (state : SemanticReleaseState)
    (hself : state = .active ↔ pointer' = some releaseId) (hothers : ∀ id, id ≠ releaseId → (pointer' = some id ↔ pointer = some id)) :
    Drafts t (txn.write releaseId (some { row with state := state })) pointer' := by
  have hview : (txn.write releaseId (some { row with state := state })).view t = (txn.view t).set releaseId { row with state := state } :=
    write_view releaseId _
  have hget : ∀ id, id ≠ releaseId → ((txn.write releaseId (some { row with state := state })).view t).get? id = (txn.view t).get? id := by
    intro id hid
    rw [hview, Dict.get?_set_of_ne _ _ hid.symm]
  have hat : ((txn.write releaseId (some { row with state := state })).view t).get? releaseId = some { row with state := state } := by
    rw [hview, Dict.get?_set_self]
  refine { active := h.active, kept := ?_, rows := ?_, numbers := ?_, only := ⟨?_, ?_⟩, own := ?_ }
  · intro id old hold
    obtain ⟨other, hother, hsame⟩ := h.kept id old hold
    by_cases hid : id = releaseId
    · subst hid
      obtain rfl := Option.some.inj (hrow.symm.trans hother)
      exact ⟨_, hat, hsame.version, hsame.checksum, hsame.previous⟩
    · exact ⟨other, (hget id hid).trans hother, hsame⟩
  · intro id other hother
    by_cases hid : id = releaseId
    · subst hid
      exact h.rows id row hrow
    · exact h.rows id other ((hget id hid).symm.trans hother)
  · intro id other hother
    by_cases hid : id = releaseId
    · subst hid
      obtain rfl := Option.some.inj (hat.symm.trans hother)
      exact h.numbers id row hrow
    · exact h.numbers id other ((hget id hid).symm.trans hother)
  · intro id other hother
    by_cases hid : id = releaseId
    · subst hid
      obtain rfl := Option.some.inj (hat.symm.trans hother)
      exact hself
    · exact (h.only.only id other ((hget id hid).symm.trans hother)).trans (hothers id hid).symm
  · intro id hpointer
    by_cases hid : id = releaseId
    · subst hid
      exact ⟨_, hat⟩
    · obtain ⟨other, hother⟩ := h.only.named id ((hothers id hid).mp hpointer)
      exact ⟨other, (hget id hid).trans hother⟩
  · have hown := h.own
    unfold Own at hown ⊢
    rw [write_call]
    split
    · rename_i own candidate hcall
      simp only [hcall] at hown
      obtain ⟨hnone, other, hother, hprevious, hversions⟩ := hown
      refine ⟨hnone, ?_⟩
      by_cases hid : own = releaseId
      · subst hid
        obtain rfl := Option.some.inj (hrow.symm.trans hother)
        exact ⟨_, hat, hprevious, hversions⟩
      · exact ⟨other, (hget own hid).trans hother, hprevious, hversions⟩
    · rename_i own hcall
      simp only [hcall] at hown
      exact hown

/-- The stage of a transaction does not matter. -/
theorem Drafts.at_ {pointer : Option String} (h : Drafts t txn pointer) (stage : ReleaseStage) : Drafts t (txn.at_ stage) pointer :=
  ⟨h.active, h.kept, h.rows, h.numbers, h.only, h.own⟩

/-- The release of a publication is inserted, validated. -/
theorem drafts_insert (honly : OnlyActive t.releases t.pointer)
    (hnumbers : ∀ releaseId row, t.releases.get? releaseId = some row → row.version < t.nextVersion) {version : Int}
    (hactive : txn.active = t.pointer) (hwrites : txn.writes = [])
    (hless : ∀ releaseId row, t.releases.get? releaseId = some row → row.version < version) (hnext : version < t.nextVersion)
    {releaseId : String} {candidate : Authoring.SemanticReleaseCandidate} (hcall : txn.call = .publishCandidate releaseId candidate)
    {row : ReleaseRow} (hinsert : insertRelease (txn.view t) releaseId
      { version := version, checksum := candidate.checksum, state := .validated, previousReleaseId := txn.active } = .ok row) :
    Drafts t (txn.write releaseId (some row)) t.pointer := by
  obtain ⟨hnone, hrow⟩ := insertRelease_eq_ok hinsert
  rw [view_of_writes hwrites] at hnone
  have hview : (txn.write releaseId (some row)).view t = t.releases.set releaseId row := by
    rw [write_view, view_of_writes hwrites]
  have hne : ∀ {id old}, t.releases.get? id = some old → releaseId ≠ id := by
    rintro id old hold rfl
    rw [hnone] at hold
    nomatch hold
  have hget : ∀ {id other}, (t.releases.set releaseId row).get? id = some other →
      releaseId = id ∧ row = other ∨ t.releases.get? id = some other := by
    intro id other hother
    by_cases hid : releaseId = id
    · subst hid
      rw [Dict.get?_set_self] at hother
      exact .inl ⟨rfl, Option.some.inj hother⟩
    · rw [Dict.get?_set_of_ne _ _ hid] at hother
      exact .inr hother
  refine { active := hactive, kept := ?_, rows := ?_, numbers := ?_, only := ⟨?_, ?_⟩, own := ?_ }
  · intro id old hold
    refine ⟨old, ?_, .refl old⟩
    rw [hview, Dict.get?_set_of_ne _ _ (hne hold)]
    exact hold
  · intro id other hother
    rw [hview] at hother
    rcases hget hother with ⟨rfl, -⟩ | hold
    · refine .inr ⟨?_, ?_⟩
      · rw [write_call, hcall]
        rfl
      · rw [write_call, hcall]
        rfl
    · exact .inl ⟨other, hold⟩
  · intro id other hother
    rw [hview] at hother
    rcases hget hother with ⟨-, rfl⟩ | hold
    · rw [hrow]
      exact hnext
    · exact hnumbers id other hold
  · intro id other hother
    rw [hview] at hother
    rcases hget hother with ⟨rfl, rfl⟩ | hold
    · refine ⟨fun hstate => ?_, fun hpointer => ?_⟩
      · rw [hrow] at hstate
        nomatch hstate
      · obtain ⟨old, hold⟩ := honly.named _ hpointer
        exact absurd rfl (hne hold)
    · exact honly.only id other hold
  · intro id hpointer
    obtain ⟨old, hold⟩ := honly.named id hpointer
    refine ⟨old, ?_⟩
    rw [hview, Dict.get?_set_of_ne _ _ (hne hold)]
    exact hold
  · unfold Own
    rw [write_call, hcall]
    refine ⟨hnone, row, ?_, ?_, ?_⟩
    · rw [hview, Dict.get?_set_self]
    · rw [hrow]
      exact hactive
    · rw [hrow]
      exact hless

/-- The target of a rollback is a release that is committed. -/
theorem drafts_target (honly : OnlyActive t.releases t.pointer)
    (hnumbers : ∀ releaseId row, t.releases.get? releaseId = some row → row.version < t.nextVersion) (hactive : txn.active = t.pointer)
    (hwrites : txn.writes = []) {releaseId : String} (hcall : txn.call = .rollback releaseId) {row : ReleaseRow}
    (htarget : rollbackTarget (txn.view t) releaseId = .ok row) : Drafts t txn t.pointer := by
  have hview := view_of_writes (t := t) hwrites
  refine { active := hactive, kept := ?_, rows := ?_, numbers := ?_, only := ?_, own := ?_ }
  · rw [hview]
    exact fun id old hold => ⟨old, hold, .refl old⟩
  · rw [hview]
    exact fun id old hold => .inl ⟨old, hold⟩
  · rw [hview]
    exact hnumbers
  · rw [hview]
    exact honly
  · unfold Own
    rw [hcall]
    rw [hview] at htarget
    unfold rollbackTarget at htarget
    split at htarget
    · cases htarget
    · rename_i old hold
      exact ⟨old, hold⟩

/-! ## Steps before a commit -/

/-- The tables with a later number of the sequence. -/
def numbered (t : ReleaseTables) (next : Int) : ReleaseTables := { t with nextVersion := next }

/-- A number that is drawn takes nothing from what a transaction knows. -/
theorem Knows.numbered {next : Int} (h : Knows t txn) (hnext : t.nextVersion ≤ next) : Knows (numbered t next) txn := by
  have hdrafts : ∀ {pointer}, Drafts t txn pointer → Drafts (ActiveReleaseAux.numbered t next) txn pointer := fun hdrafts =>
    ⟨hdrafts.active, hdrafts.kept, hdrafts.rows, fun releaseId row hrow => (hdrafts.numbers releaseId row hrow).trans_le hnext,
      hdrafts.only, hdrafts.own⟩
  unfold Knows at h ⊢
  split at h
  · exact h
  · exact ⟨h.1, h.2.1, h.2.2.1, h.2.2.2.trans_le hnext⟩
  · exact hdrafts h
  · exact hdrafts h
  · exact hdrafts h
  · exact hdrafts h
  · exact hdrafts h
  · exact hdrafts h
  · exact h
  · exact h
  · exact h
  · trivial
  · trivial

/-- The activations that are committed are not of a transaction that is not. -/
theorem Inv.calls_move (h : Inv w) (hbefore : ¬w.Committed i) {d : ReleaseTables} {activation : Activation}
    (hmem : activation ∈ w.shared.activations) :
    activation.releaseId = ((w.move i d txn).txns activation.txn).call.releaseId ∧
      activation.published = ((w.move i d txn).txns activation.txn).call.isPublication := by
  have hne : activation.txn ≠ i := by
    intro hsame
    exact hbefore ((h.committed i).mpr (List.mem_map.mpr ⟨activation, hmem, hsame⟩))
  rw [World.move_txns_of_ne w d txn hne]
  exact h.calls activation hmem

/-- A step that changes nothing that is committed but the sequence, and is no commit. -/
theorem Inv.quiet (h : Inv w) {next : Int} (hnext : w.shared.nextVersion ≤ next) (hbefore : ¬w.Committed i)
    (hafter : txn.stage ≠ .committed)
    (hlock : txn.stage.isLocked = true → (w.txns i).stage.isLocked = true ∨ w.Free ReleaseTxn.holdsPointer i ())
    (hknows : Knows (numbered w.shared next) txn) : Inv (w.move i (numbered w.shared next) txn) := by
  refine
    { lock := h.lock.move fun _ hheld => hlock hheld, only := h.only, numbers := ?_, pointer := h.pointer, follows := h.follows,
      published := h.published, once := h.once, committed := ?_, calls := fun _ hmem => h.calls_move hbefore hmem,
      knows := World.forall_move (P := fun _ => Knows (numbered w.shared next)) hknows fun j _ => (h.knows j).numbered hnext }
  · exact fun releaseId row hrow => (h.numbers releaseId row hrow).trans_le hnext
  · refine World.forall_move (P := fun j (txn : ReleaseTxn) => txn.stage = .committed ↔ j ∈ w.shared.activations.map Activation.txn) ?_
      fun j _ => h.committed j
    exact ⟨fun hcommitted => absurd hcommitted hafter, fun hmem => absurd ((h.committed i).mpr hmem) hbefore⟩

/-! ## Commits -/

/-- Rows that are kept, their states apart. -/
def Kept (rows rows' : Dict String ReleaseRow) : Prop :=
  ∀ releaseId old, rows.get? releaseId = some old → ∃ row, rows'.get? releaseId = some row ∧ row.Same old

/-- An activation is to those before it what it was. -/
theorem Follows.kept {rows rows' : Dict String ReleaseRow} {activation : Activation} {earlier : List Activation}
    (h : Follows rows activation earlier) (hkept : Kept rows rows') (hearlier : ∀ other ∈ earlier, ∃ row, rows.get? other.releaseId = some row) :
    Follows rows' activation earlier := by
  obtain ⟨old, hold⟩ := h.stored
  obtain ⟨row, hrow, hsame⟩ := hkept _ _ hold
  refine { found := h.found, stored := ⟨row, hrow⟩, previous := ?_, first := h.first, greater := ?_ }
  · intro hpublished other hother
    obtain rfl := Option.some.inj (hrow.symm.trans hother)
    exact hsame.previous.trans (h.previous hpublished old hold)
  · intro hpublished other hmem new before hnew hbefore
    obtain rfl := Option.some.inj (hrow.symm.trans hnew)
    obtain ⟨first, hfirst⟩ := hearlier other hmem
    obtain ⟨later, hlater, hsame'⟩ := hkept _ _ hfirst
    obtain rfl := Option.some.inj (hlater.symm.trans hbefore)
    rw [hsame.version, hsame'.version]
    exact h.greater hpublished other hmem old first hold hfirst

/-- Each activation is of a release that is committed. -/
theorem Inv.stored (h : Inv w) {activation : Activation} (hmem : activation ∈ w.shared.activations) :
    ∃ row, w.shared.releases.get? activation.releaseId = some row := by
  obtain ⟨later, earlier, hsplit⟩ := List.append_of_mem hmem
  exact (h.follows later activation earlier hsplit).stored

/-- The activation with which a transaction commits. -/
def activation (txn : ReleaseTxn) (i : Nat) : Activation :=
  { releaseId := txn.call.releaseId, found := txn.active, published := txn.call.isPublication, txn := i }

/-- The tables that a transaction commits. -/
def committed (t : ReleaseTables) (txn : ReleaseTxn) (i : Nat) : ReleaseTables :=
  { t with releases := txn.view t, pointer := some txn.call.releaseId, activations := activation txn i :: t.activations }

/-- What is new about the release that becomes active. -/
theorem Inv.follows_commit (h : Inv w) (hdrafts : Drafts w.shared txn (some txn.call.releaseId)) :
    Follows (txn.view w.shared) (activation txn i) w.shared.activations := by
  refine { found := hdrafts.active.trans h.pointer, stored := hdrafts.only.named _ rfl, previous := ?_, first := ?_, greater := ?_ }
  · intro hpublished row hrow
    have hown := hdrafts.own
    unfold Own at hown
    split at hown
    · rename_i releaseId candidate hcall
      obtain ⟨-, own, hget, hprevious, -⟩ := hown
      have hsame : own = row := by
        rw [activation, hcall] at hrow
        exact Option.some.inj (hget.symm.trans hrow)
      rw [← hsame, hprevious, h.pointer]
    · rename_i releaseId hcall
      rw [activation, hcall] at hpublished
      cases hpublished
  · intro hpublished other hmem hsame
    obtain ⟨old, hold⟩ := h.stored hmem
    have hown := hdrafts.own
    unfold Own at hown
    split at hown
    · rename_i releaseId candidate hcall
      rw [hsame, activation, hcall] at hold
      rw [ReleaseCall.releaseId, hown.1] at hold
      cases hold
    · rename_i releaseId hcall
      rw [activation, hcall] at hpublished
      cases hpublished
  · intro hpublished other hmem row old hrow hold
    obtain ⟨first, hfirst⟩ := h.stored hmem
    obtain ⟨later, hlater, hsame⟩ := hdrafts.kept _ _ hfirst
    obtain rfl := Option.some.inj (hlater.symm.trans hold)
    have hown := hdrafts.own
    unfold Own at hown
    split at hown
    · rename_i releaseId candidate hcall
      obtain ⟨-, own, hget, -, hversions⟩ := hown
      have hown : own = row := by
        rw [activation, hcall] at hrow
        exact Option.some.inj (hget.symm.trans hrow)
      rw [← hown, hsame.version]
      exact hversions _ first hfirst
    · rename_i releaseId hcall
      rw [activation, hcall] at hpublished
      cases hpublished

/-- The commit of a transaction with the pointer row. -/
theorem Inv.commit (h : Inv w) (hbefore : ¬w.Committed i) (hlock : (w.txns i).stage.isLocked = true)
    (hdrafts : Drafts w.shared (w.txns i) (some (w.txns i).call.releaseId)) :
    Inv (w.move i (ActiveReleaseAux.committed w.shared (w.txns i) i) ((w.txns i).at_ .committed)) := by
  refine
    { lock := h.lock.move fun _ hheld => (nomatch hheld), only := hdrafts.only, numbers := hdrafts.numbers, pointer := rfl, follows := ?_,
      published := ?_, once := ?_, committed := ?_, calls := ?_, knows := ?_ }
  · intro later other earlier hsplit
    rcases List.cons_eq_append_iff.mp hsplit with ⟨-, hnew⟩ | ⟨rest, -, hold⟩
    · obtain ⟨rfl, rfl⟩ := List.cons.inj hnew
      exact h.follows_commit hdrafts
    · refine (h.follows rest other earlier hold).kept hdrafts.kept fun before hmem => h.stored ?_
      rw [hold]
      exact List.mem_append_right _ (List.mem_cons_of_mem _ hmem)
  · intro releaseId row hrow
    rcases hdrafts.rows releaseId row hrow with ⟨old, hold⟩ | ⟨hid, hpublished⟩
    · obtain ⟨other, hmem, hother⟩ := h.published releaseId old hold
      exact ⟨other, List.mem_cons_of_mem _ hmem, hother⟩
    · exact ⟨_, List.mem_cons_self, hpublished, hid⟩
  · exact List.nodup_cons.mpr ⟨fun hmem => hbefore ((h.committed i).mpr hmem), h.once⟩
  · refine World.forall_move
      (P := fun j (txn : ReleaseTxn) => txn.stage = .committed ↔ j ∈ i :: w.shared.activations.map Activation.txn) ?_ fun j hj => ?_
    · exact ⟨fun _ => List.mem_cons_self, fun _ => rfl⟩
    · rw [List.mem_cons]
      exact (h.committed j).trans ⟨.inr, fun hmem => hmem.resolve_left hj⟩
  · rintro other hmem
    rcases List.mem_cons.mp hmem with rfl | hold
    · rw [activation, World.move_txns_self]
      exact ⟨rfl, rfl⟩
    · exact h.calls_move hbefore hold
  · refine World.forall_move (P := fun _ => Knows (ActiveReleaseAux.committed w.shared (w.txns i) i)) trivial fun j hj => ?_
    -- another transaction has not locked the pointer row
    have hfree : (w.txns j).stage.isLocked ≠ true := fun hheld => hj (h.lock j i () hheld hlock)
    have hknows := h.knows j
    unfold Knows at hknows ⊢
    split <;> rename_i hstage <;> simp only [hstage] at hknows <;> first | exact hknows | exact absurd (hstage ▸ rfl) hfree

/-! ## Runs -/

/-- What is committed stays: the releases but for their states, and the activations before the ones that are new. -/
structure Ascends (t t' : ReleaseTables) : Prop where
  kept : Kept t.releases t'.releases
  history : ∃ later, t'.activations = later ++ t.activations

theorem Ascends.refl (t : ReleaseTables) : Ascends t t := ⟨fun _ old hold => ⟨old, hold, .refl old⟩, [], rfl⟩

theorem Ascends.trans {a b c : ReleaseTables} (h : Ascends a b) (h' : Ascends b c) : Ascends a c := by
  constructor
  · intro releaseId old hold
    obtain ⟨row, hrow, hsame⟩ := h.kept releaseId old hold
    obtain ⟨last, hlast, hsame'⟩ := h'.kept releaseId row hrow
    exact ⟨last, hlast, hsame'.trans hsame⟩
  · obtain ⟨later, hlater⟩ := h.history
    obtain ⟨later', hlater'⟩ := h'.history
    refine ⟨later' ++ later, ?_⟩
    rw [hlater', hlater, List.append_assoc]

/-- The UPDATE that retires the release that was active. -/
theorem drafts_retire {active : String} (h : Drafts t txn t.pointer) (hactive : txn.active = some active) {condition : ReleaseRow → Bool}
    (hcondition : ∀ row, row.state = .active → condition row = true) {row : Option ReleaseRow}
    (hupdate : updateState (txn.view t) active condition .retired = .ok row) : Drafts t (txn.write active row) none := by
  have hpointer : t.pointer = some active := h.active.symm.trans hactive
  obtain ⟨old, hold⟩ := h.only.named active hpointer
  have hstate := (h.only.only active old hold).mpr hpointer
  rw [updateState_eq_ok hupdate hold (hcondition old hstate)]
  refine h.setState hold .retired ⟨fun hretired => (nomatch hretired), fun hnone => (nomatch hnone)⟩ fun id hid => ?_
  refine ⟨fun hnone => (nomatch hnone), fun hsame => absurd ?_ hid⟩
  exact (Option.some.inj (hpointer.symm.trans hsame)).symm

/-- The UPDATE that makes the release of the call active. -/
theorem drafts_activate (h : Drafts t txn none) {row : Option ReleaseRow}
    (hupdate : updateState (txn.view t) txn.call.releaseId (fun _ => true) .active = .ok row) :
    Drafts t (txn.write txn.call.releaseId row) (some txn.call.releaseId) := by
  have hown : ∃ old, (txn.view t).get? txn.call.releaseId = some old := by
    have hown := h.own
    unfold Own at hown
    split at hown
    · rename_i releaseId candidate hcall
      obtain ⟨-, old, hold, -⟩ := hown
      rw [hcall]
      exact ⟨old, hold⟩
    · rename_i releaseId hcall
      obtain ⟨old, hold⟩ := hown
      obtain ⟨row, hrow, -⟩ := h.kept releaseId old hold
      rw [hcall]
      exact ⟨row, hrow⟩
  obtain ⟨old, hold⟩ := hown
  rw [updateState_eq_ok hupdate hold rfl]
  refine h.setState hold .active ⟨fun _ => rfl, fun _ => rfl⟩ fun id hid => ?_
  exact ⟨fun hsame => absurd (Option.some.inj hsame).symm hid, fun hnone => (by cases hnone)⟩

/-- A step keeps the invariant and what is committed. -/
theorem Inv.step (h : Inv w) {next : ReleaseTables} (hadvance : ReleaseAdvance w i next txn) :
    Inv (w.move i next txn) ∧ Ascends w.shared next := by
  have hopen : ∀ {stage}, (w.txns i).stage = stage → stage ≠ .committed → ¬w.Committed i := fun hstage hne hcommitted =>
    hne (hstage.symm.trans hcommitted)
  have hheld : ∀ {stage}, (w.txns i).stage = stage → stage.isLocked = true → (w.txns i).stage.isLocked = true := fun hstage hlocked =>
    hstage ▸ hlocked
  have hself := h.knows i
  have hquiet : ∀ {txn : ReleaseTxn}, ¬w.Committed i → txn.stage ≠ .committed →
      (txn.stage.isLocked = true → (w.txns i).stage.isLocked = true ∨ w.Free ReleaseTxn.holdsPointer i ()) → Knows w.shared txn →
      Inv (w.move i w.shared txn) ∧ Ascends w.shared w.shared := fun hbefore hafter hlock hknows =>
    ⟨h.quiet (le_refl w.shared.nextVersion) hbefore hafter hlock hknows, .refl _⟩
  -- The lock is held before the step, so the transaction has not committed.
  have hholding : ∀ {stage txn}, (w.txns i).stage = stage → stage.isLocked = true → ReleaseTxn.stage txn ≠ .committed →
      Knows w.shared txn → Inv (w.move i w.shared txn) ∧ Ascends w.shared w.shared := fun hstage hlocked hafter hknows =>
    hquiet (hopen hstage fun hcommitted => by rw [hcommitted] at hlocked; cases hlocked) hafter (fun _ => .inl (hheld hstage hlocked))
      hknows
  cases hadvance with
  | bind hstage hcall snapshots hbound =>
    rw [Knows, hstage] at hself
    exact hquiet (hopen hstage (by rintro ⟨⟩)) (by rintro ⟨⟩) (by rintro ⟨⟩) hself
  | ensureBound hstage =>
    rw [Knows, hstage] at hself
    exact hquiet (hopen hstage (by rintro ⟨⟩)) (by rintro ⟨⟩) (by rintro ⟨⟩) hself
  | ensureRollback hstage hcall =>
    rw [Knows, hstage] at hself
    exact hquiet (hopen hstage (by rintro ⟨⟩)) (by rintro ⟨⟩) (by rintro ⟨⟩) hself
  | lock hstage hfree =>
    rw [Knows, hstage] at hself
    exact hquiet (hopen hstage (by rintro ⟨⟩)) (by rintro ⟨⟩) (fun _ => .inr hfree) ⟨rfl, hself⟩
  | number hstage hcall hmax =>
    rw [Knows, hstage] at hself
    have hless : w.shared.nextVersion < w.shared.nextVersion + 1 := lt_add_one _
    refine ⟨h.quiet hless.le (hopen hstage (by rintro ⟨⟩)) (by rintro ⟨⟩) (fun _ => .inl (hheld hstage rfl)) ⟨hself.1, hself.2, h.numbers, hless⟩, ?_⟩
    exact ⟨(Ascends.refl w.shared).kept, [], rfl⟩
  | insert hstage hcall hinsert =>
    rw [Knows, hstage] at hself
    obtain ⟨hactive, hwrites, hless, hnext⟩ := hself
    exact hholding hstage rfl (by rintro ⟨⟩)
      ((drafts_insert h.only h.numbers hactive hwrites hless hnext hcall hinsert).at_ .inserted)
  | persist hstage =>
    rw [Knows, hstage] at hself
    exact hholding hstage rfl (by rintro ⟨⟩) (Drafts.at_ hself .persisted)
  | target hstage hcall htarget =>
    rw [Knows, hstage] at hself
    exact hholding hstage rfl (by rintro ⟨⟩)
      ((drafts_target h.only h.numbers hself.1 hself.2 hcall htarget).at_ .targeted)
  | retireNone hstage hactive =>
    have hdrafts : Drafts w.shared (w.txns i) w.shared.pointer := by
      rcases hstage with hstage | hstage
      · rw [Knows, hstage] at hself
        exact hself
      · rw [Knows, hstage] at hself
        exact hself
    rw [← hdrafts.active, hactive] at hdrafts
    rcases hstage with hstage | hstage
    · exact hholding hstage rfl (by rintro ⟨⟩) (hdrafts.at_ .retired)
    · exact hholding hstage rfl (by rintro ⟨⟩) (hdrafts.at_ .retired)
  | retirePrevious hstage hactive hupdate =>
    rw [Knows, hstage] at hself
    exact hholding hstage rfl (by rintro ⟨⟩)
      ((drafts_retire hself hactive (fun _ _ => rfl) hupdate).at_ .retired)
  | retireActive hstage hactive hupdate =>
    rw [Knows, hstage] at hself
    exact hholding hstage rfl (by rintro ⟨⟩)
      ((drafts_retire hself hactive (fun _ hstate => decide_eq_true hstate) hupdate).at_ .retired)
  | activate hstage hupdate =>
    rw [Knows, hstage] at hself
    have hdrafts := (drafts_activate hself hupdate).at_ .activated
    refine hholding hstage rfl (by rintro ⟨⟩) ?_
    rw [Knows]
    simp only [at_call, write_call]
    exact hdrafts
  | move hstage hmove =>
    rw [Knows, hstage] at hself
    exact hholding hstage rfl (by rintro ⟨⟩) (Drafts.at_ hself .moved)
  | commit hstage =>
    rw [Knows, hstage] at hself
    exact ⟨h.commit (hopen hstage (by rintro ⟨⟩)) (hheld hstage rfl) hself, hself.kept, [_], rfl⟩
  | abort hstage => exact hquiet hstage (by rintro ⟨⟩) (by rintro ⟨⟩) trivial

/-- A run keeps the invariant and what is committed. -/
theorem Inv.runs (h : Inv w) {w' : ReleaseWorld} (hruns : World.Runs ReleaseAdvance w w') : Inv w' ∧ Ascends w.shared w'.shared := by
  have hkeep : ∀ (w : ReleaseWorld) i d t, Inv w → ReleaseAdvance w i d t → Inv (w.move i d t) := fun _ _ _ _ hw hadvance =>
    (hw.step hadvance).1
  refine ⟨hruns.invariant hkeep h, ?_⟩
  exact hruns.ascends hkeep (R := fun w w' => Ascends w.shared w'.shared) (fun w => .refl w.shared) (fun _ _ _ hab hbc => hab.trans hbc)
    (fun _ _ _ _ hw hadvance => (hw.step hadvance).2) h

end ActiveReleaseAux

open ActiveReleaseAux

/-- However the statements of publications and rollbacks interleave, in every state that is committed: the pointer is null exactly where no
release is active, and otherwise names the only active one. An activation found active the release that the one before it made active. A
release that is published has that one as its previous release, was not active before, and has a greater version than those that were. The
pointer is at the last activation; each committed call has one activation, and later states keep the releases and the activations. -/
theorem active_release_linear (calls : Nat → ReleaseCall) (w : ReleaseWorld) (hruns : World.Runs ReleaseAdvance (ReleaseWorld.initial calls) w) :
    (w.shared.pointer = none ↔ ∀ releaseId row, w.shared.releases.get? releaseId = some row → row.state ≠ .active) ∧
      (∀ releaseId, w.shared.pointer = some releaseId → (∃ row, w.shared.releases.get? releaseId = some row ∧ row.state = .active) ∧
        ∀ other row, w.shared.releases.get? other = some row → row.state = .active → other = releaseId) ∧
      (∀ later activation earlier, w.shared.activations = later ++ activation :: earlier → activation.found = activeAfter earlier ∧
        (activation.published = true → ∃ row, w.shared.releases.get? activation.releaseId = some row ∧
          row.previousReleaseId = activeAfter earlier ∧ (∀ other ∈ earlier, other.releaseId ≠ activation.releaseId) ∧
          ∀ other ∈ earlier, ∀ old, w.shared.releases.get? other.releaseId = some old → old.version < row.version)) ∧
      (∀ releaseId row, w.shared.releases.get? releaseId = some row →
        ∃ activation ∈ w.shared.activations, activation.published = true ∧ activation.releaseId = releaseId) ∧
      w.shared.pointer = activeAfter w.shared.activations ∧
      (∀ i, w.Committed i → ∃ later activation earlier, w.shared.activations = later ++ activation :: earlier ∧ activation.txn = i ∧
        activation.releaseId = (w.txns i).call.releaseId ∧ activation.published = (w.txns i).call.isPublication ∧
        ∀ other ∈ later ++ earlier, other.txn ≠ i) ∧
      ∀ w', World.Runs ReleaseAdvance w w' →
        (∀ releaseId row, w.shared.releases.get? releaseId = some row →
          ∃ row', w'.shared.releases.get? releaseId = some row' ∧ row'.Same row) ∧
        ∃ later, w'.shared.activations = later ++ w.shared.activations := by
  have h : Inv w := ((inv_initial calls).runs hruns).1
  refine ⟨⟨fun hnone releaseId row hrow hstate => ?_, fun hinactive => ?_⟩, fun releaseId hpointer => ⟨?_, fun other row hrow hstate => ?_⟩,
    fun later activation earlier hsplit => ?_, h.published, h.pointer, fun i hcommitted => ?_, fun w' hlater => ?_⟩
  · have hpointer := (h.only.only releaseId row hrow).mp hstate
    rw [hnone] at hpointer
    nomatch hpointer
  · rcases hpointer : w.shared.pointer with - | releaseId
    · rfl
    · obtain ⟨row, hrow⟩ := h.only.named releaseId hpointer
      exact absurd ((h.only.only releaseId row hrow).mpr hpointer) (hinactive releaseId row hrow)
  · obtain ⟨row, hrow⟩ := h.only.named releaseId hpointer
    exact ⟨row, hrow, (h.only.only releaseId row hrow).mpr hpointer⟩
  · exact (Option.some.inj (hpointer.symm.trans ((h.only.only other row hrow).mp hstate))).symm
  · have hfollows := h.follows later activation earlier hsplit
    refine ⟨hfollows.found, fun hpublished => ?_⟩
    obtain ⟨row, hrow⟩ := hfollows.stored
    exact ⟨row, hrow, hfollows.previous hpublished row hrow, hfollows.first hpublished,
      fun other hmem old hold => hfollows.greater hpublished other hmem row old hrow hold⟩
  · obtain ⟨activation, hmem, rfl⟩ := List.mem_map.mp ((h.committed i).mp hcommitted)
    obtain ⟨hid, hpublished⟩ := h.calls activation hmem
    obtain ⟨later, earlier, hsplit⟩ := List.append_of_mem hmem
    refine ⟨later, activation, earlier, hsplit, rfl, hid, hpublished, fun other hother hsame => ?_⟩
    have honce := h.once
    rw [hsplit, List.map_append, List.map_cons, List.nodup_middle, List.nodup_cons, ← List.map_append] at honce
    exact honce.1 (List.mem_map.mpr ⟨other, hother, hsame⟩)
  · have hascends := (h.runs hlater).2
    exact ⟨hascends.kept, hascends.history⟩

/-- A candidate by its checksum. -/
def bareCandidate (checksum : String) : Authoring.SemanticReleaseCandidate where
  checksum := checksum
  documents := []
  validationReport := []
  assets := []
  aliases := []
  edges := []
  validationIssues := []
  schemaVersion := 3
  parserVersion := "p"

/-- Two publications, and a rollback to the first. -/
def threeCalls : Nat → ReleaseCall
  | 0 => .publishCandidate "a" (bareCandidate "1")
  | 1 => .publishCandidate "b" (bareCandidate "2")
  | _ => .rollback "a"

/-- The second publication waits for the first one, and the rollback for the second. -/
theorem threeCalls_run : ∃ w : ReleaseWorld, World.Runs ReleaseAdvance (ReleaseWorld.initial threeCalls) w ∧ w.Committed 2 ∧
    w.shared.activations.map (·.releaseId) = ["a", "b", "a"] := by
  have hstart : World.Runs ReleaseAdvance (ReleaseWorld.initial threeCalls) _ := .refl _
  have hbound := (hstart.next (i := 0) (.bind rfl rfl .empty rfl)).next (i := 1) (.bind rfl rfl .empty rfl)
  have hensured := ((hbound.next (i := 0) (.ensureBound rfl)).next (i := 1) (.ensureBound rfl)).next (i := 2) (.ensureRollback rfl rfl)
  have hlocked := hensured.next (i := 0) (.lock rfl (fun j hj hheld => by
    rcases j with _ | _ | _ | j <;> first | exact hj rfl | nomatch hheld))
  have hinserted := ((hlocked.next (i := 0) (.number rfl rfl (by decide))).next (i := 0) (.insert rfl rfl rfl)).next (i := 0) (.persist rfl)
  have hactive := (hinserted.next (i := 0) (.retireNone (.inl rfl) rfl)).next (i := 0) (.activate rfl rfl)
  have hfirst := (hactive.next (i := 0) (.move rfl rfl)).next (i := 0) (.commit rfl)
  have hlocked' := hfirst.next (i := 1) (.lock rfl (fun j hj hheld => by
    rcases j with _ | _ | _ | j <;> first | exact hj rfl | nomatch hheld))
  have hinserted' := ((hlocked'.next (i := 1) (.number rfl rfl (by decide))).next (i := 1) (.insert rfl rfl rfl)).next (i := 1) (.persist rfl)
  have hactive' := (hinserted'.next (i := 1) (.retirePrevious rfl rfl rfl)).next (i := 1) (.activate rfl rfl)
  have hsecond := (hactive'.next (i := 1) (.move rfl rfl)).next (i := 1) (.commit rfl)
  have hlocked'' := hsecond.next (i := 2) (.lock rfl (fun j hj hheld => by
    rcases j with _ | _ | _ | j <;> first | exact hj rfl | nomatch hheld))
  have hactive'' := ((hlocked''.next (i := 2) (.target rfl rfl rfl)).next (i := 2) (.retireActive rfl rfl rfl)).next (i := 2)
    (.activate rfl rfl)
  exact ⟨_, (hactive''.next (i := 2) (.move rfl rfl)).next (i := 2) (.commit rfl), rfl, rfl⟩

/-- The pointer is at the release that was published first. -/
theorem active_release_linear_three : ∃ w : ReleaseWorld,
    World.Runs ReleaseAdvance (ReleaseWorld.initial threeCalls) w ∧ w.shared.pointer = some "a" := by
  obtain ⟨w, hruns, -, hactivations⟩ := threeCalls_run
  refine ⟨w, hruns, (active_release_linear threeCalls w hruns).2.2.2.2.1.trans ?_⟩
  rw [activeAfter, ← List.head?_map, hactivations]
  rfl

end Nl2Sql
