import Nl2Sql.Artifact.Definition
import Nl2Sql.Theorems.Binding

/-!
# The lifecycle of custom definitions

Each call of `CustomDefinitionService` moves the store by one move: a definition opens, its draft changes, a version is confirmed or
saved, the axes are projected, a revision opens. Each move keeps what is confirmed and moves a lifecycle forward only. A confirmation is
the one call that does not look at the axes: repeated, it overwrites the version it confirmed and takes a saved one back
(`definition_lifecycle_reconfirmed`). And a definition's owner is checked after its draft is written. Away from these two the law holds
over every run (`definition_lifecycle`).
-/

namespace Nl2Sql

open Py

/-- How far a version is. -/
def DefinitionVersionLifecycle.rank (l : DefinitionVersionLifecycle) : Nat :=
  match l.confirmation, l.retention with
  | .draft, _ => 0
  | .confirmed, .session => 1
  | .confirmed, .saved => 2

namespace DefinitionStore

/-- The axes of every definition agree with the recorded lifecycle of its current version. -/
def Agrees (s : DefinitionStore) : Prop :=
  ∀ id definition, s.definitions.get? id = some definition →
    ∃ lifecycle, s.lifecycle.get? (id, definition.currentVersion.version) = some lifecycle ∧
      lifecycle.confirmation = definition.axes.confirmation ∧ lifecycle.retention = definition.axes.retention

/-- A version is in the list of an owner's saved versions. -/
def ListsSaved (s : DefinitionStore) (ownerUserId id : String) (exact : DefinitionVersion) : Prop :=
  ∃ versions, s.listSavedVersions ownerUserId id = .ok versions ∧ exact ∈ versions

/-- What a later store keeps of an earlier one: the confirmed versions, every lifecycle or a later one, the saved versions. -/
structure Keeps (s s' : DefinitionStore) : Prop where
  versions : ∀ key exact, s.versions.get? key = some exact → s'.versions.get? key = some exact
  forward : ∀ key l, s.lifecycle.get? key = some l → ∃ l', s'.lifecycle.get? key = some l' ∧ l.rank ≤ l'.rank
  saved : ∀ ownerUserId id exact, s.ListsSaved ownerUserId id exact → s'.ListsSaved ownerUserId id exact

/-- One step of every lifecycle: it starts as a draft and goes one place forward at most. -/
def OneForward (s s' : DefinitionStore) : Prop :=
  ∀ key l', s'.lifecycle.get? key = some l' →
    (s.lifecycle.get? key = none ∧ l'.rank = 0) ∨ ∃ l, s.lifecycle.get? key = some l ∧ l.rank ≤ l'.rank ∧ l'.rank ≤ l.rank + 1

end DefinitionStore

/-- The condition on a call: a confirmation finds no definition of its owner already confirmed, and a new definition whose draft the
model accepts has an owner that the model accepts, 1 to 256 characters. -/
def DefinitionCall.Careful (s : DefinitionStore) : DefinitionCall → Prop
  | .confirm _ ownerUserId definitionId =>
    ∀ definition, s.definitions.get? definitionId = some definition → definition.ownerUserId.val = ownerUserId →
      definition.axes.confirmation = .draft
  | .createDraft newId now ownerUserId title calculation parameterContract =>
    ∀ draft, DefinitionVersion.first? newId calculation (parameterContract.getD (deriveParameterContract calculation)) title none now =
      some draft → isBlank ownerUserId = false → (boundedText? ownerUserId).isSome = true
  | .createFork newId now ownerUserId title calculation sourceDefinitionId sourceVersion =>
    ∀ lineage fork, lineage? sourceDefinitionId sourceVersion = some lineage →
      DefinitionVersion.first? newId calculation (deriveParameterContract calculation) title (some lineage) now = some fork →
        (boundedText? ownerUserId).isSome = true
  | _ => True

/-- The identifiers a run has drawn. -/
abbrev drawnIds (calls : List DefinitionCall) : List DefinitionId := calls.filterMap DefinitionCall.newId?

/-- Every step of a run is careful. -/
def CarefulRun (server : DefinitionServer) (calls : List DefinitionCall) : Prop :=
  ∀ before call after, calls = before ++ call :: after → call.Careful (DefinitionStore.runCalls server before)

namespace DefinitionAux

open DefinitionStore

variable {s s' t : DefinitionStore} {drawn : Option DefinitionId}

/-! ## The invariant and the moves -/

/-- The invariant of a store at one identifier. -/
structure InvAt (s : DefinitionStore) (id : String) : Prop where
  drafts : ∀ d, s.definitions.get? id = some d → ∃ draft, s.drafts.get? id = some draft ∧ draft.version = d.currentVersion.version
  opened : ∀ d, s.definitions.get? id = some d → d.axes.confirmation = .draft →
    s.versions.get? (id, d.currentVersion.version) = none ∧ s.lifecycle.get? (id, d.currentVersion.version) = some {}
  closed : ∀ d, s.definitions.get? id = some d → d.axes.confirmation = .confirmed →
    s.versions.get? (id, d.currentVersion.version) = some d.currentVersion ∧
      ∃ l, s.lifecycle.get? (id, d.currentVersion.version) = some l ∧ l.confirmation = .confirmed ∧ l.retention = d.axes.retention
  bounded : ∀ w l, s.lifecycle.get? (id, w) = some l → ∃ d, s.definitions.get? id = some d ∧ w ≤ d.currentVersion.version
  recorded : ∀ w exact, s.versions.get? (id, w) = some exact → ∃ l, s.lifecycle.get? (id, w) = some l ∧ l.confirmation = .confirmed

/-- The invariant of a store. -/
def Inv (s : DefinitionStore) : Prop := ∀ id, InvAt s id

/-- One move of a store, at one identifier. A definition opens under the identifier that the call has drawn. -/
inductive Move (drawn : Option DefinitionId) (s : DefinitionStore) : String → DefinitionStore → Prop where
  | opened (id : DefinitionId) (new : drawn = some id) (owner : BoundedText 1 256) (draft : DefinitionVersion) (fresh : s.definitions.get? id.val = none) :
      Move drawn s id.val (((s.putDraft id.val draft).putLifecycle id.val draft.version {}).putDefinition id.val ⟨id, owner, {}, draft⟩)
  | edited (id : String) (d : CustomDefinition) (found : s.definitions.get? id = some d) (open_ : d.axes.confirmation = .draft)
      (draft edited : DefinitionVersion) (old : s.drafts.get? id = some draft) (version : edited.version = draft.version) :
      Move drawn s id ((s.putDraft id edited).putDefinition id { d with currentVersion := edited })
  | confirmed (id : String) (d : CustomDefinition) (found : s.definitions.get? id = some d) (open_ : d.axes.confirmation = .draft)
      (draft exact : DefinitionVersion) (old : s.drafts.get? id = some draft) (version : exact.version = draft.version) :
      Move drawn s id (((s.putVersion id exact.version exact).putLifecycle id exact.version
        { confirmation := .confirmed, retention := .session }).putDefinition id
          { d with axes := d.axes.confirm, currentVersion := exact })
  | saved (id : String) (d : CustomDefinition) (found : s.definitions.get? id = some d) (closed : d.axes.confirmation = .confirmed) :
      Move drawn s id ((s.putDefinition id { d with axes := d.axes.save closed }).putLifecycle id d.currentVersion.version
        { confirmation := .confirmed, retention := .saved })
  | projected (id : String) (d : CustomDefinition) (found : s.definitions.get? id = some d) (axes : DefinitionAxes)
      (confirmation : axes.confirmation = d.axes.confirmation) (retention : axes.retention = d.axes.retention) :
      Move drawn s id (s.putDefinition id { d with axes := axes })
  | revised (id : String) (d : CustomDefinition) (found : s.definitions.get? id = some d) (closed : d.axes.confirmation = .confirmed)
      (revision : DefinitionVersion) (version : revision.version = d.currentVersion.version + 1) :
      Move drawn s id (((s.putDraft id revision).putLifecycle id revision.version {}).putDefinition id
        { d with axes := {}, currentVersion := revision })

theorem get?_set {κ υ : Type} [DecidableEq κ] (d : Dict κ υ) (k k' : κ) (v : υ) :
    (d.set k v).get? k' = if k' = k then some v else d.get? k' := by
  split
  · rename_i h
    rw [h, Dict.get?_set_self]
  · rename_i h
    exact Dict.get?_set_of_ne d v fun hne => h hne.symm

/-- Two stores hold the same under an identifier. -/
structure SameAt (s s' : DefinitionStore) (id : String) : Prop where
  definitions : s'.definitions.get? id = s.definitions.get? id
  drafts : s'.drafts.get? id = s.drafts.get? id
  versions : ∀ w, s'.versions.get? (id, w) = s.versions.get? (id, w)
  lifecycle : ∀ w, s'.lifecycle.get? (id, w) = s.lifecycle.get? (id, w)

theorem InvAt.congr {id : String} (h : InvAt s id) (hsame : SameAt s s' id) : InvAt s' id := by
  obtain ⟨hdef, hdraft, hver, hlife⟩ := hsame
  refine ⟨?_, ?_, ?_, ?_, ?_⟩ <;> simp only [hdef, hdraft, hver, hlife]
  · exact h.drafts
  · exact h.opened
  · exact h.closed
  · exact h.bounded
  · exact h.recorded

theorem inv_initial : Inv DefinitionStore.initial := by
  intro id
  constructor <;> simp [DefinitionStore.initial]

/-- What is not there has no version and no lifecycle. -/
theorem InvAt.versions_none {id : String} {w : Nat} (h : InvAt s id) (hlife : s.lifecycle.get? (id, w) = none) :
    s.versions.get? (id, w) = none := by
  by_contra hne
  obtain ⟨exact, hexact⟩ := Option.ne_none_iff_exists'.mp hne
  obtain ⟨l, hl, -⟩ := h.recorded w exact hexact
  rw [hlife] at hl
  nomatch hl

theorem InvAt.fresh {id : String} (h : InvAt s id) (fresh : s.definitions.get? id = none) (w : Nat) :
    s.lifecycle.get? (id, w) = none := by
  by_contra hne
  obtain ⟨l, hl⟩ := Option.ne_none_iff_exists'.mp hne
  obtain ⟨d, hd, -⟩ := h.bounded w l hl
  rw [fresh] at hd
  nomatch hd

/-- A later version than the current one is not there. -/
theorem InvAt.later {id : String} (h : InvAt s id) {d : CustomDefinition} (found : s.definitions.get? id = some d) {w : Nat}
    (hw : d.currentVersion.version < w) : s.lifecycle.get? (id, w) = none := by
  by_contra hne
  obtain ⟨l, hl⟩ := Option.ne_none_iff_exists'.mp hne
  obtain ⟨d', hd', hle⟩ := h.bounded w l hl
  rw [found] at hd'
  cases hd'
  omega

/-- A move leaves every other identifier as it was. -/
theorem Move.sameAt {id id' : String} (hm : Move drawn s id s') (hne : id' ≠ id) : SameAt s s' id' := by
  cases hm with
  | opened => constructor <;> simp [putDraft, putLifecycle, putDefinition, get?_set, hne]
  | edited => constructor <;> simp [putDraft, putDefinition, get?_set, hne]
  | confirmed => constructor <;> simp [putVersion, putLifecycle, putDefinition, get?_set, hne]
  | saved => constructor <;> simp [putLifecycle, putDefinition, get?_set, hne]
  | projected => constructor <;> simp [putDefinition, get?_set, hne]
  | revised => constructor <;> simp [putDraft, putLifecycle, putDefinition, get?_set, hne]

/-- The axes of a draft say no more than a fresh lifecycle. -/
theorem retention_of_draft {axes : DefinitionAxes} (h : axes.confirmation = .draft) : axes.retention = .session := by
  cases hr : axes.retention with
  | session => rfl
  | saved =>
    have := axes.saved_confirmed hr
    rw [h] at this
    nomatch this

/-- Every move keeps the invariant at its identifier. -/
theorem Move.invAt {id : String} (hm : Move drawn s id s') (h : InvAt s id) : InvAt s' id := by
  cases hm with
  | opened id new owner draft fresh =>
    have hlife := h.fresh fresh
    have hver (w : Nat) := h.versions_none (hlife w)
    constructor <;> simp [putDraft, putLifecycle, putDefinition, get?_set, hlife, hver]
  | edited _ d found open_ draft edited old version =>
    obtain ⟨draft', hdraft', hversion⟩ := h.drafts d found
    rw [old] at hdraft'
    cases hdraft'
    have heq : edited.version = d.currentVersion.version := version.trans hversion
    obtain ⟨hver, hlife⟩ := h.opened d found open_
    refine ⟨?_, ?_, ?_, ?_, h.recorded⟩
    · simp [putDraft, putDefinition]
    · simp [putDraft, putDefinition, heq, hver, hlife]
    · simp [putDraft, putDefinition, open_]
    · intro w l hl
      obtain ⟨d', hd', hle⟩ := h.bounded w l hl
      rw [found] at hd'
      cases hd'
      exact ⟨{ d with currentVersion := edited }, by simp [putDraft, putDefinition], by rw [← heq] at hle; exact hle⟩
  | confirmed _ d found open_ draft exact old version =>
    obtain ⟨draft', hdraft', hversion⟩ := h.drafts d found
    rw [old] at hdraft'
    cases hdraft'
    have heq : exact.version = d.currentVersion.version := version.trans hversion
    refine ⟨?_, ?_, ?_, ?_, ?_⟩
    · simp [putVersion, putLifecycle, putDefinition, old, version]
    · simp [putVersion, putLifecycle, putDefinition, get?_set, DefinitionAxes.confirm]
    · simp [putVersion, putLifecycle, putDefinition, get?_set, DefinitionAxes.confirm, retention_of_draft open_]
    · intro w l hl
      refine ⟨{ d with axes := d.axes.confirm, currentVersion := exact }, by simp [putVersion, putLifecycle, putDefinition], ?_⟩
      simp only [putVersion, putLifecycle, putDefinition, get?_set, Prod.mk.injEq, true_and] at hl
      split at hl
      · rename_i hw
        exact Nat.le_of_eq hw
      · obtain ⟨d', hd', hle⟩ := h.bounded w l hl
        rw [found] at hd'
        cases hd'
        exact heq ▸ hle
    · intro w x hx
      simp only [putVersion, putLifecycle, putDefinition, get?_set, Prod.mk.injEq, true_and] at hx ⊢
      split at hx
      · rename_i hw
        exact ⟨_, if_pos hw, rfl⟩
      · rename_i hw
        rw [if_neg hw]
        exact h.recorded w x hx
  | saved _ d found closed =>
    obtain ⟨hver, l, hlife, hconf, -⟩ := h.closed d found closed
    refine ⟨?_, ?_, ?_, ?_, ?_⟩
    · simpa [putLifecycle, putDefinition, get?_set] using h.drafts d found
    · simp [putLifecycle, putDefinition, get?_set, DefinitionAxes.save, closed]
    · simp [putLifecycle, putDefinition, get?_set, DefinitionAxes.save, hver]
    · intro w l' hl
      refine ⟨{ d with axes := d.axes.save closed }, by simp [putLifecycle, putDefinition], ?_⟩
      simp only [putLifecycle, putDefinition, get?_set, Prod.mk.injEq, true_and] at hl
      split at hl
      · rename_i hw
        exact Nat.le_of_eq hw
      · obtain ⟨d', hd', hle⟩ := h.bounded w l' hl
        rw [found] at hd'
        cases hd'
        exact hle
    · intro w x hx
      simp only [putLifecycle, putDefinition, get?_set, Prod.mk.injEq, true_and] at hx ⊢
      split
      · exact ⟨_, rfl, rfl⟩
      · exact h.recorded w x hx
  | projected _ d found axes confirmation retention =>
    refine ⟨?_, ?_, ?_, ?_, h.recorded⟩
    · simpa [putDefinition, get?_set] using h.drafts d found
    · simpa [putDefinition, get?_set, confirmation] using h.opened d found
    · simpa [putDefinition, get?_set, confirmation, retention] using h.closed d found
    · intro w l hl
      obtain ⟨d', hd', hle⟩ := h.bounded w l hl
      rw [found] at hd'
      cases hd'
      exact ⟨{ d with axes := axes }, by simp [putDefinition], hle⟩
  | revised _ d found closed revision version =>
    have hlater : d.currentVersion.version < revision.version := by omega
    have hlife := h.later found hlater
    have hver := h.versions_none hlife
    refine ⟨?_, ?_, ?_, ?_, ?_⟩
    · simp [putDraft, putLifecycle, putDefinition]
    · simp [putDraft, putLifecycle, putDefinition, get?_set, hver]
    · simp [putDraft, putLifecycle, putDefinition, get?_set]
    · intro w l hl
      refine ⟨{ d with axes := {}, currentVersion := revision }, by simp [putDraft, putLifecycle, putDefinition], ?_⟩
      simp only [putDraft, putLifecycle, putDefinition, get?_set, Prod.mk.injEq, true_and] at hl
      split at hl
      · rename_i hw
        exact Nat.le_of_eq hw
      · obtain ⟨d', hd', hle⟩ := h.bounded w l hl
        rw [found] at hd'
        cases hd'
        exact Nat.le_of_lt (Nat.lt_of_le_of_lt hle hlater)
    · intro w x hx
      simp only [putDraft, putLifecycle, putDefinition, get?_set, Prod.mk.injEq, true_and]
      obtain ⟨l, hl, hconf⟩ := h.recorded w x hx
      have hw : w ≠ revision.version := by
        rintro rfl
        rw [hlife] at hl
        cases hl
      rw [if_neg hw]
      exact ⟨l, hl, hconf⟩

/-- Moves, none or one. -/
def Moved (drawn : Option DefinitionId) (s s' : DefinitionStore) : Prop := s' = s ∨ ∃ id, Move drawn s id s'

theorem Moved.inv (hm : Moved drawn s s') (h : Inv s) : Inv s' := by
  rcases hm with rfl | ⟨id, hm⟩
  · exact h
  · intro id'
    by_cases hid : id' = id
    · rw [hid]
      exact hm.invAt (h id)
    · exact (h id').congr (hm.sameAt hid)

/-! ## What a move keeps -/

/-- A move keeps the versions under its identifier. -/
theorem Move.versions {id : String} (hm : Move drawn s id s') (h : InvAt s id) (w : Nat) (exact : DefinitionVersion)
    (hget : s.versions.get? (id, w) = some exact) : s'.versions.get? (id, w) = some exact := by
  cases hm with
  | opened | edited | saved | projected | revised => exact hget
  | confirmed _ d found open_ draft x old version =>
    obtain ⟨draft', hdraft', hversion⟩ := h.drafts d found
    rw [old] at hdraft'
    cases hdraft'
    have hw : w ≠ x.version := by
      rintro rfl
      rw [version, hversion, (h.opened d found open_).1] at hget
      nomatch hget
    simpa [putVersion, putLifecycle, putDefinition, get?_set, hw] using hget

/-- A move takes a lifecycle under its identifier at most one place forward. -/
theorem Move.lifecycle {id : String} (hm : Move drawn s id s') (h : InvAt s id) (w : Nat) (l' : DefinitionVersionLifecycle)
    (hget : s'.lifecycle.get? (id, w) = some l') :
    (s.lifecycle.get? (id, w) = none ∧ l'.rank = 0) ∨
      ∃ l, s.lifecycle.get? (id, w) = some l ∧ l.rank ≤ l'.rank ∧ l'.rank ≤ l.rank + 1 := by
  cases hm with
  | opened id new owner draft fresh =>
    simp only [putDraft, putLifecycle, putDefinition, get?_set, Prod.mk.injEq, true_and] at hget
    split at hget
    · cases hget
      exact Or.inl ⟨h.fresh fresh w, rfl⟩
    · exact Or.inr ⟨l', hget, Nat.le_refl _, Nat.le_succ _⟩
  | edited => exact Or.inr ⟨l', hget, Nat.le_refl _, Nat.le_succ _⟩
  | projected => exact Or.inr ⟨l', hget, Nat.le_refl _, Nat.le_succ _⟩
  | confirmed _ d found open_ draft exact old version =>
    obtain ⟨draft', hdraft', hversion⟩ := h.drafts d found
    rw [old] at hdraft'
    cases hdraft'
    simp only [putVersion, putLifecycle, putDefinition, get?_set, Prod.mk.injEq, true_and] at hget
    split at hget
    · rename_i hw
      cases hget
      rw [hw, version, hversion]
      exact Or.inr ⟨_, (h.opened d found open_).2, by decide, by decide⟩
    · exact Or.inr ⟨l', hget, Nat.le_refl _, Nat.le_succ _⟩
  | saved _ d found closed =>
    simp only [putLifecycle, putDefinition, get?_set, Prod.mk.injEq, true_and] at hget
    split at hget
    · rename_i hw
      cases hget
      obtain ⟨-, l, hl, hconf, -⟩ := h.closed d found closed
      refine Or.inr ⟨l, hw ▸ hl, ?_⟩
      unfold DefinitionVersionLifecycle.rank
      rw [hconf]
      cases l.retention <;> decide
    · exact Or.inr ⟨l', hget, Nat.le_refl _, Nat.le_succ _⟩
  | revised _ d found closed revision version =>
    simp only [putDraft, putLifecycle, putDefinition, get?_set, Prod.mk.injEq, true_and] at hget
    split at hget
    · rename_i hw
      cases hget
      exact Or.inl ⟨hw ▸ h.later found (by omega), rfl⟩
    · exact Or.inr ⟨l', hget, Nat.le_refl _, Nat.le_succ _⟩

/-- A move forgets no lifecycle. -/
theorem Move.lifecycle_stays {id : String} (hm : Move drawn s id s') (w : Nat) {l : DefinitionVersionLifecycle}
    (hget : s.lifecycle.get? (id, w) = some l) : ∃ l', s'.lifecycle.get? (id, w) = some l' := by
  cases hm with
  | edited => exact ⟨l, hget⟩
  | projected => exact ⟨l, hget⟩
  | opened | confirmed | saved | revised =>
    simp only [putDraft, putVersion, putLifecycle, putDefinition, get?_set, Prod.mk.injEq, true_and]
    split
    · exact ⟨_, rfl⟩
    · exact ⟨l, hget⟩

/-- A move leaves a definition with its owner. -/
theorem Move.owner {id : String} (hm : Move drawn s id s') {d : CustomDefinition} (hget : s.definitions.get? id = some d) :
    ∃ d', s'.definitions.get? id = some d' ∧ d'.ownerUserId = d.ownerUserId := by
  cases hm with
  | opened id new owner draft fresh =>
    rw [fresh] at hget
    nomatch hget
  | edited _ d' found | confirmed _ d' found | saved _ d' found | projected _ d' found | revised _ d' found =>
    rw [found] at hget
    cases hget
    exact ⟨_, Dict.get?_set_self _ _ _, rfl⟩

/-! ## The list of saved versions -/

theorem mem_savedVersions {id : String} {current : DefinitionVersion}
    (hcurrent : ∀ l, s.lifecycle.get? (id, current.version) = some l → l.retention = .saved →
      s.versions.get? (id, current.version) = some current) (w : Nat) (exact : DefinitionVersion) :
    (s.savedVersions id current).get? w = some exact ↔
      s.versions.get? (id, w) = some exact ∧ ∃ l, s.lifecycle.get? (id, w) = some l ∧ l.retention = .saved := by
  have hsaved (w : Nat) : (((s.lifecycle.get? (id, w)).map (·.retention)) == some RetentionAxis.saved) = true ↔
      ∃ l, s.lifecycle.get? (id, w) = some l ∧ l.retention = .saved := by
    cases s.lifecycle.get? (id, w) <;> simp
  -- The pairs of the version map that are kept, with their version numbers.
  generalize hpairs : (s.versions.entries.filter fun entry => decide (entry.1.1 = id ∧
      (((s.lifecycle.get? (id, entry.1.2)).map (·.retention)) == some RetentionAxis.saved) = true)).map
        (fun entry => (entry.1.2, entry.2)) = pairs
  have hmem (w : Nat) (x : DefinitionVersion) : (w, x) ∈ pairs ↔
      s.versions.get? (id, w) = some x ∧ ∃ l, s.lifecycle.get? (id, w) = some l ∧ l.retention = .saved := by
    rw [← hpairs, Dict.get?_eq_some_iff, ← hsaved]
    simp only [List.mem_map, List.mem_filter, decide_eq_true_eq]
    constructor
    · rintro ⟨⟨⟨id', w'⟩, x'⟩, ⟨hentry, rfl, hs⟩, heq⟩
      cases heq
      exact ⟨hentry, hs⟩
    · rintro ⟨hentry, hs⟩
      exact ⟨((id, w), x), ⟨hentry, rfl, hs⟩, rfl⟩
  have hdict (w : Nat) (x : DefinitionVersion) : (Dict.ofList pairs).get? w = some x ↔ (w, x) ∈ pairs := by
    change ((Dict.empty : Dict Nat DefinitionVersion).update pairs).get? w = some x ↔ _
    by_cases hw : w ∈ pairs.map Prod.fst
    · obtain ⟨v, hv, hget⟩ := Dict.get?_update_of_mem hw Dict.empty
      rw [hget, Option.some.injEq]
      refine ⟨fun heq => heq ▸ hv, fun hx => ?_⟩
      exact Option.some.inj (((hmem w v).mp hv).1.symm.trans ((hmem w x).mp hx).1)
    · rw [Dict.get?_update_of_not_mem hw]
      refine ⟨(by rintro ⟨⟩), fun hx => absurd (List.mem_map.mpr ⟨(w, x), hx, rfl⟩) hw⟩
  unfold savedVersions
  simp only [hpairs]
  split
  · rename_i hs
    obtain ⟨l, hl, hret⟩ := (hsaved current.version).mp hs
    rw [get?_set]
    split
    · rename_i hw
      rw [hw, hcurrent l hl hret, Option.some.injEq]
      exact ⟨fun heq => ⟨heq, l, hl, hret⟩, fun h => h.1⟩
    · rw [hdict, hmem]
  · rw [hdict, hmem]

/-- A version is listed as saved exactly when it is stored and its lifecycle is saved. -/
theorem listsSaved_iff (h : Inv s) {owner id : String} {exact : DefinitionVersion} :
    s.ListsSaved owner id exact ↔
      (∃ d, s.definitions.get? id = some d ∧ d.ownerUserId.val = owner) ∧
        ∃ w, s.versions.get? (id, w) = some exact ∧ ∃ l, s.lifecycle.get? (id, w) = some l ∧ l.retention = .saved := by
  unfold ListsSaved listSavedVersions
  cases hget : s.definitions.get? id with
  | none => simp
  | some d =>
    have hcurrent : ∀ l, s.lifecycle.get? (id, d.currentVersion.version) = some l → l.retention = .saved →
        s.versions.get? (id, d.currentVersion.version) = some d.currentVersion := by
      intro l hl hret
      cases hconf : d.axes.confirmation with
      | confirmed => exact ((h id).closed d hget hconf).1
      | draft =>
        rw [((h id).opened d hget hconf).2] at hl
        cases hl
        cases hret
    simp only [Option.some.injEq, exists_eq_left']
    by_cases howner : d.ownerUserId.val = owner
    · simp only [howner, ne_eq, not_true_eq_false, if_false, Except.ok.injEq, exists_eq_left', true_and, List.mem_filterMap,
        List.mem_insertionSort, mem_savedVersions hcurrent]
      constructor
      · rintro ⟨w, -, hw⟩
        exact ⟨w, hw⟩
      · rintro ⟨w, hw⟩
        refine ⟨w, Dict.get?_isSome_iff.mp ?_, hw⟩
        rw [(mem_savedVersions hcurrent w exact).mpr hw]
        rfl
    · simp [howner]

/-! ## One move, and a run of moves -/

theorem Moved.keeps (hm : Moved drawn s s') (h : Inv s) : s.Keeps s' := by
  rcases hm with rfl | ⟨id, hm⟩
  · exact ⟨fun _ _ hget => hget, fun _ l hget => ⟨l, hget, Nat.le_refl _⟩, fun _ _ _ hlist => hlist⟩
  · have hversions : ∀ key exact, s.versions.get? key = some exact → s'.versions.get? key = some exact := by
      rintro ⟨id', w⟩ exact hget
      by_cases hid : id' = id
      · subst hid
        exact hm.versions (h id') w exact hget
      · rw [(hm.sameAt hid).versions]
        exact hget
    have hforward : ∀ key l, s.lifecycle.get? key = some l → ∃ l', s'.lifecycle.get? key = some l' ∧ l.rank ≤ l'.rank := by
      rintro ⟨id', w⟩ l hget
      by_cases hid : id' = id
      · subst hid
        obtain ⟨l', hget'⟩ := hm.lifecycle_stays w hget
        rcases hm.lifecycle (h id') w l' hget' with ⟨hnone, -⟩ | ⟨l'', hold, hle, -⟩
        · rw [hnone] at hget
          nomatch hget
        · rw [hget] at hold
          cases hold
          exact ⟨l', hget', hle⟩
      · refine ⟨l, ?_, Nat.le_refl _⟩
        rw [(hm.sameAt hid).lifecycle]
        exact hget
    refine ⟨hversions, hforward, fun owner id' exact hlist => ?_⟩
    have hmoved : Moved drawn s s' := Or.inr ⟨id, hm⟩
    have hinv' := hmoved.inv h
    obtain ⟨⟨d, hd, howner⟩, w, hget, l, hl, hret⟩ := (listsSaved_iff h).mp hlist
    refine (listsSaved_iff hinv').mpr ⟨?_, w, hversions _ _ hget, ?_⟩
    · by_cases hid : id' = id
      · subst hid
        obtain ⟨d', hd', heq⟩ := hm.owner hd
        exact ⟨d', hd', heq ▸ howner⟩
      · exact ⟨d, by rw [(hm.sameAt hid).definitions]; exact hd, howner⟩
    · obtain ⟨l', hl', hle⟩ := hforward _ l hl
      refine ⟨l', hl', ?_⟩
      have hrank : l.rank = 2 := by
        unfold DefinitionVersionLifecycle.rank
        rw [hret, l.saved_confirmed hret]
      rw [hrank] at hle
      unfold DefinitionVersionLifecycle.rank at hle
      cases hr : l'.retention with
      | saved => rfl
      | session =>
        rw [hr] at hle
        cases hc : l'.confirmation <;> rw [hc] at hle <;> simp at hle

theorem Moved.oneForward (hm : Moved drawn s s') (h : Inv s) : s.OneForward s' := by
  rcases hm with rfl | ⟨id, hm⟩
  · exact fun key l hget => Or.inr ⟨l, hget, Nat.le_refl _, Nat.le_succ _⟩
  · rintro ⟨id', w⟩ l' hget
    by_cases hid : id' = id
    · subst hid
      exact hm.lifecycle (h id') w l' hget
    · rw [(hm.sameAt hid).lifecycle] at hget
      exact Or.inr ⟨l', hget, Nat.le_refl _, Nat.le_succ _⟩

theorem Keeps.refl (s : DefinitionStore) : s.Keeps s :=
  ⟨fun _ _ hget => hget, fun _ l hget => ⟨l, hget, Nat.le_refl _⟩, fun _ _ _ hlist => hlist⟩

theorem Keeps.trans (h : s.Keeps s') (h' : s'.Keeps t) : s.Keeps t := by
  refine ⟨fun key exact hget => h'.versions key exact (h.versions key exact hget), fun key l hget => ?_,
    fun owner id exact hlist => h'.saved owner id exact (h.saved owner id exact hlist)⟩
  obtain ⟨l', hget', hle⟩ := h.forward key l hget
  obtain ⟨l'', hget'', hle'⟩ := h'.forward key l' hget'
  exact ⟨l'', hget'', Nat.le_trans hle hle'⟩

/-- The invariant says that the axes agree with the lifecycle. -/
theorem Inv.agrees (h : Inv s) : s.Agrees := by
  intro id d hget
  cases hconf : d.axes.confirmation with
  | draft => exact ⟨_, ((h id).opened d hget hconf).2, rfl, (retention_of_draft hconf).symm⟩
  | confirmed =>
    obtain ⟨-, l, hl, hc, hr⟩ := (h id).closed d hget hconf
    exact ⟨l, hl, hc, hr⟩

/-! ## What the methods do -/

/-- A method that raises leaves the store, and one that returns leaves it or makes a move. -/
abbrev Moves {α : Type} (drawn : Option DefinitionId) (s : DefinitionStore) (m : DefinitionM α) : Prop :=
  Triple (fun t => t = s) m (fun _ t => Moved drawn s t) (fun _ t => t = s)

/-- A fact of the state before, to be used by the rest of a method. -/
theorem triple_of_fact {α : Type} {F : Prop} {m : DefinitionM α} {Q : α → DefinitionStore → Prop} {E : DefinitionError → DefinitionStore → Prop}
    (h : F → Triple (fun t => t = s) m Q E) : Triple (fun t => t = s ∧ F) m Q E :=
  fun t ht => h ht.2 t ht.1

theorem triple_orRaise {α : Type} (e : DefinitionError) (o : Option α) :
    Triple (fun t => t = s) (orRaise e o) (fun a t => t = s ∧ o = some a) (fun _ t => t = s) := by
  cases o with
  | none => exact Triple.throw fun _ h => h
  | some a => exact Triple.pure fun _ h => ⟨h, rfl⟩

theorem triple_raiseIf (c : Prop) [Decidable c] (e : DefinitionError) :
    Triple (fun t => t = s) (DefinitionStore.raiseIf c e) (fun _ t => t = s ∧ ¬ c) (fun _ t => t = s) := by
  unfold DefinitionStore.raiseIf
  split
  · exact Triple.throw fun _ h => h
  · rename_i hc
    exact Triple.pure fun _ h => ⟨h, hc⟩

theorem triple_get : Triple (fun t => t = s) (get : DefinitionM DefinitionStore) (fun a t => t = s ∧ a = s) (fun _ t => t = s) :=
  fun _ h => ⟨h, h⟩

theorem triple_owned (owner id : String) :
    Triple (fun t => t = s) (owned owner id) (fun d t => t = s ∧ s.definitions.get? id = some d ∧ d.ownerUserId.val = owner)
      (fun _ t => t = s) := by
  refine Triple.bind triple_get fun a => triple_of_fact ?_
  rintro rfl
  refine Triple.bind (triple_orRaise _ _) fun d => triple_of_fact fun hd => ?_
  refine Triple.bind (triple_raiseIf _ _) fun _ => triple_of_fact fun howner => ?_
  exact Triple.pure fun _ h => ⟨h, hd, not_not.mp howner⟩

theorem triple_draftOf (id : String) :
    Triple (fun t => t = s) (draftOf id) (fun draft t => t = s ∧ s.drafts.get? id = some draft) (fun _ t => t = s) := by
  refine Triple.bind triple_get fun a => triple_of_fact ?_
  rintro rfl
  exact triple_orRaise _ _

/-- The write at the end of a method. -/
theorem moves_write {α : Type} {f : DefinitionStore → DefinitionStore} {a : α} (h : Moved drawn s (f s)) :
    Moves drawn s (do modify f; pure a) := by
  rintro t rfl
  exact h

theorem triple_checkInputs (isGoverned : String → Except Unit Bool) (inputs : List CalculationInputSpec) :
    Triple (fun t => t = s) (checkInputs isGoverned inputs) (fun _ t => t = s) (fun _ t => t = s) := by
  induction inputs with
  | nil => exact Triple.pure fun _ h => h
  | cons input rest ih =>
    unfold checkInputs
    split
    · exact Triple.throw fun _ h => h
    · exact ih

theorem edited?_version {draft edited : DefinitionVersion} {calculation : CalculationSpec} {contract : ParameterContract} {title : String}
    {closed : Bool} (h : draft.edited? calculation contract title closed = some edited) : edited.version = draft.version := by
  unfold DefinitionVersion.edited? at h
  obtain ⟨title', -, h⟩ := Option.bind_eq_some_iff.mp h
  split at h
  · cases h
    rfl
  · nomatch h

theorem moves_updateDraft (D : DefinitionDigests) (owner id : String) (calculation : Option CalculationSpec)
    (contract : Option ParameterContract) (title : Option String) : Moves drawn s (updateDraft D owner id calculation contract title) := by
  refine Triple.bind (triple_owned owner id) fun d => triple_of_fact ?_
  rintro ⟨found, -⟩
  refine Triple.bind (triple_raiseIf _ _) fun _ => triple_of_fact fun hconf => ?_
  refine Triple.bind (triple_draftOf id) fun draft => triple_of_fact fun old => ?_
  refine Triple.bind (triple_orRaise _ _) fun edited => triple_of_fact fun hedited => ?_
  have open_ : d.axes.confirmation = .draft := by
    cases hc : d.axes.confirmation with
    | draft => rfl
    | confirmed => exact absurd hc hconf
  exact moves_write (Or.inr ⟨id, Move.edited id d found open_ draft edited old (edited?_version hedited)⟩)

theorem moves_markSemanticClosed (isGoverned : String → Except Unit Bool) (owner id : String) :
    Moves drawn s (markSemanticClosed isGoverned owner id) := by
  refine Triple.bind (triple_owned owner id) fun d => triple_of_fact ?_
  rintro ⟨found, -⟩
  refine Triple.bind (triple_raiseIf _ _) fun _ => triple_of_fact fun hconf => ?_
  refine Triple.bind (triple_draftOf id) fun draft => triple_of_fact fun old => ?_
  refine Triple.bind (triple_raiseIf _ _) fun _ => triple_of_fact fun _ => ?_
  refine Triple.bind (triple_checkInputs _ _) fun _ => ?_
  split
  · exact Triple.pure fun _ h => Or.inl h
  · have open_ : d.axes.confirmation = .draft := by
      cases hc : d.axes.confirmation with
      | draft => rfl
      | confirmed => exact absurd hc hconf
    exact moves_write (Or.inr ⟨id, Move.edited id d found open_ draft _ old rfl⟩)

/-- A confirmation moves the store where the definition is not confirmed yet. -/
theorem moves_confirm (now owner id : String)
    (hopen : ∀ d, s.definitions.get? id = some d → d.ownerUserId.val = owner → d.axes.confirmation = .draft) :
    Moves drawn s (confirm now owner id) := by
  refine Triple.bind (triple_owned owner id) fun d => triple_of_fact ?_
  rintro ⟨found, howner⟩
  refine Triple.bind (triple_draftOf id) fun draft => triple_of_fact fun old => ?_
  refine Triple.bind (triple_raiseIf _ _) fun _ => triple_of_fact fun _ => ?_
  exact moves_write (Or.inr ⟨id, Move.confirmed id d found (hopen d found howner) draft _ old rfl⟩)

theorem moves_save (owner id : String) : Moves drawn s (save owner id) := by
  refine Triple.bind (triple_owned owner id) fun d => triple_of_fact ?_
  rintro ⟨found, -⟩
  split
  · rename_i closed
    refine Triple.bind (triple_raiseIf _ _) fun _ => triple_of_fact fun _ => ?_
    exact moves_write (Or.inr ⟨id, Move.saved id d found closed⟩)
  · exact Triple.throw fun _ h => h

theorem moves_projectPublished (owner id : String) (version : Int) : Moves drawn s (projectPublished owner id version) := by
  refine Triple.bind (triple_owned owner id) fun d => triple_of_fact ?_
  rintro ⟨found, -⟩
  split
  · exact Triple.pure fun _ h => Or.inl h
  · split
    · rintro t rfl
      exact Or.inr ⟨id, Move.projected id d found _ rfl rfl⟩
    · exact Triple.throw fun _ h => h

theorem moves_projectCertified (owner id : String) : Moves drawn s (projectCertified owner id) := by
  refine Triple.bind (triple_owned owner id) fun d => triple_of_fact ?_
  rintro ⟨found, -⟩
  split
  · rintro t rfl
    exact Or.inr ⟨id, Move.projected id d found _ rfl rfl⟩
  · exact Triple.throw fun _ h => h

theorem moves_createRevision (now owner id : String) : Moves drawn s (createRevision now owner id) := by
  refine Triple.bind (triple_owned owner id) fun d => triple_of_fact ?_
  rintro ⟨found, -⟩
  refine Triple.bind (triple_raiseIf _ _) fun _ => triple_of_fact fun hconf => ?_
  exact moves_write (Or.inr ⟨id, Move.revised id d found (not_not.mp hconf) _ rfl⟩)

/-- A new definition moves the store where its owner is one the model accepts. -/
theorem moves_openDefinition {owner : String} {id : DefinitionId} (draft : DefinitionVersion) (howner : (boundedText? owner).isSome = true)
    (fresh : s.definitions.get? id.val = none) : Moves (some id) s (openDefinition owner id draft) := by
  obtain ⟨owner', howner⟩ := Option.isSome_iff_exists.mp howner
  rintro t rfl
  unfold openDefinition
  rw [howner]
  exact Or.inr ⟨id.val, Move.opened id rfl owner' draft fresh⟩

theorem moves_createDraft {newId : DefinitionId} {now owner title : String} {calculation : CalculationSpec}
    {contract : Option ParameterContract}
    (howner : ∀ draft, DefinitionVersion.first? newId calculation (contract.getD (deriveParameterContract calculation)) title none now =
      some draft → isBlank owner = false → (boundedText? owner).isSome = true)
    (fresh : s.definitions.get? newId.val = none) : Moves (some newId) s (createDraft newId now owner title calculation contract) := by
  refine Triple.bind (triple_raiseIf _ _) fun _ => triple_of_fact fun hblank => ?_
  refine Triple.bind (triple_orRaise _ _) fun draft => triple_of_fact fun hdraft => ?_
  exact moves_openDefinition draft (howner draft hdraft (by simpa using hblank)) fresh

theorem moves_createFork {newId : DefinitionId} {now owner title : String} {calculation : CalculationSpec} {source : String}
    {version : Int}
    (howner : ∀ lineage draft, lineage? source version = some lineage →
      DefinitionVersion.first? newId calculation (deriveParameterContract calculation) title (some lineage) now = some draft →
        (boundedText? owner).isSome = true)
    (fresh : s.definitions.get? newId.val = none) : Moves (some newId) s (createFork newId now owner title calculation source version) := by
  refine Triple.bind (triple_orRaise _ _) fun lineage => triple_of_fact fun hlineage => ?_
  refine Triple.bind (triple_orRaise _ _) fun fork => triple_of_fact fun hfork => ?_
  exact moves_openDefinition fork (howner lineage fork hlineage hfork) fresh

/-- A method of a call that does not return a value. -/
theorem moves_discard {α : Type} {m : DefinitionM α} (h : Moves drawn s m) : Moves drawn s (discard m) := by
  intro t ht
  have hm := h t ht
  rw [run_discard]
  revert hm
  cases m.run t with
  | ok a t' => exact id
  | error e t' => exact id

/-- A careful call moves the store, and leaves it where it raises. -/
theorem moves_exec (server : DefinitionServer) {call : DefinitionCall} (hcareful : call.Careful s)
    (fresh : ∀ id, call.newId? = some id → s.definitions.get? id.val = none) : Moves call.newId? s (call.exec server) := by
  cases call with
  | createDraft newId now owner title calculation contract => exact moves_discard (moves_createDraft hcareful (fresh newId rfl))
  | updateDraft owner id calculation contract title => exact moves_discard (moves_updateDraft _ owner id calculation contract title)
  | markSemanticClosed owner id => exact moves_discard (moves_markSemanticClosed _ owner id)
  | confirm now owner id => exact moves_discard (moves_confirm now owner id hcareful)
  | save owner id => exact moves_discard (moves_save owner id)
  | createRevision now owner id => exact moves_discard (moves_createRevision now owner id)
  | createFork newId now owner title calculation source version => exact moves_discard (moves_createFork hcareful (fresh newId rfl))
  | projectPublished owner id version => exact moves_projectPublished owner id version
  | projectCertified owner id => exact moves_projectCertified owner id

theorem moved_after (server : DefinitionServer) {call : DefinitionCall} (hcareful : call.Careful s)
    (fresh : ∀ id, call.newId? = some id → s.definitions.get? id.val = none) : Moved call.newId? s (s.after server call) := by
  have h := moves_exec server hcareful fresh s rfl
  unfold DefinitionStore.after
  revert h
  cases (call.exec server).run s with
  | ok a t => exact id
  | error e t => exact fun h => Or.inl h

/-- A definition that is there after a move was there, or the call has drawn it. -/
theorem Moved.opened (hm : Moved drawn s s') {id : String} {d : CustomDefinition} (hget : s'.definitions.get? id = some d) :
    (s.definitions.get? id).isSome = true ∨ ∃ new, drawn = some new ∧ new.val = id := by
  rcases hm with rfl | ⟨id', hm⟩
  · exact Or.inl (by rw [hget]; rfl)
  · by_cases hid : id = id'
    · subst hid
      cases hm with
      | opened id new owner draft fresh => exact Or.inr ⟨id, new, rfl⟩
      | edited _ d' found | confirmed _ d' found | saved _ d' found | projected _ d' found | revised _ d' found =>
        exact Or.inl (by rw [found]; rfl)
    · rw [(hm.sameAt hid).definitions] at hget
      exact Or.inl (by rw [hget]; rfl)

/-! ## Runs -/

theorem runCalls_append (server : DefinitionServer) (before after : List DefinitionCall) :
    DefinitionStore.runCalls server (before ++ after) = after.foldl (DefinitionStore.after server) (DefinitionStore.runCalls server before) :=
  List.foldl_append

theorem CarefulRun.before {server : DefinitionServer} {before after : List DefinitionCall} (h : CarefulRun server (before ++ after)) :
    CarefulRun server before := by
  intro before' call after' heq
  exact h before' call (after' ++ after) (by rw [heq]; simp)

/-- The identifier a call draws is not there yet. -/
theorem fresh_of_drawn {before : List DefinitionCall} {call : DefinitionCall} (hfresh : (drawnIds (before ++ [call])).Nodup)
    (hdrawn : ∀ id d, s.definitions.get? id = some d → ∃ new ∈ drawnIds before, new.val = id) :
    ∀ id, call.newId? = some id → s.definitions.get? id.val = none := by
  intro id hid
  by_contra hne
  obtain ⟨d, hd⟩ := Option.ne_none_iff_exists'.mp hne
  obtain ⟨new, hmem, heq⟩ := hdrawn id.val d hd
  rw [drawnIds, List.filterMap_append] at hfresh
  exact (List.nodup_append.mp hfresh).2.2 new hmem id (by simp [hid]) (Subtype.ext heq)

theorem nodup_drawn_before {before after : List DefinitionCall} (h : (drawnIds (before ++ after)).Nodup) : (drawnIds before).Nodup := by
  rw [drawnIds, List.filterMap_append] at h
  exact h.of_append_left

/-- A run keeps the invariant, and every definition has an identifier the run has drawn. -/
theorem inv_runCalls {server : DefinitionServer} {calls : List DefinitionCall} (hfresh : (drawnIds calls).Nodup)
    (hcareful : CarefulRun server calls) :
    Inv (DefinitionStore.runCalls server calls) ∧
      ∀ id d, (DefinitionStore.runCalls server calls).definitions.get? id = some d → ∃ new ∈ drawnIds calls, new.val = id := by
  induction calls using List.reverseRecOn with
  | nil => exact ⟨inv_initial, fun id d hget => by simp [DefinitionStore.runCalls, DefinitionStore.initial] at hget⟩
  | append_singleton before call ih =>
    obtain ⟨hinv, hdrawn⟩ := ih (nodup_drawn_before hfresh) (CarefulRun.before hcareful)
    have hmoved := moved_after server (hcareful before call [] rfl) (fresh_of_drawn hfresh hdrawn)
    rw [runCalls_append]
    refine ⟨hmoved.inv hinv, fun id d hget => ?_⟩
    rw [drawnIds, List.filterMap_append]
    rcases hmoved.opened hget with hsome | ⟨new, hnew, heq⟩
    · obtain ⟨d', hd'⟩ := Option.isSome_iff_exists.mp hsome
      obtain ⟨new, hmem, heq⟩ := hdrawn id d' hd'
      exact ⟨new, List.mem_append_left _ hmem, heq⟩
    · exact ⟨new, List.mem_append_right _ (by simp [hnew]), heq⟩

/-- The last step of a run: what it moves, and that it leaves the store where it raises. -/
theorem last_step {server : DefinitionServer} {before : List DefinitionCall} {call : DefinitionCall}
    (hfresh : (drawnIds (before ++ [call])).Nodup) (hcareful : CarefulRun server (before ++ [call])) :
    Inv (DefinitionStore.runCalls server before) ∧
      Moves call.newId? (DefinitionStore.runCalls server before) (call.exec server) ∧
        Moved call.newId? (DefinitionStore.runCalls server before) ((DefinitionStore.runCalls server before).after server call) := by
  obtain ⟨hinv, hdrawn⟩ := inv_runCalls (nodup_drawn_before hfresh) (CarefulRun.before hcareful)
  have fresh := fresh_of_drawn hfresh hdrawn
  exact ⟨hinv, moves_exec server (hcareful before call [] rfl) fresh, moved_after server (hcareful before call [] rfl) fresh⟩

/-- A longer run keeps what a shorter one has. -/
theorem keeps_runCalls {server : DefinitionServer} {before after : List DefinitionCall} (hfresh : (drawnIds (before ++ after)).Nodup)
    (hcareful : CarefulRun server (before ++ after)) :
    (DefinitionStore.runCalls server before).Keeps (DefinitionStore.runCalls server (before ++ after)) := by
  induction after using List.reverseRecOn with
  | nil =>
    rw [List.append_nil]
    exact Keeps.refl _
  | append_singleton after call ih =>
    rw [← List.append_assoc] at hfresh hcareful ⊢
    obtain ⟨hinv, -, hmoved⟩ := last_step hfresh hcareful
    rw [runCalls_append server (before ++ after) [call]]
    exact Keeps.trans (ih (nodup_drawn_before hfresh) (CarefulRun.before hcareful)) (hmoved.keeps hinv)

end DefinitionAux

open DefinitionAux in
/-- Over every run of calls by any users whose steps are careful: at each point the axes agree with the recorded lifecycle of the current
version, and everything after keeps the confirmed versions, the lifecycles or later ones, and the saved versions in their lists; and each
step takes a lifecycle one place forward at most, and changes nothing where it raises. -/
theorem definition_lifecycle (server : DefinitionServer) (calls : List DefinitionCall) (hfresh : (drawnIds calls).Nodup)
    (hcareful : CarefulRun server calls) :
    (∀ before after, calls = before ++ after →
      (DefinitionStore.runCalls server before).Agrees ∧
        (DefinitionStore.runCalls server before).Keeps (DefinitionStore.runCalls server calls)) ∧
    ∀ before call after, calls = before ++ call :: after →
      (call.Raises server (DefinitionStore.runCalls server before) →
        (DefinitionStore.runCalls server before).after server call = DefinitionStore.runCalls server before) ∧
      (DefinitionStore.runCalls server before).OneForward (DefinitionStore.runCalls server (before ++ [call])) := by
  constructor
  · rintro before after rfl
    exact ⟨(inv_runCalls (nodup_drawn_before hfresh) (CarefulRun.before hcareful)).1.agrees, keeps_runCalls hfresh hcareful⟩
  · rintro before call after rfl
    rw [List.append_cons] at hfresh hcareful
    obtain ⟨hinv, hmoves, hmoved⟩ := last_step (nodup_drawn_before hfresh) (CarefulRun.before hcareful)
    constructor
    · rintro ⟨e, t, hraised⟩
      have h := hmoves _ rfl
      unfold DefinitionStore.after
      rw [hraised] at h ⊢
      exact h
    · rw [runCalls_append]
      exact hmoved.oneForward hinv

/-! ## One definition, saved and confirmed again -/

/-- The server of the discounted revenue. -/
def discountServer : DefinitionServer where
  digests :=
    { discountedRevenueDigests with
      parameters := fun _ => ⟨"50dd83cdf60b287ec8bd730341c5e4b7eddbab1e7403dcd62c028d1e98513990", isSha256_ofList rfl⟩ }
  isGovernedMetricKey key := .ok (key = "revenue")

/-- The identifier of the definition. -/
def discountId : DefinitionId := ⟨"def_0123456789abcdef0123456789abcdef", by decide⟩

/-- A definition is created, closed, confirmed and saved. -/
def discountCalls : List DefinitionCall :=
  [.createDraft discountId "2026-09-20T08:00:00+00:00" "alice" "Discounted revenue" discountedRevenue none,
    .markSemanticClosed "alice" discountId.val, .confirm "2026-09-20T08:05:00+00:00" "alice" discountId.val,
    .save "alice" discountId.val]

/-- Its owner confirms it once more. -/
def discountReconfirmed : List DefinitionCall := discountCalls ++ [.confirm "2026-09-20T09:00:00+00:00" "alice" discountId.val]

namespace DefinitionAux

/-- What a store says of the first version: when it was created, its lifecycle, the current version of the definition with the retention
of its axes, and the versions of the list of saved ones. -/
def discountView (s : DefinitionStore) : Option String × Option Nat × Option (Nat × RetentionAxis) × Option (List Nat) :=
  ((s.versions.get? (discountId.val, 1)).map (·.createdAt), (s.lifecycle.get? (discountId.val, 1)).map (·.rank),
    (s.definitions.get? discountId.val).map fun definition => (definition.currentVersion.version, definition.axes.retention),
    (s.listSavedVersions "alice" discountId.val).toOption.map fun versions => versions.map (·.version))

theorem discountView_saved :
    discountView (DefinitionStore.runCalls discountServer discountCalls) =
      (some "2026-09-20T08:05:00+00:00", some 2, some (1, .saved), some [1]) := by decide +kernel

theorem discountView_reconfirmed :
    discountView (DefinitionStore.runCalls discountServer discountReconfirmed) =
      (some "2026-09-20T09:00:00+00:00", some 1, some (1, .saved), some []) := by decide +kernel

/-- The calls up to the save are careful. -/
theorem carefulRun_discountCalls : CarefulRun discountServer discountCalls := by
  intro before call after heq
  have hopen : ((DefinitionStore.runCalls discountServer (discountCalls.take 2)).definitions.get? discountId.val).map
      (·.axes.confirmation) = some .draft := by decide +kernel
  match before, heq with
  | [], heq =>
    cases heq
    exact fun _ _ _ => by decide
  | [_], heq =>
    cases heq
    trivial
  | [_, _], heq =>
    cases heq
    intro d hd _
    have hd : ((DefinitionStore.runCalls discountServer (discountCalls.take 2)).definitions.get? discountId.val) = some d := hd
    rw [hd] at hopen
    exact Option.some.inj hopen
  | [_, _, _], heq =>
    cases heq
    trivial
  | _ :: _ :: _ :: _ :: rest, heq =>
    have hlength := congrArg List.length heq
    simp [discountCalls] at hlength

end DefinitionAux

/-- Confirming the saved version again overwrites it with a new time, takes its lifecycle back, leaves the axes saved and empties the
list of saved versions. -/
theorem definition_lifecycle_reconfirmed :
    (drawnIds discountReconfirmed).Nodup ∧
      ¬ (DefinitionStore.runCalls discountServer discountReconfirmed).Agrees ∧
        ¬ (DefinitionStore.runCalls discountServer discountCalls).Keeps
          (DefinitionStore.runCalls discountServer discountReconfirmed) := by
  have hsaved := DefinitionAux.discountView_saved
  have hagain := DefinitionAux.discountView_reconfirmed
  simp only [DefinitionAux.discountView, Prod.mk.injEq] at hsaved hagain
  refine ⟨by decide, fun hagrees => ?_, fun hkeeps => ?_⟩
  · obtain ⟨d, hd, heq⟩ := Option.map_eq_some_iff.mp hagain.2.2.1
    obtain ⟨hversion, hretention⟩ := Prod.mk.injEq _ _ _ _ ▸ heq
    obtain ⟨l, hl, -, hl'⟩ := hagrees discountId.val d hd
    have hrank := hagain.2.1
    rw [hversion] at hl
    rw [hl] at hrank
    have hrank : l.rank = 1 := Option.some.inj hrank
    unfold DefinitionVersionLifecycle.rank at hrank
    rw [hl', hretention] at hrank
    cases hc : l.confirmation <;> rw [hc] at hrank <;> cases hrank
  · obtain ⟨l, hl, hrank⟩ := Option.map_eq_some_iff.mp hsaved.2.1
    obtain ⟨l', hl', hle⟩ := hkeeps.forward _ l hl
    have hagain := hagain.2.1
    rw [hl'] at hagain
    have hrank' : l'.rank = 1 := Option.some.inj hagain
    omega

/-- The calls up to the save are careful: after them the axes agree with the recorded lifecycle. -/
theorem definition_lifecycle_saved :
    (DefinitionStore.runCalls discountServer discountCalls).Agrees :=
  ((definition_lifecycle discountServer discountCalls (by decide) DefinitionAux.carefulRun_discountCalls).1 discountCalls []
    (List.append_nil _).symm).1

end Nl2Sql
