import Nl2Sql.Semantic.Registry

/-!
# The law of the release registry

Every call moves the registry by a few moves: a new draft, a release that becomes validated, the pointer that passes from one release
to another. Each move keeps the invariant and keeps what a release is made of; what the calls do is read off once, as moves.
-/

namespace Nl2Sql

open Py

/-- A release as it was created: what no later call changes. -/
def RegistryRelease.drafted (r : RegistryRelease) : RegistryRelease := { r with state := .draft, validationReport := none }

namespace RegistryAux

open SemanticRegistry

/-! ## The invariant and the moves -/

/-- What a run has done so far: the identifiers it has drawn, and the drafts it has passed with their reports. -/
structure Past where
  Drawn : String → Prop
  Checked : String → RegistryRelease → ValidationReport → Prop

/-- The invariant of a registry after a past. -/
structure Inv (past : Past) (s : SemanticRegistry) : Prop where
  active_iff : ∀ id r, s.releases.get? id = some r → (r.state = .active ↔ s.activeReleaseId = some id)
  pointed : ∀ id, s.activeReleaseId = some id → ∃ r, s.releases.get? id = some r
  versions : s.releases.values.map (·.version) = List.range' 1 s.releases.entries.length
  drafts : ∀ id r, s.releases.get? id = some r → r.state = .draft → r.validationReport = none
  checked : ∀ id r, s.releases.get? id = some r → r.state ≠ .draft →
    ∃ report, r.validationReport = some report ∧ report.isOk = true ∧ past.Checked id r.drafted report
  drawn : ∀ id r, s.releases.get? id = some r → past.Drawn id

/-- The pointer passes to a candidate, and the release it named is retired. -/
def activated (s : SemanticRegistry) (id : String) (candidate : RegistryRelease) : SemanticRegistry :=
  let retired :=
    match s.activeReleaseId.bind fun old => (s.releases.get? old).map (Prod.mk old) with
    | none => s.releases
    | some (old, r) => s.releases.set old { r with state := .retired }
  ⟨retired.set id { candidate with state := .active }, some id⟩

/-- One move of a registry. -/
inductive Move (past : Past) (s : SemanticRegistry) : SemanticRegistry → Prop where
  | draft (id : String) (r : RegistryRelease) (drawn : past.Drawn id) (fresh : id ∉ s.releases.keys) (state : r.state = .draft)
      (report : r.validationReport = none) (version : r.version = s.releases.entries.length + 1) :
      Move past s { s with releases := s.releases.set id r }
  | validated (id : String) (r r' : RegistryRelease) (found : s.releases.get? id = some r) (drafted : r'.drafted = r.drafted)
      (inactive : r.state ≠ .active) (state : r'.state = .validated)
      (checked : ∃ report, r'.validationReport = some report ∧ report.isOk = true ∧ past.Checked id r'.drafted report) :
      Move past s { s with releases := s.releases.set id r' }
  | activated (id : String) (r : RegistryRelease) (found : s.releases.get? id = some r) (state : r.state = .validated) :
      Move past s (activated s id r)

variable {past past' : Past} {s s' : SemanticRegistry}

theorem version_of_drafted {r r' : RegistryRelease} (h : r'.drafted = r.drafted) : r'.version = r.version := congrArg (·.version) h

/-- The entries of a key that is set again are as many as before. -/
theorem length_set_of_get? {d : Dict String RegistryRelease} {id : String} {r r' : RegistryRelease} (h : d.get? id = some r) :
    (d.set id r').entries.length = d.entries.length := by
  have hkeys : (d.set id r').keys = d.keys := by
    rw [Dict.keys_set, if_pos (Dict.get?_isSome_iff.mp (by rw [h]; rfl))]
  have hlen := congrArg List.length hkeys
  simpa only [Dict.keys, List.length_map] using hlen

/-- Replacing a release by one created alike keeps the versions. -/
theorem versions_set {d : Dict String RegistryRelease} {id : String} {r r' : RegistryRelease} (hget : d.get? id = some r)
    (hdrafted : r'.drafted = r.drafted) (h : d.values.map (·.version) = List.range' 1 d.entries.length) :
    (d.set id r').values.map (·.version) = List.range' 1 (d.set id r').entries.length := by
  rw [Dict.map_values_set_of_get? (·.version) hget (version_of_drafted hdrafted), length_set_of_get? hget]
  exact h

/-- What is under a key after a set. -/
theorem get?_set_cases {d : Dict String RegistryRelease} {id id' : String} {r r' : RegistryRelease}
    (h : (d.set id r).get? id' = some r') : id' = id ∧ r' = r ∨ id' ≠ id ∧ d.get? id' = some r' := by
  by_cases hid : id' = id
  · subst hid
    rw [Dict.get?_set_self] at h
    exact .inl ⟨rfl, (Option.some.inj h).symm⟩
  · rw [Dict.get?_set_of_ne d r fun hne => hid hne.symm] at h
    exact .inr ⟨hid, h⟩

theorem inv_initial : Inv past SemanticRegistry.initial :=
  ⟨nofun, nofun, rfl, nofun, nofun, nofun⟩

/-- A new draft keeps the invariant. -/
theorem Inv.draft (h : Inv past s) {id : String} {r : RegistryRelease} (drawn : past.Drawn id) (fresh : id ∉ s.releases.keys) (state : r.state = .draft)
    (report : r.validationReport = none) (version : r.version = s.releases.entries.length + 1) :
    Inv past { s with releases := s.releases.set id r } := by
  have hentries := Dict.entries_set_of_not_mem s.releases r fresh
  have hpointer : s.activeReleaseId ≠ some id := by
    intro hp
    obtain ⟨r', hr'⟩ := h.pointed id hp
    exact fresh (Dict.get?_isSome_iff.mp (by rw [hr']; rfl))
  refine ⟨fun id' r' hget => ?_, fun id' hp => ?_, ?_, fun id' r' hget hs => ?_, fun id' r' hget hs => ?_, fun id' r' hget => ?_⟩
  · rcases get?_set_cases hget with ⟨rfl, rfl⟩ | ⟨-, hold⟩
    · rw [state]
      exact ⟨nofun, fun hp => absurd hp hpointer⟩
    · exact h.active_iff id' r' hold
  · obtain ⟨r', hr'⟩ := h.pointed id' hp
    refine ⟨r', ?_⟩
    change (s.releases.set id r).get? id' = some r'
    rw [Dict.get?_set_of_ne _ r fun hne => hpointer (by rw [hne]; exact hp)]
    exact hr'
  · change (s.releases.set id r).values.map _ = List.range' 1 (s.releases.set id r).entries.length
    rw [Dict.values, hentries, List.map_append, List.map_append, List.length_append]
    change s.releases.values.map _ ++ [r.version] = _
    rw [h.versions, version, List.length_singleton, List.range'_concat]
    simp [Nat.add_comm]
  · rcases get?_set_cases hget with ⟨rfl, rfl⟩ | ⟨-, hold⟩
    · exact report
    · exact h.drafts id' r' hold hs
  · rcases get?_set_cases hget with ⟨rfl, rfl⟩ | ⟨-, hold⟩
    · exact absurd state hs
    · exact h.checked id' r' hold hs
  · rcases get?_set_cases hget with ⟨rfl, rfl⟩ | ⟨-, hold⟩
    · exact drawn
    · exact h.drawn id' r' hold

/-- Replacing a release draws no identifier. -/
theorem drawn_set (h : Inv past s) {id : String} {r r' : RegistryRelease} (found : s.releases.get? id = some r) :
    ∀ id' x, (s.releases.set id r').get? id' = some x → past.Drawn id' := by
  intro id' x hget
  rcases get?_set_cases hget with ⟨rfl, rfl⟩ | ⟨-, hold⟩
  · exact h.drawn id' r found
  · exact h.drawn id' x hold

/-- A release that is not active and becomes validated keeps the invariant. -/
theorem Inv.validated (h : Inv past s) {id : String} {r r' : RegistryRelease} (found : s.releases.get? id = some r)
    (drafted : r'.drafted = r.drafted) (inactive : r.state ≠ .active) (state : r'.state = .validated)
    (checked : ∃ report, r'.validationReport = some report ∧ report.isOk = true ∧ past.Checked id r'.drafted report) :
    Inv past { s with releases := s.releases.set id r' } := by
  have hpointer : s.activeReleaseId ≠ some id := fun hp => inactive ((h.active_iff id r found).mpr hp)
  refine ⟨fun id' x hget => ?_, fun id' hp => ?_, versions_set found drafted h.versions, fun id' x hget hs => ?_,
    fun id' x hget hs => ?_, drawn_set h found⟩
  · rcases get?_set_cases hget with ⟨rfl, rfl⟩ | ⟨-, hold⟩
    · rw [state]
      exact ⟨nofun, fun hp => absurd hp hpointer⟩
    · exact h.active_iff id' x hold
  · obtain ⟨x, hx⟩ := h.pointed id' hp
    refine ⟨x, ?_⟩
    change (s.releases.set id r').get? id' = some x
    rw [Dict.get?_set_of_ne _ r' fun hne => hpointer (by rw [hne]; exact hp)]
    exact hx
  · rcases get?_set_cases hget with ⟨rfl, rfl⟩ | ⟨-, hold⟩
    · rw [state] at hs
      nomatch hs
    · exact h.drafts id' x hold hs
  · rcases get?_set_cases hget with ⟨rfl, rfl⟩ | ⟨-, hold⟩
    · exact checked
    · exact h.checked id' x hold hs

/-- The registry between the two writes of an activation: nothing is active, and no pointer is read. -/
theorem Inv.retired (h : Inv past s) {old : String} {r : RegistryRelease} (pointer : s.activeReleaseId = some old)
    (found : s.releases.get? old = some r) :
    Inv past ⟨s.releases.set old { r with state := .retired }, none⟩ := by
  refine ⟨fun id' x hget => ?_, nofun, versions_set found rfl h.versions, fun id' x hget hs => ?_, fun id' x hget hs => ?_,
    drawn_set h found⟩
  · rcases get?_set_cases hget with ⟨rfl, rfl⟩ | ⟨hne, hold⟩
    · exact ⟨nofun, nofun⟩
    · refine ⟨fun hactive => ?_, nofun⟩
      have hp := (h.active_iff id' x hold).mp hactive
      rw [pointer] at hp
      exact absurd (Option.some.inj hp).symm hne
  · rcases get?_set_cases hget with ⟨rfl, rfl⟩ | ⟨-, hold⟩
    · nomatch hs
    · exact h.drafts id' x hold hs
  · rcases get?_set_cases hget with ⟨rfl, rfl⟩ | ⟨-, hold⟩
    · have hactive := (h.active_iff id' r found).mpr pointer
      exact h.checked id' r found (by rw [hactive]; nofun)
    · exact h.checked id' x hold hs

/-- With no active release a validated one may become active. -/
theorem Inv.pointed_at (h : Inv past s) (pointer : s.activeReleaseId = none) {id : String} {r : RegistryRelease}
    (found : s.releases.get? id = some r) (state : r.state = .validated) :
    Inv past ⟨s.releases.set id { r with state := .active }, some id⟩ := by
  refine ⟨fun id' x hget => ?_, fun id' hp => ?_, versions_set found rfl h.versions, fun id' x hget hs => ?_, fun id' x hget hs => ?_,
    drawn_set h found⟩
  · rcases get?_set_cases hget with ⟨rfl, rfl⟩ | ⟨hne, hold⟩
    · exact ⟨fun _ => rfl, fun _ => rfl⟩
    · refine ⟨fun hactive => ?_, fun hp => absurd (Option.some.inj hp).symm hne⟩
      have hp := (h.active_iff id' x hold).mp hactive
      rw [pointer] at hp
      nomatch hp
  · cases hp
    exact ⟨_, Dict.get?_set_self _ _ _⟩
  · rcases get?_set_cases hget with ⟨rfl, rfl⟩ | ⟨-, hold⟩
    · nomatch hs
    · exact h.drafts id' x hold hs
  · rcases get?_set_cases hget with ⟨rfl, rfl⟩ | ⟨-, hold⟩
    · exact h.checked id' r found (by rw [state]; nofun)
    · exact h.checked id' x hold hs

theorem Inv.activated (h : Inv past s) {id : String} {r : RegistryRelease} (found : s.releases.get? id = some r)
    (state : r.state = .validated) : Inv past (activated s id r) := by
  unfold RegistryAux.activated
  cases hp : s.activeReleaseId with
  | none =>
    exact h.pointed_at hp found state
  | some old =>
    obtain ⟨oldRelease, hold⟩ := h.pointed old hp
    have hne : old ≠ id := by
      intro heq
      have hactive := (h.active_iff id r found).mpr (heq ▸ hp)
      rw [state] at hactive
      nomatch hactive
    simp only [Option.bind_some, hold, Option.map_some]
    refine Inv.pointed_at (h.retired hp hold) rfl ?_ state
    rw [Dict.get?_set_of_ne _ _ hne]
    exact found

/-- Every move keeps the invariant. -/
theorem Move.inv (hm : Move past s s') (h : Inv past s) : Inv past s' := by
  cases hm with
  | draft id r drawn fresh state report version => exact h.draft drawn fresh state report version
  | validated id r r' found drafted inactive state checked => exact h.validated found drafted inactive state checked
  | activated id r found state => exact h.activated found state

/-- Every release stays, as it was created. -/
def Kept (s s' : SemanticRegistry) : Prop :=
  ∀ id r, s.releases.get? id = some r → ∃ r', s'.releases.get? id = some r' ∧ r'.drafted = r.drafted

theorem kept_set {d : Dict String RegistryRelease} {id : String} {r : RegistryRelease} (found : d.get? id = some r)
    (r' : RegistryRelease) (drafted : r'.drafted = r.drafted) (pointer pointer' : Option String) : Kept ⟨d, pointer⟩ ⟨d.set id r', pointer'⟩ := by
  intro id' x hx
  by_cases hid : id = id'
  · subst hid
    rw [found] at hx
    cases hx
    exact ⟨r', Dict.get?_set_self _ _ _, drafted⟩
  · refine ⟨x, ?_, rfl⟩
    change (d.set id r').get? id' = some x
    rw [Dict.get?_set_of_ne _ r' hid]
    exact hx

theorem Kept.trans {a b c : SemanticRegistry} (hab : Kept a b) (hbc : Kept b c) : Kept a c := by
  intro id r hr
  obtain ⟨r', hr', heq⟩ := hab id r hr
  obtain ⟨r'', hr'', heq'⟩ := hbc id r' hr'
  exact ⟨r'', hr'', heq'.trans heq⟩

theorem Move.kept (hm : Move past s s') : Kept s s' := by
  cases hm with
  | draft id r drawn fresh state report version =>
    intro id' x hx
    refine ⟨x, ?_, rfl⟩
    change (s.releases.set id r).get? id' = some x
    rw [Dict.get?_set_of_ne _ r ?_]
    · exact hx
    · rintro rfl
      exact fresh (Dict.get?_isSome_iff.mp (by rw [hx]; rfl))
  | validated id r r' found drafted inactive state checked => exact kept_set found r' drafted _ _
  | activated id r found state =>
    unfold RegistryAux.activated
    cases hp : s.activeReleaseId.bind fun old => (s.releases.get? old).map (Prod.mk old) with
    | none => exact kept_set found { r with state := .active } rfl _ _
    | some pair =>
      obtain ⟨old, -, hmap⟩ := Option.bind_eq_some_iff.mp hp
      obtain ⟨oldRelease, hold, rfl⟩ := Option.map_eq_some_iff.mp hmap
      refine Kept.trans (kept_set hold { oldRelease with state := .retired } rfl _ none) ?_
      by_cases hne : old = id
      · subst hne
        have hsame : oldRelease = r := Option.some.inj (hold.symm.trans found)
        exact kept_set (Dict.get?_set_self _ _ _) { r with state := .active } (by rw [hsame]; rfl) _ _
      · refine kept_set (r := r) ?_ { r with state := .active } rfl _ _
        rw [Dict.get?_set_of_ne _ _ hne]
        exact found

/-- Moves, one after another. -/
abbrev Moves (past : Past) : SemanticRegistry → SemanticRegistry → Prop :=
  Relation.ReflTransGen (Move past)

theorem Moves.inv (hm : Moves past s s') (h : Inv past s) : Inv past s' := by
  induction hm with
  | refl => exact h
  | tail _ hmove ih => exact hmove.inv ih

theorem Moves.kept (hm : Moves past s s') : Kept s s' := by
  induction hm with
  | refl => exact fun id r hr => ⟨r, hr, rfl⟩
  | tail _ hmove ih => exact ih.trans hmove.kept

/-- The invariant after more has been done. -/
theorem Inv.mono (h : Inv past s) (hdrawn : ∀ id, past.Drawn id → past'.Drawn id)
    (hchecked : ∀ id r report, past.Checked id r report → past'.Checked id r report) : Inv past' s := by
  refine ⟨h.active_iff, h.pointed, h.versions, h.drafts, fun id r hget hs => ?_, fun id r hget => hdrawn id (h.drawn id r hget)⟩
  obtain ⟨report, hreport, hok, hpassed⟩ := h.checked id r hget hs
  exact ⟨report, hreport, hok, hchecked id _ report hpassed⟩

/-! ## What the methods do -/

/-- How a method that starts in `s` ends: it moves the registry, and where it raises the pointer and the active release stay. -/
def Ends (past : Past) (s : SemanticRegistry) {α : Type}
    (r : EStateM.Result RegistryError SemanticRegistry α) : Prop :=
  match r with
  | .ok _ s' => Moves past s s'
  | .error _ s' => Moves past s s' ∧ s'.activeReleaseId = s.activeReleaseId ∧ s'.activeRelease = s.activeRelease

/-- A method that raises before it writes. -/
theorem Ends.raised {α : Type} (e : RegistryError) : Ends past s (.error e s : EStateM.Result RegistryError SemanticRegistry α) :=
  ⟨.refl, rfl, rfl⟩

/-- A method after moves that leave the pointer and the active release as they were. -/
theorem Ends.after {α : Type} {r : EStateM.Result RegistryError SemanticRegistry α} (hm : Moves past s s')
    (hp : s'.activeReleaseId = s.activeReleaseId) (ha : s'.activeRelease = s.activeRelease) (h : Ends past s' r) :
    Ends past s r := by
  cases r with
  | ok a t => exact hm.trans h
  | error e t => exact ⟨hm.trans h.1, h.2.1.trans hp, h.2.2.trans ha⟩

/-- A write under another key than the pointer's leaves the active release. -/
theorem activeRelease_set {id : String} (r : RegistryRelease) (h : s.activeReleaseId ≠ some id) :
    ({ s with releases := s.releases.set id r } : SemanticRegistry).activeRelease = s.activeRelease := by
  unfold SemanticRegistry.activeRelease
  cases hp : s.activeReleaseId with
  | none => rfl
  | some old =>
    change (s.releases.set id r).get? old = s.releases.get? old
    exact Dict.get?_set_of_ne _ r fun hne => h (by rw [hp, hne])

theorem run_lookup (id : String) (s : SemanticRegistry) : (lookup id).run s =
    match s.releases.get? id with
    | some r => .ok r s
    | none => .error (.semanticRelease ("unknown semantic release: " ++ id)) s := by
  unfold lookup
  simp only [EStateM.run_bind, EStateM.run_get]
  cases s.releases.get? id <;> rfl

variable (checksum : List RegistryDocument → Sha256) (calls : List RegistryCall)

/-- A draft is refused, or stands under its identifier. -/
theorem run_createDraft (newId : String) (now : String) (documents : List RegistryDocument)
    (changeSummary : String) (s : SemanticRegistry) :
    (∃ e, (createDraft checksum newId now documents changeSummary).run s = .error e s) ∨
    ∃ r : RegistryRelease, (createDraft checksum newId now documents changeSummary).run s =
        .ok r { s with releases := s.releases.set newId r } ∧
      r.releaseId = newId ∧ r.state = .draft ∧ r.validationReport = none ∧ r.version = s.releases.entries.length + 1 := by
  unfold createDraft
  by_cases hempty : documents = []
  · exact .inl ⟨_, by simp only [hempty, if_true]; rfl⟩
  by_cases hblank : (documents.any fun document => isBlank document.content) = true
  · exact .inl ⟨_, by simp only [hempty, hblank, if_true, if_false]; rfl⟩
  · refine .inr ⟨⟨newId, s.releases.entries.length + 1, checksum documents, .draft, documents, none, strip changeSummary,
      s.activeReleaseId, now⟩, ?_, rfl, rfl, rfl, rfl⟩
    simp only [hempty, hblank, if_false]
    rfl

/-- A validation changes nothing, or a draft that its validator passed becomes validated. -/
theorem run_validate (id : String) (validator : ReleaseValidator) (s : SemanticRegistry) :
    (∃ e, (validate id validator).run s = .error e s) ∨
    ∃ r report, s.releases.get? id = some r ∧ r.state = .draft ∧ validator r = .ok report ∧ report.isOk = true ∧
      (validate id validator).run s = .ok { r with state := .validated, validationReport := some report }
        { s with releases := s.releases.set id { r with state := .validated, validationReport := some report } } := by
  unfold validate
  simp only [EStateM.run_bind, run_lookup]
  cases hget : s.releases.get? id with
  | none => exact .inl ⟨_, rfl⟩
  | some r =>
    by_cases hstate : r.state = .draft
    · cases hv : validator r with
      | error u => exact .inl ⟨.validator, by simp only [hstate, hv]; rfl⟩
      | ok report =>
        cases hok : report.isOk with
        | false => exact .inl ⟨.semanticRelease "semantic release validation failed", by simp only [hstate, hv, hok]; rfl⟩
        | true =>
          refine .inr ⟨r, report, rfl, hstate, hv, hok, ?_⟩
          simp only [hstate, hv, hok]
          rfl
    · exact .inl ⟨_, by simp only [ne_eq, hstate, not_false_eq_true, if_true]; rfl⟩

section

variable (h : Inv past s)
include h

/-- An activation changes nothing, or the pointer passes to a validated release. -/
theorem run_activate (id : String) :
    (∃ e, (activate id).run s = .error e s) ∨
    ∃ r, s.releases.get? id = some r ∧ r.state = .validated ∧
      (activate id).run s = .ok { r with state := .active } (activated s id r) := by
  unfold activate
  simp only [EStateM.run_bind, run_lookup]
  cases hget : s.releases.get? id with
  | none => exact .inl ⟨_, rfl⟩
  | some r =>
    by_cases hstate : r.state = .validated
    · refine .inr ⟨r, rfl, hstate, ?_⟩
      unfold retireActive activated
      cases hp : s.activeReleaseId with
      | none =>
        simp only [hstate, ne_eq, not_true_eq_false, if_false, EStateM.run_bind, EStateM.run_get, hp]
        rfl
      | some old =>
        obtain ⟨oldRelease, hold⟩ := h.pointed old hp
        simp only [hstate, ne_eq, not_true_eq_false, if_false, EStateM.run_bind, EStateM.run_get, hp, hold, Option.bind_some,
          Option.map_some]
        rfl
    · exact .inl ⟨_, by simp only [ne_eq, hstate, not_false_eq_true, if_true]; rfl⟩

/-- An activation moves the registry. -/
theorem ends_activate (id : String) : Ends past s ((activate id).run s) := by
  rcases run_activate h id with ⟨e, hrun⟩ | ⟨r, found, state, hrun⟩
  · rw [hrun]
    exact .raised e
  · rw [hrun]
    exact .single (.activated id r found state)

/-- The pointer names no release that is not active. -/
theorem Inv.pointer_ne {id : String} {r : RegistryRelease} (found : s.releases.get? id = some r)
    (inactive : r.state ≠ .active) : s.activeReleaseId ≠ some id :=
  fun hp => inactive ((h.active_iff id r found).mpr hp)

/-- The pointer names no identifier that is not yet there. -/
theorem Inv.pointer_ne_of_fresh {id : String} (fresh : id ∉ s.releases.keys) : s.activeReleaseId ≠ some id := by
  intro hp
  obtain ⟨r, hr⟩ := h.pointed id hp
  exact fresh (Dict.get?_isSome_iff.mp (by rw [hr]; rfl))

/-- A draft of the registry is what it was when it was created. -/
theorem Inv.drafted_eq {id : String} {r : RegistryRelease} (found : s.releases.get? id = some r) (state : r.state = .draft) :
    r.drafted = r := by
  have hreport := h.drafts id r found state
  cases r
  cases state
  cases hreport
  rfl

/-- A validation moves the registry, and leaves the pointer and the active release. -/
theorem ends_validate (id : String) (validator : ReleaseValidator)
    (hchecked : ∀ r report, s.releases.get? id = some r → r.state = .draft → validator r = .ok report → past.Checked id r report) :
    (∃ e, (validate id validator).run s = .error e s) ∨
    ∃ r s', (validate id validator).run s = .ok r s' ∧ Move past s s' ∧ s'.activeReleaseId = s.activeReleaseId ∧
      s'.activeRelease = s.activeRelease := by
  rcases run_validate id validator s with herr | ⟨r, report, found, state, hvalid, hok, hrun⟩
  · exact .inl herr
  · have inactive : r.state ≠ .active := by rw [state]; nofun
    have hpassed : past.Checked id r.drafted report := by
      rw [h.drafted_eq found state]
      exact hchecked r report found state hvalid
    exact .inr ⟨_, _, hrun, .validated id r _ found rfl inactive rfl ⟨report, rfl, hok, hpassed⟩, rfl,
      activeRelease_set _ (h.pointer_ne found inactive)⟩

/-- A rollback moves the registry. -/
theorem ends_rollback (id : String) : Ends past s ((rollback id).run s) := by
  unfold rollback
  simp only [EStateM.run_bind, run_lookup]
  cases found : s.releases.get? id with
  | none => exact .raised _
  | some target =>
    by_cases hstate : target.state = .retired
    · have inactive : target.state ≠ .active := by rw [hstate]; rintro ⟨⟩
      obtain ⟨report, hreport, hok, hpassed⟩ := h.checked id target found (by rw [hstate]; rintro ⟨⟩)
      have hmove : Move past s { s with releases := s.releases.set id { target with state := .validated } } :=
        .validated id target _ found rfl inactive rfl ⟨report, hreport, hok, hpassed⟩
      have hact := activeRelease_set { target with state := .validated } (h.pointer_ne found inactive)
      simp only [hstate, ne_eq, not_true_eq_false, if_false]
      exact Ends.after (.single hmove) rfl hact (ends_activate (hmove.inv h) id)
    · simp only [ne_eq, hstate, not_false_eq_true, if_true]
      exact .raised _

/-- A new draft moves the registry, and leaves the pointer and the active release. -/
theorem ends_createDraft (checksum : List RegistryDocument → Sha256) (newId : String) (now : String)
    (documents : List RegistryDocument) (changeSummary : String) (drawn : past.Drawn newId) (fresh : newId ∉ s.releases.keys) :
    (∃ e, (createDraft checksum newId now documents changeSummary).run s = .error e s) ∨
    ∃ r s', (createDraft checksum newId now documents changeSummary).run s = .ok r s' ∧ r.releaseId = newId ∧
      s'.releases.get? newId = some r ∧ Move past s s' ∧ s'.activeReleaseId = s.activeReleaseId ∧ s'.activeRelease = s.activeRelease := by
  rcases run_createDraft checksum newId now documents changeSummary s with herr | ⟨r, hrun, hid, hstate, hreport, hversion⟩
  · exact .inl herr
  · exact .inr ⟨r, _, hrun, hid, Dict.get?_set_self _ _ _, .draft newId r drawn fresh hstate hreport hversion, rfl,
      activeRelease_set _ (h.pointer_ne_of_fresh fresh)⟩

/-- A publication moves the registry. -/
theorem ends_publish (checksum : List RegistryDocument → Sha256) (newId : String) (now : String)
    (documents : List RegistryDocument) (changeSummary : String) (validator : ReleaseValidator) (drawn : past.Drawn newId)
    (fresh : newId ∉ s.releases.keys) (hchecked : ∀ r report, validator r = .ok report → past.Checked newId r report) :
    Ends past s ((publish checksum newId now documents changeSummary validator).run s) := by
  unfold publish
  rcases ends_createDraft h checksum newId now documents changeSummary drawn fresh with
    ⟨e, hrun⟩ | ⟨draft, s₁, hrun, hid, -, hmove₁, hp₁, ha₁⟩
  · simp only [EStateM.run_bind, hrun]
    exact .raised e
  · have h₁ := hmove₁.inv h
    simp only [EStateM.run_bind, hrun, hid]
    refine Ends.after (.single hmove₁) hp₁ ha₁ ?_
    rcases ends_validate h₁ newId validator fun r report _ _ => hchecked r report with ⟨e, hrun₂⟩ | ⟨r, s₂, hrun₂, hmove₂, hp₂, ha₂⟩
    · rw [hrun₂]
      exact .raised e
    · rw [hrun₂]
      exact Ends.after (.single hmove₂) hp₂ ha₂ (ends_activate (hmove₂.inv h₁) newId)

/-- A call moves the registry. -/
theorem ends_exec (checksum : List RegistryDocument → Sha256) (call : RegistryCall)
    (hdrawn : ∀ id, call.newId? = some id → past.Drawn id ∧ id ∉ s.releases.keys)
    (hchecked : ∀ validator, call.validator? = some validator → ∀ id r report,
      (∀ r₀, s.releases.get? id = some r₀ → r₀.state = .draft) → validator r = .ok report → past.Checked id r report) :
    Ends past s ((call.exec checksum).run s) := by
  cases call with
  | createDraft newId now documents changeSummary =>
    obtain ⟨drawn, fresh⟩ := hdrawn newId rfl
    rcases ends_createDraft h checksum newId now documents changeSummary drawn fresh with ⟨e, hrun⟩ | ⟨r, s₁, hrun, -, -, hmove, -⟩
    · change Ends past s ((createDraft checksum newId now documents changeSummary).run s)
      rw [hrun]
      exact .raised e
    · change Ends past s ((createDraft checksum newId now documents changeSummary).run s)
      rw [hrun]
      exact .single hmove
  | validate id validator =>
    change Ends past s ((validate id validator).run s)
    have hdraft : ∀ r report, s.releases.get? id = some r → r.state = .draft → validator r = .ok report → past.Checked id r report := by
      intro r report hget hstate hvalid
      refine hchecked validator rfl id r report (fun r₀ hr₀ => ?_) hvalid
      rw [Option.some.inj (hr₀.symm.trans hget)]
      exact hstate
    rcases ends_validate h id validator hdraft with ⟨e, hrun⟩ | ⟨r, s₁, hrun, hmove, -⟩
    · rw [hrun]
      exact .raised e
    · rw [hrun]
      exact .single hmove
  | activate id => exact ends_activate h id
  | rollback id => exact ends_rollback h id
  | publish newId now documents changeSummary validator =>
    obtain ⟨drawn, fresh⟩ := hdrawn newId rfl
    refine ends_publish h checksum newId now documents changeSummary validator drawn fresh fun r report hvalid => ?_
    refine hchecked validator rfl newId r report (fun r₀ hr₀ => ?_) hvalid
    exact absurd (Dict.get?_isSome_iff.mp (by rw [hr₀]; rfl)) fresh

end

/-! ## Runs -/

/-- What a list of calls has done: a draft is passed by a call whose validator returned a report, in a registry where it was a draft or
not yet there. -/
def pastOf : Past where
  Drawn id := id ∈ calls.filterMap RegistryCall.newId?
  Checked id r report := ∃ before call later validator, calls = before ++ call :: later ∧ call.validator? = some validator ∧
    validator r = .ok report ∧ ∀ r₀, (runCalls checksum before).releases.get? id = some r₀ → r₀.state = .draft

/-- One more call ends as a call of the registry the run has made. -/
theorem ends_runCalls (call : RegistryCall) (h : Inv (pastOf checksum calls) (runCalls checksum calls))
    (hfresh : ((calls ++ [call]).filterMap RegistryCall.newId?).Nodup) :
    Inv (pastOf checksum (calls ++ [call])) (runCalls checksum calls) ∧
    Ends (pastOf checksum (calls ++ [call])) (runCalls checksum calls) ((call.exec checksum).run (runCalls checksum calls)) := by
  have hinv : Inv (pastOf checksum (calls ++ [call])) (runCalls checksum calls) := by
    refine h.mono (fun id hid => ?_) fun id r report hchecked => ?_
    · change id ∈ (calls ++ [call]).filterMap RegistryCall.newId?
      rw [List.filterMap_append]
      exact List.mem_append_left _ hid
    · obtain ⟨before, c, later, validator, rfl, hv, hr, hdraft⟩ := hchecked
      exact ⟨before, c, later ++ [call], validator, by simp, hv, hr, hdraft⟩
  refine ⟨hinv, ends_exec hinv checksum call (fun id hid => ?_) fun validator hv id r report hdraft hr => ?_⟩
  · rw [List.filterMap_append] at hfresh
    have hsingle : List.filterMap RegistryCall.newId? [call] = [id] := by rw [List.filterMap_cons, hid]; rfl
    rw [hsingle] at hfresh
    refine ⟨?_, fun hkey => ?_⟩
    · change id ∈ (calls ++ [call]).filterMap RegistryCall.newId?
      rw [List.filterMap_append, hsingle]
      exact List.mem_append_right _ (List.mem_singleton_self id)
    · obtain ⟨r, hr⟩ := Option.isSome_iff_exists.mp (Dict.get?_isSome_iff.mpr hkey)
      exact (List.nodup_append.mp hfresh).2.2 id (h.drawn id r hr) id (List.mem_singleton_self id) rfl
  · exact ⟨calls, call, [], validator, rfl, hv, hr, hdraft⟩

theorem runCalls_append_singleton (call : RegistryCall) :
    runCalls checksum (calls ++ [call]) = (runCalls checksum calls).after checksum call := by
  unfold SemanticRegistry.runCalls
  rw [List.foldl_append]
  rfl

/-- The registry after a call is where the call ended. -/
theorem Ends.moves_after {checksum : List RegistryDocument → Sha256} {call : RegistryCall}
    (h : Ends past s ((call.exec checksum).run s)) : Moves past s (s.after checksum call) := by
  unfold SemanticRegistry.after
  cases hrun : (call.exec checksum).run s with
  | ok r s' =>
    rw [hrun] at h
    exact h
  | error e s' =>
    rw [hrun] at h
    exact h.1

/-- Identifiers drawn once are drawn once in the beginning of the run. -/
theorem nodup_before {before later : List RegistryCall} (h : ((before ++ later).filterMap RegistryCall.newId?).Nodup) :
    (before.filterMap RegistryCall.newId?).Nodup := by
  rw [List.filterMap_append] at h
  exact (List.nodup_append.mp h).1

/-- The invariant holds after every run. -/
theorem inv_runCalls :
    (calls.filterMap RegistryCall.newId?).Nodup → Inv (pastOf checksum calls) (runCalls checksum calls) := by
  induction calls using List.reverseRecOn with
  | nil => exact fun _ => inv_initial
  | append_singleton calls call ih =>
    intro hfresh
    obtain ⟨hinv, hends⟩ := ends_runCalls checksum calls call (ih (nodup_before hfresh)) hfresh
    rw [runCalls_append_singleton]
    exact hends.moves_after.inv hinv

/-- What a run created stays through the rest of it. -/
theorem kept_runCalls (before later : List RegistryCall) :
    ((before ++ later).filterMap RegistryCall.newId?).Nodup → Kept (runCalls checksum before) (runCalls checksum (before ++ later)) := by
  induction later using List.reverseRecOn with
  | nil =>
    intro _
    rw [List.append_nil]
    exact fun id r hr => ⟨r, hr, rfl⟩
  | append_singleton later call ih =>
    rw [← List.append_assoc]
    intro hfresh
    have hfresh' := nodup_before hfresh
    obtain ⟨-, hends⟩ := ends_runCalls checksum (before ++ later) call (inv_runCalls checksum _ hfresh') hfresh
    rw [runCalls_append_singleton]
    exact (ih hfresh').trans hends.moves_after.kept

end RegistryAux

open RegistryAux

/-- Over any run of calls on a registry, those that raise included, whose drafts draw different identifiers: the pointer is none exactly
when no release is active, and otherwise names the one active release; versions are unique, and what a release is made of stays; an
active release was passed, as the draft it was, by a validator of an earlier call or of the same one; and a call that raises leaves the
pointer and the active release. -/
theorem registry_law (checksum : List RegistryDocument → Sha256) (calls : List RegistryCall)
    (hfresh : (calls.filterMap RegistryCall.newId?).Nodup) :
    ((SemanticRegistry.runCalls checksum calls).activeReleaseId = none ↔
      ∀ r ∈ (SemanticRegistry.runCalls checksum calls).releases.values, r.state ≠ .active) ∧
    (∀ id, (SemanticRegistry.runCalls checksum calls).activeReleaseId = some id →
      ∃ r, (SemanticRegistry.runCalls checksum calls).releases.get? id = some r ∧ r.state = .active ∧
        ∀ id' r', (SemanticRegistry.runCalls checksum calls).releases.get? id' = some r' → r'.state = .active → id' = id) ∧
    ((SemanticRegistry.runCalls checksum calls).releases.values.map (·.version)).Nodup ∧
    (∀ before later, calls = before ++ later → ∀ id r, (SemanticRegistry.runCalls checksum before).releases.get? id = some r →
      ∃ r', (SemanticRegistry.runCalls checksum calls).releases.get? id = some r' ∧ r'.documents = r.documents ∧
        r'.checksum = r.checksum ∧ r'.version = r.version) ∧
    (∀ id r, (SemanticRegistry.runCalls checksum calls).releases.get? id = some r → r.state = .active →
      ∃ before call later validator report, calls = before ++ call :: later ∧ call.validator? = some validator ∧
        validator r.drafted = .ok report ∧ report.isOk = true ∧ r.validationReport = some report ∧
        ∀ r₀, (SemanticRegistry.runCalls checksum before).releases.get? id = some r₀ → r₀.state = .draft) ∧
    ∀ before call later, calls = before ++ call :: later → call.Raises checksum (SemanticRegistry.runCalls checksum before) →
      ((SemanticRegistry.runCalls checksum before).after checksum call).activeReleaseId =
        (SemanticRegistry.runCalls checksum before).activeReleaseId ∧
      ((SemanticRegistry.runCalls checksum before).after checksum call).activeRelease =
        (SemanticRegistry.runCalls checksum before).activeRelease := by
  have hinv := inv_runCalls checksum calls hfresh
  refine ⟨?_, fun id hp => ?_, ?_, ?_, fun id r hget hactive => ?_, ?_⟩
  · constructor
    · intro hnone r hr hactive
      obtain ⟨id, hget⟩ := Dict.mem_values_iff.mp hr
      rw [(hinv.active_iff id r hget).mp hactive] at hnone
      nomatch hnone
    · intro hall
      cases hp : (SemanticRegistry.runCalls checksum calls).activeReleaseId with
      | none => rfl
      | some id =>
        obtain ⟨r, hget⟩ := hinv.pointed id hp
        exact absurd ((hinv.active_iff id r hget).mpr hp) (hall r (Dict.mem_values_iff.mpr ⟨id, hget⟩))
  · obtain ⟨r, hget⟩ := hinv.pointed id hp
    refine ⟨r, hget, (hinv.active_iff id r hget).mpr hp, fun id' r' hget' hactive' => ?_⟩
    have hp' := (hinv.active_iff id' r' hget').mp hactive'
    exact Option.some.inj (hp'.symm.trans hp)
  · rw [hinv.versions]
    exact List.nodup_range'
  · rintro before later rfl id r hget
    obtain ⟨r', hget', hdrafted⟩ := kept_runCalls checksum before later hfresh id r hget
    exact ⟨r', hget', congrArg (·.documents) hdrafted, congrArg (·.checksum) hdrafted, congrArg (·.version) hdrafted⟩
  · obtain ⟨report, hreport, hok, before, call, later, validator, hsplit, hv, hr, hdraft⟩ :=
      hinv.checked id r hget (by rw [hactive]; nofun)
    exact ⟨before, call, later, validator, report, hsplit, hv, hr, hok, hreport, hdraft⟩
  · rintro before call later rfl ⟨e, s', hrun⟩
    have hfresh' : ((before ++ [call]).filterMap RegistryCall.newId?).Nodup := by
      rw [List.append_cons] at hfresh
      exact nodup_before hfresh
    obtain ⟨-, hends⟩ := ends_runCalls checksum before call (inv_runCalls checksum before (nodup_before hfresh')) hfresh'
    unfold SemanticRegistry.after
    rw [hrun] at hends ⊢
    exact hends.2

/-! ## A run with a rollback and a failed publication -/

/-- The documents of a release. -/
def glossary (content : String) : List RegistryDocument := [⟨⟨"glossary", Dict.empty⟩, content, none⟩]

/-- The three identifiers the run draws. -/
def firstRelease : String := "aaaaaaaa-aaaa-4aaa-8aaa-aaaaaaaaaaaa"

def secondRelease : String := "bbbbbbbb-bbbb-4bbb-8bbb-bbbbbbbbbbbb"

def thirdRelease : String := "cccccccc-cccc-4ccc-8ccc-cccccccccccc"

/-- A validator that reports one verdict. -/
def reporting (ok : Bool) : ReleaseValidator := fun _ => .ok [("ok", .bool ok)]

/-- Two releases are published, the first is rolled back to, and a third fails its validation. -/
def rollbackRun : List RegistryCall :=
  [.publish firstRelease "2024-01-01T00:00:00+00:00" (glossary "revenue is net") "first" (reporting true),
    .publish secondRelease "2024-01-02T00:00:00+00:00" (glossary "revenue is gross") "second" (reporting true),
    .rollback firstRelease,
    .publish thirdRelease "2024-01-03T00:00:00+00:00" (glossary "revenue is booked") "third" (reporting false)]

/-- A digest that stands for the checksum of the documents. -/
def glossaryChecksum : Sha256 := ⟨"504e9d2f4a81dff3021f5c4889fa29be53f3c0e0ff801508607cfebcb88f6a3d", Eq.refl true⟩

theorem registry_law_rollback :
    ∃ r, (SemanticRegistry.runCalls (fun _ => glossaryChecksum) rollbackRun).releases.get? firstRelease = some r ∧ r.state = .active ∧
      ∀ id' r', (SemanticRegistry.runCalls (fun _ => glossaryChecksum) rollbackRun).releases.get? id' = some r' → r'.state = .active →
        id' = firstRelease :=
  (registry_law (fun _ => glossaryChecksum) rollbackRun (by decide)).2.1 firstRelease (by decide +kernel)

end Nl2Sql
