import Mathlib.Data.List.Permutation
import Nl2Sql.Artifact.Library

namespace Nl2Sql

open Py

/-! ## Concurrent library calls and serial ones -/

/-- The condition under which a statement of a durable call decides as the in-memory call would: what the statements before it have read
still holds, and the user is not blank. -/
def SteadyStatement (call : LibraryCall) (stage : LibraryStage) (seen : List LibraryState) (s : LibraryState) : Prop :=
  match call, stage with
  | .install userId identityId version, .admitted => (identityId, version) ∉ s.withdrawn ∧ isBlankUser userId = false
  | .upgrade userId identityId toVersion, .heldFound _ =>
    (identityId, toVersion) ∈ s.withdrawn →
      s.installs (userId, identityId) ≠ none ∨ ∃ t, seen.head? = some t ∧ (identityId, toVersion) ∈ t.withdrawn
  | .upgrade userId identityId toVersion, .found =>
    (identityId, toVersion) ∈ s.withdrawn → s.installs (userId, identityId) ≠ none
  | .upgrade userId identityId toVersion, .admitted =>
    (identityId, toVersion) ∉ s.withdrawn ∧ ∃ binding, s.installs (userId, identityId) = some binding ∧ binding.version < toVersion
  | .star userId _, .listed => isBlankUser userId = false
  | .star userId identityId, .counting =>
    ∀ t, seen.getLast? = some t → s.starCount identityId = (t.withStar userId identityId).starCount identityId
  | .unstar userId identityId, .counting =>
    ∀ t, seen.getLast? = some t → s.starCount identityId = (t.withoutStar userId identityId).starCount identityId
  | .acknowledgeWithdrawal userId identityId version, .missed =>
    (s.installs (userId, identityId)).map (·.version) = some version →
      ∃ t, seen.head? = some t ∧ t.installs (userId, identityId) ≠ none
  | _, _ => True

namespace LibraryRun

variable (published : Finset (String × Int)) (calls : List LibraryCall)

/-- The next statement of a call is steady. -/
def Steady (run : LibraryRun) (i : Nat) : Prop :=
  ∀ call, calls[i]? = some call → SteadyStatement call (run.stage i) (run.seen i) run.state

/-- Every statement of a schedule is steady. -/
def SteadySteps : LibraryRun → List Nat → Prop
  | _, [] => True
  | run, i :: rest => run.Steady calls i ∧ SteadySteps (run.step published calls i) rest

end LibraryRun

namespace LibraryAux

/-- The answer of a call that is bound to give it: what it has answered, or the count its write has left. -/
def answerAt (published : Finset (String × Int)) (call : LibraryCall) (stage : LibraryStage) (seen : List LibraryState) :
    Option LibraryResult :=
  match stage with
  | .finished result => some result
  | .counting => seen.getLast?.map fun t => (inMemoryLibrary published t call).2
  | _ => none

/-- What the stage of a call says about the versions and about the states it has seen. -/
def Coherent (published : Finset (String × Int)) (call : LibraryCall) (stage : LibraryStage) (seen : List LibraryState) : Prop :=
  match call, stage with
  | _, .start => seen = []
  | _, .finished _ => True
  | .install _ identityId version, .found | .install _ identityId version, .admitted => (identityId, version) ∈ published
  | .upgrade userId identityId _, .held binding => ∃ t, seen.head? = some t ∧ t.installs (userId, identityId) = some binding
  | .upgrade userId identityId toVersion, .heldFound binding =>
    (identityId, toVersion) ∈ published ∧ ∃ t, seen.head? = some t ∧ t.installs (userId, identityId) = some binding
  | .upgrade _ identityId toVersion, .installing | .upgrade _ identityId toVersion, .found
  | .upgrade _ identityId toVersion, .admitted => (identityId, toVersion) ∈ published
  | .star _ identityId, .listed => ¬ ∀ p ∈ published, p.1 ≠ identityId
  | .star _ identityId, .counting => (¬ ∀ p ∈ published, p.1 ≠ identityId) ∧ seen ≠ []
  | .unstar _ _, .counting => seen ≠ []
  | .acknowledgeWithdrawal userId identityId version, .missed =>
    ∃ t, seen.head? = some t ∧ (t.installs (userId, identityId)).map (·.version) ≠ some version
  | .withdraw identityId version, .located => (identityId, version) ∈ published
  | _, _ => False

/-- What a statement does to the explanation: the call is not answered yet, is answered as in a state it has seen, or takes effect. -/
inductive Outcome (published : Finset (String × Int)) (call : LibraryCall) (seen : List LibraryState) (s : LibraryState) :
    Option LibraryResult → Option LibraryResult → LibraryState → Prop
  | same (answer : Option LibraryResult) : Outcome published call seen s answer answer s
  | quiet {t : LibraryState} {r : LibraryResult} (ht : t ∈ seen) (hquiet : inMemoryLibrary published t call = (t, r)) :
      Outcome published call seen s none (some r) s
  | effect {s' : LibraryState} {r : LibraryResult} (happly : inMemoryLibrary published s call = (s', r)) :
      Outcome published call seen s none (some r) s'

/-- A statement keeps the stage coherent and the explanation going. -/
structure Goes (published : Finset (String × Int)) (call : LibraryCall) (stage : LibraryStage) (seen : List LibraryState)
    (s : LibraryState) : Prop where
  coherent : Coherent published call (libraryStatement published call stage s).1 (seen ++ [s])
  outcome : Outcome published call (seen ++ [s]) s (answerAt published call stage seen)
    (answerAt published call (libraryStatement published call stage s).1 (seen ++ [s])) (libraryStatement published call stage s).2

/-- The users of the installs passed the check of their table. -/
def Checked (s : LibraryState) : Prop := ∀ userId identityId, s.installs (userId, identityId) ≠ none → isBlankUser userId = false

section Statements

variable {published : Finset (String × Int)} {seen : List LibraryState} {s : LibraryState} {userId identityId : String} {version : Int}

/-- The first state a call has seen stays the first. -/
theorem head?_append_of {t : LibraryState} (ht : seen.head? = some t) (s : LibraryState) : (seen ++ [s]).head? = some t := by
  rw [List.head?_append, ht]
  rfl

theorem mem_of_head? {t : LibraryState} (ht : seen.head? = some t) (s : LibraryState) : t ∈ seen ++ [s] :=
  List.mem_append_left _ (List.mem_of_head? ht)

theorem installInMemory_of_not_published (h : (identityId, version) ∉ published) :
    installInMemory published s userId identityId version = (s, libraryVersionNotFound) := if_pos h

theorem installInMemory_of_withdrawn (h : (identityId, version) ∈ published) (hw : (identityId, version) ∈ s.withdrawn) :
    installInMemory published s userId identityId version = (s, publicationWithdrawn) := by
  rw [installInMemory, if_neg (not_not_intro h), if_pos hw]

theorem installInMemory_of_admitted (h : (identityId, version) ∈ published) (hw : (identityId, version) ∉ s.withdrawn) :
    installInMemory published s userId identityId version =
      (s.withInstall userId identityId version, .bound { identityId, version }) := by
  rw [installInMemory, if_neg (not_not_intro h), if_neg hw]

/-- A write of an install that passes the check. -/
theorem upsertInstall_of_user (h : isBlankUser userId = false) :
    upsertInstall s userId identityId version =
      (.finished (.bound { identityId, version }), s.withInstall userId identityId version) := by
  rw [upsertInstall, h]
  rfl

/-- A statement goes on when its next stage and state do. -/
theorem Goes.of {call : LibraryCall} {stage : LibraryStage} (stage' : LibraryStage) (s' : LibraryState)
    (hnext : libraryStatement published call stage s = (stage', s')) (hcoh : Coherent published call stage' (seen ++ [s]))
    (houtcome : Outcome published call (seen ++ [s]) s (answerAt published call stage seen)
      (answerAt published call stage' (seen ++ [s])) s') :
    Goes published call stage seen s := by
  refine ⟨?_, ?_⟩
  · rw [hnext]
    exact hcoh
  · rw [hnext]
    exact houtcome

theorem upgradeInMemory_of_none (h : s.installs (userId, identityId) = none) :
    upgradeInMemory published s userId identityId version = (s, libraryInstallRequired) := by
  simp only [upgradeInMemory, h]

theorem upgradeInMemory_of_not_published {binding : InstalledMetricBinding} (h : s.installs (userId, identityId) = some binding)
    (hp : (identityId, version) ∉ published) :
    upgradeInMemory published s userId identityId version = (s, libraryVersionNotFound) := by
  simp only [upgradeInMemory, h, if_pos hp]

theorem upgradeInMemory_of_withdrawn (h : s.installs (userId, identityId) ≠ none) (hp : (identityId, version) ∈ published)
    (hw : (identityId, version) ∈ s.withdrawn) :
    upgradeInMemory published s userId identityId version = (s, publicationWithdrawn) := by
  obtain ⟨binding, hbinding⟩ := Option.ne_none_iff_exists'.mp h
  simp only [upgradeInMemory, hbinding, if_neg (not_not_intro hp), if_pos hw]

theorem upgradeInMemory_of_not_newer {binding : InstalledMetricBinding} (h : s.installs (userId, identityId) = some binding)
    (hp : (identityId, version) ∈ published) (hw : (identityId, version) ∉ s.withdrawn) (hv : version ≤ binding.version) :
    upgradeInMemory published s userId identityId version = (s, upgradeRequiresNewerVersion) := by
  simp only [upgradeInMemory, h, if_neg (not_not_intro hp), if_neg hw, if_pos hv]

theorem upgradeInMemory_of_newer {binding : InstalledMetricBinding} (h : s.installs (userId, identityId) = some binding)
    (hp : (identityId, version) ∈ published) (hw : (identityId, version) ∉ s.withdrawn) (hv : binding.version < version) :
    upgradeInMemory published s userId identityId version =
      (s.withInstall userId identityId version, .bound { identityId, version }) := by
  simp only [upgradeInMemory, h, if_neg (not_not_intro hp), if_neg hw, if_neg (not_le.mpr hv)]
  exact installInMemory_of_admitted hp hw

/-- The answer a count is bound to give is the one that the last state seen leaves. -/
theorem answerAt_counting {call : LibraryCall} {t : LibraryState} (ht : seen.getLast? = some t) :
    answerAt published call .counting seen = some (inMemoryLibrary published t call).2 := by
  simp only [answerAt, ht, Option.map_some]

theorem starInMemory_of_listed (h : ¬ ∀ p ∈ published, p.1 ≠ identityId) :
    starInMemory published s userId identityId =
      (s.withStar userId identityId, .count ((s.withStar userId identityId).starCount identityId)) := if_neg h

theorem acknowledgeInMemory_of_none (h : s.installs (userId, identityId) = none) :
    acknowledgeInMemory s userId identityId version = (s, libraryInstallRequired) := by
  simp only [acknowledgeInMemory, h]

theorem acknowledgeInMemory_of_other (h : s.installs (userId, identityId) ≠ none)
    (hv : (s.installs (userId, identityId)).map (·.version) ≠ some version) :
    acknowledgeInMemory s userId identityId version = (s, acknowledgementVersionMismatch) := by
  obtain ⟨binding, hbinding⟩ := Option.ne_none_iff_exists'.mp h
  rw [hbinding, Option.map_some, Ne, Option.some.injEq] at hv
  simp only [acknowledgeInMemory, hbinding, if_pos hv]

theorem acknowledgeInMemory_of_version (hv : (s.installs (userId, identityId)).map (·.version) = some version) :
    acknowledgeInMemory s userId identityId version = (s.withAcknowledged userId identityId version, .done) := by
  obtain ⟨binding, hbinding, rfl⟩ := Option.map_eq_some_iff.mp hv
  simp only [acknowledgeInMemory, hbinding, ne_eq, not_true_eq_false, if_false]

section

variable (stage : LibraryStage)
include stage

theorem install_goes (hnot : ∀ r, stage ≠ .finished r) (hcoh : Coherent published (.install userId identityId version) stage seen)
    (hsteady : SteadyStatement (.install userId identityId version) stage seen s) :
    Goes published (.install userId identityId version) stage seen s := by
  cases stage with
  | start =>
    by_cases h : (identityId, version) ∈ published
    · exact .of .found s (by simp only [libraryStatement, getStatement, if_pos h]) h (.same _)
    · exact .of (.finished libraryVersionNotFound) s (by simp only [libraryStatement, getStatement, if_neg h]) trivial
        (.effect (installInMemory_of_not_published h))
  | found =>
    by_cases h : (identityId, version) ∈ s.withdrawn
    · exact .of (.finished publicationWithdrawn) s (by simp only [libraryStatement, installStatement, if_pos h]) trivial
        (.effect (installInMemory_of_withdrawn hcoh h))
    · exact .of .admitted s (by simp only [libraryStatement, installStatement, if_neg h]) hcoh (.same _)
  | admitted =>
    obtain ⟨hw, huser⟩ := hsteady
    exact .of _ _ (upsertInstall_of_user huser) trivial (.effect (installInMemory_of_admitted hcoh hw))
  | finished r => exact absurd rfl (hnot r)
  | _ => exact hcoh.elim

theorem upgrade_goes (hnot : ∀ r, stage ≠ .finished r) (hcoh : Coherent published (.upgrade userId identityId version) stage seen)
    (hsteady : SteadyStatement (.upgrade userId identityId version) stage seen s) (hgrow : ∀ t ∈ seen, t.withdrawn ⊆ s.withdrawn)
    (hchecked : Checked s) :
    Goes published (.upgrade userId identityId version) stage seen s := by
  cases stage with
  | start =>
    obtain rfl : seen = [] := hcoh
    cases h : s.installs (userId, identityId) with
    | none =>
      exact .of (.finished libraryInstallRequired) s (by simp only [libraryStatement, upgradeStatement, h]) trivial
        (.effect (upgradeInMemory_of_none h))
    | some binding =>
      exact .of (.held binding) s (by simp only [libraryStatement, upgradeStatement, h]) ⟨s, rfl, h⟩ (.same _)
  | held binding =>
    obtain ⟨t, ht, hbinding⟩ := hcoh
    by_cases h : (identityId, version) ∈ published
    · exact .of (.heldFound binding) s (by simp only [libraryStatement, upgradeStatement, getStatement, if_pos h])
        ⟨h, t, head?_append_of ht s, hbinding⟩ (.same _)
    · exact .of (.finished libraryVersionNotFound) s
        (by simp only [libraryStatement, upgradeStatement, getStatement, if_neg h]) trivial
        (.quiet (mem_of_head? ht s) (upgradeInMemory_of_not_published hbinding h))
  | heldFound binding =>
    obtain ⟨hp, t, ht, hbinding⟩ := hcoh
    by_cases h : (identityId, version) ∈ s.withdrawn
    · refine .of (.finished publicationWithdrawn) s (by simp only [libraryStatement, upgradeStatement, if_pos h]) trivial ?_
      rcases hsteady h with hinstall | ⟨t', ht', hw⟩
      · exact .effect (upgradeInMemory_of_withdrawn hinstall hp h)
      · rw [ht, Option.some.injEq] at ht'
        subst ht'
        exact .quiet (mem_of_head? ht s) (upgradeInMemory_of_withdrawn (by rw [hbinding]; nofun) hp hw)
    · by_cases hv : version ≤ binding.version
      · have hw : (identityId, version) ∉ t.withdrawn := fun hw => h (hgrow t (List.mem_of_head? ht) hw)
        exact .of (.finished upgradeRequiresNewerVersion) s
          (by simp only [libraryStatement, upgradeStatement, if_neg h, if_pos hv]) trivial
          (.quiet (mem_of_head? ht s) (upgradeInMemory_of_not_newer hbinding hp hw hv))
      · exact .of .installing s (by simp only [libraryStatement, upgradeStatement, if_neg h, if_neg hv]) hp (.same _)
  | installing =>
    exact .of .found s (congrArg (·, s) (if_pos hcoh)) hcoh (.same _)
  | found =>
    by_cases h : (identityId, version) ∈ s.withdrawn
    · exact .of (.finished publicationWithdrawn) s
        (by simp only [libraryStatement, upgradeStatement, installStatement, if_pos h]) trivial
        (.effect (upgradeInMemory_of_withdrawn (hsteady h) hcoh h))
    · exact .of .admitted s (by simp only [libraryStatement, upgradeStatement, installStatement, if_neg h]) hcoh (.same _)
  | admitted =>
    obtain ⟨hw, binding, hbinding, hv⟩ := hsteady
    have huser : isBlankUser userId = false := hchecked userId identityId (by rw [hbinding]; nofun)
    exact .of _ _ (upsertInstall_of_user huser) trivial (.effect (upgradeInMemory_of_newer hbinding hcoh hw hv))
  | finished r => exact absurd rfl (hnot r)
  | _ => exact hcoh.elim

theorem uninstall_goes (hnot : ∀ r, stage ≠ .finished r) (hcoh : Coherent published (.uninstall userId identityId) stage seen) :
    Goes published (.uninstall userId identityId) stage seen s := by
  cases stage with
  | start => exact .of (.finished .done) (s.withoutInstall userId identityId) rfl trivial (.effect rfl)
  | finished r => exact absurd rfl (hnot r)
  | _ => exact hcoh.elim

theorem star_goes (hnot : ∀ r, stage ≠ .finished r) (hcoh : Coherent published (.star userId identityId) stage seen)
    (hsteady : SteadyStatement (.star userId identityId) stage seen s) :
    Goes published (.star userId identityId) stage seen s := by
  cases stage with
  | start =>
    by_cases h : ∀ p ∈ published, p.1 ≠ identityId
    · exact .of (.finished libraryIdentityNotFound) s (by simp only [libraryStatement, starStatement, if_pos h]) trivial
        (.effect (if_pos h))
    · exact .of .listed s (by simp only [libraryStatement, starStatement, if_neg h]) h (.same _)
  | listed =>
    have huser : isBlankUser userId = false := hsteady
    refine .of .counting (s.withStar userId identityId) ?_ ⟨hcoh, by simp⟩ ?_
    · simp only [libraryStatement, starStatement, huser, Bool.false_eq_true, if_false]
    · rw [answerAt_counting List.getLast?_concat, inMemoryLibrary, starInMemory_of_listed hcoh]
      exact .effect (starInMemory_of_listed hcoh)
  | counting =>
    obtain ⟨hlisted, hne⟩ := hcoh
    obtain ⟨t, ht⟩ := Option.ne_none_iff_exists'.mp (mt List.getLast?_eq_none_iff.mp hne)
    refine .of (.finished (.count (s.starCount identityId))) s rfl trivial ?_
    rw [answerAt_counting ht, inMemoryLibrary, starInMemory_of_listed hlisted, ← hsteady t ht]
    exact .same _
  | finished r => exact absurd rfl (hnot r)
  | _ => exact hcoh.elim

theorem unstar_goes (hnot : ∀ r, stage ≠ .finished r) (hcoh : Coherent published (.unstar userId identityId) stage seen)
    (hsteady : SteadyStatement (.unstar userId identityId) stage seen s) :
    Goes published (.unstar userId identityId) stage seen s := by
  cases stage with
  | start =>
    refine .of .counting (s.withoutStar userId identityId) rfl (by simp [Coherent]) ?_
    rw [answerAt_counting List.getLast?_concat]
    exact .effect rfl
  | counting =>
    obtain ⟨t, ht⟩ := Option.ne_none_iff_exists'.mp (mt List.getLast?_eq_none_iff.mp hcoh)
    refine .of (.finished (.count (s.starCount identityId))) s rfl trivial ?_
    rw [answerAt_counting ht, inMemoryLibrary, unstarInMemory, ← hsteady t ht]
    exact .same _
  | finished r => exact absurd rfl (hnot r)
  | _ => exact hcoh.elim

theorem acknowledge_goes (hnot : ∀ r, stage ≠ .finished r)
    (hcoh : Coherent published (.acknowledgeWithdrawal userId identityId version) stage seen)
    (hsteady : SteadyStatement (.acknowledgeWithdrawal userId identityId version) stage seen s) (hchecked : Checked s) :
    Goes published (.acknowledgeWithdrawal userId identityId version) stage seen s := by
  cases stage with
  | start =>
    obtain rfl : seen = [] := hcoh
    by_cases h : (s.installs (userId, identityId)).map (·.version) = some version
    · have huser : isBlankUser userId = false := hchecked userId identityId (by rintro hnone; rw [hnone] at h; nomatch h)
      refine .of (.finished .done) (s.withAcknowledged userId identityId version) ?_ trivial
        (.effect (acknowledgeInMemory_of_version h))
      simp only [libraryStatement, acknowledgeStatement, if_pos h, huser, Bool.false_eq_true, if_false]
    · exact .of .missed s (by simp only [libraryStatement, acknowledgeStatement, if_neg h]) ⟨s, rfl, h⟩ (.same _)
  | missed =>
    obtain ⟨t, ht, hother⟩ := hcoh
    by_cases hnone : s.installs (userId, identityId) = none
    · exact .of (.finished libraryInstallRequired) s
        (by simp only [libraryStatement, acknowledgeStatement, if_pos hnone]) trivial (.effect (acknowledgeInMemory_of_none hnone))
    · refine .of (.finished acknowledgementVersionMismatch) s
        (by simp only [libraryStatement, acknowledgeStatement, if_neg hnone]) trivial ?_
      by_cases h : (s.installs (userId, identityId)).map (·.version) = some version
      · -- The version was installed in between: the call is as before that, where another version was.
        obtain ⟨t', ht', hsome⟩ := hsteady h
        rw [ht, Option.some.injEq] at ht'
        subst ht'
        exact .quiet (mem_of_head? ht s) (acknowledgeInMemory_of_other hsome hother)
      · exact .effect (acknowledgeInMemory_of_other hnone h)
  | finished r => exact absurd rfl (hnot r)
  | _ => exact hcoh.elim

theorem withdraw_goes (hnot : ∀ r, stage ≠ .finished r) (hcoh : Coherent published (.withdraw identityId version) stage seen) :
    Goes published (.withdraw identityId version) stage seen s := by
  cases stage with
  | start =>
    by_cases h : (identityId, version) ∈ published
    · exact .of .located s (by simp only [libraryStatement, getStatement, if_pos h]) h (.same _)
    · exact .of (.finished publicationVersionNotFound) s (by simp only [libraryStatement, getStatement, if_neg h]) trivial
        (.effect (if_pos h))
  | located =>
    have hp : (identityId, version) ∈ published := hcoh
    exact .of (.finished .done) (s.withWithdrawn identityId version) rfl trivial (.effect (if_neg (not_not_intro hp)))
  | finished r => exact absurd rfl (hnot r)
  | _ => exact hcoh.elim

end

/-- A steady statement goes on. -/
theorem statement_goes (call : LibraryCall) (stage : LibraryStage) (hnot : ∀ r, stage ≠ .finished r)
    (hcoh : Coherent published call stage seen) (hsteady : SteadyStatement call stage seen s)
    (hgrow : ∀ t ∈ seen, t.withdrawn ⊆ s.withdrawn) (hchecked : Checked s) : Goes published call stage seen s := by
  cases call with
  | install userId identityId version => exact install_goes stage hnot hcoh hsteady
  | upgrade userId identityId toVersion => exact upgrade_goes stage hnot hcoh hsteady hgrow hchecked
  | uninstall userId identityId => exact uninstall_goes stage hnot hcoh
  | star userId identityId => exact star_goes stage hnot hcoh hsteady
  | unstar userId identityId => exact unstar_goes stage hnot hcoh hsteady
  | acknowledgeWithdrawal userId identityId version => exact acknowledge_goes stage hnot hcoh hsteady hchecked
  | withdraw identityId version => exact withdraw_goes stage hnot hcoh

/-- What is withdrawn stays withdrawn. -/
theorem withdrawn_subset (published : Finset (String × Int)) (s : LibraryState) (call : LibraryCall) (stage : LibraryStage) :
    s.withdrawn ⊆ (libraryStatement published call stage s).2.withdrawn := by
  have hrefl : s.withdrawn ⊆ s.withdrawn := Finset.Subset.refl _
  have hupsert : ∀ userId identityId version, s.withdrawn ⊆ (upsertInstall s userId identityId version).2.withdrawn := by
    intro userId identityId version
    unfold upsertInstall
    split <;> exact hrefl
  cases call with
  | withdraw identityId version =>
    cases stage with
    | located => exact Finset.subset_insert _ _
    | _ => exact hrefl
  | install userId identityId version =>
    cases stage with
    | admitted => exact hupsert _ _ _
    | _ => exact hrefl
  | upgrade userId identityId version =>
    cases stage with
    | admitted => exact hupsert _ _ _
    | _ => exact hrefl
  | acknowledgeWithdrawal userId identityId version =>
    cases stage with
    | start =>
      simp only [libraryStatement, acknowledgeStatement]
      split
      · split <;> exact hrefl
      · exact hrefl
    | _ => exact hrefl
  | star userId identityId =>
    cases stage with
    | listed =>
      simp only [libraryStatement, starStatement]
      split <;> exact hrefl
    | _ => exact hrefl
  | uninstall userId identityId => cases stage <;> exact hrefl
  | unstar userId identityId => cases stage <;> exact hrefl

/-- How a statement changes the installs: not at all, by the deletion of one, or by the upsert of one that passes the check. -/
inductive InstallsMove (call : LibraryCall) (stage : LibraryStage) (s s' : LibraryState) : Prop
  | keep (h : s'.installs = s.installs)
  | delete {userId identityId : String} (hcall : call = .uninstall userId identityId) (hstate : s' = s.withoutInstall userId identityId)
  | upsert {userId identityId : String} {version : Int}
      (hcall : call = .install userId identityId version ∨ call = .upgrade userId identityId version) (hstage : stage = .admitted)
      (huser : isBlankUser userId = false) (hstate : s' = s.withInstall userId identityId version)

theorem installsMove_upsert {call : LibraryCall}
    (hcall : call = .install userId identityId version ∨ call = .upgrade userId identityId version) :
    InstallsMove call .admitted s (upsertInstall s userId identityId version).2 := by
  cases h : isBlankUser userId with
  | true =>
    rw [upsertInstall, h]
    exact .keep rfl
  | false =>
    rw [upsertInstall_of_user h]
    exact .upsert hcall rfl h rfl

theorem installsMove (published : Finset (String × Int)) (s : LibraryState) (call : LibraryCall) (stage : LibraryStage) :
    InstallsMove call stage s (libraryStatement published call stage s).2 := by
  cases call with
  | install userId identityId version =>
    cases stage with
    | admitted => exact installsMove_upsert (.inl rfl)
    | _ => exact .keep rfl
  | upgrade userId identityId version =>
    cases stage with
    | admitted => exact installsMove_upsert (.inr rfl)
    | _ => exact .keep rfl
  | uninstall userId identityId =>
    cases stage with
    | start => exact .delete rfl rfl
    | _ => exact .keep rfl
  | acknowledgeWithdrawal userId identityId version =>
    cases stage with
    | start =>
      simp only [libraryStatement, acknowledgeStatement]
      split
      · split <;> exact .keep rfl
      · exact .keep rfl
    | _ => exact .keep rfl
  | star userId identityId =>
    cases stage with
    | listed =>
      simp only [libraryStatement, starStatement]
      split <;> exact .keep rfl
    | _ => exact .keep rfl
  | unstar userId identityId => cases stage <;> exact .keep rfl
  | withdraw identityId version => cases stage <;> exact .keep rfl

theorem withInstall_self : (s.withInstall userId identityId version).installs (userId, identityId) = some { identityId, version } :=
  Function.update_self _ _ _

theorem withInstall_of_ne {key : String × String} (h : key ≠ (userId, identityId)) :
    (s.withInstall userId identityId version).installs key = s.installs key := Function.update_of_ne h _ _

theorem withoutInstall_self : (s.withoutInstall userId identityId).installs (userId, identityId) = none := Function.update_self _ _ _

theorem withoutInstall_of_ne {key : String × String} (h : key ≠ (userId, identityId)) :
    (s.withoutInstall userId identityId).installs key = s.installs key := Function.update_of_ne h _ _

theorem checked_statement (call : LibraryCall) (stage : LibraryStage) (hchecked : Checked s) :
    Checked (libraryStatement published call stage s).2 := by
  intro user identity hinstall
  rcases installsMove published s call stage with h | ⟨-, hstate⟩ | ⟨-, -, huser, hstate⟩
  · rw [h] at hinstall
    exact hchecked user identity hinstall
  · rename_i userId identityId
    rw [hstate] at hinstall
    by_cases hkey : (user, identity) = (userId, identityId)
    · rw [hkey, withoutInstall_self] at hinstall
      exact absurd rfl hinstall
    · rw [withoutInstall_of_ne hkey] at hinstall
      exact hchecked user identity hinstall
  · rename_i userId identityId version
    rw [hstate] at hinstall
    by_cases hkey : (user, identity) = (userId, identityId)
    · rw [(Prod.mk.inj hkey).1]
      exact huser
    · rw [withInstall_of_ne hkey] at hinstall
      exact hchecked user identity hinstall

end Statements

/-! ### Runs -/

section Runs

variable {published : Finset (String × Int)} {calls : List LibraryCall} {s₀ : LibraryState} {run : LibraryRun}

/-- The answers the calls of a run are bound to give. -/
def answers (published : Finset (String × Int)) (calls : List LibraryCall) (run : LibraryRun) (i : Nat) : Option LibraryResult :=
  calls[i]?.bind fun call => answerAt published call (run.stage i) (run.seen i)

/-- What a run of steady statements keeps. -/
structure Stands (published : Finset (String × Int)) (calls : List LibraryCall) (s₀ : LibraryState) (run : LibraryRun) : Prop where
  explained : ∃ order, Explains (inMemoryLibrary published) s₀ calls order run.state (answers published calls run) run.seen
  coherent : ∀ i call, calls[i]? = some call → Coherent published call (run.stage i) (run.seen i)
  grows : ∀ i, ∀ t ∈ run.seen i, t.withdrawn ⊆ run.state.withdrawn
  checked : Checked run.state

theorem stands_start (published : Finset (String × Int)) (calls : List LibraryCall) (hchecked : Checked s₀) :
    Stands published calls s₀ (.start s₀) := by
  refine ⟨⟨[], ?_⟩, fun i call hcall => ?_, nofun, hchecked⟩
  · have hanswers : answers published calls (.start s₀) = fun _ => none := by
      funext i
      exact Option.bind_fun_none _
    rw [hanswers]
    exact .start _ _ _
  · cases call <;> exact rfl

/-- A step is no step, or the next statement of a call that has not finished. -/
theorem step_cases (published : Finset (String × Int)) (calls : List LibraryCall) (run : LibraryRun) (i : Nat) :
    run.step published calls i = run ∨
      ∃ call, calls[i]? = some call ∧ (∀ r, run.stage i ≠ .finished r) ∧ run.step published calls i = run.advance published i call := by
  unfold LibraryRun.step
  split
  · exact .inl rfl
  · exact .inl rfl
  · rename_i call hcall hnot
    exact .inr ⟨call, hcall, hnot, rfl⟩

theorem answers_advance {i : Nat} {call : LibraryCall} (hcall : calls[i]? = some call) :
    answers published calls (run.advance published i call) = Function.update (answers published calls run) i
      (answerAt published call (libraryStatement published call (run.stage i) run.state).1 (run.seen i ++ [run.state])) := by
  funext j
  by_cases hj : j = i
  · subst hj
    rw [Function.update_self]
    simp only [answers, hcall, Option.bind_some, LibraryRun.advance, Function.update_self]
  · rw [Function.update_of_ne hj]
    simp only [answers, LibraryRun.advance, Function.update_of_ne hj]

/-- An explanation goes on with what a statement does. -/
theorem Outcome.explains {order : List (LibraryCall × Nat)} {i : Nat} {call : LibraryCall} {before after : Option LibraryResult}
    {s s' : LibraryState} {answered : Nat → Option LibraryResult} {seen : Nat → List LibraryState}
    (h : Outcome published call (seen i) s before after s') (hcall : calls[i]? = some call) (hbefore : answered i = before)
    (hexp : Explains (inMemoryLibrary published) s₀ calls order s answered seen) :
    ∃ order', Explains (inMemoryLibrary published) s₀ calls order' s' (Function.update answered i after) seen := by
  cases h with
  | same =>
    rw [← hbefore, Function.update_eq_self]
    exact ⟨order, hexp⟩
  | quiet ht hquiet => exact hexp.quiet hcall hbefore ht hquiet
  | effect happly => exact ⟨_, hexp.effect hcall hbefore happly⟩

theorem Stands.advance (h : Stands published calls s₀ run) {i : Nat} {call : LibraryCall} (hcall : calls[i]? = some call)
    (hnot : ∀ r, run.stage i ≠ .finished r) (hsteady : run.Steady calls i) :
    Stands published calls s₀ (run.advance published i call) := by
  obtain ⟨hcoh, houtcome⟩ := statement_goes call (run.stage i) hnot (h.coherent i call hcall) (hsteady call hcall) (h.grows i) h.checked
  have hsub := withdrawn_subset published run.state call (run.stage i)
  refine ⟨?_, ?_, ?_, checked_statement call (run.stage i) h.checked⟩
  · obtain ⟨order, hexp⟩ := h.explained
    rw [answers_advance hcall]
    have hbefore : answers published calls run i = answerAt published call (run.stage i) (run.seen i) := by
      rw [answers, hcall, Option.bind_some]
    refine Outcome.explains ?_ hcall hbefore (hexp.look i)
    have hseen : (run.advance published i call).seen i = run.seen i ++ [run.state] := Function.update_self _ _ _
    rw [hseen]
    exact houtcome
  · intro j call' hcall'
    by_cases hj : j = i
    · subst hj
      rw [hcall, Option.some.injEq] at hcall'
      subst hcall'
      simp only [LibraryRun.advance, Function.update_self]
      exact hcoh
    · simp only [LibraryRun.advance, Function.update_of_ne hj]
      exact h.coherent j call' hcall'
  · intro j t ht
    by_cases hj : j = i
    · subst hj
      simp only [LibraryRun.advance, Function.update_self, List.mem_append, List.mem_singleton] at ht
      rcases ht with ht | rfl
      · exact (h.grows j t ht).trans hsub
      · exact hsub
    · simp only [LibraryRun.advance, Function.update_of_ne hj] at ht
      exact (h.grows j t ht).trans hsub

theorem Stands.step (h : Stands published calls s₀ run) {i : Nat} (hsteady : run.Steady calls i) :
    Stands published calls s₀ (run.step published calls i) := by
  rcases step_cases published calls run i with hrun | ⟨call, hcall, hnot, hrun⟩
  · rw [hrun]
    exact h
  · rw [hrun]
    exact h.advance hcall hnot hsteady

theorem Stands.steps (schedule : List Nat) (h : Stands published calls s₀ run) (hsteady : run.SteadySteps published calls schedule) :
    Stands published calls s₀ (run.steps published calls schedule) := by
  induction schedule generalizing run with
  | nil => exact h
  | cons i rest ih => exact ih (h.step hsteady.1) hsteady.2

/-- The steps up to one of a steady schedule are steady, and so is that one. -/
theorem steadySteps_append {before after : List Nat} (h : run.SteadySteps published calls (before ++ after)) :
    run.SteadySteps published calls before ∧ (run.steps published calls before).SteadySteps published calls after := by
  induction before generalizing run with
  | nil => exact ⟨trivial, h⟩
  | cons i rest ih => exact ⟨⟨h.1, (ih h.2).1⟩, (ih h.2).2⟩

/-- A steady upsert installs a version that is not withdrawn, and an upgrade a newer one. -/
theorem steady_upsert {call : LibraryCall} {seen : List LibraryState} {s : LibraryState} {userId identityId : String} {version : Int}
    (hcall : call = .install userId identityId version ∨ call = .upgrade userId identityId version)
    (hsteady : SteadyStatement call .admitted seen s) : (identityId, version) ∉ s.withdrawn := by
  rcases hcall with rfl | rfl
  · exact hsteady.1
  · exact hsteady.1

end Runs

end LibraryAux

namespace LibraryRun

/-- A step of an upgrade lowers no installed version. -/
def UpgradeRaises (calls : List LibraryCall) (i : Nat) (run next : LibraryRun) : Prop :=
  ∀ userId identityId toVersion, calls[i]? = some (.upgrade userId identityId toVersion) →
    ∀ key binding, run.state.installs key = some binding →
      ∃ binding', next.state.installs key = some binding' ∧ binding.version ≤ binding'.version

/-- A step newly installs nothing that is withdrawn. -/
def InstallsUnwithdrawn (run next : LibraryRun) : Prop :=
  ∀ key binding, next.state.installs key = some binding →
    run.state.installs key = some binding ∨ (key.2, binding.version) ∉ run.state.withdrawn

end LibraryRun

namespace LibraryAux

variable {published : Finset (String × Int)} {calls : List LibraryCall} {run : LibraryRun}

theorem upgradeRaises_step {i : Nat} (hsteady : run.Steady calls i) :
    LibraryRun.UpgradeRaises calls i run (run.step published calls i) := by
  intro userId identityId toVersion hup key binding hbinding
  rcases step_cases published calls run i with hrun | ⟨call, hcall, -, hrun⟩
  · rw [hrun]
    exact ⟨binding, hbinding, le_refl _⟩
  rw [hrun]
  rw [hup, Option.some.injEq] at hcall
  subst hcall
  change ∃ binding', (libraryStatement _ _ _ _).2.installs key = some binding' ∧ _
  rcases installsMove published run.state (.upgrade userId identityId toVersion) (run.stage i)
    with h | ⟨hcall, -⟩ | ⟨hcall, hstage, -, hstate⟩
  · rw [h]
    exact ⟨binding, hbinding, le_refl _⟩
  · nomatch hcall
  · rcases hcall with hcall | hcall
    · nomatch hcall
    · cases hcall
      rw [hstate]
      by_cases hkey : key = (userId, identityId)
      · subst hkey
        have hst := hsteady _ hup
        rw [hstage] at hst
        obtain ⟨-, binding', hbinding', hv⟩ := hst
        rw [hbinding, Option.some.injEq] at hbinding'
        subst hbinding'
        exact ⟨_, withInstall_self, le_of_lt hv⟩
      · rw [withInstall_of_ne hkey]
        exact ⟨binding, hbinding, le_refl _⟩

theorem installsUnwithdrawn_step {i : Nat} (hsteady : run.Steady calls i) :
    LibraryRun.InstallsUnwithdrawn run (run.step published calls i) := by
  intro key binding hbinding
  rcases step_cases published calls run i with hrun | ⟨call, hcall, -, hrun⟩
  · rw [hrun] at hbinding
    exact .inl hbinding
  rw [hrun] at hbinding
  change (libraryStatement _ _ _ _).2.installs key = some binding at hbinding
  rcases installsMove published run.state call (run.stage i)
    with h | ⟨-, hstate⟩ | ⟨hinstall, hstage, -, hstate⟩
  · rw [h] at hbinding
    exact .inl hbinding
  · rename_i userId identityId
    rw [hstate] at hbinding
    by_cases hkey : key = (userId, identityId)
    · rw [hkey, withoutInstall_self] at hbinding
      nomatch hbinding
    · rw [withoutInstall_of_ne hkey] at hbinding
      exact .inl hbinding
  · rename_i userId identityId version
    rw [hstate] at hbinding
    by_cases hkey : key = (userId, identityId)
    · rw [hkey, withInstall_self, Option.some.injEq] at hbinding
      subst hbinding
      have hst := hsteady call hcall
      rw [hstage] at hst
      rw [hkey]
      exact .inr (steady_upsert hinstall hst)
    · rw [withInstall_of_ne hkey] at hbinding
      exact .inl hbinding

end LibraryAux

/-- A metric with three published versions. -/
def conversionVersions : Finset (String × Int) := {("conversion", 1), ("conversion", 2), ("conversion", 3)}

/-- An analyst has installed the first of them. -/
def conversionInstalled : LibraryState where
  withdrawn := ∅
  installs := Function.update (fun _ => none) ("analyst", "conversion") (some { identityId := "conversion", version := 1 })
  stars := ∅
  acknowledged := ∅

/-- And upgrades it to the other two at once. -/
def conversionUpgrades : List LibraryCall := [.upgrade "analyst" "conversion" 2, .upgrade "analyst" "conversion" 3]

namespace LibraryAux

theorem conversionInstalled_checked (userId identityId : String) (h : conversionInstalled.installs (userId, identityId) ≠ none) :
    isBlankUser userId = false := by
  by_cases hkey : (userId, identityId) = ("analyst", "conversion")
  · rw [(Prod.mk.inj hkey).1]
    decide
  · simp only [conversionInstalled, Function.update_of_ne hkey] at h
    exact absurd rfl h

/-- The later upgrade writes last. -/
theorem conversionUpgrades_steady : (LibraryRun.start conversionInstalled).SteadySteps conversionVersions conversionUpgrades
    [0, 1, 1, 1, 0, 0, 0, 0, 1, 1, 0, 1] := by
  simp [LibraryRun.SteadySteps, LibraryRun.Steady, conversionUpgrades, LibraryRun.step, LibraryRun.start, LibraryRun.advance,
    libraryStatement, upgradeStatement, SteadyStatement, conversionInstalled, conversionVersions, getStatement, installStatement,
    upsertInstall, isBlankUser, LibraryState.withInstall]

theorem conversionUpgrades_done : ∀ i < conversionUpgrades.length, ((LibraryRun.start conversionInstalled).steps conversionVersions
    conversionUpgrades [0, 1, 1, 1, 0, 0, 0, 0, 1, 1, 0, 1]).result i ≠ none := by
  decide

end LibraryAux

end Nl2Sql
