import Mathlib.Data.List.Basic
import Mathlib.Data.List.Induction

/-!
# Sessions

A machine answers requests one after another. What is granted in its history may be used until it is granted again or used up, and the requests
of one session may see nothing of the others. Both are properties of a step, and this module says what they give for a run.
-/

namespace Py

universe u v w

/-! ## What is outstanding -/

section Grants

variable {ε : Type u} {α : Type v} (grant : ε → Option α) (spends : ε → Prop) [DecidablePred spends]

/-- What is outstanding after one more event: a grant replaces it, and what is spent is gone. -/
def outstandingStep (current : Option α) (event : ε) : Option α :=
  match grant event with
  | some a => some a
  | none => if spends event then none else current

/-- What is outstanding after a history. -/
def outstanding (history : List ε) : Option α := history.foldl (outstandingStep grant spends) none

variable {grant spends} in
theorem outstandingStep_grant {current : Option α} {event : ε} {a : α} (h : grant event = some a) :
    outstandingStep grant spends current event = some a := by
  rw [outstandingStep, h]

variable {grant spends} in
theorem outstandingStep_spend {current : Option α} {event : ε} (hgrant : grant event = none) (h : spends event) :
    outstandingStep grant spends current event = none := by
  rw [outstandingStep, hgrant]
  exact if_pos h

variable {grant spends} in
theorem outstandingStep_keep {current : Option α} {event : ε} (hgrant : grant event = none) (h : ¬ spends event) :
    outstandingStep grant spends current event = current := by
  rw [outstandingStep, hgrant]
  exact if_neg h

theorem outstanding_snoc (history : List ε) (event : ε) :
    outstanding grant spends (history ++ [event]) = outstandingStep grant spends (outstanding grant spends history) event := by
  rw [outstanding, List.foldl_append]
  rfl

/-- What is outstanding was granted by an event of the history, and since then nothing was granted or spent. -/
theorem outstanding_eq_some {history : List ε} {a : α} (h : outstanding grant spends history = some a) :
    ∃ before event after, history = before ++ event :: after ∧ grant event = some a ∧ ∀ e ∈ after, grant e = none ∧ ¬ spends e := by
  induction history using List.reverseRecOn with
  | nil => nomatch h
  | append_singleton history event ih =>
    rw [outstanding_snoc, outstandingStep] at h
    cases hgrant : grant event with
    | some b =>
      rw [hgrant] at h
      exact ⟨history, event, [], rfl, hgrant.trans h, fun _ h => absurd h List.not_mem_nil⟩
    | none =>
      simp only [hgrant] at h
      split at h
      · nomatch h
      · rename_i hspends
        obtain ⟨before, granted, after, rfl, hgranted, hafter⟩ := ih h
        refine ⟨before, granted, after ++ [event], by rw [List.append_assoc, List.cons_append], hgranted, fun e he => ?_⟩
        rcases List.mem_append.mp he with he | he
        · exact hafter e he
        · rw [List.mem_singleton.mp he]
          exact ⟨hgrant, hspends⟩

/-- Between two events that spend, where spending takes something outstanding, something was granted. -/
theorem exists_grant_between {before between : List ε} {first : ε} {a : α} (hfirst : spends first) (hgrant : grant first = none)
    (h : outstanding grant spends (before ++ first :: between) = some a) : ∃ e ∈ between, (grant e).isSome = true := by
  obtain ⟨before', event, after, heq, hevent, hafter⟩ := outstanding_eq_some grant spends h
  rcases List.append_eq_append_iff.mp heq with ⟨middle, hmiddle, hrest⟩ | ⟨middle, hmiddle, hrest⟩
  · cases middle with
    | nil =>
      obtain ⟨rfl, -⟩ := List.cons.inj hrest
      rw [hgrant] at hevent
      nomatch hevent
    | cons e middle =>
      obtain ⟨rfl, rfl⟩ := List.cons.inj hrest
      exact ⟨event, List.mem_append_right middle List.mem_cons_self, by rw [hevent]; rfl⟩
  · cases middle with
    | nil =>
      obtain ⟨rfl, -⟩ := List.cons.inj hrest
      rw [hgrant] at hevent
      nomatch hevent
    | cons e middle =>
      obtain ⟨rfl, rfl⟩ := List.cons.inj hrest
      exact absurd hfirst (hafter first (List.mem_append_right middle List.mem_cons_self)).2

end Grants

/-! ## Runs -/

section Runs

variable {σ : Type u} {ι : Type v} {ω : Type w} (step : σ → ι → ω × σ)

/-- The state after a run. -/
def stateAfter (s : σ) (requests : List ι) : σ := requests.foldl (fun s request => (step s request).2) s

/-- The requests of a run with their answers. -/
def answersOf (s : σ) : List ι → List (ι × ω)
  | [] => []
  | request :: rest => (request, (step s request).1) :: answersOf (step s request).2 rest

theorem stateAfter_snoc (s : σ) (requests : List ι) (request : ι) :
    stateAfter step s (requests ++ [request]) = (step (stateAfter step s requests) request).2 := by
  rw [stateAfter, List.foldl_append]
  rfl

theorem answersOf_append (s : σ) (requests others : List ι) :
    answersOf step s (requests ++ others) = answersOf step s requests ++ answersOf step (stateAfter step s requests) others := by
  induction requests generalizing s with
  | nil => rfl
  | cons request requests ih =>
    rw [List.cons_append, answersOf, ih, answersOf]
    rfl

/-- A condition on the state before a request holds at each request of a run. -/
def AtEach (P : σ → ι → Prop) (s : σ) : List ι → Prop
  | [] => True
  | request :: rest => P s request ∧ AtEach P (step s request).2 rest

instance AtEach.decidable (P : σ → ι → Prop) [∀ s, DecidablePred (P s)] : ∀ s requests, Decidable (AtEach step P s requests)
  | _, [] => isTrue trivial
  | s, request :: rest => @instDecidableAnd _ _ _ (AtEach.decidable P (step s request).2 rest)

/-- The requests of a session are answered from a part of the state that no other request changes. -/
structure Separated {κ : Type*} {ν : Type*} (scope : ι → κ) (view : κ → σ → ν) : Prop where
  answer : ∀ s t request, view (scope request) s = view (scope request) t → (step s request).1 = (step t request).1
  next : ∀ s t request, view (scope request) s = view (scope request) t →
    view (scope request) (step s request).2 = view (scope request) (step t request).2
  frame : ∀ s request k, k ≠ scope request → view k (step s request).2 = view k s

/-- The requests of one session are answered as if there were no others. -/
theorem Separated.answersOf_filter {κ : Type*} {ν : Type*} [DecidableEq κ] {scope : ι → κ} {view : κ → σ → ν}
    (h : Separated step scope view) (k : κ) (requests : List ι) {s t : σ} (hview : view k s = view k t) :
    (answersOf step s requests).filter (fun answered => scope answered.1 = k) =
      answersOf step t (requests.filter fun request => scope request = k) := by
  induction requests generalizing s t with
  | nil => rfl
  | cons request requests ih =>
    rw [answersOf]
    by_cases hk : scope request = k
    · subst hk
      rw [List.filter_cons_of_pos (by simp), List.filter_cons_of_pos (by simp), answersOf, h.answer s t request hview,
        ih (h.next s t request hview)]
    · rw [List.filter_cons_of_neg (by simpa using hk), List.filter_cons_of_neg (by simpa using hk)]
      exact ih ((h.frame s request k (Ne.symm hk)).trans hview)

/-- A request neither looks at the state nor changes it. -/
def ActsNowhere (request : ι) : Prop := ∃ answer, ∀ s, step s request = (answer, s)

/-- A request looks at what is kept under one key, and changes nothing else. -/
def ActsAt {κ : Type*} {ν : Type*} [DecidableEq κ] (kept : σ → κ → ν) (request : ι) (key : κ) : Prop :=
  ∃ f : ν → ω × ν, ∀ s, (step s request).1 = (f (kept s key)).1 ∧
    ∀ other, kept (step s request).2 other = if key = other then (f (kept s key)).2 else kept s other

/-- Requests that act under a key of their own session are separated. -/
theorem separated_of_acts {κ ν ρ : Type*} [DecidableEq κ] {kept : σ → κ → ν} {scope : ι → ρ} {Owns : ρ → κ → Prop}
    [∀ r key, Decidable (Owns r key)] (howns : ∀ r r' key, Owns r key → Owns r' key → r = r')
    (h : ∀ request, ActsNowhere step request ∨ ∃ key, Owns (scope request) key ∧ ActsAt step kept request key) :
    Separated step scope fun r s key => if Owns r key then some (kept s key) else none := by
  have hkept {r s t key} (hview : (fun key => if Owns r key then some (kept s key) else none) =
      fun key => if Owns r key then some (kept t key) else none) (hkey : Owns r key) : kept s key = kept t key := by
    have hat := congrFun hview key
    rw [if_pos hkey, if_pos hkey] at hat
    exact Option.some.inj hat
  refine ⟨fun s t request hview => ?_, fun s t request hview => ?_, fun s request r hr => ?_⟩
  · rcases h request with ⟨answer, hanswer⟩ | ⟨key, hkey, f, hf⟩
    · rw [hanswer, hanswer]
    · rw [(hf s).1, (hf t).1, hkept hview hkey]
  · rcases h request with ⟨answer, hanswer⟩ | ⟨key, hkey, f, hf⟩
    · rw [hanswer, hanswer]
      exact hview
    · funext other
      by_cases hother : Owns (scope request) other
      · rw [if_pos hother, if_pos hother, (hf s).2, (hf t).2, hkept hview hkey, hkept hview hother]
      · rw [if_neg hother, if_neg hother]
  · rcases h request with ⟨answer, hanswer⟩ | ⟨key, hkey, f, hf⟩
    · rw [hanswer]
    · funext other
      by_cases hother : Owns r other
      · have hne : key ≠ other := by
          rintro rfl
          exact hr (howns r (scope request) key hother hkey)
        rw [if_pos hother, if_pos hother, (hf s).2, if_neg hne]
      · rw [if_neg hother, if_neg hother]

end Runs

/-! ## Two machines -/

section Machines

variable {σ : Type u} {τ : Type*} {ι : Type v} {ω : Type w} {step : σ → ι → ω × σ} {step' : τ → ι → ω × τ}
  {R : σ → τ → List ι → Prop} {P : σ → ι → Prop}

/-- Two machines whose related states answer a request alike exactly under a condition, and stay related under it, answer a run alike exactly
where the condition holds at each request. What relates two states may look at the requests to come. -/
theorem answersOf_eq_iff (hanswer : ∀ s t request rest, R s t (request :: rest) → ((step s request).1 = (step' t request).1 ↔ P s request))
    (hnext : ∀ s t request rest, R s t (request :: rest) → P s request → R (step s request).2 (step' t request).2 rest)
    {s : σ} {t : τ} {requests : List ι} (h : R s t requests) :
    answersOf step s requests = answersOf step' t requests ↔ AtEach step P s requests := by
  induction requests generalizing s t with
  | nil => exact iff_of_true rfl trivial
  | cons request rest ih =>
    rw [answersOf, answersOf, List.cons.injEq, Prod.mk.injEq, AtEach, hanswer s t request rest h]
    exact ⟨fun ⟨⟨_, hP⟩, hrest⟩ => ⟨hP, (ih (hnext s t request rest h hP)).mp hrest⟩,
      fun ⟨hP, hrest⟩ => ⟨⟨rfl, hP⟩, (ih (hnext s t request rest h hP)).mpr hrest⟩⟩

/-- And they end in related states. -/
theorem stateAfter_related (hnext : ∀ s t request rest, R s t (request :: rest) → P s request → R (step s request).2 (step' t request).2 rest)
    {s : σ} {t : τ} {requests : List ι} (h : R s t requests) (hP : AtEach step P s requests) :
    R (stateAfter step s requests) (stateAfter step' t requests) [] := by
  induction requests generalizing s t with
  | nil => exact h
  | cons request rest ih => exact ih (hnext s t request rest h hP.1) hP.2

end Machines

end Py
