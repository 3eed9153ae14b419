import Nl2Sql.Artifact.ConflictProduct
import Nl2Sql.Lib.Sessions
import Nl2Sql.Theorems.PersonalConflict

/-!
# A selection is used once, where it was made

What waits under a key is the selection last validated for it, until a call uses it. So a resolve that returns a candidate uses a selection
validated for its user, thread, run and conflict, no selection is used twice, and the calls of one thread and run do not see the others.
-/

namespace Nl2Sql.Personal

open Py

variable (sha256 : String → Sha256)

/-! ## Grants and uses -/

/-- A call with its answer. -/
abbrev ProductEvent : Type := ProductCall × ProductAnswer

/-- The key a request is bound to, with its conflict at that moment. -/
def requestBinding (request : ResolveRequest) : Option (BindingKey × SemanticConflict) :=
  match projectionOf sha256 request with
  | .ok projection => bindingKey request projection
  | .error _ => none

/-- The selection an event has validated for a key. -/
def grantOf (key : BindingKey) : ProductEvent → Option PersonalSelection
  | (.validateSelection request _, .validated _ selection) =>
    match request.threadId, request.runId with
    | some threadId, some runId =>
      if (⟨request.userId, threadId, runId, selection.conflictId.val⟩ : BindingKey) = key then some selection else none
    | _, _ => none
  | _ => none

/-- An event has used up the selection of a key: it was consumed, or a resolve under the key has returned its candidate or not found it. -/
def Spends (key : BindingKey) : ProductEvent → Prop
  | (.consumeSelection key', .consumed _) => key' = key
  | (.resolve request, .resolved projection) =>
    projection.selectedCandidateId.isSome = true ∧ (requestBinding sha256 request).map (·.1) = some key
  | (.resolve request, .raised .stopIteration) => (requestBinding sha256 request).map (·.1) = some key
  | _ => False

instance (key : BindingKey) : DecidablePred (Spends sha256 key) := fun event =>
  match event with
  | (.consumeSelection key', .consumed _) => inferInstanceAs (Decidable (key' = key))
  | (.resolve _, .resolved _) => inferInstanceAs (Decidable (_ ∧ _))
  | (.resolve _, .raised .stopIteration) => inferInstanceAs (Decidable (_ = _))
  | (.resolve _, .raised (.product _)) => .isFalse id
  | (.resolve _, .raised (.definition _)) => .isFalse id
  | (.resolve _, .raised .unavailable) => .isFalse id
  | (.resolve _, .raised (.conflict _)) => .isFalse id
  | (.resolve _, .validated _ _) => .isFalse id
  | (.resolve _, .consumed _) => .isFalse id
  | (.validateSelection _ _, _) => .isFalse id
  | (.consumeSelection _, .resolved _) => .isFalse id
  | (.consumeSelection _, .validated _ _) => .isFalse id
  | (.consumeSelection _, .raised _) => .isFalse id

/-! ## What the methods do -/

section Methods

variable {sha256} {s : ProductState} {request : ResolveRequest} {projection : PersonalConflictProjection} {key : BindingKey}
  {conflict : SemanticConflict}

/-- A comparison selects nothing. -/
theorem unselected_of_ok {candidates : List ProjectedPersonalCandidate} {requiredSlot : String}
    (h : resolvePersonalCandidateConflict sha256 candidates requiredSlot = .ok projection) : projection.selectedCandidateId = none := by
  have hmade {resolution found comparison} (hof : PersonalConflictProjection.of? resolution found comparison = some projection) :
      projection.selectedCandidateId = none := by
    rw [PersonalConflictProjection.of?] at hof
    split at hof
    · exact Option.some.inj hof ▸ rfl
    · nomatch hof
  rw [resolve_eq] at h
  obtain ⟨⟨resolution, found⟩, -, h⟩ := bind_eq_ok.mp h
  cases found with
  | none => exact hmade (orInvalid_eq_ok.mp h)
  | some conflict =>
    obtain ⟨rows, -, h⟩ := bind_eq_ok.mp h
    obtain ⟨comparison, -, h⟩ := bind_eq_ok.mp h
    exact hmade (orInvalid_eq_ok.mp h)

theorem ofConflict_eq_ok {α : Type} {m : Except ConflictError α} {a : α} : ofConflict m = .ok a ↔ m = .ok a := by
  cases m with
  | ok b => exact ⟨fun h => congrArg Except.ok (Except.ok.inj h), fun h => congrArg Except.ok (Except.ok.inj h)⟩
  | error e => cases e <;> exact ⟨nofun, nofun⟩

theorem unselected_of_projectionOf (h : projectionOf sha256 request = .ok projection) : projection.selectedCandidateId = none := by
  obtain ⟨_, -, h⟩ := bind_eq_ok.mp h
  obtain ⟨_, -, h⟩ := bind_eq_ok.mp h
  obtain ⟨_, -, h⟩ := bind_eq_ok.mp h
  obtain ⟨_, -, h⟩ := bind_eq_ok.mp h
  obtain ⟨_, -, h⟩ := bind_eq_ok.mp h
  obtain ⟨found, -, h⟩ := bind_eq_ok.mp h
  cases found with
  | none => nomatch h
  | some install =>
    obtain ⟨found, -, h⟩ := bind_eq_ok.mp h
    cases found with
    | none => nomatch h
    | some published =>
      obtain ⟨_, -, h⟩ := bind_eq_ok.mp h
      obtain ⟨_, -, h⟩ := bind_eq_ok.mp h
      obtain ⟨_, -, h⟩ := bind_eq_ok.mp h
      obtain ⟨_, -, h⟩ := bind_eq_ok.mp h
      exact unselected_of_ok (ofConflict_eq_ok.mp h)

/-- A binding is of the request's own user, thread and run, and of the conflict. -/
theorem bindingKey_eq_some (h : bindingKey request projection = some (key, conflict)) :
    projection.semanticConflict = some conflict ∧ request.threadId = some key.threadId ∧ request.runId = some key.runId ∧
      key.userId = request.userId ∧ key.conflictId = conflict.conflictId.val := by
  have htruthy {text : Option String} {value : String} (h : truthy text = some value) : text = some value := by
    cases text with
    | none => nomatch h
    | some text =>
      rw [truthy] at h
      split at h
      · nomatch h
      · exact h
  rw [bindingKey] at h
  split at h
  · rename_i hconflict hthread hrun
    cases h
    exact ⟨hconflict, htruthy hthread, htruthy hrun, rfl, rfl⟩
  · nomatch h

/-- The state a projection is active in. -/
def activated (s : ProductState) (key : BindingKey) (projection : PersonalConflictProjection) : ProductState :=
  { s with activeConflicts := s.activeConflicts.set key projection }

/-- The state a selection is used up in. -/
def spent (s : ProductState) (key : BindingKey) : ProductState := ⟨s.activeConflicts.erase key, s.pendingSelections.erase key⟩

theorem resolve_error {e : ProductError} (h : projectionOf sha256 request = .error e) : s.resolve sha256 request = (.error e, s) := by
  rw [ProductState.resolve, h]

theorem resolve_unbound (h : projectionOf sha256 request = .ok projection) (hkey : bindingKey request projection = none) :
    s.resolve sha256 request = (.ok projection, s) := by
  rw [ProductState.resolve, h]
  simp only [hkey]

theorem resolve_fresh (h : projectionOf sha256 request = .ok projection) (hkey : bindingKey request projection = some (key, conflict))
    (hpending : s.pendingSelections.get? key = none) : s.resolve sha256 request = (.ok projection, activated s key projection) := by
  rw [ProductState.resolve, h]
  simp only [hkey, hpending]
  rfl

theorem resolve_pending {selection : PersonalSelection} (h : projectionOf sha256 request = .ok projection)
    (hkey : bindingKey request projection = some (key, conflict)) (hpending : s.pendingSelections.get? key = some selection) :
    s.resolve sha256 request =
      (match conflict.candidates.find? fun item => item.candidateId = selection.selectedCandidateId with
        | none => .error .stopIteration
        | some reference => .ok (selectedProjection selection.selectedCandidateId reference),
        spent (activated s key projection) key) := by
  rw [ProductState.resolve, h]
  simp only [hkey, hpending, ProductState.consumeSelection]
  cases conflict.candidates.find? fun item => item.candidateId = selection.selectedCandidateId <;> rfl

/-- A selection of a thread and a run is checked against the active conflict of its key, and else against a projection that stays unbound. -/
theorem validate_bound (sha256 : String → Sha256) (s : ProductState) {selection : PersonalSelection} {threadId runId : String} (hscope : selection.selectionScope = .runScoped)
    (hthread : request.threadId = some threadId) (hrun : request.runId = some runId) :
    s.validateSelection sha256 request selection =
      match s.activeConflicts.get? ⟨request.userId, threadId, runId, selection.conflictId.val⟩ with
      | none => (.error (.product .runBindingInvalid), s)
      | some projection =>
        match ofConflict (validatePersonalSelection selection projection) with
        | .error e => (.error e, s)
        | .ok validated =>
          (.ok (projection, validated),
            { s with pendingSelections := s.pendingSelections.set ⟨request.userId, threadId, runId, validated.conflictId.val⟩ validated }) := by
  rw [ProductState.validateSelection, if_neg (not_not_intro hscope)]
  simp only [hthread, hrun] <;> rfl

/-- Without a thread or a run, nothing is written. -/
theorem validate_unbound (sha256 : String → Sha256) (s : ProductState) {selection : PersonalSelection} (h : request.threadId = none ∨ request.runId = none) :
    (s.validateSelection sha256 request selection).2 = s ∧
      ∀ t : ProductState, (t.validateSelection sha256 request selection).1 = (s.validateSelection sha256 request selection).1 := by
  have hresolve (t : ProductState) : t.resolve sha256 { request with threadId := none, runId := none } =
      (projectionOf sha256 { request with threadId := none, runId := none }, t) := by
    cases hprojection : projectionOf sha256 { request with threadId := none, runId := none } with
    | error e => exact resolve_error hprojection
    | ok projection =>
      refine resolve_unbound hprojection ?_
      rw [bindingKey]
      split
      · rename_i hthread _
        cases hthread
      · rfl
  have hclosed (t : ProductState) : t.validateSelection sha256 request selection =
      (if selection.selectionScope ≠ .runScoped then .error (.product .mustBeRunScoped)
        else do
          let projection ← projectionOf sha256 { request with threadId := none, runId := none }
          let validated ← ofConflict (validatePersonalSelection selection projection)
          return (projection, validated), t) := by
    rw [ProductState.validateSelection]
    split
    · rfl
    · split
      · rename_i hthread hrun
        rcases h with h | h
        · rw [h] at hthread
          cases hthread
        · rw [h] at hrun
          cases hrun
      · rw [hresolve]
        cases projectionOf sha256 { request with threadId := none, runId := none } with
        | error e => rfl
        | ok projection =>
          dsimp only [bind, Except.bind]
          cases ofConflict (validatePersonalSelection selection projection) <;> rfl
  exact ⟨by rw [hclosed], fun t => by rw [hclosed, hclosed]⟩

/-- What was validated is the selection that was given. -/
theorem validated_eq {selection validated : PersonalSelection} (h : ofConflict (validatePersonalSelection selection projection) = .ok validated) :
    validated = selection := by
  have h := ofConflict_eq_ok.mp h
  rw [validatePersonalSelection] at h
  split at h
  · nomatch h
  · split at h
    · nomatch h
    · split at h
      · nomatch h
      · split at h
        · nomatch h
        · exact (Except.ok.inj h).symm

end Methods

/-! ## One step -/

section Steps

variable {s : ProductState} {request : ResolveRequest}

/-- What a resolve does: it answers without a candidate and leaves what waits as it is, or uses what waits under its key. -/
theorem step_resolve (s : ProductState) (request : ResolveRequest) :
    ((s.step sha256 (.resolve request)).2.pendingSelections = s.pendingSelections ∧
        ∀ key, ¬ Spends sha256 key (.resolve request, (s.step sha256 (.resolve request)).1)) ∨
      ∃ key conflict selection, requestBinding sha256 request = some (key, conflict) ∧ s.pendingSelections.get? key = some selection ∧
        (s.step sha256 (.resolve request)).2.pendingSelections = s.pendingSelections.erase key ∧
        (s.step sha256 (.resolve request)).1 =
          match conflict.candidates.find? fun item => item.candidateId = selection.selectedCandidateId with
          | none => .raised .stopIteration
          | some reference => .resolved (selectedProjection selection.selectedCandidateId reference) := by
  cases hprojection : projectionOf sha256 request with
  | error e =>
    have hbinding : requestBinding sha256 request = none := by rw [requestBinding, hprojection]
    have hstep : s.step sha256 (.resolve request) = (.raised e, s) := by rw [ProductState.step, resolve_error hprojection]
    refine .inl ⟨by rw [hstep], fun key h => ?_⟩
    rw [hstep] at h
    cases e with
    | stopIteration =>
      rw [Spends, hbinding] at h
      nomatch h
    | _ => exact h
  | ok projection =>
    have hunselected := unselected_of_projectionOf hprojection
    have hunspent (key : BindingKey) : ¬ Spends sha256 key (.resolve request, .resolved projection) := by
      rintro ⟨hselected, -⟩
      rw [hunselected] at hselected
      nomatch hselected
    cases hkey : bindingKey request projection with
    | none =>
      have hstep : s.step sha256 (.resolve request) = (.resolved projection, s) := by rw [ProductState.step, resolve_unbound hprojection hkey]
      rw [hstep]
      exact .inl ⟨rfl, hunspent⟩
    | some binding =>
      obtain ⟨key, conflict⟩ := binding
      have hbinding : requestBinding sha256 request = some (key, conflict) := by
        rw [requestBinding, hprojection]
        exact hkey
      cases hpending : s.pendingSelections.get? key with
      | none =>
        have hstep : s.step sha256 (.resolve request) = (.resolved projection, activated s key projection) := by
          rw [ProductState.step, resolve_fresh hprojection hkey hpending]
        rw [hstep]
        exact .inl ⟨rfl, hunspent⟩
      | some selection =>
        refine .inr ⟨key, conflict, selection, hbinding, hpending, ?_⟩
        rw [ProductState.step, resolve_pending hprojection hkey hpending]
        cases conflict.candidates.find? fun item => item.candidateId = selection.selectedCandidateId <;> exact ⟨rfl, rfl⟩

/-- What a validation does: it leaves what waits as it is, or makes its selection wait under its key. -/
theorem step_validate (s : ProductState) (request : ResolveRequest) (selection : PersonalSelection) :
    ((s.step sha256 (.validateSelection request selection)).2 = s ∧
        ∀ key, grantOf key (.validateSelection request selection, (s.step sha256 (.validateSelection request selection)).1) = none) ∨
      ∃ key projection, request.threadId = some key.threadId ∧ request.runId = some key.runId ∧ key.userId = request.userId ∧
        key.conflictId = selection.conflictId.val ∧
        s.step sha256 (.validateSelection request selection) =
          (.validated projection selection, { s with pendingSelections := s.pendingSelections.set key selection }) := by
  by_cases hscope : selection.selectionScope = .runScoped
  swap
  · have hstep : s.step sha256 (.validateSelection request selection) = (.raised (.product .mustBeRunScoped), s) := by
      rw [ProductState.step, ProductState.validateSelection, if_pos hscope]
    rw [hstep]
    exact .inl ⟨rfl, fun _ => rfl⟩
  by_cases hunbound : request.threadId = none ∨ request.runId = none
  · have hpair : s.validateSelection sha256 request selection = ((s.validateSelection sha256 request selection).1, s) :=
      Prod.ext rfl (validate_unbound sha256 s hunbound).1
    have hnone (key : BindingKey) (answer : ProductAnswer) : grantOf key (.validateSelection request selection, answer) = none := by
      cases answer with
      | validated projection validated =>
        rw [grantOf]
        rcases hunbound with h | h
        · rw [h]
        · rw [h]
          split <;> simp_all
      | _ => rfl
    refine .inl ⟨?_, fun key => hnone key _⟩
    rw [ProductState.step, hpair]
    cases (s.validateSelection sha256 request selection).1 <;> rfl
  · push Not at hunbound
    obtain ⟨threadId, hthread⟩ := Option.ne_none_iff_exists'.mp hunbound.1
    obtain ⟨runId, hrun⟩ := Option.ne_none_iff_exists'.mp hunbound.2
    have hbound := validate_bound sha256 s hscope hthread hrun
    rw [ProductState.step, hbound]
    cases hactive : s.activeConflicts.get? ⟨request.userId, threadId, runId, selection.conflictId.val⟩ with
    | none => exact .inl ⟨rfl, fun _ => rfl⟩
    | some projection =>
      cases hvalidated : ofConflict (validatePersonalSelection selection projection) with
      | error e =>
        simp only [hvalidated]
        exact .inl ⟨trivial, fun _ => rfl⟩
      | ok validated =>
        obtain rfl := validated_eq hvalidated
        simp only [hvalidated]
        exact .inr ⟨⟨request.userId, threadId, runId, validated.conflictId.val⟩, projection, hthread, hrun, rfl, rfl, rfl⟩

/-- What waits under a key after a call. -/
theorem pending_step (s : ProductState) (call : ProductCall) (key : BindingKey) :
    (s.step sha256 call).2.pendingSelections.get? key =
      outstandingStep (grantOf key) (Spends sha256 key) (s.pendingSelections.get? key) (call, (s.step sha256 call).1) := by
  cases call with
  | resolve request =>
    rcases step_resolve sha256 s request with ⟨hpending, hunspent⟩ | ⟨key', conflict, selection, hbinding, -, hpending, hanswer⟩
    · rw [hpending, outstandingStep_keep rfl (hunspent key)]
    · have hspends : Spends sha256 key (.resolve request, (s.step sha256 (.resolve request)).1) ↔ key' = key := by
        rw [hanswer]
        cases conflict.candidates.find? fun item => item.candidateId = selection.selectedCandidateId with
        | none =>
          change (requestBinding sha256 request).map (·.1) = some key ↔ _
          rw [hbinding, Option.map_some, Option.some.injEq]
        | some reference =>
          change (true = true ∧ (requestBinding sha256 request).map (·.1) = some key) ↔ _
          rw [hbinding, Option.map_some, Option.some.injEq]
          exact ⟨fun h => h.2, fun h => ⟨rfl, h⟩⟩
      rw [hpending, Dict.get?_erase]
      by_cases hkey : key' = key
      · rw [if_pos hkey, outstandingStep_spend rfl (hspends.mpr hkey)]
      · rw [if_neg hkey, outstandingStep_keep rfl (mt hspends.mp hkey)]
  | validateSelection request selection =>
    rcases step_validate sha256 s request selection with ⟨hstate, hgrant⟩ | ⟨key', projection, hthread, hrun, huser, hconflict, hstep⟩
    · rw [hstate, outstandingStep_keep (hgrant key) id]
    · rw [hstep, Dict.get?_set]
      have hgrant : grantOf key (.validateSelection request selection, .validated projection selection) =
          if key' = key then some selection else none := by
        obtain ⟨userId, threadId, runId, conflictId⟩ := key'
        subst huser hconflict
        rw [grantOf, hthread, hrun]
      by_cases hkey : key' = key
      · rw [if_pos hkey] at hgrant ⊢
        rw [outstandingStep_grant hgrant]
      · rw [if_neg hkey] at hgrant ⊢
        rw [outstandingStep_keep hgrant id]
  | consumeSelection key' =>
    rw [ProductState.step, ProductState.consumeSelection]
    cases hpending : s.pendingSelections.get? key' with
    | none => exact (outstandingStep_keep rfl id).symm
    | some selection =>
      change (s.pendingSelections.erase key').get? key = _
      rw [Dict.get?_erase]
      by_cases hkey : key' = key
      · rw [if_pos hkey]
        symm
        exact outstandingStep_spend rfl hkey
      · rw [if_neg hkey]
        symm
        exact outstandingStep_keep rfl hkey

/-- What a call uses waits under the key it is used for. -/
theorem pending_of_spends {call : ProductCall} {key : BindingKey} (h : Spends sha256 key (call, (s.step sha256 call).1)) :
    ∃ selection, s.pendingSelections.get? key = some selection := by
  cases call with
  | resolve request =>
    rcases step_resolve sha256 s request with ⟨-, hunspent⟩ | ⟨key', conflict, selection, hbinding, hpending, -, hanswer⟩
    · exact absurd h (hunspent key)
    · refine ⟨selection, ?_⟩
      have hkey : (requestBinding sha256 request).map (·.1) = some key := by
        rw [hanswer] at h
        cases hfind : conflict.candidates.find? fun item => item.candidateId = selection.selectedCandidateId with
        | none =>
          rw [hfind] at h
          exact h
        | some reference =>
          rw [hfind] at h
          exact h.2
      rw [hbinding] at hkey
      exact Option.some.inj hkey ▸ hpending
  | validateSelection request selection => exact h.elim
  | consumeSelection key' =>
    rw [ProductState.step, ProductState.consumeSelection] at h
    cases hpending : s.pendingSelections.get? key' with
    | none =>
      rw [hpending] at h
      exact h.elim
    | some selection =>
      rw [hpending] at h
      have hkey : key' = key := h
      exact ⟨selection, hkey ▸ hpending⟩

end Steps

/-! ## Runs -/

section Runs

/-- The calls of a run with their answers. -/
def eventsOf (calls : List ProductCall) : List ProductEvent := answersOf (ProductState.step sha256) .initial calls

/-- The state after a run. -/
def stateOf (calls : List ProductCall) : ProductState := Py.stateAfter (ProductState.step sha256) .initial calls

theorem eventsOf_snoc (calls : List ProductCall) (call : ProductCall) :
    eventsOf sha256 (calls ++ [call]) = eventsOf sha256 calls ++ [(call, ((stateOf sha256 calls).step sha256 call).1)] :=
  answersOf_append _ _ _ _

/-- What waits under a key after a run was validated for it and is not used since. -/
theorem pending_run (calls : List ProductCall) (key : BindingKey) :
    (stateOf sha256 calls).pendingSelections.get? key = outstanding (grantOf key) (Spends sha256 key) (eventsOf sha256 calls) := by
  induction calls using List.reverseRecOn with
  | nil => rfl
  | append_singleton calls call ih =>
    rw [eventsOf_snoc, outstanding_snoc, ← ih, stateOf, stateAfter_snoc]
    exact pending_step sha256 (stateOf sha256 calls) call key

/-- An event of a run comes from a step of it. -/
theorem event_of_run {calls : List ProductCall} {before after : List ProductEvent} {event : ProductEvent}
    (h : eventsOf sha256 calls = before ++ event :: after) :
    ∃ earlier call later, calls = earlier ++ call :: later ∧ eventsOf sha256 earlier = before ∧
      event = (call, ((stateOf sha256 earlier).step sha256 call).1) := by
  induction calls using List.reverseRecOn generalizing after with
  | nil =>
    have hlength := congrArg List.length h
    simp [eventsOf, answersOf] at hlength
  | append_singleton calls call ih =>
    rw [eventsOf_snoc] at h
    rcases List.eq_nil_or_concat after with rfl | ⟨after', last, rfl⟩
    · obtain ⟨hbefore, hevent⟩ := List.append_inj' h rfl
      exact ⟨calls, call, [], rfl, hbefore, (List.cons.inj hevent).1.symm⟩
    · rw [List.concat_eq_append, ← List.cons_append, ← List.append_assoc] at h
      obtain ⟨hbefore, -⟩ := List.append_inj' h rfl
      obtain ⟨earlier, first, later, rfl, hearlier, hevent⟩ := ih hbefore
      exact ⟨earlier, first, later ++ [call], by rw [List.append_assoc, List.cons_append], hearlier, hevent⟩

end Runs

/-! ## Separation -/

/-- A user, a thread and a run. -/
abbrev ProductScope : Type := String × Option String × Option String

/-- Whose call it is. -/
def scopeOf : ProductCall → ProductScope
  | .resolve request => (request.userId, request.threadId, request.runId)
  | .validateSelection request _ => (request.userId, request.threadId, request.runId)
  | .consumeSelection key => (key.userId, some key.threadId, some key.runId)

/-- A key of a user, a thread and a run. -/
def Owns (scope : ProductScope) (key : BindingKey) : Prop := scope = (key.userId, some key.threadId, some key.runId)

instance (scope : ProductScope) (key : BindingKey) : Decidable (Owns scope key) := inferInstanceAs (Decidable (_ = _))

/-- What the service keeps under a key. -/
def keptAt (s : ProductState) (key : BindingKey) : Option PersonalConflictProjection × Option PersonalSelection :=
  (s.activeConflicts.get? key, s.pendingSelections.get? key)

section Separation

theorem keptAt_activated (s : ProductState) (key other : BindingKey) (projection : PersonalConflictProjection) :
    keptAt (activated s key projection) other = if key = other then (some projection, s.pendingSelections.get? key) else keptAt s other := by
  rw [keptAt, activated, Dict.get?_set]
  by_cases hkey : key = other
  · rw [if_pos hkey, if_pos hkey, hkey]
  · rw [if_neg hkey, if_neg hkey]
    rfl

theorem keptAt_same {s : ProductState} {key : BindingKey} {kept : Option PersonalConflictProjection × Option PersonalSelection}
    (h : keptAt s key = kept) (other : BindingKey) : keptAt s other = if key = other then kept else keptAt s other := by
  split
  · rename_i hkey
    rw [← hkey, h]
  · rfl

theorem keptAt_spent (s : ProductState) (key other : BindingKey) :
    keptAt (spent s key) other = if key = other then (none, none) else keptAt s other := by
  rw [keptAt, spent, Dict.get?_erase, Dict.get?_erase]
  by_cases hkey : key = other
  · rw [if_pos hkey, if_pos hkey, if_pos hkey]
  · rw [if_neg hkey, if_neg hkey, if_neg hkey]
    rfl

/-- A resolve acts under the key of its conflict. -/
theorem acts_resolve (request : ResolveRequest) : ActsNowhere (ProductState.step sha256) (.resolve request) ∨
    ∃ key, Owns (scopeOf (.resolve request)) key ∧ ActsAt (ProductState.step sha256) keptAt (.resolve request) key := by
  cases hprojection : projectionOf sha256 request with
  | error e => exact .inl ⟨.raised e, fun s => by rw [ProductState.step, resolve_error hprojection]⟩
  | ok projection =>
    cases hkey : bindingKey request projection with
    | none => exact .inl ⟨.resolved projection, fun s => by rw [ProductState.step, resolve_unbound hprojection hkey]⟩
    | some binding =>
      obtain ⟨key, conflict⟩ := binding
      obtain ⟨-, hthread, hrun, huser, -⟩ := bindingKey_eq_some hkey
      refine .inr ⟨key, by rw [Owns, scopeOf, hthread, hrun, huser], fun kept =>
        kept.2.elim (.resolved projection, (some projection, none)) fun selection =>
          ((conflict.candidates.find? fun item => item.candidateId = selection.selectedCandidateId).elim (.raised .stopIteration)
            fun reference => .resolved (selectedProjection selection.selectedCandidateId reference), (none, none)), fun s => ?_⟩
      rw [ProductState.step, keptAt]
      cases hpending : s.pendingSelections.get? key with
      | none =>
        rw [resolve_fresh hprojection hkey hpending]
        refine ⟨rfl, fun other => ?_⟩
        rw [keptAt_activated, hpending]
        rfl
      | some selection =>
        rw [resolve_pending hprojection hkey hpending]
        have hspent (other : BindingKey) :
            keptAt (spent (activated s key projection) key) other = if key = other then (none, none) else keptAt s other := by
          rw [keptAt_spent, keptAt_activated]
          split <;> rfl
        cases hfind : conflict.candidates.find? fun item => item.candidateId = selection.selectedCandidateId with
        | none =>
          simp only [hfind, Option.elim_some, Option.elim_none]
          exact ⟨trivial, hspent⟩
        | some reference =>
          simp only [hfind, Option.elim_some]
          exact ⟨trivial, hspent⟩

/-- A validation acts under the key of its selection. -/
theorem acts_validate (request : ResolveRequest) (selection : PersonalSelection) :
    ActsNowhere (ProductState.step sha256) (.validateSelection request selection) ∨
      ∃ key, Owns (scopeOf (.validateSelection request selection)) key ∧
        ActsAt (ProductState.step sha256) keptAt (.validateSelection request selection) key := by
  by_cases hscope : selection.selectionScope = .runScoped
  swap
  · exact .inl ⟨.raised (.product .mustBeRunScoped), fun s => by rw [ProductState.step, ProductState.validateSelection, if_pos hscope]⟩
  by_cases hunbound : request.threadId = none ∨ request.runId = none
  · refine .inl ⟨((ProductState.initial).step sha256 (.validateSelection request selection)).1, fun s => ?_⟩
    have hpair (t : ProductState) : t.validateSelection sha256 request selection =
        ((ProductState.initial.validateSelection sha256 request selection).1, t) :=
      Prod.ext ((validate_unbound sha256 .initial hunbound).2 t) (validate_unbound sha256 t hunbound).1
    rw [ProductState.step, ProductState.step, hpair s]
    rw [hpair .initial]
    cases (ProductState.initial.validateSelection sha256 request selection).1 <;> rfl
  · push Not at hunbound
    obtain ⟨threadId, hthread⟩ := Option.ne_none_iff_exists'.mp hunbound.1
    obtain ⟨runId, hrun⟩ := Option.ne_none_iff_exists'.mp hunbound.2
    refine .inr ⟨⟨request.userId, threadId, runId, selection.conflictId.val⟩, by rw [Owns, scopeOf, hthread, hrun], fun kept =>
      match kept.1 with
      | none => (.raised (.product .runBindingInvalid), kept)
      | some projection =>
        match ofConflict (validatePersonalSelection selection projection) with
        | .error e => (.raised e, kept)
        | .ok validated => (.validated projection validated, (kept.1, some validated)), fun s => ?_⟩
    rw [ProductState.step, validate_bound sha256 s hscope hthread hrun, keptAt]
    cases hactive : s.activeConflicts.get? ⟨request.userId, threadId, runId, selection.conflictId.val⟩ with
    | none => exact ⟨rfl, keptAt_same (by rw [keptAt, hactive])⟩
    | some projection =>
      cases hvalidated : ofConflict (validatePersonalSelection selection projection) with
      | error e =>
        simp only [hvalidated]
        exact ⟨trivial, keptAt_same (by rw [keptAt, hactive])⟩
      | ok validated =>
        obtain rfl := validated_eq hvalidated
        simp only [hvalidated]
        refine ⟨trivial, fun other => ?_⟩
        rw [keptAt, Dict.get?_set]
        split
        · rename_i hkey
          rw [← hkey, hactive]
        · rfl

/-- A consumption acts under its key. -/
theorem acts_consume (key : BindingKey) : ActsAt (ProductState.step sha256) keptAt (.consumeSelection key) key := by
  refine ⟨fun kept => kept.2.elim (.raised (.product .notPending), kept) fun selection => (.consumed selection, (none, none)),
    fun s => ?_⟩
  rw [ProductState.step, ProductState.consumeSelection, keptAt]
  cases hpending : s.pendingSelections.get? key with
  | none =>
    have hkept : keptAt s key = (s.activeConflicts.get? key, none) := by rw [keptAt, hpending]
    exact ⟨rfl, keptAt_same hkept⟩
  | some selection => exact ⟨rfl, keptAt_spent s key⟩

/-- The calls of one user, thread and run are separated from all others. -/
theorem separated : Separated (ProductState.step sha256) scopeOf fun scope s key => if Owns scope key then some (keptAt s key) else none := by
  refine separated_of_acts _ (fun scope scope' key h h' => h.trans h'.symm) fun call => ?_
  cases call with
  | resolve request => exact acts_resolve sha256 request
  | validateSelection request selection => exact acts_validate sha256 request selection
  | consumeSelection key => exact .inr ⟨key, rfl, acts_consume sha256 key⟩

end Separation

/-! ## The protocol -/

section Protocol

/-- A resolve that returns a candidate uses what waits under its key. -/
theorem selected_of_step {s : ProductState} {request : ResolveRequest} {projection : PersonalConflictProjection}
    {candidateId : BoundedText 1 128} (h : (s.step sha256 (.resolve request)).1 = .resolved projection)
    (hselected : projection.selectedCandidateId = some candidateId) :
    ∃ key conflict selection, requestBinding sha256 request = some (key, conflict) ∧ s.pendingSelections.get? key = some selection ∧
      selection.selectedCandidateId = candidateId ∧ ∃ reference ∈ conflict.candidates, reference.candidateId = candidateId ∧
        projection.selectedDefinitionId = some reference.definitionId ∧ projection.selectedVersion = some reference.definitionVersion := by
  rcases step_resolve sha256 s request with ⟨-, hunspent⟩ | ⟨key, conflict, selection, hbinding, hpending, -, hanswer⟩
  · cases hbinding : requestBinding sha256 request with
    | none =>
      exfalso
      cases hprojection : projectionOf sha256 request with
      | error e =>
        rw [ProductState.step, resolve_error hprojection] at h
        nomatch h
      | ok current =>
        rw [requestBinding, hprojection] at hbinding
        rw [ProductState.step, resolve_unbound hprojection hbinding] at h
        rw [← ProductAnswer.resolved.inj h, unselected_of_projectionOf hprojection] at hselected
        nomatch hselected
    | some binding =>
      refine absurd ?_ (hunspent binding.1)
      rw [h]
      exact ⟨by rw [hselected]; rfl, by rw [hbinding]; rfl⟩
  · rw [h] at hanswer
    cases hfind : conflict.candidates.find? fun item => item.candidateId = selection.selectedCandidateId with
    | none =>
      rw [hfind] at hanswer
      nomatch hanswer
    | some reference =>
      rw [hfind] at hanswer
      have hreference : reference.candidateId = selection.selectedCandidateId := by simpa using List.find?_some hfind
      rw [ProductAnswer.resolved.inj hanswer] at hselected ⊢
      have hid : selection.selectedCandidateId = candidateId := Option.some.inj hselected
      exact ⟨key, conflict, selection, hbinding, hpending, hid, reference, List.mem_of_find?_eq_some hfind, hreference.trans hid, rfl, rfl⟩

/-- A binding is of the request's own user, thread and run, and of the conflict of its candidates at that moment. -/
theorem requestBinding_eq_some {request : ResolveRequest} {key : BindingKey} {conflict : SemanticConflict}
    (h : requestBinding sha256 request = some (key, conflict)) :
    ∃ current, projectionOf sha256 request = .ok current ∧ current.semanticConflict = some conflict ∧
      request.threadId = some key.threadId ∧ request.runId = some key.runId ∧ key.userId = request.userId ∧
      key.conflictId = conflict.conflictId.val := by
  cases hprojection : projectionOf sha256 request with
  | error e =>
    rw [requestBinding, hprojection] at h
    nomatch h
  | ok current =>
    rw [requestBinding, hprojection] at h
    exact ⟨current, rfl, bindingKey_eq_some h⟩

/-- A selection was validated under a key, and neither used nor replaced since. -/
def ValidatedUnused (events : List ProductEvent) (key : BindingKey) (selection : PersonalSelection) : Prop :=
  ∃ before event after, events = before ++ event :: after ∧ grantOf key event = some selection ∧
    ∀ e ∈ after, grantOf key e = none ∧ ¬ Spends sha256 key e

/-- The protocol of the service over a run from its start. -/
structure SelectionLaw (calls : List ProductCall) : Prop where
  /-- a resolve returns a candidate only if a selection of it was validated for its user, thread, run and conflict, and is unused -/
  selected_validated : ∀ request projection candidateId, ((stateOf sha256 calls).step sha256 (.resolve request)).1 = .resolved projection →
    projection.selectedCandidateId = some candidateId → ∃ key conflict current selection,
      projectionOf sha256 request = .ok current ∧ current.semanticConflict = some conflict ∧ key.userId = request.userId ∧
      request.threadId = some key.threadId ∧ request.runId = some key.runId ∧ key.conflictId = conflict.conflictId.val ∧
      ValidatedUnused sha256 (eventsOf sha256 calls) key selection ∧ selection.selectedCandidateId = candidateId ∧
      ∃ reference ∈ conflict.candidates, reference.candidateId = candidateId ∧
        projection.selectedDefinitionId = some reference.definitionId ∧ projection.selectedVersion = some reference.definitionVersion
  /-- a consumption returns a selection only if it was validated under its key, and is unused -/
  consumed_validated : ∀ key selection, ((stateOf sha256 calls).step sha256 (.consumeSelection key)).1 = .consumed selection →
    ValidatedUnused sha256 (eventsOf sha256 calls) key selection
  /-- between two uses under a key, a selection was validated for it -/
  used_once : ∀ key before first between second after,
    eventsOf sha256 calls = before ++ first :: (between ++ second :: after) → Spends sha256 key first → Spends sha256 key second →
    ∃ e ∈ between, (grantOf key e).isSome = true
  /-- the calls of a user, thread and run are answered as if there were no others -/
  isolated : ∀ scope, (eventsOf sha256 calls).filter (fun event => scopeOf event.1 = scope) =
    eventsOf sha256 (calls.filter fun call => scopeOf call = scope)

/-- Selections are used where they were validated and once, of the candidates at that moment, and the sessions do not see each other. -/
theorem selection_protocol (calls : List ProductCall) : SelectionLaw sha256 calls where
  selected_validated request projection candidateId h hselected := by
    obtain ⟨key, conflict, selection, hbinding, hpending, hid, hreference⟩ := selected_of_step sha256 h hselected
    obtain ⟨current, hcurrent, hconflict, hthread, hrun, huser, hconflictId⟩ := requestBinding_eq_some sha256 hbinding
    rw [pending_run] at hpending
    exact ⟨key, conflict, current, selection, hcurrent, hconflict, huser, hthread, hrun, hconflictId,
      outstanding_eq_some _ _ hpending, hid, hreference⟩
  consumed_validated key selection h := by
    rw [ProductState.step, ProductState.consumeSelection] at h
    cases hpending : (stateOf sha256 calls).pendingSelections.get? key with
    | none =>
      rw [hpending] at h
      nomatch h
    | some waiting =>
      rw [hpending] at h
      rw [pending_run, ProductAnswer.consumed.inj h] at hpending
      exact outstanding_eq_some _ _ hpending
  used_once key before first between second after h hfirst hsecond := by
    have hsplit : eventsOf sha256 calls = (before ++ first :: between) ++ second :: after := by
      rw [h, List.append_assoc, List.cons_append]
    obtain ⟨earlier, call, later, -, hearlier, rfl⟩ := event_of_run sha256 hsplit
    obtain ⟨selection, hpending⟩ := pending_of_spends sha256 hsecond
    rw [pending_run, hearlier] at hpending
    have hgrant : grantOf key first = none := by
      obtain ⟨call, answer⟩ := first
      cases call with
      | validateSelection request selection => exact hfirst.elim
      | _ => rfl
    exact exists_grant_between _ _ hfirst hgrant hpending
  isolated scope := (separated sha256).answersOf_filter _ scope calls rfl

end Protocol

end Nl2Sql.Personal
