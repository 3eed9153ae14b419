import Nl2Sql.Engine.Actions
import Nl2Sql.Lib.Sessions
import Nl2Sql.Theorems.Isolation

/-!
# Approvals, and what a run is bound to

A run that waits for an approval is decided by the first action that is applied: every later action under the same key is answered from the
ledger, and every other one is refused. What a run was bound to when it was received is never written again.
-/

namespace Nl2Sql

open Py Engine

/-- An answer that says an action is applied, now or before. -/
def ActionAnswer.applies : ActionAnswer → Bool
  | .applied _ _ _ => true
  | _ => false

/-- The actions of a sequence on a thread, each with its answer. -/
def Engine.approvals {D : EngineDigests} (E : Engine D) (thread : Thread D) (actions : List (ApprovalAction × Invocation D)) :
    List ((ApprovalAction × Invocation D) × ActionAnswer) :=
  answersOf (fun thread action => E.approvalAction thread action.1 action.2) thread actions

namespace ApprovalAux

variable {D : EngineDigests} {E : Engine D} {config : RunConfig} {a : Answers D.toCalculationDigests}
  {w : WorkChannels D.toCalculationDigests}

/-! ## Asking -/

/-- The channels of an approval that was asked for and not decided. -/
structure Asked (h : HitlChannels) (w : WorkChannels D.toCalculationDigests) : Prop where
  version : h.hitlVersion = some 1
  unapplied : h.appliedActions = Dict.empty
  status : w.hitlStatus = some "awaiting_action"

/-- The model node writes the channels of an approval only to ask for it. -/
theorem asked_model {b now elapsed answer} {r : ModelResult D} (h : (E.model config b now elapsed answer w).result = .ok r) :
    ∀ written, r.2 = some written → Asked written r.1 := by
  unfold model at h
  split at h
  · nomatch h
  · cases h
    nofun
  · change E.modelReturned config _ _ answer w = .ok r at h
    unfold modelReturned at h
    split at h
    · unfold modelAnswered at h
      obtain ⟨⟨stop, ledger⟩, -, h⟩ := bind_eq_ok.mp h
      dsimp only at h
      split at h
      · obtain ⟨w', -, h⟩ := bind_eq_ok.mp h
        cases h
        nofun
      · obtain ⟨w', -, h⟩ := bind_eq_ok.mp h
        split at h
        · cases h
          rintro _ ⟨⟩
          exact ⟨rfl, rfl, rfl⟩
        · cases h
          nofun
    · nomatch h
    · obtain ⟨⟨stop, ledger⟩, -, h⟩ := bind_eq_ok.mp h
      obtain ⟨w', -, h⟩ := bind_eq_ok.mp h
      cases h
      nofun
    · split at h
      · nomatch h
      · obtain ⟨⟨stop, ledger⟩, -, h⟩ := bind_eq_ok.mp h
        obtain ⟨w', -, h⟩ := bind_eq_ok.mp h
        cases h
        nofun

/-- Where a run stands: no approval is asked for before the model, and one is asked for at the approval node. -/
structure Stands (node : Node) (s : V2EngineState D.toCalculationDigests) : Prop where
  unasked : IsolationAux.beforeModel node = true → s.work.needsHitl = false
  asked : node = .hitl → Asked s.hitl s.work

theorem stands_moves {s received runtime node s' runtime' next} (h : Stands node s)
    (hm : Moves E config a s received runtime node s' runtime' (some next)) : Stands next s' := by
  refine ⟨IsolationAux.unasked_moves h.unasked hm, ?_⟩
  rintro rfl
  have hmem := next_mem_successors hm
  cases hm with
  | model hr hnext =>
    unfold afterModel at hnext
    split at hnext
    · rename_i hneeds
      rcases (frame_model hr).approval hneeds with hbefore | hsome
      · exact absurd ((h.unasked rfl).symm.trans hbefore) (by decide)
      · obtain ⟨written, hwritten⟩ := Option.ne_none_iff_exists'.mp hsome
        have hasked := asked_model hr written hwritten
        simp only at hwritten
        rw [hwritten]
        exact hasked
    · nomatch hnext
  | _ => simp [successors] at hmem

theorem rule (E : Engine D) : RunRule E (fun _ => Stands) fun _ => True where
  holds _ _ _ _ := trivial
  moves _ _ _ _ _ _ _ h ho := stands_moves h (moves_of_step ho)
  suspends _ _ _ _ _ h _ := h
  steps _ _ _ _ _ := trivial

/-- A thread that waits at the approval node has received nothing there yet. -/
def Fresh (thread : Thread D) : Prop := ∀ received prompt, thread.status = .suspended .hitl received prompt → received = []

theorem fresh_runFrom (answers : List (Answers D.toCalculationDigests)) (c : Cursor D) : Fresh (E.runFrom config answers c).2 := by
  induction answers generalizing c with
  | nil => exact fun _ _ h => by cases h
  | cons a rest ih =>
    cases ho : (E.step config a c).outcome with
    | suspended prompt =>
      simp only [Engine.runFrom, ho]
      rintro received prompt' h
      obtain ⟨hnode, rfl, -⟩ := Status.suspended.inj h
      rcases suspends_of_step ho with ⟨-, hvisit⟩ | ⟨hdecision, -⟩
      · unfold hitlVisit at hvisit
        split at hvisit
        · assumption
        · cases hhitl : E.hitl _ c.values.hitl c.values.work <;> rw [hhitl] at hvisit <;> cases hvisit
      · cases hnode.symm.trans hdecision
    | failed e =>
      simp only [Engine.runFrom, ho]
      exact fun _ _ h => by cases h
    | moved s runtime next =>
      cases next with
      | none =>
        simp only [Engine.runFrom, ho]
        exact fun _ _ h => by cases h
      | some node =>
        simp only [Engine.runFrom, ho]
        exact ih _

theorem fresh_runOn (thread : Thread D) (run : Run D) : Fresh (E.runOn thread run).2 := by
  have hresumes (list : List (Json × Invocation D)) (thread : Thread D) (h : Fresh thread) : Fresh (E.resumes thread list).2 := by
    induction list generalizing thread with
    | nil => exact h
    | cons next rest ih =>
      refine ih _ ?_
      unfold Engine.resume
      split
      · exact fresh_runFrom _ _
      · exact h
  exact hresumes run.resumes _ (fresh_runFrom _ _)

/-! ## Applying -/

/-- The payload of an action applies it, or says why not. -/
theorem hitl_payload {h : HitlChannels} (hasked : Asked h w) {body : ApprovalAction} (hversion : body.expectedVersion = 1) :
    ∃ r, E.hitl body.payload h w = .ok r ∧
      ((∃ status, actionStatus? body.action = some status ∧ r.2.hitlStatus = some status ∧
          r.1 = ⟨some 2, Dict.empty.set body.idempotencyKey.val ⟨status, 2⟩⟩) ∨
        r.1.appliedActions = Dict.empty ∧ r.2.hitlStatus ∈ [some "unsupported_action", some "authorization_run_binding_mismatch"]) := by
  have hkey : body.idempotencyKey.val ≠ "" := by
    intro hempty
    have hlength := body.idempotencyKey.property.1
    rw [hempty] at hlength
    exact absurd hlength (by decide)
  obtain ⟨members, hpayload, haction, hidempotency, hexpected, hauthorization⟩ : ∃ members, body.payload = .obj members ∧
      Json.member? "action" members = some (.str body.action) ∧
      Json.member? "idempotency_key" members = some (.str body.idempotencyKey.val) ∧
      Json.member? "expected_version" members = some (.int body.expectedVersion) ∧
      Json.member? "authorization_context" members = none := ⟨_, rfl, rfl, rfl, rfl, rfl⟩
  have hvalid : approvalKey members h w = if authorizationRunBindingFailure w none then
      .error (failedAction h { w with stopReason := some "authorization_run_binding_mismatch" } 1 "authorization_run_binding_mismatch")
      else .ok body.idempotencyKey.val := by
    unfold approvalKey
    simp only [hidempotency, hkey, hexpected, hauthorization, hasked.version, hversion, Option.getD_some, if_false]
    rfl
  rw [hpayload]
  unfold hitl payloadAction
  simp only [haction]
  cases hstatus : actionStatus? body.action with
  | none =>
    refine ⟨failedAction h w (h.hitlVersion.getD 1) "unsupported_action", bind_eq_ok.mpr ⟨_, rfl, ?_⟩, .inr ⟨hasked.unapplied, ?_⟩⟩
    · simp only [hstatus]
      rfl
    · exact List.mem_cons_self
  | some status =>
    by_cases hbound : authorizationRunBindingFailure w none = true
    · rw [if_pos hbound] at hvalid
      refine ⟨failedAction h { w with stopReason := some "authorization_run_binding_mismatch" } 1 "authorization_run_binding_mismatch",
        bind_eq_ok.mpr ⟨_, rfl, ?_⟩, .inr ⟨hasked.unapplied, List.mem_cons_of_mem _ List.mem_cons_self⟩⟩
      simp only [hstatus, hvalid]
      rfl
    · rw [if_neg hbound] at hvalid
      refine ⟨E.applyAction members body.action status body.idempotencyKey.val h w, bind_eq_ok.mpr ⟨_, rfl, ?_⟩, .inl ⟨status, rfl, ?_⟩⟩
      · simp only [hstatus, hvalid]
        rfl
      · unfold applyAction
        simp only [hasked.version, hasked.unapplied]
        exact ⟨rfl, rfl⟩

/-! ## Sequences of actions -/

/-- A thread where nothing was applied, and which no action resumes any more. -/
structure Closed (thread : Thread D) : Prop where
  unapplied : thread.values.hitl.appliedActions = Dict.empty
  idle : thread.values.work.hitlStatus ≠ some "awaiting_action" ∨ ∃ node, thread.status = .cut node

theorem resume_cut {thread : Thread D} {node : Node} (h : thread.status = .cut node) (payload : Json) (invocation : Invocation D) :
    E.resume thread payload invocation = ([], thread) := by
  unfold Engine.resume
  simp only [h]

/-- A closed thread applies nothing and stays as it is. -/
theorem Closed.action {thread : Thread D} (h : Closed thread) (body : ApprovalAction) (invocation : Invocation D) :
    (E.approvalAction thread body invocation).1.applies = false ∧ (E.approvalAction thread body invocation).2 = thread := by
  have hget : thread.values.hitl.appliedActions.get? body.idempotencyKey.val = none := by
    rw [h.unapplied]
    rfl
  unfold approvalAction
  simp only [hget]
  split
  · exact ⟨rfl, rfl⟩
  split
  · exact ⟨rfl, rfl⟩
  rcases h.idle with hidle | ⟨node, hcut⟩
  · contradiction
  · rw [resume_cut hcut]
    unfold answerFrom
    simp only [hcut]
    exact ⟨rfl, trivial⟩

/-- Nothing is applied on a closed thread. -/
theorem Closed.approvals {thread : Thread D} (h : Closed thread) (actions : List (ApprovalAction × Invocation D)) :
    ∀ event ∈ E.approvals thread actions, event.2.applies = false := by
  induction actions with
  | nil => exact fun _ h => absurd h List.not_mem_nil
  | cons action actions ih =>
    obtain ⟨hanswer, hthread⟩ := h.action (E := E) action.1 action.2
    refine List.forall_mem_cons.mpr ⟨hanswer, ?_⟩
    rw [hthread]
    exact ih

/-- A thread whose approval was decided by the action under a key. -/
structure Decided (thread : Thread D) (key status : String) : Prop where
  applied : thread.values.hitl.appliedActions = Dict.empty.set key ⟨status, 2⟩
  idle : thread.values.work.hitlStatus ≠ some "awaiting_action"

/-- A decided thread answers its key from the ledger, refuses every other, and stays as it is. -/
theorem Decided.action {thread : Thread D} {key status : String} (h : Decided thread key status) (body : ApprovalAction)
    (invocation : Invocation D) : E.approvalAction thread body invocation =
      (if body.idempotencyKey.val = key then .applied status 2 true else .http 409 "thread is not awaiting an action", thread) := by
  unfold approvalAction
  rw [h.applied]
  by_cases hkey : body.idempotencyKey.val = key
  · rw [hkey, Dict.get?_set_self, if_pos rfl]
  · rw [Dict.get?_set_of_ne _ _ (Ne.symm hkey), if_neg hkey]
    exact if_pos h.idle

/-- Every action on a decided thread is answered from the ledger or refused. -/
theorem Decided.approvals {thread : Thread D} {key status : String} (h : Decided thread key status)
    (actions : List (ApprovalAction × Invocation D)) : ∀ event ∈ E.approvals thread actions,
      event.2 = if event.1.1.idempotencyKey.val = key then .applied status 2 true else .http 409 "thread is not awaiting an action" := by
  induction actions with
  | nil => exact fun _ h => absurd h List.not_mem_nil
  | cons action actions ih =>
    have haction := h.action (E := E) action.1 action.2
    refine List.forall_mem_cons.mpr ⟨congrArg Prod.fst haction, ?_⟩
    change ∀ event ∈ E.approvals (E.approvalAction thread action.1 action.2).2 actions, _
    rw [haction]
    exact ih

/-- A thread that waits for an approval, resumed with a payload that the approval node reads. -/
theorem resume_asked {thread : Thread D} {prompt : Prompt} (hstatus : thread.status = .suspended .hitl [] prompt) {payload : Json} {r}
    (hr : E.hitl payload thread.values.hitl thread.values.work = .ok r) (invocation : Invocation D) :
    (E.resume thread payload invocation).2 = ⟨thread.values, .cut .hitl⟩ ∨
      (E.resume thread payload invocation).2 = ⟨{ thread.values with hitl := r.1, work := r.2 }, .ended⟩ := by
  unfold Engine.resume
  simp only [hstatus, List.nil_append]
  cases invocation.answers with
  | nil => exact .inl rfl
  | cons a rest =>
    have hvisit : E.hitlVisit [payload] thread.values.hitl thread.values.work = .ok (.returned r) := by
      simp only [hitlVisit, hr]
      rfl
    have hstep : (E.step invocation.config a ⟨.hitl, thread.values, [payload], none⟩).outcome =
        .moved { thread.values with hitl := r.1, work := r.2 } none none := by
      simp only [Engine.step, hvisit]
      rfl
    simp only [Engine.runFrom, hstep]
    exact .inr trivial

theorem ne_awaiting {action status : String} (h : actionStatus? action = some status) :
    status ∈ ["approved", "modified", "rejected", "cancelled"] ∧ status ≠ "awaiting_action" := by
  unfold actionStatus? at h
  split at h <;> cases h <;> decide

/-- The first action on a thread that waits: it is refused, closes the thread, or decides it. -/
theorem asked_action {thread : Thread D} {prompt : Prompt} (hasked : Asked thread.values.hitl thread.values.work)
    (hstatus : thread.status = .suspended .hitl [] prompt) (body : ApprovalAction) (invocation : Invocation D) :
    ((E.approvalAction thread body invocation).1.applies = false ∧
      ((E.approvalAction thread body invocation).2 = thread ∨ Closed (E.approvalAction thread body invocation).2)) ∨
    ∃ status, actionStatus? body.action = some status ∧ body.expectedVersion = 1 ∧
      (E.approvalAction thread body invocation).1 = .applied status 2 false ∧
      Decided (E.approvalAction thread body invocation).2 body.idempotencyKey.val status := by
  have hget : thread.values.hitl.appliedActions.get? body.idempotencyKey.val = none := by
    rw [hasked.unapplied]
    rfl
  unfold approvalAction
  simp only [hget, hasked.status, hasked.version]
  rw [if_neg (not_not.mpr rfl)]
  by_cases hversion : body.expectedVersion = 1
  · rw [if_neg (not_not.mpr (congrArg some hversion.symm))]
    obtain ⟨r, hr, hcases⟩ := hitl_payload (E := E) hasked hversion
    unfold answerFrom
    rcases resume_asked hstatus hr invocation with hresume | hresume
    · rw [hresume]
      exact .inl ⟨rfl, .inr ⟨hasked.unapplied, .inr ⟨.hitl, rfl⟩⟩⟩
    · rw [hresume]
      rcases hcases with ⟨status, haction, hwork, hhitl⟩ | ⟨hunapplied, hwork⟩
      · obtain ⟨hin, hne⟩ := ne_awaiting haction
        refine .inr ⟨status, haction, hversion, ?_, congrArg _ hhitl, ?_⟩
        · simp only [hwork, hhitl, if_pos hin]
        · exact fun h => hne (Option.some.inj (hwork.symm.trans h))
      · rcases List.mem_pair.mp hwork with hwork | hwork
        all_goals
          refine .inl ⟨?_, .inr ⟨hunapplied, .inl (hwork.trans_ne (by decide))⟩⟩
          simp only [hwork]
          cases r.1.hitlVersion <;> rfl
  · rw [if_pos fun h => hversion (Option.some.inj h).symm]
    exact .inl ⟨rfl, .inl rfl⟩

end ApprovalAux

open ApprovalAux

/-- One action of a sequence is applied, in the version that was asked for: none before it is, and after it exactly those under its key are
answered, as it was. -/
structure DecidedBy {D : EngineDigests} (before : List ((ApprovalAction × Invocation D) × ActionAnswer)) (action : ApprovalAction)
    (status : String) (after : List ((ApprovalAction × Invocation D) × ActionAnswer)) : Prop where
  status_eq : actionStatus? action.action = some status
  version : action.expectedVersion = 1
  unapplied : ∀ event ∈ before, event.2.applies = false
  replayed : ∀ event ∈ after, event.2 = if event.1.1.idempotencyKey.val = action.idempotencyKey.val then .applied status 2 true
    else .http 409 "thread is not awaiting an action"

/-- Over every sequence of approval actions on a thread that waits for an approval, after any run on any thread: nothing is applied, or one
action decides the run, and everything after it is answered from the ledger or refused. -/
theorem approval_protocol {D : EngineDigests} (E : Engine D) (thread : Thread D) (run : Run D) :
    StandsAt (fun node _ => node = .hitl → ∀ actions,
      (∀ event ∈ E.approvals (E.runOn thread run).2 actions, event.2.applies = false) ∨
        ∃ before action invocation status after, E.approvals (E.runOn thread run).2 actions =
          before ++ ((action, invocation), .applied status 2 false) :: after ∧ DecidedBy before action status after)
      (E.runOn thread run).2 := by
  rintro node received prompt hstatus rfl actions
  have hasked := (((rule E).runOn thread run ⟨nofun, nofun⟩).2 _ _ _ hstatus).asked rfl
  obtain rfl := fresh_runOn thread run received prompt hstatus
  generalize (E.runOn thread run).2 = waiting at hstatus hasked
  induction actions with
  | nil => exact .inl fun _ h => absurd h List.not_mem_nil
  | cons action actions ih =>
    rcases asked_action (E := E) hasked hstatus action.1 action.2 with
      ⟨hrefused, hthread | hthread⟩ | ⟨status, hkind, hversion, hanswer, hthread⟩
    · have hevents : E.approvals waiting (action :: actions) =
          (action, (E.approvalAction waiting action.1 action.2).1) :: E.approvals waiting actions := by
        change _ :: E.approvals (E.approvalAction waiting action.1 action.2).2 actions = _
        rw [hthread]
      rw [hevents]
      refine ih.imp (fun hnone => List.forall_mem_cons.mpr ⟨hrefused, hnone⟩) ?_
      rintro ⟨before, body, invocation, status, after, heq, hby⟩
      refine ⟨_ :: before, body, invocation, status, after, by rw [heq]; rfl, hby.status_eq, hby.version, ?_, hby.replayed⟩
      exact List.forall_mem_cons.mpr ⟨hrefused, hby.unapplied⟩
    · exact .inl (List.forall_mem_cons.mpr ⟨hrefused, hthread.approvals actions⟩)
    · refine .inr ⟨[], action.1, action.2, status, E.approvals (E.approvalAction waiting action.1 action.2).2 actions, ?_, hkind, hversion,
        fun _ h => absurd h List.not_mem_nil, hthread.approvals actions⟩
      exact congrArg (fun answer => (action, answer) :: _) hanswer

end Nl2Sql
