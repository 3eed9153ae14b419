import Nl2Sql.Lemmas.Engine

/-!
# The typed clarification, node by node

What the validation, the decision node and the replanning node can write to the channels of the clarification, and what a thread that
waits for a decision has received.
-/

namespace Nl2Sql

open Py

namespace Engine

variable {D : EngineDigests} {E : Engine D} {config : RunConfig} {a : Answers D.toCalculationDigests}
  {d d' : DecisionChannels} {w w' : WorkChannels D.toCalculationDigests} {stored : HITLRequest}

/-! ## Requests -/

/-- A clarification asks about the plan it was made for, under the version it was made with. -/
theorem clarificationRequest?_eq_some {checksum : Json → Sha256} {P : PlanDigests} {validation : PlanValidationRecord}
    {context : ContextBundle} {plan : QueryPlan} {version : Nat} {request : HITLRequest}
    (h : clarificationRequest? checksum P validation context plan version = some request) :
    request.version = version ∧ request.planSha256 = P.queryPlan plan := by
  unfold clarificationRequest? at h
  split at h
  · cases h
  rename_i hbound
  have hplan : validation.queryPlanSha256 = P.queryPlan plan := by
    by_contra hne
    exact hbound (.inr (.inl hne))
  simp only [Option.bind_eq_bind, Option.bind_eq_some_iff] at h
  obtain ⟨requestId, -, slots, -, codes, -, h⟩ := h
  unfold HITLRequest.clarification? at h
  split at h
  · cases h
    exact ⟨rfl, hplan⟩
  · cases h

/-- The validation leaves the channels of the clarification, or asks under the next version. -/
theorem validate_decision (h : E.validate config d w = (d', w')) :
    d' = d ∨ ∃ request, d' = await d request ∧ request.version = d.decisionVersion + 1 := by
  unfold validate at h
  split at h
  · cases h
    exact .inl rfl
  split at h
  · cases h
    exact .inl rfl
  dsimp only at h
  split at h
  · cases h
    exact .inl rfl
  · split at h
    · cases h
      exact .inl rfl
    · rename_i request hrequest
      cases h
      exact .inr ⟨request, rfl, (clarificationRequest?_eq_some hrequest).1⟩
  · cases h
    exact .inl rfl

/-! ## Payloads -/

/-- A payload that is read as a decision satisfies the stored request. -/
theorem validateAgainst_of_payload {payload : Json} {decision : HITLDecision}
    (h : typedDecisionFromPayload stored payload = .ok decision) : decision.validateAgainst stored = [] := by
  unfold typedDecisionFromPayload at h
  split at h
  · split_ifs at h
    split at h
    · cases h
    split at h
    · rename_i hvalid
      cases h
      exact hvalid
    · cases h
  · cases h

/-- Every entry of the ledger answers an older request. -/
def Older (ledger : Dict IdempotencyKey DecisionEntry) (version : Nat) : Prop :=
  ∀ key entry, ledger.get? key = some entry → entry.requestVersion < version

/-- A key that the ledger binds is not bound again: an entry that answers an older request is no replay. -/
theorem settle?_eq_some {decision : HITLDecision} {token : ResumeToken} {result}
    (hold : Older d.decisionLedger stored.version) (h : settle? stored decision token d w = some result) :
    d.decisionLedger.get? decision.idempotencyKey = none ∧ result = recordTypedDecision stored decision token d w := by
  unfold settle? at h
  split at h
  · rename_i hnone
    cases h
    exact ⟨hnone, rfl⟩
  · rename_i entry hentry
    split at h
    · rename_i hreplays
      exact absurd hreplays.2.1 (Nat.ne_of_lt (hold _ _ hentry))
    · cases h

/-- A payload the decision node accepts is a decision that satisfies the request and is recorded under a new key. -/
theorem receivePayload_eq_ok {payload : Json} {result} (hold : Older d.decisionLedger stored.version)
    (h : receivePayload stored d w payload = .ok result) :
    ∃ decision token, typedDecisionFromPayload stored payload = .ok decision ∧
      d.decisionLedger.get? decision.idempotencyKey = none ∧ result = recordTypedDecision stored decision token d w := by
  unfold receivePayload at h
  split at h
  · cases h
  rename_i decision hdecision
  split at h
  · cases h
  rename_i token htoken
  split at h
  · rename_i settled hsettled
    cases h
    obtain ⟨hnone, rfl⟩ := settle?_eq_some hold hsettled
    exact ⟨decision, token, hdecision, hnone, rfl⟩
  · cases h

/-- A payload that is no decision, or a decision whose key the ledger binds, is refused. -/
theorem receivePayload_refused {payload : Json} (hold : Older d.decisionLedger stored.version)
    (h : ∀ decision, typedDecisionFromPayload stored payload = .ok decision →
      d.decisionLedger.get? decision.idempotencyKey ≠ none) :
    ∃ failure, receivePayload stored d w payload = .error failure := by
  cases hr : receivePayload stored d w payload with
  | error failure => exact ⟨failure, rfl⟩
  | ok result =>
    obtain ⟨decision, token, hdecision, hnone, -⟩ := receivePayload_eq_ok hold hr
    exact absurd hnone (h decision hdecision)

/-- A loop that suspends has refused every payload. -/
theorem refused_of_decisionLoop {failure : Option String} {received : List Json} {prompt : Prompt}
    (h : decisionLoop stored d w failure received = .suspended prompt) :
    ∀ payload ∈ received, ∃ failure, receivePayload stored d w payload = .error failure := by
  induction received generalizing failure with
  | nil => simp
  | cons payload rest ih =>
    simp only [decisionLoop] at h
    split at h
    · cases h
    rename_i refusal hrefusal
    intro p hp
    rcases List.mem_cons.mp hp with rfl | hp
    · exact ⟨refusal, hrefusal⟩
    · exact ih h p hp

/-- A loop over payloads that are all refused suspends. -/
theorem decisionLoop_of_refused (failure : Option String) {received : List Json}
    (h : ∀ payload ∈ received, ∃ failure, receivePayload stored d w payload = .error failure) :
    ∃ prompt, decisionLoop stored d w failure received = .suspended prompt := by
  induction received generalizing failure with
  | nil => exact ⟨_, rfl⟩
  | cons payload rest ih =>
    obtain ⟨refusal, hrefusal⟩ := h payload List.mem_cons_self
    simp only [decisionLoop, hrefusal]
    exact ih _ fun p hp => h p (List.mem_cons_of_mem _ hp)

/-- A loop that returns has accepted a payload. -/
theorem accepted_of_decisionLoop {failure : Option String} {received : List Json} {result}
    (h : decisionLoop stored d w failure received = .returned result) :
    ∃ payload ∈ received, receivePayload stored d w payload = .ok result := by
  induction received generalizing failure with
  | nil => cases h
  | cons payload rest ih =>
    simp only [decisionLoop] at h
    split at h
    · rename_i accepted haccepted
      cases h
      exact ⟨payload, List.mem_cons_self, haccepted⟩
    · obtain ⟨p, hp, haccepted⟩ := ih h
      exact ⟨p, List.mem_cons_of_mem _ hp, haccepted⟩

/-- What the decision node returns for a request that no entry of the ledger answers: one payload was accepted and recorded. -/
theorem decision_returned {received : List Json} (hpending : d.pendingDecision = some stored)
    (hold : Older d.decisionLedger stored.version) (h : decision received d w = .returned (d', w')) :
    ∃ payload ∈ received, ∃ decided token, typedDecisionFromPayload stored payload = .ok decided ∧
      d.decisionLedger.get? decided.idempotencyKey = none ∧ (d', w') = recordTypedDecision stored decided token d w := by
  simp only [decision, hpending] at h
  obtain ⟨payload, hmem, haccepted⟩ := accepted_of_decisionLoop h
  obtain ⟨decided, token, hread, hnone, heq⟩ := receivePayload_eq_ok hold haccepted
  exact ⟨payload, hmem, decided, token, hread, hnone, heq⟩

/-- The edge out of the decision node is taken for a decision that resolves. -/
theorem afterDecision_eq_some {s : V2EngineState D.toCalculationDigests} {node : Node} (h : afterDecision s = some node) :
    node = .replan ∧ s.decision.decisionStatus = some .resolvedPendingRevalidation := by
  unfold afterDecision at h
  split at h
  · rename_i hstatus
    exact ⟨(Option.some.inj h).symm, hstatus⟩
  · cases h

/-! ## Replanning -/

/-- The edges out of the replanning node. -/
theorem afterReplan_eq_some {s : V2EngineState D.toCalculationDigests} {node : Node} (h : afterReplan s = some node) :
    (node = .decision ∧ awaitingDecision s.decision = true) ∨ (node = .execute ∧ s.decision.continuationReady = true) := by
  unfold afterReplan at h
  split at h
  · rename_i hawaiting
    exact .inl ⟨(Option.some.inj h).symm, hawaiting⟩
  split at h
  · rename_i hready
    exact .inr ⟨(Option.some.inj h).symm, hready⟩
  · cases h

/-- What the replanning node writes to the channels of the clarification: it stops, ends with a new plan, or asks about it. -/
inductive Replanned (D : EngineDigests) (d : DecisionChannels) : DecisionChannels → Prop where
  | stopped : Replanned D d { d with pendingDecision := none, decisionStatus := some .continuationStopped }
  | ended {stored : HITLRequest} {decision : HITLDecision} (newPlan : QueryPlan) (validation : PlanValidationRecord)
      (status : DecisionStatus) (hpending : d.pendingDecision = some stored) (hresolved : d.resolvedDecision = some decision)
      (hstatus : status ≠ .awaitingDecision) :
      Replanned D d
        { replanned (D := D) stored decision newPlan validation d with pendingDecision := none, decisionStatus := some status }
  | asked {stored : HITLRequest} {decision : HITLDecision} (newPlan : QueryPlan) (validation : PlanValidationRecord)
      (request : HITLRequest) (hpending : d.pendingDecision = some stored) (hresolved : d.resolvedDecision = some decision)
      (hversion : request.version = d.decisionVersion + 1) (hplan : request.planSha256 = D.queryPlan newPlan) :
      Replanned D d (await (replanned (D := D) stored decision newPlan validation d) request)

/-- A plan that is allowed ends the continuation: the engine's state has no runtime to continue with. -/
theorem replannedAllow_eq_ok {answer : FactoryAnswer} {decision : HITLDecision} {newPlan : QueryPlan} {context : ContextBundle}
    {validation : PlanValidationRecord} (hpending : d.pendingDecision = some stored) (hresolved : d.resolvedDecision = some decision)
    (h : (E.replannedAllow config answer newPlan context validation d (replanned (D := D) stored decision newPlan validation d)
      w).result = .ok (d', w')) : Replanned D d d' := by
  unfold replannedAllow at h
  split at h
  · cases h
    exact .ended newPlan validation _ hpending hresolved (by decide)
  split at h
  · cases h
    exact .ended newPlan validation _ hpending hresolved (by decide)
  · cases h
    exact .stopped

/-- What the replanning node reads before it replans is the pending request and the decision that resolved it. -/
theorem replanInputs_eq_ok {decision : HITLDecision} {context : ContextBundle} {queryPlan : QueryPlan}
    (h : E.replanInputs d w = .ok (.ok (stored, decision, context, queryPlan))) :
    d.pendingDecision = some stored ∧ d.resolvedDecision = some decision := by
  unfold replanInputs at h
  split at h
  · rename_i request decided token hrequest hdecided htoken
    obtain ⟨bundle, -, h⟩ := bind_eq_ok.mp h
    split at h
    · cases h
    split at h
    · cases h
    split at h
    · cases h
    · cases h
      exact ⟨hrequest, hdecided⟩
  · cases h

/-- What the replanning node writes. -/
theorem replan_eq_ok {runtime : Option TypedRuntimeBundle} (h : (E.replan config runtime a d w).result = .ok (d', w')) :
    Replanned D d d' := by
  unfold replan at h
  split at h
  · cases h
  · cases h
    exact .stopped
  rename_i request decided context queryPlan hinputs
  obtain ⟨hpending, hresolved⟩ := replanInputs_eq_ok hinputs
  split at h
  · cases h
  split at h
  · cases h
    exact .stopped
  · cases h
  dsimp only at h
  split at h
  · cases h
    exact .stopped
  rename_i newPlan hnewPlan
  split at h
  · cases h
    exact .stopped
  rename_i validation hvalidation
  unfold replannedWith at h
  dsimp only at h
  split at h
  · exact replannedAllow_eq_ok hpending hresolved h
  · split at h
    · cases h
      exact .stopped
    · rename_i request hrequest
      cases h
      obtain ⟨hversion, hplan⟩ := clarificationRequest?_eq_some hrequest
      exact .asked newPlan validation request hpending hresolved hversion hplan
  · cases h
    exact .ended newPlan validation _ hpending hresolved (by decide)

/-! ## Waiting threads -/

/-- A suspended thread waits at a node that, executed again with the payloads it received, suspends with the prompt. -/
def Waits (E : Engine D) (thread : Thread D) : Prop :=
  ∀ node received prompt, thread.status = .suspended node received prompt →
    ∃ config a runtime, (E.step config a ⟨node, thread.values, received, runtime⟩).outcome = .suspended prompt

/-- An invocation leaves a thread that waits. -/
theorem waits_runFrom (config : RunConfig) (answers : List (Answers D.toCalculationDigests)) (c : Cursor D) :
    Waits E (E.runFrom config answers c).2 := by
  induction answers generalizing c with
  | nil => rintro _ _ _ ⟨⟩
  | cons a rest ih =>
    intro node received prompt hs
    cases ho : (E.step config a c).outcome with
    | suspended asked =>
      simp only [runFrom, ho, Status.suspended.injEq] at hs ⊢
      obtain ⟨rfl, rfl, rfl⟩ := hs
      exact ⟨config, a, c.runtime, ho⟩
    | failed e =>
      simp only [runFrom, ho] at hs
      cases hs
    | moved s runtime next =>
      cases next with
      | none =>
        simp only [runFrom, ho] at hs
        cases hs
      | some n =>
        simp only [runFrom, ho] at hs ⊢
        exact ih _ node received prompt hs

/-- A resume leaves a thread that waits. -/
theorem waits_resume {thread : Thread D} (h : Waits E thread) (payload : Json) (invocation : Invocation D) :
    Waits E (E.resume thread payload invocation).2 := by
  cases hs : thread.status with
  | suspended node received prompt =>
    simp only [resume, hs]
    exact waits_runFrom _ _ _
  | ended => simpa only [resume, hs] using h
  | failed node e => simpa only [resume, hs] using h
  | cut node => simpa only [resume, hs] using h

/-- Resumes leave a thread that waits. -/
theorem waits_resumes (list : List (Json × Invocation D)) {thread : Thread D} (h : Waits E thread) :
    Waits E (E.resumes thread list).2 := by
  induction list generalizing thread with
  | nil => exact h
  | cons next rest ih => exact ih (waits_resume h next.1 next.2)

/-- A run leaves a thread that waits. -/
theorem waits_runOn (thread : Thread D) (run : Run D) : Waits E (E.runOn thread run).2 :=
  waits_resumes _ (waits_runFrom _ _ _)

/-- A thread that waits for a decision has refused every payload it received. -/
theorem refused_of_waits {thread : Thread D} (h : Waits E thread) {received : List Json} {prompt : Prompt}
    (hs : thread.status = .suspended .decision received prompt) (hpending : thread.values.decision.pendingDecision = some stored) :
    ∀ payload ∈ received, ∃ failure, receivePayload stored thread.values.decision thread.values.work payload = .error failure := by
  obtain ⟨config, a, runtime, ho⟩ := h _ _ _ hs
  rcases suspends_of_step ho with ⟨hnode, -⟩ | ⟨-, hloop⟩
  · cases hnode
  · simp only [decision, hpending] at hloop
    exact refused_of_decisionLoop hloop

/-- A payload that is refused leaves the thread waiting for a decision, with its channels as they were. -/
theorem resume_refused {thread : Thread D} (h : Waits E thread) {received : List Json} {prompt : Prompt}
    (hs : thread.status = .suspended .decision received prompt) (hpending : thread.values.decision.pendingDecision = some stored)
    {payload : Json} {failure : String}
    (hrefused : receivePayload stored thread.values.decision thread.values.work payload = .error failure) (invocation : Invocation D) :
    (E.resume thread payload invocation).2.values = thread.values ∧
      (invocation.answers ≠ [] →
        ∃ prompt, (E.resume thread payload invocation).2.status = .suspended .decision (received ++ [payload]) prompt) := by
  have hall : ∀ p ∈ received ++ [payload], ∃ failure, receivePayload stored thread.values.decision thread.values.work p = .error failure := by
    intro p hp
    rcases List.mem_append.mp hp with hp | hp
    · exact refused_of_waits h hs hpending p hp
    · cases List.mem_singleton.mp hp
      exact ⟨failure, hrefused⟩
  obtain ⟨asked, hasked⟩ := decisionLoop_of_refused none hall
  obtain ⟨config, answers⟩ := invocation
  cases answers with
  | nil => simp [resume, hs, runFrom]
  | cons a rest =>
    have ho : (E.step config a ⟨.decision, thread.values, received ++ [payload], none⟩).outcome = .suspended asked := by
      simp [step, decision, hpending, hasked, suspensionStep]
    simp [resume, hs, runFrom, ho]

end Engine

end Nl2Sql
