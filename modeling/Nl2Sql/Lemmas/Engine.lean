import Nl2Sql.Engine.Graph
import Nl2Sql.Lemmas.Budget

/-!
# Steps and runs of the engine

What one step of a run can do, node by node, and the rules that carry a property of the steps over a whole run. `Moves` says it once: a
step that moves wrote these channels and took this edge. Everything else about runs is derived from it.
-/

namespace Nl2Sql

open Py BudgetAux

namespace Engine

variable {D : EngineDigests} {E : Engine D} {config : RunConfig} {a : Answers D.toCalculationDigests}

/-! ## One step -/

/-- A step that moves: the channels it wrote and the edge it took. -/
inductive Moves (E : Engine D) (config : RunConfig) (a : Answers D.toCalculationDigests) (s : V2EngineState D.toCalculationDigests)
    (received : List Json) (runtime : Option TypedRuntimeBundle) :
    Node → V2EngineState D.toCalculationDigests → Option TypedRuntimeBundle → Option Node → Prop where
  | receive {next} (hnext : some (if E.wiring = .factory then .typedRuntime else .context) = next) :
      Moves E config a s received runtime .receive (receive config a.now s) runtime next
  | typedRuntime {w bundle next} (h : (typedRuntime config a.factory s.work).result = .ok (w, bundle))
      (hnext : unlessStopped w .context = next) : Moves E config a s received runtime .typedRuntime { s with work := w } bundle next
  | context {w next} (h : (E.context config runtime s.binding a.now a.resolve s.work).result = .ok w)
      (hnext : unlessStopped w .plan = next) : Moves E config a s received runtime .context { s with work := w } runtime next
  | plan {w next} (h : (E.plan config runtime s.binding a.now a.propose s.work).result = .ok w)
      (hnext : afterPlan { s with work := w } = next) : Moves E config a s received runtime .plan { s with work := w } runtime next
  | validate {d w next} (h : E.validate config s.decision s.work = (d, w))
      (hnext : afterValidation { s with decision := d, work := w } = next) :
      Moves E config a s received runtime .validate { s with decision := d, work := w } runtime next
  | route {w next} (h : E.route config s.binding a.now s.work = .ok w) (hnext : E.afterRoute { s with work := w } = .ok next) :
      Moves E config a s received runtime .route { s with work := w } runtime next
  | compile {w next} (h : E.compile s.work = .ok w) (hnext : unlessStopped w .execute = next) :
      Moves E config a s received runtime .compile { s with work := w } runtime next
  | modeCapability : Moves E config a s received runtime .modeCapability { s with work := modeCapability s.binding s.work } runtime none
  | execute {w next} (h : (E.execute config runtime s.binding a.now a.runners s.work).result = .ok w)
      (hnext : afterExecute { s with work := w } = next) : Moves E config a s received runtime .execute { s with work := w } runtime next
  | analysis {w} (h : (E.analysis config s.binding a.now a.invokeStructured s.work).result = .ok w) :
      Moves E config a s received runtime .analysis { s with work := w } runtime none
  | model {w h' next} (h : (E.model config s.binding a.now a.budgetElapsedMs a.invoke s.work).result = .ok (w, h'))
      (hnext : afterModel { s with work := w, hitl := h'.getD s.hitl } = next) :
      Moves E config a s received runtime .model { s with work := w, hitl := h'.getD s.hitl } runtime next
  | hitl {h' w} (h : E.hitlVisit received s.hitl s.work = .ok (.returned (h', w))) :
      Moves E config a s received runtime .hitl { s with hitl := h', work := w } runtime none
  | decision {d w next} (h : decision received s.decision s.work = .returned (d, w))
      (hnext : afterDecision { s with decision := d, work := w } = next) :
      Moves E config a s received runtime .decision { s with decision := d, work := w } runtime next
  | replan {d w next} (h : (E.replan config runtime a s.decision s.work).result = .ok (d, w))
      (hnext : afterReplan { s with decision := d, work := w } = next) :
      Moves E config a s received runtime .replan { s with decision := d, work := w } runtime next

/-- A visit that moved has returned. -/
theorem stepOf_moved {γ α : Type} {log : γ → EngineCall D.toCalculationDigests} {visit : Visit γ α}
    {write : α → V2EngineState D.toCalculationDigests × Option TypedRuntimeBundle}
    {next : V2EngineState D.toCalculationDigests → Except NodeError (Option Node)} {s runtime node}
    (h : (stepOf log visit write next).outcome = .moved s runtime node) :
    ∃ value, visit.result = .ok value ∧ (write value).1 = s ∧ (write value).2 = runtime ∧ next s = .ok node := by
  unfold stepOf at h
  cases hr : visit.result with
  | error e => simp [hr] at h
  | ok value =>
    cases hn : next (write value).1 with
    | error e => simp [hr, hn] at h
    | ok n =>
      simp only [hr, hn, StepOutcome.moved.injEq] at h
      obtain ⟨rfl, rfl, rfl⟩ := h
      exact ⟨value, rfl, rfl, rfl, hn⟩

/-- A node that may suspend has returned when it moved. -/
theorem suspensionStep_moved {α : Type} {result : Except NodeError (Suspension α)}
    {write : α → V2EngineState D.toCalculationDigests × Option TypedRuntimeBundle}
    {next : V2EngineState D.toCalculationDigests → Except NodeError (Option Node)} {s runtime node}
    (h : (suspensionStep result write next).outcome = .moved s runtime node) :
    ∃ value, result = .ok (.returned value) ∧ (write value).1 = s ∧ (write value).2 = runtime ∧ next s = .ok node := by
  unfold suspensionStep at h
  split at h
  · cases h
  · obtain ⟨value', hv, hrest⟩ := stepOf_moved h
    cases hv
    exact ⟨_, rfl, hrest⟩
  · cases h

/-- What a step that moved wrote, and where it went. -/
theorem moves_of_step {c : Cursor D} {s runtime next} (h : (E.step config a c).outcome = .moved s runtime next) :
    Moves E config a c.values c.received c.runtime c.node s runtime next := by
  obtain ⟨node, values, received, rt⟩ := c
  cases node with
  | receive =>
    obtain ⟨v, hv, rfl, rfl, hn⟩ := stepOf_moved h
    cases hv
    exact .receive (Except.ok.inj hn)
  | typedRuntime =>
    obtain ⟨v, hv, rfl, rfl, hn⟩ := stepOf_moved h
    exact .typedRuntime hv (Except.ok.inj hn)
  | context =>
    obtain ⟨v, hv, rfl, rfl, hn⟩ := stepOf_moved h
    exact .context hv (Except.ok.inj hn)
  | plan =>
    obtain ⟨v, hv, rfl, rfl, hn⟩ := stepOf_moved h
    exact .plan hv (Except.ok.inj hn)
  | validate =>
    obtain ⟨v, hv, rfl, rfl, hn⟩ := stepOf_moved h
    exact .validate (Except.ok.inj hv) (Except.ok.inj hn)
  | route =>
    obtain ⟨v, hv, rfl, rfl, hn⟩ := stepOf_moved h
    exact .route hv hn
  | compile =>
    obtain ⟨v, hv, rfl, rfl, hn⟩ := stepOf_moved h
    exact .compile hv (Except.ok.inj hn)
  | modeCapability =>
    obtain ⟨v, hv, rfl, rfl, hn⟩ := stepOf_moved h
    cases hv
    cases hn
    exact .modeCapability
  | execute =>
    obtain ⟨v, hv, rfl, rfl, hn⟩ := stepOf_moved h
    exact .execute hv (Except.ok.inj hn)
  | analysis =>
    obtain ⟨v, hv, rfl, rfl, hn⟩ := stepOf_moved h
    cases hn
    exact .analysis hv
  | model =>
    obtain ⟨v, hv, rfl, rfl, hn⟩ := stepOf_moved h
    exact .model hv (Except.ok.inj hn)
  | hitl =>
    obtain ⟨v, hv, rfl, rfl, hn⟩ := suspensionStep_moved h
    cases hn
    exact .hitl hv
  | decision =>
    obtain ⟨v, hv, rfl, rfl, hn⟩ := suspensionStep_moved h
    exact .decision (Except.ok.inj hv) (Except.ok.inj hn)
  | replan =>
    obtain ⟨v, hv, rfl, rfl, hn⟩ := stepOf_moved h
    exact .replan hv (Except.ok.inj hn)

/-! ## Edges -/

/-- The targets the graph lists for the edges of a node. -/
def successors : Node → List Node
  | .receive => [.typedRuntime, .context]
  | .typedRuntime => [.context]
  | .context => [.plan]
  | .plan => [.validate, .modeCapability]
  | .validate => [.route, .decision]
  | .route => [.compile, .model, .modeCapability]
  | .compile => [.execute]
  | .modeCapability => []
  | .execute => [.analysis]
  | .analysis => []
  | .model => [.hitl]
  | .hitl => []
  | .decision => [.replan]
  | .replan => [.decision, .execute]

theorem eq_of_unlessStopped {w : WorkChannels D.toCalculationDigests} {node next : Node} (h : unlessStopped w node = some next) :
    next = node := by
  unfold unlessStopped at h
  split at h
  · cases h
  · exact (Option.some.inj h).symm

/-- An edge out of the route node leads to one of its targets. -/
theorem afterRoute_mem {s : V2EngineState D.toCalculationDigests} {next : Node} (h : E.afterRoute s = .ok (some next)) :
    next ∈ successors .route := by
  unfold afterRoute at h
  split at h
  · cases h
  split at h
  · cases h
    split <;> simp [successors]
  split at h
  · cases h
    simp [successors]
  split at h
  · obtain ⟨route, -, h⟩ := bind_eq_ok.mp h
    cases h
    split <;> simp [successors]
  · cases h
    simp [successors]

/-- A step leads to one of the targets of its node. -/
theorem next_mem_successors {s received runtime node s' runtime' next}
    (h : Moves E config a s received runtime node s' runtime' (some next)) : next ∈ successors node := by
  cases h with
  | receive hnext => split at hnext <;> cases hnext <;> simp [successors]
  | typedRuntime hw hnext => simp [eq_of_unlessStopped hnext, successors]
  | context hw hnext => simp [eq_of_unlessStopped hnext, successors]
  | plan hw hnext =>
    unfold afterPlan at hnext
    split at hnext
    · cases hnext
      simp [successors]
    split at hnext
    · cases hnext
    · simp [eq_of_unlessStopped hnext, successors]
  | validate hv hnext =>
    unfold afterValidation at hnext
    split at hnext
    · cases hnext
    split at hnext <;> cases hnext <;> simp [successors]
  | route hw hnext => exact afterRoute_mem hnext
  | compile hw hnext => simp [eq_of_unlessStopped hnext, successors]
  | execute hw hnext =>
    unfold afterExecute at hnext
    split at hnext
    · cases hnext
    split at hnext <;> cases hnext
    simp [successors]
  | model hw hnext =>
    unfold afterModel at hnext
    split at hnext <;> cases hnext
    simp [successors]
  | decision hd hnext =>
    unfold afterDecision at hnext
    split at hnext <;> cases hnext
    simp [successors]
  | replan hr hnext =>
    unfold afterReplan at hnext
    split at hnext
    · cases hnext
      simp [successors]
    split at hnext <;> cases hnext
    simp [successors]

/-- A visit that returns does not suspend. -/
theorem stepOf_not_suspended {γ α : Type} {log : γ → EngineCall D.toCalculationDigests} {visit : Visit γ α}
    {write : α → V2EngineState D.toCalculationDigests × Option TypedRuntimeBundle}
    {next : V2EngineState D.toCalculationDigests → Except NodeError (Option Node)} {prompt}
    (h : (stepOf log visit write next).outcome = .suspended prompt) : False := by
  unfold stepOf at h
  cases hr : visit.result with
  | error e => simp [hr] at h
  | ok value => cases hn : next (write value).1 <;> simp [hr, hn] at h

/-- A node that may suspend has asked for a payload when it suspended. -/
theorem suspensionStep_suspended {α : Type} {result : Except NodeError (Suspension α)}
    {write : α → V2EngineState D.toCalculationDigests × Option TypedRuntimeBundle}
    {next : V2EngineState D.toCalculationDigests → Except NodeError (Option Node)} {prompt}
    (h : (suspensionStep result write next).outcome = .suspended prompt) : result = .ok (.suspended prompt) := by
  unfold suspensionStep at h
  split at h
  · cases h
    rfl
  · exact (stepOf_not_suspended h).elim
  · cases h

/-- Only the two nodes with an interrupt suspend. -/
theorem suspends_of_step {c : Cursor D} {prompt} (h : (E.step config a c).outcome = .suspended prompt) :
    (c.node = .hitl ∧ E.hitlVisit c.received c.values.hitl c.values.work = .ok (.suspended prompt)) ∨
      (c.node = .decision ∧ decision c.received c.values.decision c.values.work = .suspended prompt) := by
  obtain ⟨node, values, received, rt⟩ := c
  cases node with
  | hitl => exact .inl ⟨rfl, suspensionStep_suspended h⟩
  | decision => exact .inr ⟨rfl, Except.ok.inj (suspensionStep_suspended h)⟩
  | _ => exact (stepOf_not_suspended h).elim

/-! ## Calls -/

/-- A node that may suspend calls nothing. -/
theorem calls_suspensionStep {α : Type} (result : Except NodeError (Suspension α))
    (write : α → V2EngineState D.toCalculationDigests × Option TypedRuntimeBundle)
    (next : V2EngineState D.toCalculationDigests → Except NodeError (Option Node)) : (suspensionStep result write next).calls = [] := by
  unfold suspensionStep
  split <;> rfl

/-- The analysis calls the model once at most. -/
theorem calls_analysis (b : RunBinding) (now : Int) (answer) (w : WorkChannels D.toCalculationDigests) :
    (E.analysis config b now answer w).calls.length ≤ 1 := by
  unfold analysis
  split <;> simp [Visit.silent, Visit.calling]

/-- The model node calls the model once at most. -/
theorem calls_model (b : RunBinding) (now : Int) (elapsed : Nat) (answer) (w : WorkChannels D.toCalculationDigests) :
    (E.model config b now elapsed answer w).calls.length ≤ 1 := by
  unfold model
  split <;> simp [Visit.silent, Visit.calling]

/-- A step calls the model gateway at the two nodes that call it, once at most. -/
theorem model_calls_of_step (c : Cursor D) :
    ((E.step config a c).calls.filter (·.isModel)).length ≤ 1 ∧
      ((E.step config a c).calls.filter (·.isModel) ≠ [] → c.node = .analysis ∨ c.node = .model) := by
  obtain ⟨node, values, received, rt⟩ := c
  have quiet {γ : Type} (log : γ → EngineCall D.toCalculationDigests) (hlog : ∀ call, (log call).isModel = false) (calls : List γ) :
      (calls.map log).filter (·.isModel) = [] := by
    simp [List.filter_eq_nil_iff, hlog]
  cases node with
  | analysis => exact ⟨(List.length_filter_le _ _).trans ((List.length_map _).trans_le (calls_analysis _ _ _ _)), fun _ => .inl rfl⟩
  | model => exact ⟨(List.length_filter_le _ _).trans ((List.length_map _).trans_le (calls_model _ _ _ _ _)), fun _ => .inr rfl⟩
  | hitl => simp [step, calls_suspensionStep]
  | decision => simp [step, calls_suspensionStep]
  | typedRuntime => simp [step, stepOf, quiet EngineCall.factory fun _ => rfl]
  | context => simp [step, stepOf, quiet EngineCall.resolve fun _ => rfl]
  | plan => simp [step, stepOf, quiet EngineCall.propose fun _ => rfl]
  | execute => simp [step, stepOf, quiet EngineCall.execute fun _ => rfl]
  | replan => simp [step, stepOf, quiet EngineCall.replan fun _ => rfl]
  | _ => simp [step, silentStep, stepOf, Visit.silent]

/-- A step calls the executor at the execute node only. -/
theorem execute_of_call {c : Cursor D} {call} (h : call ∈ (E.step config a c).calls) (hcall : call.isExecute = true) :
    c.node = .execute := by
  obtain ⟨node, values, received, rt⟩ := c
  cases node with
  | execute => rfl
  | hitl | decision => simp [step, calls_suspensionStep] at h
  | receive | validate | route | compile | modeCapability => simp [step, silentStep, stepOf, Visit.silent] at h
  | _ =>
    obtain ⟨inner, -, rfl⟩ := List.mem_map.mp h
    cases hcall

/-! ## Exits -/

/-- The checkpoint of a ledger is all that is written, and its stop reason is one that crosses a checkpoint. -/
theorem checkpointed_eq_ok {ledger : RouteBudgetLedger} {w w' : WorkChannels D.toCalculationDigests}
    (h : checkpointed ledger w = .ok w') :
    validStopReason ledger.stopReason ∧ ∃ record, w' = { w with budgetRecord := some record } := by
  unfold checkpointed RouteBudgetLedger.checkpointRecord at h
  by_cases hv : validCounterMap ledger.sqlFingerprintCounts ∧ validCounterMap ledger.errorCounts ∧
      validStopReason ledger.stopReason
  · rw [dif_pos hv] at h
    cases h
    exact ⟨hv.2.2, _, rfl⟩
  · rw [dif_neg hv] at h
    cases h

/-- An exit that halts the ledger stops the run with a reason, and writes the message, the flag and the checkpoint besides. -/
theorem haltedWith_eq_ok {ledger : RouteBudgetLedger} {w w' : WorkChannels D.toCalculationDigests} {content reason flag : String}
    (h : haltedWith ledger w content reason flag = .ok w') :
    ∃ stop record, stop ≠ "" ∧ w' = { w.stopWith content stop flag with budgetRecord := some record } := by
  unfold haltedWith useRouteBudget at h
  by_cases hr : strip reason = ""
  · rw [halt_blank ledger hr] at h
    cases h
  · obtain ⟨stop, hrun⟩ := halt_run reason hr ledger
    rw [hrun] at h
    obtain ⟨hvalid, record, rfl⟩ := checkpointed_eq_ok (show checkpointed _ (w.stopWith content stop flag) = .ok w' from h)
    have hlen := (hvalid stop rfl).1
    refine ⟨stop, record, ?_, rfl⟩
    rintro rfl
    exact absurd hlen (by decide)

/-- A run stopped with a reason is stopped. -/
theorem stopped_of_reason {w : WorkChannels D.toCalculationDigests} {reason : String} (h : w.stopReason = some reason)
    (hr : reason ≠ "") : w.stopped = true := by
  simp [WorkChannels.stopped, h, hr]

/-- An execution that leaves the run going has succeeded. -/
theorem execute_succeeded {runtime b now runners} {w w' : WorkChannels D.toCalculationDigests}
    (h : (E.execute config runtime b now runners w).result = .ok w') (hgo : w'.stopped = false) :
    ∃ record, w'.executionRecord = some record ∧ record.status = .succeeded := by
  unfold execute at h
  split at h
  · cases h
  split at h
  · cases h
  split at h
  · obtain ⟨stop, record, hne, rfl⟩ := haltedWith_eq_ok h
    rw [stopped_of_reason rfl hne] at hgo
    cases hgo
  · simp only [Visit.calling] at h
    split at h
    · cases h
    rename_i result s hexec
    unfold executed at h
    obtain ⟨w1, hw1, h⟩ := bind_eq_ok.mp h
    obtain ⟨-, record, rfl⟩ := checkpointed_eq_ok hw1
    split at h
    · rename_i hsucc
      split at h
      · cases h
      obtain ⟨blocks, -, h⟩ := bind_eq_ok.mp h
      cases h
      exact ⟨_, rfl, hsucc⟩
    · rename_i hfail
      cases h
      -- a record that did not succeed has a stop reason
      have hstop : result.record.stopReason ≠ none := fun hn => hfail (result.record.valid.stop_iff.mp hn)
      obtain ⟨reason, hreason⟩ := Option.ne_none_iff_exists'.mp hstop
      have hlen := (result.record.valid.stop_bounds reason hreason).1
      have hne : reason ≠ "" := by
        rintro rfl
        exact absurd hlen (by decide)
      rw [stopped_of_reason (by simp [WorkChannels.stopWith, hreason]) hne] at hgo
      cases hgo

/-! ## Runs -/

section Rules

variable (E) {J : List (Record D) → Node → V2EngineState D.toCalculationDigests → Prop} {K : List (Record D) → Prop}

/-- A property `J` of where a run stands and a property `K` of what it did, with what came before: each step that goes on keeps `J`,
and each step keeps `K`. -/
structure RunRule (J : List (Record D) → Node → V2EngineState D.toCalculationDigests → Prop) (K : List (Record D) → Prop) : Prop where
  holds : ∀ past node s, J past node s → K past
  moves : ∀ config a past (c : Cursor D) s runtime node, J past c.node c.values →
    (E.step config a c).outcome = .moved s runtime (some node) → J (past ++ [(⟨c, E.step config a c⟩ : Record D)]) node s
  suspends : ∀ config a past (c : Cursor D) prompt, J past c.node c.values →
    (E.step config a c).outcome = .suspended prompt → J (past ++ [(⟨c, E.step config a c⟩ : Record D)]) c.node c.values
  steps : ∀ config a past (c : Cursor D), J past c.node c.values → K (past ++ [(⟨c, E.step config a c⟩ : Record D)])

/-- Where a suspended thread stands satisfies a property. -/
def StandsAt (P : Node → V2EngineState D.toCalculationDigests → Prop) (thread : Thread D) : Prop :=
  ∀ node received prompt, thread.status = .suspended node received prompt → P node thread.values

variable {E}

variable (P : Node → V2EngineState D.toCalculationDigests → Prop)

@[simp] theorem standsAt_ended (s) : StandsAt P ⟨s, .ended⟩ := by
  rintro _ _ _ ⟨⟩

@[simp] theorem standsAt_failed (s node e) :
    StandsAt P ⟨s, .failed node e⟩ := by
  rintro _ _ _ ⟨⟩

@[simp] theorem standsAt_cut (s node) : StandsAt P ⟨s, .cut node⟩ := by
  rintro _ _ _ ⟨⟩

@[simp] theorem standsAt_suspended (s node received prompt) :
    StandsAt P ⟨s, .suspended node received prompt⟩ ↔ P node s :=
  ⟨fun h => h _ _ _ rfl, fun h _ _ _ hs => by cases hs; exact h⟩

/-- An invocation keeps what its steps keep. By induction on the answers: the steps before are the past of the rest. -/
theorem RunRule.runFrom (rule : RunRule E J K) (config : RunConfig) (answers : List (Answers D.toCalculationDigests)) (c : Cursor D)
    (past : List (Record D)) (h : J past c.node c.values) :
    K (past ++ (E.runFrom config answers c).1) ∧
      StandsAt (J (past ++ (E.runFrom config answers c).1)) (E.runFrom config answers c).2 := by
  induction answers generalizing c past with
  | nil =>
    simp only [Engine.runFrom, List.append_nil, standsAt_cut, and_true]
    exact rule.holds _ _ _ h
  | cons a rest ih =>
    have hstep := rule.steps config a past c h
    cases ho : (E.step config a c).outcome with
    | suspended prompt =>
      simp only [Engine.runFrom, ho, standsAt_suspended]
      exact ⟨hstep, rule.suspends _ _ _ _ _ h ho⟩
    | failed e =>
      simp only [Engine.runFrom, ho, standsAt_failed, and_true]
      exact hstep
    | moved s runtime next =>
      cases next with
      | none =>
        simp only [Engine.runFrom, ho, standsAt_ended, and_true]
        exact hstep
      | some node =>
        simp only [Engine.runFrom, ho]
        have := ih ⟨node, s, [], runtime⟩ (past ++ [(⟨c, E.step config a c⟩ : Record D)]) (rule.moves _ _ _ _ _ _ _ h ho)
        rwa [List.append_assoc, List.singleton_append] at this

/-- A resume keeps what its steps keep. -/
theorem RunRule.resume (rule : RunRule E J K) (thread : Thread D) (payload : Json) (invocation : Invocation D) (past : List (Record D))
    (hK : K past) (h : StandsAt (J past) thread) :
    K (past ++ (E.resume thread payload invocation).1) ∧
      StandsAt (J (past ++ (E.resume thread payload invocation).1)) (E.resume thread payload invocation).2 := by
  cases hs : thread.status with
  | suspended node received prompt =>
    simp only [Engine.resume, hs]
    exact rule.runFrom _ _ ⟨node, thread.values, received ++ [payload], none⟩ past (h _ _ _ hs)
  | ended =>
    simp only [Engine.resume, hs, List.append_nil]
    exact ⟨hK, h⟩
  | failed node e =>
    simp only [Engine.resume, hs, List.append_nil]
    exact ⟨hK, h⟩
  | cut node =>
    simp only [Engine.resume, hs, List.append_nil]
    exact ⟨hK, h⟩

/-- Resumes keep what their steps keep. -/
theorem RunRule.resumes (rule : RunRule E J K) (list : List (Json × Invocation D)) (thread : Thread D) (past : List (Record D))
    (hK : K past) (h : StandsAt (J past) thread) :
    K (past ++ (E.resumes thread list).1) ∧ StandsAt (J (past ++ (E.resumes thread list).1)) (E.resumes thread list).2 := by
  induction list generalizing thread past with
  | nil => simpa [Engine.resumes] using And.intro hK h
  | cons next rest ih =>
    obtain ⟨hK', h'⟩ := rule.resume thread next.1 next.2 past hK h
    simpa [Engine.resumes] using ih _ _ hK' h'

/-- A run keeps what its steps keep. -/
theorem RunRule.runOn (rule : RunRule E J K) (thread : Thread D) (run : Run D)
    (h : J [] .receive (withInput thread.values run.input)) :
    K (E.runOn thread run).1 ∧ StandsAt (J (E.runOn thread run).1) (E.runOn thread run).2 := by
  obtain ⟨hK, hJ⟩ := rule.runFrom run.invocation.config run.invocation.answers
    ⟨.receive, withInput thread.values run.input, [], none⟩ [] h
  simpa [Engine.runOn, Engine.start] using rule.resumes run.resumes _ _ hK hJ

end Rules

end Engine

end Nl2Sql
