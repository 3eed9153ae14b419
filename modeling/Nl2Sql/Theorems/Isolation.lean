import Nl2Sql.Lemmas.Frame
import Nl2Sql.Theorems.Continuation

/-!
# Runs of one thread

A thread keeps its channels between runs, and the receiving node resets those it lists. The channels of the mode capability are not
listed: a run that is led to the capability node leaves its mark on every later run of the thread. Where no run left one, a new run goes
as it would on a fresh thread with the same messages. The proof is a simulation in lockstep: two runs whose channels agree, but for
those of an approval that the model node overwrites before anything reads them, take the same steps.
-/

namespace Nl2Sql

open Py Engine

namespace IsolationAux

variable {D : EngineDigests} {E : Engine D} {config : RunConfig} {a : Answers D.toCalculationDigests}
  {s s' : V2EngineState D.toCalculationDigests}

/-! ## Runs that go the same way -/

/-- Channels that agree, but for those of an approval. -/
structure SameChannels (s s' : V2EngineState D.toCalculationDigests) : Prop where
  binding : s'.binding = s.binding
  decision : s'.decision = s.decision
  work : s'.work = s.work

/-- Steps that come to the same: the same prompt, the same error, or the same channels and the same edge. -/
def SameOutcome : StepOutcome D → StepOutcome D → Prop
  | .suspended prompt, .suspended prompt' => prompt' = prompt
  | .failed e, .failed e' => e' = e
  | .moved s runtime next, .moved s' runtime' next' => SameChannels s s' ∧ runtime' = runtime ∧ next' = next
  | _, _ => False

/-- The same node with the same calls and the same outcome. -/
structure SameStep (r r' : Record D) : Prop where
  node : r'.cursor.node = r.cursor.node
  calls : r'.step.calls = r.step.calls
  outcome : SameOutcome r.step.outcome r'.step.outcome

/-- Runs that take the same steps and leave the thread the same: its status, and its channels unless it was cut off before it was
received. -/
structure SameRun (result result' : List (Record D) × Thread D) : Prop where
  steps : List.Forall₂ SameStep result.1 result'.1
  status : result'.2.status = result.2.status
  channels : result.1 ≠ [] → SameChannels result.2.values result'.2.values

/-- A fresh thread with the messages of another. -/
def freshWith (messages : List Message) : Thread D := ⟨{ work := { messages := messages } }, .ended⟩

/-- A run on a thread goes as on a fresh thread with the same messages. -/
def Isolated (E : Engine D) (thread : Thread D) (run : Run D) : Prop :=
  SameRun (E.runOn (freshWith thread.values.work.messages) run) (E.runOn thread run)

theorem SameChannels.eq_with (h : SameChannels s s') : s' = { s with hitl := s'.hitl } := by
  obtain ⟨hb, hd, hw⟩ := h
  cases s'
  simp only at hb hd hw
  rw [hb, hd, hw]

theorem sameChannels_with (s : V2EngineState D.toCalculationDigests) (h : HitlChannels) : SameChannels s { s with hitl := h } :=
  ⟨rfl, rfl, rfl⟩

/-! ## One step -/

/-- The outcome with the approval channels replaced. -/
def withApproval (h : HitlChannels) : StepOutcome D → StepOutcome D
  | .moved s runtime next => .moved { s with hitl := h } runtime next
  | .suspended prompt => .suspended prompt
  | .failed e => .failed e

theorem sameOutcome_withApproval (h : HitlChannels) (outcome : StepOutcome D) : SameOutcome outcome (withApproval h outcome) := by
  cases outcome with
  | suspended prompt => exact rfl
  | failed e => exact rfl
  | moved s runtime next => exact ⟨sameChannels_with s h, rfl, rfl⟩

/-- A visit whose writes and whose edge leave the approval channels alone. -/
theorem stepOf_withApproval {γ α : Type} {log : γ → EngineCall D.toCalculationDigests} {visit : Visit γ α}
    {write write' : α → V2EngineState D.toCalculationDigests × Option TypedRuntimeBundle}
    {next : V2EngineState D.toCalculationDigests → Except NodeError (Option Node)} {h : HitlChannels}
    (hwrite : ∀ value, write' value = ({ (write value).1 with hitl := h }, (write value).2))
    (hnext : ∀ s, next { s with hitl := h } = next s) :
    stepOf log visit write' next = ⟨(stepOf log visit write next).calls, withApproval h (stepOf log visit write next).outcome⟩ := by
  unfold stepOf
  cases hr : visit.result with
  | error e => rfl
  | ok value =>
    simp only [hwrite, hnext]
    cases next (write value).1 <;> rfl

/-- A node that may suspend and leaves the approval channels alone. -/
theorem suspensionStep_withApproval {α : Type} {result : Except NodeError (Suspension α)}
    {write write' : α → V2EngineState D.toCalculationDigests × Option TypedRuntimeBundle}
    {next : V2EngineState D.toCalculationDigests → Except NodeError (Option Node)} {h : HitlChannels}
    (hwrite : ∀ value, write' value = ({ (write value).1 with hitl := h }, (write value).2))
    (hnext : ∀ s, next { s with hitl := h } = next s) :
    suspensionStep result write' next =
      ⟨(suspensionStep result write next).calls, withApproval h (suspensionStep result write next).outcome⟩ := by
  unfold suspensionStep
  split
  · rfl
  · exact stepOf_withApproval hwrite hnext
  · rfl

/-- A step at any node but the model and the approval does the same whatever the approval channels hold, and leaves them. -/
theorem step_withApproval {node : Node} (hmodel : node ≠ .model) (hhitl : node ≠ .hitl) (s : V2EngineState D.toCalculationDigests)
    (h : HitlChannels) (received : List Json) (runtime : Option TypedRuntimeBundle) :
    E.step config a ⟨node, { s with hitl := h }, received, runtime⟩ =
      ⟨(E.step config a ⟨node, s, received, runtime⟩).calls,
        withApproval h (E.step config a ⟨node, s, received, runtime⟩).outcome⟩ := by
  cases node with
  | model => exact absurd rfl hmodel
  | hitl => exact absurd rfl hhitl
  | decision =>
    simp only [step]
    exact suspensionStep_withApproval (fun _ => rfl) (fun _ => rfl)
  | receive =>
    unfold step silentStep stepOf
    rfl
  | _ =>
    simp only [step, silentStep]
    exact stepOf_withApproval (fun _ => rfl) (fun _ => rfl)

/-! ## Lockstep -/

/-- The nodes from which a run may still come to the model. -/
def beforeModel : Node → Bool
  | .typedRuntime | .context | .plan | .validate | .route | .model => true
  | _ => false

/-- Channels of two runs that stand at one node: those of an approval agree where they are read, and no approval is asked for before
the model. -/
structure RelatedAt (node : Node) (s s' : V2EngineState D.toCalculationDigests) : Prop where
  same : SameChannels s s'
  approval : node = .hitl → s'.hitl = s.hitl
  unasked : beforeModel node = true → s.work.needsHitl = false

/-- A step on the way to the model does not ask for an approval. -/
theorem unasked_moves {received runtime node s' runtime' next} (h : beforeModel node = true → s.work.needsHitl = false)
    (hm : Moves E config a s received runtime node s' runtime' (some next)) :
    beforeModel next = true → s'.work.needsHitl = false := by
  have kept {w : WorkChannels D.toCalculationDigests} (hnode : beforeModel node = true) (hframe : w.needsHitl = true → s.work.needsHitl = true) :
      w.needsHitl = false := by
    cases hw : w.needsHitl with
    | false => rfl
    | true => exact absurd ((h hnode).symm.trans (hframe hw)) (by decide)
  have hmem := next_mem_successors hm
  intro hnext
  cases hm with
  | receive => rfl
  | typedRuntime hw => exact kept rfl (frame_typedRuntime hw).approval
  | context hw => exact kept rfl (frame_context hw).approval
  | plan hw =>
    rcases frame_plan hw with hframe | rfl
    · exact kept rfl hframe.approval
    · exact h rfl
  | validate hv => exact kept rfl (frame_validate hv).approval
  | route hw => exact kept rfl (frame_route hw).approval
  | _ =>
    simp only [successors, List.mem_cons, List.not_mem_nil, or_false] at hmem
    rcases hmem with rfl | rfl <;> cases hnext

/-- Two steps in lockstep: the same calls, the same outcome, and channels that are related where the runs go on. -/
structure Lockstep (st st' : Step D) : Prop where
  calls : st'.calls = st.calls
  outcome : SameOutcome st.outcome st'.outcome
  goes : ∀ s runtime next, st.outcome = .moved s runtime (some next) →
    ∃ s', st'.outcome = .moved s' runtime (some next) ∧ RelatedAt next s s'

theorem lockstep_model (h : RelatedAt .model s s') (received : List Json) (runtime : Option TypedRuntimeBundle) :
    Lockstep (E.step config a ⟨.model, s, received, runtime⟩) (E.step config a ⟨.model, s', received, runtime⟩) := by
  rw [h.same.eq_with]
  generalize s'.hitl = approval
  simp only [step, stepOf]
  refine ⟨rfl, ?_, ?_⟩
  · cases hr : (E.model config s.binding a.now a.budgetElapsedMs a.invoke s.work).result with
    | error e => exact rfl
    | ok r => exact ⟨⟨rfl, rfl, rfl⟩, rfl, rfl⟩
  · intro s1 runtime1 next ho
    cases hr : (E.model config s.binding a.now a.budgetElapsedMs a.invoke s.work).result with
    | error e =>
      rw [hr] at ho
      cases ho
    | ok r =>
      rw [hr] at ho
      simp only [StepOutcome.moved.injEq] at ho
      obtain ⟨rfl, rfl, hnext⟩ := ho
      have hasked : r.1.needsHitl = true ∧ next = .hitl := by
        unfold afterModel at hnext
        split at hnext
        · rename_i hneeds
          exact ⟨hneeds, (Option.some.inj hnext).symm⟩
        · cases hnext
      obtain ⟨hneeds, rfl⟩ := hasked
      -- an approval that is asked for here comes with its channels
      obtain ⟨written, hwritten⟩ : ∃ written, r.2 = some written := by
        rcases (frame_model hr).approval hneeds with hbefore | hsome
        · exact absurd ((h.unasked rfl).symm.trans hbefore) (by decide)
        · exact Option.ne_none_iff_exists'.mp hsome
      refine ⟨_, congrArg (StepOutcome.moved _ _) hnext, ⟨rfl, rfl, rfl⟩, fun _ => ?_, (by rintro ⟨⟩)⟩
      simp [hwritten]

/-- Related channels take the same step. -/
theorem lockstep_step {node : Node} (h : RelatedAt node s s') (received : List Json) (runtime : Option TypedRuntimeBundle) :
    Lockstep (E.step config a ⟨node, s, received, runtime⟩) (E.step config a ⟨node, s', received, runtime⟩) := by
  by_cases hmodel : node = .model
  · subst hmodel
    exact lockstep_model h received runtime
  have hnext : ∀ s1 runtime1 next, (E.step config a ⟨node, s, received, runtime⟩).outcome = .moved s1 runtime1 (some next) →
      next ≠ .hitl ∧ (beforeModel next = true → s1.work.needsHitl = false) := by
    intro s1 runtime1 next ho
    have hm := moves_of_step ho
    refine ⟨?_, unasked_moves h.unasked hm⟩
    rintro rfl
    have hmem := next_mem_successors hm
    cases node <;> simp [successors] at hmem hmodel
  by_cases hhitl : node = .hitl
  · have heq : s' = s := by
      rw [h.same.eq_with, h.approval hhitl]
    subst heq
    refine ⟨rfl, ?_, fun s1 runtime1 next ho => ⟨s1, ho, ⟨rfl, rfl, rfl⟩, fun _ => rfl, (hnext s1 runtime1 next ho).2⟩⟩
    cases (E.step config a ⟨node, s', received, runtime⟩).outcome with
    | suspended prompt => exact rfl
    | failed e => exact rfl
    | moved s1 runtime1 next => exact ⟨⟨rfl, rfl, rfl⟩, rfl, rfl⟩
  · rw [h.same.eq_with, step_withApproval hmodel hhitl s s'.hitl received runtime]
    refine ⟨rfl, sameOutcome_withApproval _ _, fun s1 runtime1 next ho => ?_⟩
    obtain ⟨hne, hunasked⟩ := hnext s1 runtime1 next ho
    exact ⟨{ s1 with hitl := s'.hitl }, by simp only [ho, withApproval], sameChannels_with _ _, fun heq => absurd heq hne, hunasked⟩

/-- What two runs that went in lockstep leave. -/
structure RelatedThread (thread thread' : Thread D) : Prop where
  status : thread'.status = thread.status
  channels : SameChannels thread.values thread'.values
  stands : ∀ node received prompt, thread.status = .suspended node received prompt → RelatedAt node thread.values thread'.values

/-- Two runs that went in lockstep. -/
structure RelatedRun (result result' : List (Record D) × Thread D) : Prop extends RelatedThread result.2 result'.2 where
  steps : List.Forall₂ SameStep result.1 result'.1

/-- Invocations from related channels go in lockstep. By induction on the answers. -/
theorem related_runFrom (E : Engine D) (config : RunConfig) (answers : List (Answers D.toCalculationDigests)) {node : Node} {s s' : V2EngineState D.toCalculationDigests}
    (h : RelatedAt node s s') (received : List Json) (runtime : Option TypedRuntimeBundle) :
    RelatedRun (E.runFrom config answers ⟨node, s, received, runtime⟩) (E.runFrom config answers ⟨node, s', received, runtime⟩) := by
  induction answers generalizing node s s' received runtime with
  | nil => exact ⟨⟨rfl, h.same, by simp [runFrom]⟩, .nil⟩
  | cons a rest ih =>
    have hlock : Lockstep (E.step config a ⟨node, s, received, runtime⟩) (E.step config a ⟨node, s', received, runtime⟩) :=
      lockstep_step h received runtime
    have hstep : SameStep ⟨⟨node, s, received, runtime⟩, E.step config a ⟨node, s, received, runtime⟩⟩
        ⟨⟨node, s', received, runtime⟩, E.step config a ⟨node, s', received, runtime⟩⟩ := ⟨rfl, hlock.calls, hlock.outcome⟩
    have hout := hlock.outcome
    have hgoes := hlock.goes
    cases ho : (E.step config a ⟨node, s, received, runtime⟩).outcome with
    | suspended prompt =>
      cases ho' : (E.step config a ⟨node, s', received, runtime⟩).outcome with
      | suspended prompt' =>
        rw [ho, ho'] at hout
        cases hout
        simp only [runFrom, ho, ho']
        refine ⟨⟨rfl, h.same, fun n r p hs => ?_⟩, .cons hstep .nil⟩
        cases hs
        exact h
      | failed e => simp [ho, ho', SameOutcome] at hout
      | moved s1 runtime1 next => simp [ho, ho', SameOutcome] at hout
    | failed e =>
      cases ho' : (E.step config a ⟨node, s', received, runtime⟩).outcome with
      | failed e' =>
        rw [ho, ho'] at hout
        cases hout
        simp only [runFrom, ho, ho']
        exact ⟨⟨rfl, h.same, by simp⟩, .cons hstep .nil⟩
      | suspended prompt => simp [ho, ho', SameOutcome] at hout
      | moved s1 runtime1 next => simp [ho, ho', SameOutcome] at hout
    | moved s1 runtime1 next =>
      cases next with
      | some target =>
        obtain ⟨s1', ho', hrelated⟩ := hgoes s1 runtime1 target ho
        have hrest := ih hrelated [] runtime1
        simp only [runFrom, ho, ho']
        exact ⟨hrest.toRelatedThread, .cons hstep hrest.steps⟩
      | none =>
        cases ho' : (E.step config a ⟨node, s', received, runtime⟩).outcome with
        | moved s1' runtime1' next' =>
          rw [ho, ho'] at hout
          obtain ⟨hsame, rfl, rfl⟩ := hout
          simp only [runFrom, ho, ho']
          exact ⟨⟨rfl, hsame, by simp⟩, .cons hstep .nil⟩
        | suspended prompt => simp [ho, ho', SameOutcome] at hout
        | failed e => simp [ho, ho', SameOutcome] at hout

theorem related_resume {thread thread' : Thread D} (h : RelatedThread thread thread') (payload : Json) (invocation : Invocation D) :
    RelatedRun (E.resume thread payload invocation) (E.resume thread' payload invocation) := by
  have hstatus := h.status
  cases hs : thread.status with
  | suspended node received prompt =>
    rw [hs] at hstatus
    simp only [Engine.resume, hs, hstatus]
    exact related_runFrom E _ _ (h.stands node received prompt hs) _ _
  | ended =>
    rw [hs] at hstatus
    simp only [Engine.resume, hs, hstatus]
    exact ⟨h, .nil⟩
  | failed node e =>
    rw [hs] at hstatus
    simp only [Engine.resume, hs, hstatus]
    exact ⟨h, .nil⟩
  | cut node =>
    rw [hs] at hstatus
    simp only [Engine.resume, hs, hstatus]
    exact ⟨h, .nil⟩

theorem related_resumes (list : List (Json × Invocation D)) {thread thread' : Thread D} (h : RelatedThread thread thread') :
    RelatedRun (E.resumes thread list) (E.resumes thread' list) := by
  induction list generalizing thread thread' with
  | nil => exact ⟨h, .nil⟩
  | cons next rest ih =>
    have hfirst := related_resume (E := E) h next.1 next.2
    have hlater := ih hfirst.toRelatedThread
    exact ⟨hlater.toRelatedThread, List.rel_append hfirst.steps hlater.steps⟩

/-- Nothing resumes a run that was cut off. -/
theorem resumes_cut (list : List (Json × Invocation D)) (s : V2EngineState D.toCalculationDigests) (node : Node) :
    E.resumes ⟨s, .cut node⟩ list = ([], ⟨s, .cut node⟩) := by
  induction list with
  | nil => rfl
  | cons next rest ih => simp [resumes, Engine.resume, ih]

/-! ## From the receiving node -/

/-- The channels of the mode capability hold nothing. -/
def Unmarked (w : WorkChannels D.toCalculationDigests) : Prop := w.modeCapabilityPending = false ∧ w.modeCapabilityOutcome = none

/-- Where the channels of the mode capability hold nothing, the receiving node leaves what it leaves on a fresh thread. -/
theorem related_receive (config : RunConfig) {thread : Thread D} (h : Unmarked thread.values.work) {input : RunInput} (hinput : input.runEnvelope ≠ none)
    (now : Int) {node : Node} (hnode : node ≠ .hitl) :
    RelatedAt node (receive config now (withInput (freshWith thread.values.work.messages : Thread D).values input))
      (receive config now (withInput thread.values input)) := by
  obtain ⟨envelope, henvelope⟩ := Option.ne_none_iff_exists'.mp hinput
  refine ⟨⟨?_, rfl, ?_⟩, fun heq => absurd heq hnode, fun _ => rfl⟩
  · simp [receive, withInput, henvelope]
  · simp [receive, withInput, freshWith, h.1, h.2]

/-- The step of the receiving node. -/
theorem step_receive (s : V2EngineState D.toCalculationDigests) (received : List Json) (runtime : Option TypedRuntimeBundle) :
    (E.step config a ⟨.receive, s, received, runtime⟩).calls = [] ∧
    (E.step config a ⟨.receive, s, received, runtime⟩).outcome =
      .moved (receive config a.now s) runtime (some (if E.wiring = .factory then .typedRuntime else .context)) := ⟨rfl, rfl⟩

/-- A run on a thread whose channels of the mode capability hold nothing goes as on a fresh thread. -/
theorem isolated_of_unmarked {thread : Thread D} (h : Unmarked thread.values.work) {run : Run D} (hinput : run.input.runEnvelope ≠ none) :
    Isolated E thread run := by
  obtain ⟨input, ⟨config, answers⟩, list⟩ := run
  cases answers with
  | nil =>
    simp only [Isolated, runOn, start, runFrom, resumes_cut]
    exact ⟨.nil, rfl, fun hne => absurd rfl hne⟩
  | cons a rest =>
    have hnode : (if E.wiring = .factory then Node.typedRuntime else .context) ≠ .hitl := by split <;> decide
    have hrelated := related_receive config h hinput a.now hnode
    have hfirst := related_runFrom E config rest hrelated [] none
    have hlater := related_resumes (E := E) list hfirst.toRelatedThread
    have hstep : SameStep
        ⟨⟨.receive, withInput (freshWith thread.values.work.messages : Thread D).values input, [], none⟩,
          E.step config a ⟨.receive, withInput (freshWith thread.values.work.messages : Thread D).values input, [], none⟩⟩
        ⟨⟨.receive, withInput thread.values input, [], none⟩,
          E.step config a ⟨.receive, withInput thread.values input, [], none⟩⟩ := by
      refine ⟨rfl, rfl, ?_⟩
      rw [(step_receive _ _ _).2, (step_receive _ _ _).2]
      exact ⟨hrelated.same, rfl, rfl⟩
    simp only [Isolated, runOn, start, runFrom, (step_receive _ _ _).2]
    exact ⟨.cons hstep (List.rel_append hfirst.steps hlater.steps), hlater.status, fun _ => hlater.channels⟩

/-- The answers of code that always fails. -/
def failingAnswers : Answers D.toCalculationDigests where
  now := 0
  factory := .raised
  resolve := .error .raised
  propose := .error .raised
  replan := none
  runners := ⟨fun _ _ _ _ => .error .raised, fun _ _ _ => .error .raised, none, none, fun _ _ _ => .error .raised, fun _ => 0⟩
  budgetElapsedMs := 0
  invoke := .error .raised
  invokeStructured := .error .raised

/-- A run that goes as on a fresh thread finds the channels of the mode capability empty: the receiving node hands them on. -/
theorem unmarked_of_isolated {thread : Thread D} (h : ∀ run : Run D, run.input.runEnvelope ≠ none → Isolated E thread run) :
    Unmarked thread.values.work := by
  have hrun := h ⟨⟨[], some none⟩, ⟨⟨none, none, none, false⟩, [failingAnswers]⟩, []⟩ nofun
  have hsteps := hrun.steps
  simp only [runOn, start, runFrom, (step_receive _ _ _).2, resumes, List.append_nil] at hsteps
  cases hsteps with
  | cons hstep _ =>
    have hout := hstep.outcome
    rw [(step_receive _ _ _).2, (step_receive _ _ _).2] at hout
    have hwork := hout.1.work
    exact ⟨congrArg WorkChannels.modeCapabilityPending hwork, congrArg WorkChannels.modeCapabilityOutcome hwork⟩

/-! ## Histories -/

/-- A step that leads to the capability node, or is at it. -/
def Suggests (record : Record D) : Prop :=
  record.cursor.node = .modeCapability ∨ ∃ s runtime, record.step.outcome = .moved s runtime (some .modeCapability)

/-- The steps of runs on a thread, one run after another. -/
def visited (E : Engine D) : Thread D → List (Run D) → List (Record D)
  | _, [] => []
  | thread, run :: rest => (E.runOn thread run).1 ++ visited E (E.runOn thread run).2 rest

theorem unmarked_of_same {w w' : WorkChannels D.toCalculationDigests} (h : Unmarked w) (hsame : SameCapability w w') : Unmarked w' :=
  ⟨hsame.pending.trans h.1, hsame.outcome.trans h.2⟩

/-- A step that does not lead to the capability node leaves no mark. -/
theorem unmarked_moves {received runtime node s' runtime' next} (h : Unmarked s.work) (hnode : node ≠ .modeCapability)
    (hnext : next ≠ some .modeCapability) (hm : Moves E config a s received runtime node s' runtime' next) : Unmarked s'.work := by
  cases hm with
  | receive => exact h
  | typedRuntime hw => exact unmarked_of_same h (frame_typedRuntime hw).toSameCapability
  | context hw => exact unmarked_of_same h (frame_context hw).toSameCapability
  | plan hw hedge =>
    rcases frame_plan hw with hframe | rfl
    · exact unmarked_of_same h hframe.toSameCapability
    · -- a pending capability is where the edge leads
      exact absurd hedge.symm hnext
  | validate hv => exact unmarked_of_same h (frame_validate hv).toSameCapability
  | route hw => exact unmarked_of_same h (frame_route hw).toSameCapability
  | compile hw => exact unmarked_of_same h (frame_compile hw).toSameCapability
  | modeCapability => exact absurd rfl hnode
  | execute hw => exact unmarked_of_same h (frame_execute hw).toSameCapability
  | analysis hw => exact unmarked_of_same h (frame_analysis hw).toSameCapability
  | model hw => exact unmarked_of_same h (frame_model hw).toSameCapability
  | hitl hw => exact unmarked_of_same h (capability_hitlVisit hw)
  | decision hd => exact unmarked_of_same h (frame_decision hd).1.toSameCapability
  | replan hr => exact unmarked_of_same h (frame_replan hr).toSameCapability

theorem unmarked_runFrom (answers : List (Answers D.toCalculationDigests)) (c : Cursor D) (h : Unmarked c.values.work)
    (hquiet : ∀ record ∈ (E.runFrom config answers c).1, ¬ Suggests record) : Unmarked (E.runFrom config answers c).2.values.work := by
  induction answers generalizing c with
  | nil => exact h
  | cons a rest ih =>
    cases ho : (E.step config a c).outcome with
    | suspended prompt =>
      simp only [runFrom, ho]
      exact h
    | failed e =>
      simp only [runFrom, ho]
      exact h
    | moved s runtime next =>
      have hfirst : ¬ Suggests ⟨c, E.step config a c⟩ := by
        refine hquiet _ ?_
        cases next <;> simp only [runFrom, ho] <;> exact List.mem_cons_self
      have hs : Unmarked s.work := by
        refine unmarked_moves h (fun hnode => hfirst (.inl hnode)) (fun hnext => hfirst (.inr ⟨s, runtime, ?_⟩)) (moves_of_step ho)
        rw [ho, hnext]
      cases next with
      | none =>
        simp only [runFrom, ho]
        exact hs
      | some node =>
        simp only [runFrom, ho] at hquiet ⊢
        exact ih ⟨node, s, [], runtime⟩ hs fun record hrecord => hquiet record (List.mem_cons_of_mem _ hrecord)

theorem unmarked_resumes (list : List (Json × Invocation D)) {thread : Thread D} (h : Unmarked thread.values.work)
    (hquiet : ∀ record ∈ (E.resumes thread list).1, ¬ Suggests record) : Unmarked (E.resumes thread list).2.values.work := by
  induction list generalizing thread with
  | nil => exact h
  | cons next rest ih =>
    simp only [resumes, List.mem_append] at hquiet
    refine ih ?_ fun record hrecord => hquiet record (.inr hrecord)
    have hfirst : ∀ record ∈ (E.resume thread next.1 next.2).1, ¬ Suggests record := fun record hrecord => hquiet record (.inl hrecord)
    unfold Engine.resume at hfirst ⊢
    split
    · rename_i node received prompt hs
      simp only [hs] at hfirst
      exact unmarked_runFrom _ _ h hfirst
    · exact h

theorem unmarked_runOn {thread : Thread D} (h : Unmarked thread.values.work) (run : Run D)
    (hquiet : ∀ record ∈ (E.runOn thread run).1, ¬ Suggests record) : Unmarked (E.runOn thread run).2.values.work := by
  simp only [runOn, List.mem_append] at hquiet
  refine unmarked_resumes _ ?_ fun record hrecord => hquiet record (.inr hrecord)
  exact unmarked_runFrom _ _ h fun record hrecord => hquiet record (.inl hrecord)

/-- Runs that are not led to the capability node leave no mark. -/
theorem unmarked_runs (runs : List (Run D)) {thread : Thread D} (h : Unmarked thread.values.work)
    (hquiet : ∀ record ∈ visited E thread runs, ¬ Suggests record) :
    Unmarked (runs.foldl (fun thread run => (E.runOn thread run).2) thread).values.work := by
  induction runs generalizing thread with
  | nil => exact h
  | cons run rest ih =>
    simp only [visited, List.mem_append] at hquiet
    exact ih (unmarked_runOn h run fun record hrecord => hquiet record (.inl hrecord)) fun record hrecord => hquiet record (.inr hrecord)

end IsolationAux

open IsolationAux

/-- After every sequence of runs on a thread: where none of them was led to the capability node, every new run with an envelope of its
own goes as on a fresh thread with the same messages. And of the channels the thread holds it is exactly those of the mode capability
that decide it: every new run goes as on a fresh thread if and only if they hold nothing. -/
theorem run_isolation_iff {D : EngineDigests} (E : Engine D) (runs : List (Run D)) :
    ((∀ record ∈ visited E {} runs, ¬ Suggests record) →
      ∀ run : Run D, run.input.runEnvelope ≠ none → Isolated E (E.history runs) run) ∧
    ((∀ run : Run D, run.input.runEnvelope ≠ none → Isolated E (E.history runs) run) ↔
      (E.history runs).values.work.modeCapabilityPending = false ∧ (E.history runs).values.work.modeCapabilityOutcome = none) := by
  refine ⟨fun hquiet run hinput => ?_, fun h => unmarked_of_isolated h, fun h run hinput => isolated_of_unmarked h hinput⟩
  exact isolated_of_unmarked (unmarked_runs runs ⟨rfl, rfl⟩ hquiet) hinput

/-! ## An ANALYZE run behind a QUERY run -/

/-- The answers of a visit of a run whose question no deterministic plan serves. -/
def unsupportedAnswers : Answers grainDigests.toCalculationDigests := { salesAnswers with propose := .error .unsupported }

/-- A QUERY run that is led to the capability node. -/
def unsupportedRun : Run grainDigests := { salesRun with invocation := ⟨salesConfig, List.replicate 12 unsupportedAnswers⟩ }

theorem fresh_lineage : (none : Option (BoundedText 1 64)) = none → (none : Option (BoundedText 1 128)) = none := fun _ => rfl

/-- The ANALYZE run that the outcome suggested. -/
def analyzeRun : Run grainDigests where
  input := ⟨[⟨.human, "revenue in January 2026"⟩], some (some ⟨⟨"run-2", by decide⟩, .analyze, .analyze, none, none, rfl, nofun, fresh_lineage⟩)⟩
  invocation := ⟨salesConfig, List.replicate 12 { salesAnswers with propose := .ok revenuePlan }⟩
  resumes := []

/-- The ANALYZE run has a plan, and on a fresh thread it is validated, compiled and executed. Behind the QUERY run it is led to the
capability node and stops there, as a QUERY that cannot be resolved. -/
theorem run_isolation_analyze :
    analyzeRun.input.runEnvelope ≠ none ∧
    ((salesEngine.runOn (freshWith (salesEngine.history [unsupportedRun]).values.work.messages) analyzeRun).1.map
      (·.cursor.node)).take 8 = [Node.receive, .typedRuntime, .context, .plan, .validate, .route, .compile, .execute] ∧
    (salesEngine.runOn (salesEngine.history [unsupportedRun]) analyzeRun).1.map (·.cursor.node) =
      [.receive, .typedRuntime, .context, .plan, .modeCapability] ∧
    (salesEngine.runOn (salesEngine.history [unsupportedRun]) analyzeRun).2.values.work.stopReason = some "mode_cannot_resolve" := by
  refine ⟨nofun, ?_⟩
  decide +kernel

end Nl2Sql
