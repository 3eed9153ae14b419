import Nl2Sql.Engine.Clarify

/-!
# The graph and its runs

The edges of `create_v2_engine` and the execution of the graph over a thread. An invocation visits one node after another until the run
ends, suspends or fails; each visit has its own answers of the injected code, and an invocation whose answers run out is one that was cut
off there. The runtime of a request lives as long as the invocation. A thread keeps the channels and where its run stands: a new run
begins at the receiving node whatever the thread holds, and a suspended run is resumed by executing its node again with one payload more.
-/

namespace Nl2Sql

open Py

/-- The nodes of the graph. -/
inductive Node where
  | receive | typedRuntime | context | plan | validate | route | compile | modeCapability | execute | analysis | model | hitl | decision
  | replan
  deriving DecidableEq, Repr

/-- Where a run stands during an invocation. -/
structure Cursor (D : EngineDigests) where
  node : Node
  values : V2EngineState D.toCalculationDigests
  /-- the payloads the interrupts of the node return -/
  received : List Json
  /-- the runtime of the invocation -/
  runtime : Option TypedRuntimeBundle

/-- What the execution of one node comes to. -/
inductive StepOutcome (D : EngineDigests) where
  | suspended (prompt : Prompt)
  | failed (error : NodeError)
  | moved (values : V2EngineState D.toCalculationDigests) (runtime : Option TypedRuntimeBundle) (next : Option Node)

/-- The execution of one node: its calls and what it came to. -/
structure Step (D : EngineDigests) where
  calls : List (EngineCall D.toCalculationDigests)
  outcome : StepOutcome D

namespace Engine

variable {D : EngineDigests} (E : Engine D)

/-! ## Edges -/

/-- `after_typed_runtime` and `after_context` and `after_compile`: on to a node unless the run is stopped. -/
def unlessStopped (w : WorkChannels D.toCalculationDigests) (next : Node) : Option Node := if w.stopped then none else some next

variable (s : V2EngineState D.toCalculationDigests)

/-- `after_plan`. -/
def afterPlan : Option Node :=
  if s.work.modeCapabilityPending then some .modeCapability
  else if s.binding.effectiveMode = some .build ∧ s.work.responseBlocks ≠ [] then none
  else unlessStopped s.work .validate

/-- A typed request is pending. -/
def awaitingDecision (d : DecisionChannels) : Bool := decide (d.decisionStatus = some .awaitingDecision) && d.pendingDecision.isSome

/-- `after_validation`. -/
def afterValidation : Option Node :=
  if s.work.stopped then none
  else if awaitingDecision s.decision then some .decision
  else some .route

/-- `after_decision`. -/
def afterDecision : Option Node :=
  if s.decision.decisionStatus = some .resolvedPendingRevalidation then some .replan else none

/-- `after_replan`. -/
def afterReplan : Option Node :=
  if awaitingDecision s.decision then some .decision
  else if s.decision.continuationReady then some .execute
  else none

/-- `after_route`. A mode is one of the three, so the branch for an unrecognized mode is not there. -/
def afterRoute : Except NodeError (Option Node) :=
  if s.work.stopped then .ok none
  else
    match s.binding.effectiveMode with
    | some .query => .ok (some (if E.typedPipelineEnabled then .compile else .modeCapability))
    | mode =>
      if mode = some .analyze ∧ E.typedPipelineEnabled then .ok (some .compile)
      else if E.typedPipelineEnabled then do
        let route ← activeRoute s.work
        return some (if route = .fast then .compile else .model)
      else .ok (some .model)

/-- `after_execute`. -/
def afterExecute : Option Node :=
  if s.work.stopped then none
  else if s.binding.effectiveMode = some .analyze then some .analysis
  else none

/-- `after_model`. -/
def afterModel : Option Node := if s.work.needsHitl then some .hitl else none

/-! ## Execution of one node -/

/-- A visit as a step: what the node returned is written, and the edge is taken. An edge that raises fails the node. -/
def stepOf {γ α : Type} (log : γ → EngineCall D.toCalculationDigests) (visit : Visit γ α)
    (write : α → V2EngineState D.toCalculationDigests × Option TypedRuntimeBundle)
    (next : V2EngineState D.toCalculationDigests → Except NodeError (Option Node)) : Step D where
  calls := visit.calls.map log
  outcome :=
    match visit.result with
    | .error e => .failed e
    | .ok value =>
      match next (write value).1 with
      | .error e => .failed e
      | .ok node => .moved (write value).1 (write value).2 node

/-- A step without calls. -/
def silentStep {α : Type} (result : Except NodeError α) (write : α → V2EngineState D.toCalculationDigests × Option TypedRuntimeBundle)
    (next : V2EngineState D.toCalculationDigests → Except NodeError (Option Node)) : Step D :=
  stepOf (γ := Empty) (fun call => call.elim) (.silent result) write next

/-- A step of a node that may suspend. -/
def suspensionStep {α : Type} (result : Except NodeError (Suspension α))
    (write : α → V2EngineState D.toCalculationDigests × Option TypedRuntimeBundle)
    (next : V2EngineState D.toCalculationDigests → Except NodeError (Option Node)) : Step D :=
  match result with
  | .ok (.suspended prompt) => ⟨[], .suspended prompt⟩
  | .ok (.returned value) => silentStep (.ok value) write next
  | .error e => ⟨[], .failed e⟩

/-- `hitl_node` with its interrupt. -/
def hitlVisit (received : List Json) (h : HitlChannels) (w : WorkChannels D.toCalculationDigests) :
    Except NodeError (Suspension (HitlChannels × WorkChannels D.toCalculationDigests)) :=
  match received with
  | [] => .ok (.suspended (.approval (h.hitlVersion.getD 1) w.pendingAnswer))
  | payload :: _ => (E.hitl payload h w).map .returned

/-- The execution of the node a run stands at. -/
def step (config : RunConfig) (a : Answers D.toCalculationDigests) (c : Cursor D) : Step D :=
  let s := c.values
  let work (w : WorkChannels D.toCalculationDigests) := ({ s with work := w }, c.runtime)
  let clarified (r : DecisionChannels × WorkChannels D.toCalculationDigests) := ({ s with decision := r.1, work := r.2 }, c.runtime)
  match c.node with
  | .receive =>
    silentStep (.ok (receive config a.now s)) (fun s => (s, c.runtime)) fun _ =>
      .ok (some (if E.wiring = .factory then .typedRuntime else .context))
  | .typedRuntime =>
    stepOf .factory (typedRuntime config a.factory s.work) (fun r => ({ s with work := r.1 }, r.2)) fun s =>
      .ok (unlessStopped s.work .context)
  | .context =>
    stepOf .resolve (E.context config c.runtime s.binding a.now a.resolve s.work) work fun s => .ok (unlessStopped s.work .plan)
  | .plan => stepOf .propose (E.plan config c.runtime s.binding a.now a.propose s.work) work fun s => .ok (afterPlan s)
  | .validate => silentStep (.ok (E.validate config s.decision s.work)) clarified fun s => .ok (afterValidation s)
  | .route => silentStep (E.route config s.binding a.now s.work) work E.afterRoute
  | .compile => silentStep (E.compile s.work) work fun s => .ok (unlessStopped s.work .execute)
  | .modeCapability => silentStep (.ok (modeCapability s.binding s.work)) work fun _ => .ok none
  | .execute =>
    stepOf .execute (E.execute config c.runtime s.binding a.now a.runners s.work) work fun s => .ok (afterExecute s)
  | .analysis => stepOf .analysis (E.analysis config s.binding a.now a.invokeStructured s.work) work fun _ => .ok none
  | .model =>
    stepOf .model (E.model config s.binding a.now a.budgetElapsedMs a.invoke s.work)
      (fun r => ({ s with work := r.1, hitl := r.2.getD s.hitl }, c.runtime)) fun s => .ok (afterModel s)
  | .hitl =>
    suspensionStep (E.hitlVisit c.received s.hitl s.work) (fun r => ({ s with hitl := r.1, work := r.2 }, c.runtime)) fun _ => .ok none
  | .decision => suspensionStep (.ok (decision c.received s.decision s.work)) clarified fun s => .ok (afterDecision s)
  | .replan => stepOf .replan (E.replan config c.runtime a s.decision s.work) clarified fun s => .ok (afterReplan s)

/-! ## Invocations -/

/-- One executed node of a run: where the run stood and what the step came to. -/
structure Record (D : EngineDigests) where
  cursor : Cursor D
  step : Step D

/-- Where a thread's run stands. A run that failed or was cut off is not resumed. -/
inductive Status where
  | ended
  | suspended (node : Node) (received : List Json) (prompt : Prompt)
  | failed (node : Node) (error : NodeError)
  | cut (node : Node)

/-- A thread: its channels and where its run stands. -/
structure Thread (D : EngineDigests) where
  values : V2EngineState D.toCalculationDigests := {}
  status : Status := .ended

/-- The nodes an invocation executes, and the thread it leaves. -/
def runFrom (config : RunConfig) : List (Answers D.toCalculationDigests) → Cursor D → List (Record D) × Thread D
  | [], c => ([], ⟨c.values, .cut c.node⟩)
  | a :: rest, c =>
    let step := E.step config a c
    match step.outcome with
    | .suspended prompt => ([⟨c, step⟩], ⟨c.values, .suspended c.node c.received prompt⟩)
    | .failed e => ([⟨c, step⟩], ⟨c.values, .failed c.node e⟩)
    | .moved values _ none => ([⟨c, step⟩], ⟨values, .ended⟩)
    | .moved values runtime (some node) =>
      let (records, thread) := runFrom config rest ⟨node, values, [], runtime⟩
      (⟨c, step⟩ :: records, thread)

/-- The configuration of an invocation and the answers of its visits. -/
structure Invocation (D : EngineDigests) where
  config : RunConfig
  answers : List (Answers D.toCalculationDigests)

/-- The input of a run: its messages and, where it carries one, its envelope; a malformed envelope is none. -/
structure RunInput where
  messages : List Message
  runEnvelope : Option (Option RunEnvelope)

/-- The channels of a thread with the input of a run written to them. -/
def withInput (input : RunInput) : V2EngineState D.toCalculationDigests :=
  { s with
    binding := { s.binding with runEnvelope := input.runEnvelope.getD s.binding.runEnvelope }
    work := { s.work with messages := s.work.messages ++ input.messages } }

/-- A new run on a thread, up to its first suspension. -/
def start (thread : Thread D) (input : RunInput) (invocation : Invocation D) : List (Record D) × Thread D :=
  E.runFrom invocation.config invocation.answers ⟨.receive, withInput thread.values input, [], none⟩

/-- A suspended run resumed with a payload; there is nothing to resume in a thread that is not suspended. -/
def resume (thread : Thread D) (payload : Json) (invocation : Invocation D) : List (Record D) × Thread D :=
  match thread.status with
  | .suspended node received _ =>
    E.runFrom invocation.config invocation.answers ⟨node, thread.values, received ++ [payload], none⟩
  | _ => ([], thread)

/-- Resumes of a thread, one after another. -/
def resumes : Thread D → List (Json × Invocation D) → List (Record D) × Thread D
  | thread, [] => ([], thread)
  | thread, (payload, invocation) :: rest =>
    let first := E.resume thread payload invocation
    let later := resumes first.2 rest
    (first.1 ++ later.1, later.2)

/-- One run: its input, its first invocation, and the payloads it is resumed with. -/
structure Run (D : EngineDigests) where
  input : RunInput
  invocation : Invocation D
  resumes : List (Json × Invocation D)

/-- The nodes a run executes on a thread, and the thread it leaves. -/
def runOn (thread : Thread D) (run : Run D) : List (Record D) × Thread D :=
  let first := E.start thread run.input run.invocation
  let later := E.resumes first.2 run.resumes
  (first.1 ++ later.1, later.2)

/-- The thread that runs leave, one after another. -/
def history (runs : List (Run D)) : Thread D := runs.foldl (fun thread run => (E.runOn thread run).2) {}

end Engine

end Nl2Sql
