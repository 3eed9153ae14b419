import Nl2Sql.Lemmas.Frame
import Nl2Sql.Theorems.Decision
import Nl2Sql.Theorems.Provenance

/-!
# The continuation of a clarified run

A decision that resolves a clarification leads to a replan, and a replan that is allowed was to be executed under the current
authorization. No resumed run comes to that: the runtime the replan needs lived in the invocation that suspended, and the runtime the
continuation reads is in a channel that the state does not have.
-/

namespace Nl2Sql

open Py Engine

namespace ContinuationAux

variable {D : EngineDigests} {E : Engine D}

/-- The calls of the executor of some steps. -/
def executeCalls (records : List (Record D)) : List (EngineCall D.toCalculationDigests) :=
  (records.flatMap (·.step.calls)).filter (·.isExecute)

/-- Steps that are not at the execute node do not call the executor. -/
theorem executeCalls_eq_nil {records : List (Record D)}
    (h : ∀ record ∈ records, ∃ config a, record.step = E.step config a record.cursor ∧ record.cursor.node ≠ .execute) :
    executeCalls records = [] := by
  refine List.filter_eq_nil_iff.mpr fun call hcall hexecute => ?_
  obtain ⟨record, hrecord, hmem⟩ := List.mem_flatMap.mp hcall
  obtain ⟨config, a, hstep, hnode⟩ := h record hrecord
  rw [hstep] at hmem
  exact hnode (execute_of_call hmem hexecute)

/-- The replanning node leaves the continuation as it was. -/
theorem ready_replan {d d' : DecisionChannels} (h : Replanned D d d') : d'.continuationReady = d.continuationReady := by
  cases h <;> rfl

/-- Where a run stands after it suspended for a decision: between the decision and the replan, with no continuation ready. -/
def Clarifies (node : Node) (s : V2EngineState D.toCalculationDigests) : Prop :=
  (node = .decision ∨ node = .replan) ∧ s.decision.continuationReady = false

theorem clarifies_moves {config a s received runtime node s' runtime' next} (h : Clarifies node s)
    (hm : Moves E config a s received runtime node s' runtime' (some next)) : Clarifies next s' := by
  obtain ⟨rfl | rfl, hready⟩ := h
  · cases hm with
    | decision hd hnext => exact ⟨.inr (afterDecision_eq_some hnext).1, (frame_decision hd).2.trans hready⟩
  · cases hm with
    | replan hr hnext =>
      have hready' := (ready_replan (replan_eq_ok hr)).trans hready
      rcases afterReplan_eq_some hnext with ⟨rfl, -⟩ | ⟨-, hcontinues⟩
      · exact ⟨.inl rfl, hready'⟩
      · exact absurd (hready'.symm.trans hcontinues) (by decide)

/-- The steps of a run are steps of the engine, and none of them is at the execute node. -/
def Unexecuted (E : Engine D) (records : List (Record D)) : Prop :=
  ∀ record ∈ records, ∃ config a, record.step = E.step config a record.cursor ∧ record.cursor.node ≠ .execute

theorem unexecuted_nil : Unexecuted E ([] : List (Record D)) := fun _ h => absurd h List.not_mem_nil

theorem unexecuted_append {past : List (Record D)} (h : Unexecuted E past) (config : RunConfig) (a : Answers D.toCalculationDigests)
    {c : Cursor D} (hc : Clarifies c.node c.values) : Unexecuted E (past ++ [(⟨c, E.step config a c⟩ : Record D)]) := by
  intro record hrecord
  rcases List.mem_append.mp hrecord with hpast | hlast
  · exact h record hpast
  · cases List.mem_singleton.mp hlast
    refine ⟨config, a, rfl, fun hnode => ?_⟩
    rcases hc.1 with hdecision | hreplan
    · exact nomatch hdecision.symm.trans hnode
    · exact nomatch hreplan.symm.trans hnode

theorem rule (E : Engine D) : RunRule E (fun past node s => Unexecuted E past ∧ Clarifies node s) (Unexecuted E) where
  holds _ _ _ h := h.1
  moves config a _ _ _ _ _ h ho := ⟨unexecuted_append h.1 config a h.2, clarifies_moves h.2 (moves_of_step ho)⟩
  suspends config a _ _ _ h _ := ⟨unexecuted_append h.1 config a h.2, h.2⟩
  steps config a _ _ h := unexecuted_append h.1 config a h.2

/-- A thread waits for a decision. -/
def waitsForDecision (thread : Thread D) : Bool :=
  match thread.status with
  | .suspended .decision _ _ => true
  | _ => false

theorem suspended_of_waits {thread : Thread D} (h : waitsForDecision thread = true) :
    ∃ received prompt, thread.status = .suspended .decision received prompt := by
  unfold waitsForDecision at h
  split at h
  · rename_i received prompt hs
    exact ⟨received, prompt, hs⟩
  · cases h

/-- The plan a resume is to execute, with the query it was compiled from: none unless the payload resolves the pending request and is
eligible, the replan is allowed, the current authorization is present, the factory returns a runtime, and the compiled plan is allowed
under the limits of every route. -/
def continuablePlan? (E : Engine D) (thread : Thread D) (payload : Json) (config : RunConfig) (a : Answers D.toCalculationDigests) :
    Option (QueryPlan × ExecutionPlan D.toCalculationDigests) := do
  let stored ← thread.values.decision.pendingDecision
  let decision ← (typedDecisionFromPayload stored payload).toOption
  let token ← resumeToken? D.decision stored decision
  let (d, w) ← settle? stored decision token thread.values.decision thread.values.work
  let (_, _, context, _) ← (E.replanInputs d w).toOption.bind Except.toOption
  let identity ← config.identity
  let newPlan ← a.replan.bind Except.toOption
  let validation ← E.validator.validateQueryPlan D.toPlanDigests newPlan context identity.toRequestIdentity
  let executionPlan ← (E.compiler.compile D.toPlanDigests newPlan context validation).toOption
  let outcomes := [RouteName.fast, .standard, .deep].map fun route =>
    (E.validator.validateExecutionPlan D.toPlanDigests executionPlan newPlan context (E.budgetPolicy.routes route)).map (·.outcome)
  match config.authorization, a.factory with
  | some _, .runtime _ =>
    if validation.outcome = .allow ∧ ∀ outcome ∈ outcomes, outcome = some .allow then some (newPlan, executionPlan) else none
  | _, _ => none

end ContinuationAux

open ContinuationAux

/-- A run that is suspended for a decision never calls the executor again, whatever it is resumed with: not for a decision that is
eligible, not where the replan is allowed, the current authorization present, the runtime rebuilt and the compiled plan allowed. -/
theorem continuation_never_executes {D : EngineDigests} (E : Engine D) (thread : Thread D) (run : Run D) (received : List Json)
    (prompt : Prompt) (hs : (E.runOn thread run).2.status = .suspended .decision received prompt)
    (later : List (Json × Invocation D)) : executeCalls (E.resumes (E.runOn thread run).2 later).1 = [] := by
  have hready := (DecisionAux.asked_of_suspended thread run hs).not_ready
  have hstands : StandsAt (fun node s => Unexecuted E [] ∧ Clarifies node s) (E.runOn thread run).2 := by
    intro node received' prompt' hs'
    rw [hs] at hs'
    cases hs'
    exact ⟨unexecuted_nil, .inl rfl, hready⟩
  have hall := ((rule E).resumes later (E.runOn thread run).2 [] unexecuted_nil hstands).1
  exact executeCalls_eq_nil hall

/-! ## A revenue query whose grain is asked for -/

/-- The query for revenue before its grain is known. -/
def grainPlan : QueryPlan :=
  { revenuePlan with unresolvedSlots := ["grain"], slots_length := by decide, slots_valid := by decide }

theorem revenueHash : isSha256 "27b78247750b570f4e70340c5b4dabb8dc0adfbcfc7cdcb5baa9effd8817ffb1" = true := isSha256_ofList rfl

theorem salesHash : isSha256 "ff44681eb6086c0569d5ea5a887df443f53211986b7bfd6cad1c28cc8bd83632" = true := isSha256_ofList rfl

theorem artifactHash : isSha256 "541007ba712b5245c0533f8d0d891944378af1bf7a75dd49c5c9249e4dba972d" = true := isSha256_ofList rfl

/-- The digests at the contracts of the run. -/
def grainDigests : EngineDigests :=
  { checkedDigests with
    queryPlan := fun plan =>
      if plan.unresolvedSlots = [] then ⟨"27b78247750b570f4e70340c5b4dabb8dc0adfbcfc7cdcb5baa9effd8817ffb1", revenueHash⟩
      else ⟨"758cf2d16b934adc7c45484df76dbb446f3c94556439d1bcfe5c98cea31b6c95", isSha256_ofList rfl⟩
    executionPlan := fun _ => ⟨"ff44681eb6086c0569d5ea5a887df443f53211986b7bfd6cad1c28cc8bd83632", salesHash⟩
    decision := fun
      | .obj (("decision_kind", _) :: _) => ⟨"65685780de991d6c92ef949e92541500c004bd42e2f445a8b102c0bd60c11711", isSha256_ofList rfl⟩
      | .obj (_ :: _ :: ("decision_kind", _) :: _) => ⟨"858a9ae1dfdc895d9133e0b9ac33b10fce97544db1530f81abfbe89b14ccb507", isSha256_ofList rfl⟩
      | .obj (_ :: _ :: _ :: ("action", _) :: _) => ⟨"1c8bfeeb83f3dfd03d9decdbda51268aedb1d7124e712272048de7614ddb9a32", isSha256_ofList rfl⟩
      | _ => ⟨"556f1171ca5d5ea9868accd3af5303f47faa1d4e01446a368053375f957abad1", isSha256_ofList rfl⟩
    budgetPolicy := fun _ => ⟨"541007ba712b5245c0533f8d0d891944378af1bf7a75dd49c5c9249e4dba972d", artifactHash⟩
    routePolicy := fun _ => ⟨"541007ba712b5245c0533f8d0d891944378af1bf7a75dd49c5c9249e4dba972d", artifactHash⟩
    artifact := fun _ => ⟨"541007ba712b5245c0533f8d0d891944378af1bf7a75dd49c5c9249e4dba972d", artifactHash⟩ }

/-- The engine of the run, with a factory for the typed runtime. -/
def salesEngine : Engine grainDigests where
  wiring := .factory
  validator := checkedValidator
  compiler := marginCompiler
  routePolicy := bootstrapRoutePolicy
  budgetPolicy := bootstrapRoutingBudgetPolicy
  agent := ⟨120000, 8000, 1, 2⟩
  normalizeQuestion question := question
  analysisInput _ _ _ _ _ := .error "analysis_evidence_invalid"
  scrubText text := text
  scrubReceipt receipt := receipt
  shanghaiDate _ := januaryEnd
  showJson _ := ""

theorem sales_revision : 1 ≤ "rev-1".length ∧ "rev-1".length ≤ 256 := by decide

/-- The authorization of the caller, when the run starts and when it is resumed. -/
def salesAuthorization : AuthorizationContext :=
  ⟨⟨"rev-1", sales_revision⟩, true, .cityCompany, [], by decide, revenuePlan.permissions_valid⟩

/-- The configuration of the invocations. -/
def salesConfig : RunConfig := ⟨some ⟨⟨["nl2sql:invoke"]⟩, "user-1"⟩, some salesAuthorization, none, false⟩

/-- The answers of a visit: the grain is proposed as a slot, and replanned without. -/
def salesAnswers : Answers grainDigests.toCalculationDigests where
  now := 0
  factory := .runtime ⟨salesAuthorization, "rev-1"⟩
  resolve := .ok salesContext
  propose := .ok grainPlan
  replan := some (.ok revenuePlan)
  runners := checkedRunners
  budgetElapsedMs := 0
  invoke := .error .raised
  invokeStructured := .error .raised

/-- An invocation that is not cut off. -/
def salesInvocation : Invocation grainDigests := ⟨salesConfig, List.replicate 12 salesAnswers⟩

/-- A QUERY run for revenue, up to its suspension. -/
def salesRun : Run grainDigests where
  input := ⟨[⟨.human, "revenue in January 2026"⟩], some (some ⟨⟨"run-1", by decide⟩, .query, .query, none, none, rfl, nofun, fun _ => rfl⟩)⟩
  invocation := salesInvocation
  resumes := []

/-- A payload that resolves the grain. -/
def grainPayload : Json :=
  .obj
    [("action", .str "resolve"), ("idempotency_key", .str "decision-1"),
      ("slot_bindings", .arr [.obj [("slot", .str "grain"), ("value", .str "day"), ("source", .str "user")]])]

/-- The run waits for the grain, and resumed with it never calls the executor. -/
theorem continuation_never_executes_grain :
    waitsForDecision (salesEngine.runOn {} salesRun).2 = true ∧
    executeCalls (salesEngine.resumes (salesEngine.runOn {} salesRun).2 [(grainPayload, salesInvocation)]).1 = [] := by
  have hwaits : waitsForDecision (salesEngine.runOn {} salesRun).2 = true := by decide +kernel
  obtain ⟨received, prompt, hs⟩ := suspended_of_waits hwaits
  exact ⟨hwaits, continuation_never_executes salesEngine {} salesRun received prompt hs _⟩

/-- Everything the continuation asks for is there, and the resumed run comes to the replan and raises there: nothing is executed. -/
theorem continuation_unreached :
    (continuablePlan? salesEngine (salesEngine.runOn {} salesRun).2 grainPayload salesConfig salesAnswers).isSome = true ∧
    (salesEngine.resume (salesEngine.runOn {} salesRun).2 grainPayload salesInvocation).1.map (·.cursor.node) = [Node.decision, .replan] ∧
    (executeCalls (salesEngine.resume (salesEngine.runOn {} salesRun).2 grainPayload salesInvocation).1).length = 0 := by
  decide +kernel

end Nl2Sql
