import Nl2Sql.Analysis.Grounding
import Nl2Sql.Metric.Runner
import Nl2Sql.Theorems.Provenance

/-!
# Grounding authority

Which facts an execution grounds. A fact comes from a receipt that succeeded and is bound again to the step of the plan that it names; a
fetch that feeds a calculation grounds nothing; and a run that succeeds of a plan the validator allows grounds exactly one fact of its
calculation.
-/

namespace Nl2Sql

open Py

/-- What a fact bears of the step that it is grounded by: an ordinary fetch and one of its metrics, or the identity that a calculation
and its receipt agree on, with what is projected from the output of the step. -/
def Bears {D : ExecutionDigests} (queryPlan : QueryPlan) (outputs : Dict PlanStepId Json) (receipt : PlanStepReceipt)
    (fact : AnswerFact) : PlanStep D.toCalculationDigests → Prop
  | .fetch step => step.provenance = .none ∧ ∃ key ∈ step.metricKeys, fact.metricKey = some key ∧
      (fact.result, fact.timeRange) ∈ fetchResults queryPlan (outputs.get? step.stepId) key
  | .trusted step => ∃ binding, step.binding = some binding ∧ receipt.provenance.templateId.map (·.val) = some step.templateId.val ∧
      receipt.provenance.templateVersion = some binding.templateVersion ∧
      receipt.provenance.bindingChecksum = some binding.bindingChecksum ∧
      receipt.provenance.outputMetricKey = some binding.outputMetricKey ∧ fact.identity = .metric binding.outputMetricKey ∧
      fact.result = projectOutput (outputs.get? step.stepId) binding.outputMetricKey
  | .adHoc step => receipt.provenance.derivedOutputId = some step.derivedOutputId ∧
      receipt.provenance.calculationSpecChecksum = some (step.calculationSpec.checksum D.toCalculationDigests) ∧
      receipt.provenance.executionBindingChecksum = some (D.binding step.executionBinding) ∧
      receipt.provenance.calculationScope = some .adHocNoncanonical ∧ fact.identity = .derived step.derivedOutputId ∧
      ∃ output, outputs.get? step.stepId = some output ∧ fact.result = projectOutput (some output) step.derivedOutputId.val
  | .verify _ => False

/-- The authority of a fact: a receipt of the record that succeeded, and the step of the plan that has its id and its kind. -/
structure GroundedBy {D : ExecutionDigests} (queryPlan : QueryPlan) (plan : ExecutionPlan D.toCalculationDigests)
    (record : PlanExecutionRecord) (outputs : Dict PlanStepId Json) (fact : AnswerFact) (receipt : PlanStepReceipt)
    (step : PlanStep D.toCalculationDigests) : Prop where
  receipt_mem : receipt ∈ record.stepReceipts
  step_mem : step ∈ plan.steps
  succeeded : receipt.status = .succeeded
  step_id : receipt.stepId = step.stepId
  kind : receipt.kind = step.kind
  fact_step : fact.stepId = step.stepId
  evidence : fact.outputDigest = receipt.outputDigest
  bears : Bears queryPlan outputs receipt fact step

/-- The value of an output: a scalar itself, or the one scalar of a mapping that is no rowset. -/
def IsValueOf (output value : Json) : Prop :=
  (isScalar output = true → value = output) ∧
  ∀ name only, output = .obj [(name, only)] → name ≠ "no_data" → isScalar only = true → value = only

/-- A fact carries the identity of a calculation and the value of its output. -/
structure CarriesOutput (D : ExecutionDigests) (outputs : Dict PlanStepId Json) (stepId : PlanStepId) (identity : FactIdentity)
    (key : String) (fact : AnswerFact) : Prop where
  step_id : fact.stepId = stepId
  identity_eq : fact.identity = identity
  value : ∃ output, outputs.get? stepId = some output ∧ fact.outputDigest = some (D.json output) ∧
    fact.result = projectOutput (some output) key ∧ IsValueOf output fact.result.value

/-- The executors that the repository wires: the metric runner is that of the gateway, or there is no runner of trusted calculations. -/
def Wired (D : ExecutionDigests) (R : PlanRunners D.toCalculationDigests) : Prop :=
  (∃ runner : GatewayMetricStepRunner D.toPlanDigests, R.prepare = runner.prepare) ∨ R.trusted = none

namespace GroundingAux

open PlanExecutor ExecutorAux PlanAux

variable {D : ExecutionDigests} {R : PlanRunners D.toCalculationDigests}

/-! ## Runs that succeed -/

/-- A program whose record, when it returns one, is not of a success. -/
def Unsuccessful (m : ExecM D.toCalculationDigests PlanExecutionResult) : Prop :=
  Triple (fun _ => True) m (fun r _ => r.record.status ≠ .succeeded) fun _ _ => True

theorem unsuccessful_bind {α : Type} {m : ExecM D.toCalculationDigests α} {f : α → ExecM D.toCalculationDigests PlanExecutionResult}
    (h : ∀ a, Unsuccessful (f a)) : Unsuccessful (m >>= f) := by
  refine Triple.bind (Q := fun _ _ => True) ?_ h
  intro s _
  cases m.run s <;> trivial

theorem unsuccessful_result {plan : ExecutionPlan D.toCalculationDigests} {status : ExecutionStatus} (h : status ≠ .succeeded)
    (receipts : List PlanStepReceipt) (outputs : Dict PlanStepId Json) (stopReason : Option String) :
    Unsuccessful (result D plan status receipts outputs stopReason) := by
  unfold result
  split
  · exact Triple.pure fun _ _ => h
  · exact Triple.throw fun _ _ => trivial

theorem unsuccessful_failWith (plan : ExecutionPlan D.toCalculationDigests) (step : PlanStep D.toCalculationDigests)
    (receipts : List PlanStepReceipt) (outputs : Dict PlanStepId Json) (code : String) :
    Unsuccessful (failWith D R plan step receipts outputs code) :=
  unsuccessful_bind fun _ => unsuccessful_result (by decide) _ _ _

theorem unsuccessful_deadlineExceeded (plan : ExecutionPlan D.toCalculationDigests)
    (current : Option (PlanStep D.toCalculationDigests)) (receipts : List PlanStepReceipt) (outputs : Dict PlanStepId Json) :
    Unsuccessful (deadlineExceeded D R plan current receipts outputs) := by
  refine unsuccessful_bind fun code => ?_
  have hresult : ∀ receipts, Unsuccessful (result D plan .deadlineExceeded receipts outputs (some code)) :=
    fun receipts => unsuccessful_result (by decide) receipts outputs (some code)
  cases current with
  | none => exact unsuccessful_bind hresult
  | some step =>
    dsimp only
    split
    · exact unsuccessful_bind hresult
    · exact unsuccessful_bind fun _ => unsuccessful_bind hresult

theorem Unsuccessful.absurd {m : ExecM D.toCalculationDigests PlanExecutionResult} (h : Unsuccessful m)
    {s s' : RunState D.toCalculationDigests} {r : PlanExecutionResult} (hrun : m.run s = .ok r s') (hs : r.record.status = .succeeded) :
    False := by
  have := h s trivial
  rw [hrun] at this
  exact this hs

/-- The receipt of a step that succeeded, with the output it digests. -/
structure Receipted (outputs : Dict PlanStepId Json) (step : PlanStep D.toCalculationDigests) (r : PlanStepReceipt) : Prop where
  step_id : r.stepId = step.stepId
  kind : r.kind = step.kind
  status : r.status = .succeeded
  provenance : r.provenance = provenanceOf D step
  output : ∃ output, outputs.get? step.stepId = some output ∧ r.outputDigest = some (D.json output)

/-- A step was executed: its code returned, from some state. -/
def Executed (R : PlanRunners D.toCalculationDigests) (request : ExecutionRequest D.toCalculationDigests)
    (step : PlanStep D.toCalculationDigests) : Prop :=
  ∃ timeoutMs outputs s output s', (executeStep R request.queryPlan request.context timeoutMs outputs step).run s = .ok output s'

theorem result_eq_ok {plan : ExecutionPlan D.toCalculationDigests} {status : ExecutionStatus} {receipts : List PlanStepReceipt}
    {outputs : Dict PlanStepId Json} {stopReason : Option String} {s s' : RunState D.toCalculationDigests} {r : PlanExecutionResult}
    (h : (result D plan status receipts outputs stopReason).run s = .ok r s') :
    r.record.executionPlanChecksum = D.executionPlan plan ∧ r.record.stepReceipts = receipts ∧ r.outputs = outputs := by
  unfold result at h
  split at h
  · have hr := (EStateM.Result.ok.inj h).1
    rw [← hr]
    exact ⟨rfl, rfl, rfl⟩
  · cases h

/-- What a loop that succeeds leaves: the receipts of the steps that were left, after those before, and no other output. -/
theorem runSteps_succeeded {request : ExecutionRequest D.toCalculationDigests} {plan : ExecutionPlan D.toCalculationDigests}
    {timeoutMs : Int} {rest : List (PlanStep D.toCalculationDigests)} {outputs : Dict PlanStepId Json}
    {receipts : List PlanStepReceipt} {s s' : RunState D.toCalculationDigests} {r : PlanExecutionResult}
    (hunique : (rest.map (·.stepId)).Nodup)
    (hrun : (runSteps D R request plan timeoutMs rest outputs receipts).run s = .ok r s') (hs : r.record.status = .succeeded) :
    r.record.executionPlanChecksum = D.executionPlan plan ∧
    (∃ new, r.record.stepReceipts = receipts ++ new ∧ List.Forall₂ (Receipted r.outputs) rest new) ∧
    (∀ step ∈ rest, Executed R request step) ∧
    ∀ id, id ∉ rest.map (·.stepId) → r.outputs.get? id = outputs.get? id := by
  induction rest generalizing outputs receipts s with
  | nil =>
    obtain ⟨hchecksum, hreceipts, houtputs⟩ := result_eq_ok hrun
    exact ⟨hchecksum, ⟨[], by rw [hreceipts, List.append_nil], .nil⟩, fun _ h => absurd h List.not_mem_nil,
      fun _ _ => by rw [houtputs]⟩
  | cons step rest ih =>
    rw [List.map_cons, List.nodup_cons] at hunique
    rw [runSteps_cons] at hrun
    cases hstep : (executeStep R request.queryPlan request.context timeoutMs outputs step).run s with
    | error e t =>
      rw [hstep] at hrun
      exfalso
      cases e with
      | cancelled => exact (unsuccessful_deadlineExceeded _ _ _ _).absurd hrun hs
      | budgetExceeded message => exact (unsuccessful_bind fun _ => unsuccessful_failWith _ _ _ _ _).absurd hrun hs
      | stepError error => exact (unsuccessful_bind fun _ => unsuccessful_failWith _ _ _ _ _).absurd hrun hs
      | raised => exact (unsuccessful_bind fun _ => unsuccessful_failWith _ _ _ _ _).absurd hrun hs
    | ok output t =>
      rw [hstep] at hrun
      obtain ⟨hchecksum, ⟨new, hnew, hreceipted⟩, hexecuted, hother⟩ := ih hunique.2 hrun
      have houtput : r.outputs.get? step.stepId = some output := by
        rw [hother _ hunique.1, Dict.get?_set_self]
      refine ⟨hchecksum, ⟨_ :: new, by rw [hnew, List.append_assoc]; rfl, .cons ?_ hreceipted⟩, ?_, ?_⟩
      · exact ⟨rfl, rfl, rfl, rfl, output, houtput, rfl⟩
      · intro step' hmem
        rcases List.mem_cons.mp hmem with rfl | hmem
        · exact ⟨timeoutMs, outputs, s, output, t, hstep⟩
        · exact hexecuted step' hmem
      · intro id hid
        rw [List.map_cons, List.mem_cons, not_or] at hid
        rw [hother id hid.2, Dict.get?_set_of_ne _ _ (Ne.symm hid.1)]

/-- What a run that succeeds leaves. -/
structure Succeeded (R : PlanRunners D.toCalculationDigests) (request : ExecutionRequest D.toCalculationDigests)
    (r : PlanExecutionResult) (ordered : List (PlanStep D.toCalculationDigests)) : Prop where
  perm : ordered.Perm request.executionPlan.steps
  status : r.record.status = .succeeded
  checksum : r.record.executionPlanChecksum = D.executionPlan request.executionPlan
  receipts : List.Forall₂ (Receipted r.outputs) ordered r.record.stepReceipts
  executed : ∀ step ∈ ordered, Executed R request step

theorem execute_succeeded {request : ExecutionRequest D.toCalculationDigests} {ledger : RouteBudgetLedger}
    {r : PlanExecutionResult} {s : RunState D.toCalculationDigests}
    (hrun : (execute D R request).run ⟨ledger, [], Dict.empty⟩ = .ok r s) (hs : r.record.status = .succeeded) :
    ∃ ordered, Succeeded R request r ordered := by
  obtain ⟨ordered, hordered, hperm, -⟩ := orderedSteps_eq_some request.executionPlan
  rcases execute_cases (R := R) request ⟨ledger, [], Dict.empty⟩ with
    ⟨-, hcase⟩ | ⟨-, -, status, code, hstatus, hstrip, hfits, hcase⟩ | ⟨-, -, steps, hsteps, hcase⟩
  · rw [hrun] at hcase
    nomatch hcase
  · rw [hrun] at hcase
    exact ((unsuccessful_bind fun _ => unsuccessful_result hstatus _ _ _).absurd hcase.symm hs).elim
  · rw [hordered] at hsteps
    cases hsteps
    rw [hrun] at hcase
    have hunique : (ordered.map (·.stepId)).Nodup := (hperm.map _).nodup_iff.mpr request.executionPlan.dag.ids_unique
    obtain ⟨hchecksum, ⟨new, hnew, hreceipted⟩, hexecuted, -⟩ := runSteps_succeeded hunique hcase.symm hs
    rw [List.nil_append] at hnew
    exact ⟨ordered, hperm, hs, hchecksum, hnew ▸ hreceipted, hexecuted⟩

/-! ## The facts of a receipt -/

section Facts

variable {queryPlan : QueryPlan} {plan : ExecutionPlan D.toCalculationDigests} {record : PlanExecutionRecord}
  {outputs : Dict PlanStepId Json} {receipt : PlanStepReceipt} {g : Grounding} {fact : AnswerFact}

theorem answerFact?_eq_some {key : String} {result : Projected} {timeRange : Option TimeRange}
    (h : answerFact? D receipt key result timeRange = some fact) :
    ∃ hkey, fact = factOf D receipt (.metric ⟨key, hkey⟩) result timeRange := by
  unfold answerFact? at h
  split at h
  · rename_i hkey
    exact ⟨hkey, (Option.some.inj h).symm⟩
  · nomatch h

/-- A fetch with neither mark. -/
theorem provenance_none_iff {step : FetchMetricStep} :
    step.provenance = .none ↔ step.calculationInputRole = none ∧ step.adHocInputRole = none := by
  unfold FetchMetricStep.calculationInputRole FetchMetricStep.adHocInputRole
  cases step.provenance <;> simp

theorem groundFetch_grounded (hmem : receipt ∈ record.stepReceipts) (h : groundFetch D queryPlan plan record outputs receipt = some g)
    (hfact : fact ∈ g.facts) : ∃ step, GroundedBy queryPlan plan record outputs fact receipt step := by
  unfold groundFetch at h
  split at h
  · cases h
    cases hfact
  · rename_i hreceipt
    rw [not_or, not_not, not_not] at hreceipt
    split at h
    · rename_i step hstep
      obtain ⟨hstepMem, hid⟩ := mem_of_step? hstep
      split at h
      · cases h
        cases hfact
      · split at h
        · cases h
          cases hfact
        · rename_i hmarks
          simp only [not_or, Option.isSome_iff_ne_none, not_not] at hmarks
          simp only [Option.bind_eq_bind, Option.bind_eq_some_iff, Option.some.injEq] at h
          obtain ⟨facts, hfacts, rfl⟩ := h
          rw [mapM_eq_some_iff (d := [])] at hfacts
          obtain ⟨hall, rfl⟩ := hfacts
          obtain ⟨part, hpart, hin⟩ := List.mem_flatten.mp hfact
          obtain ⟨key, hkey, rfl⟩ := List.mem_map.mp hpart
          obtain ⟨results, hresults⟩ := Option.isSome_iff_exists.mp (hall key hkey)
          rw [hresults, Option.getD_some] at hin
          rw [mapM_eq_some_iff (d := fact)] at hresults
          obtain ⟨hall', rfl⟩ := hresults
          obtain ⟨⟨result, timeRange⟩, hresult, heq⟩ := List.mem_map.mp hin
          obtain ⟨fact', hfact'⟩ := Option.isSome_iff_exists.mp (hall' _ hresult)
          rw [hfact', Option.getD_some] at heq
          subst heq
          obtain ⟨hlen, rfl⟩ := answerFact?_eq_some hfact'
          refine ⟨.fetch step, hmem, hstepMem, hreceipt.1, hid.symm, hreceipt.2, hid.symm, rfl, ?_⟩
          exact ⟨provenance_none_iff.mpr hmarks, key, hkey, rfl, by rw [← hid] at hresult; exact hresult⟩
    · cases h
      cases hfact

theorem groundTrusted_grounded (hmem : receipt ∈ record.stepReceipts) (h : groundTrusted D plan record outputs receipt = some g)
    (hfact : fact ∈ g.facts) : ∃ step, GroundedBy queryPlan plan record outputs fact receipt step := by
  unfold groundTrusted at h
  split at h
  · cases h
    cases hfact
  · rename_i hreceipt
    rw [not_or, not_not, not_not] at hreceipt
    split at h
    · rename_i step hstep
      obtain ⟨hstepMem, hid⟩ := mem_of_step? hstep
      split at h
      · cases h
        cases hfact
      · split at h
        · cases h
          cases hfact
        · rename_i key hkey
          split at h
          · cases h
            cases hfact
          · split at h
            · cases h
              cases hfact
            · rename_i hagree
              simp only [not_or, not_not] at hagree
              obtain ⟨binding, hbinding, rfl⟩ := Option.map_eq_some_iff.mp hkey
              obtain ⟨houtput, htemplate, hversion, hchecksum⟩ := hagree
              rw [hkey] at houtput
              rw [hbinding, Option.map_some] at hversion hchecksum
              obtain ⟨output, houtput, hval⟩ := Option.map_eq_some_iff.mp houtput
              simp only [Option.bind_eq_bind, Option.bind_eq_some_iff, Option.some.injEq] at h
              obtain ⟨fact', hfact', rfl⟩ := h
              obtain rfl := List.mem_singleton.mp hfact
              obtain ⟨hlen, rfl⟩ := answerFact?_eq_some hfact'
              refine ⟨.trusted step, hmem, hstepMem, hreceipt.1, hid.symm, hreceipt.2, hid.symm, rfl, binding, hbinding, htemplate,
                hversion, hchecksum, by rw [houtput, Subtype.ext hval], rfl, by rw [← hid]; rfl⟩
    · cases h
      cases hfact

theorem groundAdHoc_grounded (hmem : receipt ∈ record.stepReceipts) (h : groundAdHoc D plan record outputs receipt = some g)
    (hfact : fact ∈ g.facts) : ∃ step, GroundedBy queryPlan plan record outputs fact receipt step := by
  unfold groundAdHoc at h
  split at h
  · cases h
    cases hfact
  · rename_i hreceipt
    rw [not_or, not_not, not_not] at hreceipt
    split at h
    · rename_i step hstep
      obtain ⟨hstepMem, hid⟩ := mem_of_step? hstep
      split at h
      · cases h
        cases hfact
      · split at h
        · cases h
          cases hfact
        · rename_i id hderived
          split at h
          · cases h
            cases hfact
          · rename_i hagree
            simp only [not_or, not_not] at hagree
            obtain ⟨rfl, hspec, hbinding, hscope⟩ := hagree
            split at h
            · cases h
              cases hfact
            · rename_i output houtput
              cases h
              obtain rfl := List.mem_singleton.mp hfact
              exact ⟨.adHoc step, hmem, hstepMem, hreceipt.1, hid.symm, hreceipt.2, hid.symm, rfl, hderived, hspec, hbinding, hscope, rfl,
                output, by rw [← houtput, ← hid]; rfl, rfl⟩
    · cases h
      cases hfact

/-- The three loops of a record that may ground facts: every receipt is accepted, and the facts and the flags are those of each. -/
theorem build_eq_some (hstatus : record.status = .succeeded) (hchecksum : record.executionPlanChecksum = D.executionPlan plan) :
    buildAnswerFactsWithFlags D queryPlan plan record outputs = some g ↔
      (∀ r ∈ record.stepReceipts, (groundFetch D queryPlan plan record outputs r).isSome = true ∧
        (groundTrusted D plan record outputs r).isSome = true ∧ (groundAdHoc D plan record outputs r).isSome = true) ∧
      g = ⟨(record.stepReceipts.flatMap fun r => ((groundFetch D queryPlan plan record outputs r).getD {}).facts) ++
          (record.stepReceipts.flatMap fun r => ((groundTrusted D plan record outputs r).getD {}).facts) ++
          record.stepReceipts.flatMap fun r => ((groundAdHoc D plan record outputs r).getD {}).facts,
        fromKeys ((record.stepReceipts.flatMap fun r => ((groundFetch D queryPlan plan record outputs r).getD {}).flags) ++
          (record.stepReceipts.flatMap fun r => ((groundTrusted D plan record outputs r).getD {}).flags) ++
          record.stepReceipts.flatMap fun r => ((groundAdHoc D plan record outputs r).getD {}).flags)⟩ := by
  unfold buildAnswerFactsWithFlags
  rw [if_neg (not_not.mpr hstatus), if_neg (not_not.mpr hchecksum)]
  simp only [Option.bind_eq_bind, Option.bind_eq_some_iff, mapM_eq_some_iff (d := ({} : Grounding))]
  constructor
  · rintro ⟨fetched, ⟨h1, rfl⟩, trusted, ⟨h2, rfl⟩, adHoc, ⟨h3, rfl⟩, h⟩
    cases h
    exact ⟨fun r hr => ⟨h1 r hr, h2 r hr, h3 r hr⟩, by simp only [List.flatMap_append, List.flatMap_map]⟩
  · rintro ⟨h, rfl⟩
    exact ⟨_, ⟨fun r hr => (h r hr).1, rfl⟩, _, ⟨fun r hr => (h r hr).2.1, rfl⟩, _, ⟨fun r hr => (h r hr).2.2, rfl⟩,
      by simp only [List.flatMap_append, List.flatMap_map]⟩

/-- A fact of a loop is a fact of one receipt. -/
theorem mem_loop {f : PlanStepReceipt → Option Grounding} (hall : ∀ r ∈ record.stepReceipts, (f r).isSome = true)
    (h : fact ∈ record.stepReceipts.flatMap fun r => ((f r).getD {}).facts) :
    ∃ r ∈ record.stepReceipts, ∃ g, f r = some g ∧ fact ∈ g.facts := by
  obtain ⟨r, hr, hin⟩ := List.mem_flatMap.mp h
  obtain ⟨g, hg⟩ := Option.isSome_iff_exists.mp (hall r hr)
  rw [hg] at hin
  exact ⟨r, hr, g, hg, hin⟩

/-- Every fact of an answer has its authority in the record and in the plan. -/
theorem build_grounded (h : buildAnswerFactsWithFlags D queryPlan plan record outputs = some g) (hfact : fact ∈ g.facts) :
    record.status = .succeeded ∧ record.executionPlanChecksum = D.executionPlan plan ∧
      ∃ receipt step, GroundedBy queryPlan plan record outputs fact receipt step := by
  by_cases hstatus : record.status = .succeeded
  · by_cases hchecksum : record.executionPlanChecksum = D.executionPlan plan
    · obtain ⟨hall, rfl⟩ := (build_eq_some hstatus hchecksum).mp h
      refine ⟨hstatus, hchecksum, ?_⟩
      rcases List.mem_append.mp hfact with hfact | hadHoc
      · rcases List.mem_append.mp hfact with hfetch | htrusted
        · obtain ⟨r, hr, g, hg, hin⟩ := mem_loop (fun r hr => (hall r hr).1) hfetch
          exact ⟨r, groundFetch_grounded hr hg hin⟩
        · obtain ⟨r, hr, g, hg, hin⟩ := mem_loop (fun r hr => (hall r hr).2.1) htrusted
          exact ⟨r, groundTrusted_grounded hr hg hin⟩
      · obtain ⟨r, hr, g, hg, hin⟩ := mem_loop (fun r hr => (hall r hr).2.2) hadHoc
        exact ⟨r, groundAdHoc_grounded hr hg hin⟩
    · unfold buildAnswerFactsWithFlags at h
      rw [if_neg (not_not.mpr hstatus), if_pos hchecksum] at h
      cases h
      nomatch hfact
  · unfold buildAnswerFactsWithFlags at h
    rw [if_pos hstatus] at h
    cases h
    nomatch hfact

end Facts

/-! ## The facts of a run that succeeds -/

section Run

variable {request : ExecutionRequest D.toCalculationDigests} {r : PlanExecutionResult} {ordered : List (PlanStep D.toCalculationDigests)}
  {step : PlanStep D.toCalculationDigests} {receipt : PlanStepReceipt}

/-- A receipt of the run, with the step that it is of. -/
structure Rebound (request : ExecutionRequest D.toCalculationDigests) (r : PlanExecutionResult) (receipt : PlanStepReceipt)
    (step : PlanStep D.toCalculationDigests) : Prop where
  receipt_mem : receipt ∈ r.record.stepReceipts
  step_mem : step ∈ request.executionPlan.steps
  receipted : Receipted r.outputs step receipt

theorem Succeeded.step_of_receipt (h : Succeeded R request r ordered) (hr : receipt ∈ r.record.stepReceipts) :
    ∃ step, Rebound request r receipt step := by
  obtain ⟨i, hi, rfl⟩ := List.getElem_of_mem hr
  have hlen := h.receipts.length_eq
  have hreceipted := List.forall₂_iff_get.mp h.receipts |>.2 i (by omega) hi
  exact ⟨ordered[i], hr, h.perm.mem_iff.mp (List.getElem_mem _), hreceipted⟩

theorem Succeeded.receipt_of_step (h : Succeeded R request r ordered) (hstep : step ∈ request.executionPlan.steps) :
    ∃ receipt, Rebound request r receipt step := by
  obtain ⟨i, hi, rfl⟩ := List.getElem_of_mem (h.perm.mem_iff.mpr hstep)
  have hlen := h.receipts.length_eq
  have hreceipted := List.forall₂_iff_get.mp h.receipts |>.2 i hi (by omega)
  exact ⟨r.record.stepReceipts[i], List.getElem_mem _, hstep, hreceipted⟩

theorem Rebound.step? (h : Rebound request r receipt step) : request.executionPlan.step? receipt.stepId = some step := by
  rw [h.receipted.step_id]
  exact step?_of_mem h.step_mem

theorem Rebound.output_mem (h : Rebound request r receipt step) : receipt.stepId ∈ r.record.outputStepIds := by
  rw [r.record.valid.outputs_eq]
  exact List.mem_map_of_mem (List.mem_filter.mpr ⟨h.receipt_mem, decide_eq_true h.receipted.status⟩)

/-- A step that is no ordinary fetch adds nothing in the first loop. -/
theorem groundFetch_of_marked (queryPlan : QueryPlan) (h : Rebound request r receipt step)
    (hstep : ∀ f, step = .fetch f → f.provenance ≠ .none) :
    groundFetch D queryPlan request.executionPlan r.record r.outputs receipt = some {} := by
  unfold groundFetch
  simp only [h.receipted.status, h.receipted.kind, h.step?, h.output_mem, not_true_eq_false, if_false, ne_eq, false_or]
  cases step with
  | fetch f =>
    have hmarked := hstep f rfl
    rw [ne_eq, provenance_none_iff, not_and_or, ← ne_eq, ← ne_eq, ← Option.isSome_iff_ne_none, ← Option.isSome_iff_ne_none] at hmarked
    simp only [PlanStep.kind, not_true_eq_false, if_false, if_pos hmarked]
  | trusted t => simp [PlanStep.kind]
  | adHoc a => simp [PlanStep.kind]
  | verify v => simp [PlanStep.kind]

/-- A step that is no canonical calculation adds nothing in the second loop. -/
theorem groundTrusted_of_unbound (h : Rebound request r receipt step) (hstep : ∀ t, step = .trusted t → t.binding = none) :
    groundTrusted D request.executionPlan r.record r.outputs receipt = some {} := by
  unfold groundTrusted
  simp only [h.receipted.status, h.receipted.kind, h.step?, h.output_mem, not_true_eq_false, if_false, ne_eq, false_or]
  cases step with
  | fetch f => simp [PlanStep.kind]
  | trusted t => simp [PlanStep.kind, TrustedCalculationStep.outputMetricKey, hstep t rfl]
  | adHoc a => simp [PlanStep.kind]
  | verify v => simp [PlanStep.kind]

/-- The fact of a canonical calculation. -/
def canonicalFact (D : ExecutionDigests) (outputs : Dict PlanStepId Json) (receipt : PlanStepReceipt) (key : BoundedText 1 256) :
    AnswerFact :=
  factOf D receipt (.metric key) (projectOutput (outputs.get? receipt.stepId) key) none

theorem groundTrusted_of_bound {t : TrustedCalculationStep} {binding : BindingProvenance} (h : Rebound request r receipt (.trusted t))
    (hbinding : t.binding = some binding) :
    groundTrusted D request.executionPlan r.record r.outputs receipt =
      some { facts := [canonicalFact D r.outputs receipt binding.outputMetricKey] } := by
  have hne : binding.outputMetricKey.val ≠ "" := by
    intro hempty
    have := binding.outputMetricKey.property.1
    rw [hempty] at this
    exact absurd this (by decide)
  unfold groundTrusted
  simp only [h.receipted.status, h.receipted.kind, h.step?, h.output_mem, h.receipted.provenance, not_true_eq_false, if_false, ne_eq,
    PlanStep.kind, or_self, TrustedCalculationStep.outputMetricKey, hbinding, Option.map_some, provenanceOf, hne]
  simp only [answerFact?, dif_pos binding.outputMetricKey.property]
  rfl

/-- A step that is no AD_HOC calculation adds nothing in the third loop. -/
theorem groundAdHoc_of_other (h : Rebound request r receipt step) (hstep : ∀ a, step ≠ .adHoc a) :
    groundAdHoc D request.executionPlan r.record r.outputs receipt = some {} := by
  unfold groundAdHoc
  simp only [h.receipted.status, h.receipted.kind, not_true_eq_false, ne_eq, false_or]
  cases step with
  | fetch f => simp [PlanStep.kind]
  | trusted t => simp [PlanStep.kind]
  | adHoc a => exact absurd rfl (hstep a)
  | verify v => simp [PlanStep.kind]

/-- The fact of an AD_HOC calculation. -/
def derivedFact (D : ExecutionDigests) (outputs : Dict PlanStepId Json) (receipt : PlanStepReceipt) (id : DerivedOutputId) : AnswerFact :=
  factOf D receipt (.derived id) (projectOutput (outputs.get? receipt.stepId) id.val) none

theorem groundAdHoc_of_calculation {a : AdHocCalculationStep D.toCalculationDigests} (h : Rebound request r receipt (.adHoc a)) :
    groundAdHoc D request.executionPlan r.record r.outputs receipt =
      some { facts := [derivedFact D r.outputs receipt a.derivedOutputId] } := by
  obtain ⟨output, houtput, -⟩ := h.receipted.output
  rw [← h.receipted.step_id] at houtput
  unfold groundAdHoc
  simp only [h.receipted.status, h.receipted.kind, h.step?, h.output_mem, h.receipted.provenance, not_true_eq_false, if_false, ne_eq,
    PlanStep.kind, or_self, provenanceOf, houtput]
  rw [derivedFact, houtput]

/-- A loop that adds something at one receipt only. -/
theorem flatMap_eq_of_nodup {β : Type} {l : List PlanStepReceipt} (hnodup : (l.map (·.stepId)).Nodup) {x : PlanStepReceipt}
    (hx : x ∈ l) {f : PlanStepReceipt → List β} (h : ∀ y ∈ l, y.stepId ≠ x.stepId → f y = []) : l.flatMap f = f x := by
  induction l with
  | nil => nomatch hx
  | cons y l ih =>
    rw [List.map_cons, List.nodup_cons] at hnodup
    rw [List.flatMap_cons]
    rcases List.mem_cons.mp hx with rfl | hx
    · have hnil : l.flatMap f = [] := List.flatMap_eq_nil_iff.mpr fun z hz =>
        h z (List.mem_cons_of_mem _ hz) fun heq => hnodup.1 (heq ▸ List.mem_map_of_mem hz)
      rw [hnil, List.append_nil]
    · have hne : y.stepId ≠ x.stepId := fun heq => hnodup.1 (heq ▸ List.mem_map_of_mem hx)
      rw [h y List.mem_cons_self hne, List.nil_append, ih hnodup.2 hx fun z hz => h z (List.mem_cons_of_mem _ hz)]

/-- No step of the plan but one adds to an answer, and what that one adds is a fact. -/
structure Single (request : ExecutionRequest D.toCalculationDigests) (step : PlanStep D.toCalculationDigests) : Prop where
  no_ordinary : ∀ f, PlanStep.fetch f ∈ request.executionPlan.steps → f.provenance ≠ .none
  trusted : ∀ t, PlanStep.trusted t ∈ request.executionPlan.steps → PlanStep.trusted t ≠ step → t.binding = none
  adHoc : ∀ a, PlanStep.adHoc a ∈ request.executionPlan.steps → PlanStep.adHoc a = step

/-- A loop that adds something at one receipt only accepts every receipt, and adds what that one adds. -/
theorem loop_single {f : PlanStepReceipt → Option Grounding} (h : receipt ∈ r.record.stepReceipts) {part : Grounding}
    (hpart : f receipt = some part) (hother : ∀ y ∈ r.record.stepReceipts, y.stepId ≠ receipt.stepId → f y = some {}) :
    (∀ y ∈ r.record.stepReceipts, (f y).isSome = true) ∧
    (r.record.stepReceipts.flatMap fun y => ((f y).getD {}).facts) = part.facts ∧
    (r.record.stepReceipts.flatMap fun y => ((f y).getD {}).flags) = part.flags := by
  have hunique := r.record.valid.unique
  refine ⟨fun y hy => ?_, ?_, ?_⟩
  · by_cases hid : y.stepId = receipt.stepId
    · rw [List.inj_on_of_nodup_map hunique hy h hid, hpart]
      rfl
    · rw [hother y hy hid]
      rfl
  · rw [flatMap_eq_of_nodup hunique h fun y hy hne => by rw [hother y hy hne]; rfl, hpart]
    rfl
  · rw [flatMap_eq_of_nodup hunique h fun y hy hne => by rw [hother y hy hne]; rfl, hpart]
    rfl

theorem build_single (hs : Succeeded R request r ordered) (h : Rebound request r receipt step) (hsingle : Single request step)
    {fact : AnswerFact} {trustedPart adHocPart : Grounding}
    (htrusted : groundTrusted D request.executionPlan r.record r.outputs receipt = some trustedPart)
    (hadHoc : groundAdHoc D request.executionPlan r.record r.outputs receipt = some adHocPart)
    (hfacts : trustedPart.facts ++ adHocPart.facts = [fact]) (hflags : trustedPart.flags ++ adHocPart.flags = []) :
    buildAnswerFactsWithFlags D request.queryPlan request.executionPlan r.record r.outputs = some ⟨[fact], []⟩ := by
  have hfetch : ∀ y ∈ r.record.stepReceipts,
      groundFetch D request.queryPlan request.executionPlan r.record r.outputs y = some {} := by
    intro y hy
    obtain ⟨step', h'⟩ := hs.step_of_receipt hy
    refine groundFetch_of_marked _ h' fun f hf => hsingle.no_ordinary f ?_
    rw [← hf]
    exact h'.step_mem
  obtain ⟨hall, hfetchFacts, hfetchFlags⟩ := loop_single h.receipt_mem (hfetch receipt h.receipt_mem) fun y hy _ => hfetch y hy
  obtain ⟨hall', htrustedFacts, htrustedFlags⟩ := loop_single h.receipt_mem htrusted fun y hy hne => by
    obtain ⟨step', h'⟩ := hs.step_of_receipt hy
    refine groundTrusted_of_unbound h' fun t ht => ?_
    subst ht
    refine hsingle.trusted t h'.step_mem fun heq => hne ?_
    rw [h'.receipted.step_id, heq, h.receipted.step_id]
  obtain ⟨hall'', hadHocFacts, hadHocFlags⟩ := loop_single h.receipt_mem hadHoc fun y hy hne => by
    obtain ⟨step', h'⟩ := hs.step_of_receipt hy
    refine groundAdHoc_of_other h' fun a ha => ?_
    subst ha
    refine hne ?_
    rw [h'.receipted.step_id, hsingle.adHoc a h'.step_mem, h.receipted.step_id]
  refine (build_eq_some hs.status hs.checksum).mpr ⟨fun y hy => ⟨hall y hy, hall' y hy, hall'' y hy⟩, ?_⟩
  rw [hfetchFacts, hfetchFlags, htrustedFacts, htrustedFlags, hadHocFacts, hadHocFlags, List.nil_append, List.nil_append, hfacts, hflags]
  rfl

/-! ## The calculation of an allowed plan -/

variable {v : PlanValidator} {routeBudget : RouteBudget}

section

variable (hallow : Allowed D.toPlanDigests v request.executionPlan request.queryPlan request.context routeBudget)
include hallow

/-- An AD_HOC calculation is all that adds to an answer. -/
theorem single_adHoc
    {a : AdHocCalculationStep D.toCalculationDigests} (ha : a ∈ request.executionPlan.adHocSteps) : Single request (.adHoc a) := by
  obtain ⟨verify, hshape⟩ := hallow.shape ha
  refine ⟨fun f hf hnone => ?_, fun t ht => ?_, fun a' ha' => ?_⟩
  · have hmarked := hshape.marked f (mem_fetchSteps.mpr hf)
    rw [(provenance_none_iff.mp hnone).2] at hmarked
    nomatch hmarked
  · have hmem := mem_trustedSteps.mpr ht
    rw [hshape.no_trusted] at hmem
    nomatch hmem
  · have hmem := mem_adHocSteps.mpr ha'
    rw [hshape.calculations, List.mem_singleton] at hmem
    rw [hmem]

/-- A plan with a canonical calculation has no AD_HOC one. -/
theorem no_adHoc_of_canonical
    {c : TrustedCalculationStep} (hc : c ∈ request.executionPlan.canonicalSteps) (a : AdHocCalculationStep D.toCalculationDigests) :
    PlanStep.adHoc a ∉ request.executionPlan.steps := by
  intro ha
  refine hallow.no_mix ⟨List.ne_nil_of_mem (mem_adHocSteps.mpr ha), .inl (List.ne_nil_of_mem hc)⟩

/-- An allowed plan with a canonical calculation was validated against a catalog. -/
theorem catalog_of_canonical
    {c : TrustedCalculationStep} (hc : c ∈ request.executionPlan.canonicalSteps) : ∃ catalog, v.calculationCatalog = some catalog := by
  cases hcatalog : v.calculationCatalog with
  | some catalog => exact ⟨catalog, rfl⟩
  | none =>
    have hcanonical := hallow.canonical
    simp only [PlanValidator.canonicalIssues, hcatalog, failIf_eq_nil_iff] at hcanonical
    exact absurd (.inl (List.ne_nil_of_mem hc)) hcanonical

/-- The metric of a canonical calculation of an allowed plan: no other calculation has it, and no fetch carries it. -/
theorem canonical_output {c : TrustedCalculationStep} (hc : c ∈ request.executionPlan.canonicalSteps) :
    ∃ key, c.outputMetricKey = some key ∧ (∀ t ∈ request.executionPlan.canonicalSteps, t.outputMetricKey = some key → t = c) ∧
      ∀ fetch ∈ request.executionPlan.fetchSteps, key ∉ fetch.metricKeys := by
  obtain ⟨catalog, hcatalog⟩ := catalog_of_canonical hallow hc
  obtain ⟨provenance, binding, hprovenance, hbinding, hproven⟩ := hallow.proven hcatalog hc
  have houtput : c.outputMetricKey = some provenance.outputMetricKey.val := by
    rw [TrustedCalculationStep.outputMetricKey, hprovenance]
    rfl
  obtain ⟨houtputs, hforward⟩ := validateBoundOutputs_eq_nil_iff.mp (hallow.bound hcatalog).1
  obtain ⟨key, hkey, hrequested⟩ := houtputs c hc
  rw [houtput, Option.mem_some] at hkey
  subst hkey
  obtain ⟨⟨calculation, hone⟩, hunfetched⟩ := hforward _ hrequested (by rw [hbinding]; rfl)
  have hall : ∀ t ∈ request.executionPlan.canonicalSteps, t.outputMetricKey = some provenance.outputMetricKey.val → t = calculation := by
    intro t ht hout
    have hin : t ∈ request.executionPlan.canonicalSteps.filter fun c => c.outputMetricKey = some provenance.outputMetricKey.val :=
      List.mem_filter.mpr ⟨ht, decide_eq_true hout⟩
    rw [hone] at hin
    exact List.mem_singleton.mp hin
  exact ⟨_, houtput, fun t ht hout => (hall t ht hout).trans (hall c hc houtput).symm, hunfetched⟩

end

/-! ## The metric runner of the gateway -/

/-- A fetch that was executed was prepared. -/
theorem prepared_of_executed {f : FetchMetricStep} (h : Executed R request (.fetch f)) :
    ∃ calls prepared, R.prepare calls f request.queryPlan request.context = .ok prepared := by
  obtain ⟨timeoutMs, outputs, s, output, s', hrun⟩ := h
  rw [executeStep, executeFetch, EStateM.run_bind] at hrun
  simp only [EStateM.run, callRunner] at hrun
  cases hanswer : R.prepare s.calls f request.queryPlan request.context with
  | ok prepared => exact ⟨s.calls, prepared, hanswer⟩
  | error e =>
    rw [hanswer] at hrun
    cases hrun

theorem refuseStepIf_eq_ok {c : Prop} [Decidable c] {code : String} {h : strip code = code ∧ code ≠ ""} :
    refuseStepIf c code h = .ok () ↔ ¬ c := by
  unfold refuseStepIf refuseStep
  split <;> simp_all

variable {runner : GatewayMetricStepRunner D.toPlanDigests} {f : FetchMetricStep} {queryPlan : QueryPlan} {context : ContextBundle}
  {calls : List (RunnerCall D.toCalculationDigests)} {prepared : PreparedMetricStep}

/-- The gateway prepares an ordinary fetch of the requested metrics only. -/
theorem prepare_ordinary (hf : f.provenance = .none) (h : runner.prepare calls f queryPlan context = .ok prepared) :
    f.metricKeys = queryPlan.metricKeys := by
  obtain ⟨hcanonical, hadHoc⟩ := provenance_none_iff.mp hf
  unfold GatewayMetricStepRunner.prepare at h
  rw [hadHoc, if_neg (by decide), if_pos hcanonical] at h
  obtain ⟨_, hkeys, -⟩ := bind_eq_ok.mp h
  exact not_not.mp (refuseStepIf_eq_ok.mp hkeys)

/-- The gateway prepares a dependency fetch of a canonical calculation only where the metric it is for is all that was requested. -/
theorem prepare_dependency {role : RoleName} (hrole : f.calculationInputRole = some role)
    (h : runner.prepare calls f queryPlan context = .ok prepared) :
    ∃ key, f.calculationOutputMetricKey = some key ∧ queryPlan.metricKeys = [key] := by
  have hadHoc : f.adHocInputRole = none := by
    unfold FetchMetricStep.calculationInputRole at hrole
    unfold FetchMetricStep.adHocInputRole
    cases hp : f.provenance <;> simp_all
  unfold GatewayMetricStepRunner.prepare at h
  rw [hadHoc, if_neg (by decide), if_neg (by rw [hrole]; nofun)] at h
  obtain ⟨plan, hplan, -⟩ := bind_eq_ok.mp h
  unfold GatewayMetricStepRunner.dependencyPlan at hplan
  split at hplan
  · nomatch hplan
  · rename_i binding hbinding
    obtain ⟨key, hkey, hbound⟩ := Option.bind_eq_some_iff.mp hbinding
    obtain ⟨catalog, -, hfor⟩ := Option.bind_eq_some_iff.mp hbound
    obtain ⟨_, -, hplan⟩ := bind_eq_ok.mp hplan
    split at hplan
    · obtain ⟨_, -, hplan⟩ := bind_eq_ok.mp hplan
      obtain ⟨_, -, hplan⟩ := bind_eq_ok.mp hplan
      obtain ⟨_, -, hplan⟩ := bind_eq_ok.mp hplan
      obtain ⟨_, hkeys, -⟩ := bind_eq_ok.mp hplan
      rw [refuseStepIf_eq_ok, not_not, (bindingFor_eq_some hfor).2] at hkeys
      exact ⟨key, hkey, hkeys⟩
    · nomatch hplan

/-- A canonical calculation is all that adds to an answer, when its fetches went through the gateway's runner. -/
theorem single_canonical (hallow : Allowed D.toPlanDigests v request.executionPlan request.queryPlan request.context routeBudget)
    (hprepare : R.prepare = runner.prepare) (hexecuted : ∀ step ∈ request.executionPlan.steps, Executed R request step)
    {c : TrustedCalculationStep} (hc : c ∈ request.executionPlan.canonicalSteps) : Single request (.trusted c) := by
  obtain ⟨catalog, hcatalog⟩ := catalog_of_canonical hallow hc
  obtain ⟨provenance, binding, hprovenance, hbinding, hproven⟩ := hallow.proven hcatalog hc
  have hpreparedAll : ∀ f, PlanStep.fetch f ∈ request.executionPlan.steps →
      ∃ calls prepared, runner.prepare calls f request.queryPlan request.context = .ok prepared := by
    intro f hf
    obtain ⟨calls, prepared, hok⟩ := prepared_of_executed (hexecuted _ hf)
    exact ⟨calls, prepared, hprepare ▸ hok⟩
  -- a dependency fetch of the calculation exists, and its preparation proves what was requested
  have hrequested : request.queryPlan.metricKeys = [binding.canonicalMetricKey.val] := by
    obtain ⟨item, hitem⟩ := List.exists_mem_of_length_pos binding.inputs_length.1
    obtain ⟨fetch, hfetches, -⟩ := hproven.fetch_of_role hitem
    have hdeclared : (item.role, fetch) ∈ ApprovedCalculationCatalog.declaredFetches request.executionPlan c := by
      rw [← mem_fetchesOfRole, hfetches]
      exact List.mem_singleton.mpr rfl
    obtain ⟨hmem, -, hrole⟩ := mem_declaredFetches.mp hdeclared
    obtain ⟨calls, prepared, hok⟩ := hpreparedAll fetch (mem_fetchSteps.mp hmem)
    obtain ⟨key, hkey, hkeys⟩ := prepare_dependency hrole hok
    rw [(hproven.owned _ hdeclared).2] at hkey
    rw [hkeys, Option.some.inj hkey]
  obtain ⟨key, hkey, hsame, -⟩ := canonical_output hallow hc
  refine ⟨fun f hf hnone => ?_, fun t ht hne => ?_, fun a ha => absurd ha (no_adHoc_of_canonical hallow hc a)⟩
  · obtain ⟨calls, prepared, hok⟩ := hpreparedAll f hf
    refine hproven.no_conflict f (mem_fetchSteps.mpr hf) ?_
    rw [prepare_ordinary hnone hok, hrequested]
    exact List.mem_singleton.mpr rfl
  · by_contra hbound
    have ht' : t ∈ request.executionPlan.canonicalSteps := mem_canonicalSteps.mpr ⟨ht, Option.isSome_iff_ne_none.mpr hbound⟩
    have houtputs := (validateBoundOutputs_eq_nil_iff.mp (hallow.bound hcatalog).1).1
    obtain ⟨tKey, htKey, htRequested⟩ := houtputs t ht'
    obtain ⟨cKey, hcKey, hcRequested⟩ := houtputs c hc
    rw [hrequested, List.mem_singleton] at htRequested hcRequested
    rw [hkey, Option.mem_some] at hcKey
    refine hne (congrArg _ (hsame t ht' ?_))
    rw [hcKey, hcRequested, ← htRequested]
    exact htKey

/-! ## The fact of a canonical metric -/

/-- Of the facts that no receipt but one can ground, a loop has those of that receipt. -/
theorem filter_loop {f : PlanStepReceipt → Option Grounding}
    (hf : ∀ y ∈ r.record.stepReceipts, ∀ g, f y = some g → ∀ fact ∈ g.facts,
      ∃ step, GroundedBy request.queryPlan request.executionPlan r.record r.outputs fact y step)
    (hall : ∀ y ∈ r.record.stepReceipts, (f y).isSome = true) (h : receipt ∈ r.record.stepReceipts) {p : AnswerFact → Bool}
    (hp : ∀ fact y step, GroundedBy request.queryPlan request.executionPlan r.record r.outputs fact y step → p fact = true →
      y.stepId = receipt.stepId) :
    (r.record.stepReceipts.flatMap fun y => ((f y).getD {}).facts).filter p = ((f receipt).getD {}).facts.filter p := by
  rw [List.filter_flatMap]
  refine flatMap_eq_of_nodup r.record.valid.unique h fun y hy hne => List.filter_eq_nil_iff.mpr fun fact hfact hpf => ?_
  obtain ⟨g, hg⟩ := Option.isSome_iff_exists.mp (hall y hy)
  rw [hg] at hfact
  obtain ⟨step, hstep⟩ := hf y hy g hg fact hfact
  exact hne (hp fact y step hstep hpf)

/-- Only a canonical calculation grounds a fact of its metric. -/
theorem step_of_metric (hallow : Allowed D.toPlanDigests v request.executionPlan request.queryPlan request.context routeBudget)
    {c : TrustedCalculationStep} (hc : c ∈ request.executionPlan.canonicalSteps) {fact : AnswerFact}
    (h : GroundedBy request.queryPlan request.executionPlan r.record r.outputs fact receipt step)
    (hkey : fact.metricKey = c.outputMetricKey) : step = .trusted c := by
  obtain ⟨key, hout, hsame, hunfetched⟩ := canonical_output hallow hc
  rw [hout] at hkey
  have hbears := h.bears
  cases step with
  | fetch f =>
    obtain ⟨-, key', hmem, hkey', -⟩ := hbears
    rw [hkey, Option.some.injEq] at hkey'
    exact absurd (hkey' ▸ hmem) (hunfetched f (mem_fetchSteps.mpr h.step_mem))
  | trusted t =>
    obtain ⟨b, hb, -, -, -, -, hidentity, -⟩ := hbears
    have ht : t ∈ request.executionPlan.canonicalSteps := mem_canonicalSteps.mpr ⟨h.step_mem, by
      rw [TrustedCalculationStep.declaresCanonicalBinding, hb]
      rfl⟩
    rw [AnswerFact.metricKey, hidentity] at hkey
    rw [hsame t ht (by rw [TrustedCalculationStep.outputMetricKey, hb]; exact hkey)]
  | adHoc a => exact absurd h.step_mem (no_adHoc_of_canonical hallow hc a)
  | verify w => exact hbears.elim

/-- The answer of a run that succeeds has exactly one fact of the metric of a canonical calculation. -/
theorem filter_canonical (hs : Succeeded R request r ordered)
    (hallow : Allowed D.toPlanDigests v request.executionPlan request.queryPlan request.context routeBudget)
    {c : TrustedCalculationStep} (hc : c ∈ request.executionPlan.canonicalSteps) (h : Rebound request r receipt (.trusted c))
    {binding : BindingProvenance} (hbinding : c.binding = some binding) {g : Grounding}
    (hbuild : buildAnswerFactsWithFlags D request.queryPlan request.executionPlan r.record r.outputs = some g) :
    (g.facts.filter fun fact => fact.metricKey = c.outputMetricKey) = [canonicalFact D r.outputs receipt binding.outputMetricKey] := by
  obtain ⟨hall, rfl⟩ := (build_eq_some hs.status hs.checksum).mp hbuild
  have honly : ∀ fact y step, GroundedBy request.queryPlan request.executionPlan r.record r.outputs fact y step →
      decide (fact.metricKey = c.outputMetricKey) = true → y.stepId = receipt.stepId := by
    intro fact y step hgrounded hkey
    have hstep := step_of_metric hallow hc hgrounded (of_decide_eq_true hkey)
    rw [hgrounded.step_id, hstep, h.receipted.step_id]
  rw [List.filter_append, List.filter_append,
    filter_loop (fun y hy g hg fact hfact => groundFetch_grounded hy hg hfact) (fun y hy => (hall y hy).1) h.receipt_mem honly,
    filter_loop (fun y hy g hg fact hfact => groundTrusted_grounded hy hg hfact) (fun y hy => (hall y hy).2.1) h.receipt_mem honly,
    filter_loop (fun y hy g hg fact hfact => groundAdHoc_grounded hy hg hfact) (fun y hy => (hall y hy).2.2) h.receipt_mem honly,
    groundFetch_of_marked _ h (fun f hf => by cases hf), groundTrusted_of_bound h hbinding,
    groundAdHoc_of_other h (fun a ha => by cases ha)]
  have hkey : (canonicalFact D r.outputs receipt binding.outputMetricKey).metricKey = c.outputMetricKey := by
    rw [TrustedCalculationStep.outputMetricKey, hbinding]
    rfl
  simp only [Option.getD_some, List.filter_nil, List.nil_append, List.append_nil, List.filter_cons, decide_eq_true hkey, if_true]

theorem projectOutput_value (output : Json) (key : String) : IsValueOf output (projectOutput (some output) key).value := by
  refine ⟨fun hscalar => ?_, ?_⟩
  · cases output <;> first | rfl | nomatch hscalar
  · rintro name only rfl hname hscalar
    have hdata : Json.member? "no_data" [(name, only)] = none := by simp [Json.member?, hname]
    have hmember : ∀ n, Json.member? n [(name, only)] = some only ∨ Json.member? n [(name, only)] = none := by
      intro n
      unfold Json.member?
      split
      · exact .inl rfl
      · exact .inr rfl
    simp only [projectOutput, projectMapping, hdata, projectEntry]
    rcases hmember key with hkey | hkey
    · rw [hkey, Option.some_or]
      rfl
    · rw [hkey, Option.none_or]
      rcases hmember ((split '.' key).getLastD key) with hlast | hlast
      · rw [hlast]
        rfl
      · rw [hlast, if_pos hscalar]
        rfl

/-- The fact of a step carries what its output projects. -/
theorem carries_factOf (h : Rebound request r receipt step) (identity : FactIdentity) (key : String) :
    CarriesOutput D r.outputs step.stepId identity key
      (factOf D receipt identity (projectOutput (r.outputs.get? receipt.stepId) key) none) := by
  obtain ⟨output, houtput, hdigest⟩ := h.receipted.output
  rw [h.receipted.step_id, houtput]
  exact ⟨h.receipted.step_id, rfl, output, houtput, hdigest, rfl, projectOutput_value output key⟩

/-- In a wired executor the fetches of a canonical calculation that succeeded went through the gateway's runner. -/
theorem gateway_of_wired (hwired : Wired D R) {c : TrustedCalculationStep} (hexecuted : Executed R request (.trusted c)) :
    ∃ runner : GatewayMetricStepRunner D.toPlanDigests, R.prepare = runner.prepare := by
  rcases hwired with hgateway | hnone
  · exact hgateway
  · obtain ⟨timeoutMs, outputs, s, output, s', hrun⟩ := hexecuted
    rw [executeStep, executeTrusted, hnone] at hrun
    cases hrun

end Run

end GroundingAux

open GroundingAux PlanExecutor PlanAux

/-- Grounding authority. Whatever plan, record and outputs the builder is given, a fact comes from a receipt that succeeded, in a record
of this plan that succeeded, bound to the step of the plan that has its id, its kind and, for a calculation, the identity on the receipt;
and a dependency fetch grounds no fact. In a run that succeeds of a plan that the validator allows, an AD_HOC calculation is grounded by
exactly one fact, and there is no other; a canonical calculation is grounded by exactly one fact of its metric, its dependency fetches by
none, and in an executor that the repository wires there is no other fact. The fact carries the identity of the calculation and the value
of its output. -/
theorem grounding_authority (D : ExecutionDigests) :
    (∀ (queryPlan : QueryPlan) (plan : ExecutionPlan D.toCalculationDigests) (record : PlanExecutionRecord)
      (outputs : Dict PlanStepId Json) (g : Grounding), buildAnswerFactsWithFlags D queryPlan plan record outputs = some g →
      (∀ fact ∈ g.facts, record.status = .succeeded ∧ record.executionPlanChecksum = D.executionPlan plan ∧
        ∃ receipt step, GroundedBy queryPlan plan record outputs fact receipt step) ∧
      ∀ fetch ∈ plan.fetchSteps, fetch.provenance ≠ .none → ∀ fact ∈ g.facts, fact.stepId ≠ fetch.stepId) ∧
    ∀ (v : PlanValidator) (request : ExecutionRequest D.toCalculationDigests) (routeBudget : RouteBudget),
      v.Allows D.toPlanDigests request.executionPlan request.queryPlan request.context routeBudget →
      ∀ (R : PlanRunners D.toCalculationDigests) (ledger : RouteBudgetLedger) (result : PlanExecutionResult)
        (s : RunState D.toCalculationDigests), (execute D R request).run ⟨ledger, [], Dict.empty⟩ = .ok result s →
      result.record.status = .succeeded →
      (∀ calculation ∈ request.executionPlan.adHocSteps, ∃ fact,
        CarriesOutput D result.outputs calculation.stepId (.derived calculation.derivedOutputId) calculation.derivedOutputId.val fact ∧
        buildAnswerFactsWithFlags D request.queryPlan request.executionPlan result.record result.outputs = some ⟨[fact], []⟩) ∧
      ∀ calculation ∈ request.executionPlan.canonicalSteps, ∃ binding fact, calculation.binding = some binding ∧
        CarriesOutput D result.outputs calculation.stepId (.metric binding.outputMetricKey) binding.outputMetricKey.val fact ∧
        (∀ g, buildAnswerFactsWithFlags D request.queryPlan request.executionPlan result.record result.outputs = some g →
          (g.facts.filter fun other => other.metricKey = calculation.outputMetricKey) = [fact] ∧
          ∀ fetch ∈ request.executionPlan.fetchSteps, fetch.stepId ∈ calculation.dependsOn →
            ∀ other ∈ g.facts, other.stepId ≠ fetch.stepId) ∧
        (Wired D R →
          buildAnswerFactsWithFlags D request.queryPlan request.executionPlan result.record result.outputs = some ⟨[fact], []⟩) := by
  have hdependency : ∀ {queryPlan : QueryPlan} {plan : ExecutionPlan D.toCalculationDigests} {record : PlanExecutionRecord}
      {outputs : Dict PlanStepId Json} {g : Grounding}, buildAnswerFactsWithFlags D queryPlan plan record outputs = some g →
      ∀ fetch ∈ plan.fetchSteps, fetch.provenance ≠ .none → ∀ fact ∈ g.facts, fact.stepId ≠ fetch.stepId := by
    intro queryPlan plan record outputs g hbuild fetch hfetch hmarked fact hfact hid
    obtain ⟨-, -, receipt, step, hgrounded⟩ := build_grounded hbuild hfact
    have hstep : step = .fetch fetch := step_inj hgrounded.step_mem (mem_fetchSteps.mp hfetch) (hgrounded.fact_step.symm.trans hid)
    subst hstep
    exact hmarked hgrounded.bears.1
  refine ⟨fun queryPlan plan record outputs g hbuild =>
    ⟨fun fact hfact => build_grounded hbuild hfact, hdependency hbuild⟩, ?_⟩
  intro v request routeBudget hallows R ledger result s hrun hsucceeded
  obtain ⟨-, -, hallow⟩ := allowed_iff.mp hallows
  obtain ⟨ordered, hs⟩ := execute_succeeded hrun hsucceeded
  refine ⟨fun calculation hcalculation => ?_, fun calculation hcalculation => ?_⟩
  · obtain ⟨receipt, h⟩ := hs.receipt_of_step (mem_adHocSteps.mp hcalculation)
    refine ⟨derivedFact D result.outputs receipt calculation.derivedOutputId, carries_factOf h _ _, ?_⟩
    exact build_single hs h (single_adHoc hallow hcalculation) (groundTrusted_of_unbound h (fun t ht => by cases ht))
      (groundAdHoc_of_calculation h) rfl rfl
  · obtain ⟨hmem, hdeclares⟩ := mem_canonicalSteps.mp hcalculation
    obtain ⟨binding, hbinding⟩ := Option.isSome_iff_exists.mp hdeclares
    obtain ⟨receipt, h⟩ := hs.receipt_of_step hmem
    refine ⟨binding, canonicalFact D result.outputs receipt binding.outputMetricKey, hbinding, carries_factOf h _ _, ?_, ?_⟩
    · intro g hbuild
      refine ⟨filter_canonical hs hallow hcalculation h hbinding hbuild, fun fetch hfetch hdepends => ?_⟩
      obtain ⟨catalog, hcatalog⟩ := catalog_of_canonical hallow hcalculation
      obtain ⟨provenance, approved, -, -, hproven⟩ := hallow.proven hcatalog hcalculation
      refine hdependency hbuild fetch hfetch fun hnone => ?_
      have hmarked := hproven.dependencies _ hdepends
      have hstep : request.executionPlan.step? fetch.stepId = some (.fetch fetch) := step?_of_mem (mem_fetchSteps.mp hfetch)
      simp only [ApprovedCalculationCatalog.markedFetch?, hstep, (provenance_none_iff.mp hnone).1, Option.map_none] at hmarked
      cases hmarked
    · intro hwired
      obtain ⟨runner, hprepare⟩ := gateway_of_wired hwired (hs.executed _ (hs.perm.mem_iff.mpr hmem))
      have hexecuted : ∀ step ∈ request.executionPlan.steps, Executed R request step :=
        fun step hstep => hs.executed step (hs.perm.mem_iff.mpr hstep)
      exact build_single hs h (single_canonical hallow hprepare hexecuted hcalculation) (groundTrusted_of_bound h hbinding)
        (groundAdHoc_of_other h (fun a ha => by cases ha)) rfl rfl

/-! ## The gross margin -/

/-- The runner of the gateway over the catalog of the request. -/
def marginRunner : GatewayMetricStepRunner checkedDigests.toPlanDigests where
  compile _ plan _ := .ok (if plan.metricKeys = ["gross_profit"] then numeratorSql else denominatorSql)
  calculationCatalog := some marginCatalog

/-- The runners of the run, with the gateway's. -/
def gatewayRunners : PlanRunners checkedDigests.toCalculationDigests := { checkedRunners with prepare := marginRunner.prepare }

/-- The run of the request with the gateway's runner. -/
def gatewayRun : EStateM.Result ExecuteError (RunState checkedDigests.toCalculationDigests) PlanExecutionResult :=
  (execute checkedDigests gatewayRunners checkedRequest).run
    ⟨{ route := .standard, policy := bootstrapRoutingBudgetPolicy }, [], Dict.empty⟩

/-- The run succeeds, and its answer is one fact: the gross margin, from the receipt of its calculation. -/
theorem grounding_authority_margin :
    match gatewayRun with
    | .ok result _ => ∃ fact, buildAnswerFactsWithFlags checkedDigests marginPlan checkedPlan result.record result.outputs =
          some ⟨[fact], []⟩ ∧
        CarriesOutput checkedDigests result.outputs marginCalculation.stepId (.metric ⟨"gross_margin", by decide⟩) "gross_margin" fact ∧
        ∃ receipt step, GroundedBy marginPlan checkedPlan result.record result.outputs fact receipt step
    | .error _ _ => False := by
  have hstatus : statusOf gatewayRun = some .succeeded := by decide +kernel
  split
  · rename_i result s hrun
    rw [hrun] at hstatus
    obtain ⟨hgrounded, hcalculated⟩ := grounding_authority checkedDigests
    obtain ⟨-, hcanonical⟩ := hcalculated checkedValidator checkedRequest _ (allows_of_outcome checkedPlan_allowed) gatewayRunners _
      result s hrun (Option.some.inj hstatus)
    obtain ⟨binding, fact, hbinding, hcarries, -, hbuild⟩ := hcanonical marginCalculation (by decide)
    cases hbinding
    have hanswer := hbuild (.inl ⟨marginRunner, rfl⟩)
    exact ⟨fact, hanswer, hcarries, ((hgrounded _ _ _ _ _ hanswer).1 fact (List.mem_singleton.mpr rfl)).2.2⟩
  · rename_i e s hrun
    rw [hrun] at hstatus
    nomatch hstatus

end Nl2Sql
