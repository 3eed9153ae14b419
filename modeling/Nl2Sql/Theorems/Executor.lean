import Nl2Sql.Lemmas.Executor

/-!
# The record of an execution

Whatever the runners do at each step, the record of a run says which steps succeeded, in the order of the plan, and which one
failed, and it agrees with the outputs.
-/

namespace Nl2Sql

open Py

/-- The record law. The steps in order are those that succeeded, at most one that failed, and those that were not reached; the
receipts are those of the first and the second, the outputs are those of the first, and the run succeeded when there are no others. -/
structure RecordLaw {D : CalculationDigests} (ordered : List (PlanStep D)) (result : PlanExecutionResult)
    (done failed rest : List (PlanStep D)) : Prop where
  split : ordered = done ++ failed ++ rest
  at_most_one : failed.length ≤ 1
  receipts : (result.record.stepReceipts.map fun r => (r.stepId, r.status)) =
    (done.map fun step => (step.stepId, .succeeded)) ++ failed.map fun step => (step.stepId, .failed)
  output_ids : result.record.outputStepIds = done.map (·.stepId)
  outputs : result.outputs.keys = done.map (·.stepId)
  succeeded_iff : result.record.status = .succeeded ↔ done = ordered

/-- The checks before a run: the plan is of this query and this context, the validation allows this content under the expected
policy, and there is time left. -/
structure ChecksPass (D : ExecutionDigests) (request : ExecutionRequest D.toCalculationDigests) (ledger : RouteBudgetLedger) :
    Prop where
  query_hash : request.executionPlan.queryPlanSha256 = D.queryPlan request.queryPlan
  release : request.executionPlan.semanticReleaseId = request.context.semanticReleaseId
  schema_snapshot : request.executionPlan.schemaSnapshotId = request.context.schemaSnapshotId
  outcome : request.validation.outcome = .allow
  validated_query : request.validation.queryPlanSha256 = D.queryPlan request.queryPlan
  validated_context : request.validation.contextChecksum = D.context request.context
  validated_plan : request.validation.executionPlanSha256 = some (D.executionPlan request.executionPlan)
  policy_version : request.validation.policyVersion.val = request.expectedPolicyVersion
  policy_checksum : request.validation.policyChecksum.val = request.expectedPolicyChecksum
  deadline : 1 ≤ request.deadlineMs
  reserve : 1 ≤ PlanExecutor.timeoutMs ledger request.deadlineMs

namespace ExecutorAux

open PlanExecutor

attribute [local irreducible] strip

/-! ## Records of a shape -/

theorem valid_of_shape {D : CalculationDigests} {done failed : List (PlanStep D)} {receipts : List PlanStepReceipt}
    {outputs : Dict PlanStepId Json} {status : ExecutionStatus} {stopReason : Option String}
    (hreceipts : (receipts.map fun r => (r.stepId, r.status)) =
      (done.map fun step => (step.stepId, .succeeded)) ++ failed.map fun step => (step.stepId, .failed))
    (hkeys : outputs.keys = done.map (·.stepId)) (hunique : ((done ++ failed).map (·.stepId)).Nodup)
    (hlength : (done ++ failed).length ≤ 16) (hstop : validStopReason stopReason)
    (hiff : stopReason = none ↔ status = .succeeded) (hsucceeded : status = .succeeded → failed = [] ∧ done ≠ []) :
    ValidExecution status receipts outputs.keys stopReason := by
  have hlen : receipts.length = (done ++ failed).length := by
    have := congrArg List.length hreceipts
    simpa using this
  have hids : receipts.map (·.stepId) = (done ++ failed).map (·.stepId) := by
    have := congrArg (List.map Prod.fst) hreceipts
    simpa [List.map_map, Function.comp_def] using this
  refine ⟨by omega, ?_, hstop, hiff, hids ▸ hunique, ?_, fun hs => ?_⟩
  · rw [hkeys, List.length_map]
    rw [List.length_append] at hlength
    omega
  · have hfilter := congrArg (fun l => (l.filter fun p => p.2 = StepStatus.succeeded).map Prod.fst) hreceipts
    simp only [List.filter_map, List.filter_append, List.map_map, Function.comp_def, decide_true, reduceCtorEq,
      decide_false, List.filter_true, List.filter_false, List.map_nil, List.append_nil] at hfilter
    rw [hkeys]
    exact hfilter.symm
  · obtain ⟨hnone, hne⟩ := hsucceeded hs
    rw [hnone, List.map_nil, List.append_nil] at hreceipts
    constructor
    · intro hnil
      rw [hnil, hnone, List.append_nil, List.length_nil] at hlen
      exact hne (List.eq_nil_of_length_eq_zero hlen.symm)
    · intro r hr
      have hmem : (r.stepId, r.status) ∈ receipts.map fun r => (r.stepId, r.status) := List.mem_map.mpr ⟨r, hr, rfl⟩
      rw [hreceipts] at hmem
      obtain ⟨step, -, heq⟩ := List.mem_map.mp hmem
      exact (Prod.ext_iff.mp heq).2.symm

variable {D : ExecutionDigests} {R : PlanRunners D.toCalculationDigests}

/-- What the calls on the trusted runner say of the outputs: each is of a step of the plan, on the inputs its references resolve to,
and each step that succeeded was called. -/
structure CallLaw (ordered done : List (PlanStep D.toCalculationDigests)) (outputs : Dict PlanStepId Json)
    (calls : List (RunnerCall D.toCalculationDigests)) : Prop where
  resolved : ∀ t inputs, .trusted t inputs ∈ calls →
    PlanStep.trusted t ∈ ordered ∧ t.inputRefs.mapValues? (resolveRef outputs) = some inputs
  called : ∀ t, PlanStep.trusted t ∈ done → ∃ inputs, .trusted t inputs ∈ calls

/-- What the loop has done before the steps that are left. -/
structure Progress (done : List (PlanStep D.toCalculationDigests)) (outputs : Dict PlanStepId Json)
    (receipts : List PlanStepReceipt) (calls : List (RunnerCall D.toCalculationDigests)) : Prop where
  keys : outputs.keys = done.map (·.stepId)
  receipts_eq : (receipts.map fun r => (r.stepId, r.status)) = done.map fun step => (step.stepId, .succeeded)
  calls_ok : CallLaw done done outputs calls

/-- How a run ends: with a record that has the law, or because a code does not fit a receipt, which is not the case under `fits`. -/
def Ends (fits : Prop) (ordered : List (PlanStep D.toCalculationDigests)) :
    EStateM.Result ExecuteError (RunState D.toCalculationDigests) PlanExecutionResult → Prop
  | .ok r s => ∃ done failed rest, RecordLaw ordered r done failed rest ∧ CallLaw ordered done r.outputs s.calls
  | .error e _ => ((∃ code, e = .receipt code ∧ ¬ FitsReason code) ∨ e = .blankReason) ∧ ¬ fits

theorem Ends.weaken {fits fits' : Prop} {ordered : List (PlanStep D.toCalculationDigests)}
    {res : EStateM.Result ExecuteError (RunState D.toCalculationDigests) PlanExecutionResult} (h : Ends fits ordered res)
    (hf : fits' → fits) : Ends fits' ordered res := by
  cases res with
  | ok r s => exact h
  | error e s => exact ⟨h.1, fun hf' => h.2 (hf hf')⟩

/-- A record of a shape is built, and has the law. -/
theorem result_ends {plan : ExecutionPlan D.toCalculationDigests} {done failed rest : List (PlanStep D.toCalculationDigests)}
    {receipts : List PlanStepReceipt} {outputs : Dict PlanStepId Json} {status : ExecutionStatus} {stopReason : Option String}
    {s : RunState D.toCalculationDigests} (hvalid : ValidExecution status receipts outputs.keys stopReason)
    (hreceipts : (receipts.map fun r => (r.stepId, r.status)) =
      (done.map fun step => (step.stepId, .succeeded)) ++ failed.map fun step => (step.stepId, .failed))
    (hkeys : outputs.keys = done.map (·.stepId)) (hone : failed.length ≤ 1)
    (hstatus : status = .succeeded ↔ done = done ++ failed ++ rest)
    (hcalls : CallLaw (done ++ failed ++ rest) done outputs s.calls) (fits : Prop) :
    Ends fits (done ++ failed ++ rest) ((result D plan status receipts outputs stopReason).run s) := by
  unfold result
  rw [dif_pos hvalid]
  exact ⟨done, failed, rest, ⟨rfl, hone, hreceipts, hkeys, hkeys, hstatus⟩, hcalls⟩

/-! ## The exits of a failed step -/

theorem haltWith_blank {reason : String} (h : strip reason = "") (s : RunState D.toCalculationDigests) :
    (haltWith (D := D) reason).run s = .error .blankReason s := by
  have hrun := BudgetAux.halt_blank s.ledger h
  simp only [EStateM.run] at hrun
  simp only [EStateM.run, haltWith, hrun]

/-- A halt with a reason that is not blank gives the reason it stopped for, and touches nothing but the ledger. -/
theorem haltWith_run {reason : String} (h : strip reason ≠ "") (s : RunState D.toCalculationDigests) :
    ∃ code l, (haltWith (D := D) reason).run s = .ok code { s with ledger := l } ∧
      (FitsState s → FitsReason (strip reason) → FitsReason code) := by
  cases hs : s.ledger.stopReason with
  | some stopped =>
    have hrun := BudgetAux.halt_stopped h hs
    simp only [EStateM.run] at hrun
    exact ⟨stopped, s.ledger, by simp only [EStateM.run, haltWith, hrun], fun hfits _ => hfits stopped hs⟩
  | none =>
    have hrun := BudgetAux.halt_active h hs
    simp only [EStateM.run] at hrun
    exact ⟨strip reason, { s.ledger with stopReason := some (strip reason) }, by simp only [EStateM.run, haltWith, hrun],
      fun _ hfits => hfits⟩

/-- The reason of an exceeded budget: the ledger's, or the message. -/
theorem stopReasonOr_run (message : String) (s : RunState D.toCalculationDigests) :
    (∃ code l, (stopReasonOr (D := D) message).run s = .ok code { s with ledger := l } ∧
      (FitsFailure (.budgetExceeded message) s → FitsReason code)) ∨
    (∃ s', (stopReasonOr (D := D) message).run s = .error .blankReason s') ∧ ¬ FitsFailure (.budgetExceeded message) s := by
  have hhalt : (s.ledger.stopReason = none ∨ s.ledger.stopReason = some "") →
      (∃ code l, (haltWith (D := D) message).run s = .ok code { s with ledger := l } ∧
        (FitsFailure (.budgetExceeded message) s → FitsReason code)) ∨
      (∃ s', (haltWith (D := D) message).run s = .error .blankReason s') ∧ ¬ FitsFailure (.budgetExceeded message) s := by
    intro hs
    have hreason : FitsFailure (.budgetExceeded message) s → FitsReason (strip message) := by
      rintro ⟨hfits, hstopped | hmessage⟩
      · rcases hs with hs | hs
        · exact absurd hs hstopped
        · exact absurd (hfits "" hs).1 (by decide)
      · exact hmessage
    by_cases hblank : strip message = ""
    · refine .inr ⟨⟨s, haltWith_blank hblank s⟩, fun hfits => ?_⟩
      exact strip_ne_of_fits (hreason hfits) hblank
    · obtain ⟨code, l, hrun, hcode⟩ := haltWith_run hblank s
      exact .inl ⟨code, l, hrun, fun hfits => hcode hfits.1 (hreason hfits)⟩
  cases hs : s.ledger.stopReason with
  | none =>
    have hrun : (stopReasonOr (D := D) message).run s = (haltWith message).run s := by simp [stopReasonOr, hs]
    rw [hrun]
    exact hhalt (.inl hs)
  | some stopped =>
    by_cases hempty : stopped = ""
    · have hrun : (stopReasonOr (D := D) message).run s = (haltWith message).run s := by simp [stopReasonOr, hs, hempty]
      rw [hrun]
      exact hhalt (.inr (by rw [hs, hempty]))
    · refine .inl ⟨stopped, s.ledger, ?_, fun hfits => hfits.1 stopped hs⟩
      simp [stopReasonOr, hs, hempty]

section Exits

variable {plan : ExecutionPlan D.toCalculationDigests} {done rest : List (PlanStep D.toCalculationDigests)}
  {step : PlanStep D.toCalculationDigests} {receipts : List PlanStepReceipt} {outputs : Dict PlanStepId Json}

variable (hreceipts : (receipts.map fun r => (r.stepId, r.status)) = done.map fun step => (step.stepId, .succeeded))
  (hunique : ((done ++ [step] ++ rest).map (·.stepId)).Nodup)
include hreceipts hunique

/-- The receipts of the steps that are done have no receipt of the next step. -/
theorem no_receipt : (receipts.any fun r => r.stepId = step.stepId) = false := by
  rw [List.any_eq_false]
  intro r hr hid
  have hmem : (r.stepId, r.status) ∈ receipts.map fun r => (r.stepId, r.status) := List.mem_map.mpr ⟨r, hr, rfl⟩
  rw [hreceipts] at hmem
  obtain ⟨other, hother, heq⟩ := List.mem_map.mp hmem
  have hid' : other.stepId = step.stepId := (Prod.ext_iff.mp heq).1.trans (of_decide_eq_true hid)
  rw [List.append_assoc, List.map_append, List.nodup_append] at hunique
  exact hunique.2.2 _ (List.mem_map_of_mem hother) _ (List.mem_map_of_mem (List.mem_cons_self)) hid'

variable (hkeys : outputs.keys = done.map (·.stepId)) (hlength : (done ++ [step] ++ rest).length ≤ 16)
include hkeys hlength

/-- A failed step ends the run: the record is that of the steps before, with one failed receipt. -/
theorem failed_ends {status : ExecutionStatus} (hstatus : status ≠ .succeeded) (code : String)
    (s : RunState D.toCalculationDigests) (hcalls : CallLaw (done ++ [step] ++ rest) done outputs s.calls) :
    Ends (FitsReason code) (done ++ [step] ++ rest)
      ((failedStep step (R.elapsedMs step.stepId) code >>= fun receipt =>
        result D plan status (receipts ++ [receipt]) outputs (some code)).run s) := by
  unfold failedStep
  by_cases hfits : 1 ≤ code.length ∧ code.length ≤ 128
  · rw [dif_pos hfits, pure_bind]
    have hshape : ∀ receipt : PlanStepReceipt, receipt.stepId = step.stepId → receipt.status = .failed →
        ((receipts ++ [receipt]).map fun r => (r.stepId, r.status)) =
          (done.map fun step => (step.stepId, .succeeded)) ++ [step].map fun step => (step.stepId, .failed) := by
      intro receipt hid hst
      rw [List.map_append, hreceipts, List.map_singleton, List.map_singleton, hid, hst]
    refine result_ends (valid_of_shape (hshape _ rfl rfl) hkeys ?_ ?_ ?_ ?_ ?_) (hshape _ rfl rfl) hkeys (Nat.le_refl 1) ?_ hcalls _
    · rw [List.map_append] at hunique
      exact (List.nodup_append.mp hunique).1
    · rw [List.length_append] at hlength
      omega
    · intro r hr
      cases hr
      exact hfits
    · exact ⟨nofun, fun h => absurd h hstatus⟩
    · exact fun h => absurd h hstatus
    · refine ⟨fun h => absurd h hstatus, fun h => ?_⟩
      have := congrArg List.length h
      simp at this
  · rw [dif_neg hfits]
    exact ⟨.inl ⟨code, rfl, hfits⟩, hfits⟩

/-- A step that failed ends the run, once the ledger has given the code. -/
theorem halted_ends {s : RunState D.toCalculationDigests} (hcalls : CallLaw (done ++ [step] ++ rest) done outputs s.calls) (reason : String)
    (hreason : strip reason ≠ "") {fits : Prop} (hfits : fits → FitsState s ∧ FitsReason (strip reason)) :
    Ends fits (done ++ [step] ++ rest) ((haltWith reason >>= failWith D R plan step receipts outputs).run s) := by
  obtain ⟨code, l, hrun, hcode⟩ := haltWith_run hreason s
  rw [EStateM.run_bind, hrun]
  exact (failed_ends hreceipts hunique hkeys hlength (by decide) code { s with ledger := l } hcalls).weaken
    fun hf => hcode (hfits hf).1 (hfits hf).2

/-- The deadline in a step ends the run, with the failed receipt of that step. -/
theorem deadline_ends {s : RunState D.toCalculationDigests} (hcalls : CallLaw (done ++ [step] ++ rest) done outputs s.calls) {fits : Prop}
    (hfits : fits → FitsState s) :
    Ends fits (done ++ [step] ++ rest) ((deadlineExceeded D R plan (some step) receipts outputs).run s) := by
  have hreason : strip "execution_deadline_exceeded" = "execution_deadline_exceeded" := (written_ofList rfl).1
  obtain ⟨code, l, hrun, hcode⟩ := haltWith_run (by rw [hreason]; decide) s
  unfold deadlineExceeded
  rw [EStateM.run_bind, hrun]
  simp only [no_receipt hreceipts hunique, Bool.false_eq_true, if_false, pure_bind]
  refine (failed_ends hreceipts hunique hkeys hlength (by decide) code { s with ledger := l } hcalls).weaken fun hf => ?_
  refine hcode (hfits hf) ?_
  rw [hreason]
  exact ⟨by decide, by decide⟩

end Exits

/-! ## The loop -/

theorem resolveRef_mono {outputs outputs' : Dict PlanStepId Json} (h : ∀ k v, outputs.get? k = some v → outputs'.get? k = some v)
    {ref : PlanInputRef} {value : Json} (hr : resolveRef outputs ref = some value) : resolveRef outputs' ref = some value := by
  unfold resolveRef at hr ⊢
  cases hsplit : split '.' ref.val with
  | nil =>
    rw [hsplit] at hr
    cases hr
  | cons root parts =>
    rw [hsplit] at hr
    obtain ⟨output, houtput, hdescend⟩ := Option.bind_eq_some_iff.mp hr
    refine Option.bind_eq_some_iff.mpr ⟨output, ?_, hdescend⟩
    unfold outputOf at houtput ⊢
    split at houtput
    · rename_i hid
      rw [dif_pos hid]
      exact h _ _ houtput
    · cases houtput

/-- A step that ran: its calls are accounted for. -/
theorem CallLaw.step {done : List (PlanStep D.toCalculationDigests)} {step : PlanStep D.toCalculationDigests}
    {outputs : Dict PlanStepId Json} {calls calls' : List (RunnerCall D.toCalculationDigests)}
    (h : CallLaw done done outputs calls) (hstep : StepCalls step outputs calls calls')
    (rest : List (PlanStep D.toCalculationDigests)) : CallLaw (done ++ [step] ++ rest) done outputs calls' := by
  refine ⟨fun t inputs hmem => ?_, fun t ht => ?_⟩
  · rcases hstep.fresh t inputs hmem with hold | ⟨hnew, hinputs⟩
    · obtain ⟨hdone, hinputs⟩ := h.resolved t inputs hold
      exact ⟨List.mem_append_left _ (List.mem_append_left _ hdone), hinputs⟩
    · refine ⟨List.mem_append_left _ (List.mem_append_right _ ?_), hinputs⟩
      rw [hnew]
      exact List.mem_singleton.mpr rfl
  · obtain ⟨inputs, hcall⟩ := h.called t ht
    exact ⟨inputs, hstep.kept _ hcall⟩

/-- A step that succeeded: its output is added to the outputs, and changes no other. -/
theorem CallLaw.output {done : List (PlanStep D.toCalculationDigests)} {step : PlanStep D.toCalculationDigests}
    {outputs : Dict PlanStepId Json} {calls : List (RunnerCall D.toCalculationDigests)}
    (h : CallLaw (done ++ [step] ++ []) done outputs calls) (hcalled : ∀ t, step = .trusted t → ∃ inputs, .trusted t inputs ∈ calls)
    (hfresh : step.stepId ∉ outputs.keys) (output : Json) :
    CallLaw (done ++ [step]) (done ++ [step]) (outputs.set step.stepId output) calls := by
  have hmono : ∀ k v, outputs.get? k = some v → (outputs.set step.stepId output).get? k = some v := by
    intro k v hk
    have hne : step.stepId ≠ k := by
      rintro rfl
      exact hfresh (Dict.get?_isSome_iff.mp (by rw [hk]; rfl))
    rw [Dict.get?_set_of_ne _ _ hne, hk]
  refine ⟨fun t inputs hmem => ?_, fun t ht => ?_⟩
  · obtain ⟨hin, hinputs⟩ := h.resolved t inputs hmem
    rw [List.append_nil] at hin
    exact ⟨hin, Dict.mapValues?_mono (fun ref value hr => resolveRef_mono hmono hr) hinputs⟩
  · rcases List.mem_append.mp ht with hold | hnew
    · exact h.called t hold
    · exact hcalled t (List.mem_singleton.mp hnew).symm

variable (request : ExecutionRequest D.toCalculationDigests)

/-- One round of the loop. -/
theorem runSteps_cons (plan : ExecutionPlan D.toCalculationDigests)
    (timeoutMs : Int) (step : PlanStep D.toCalculationDigests) (rest : List (PlanStep D.toCalculationDigests))
    (outputs : Dict PlanStepId Json) (receipts : List PlanStepReceipt) (s : RunState D.toCalculationDigests) :
    (runSteps D R request plan timeoutMs (step :: rest) outputs receipts).run s =
      match (executeStep R request.queryPlan request.context timeoutMs outputs step).run s with
      | .ok output s' => (runSteps D R request plan timeoutMs rest (outputs.set step.stepId output)
          (receipts ++ [succeededStep D step (R.elapsedMs step.stepId) output (s'.gatewayReceipts.get? step.stepId)])).run s'
      | .error .cancelled s' => (deadlineExceeded D R plan (some step) receipts outputs).run s'
      | .error (.budgetExceeded message) s' => (stopReasonOr message >>= failWith D R plan step receipts outputs).run s'
      | .error (.stepError error) s' => (haltWith error.code >>= failWith D R plan step receipts outputs).run s'
      | .error .raised s' => (haltWith "plan_step_failed" >>= failWith D R plan step receipts outputs).run s' := by
  rw [runSteps, EStateM.run_bind]
  simp only [PlanExecutor.attempt, EStateM.run]
  cases executeStep R request.queryPlan request.context timeoutMs outputs step s with
  | ok output s' => rfl
  | error e s' => cases e <;> rfl

/-- What a run of the loop ends with, from any progress: the induction is on the steps that are left. -/
theorem runSteps_ends (plan : ExecutionPlan D.toCalculationDigests)
    (timeoutMs : Int) (rest : List (PlanStep D.toCalculationDigests)) (done : List (PlanStep D.toCalculationDigests))
    (outputs : Dict PlanStepId Json) (receipts : List PlanStepReceipt) (s : RunState D.toCalculationDigests)
    (hprogress : Progress done outputs receipts s.calls) (hunique : ((done ++ rest).map (·.stepId)).Nodup)
    (hlength : (done ++ rest).length ≤ 16) (hpos : done ++ rest ≠ []) :
    Ends (R.Bounded ∧ FitsState s) (done ++ rest) ((runSteps D R request plan timeoutMs rest outputs receipts).run s) := by
  obtain ⟨hkeys, hreceipts, hcallsDone⟩ := hprogress
  induction rest generalizing done outputs receipts s with
  | nil =>
    rw [List.append_nil] at hunique hlength hpos
    have hshape : (receipts.map fun r => (r.stepId, r.status)) =
        (done.map fun step => (step.stepId, .succeeded)) ++
          ([] : List (PlanStep D.toCalculationDigests)).map fun step => (step.stepId, .failed) := by
      rw [hreceipts, List.map_nil, List.append_nil]
    have hends : Ends (R.Bounded ∧ FitsState s) (done ++ [] ++ []) ((result D plan .succeeded receipts outputs none).run s) :=
      result_ends (valid_of_shape hshape hkeys (by rw [List.append_nil]; exact hunique) (by rw [List.append_nil]; exact hlength)
        (by intro r hr; nomatch hr) (by simp) fun _ => ⟨rfl, hpos⟩) hshape hkeys (Nat.zero_le _) (by simp)
        (by simpa using hcallsDone) _
    rw [List.append_nil] at hends
    exact hends
  | cons step rest ih =>
    have hsplit : done ++ step :: rest = done ++ [step] ++ rest := by simp
    rw [hsplit] at hunique hlength ⊢
    have hcalls := executeStep_calls (R := R) request.queryPlan request.context timeoutMs outputs step s
    have hfitsStep := fun hR : R.Bounded => triple_executeStep hR request.queryPlan request.context timeoutMs outputs step s
    rw [runSteps_cons]
    revert hcalls hfitsStep
    cases (executeStep R request.queryPlan request.context timeoutMs outputs step).run s with
    | ok output s' =>
      rintro ⟨hstep, hcalled⟩ hfitsStep
      have hfresh : step.stepId ∉ outputs.keys := by
        rw [hkeys]
        intro hmem
        rw [List.append_assoc, List.map_append, List.nodup_append] at hunique
        exact hunique.2.2 _ hmem _ (List.mem_map_of_mem List.mem_cons_self) rfl
      refine (ih (done ++ [step]) _ _ s' hunique hlength (by simp) ?_ ?_ ?_).weaken fun hf => ⟨hf.1, hfitsStep hf.1 hf.2⟩
      · rw [Dict.keys_set, if_neg hfresh, hkeys, List.map_append]
        rfl
      · rw [List.map_append, hreceipts, List.map_append]
        rfl
      · exact (hcallsDone.step hstep []).output hcalled hfresh output
    | error e s' =>
      intro hstep hfitsStep
      have hlaw : CallLaw (done ++ [step] ++ rest) done outputs s'.calls := hcallsDone.step hstep rest
      cases e with
      | cancelled =>
        refine deadline_ends hreceipts hunique hkeys hlength hlaw fun hf => ?_
        exact (hfitsStep hf.1 hf.2).1
      | budgetExceeded message =>
        rcases stopReasonOr_run message s' with ⟨code, l, hrun, hcode⟩ | ⟨⟨t, hrun⟩, hunfit⟩
        · simp only [EStateM.run_bind, hrun]
          exact (failed_ends hreceipts hunique hkeys hlength (by decide) code { s' with ledger := l } hlaw).weaken
            fun hf => hcode (hfitsStep hf.1 hf.2)
        · simp only [EStateM.run_bind, hrun]
          exact ⟨.inr rfl, fun hf => hunfit (hfitsStep hf.1 hf.2)⟩
      | stepError error =>
        refine halted_ends hreceipts hunique hkeys hlength hlaw error.code (by rw [error.stripped]; exact error.non_empty) fun hf => ?_
        obtain ⟨hfits, hcode⟩ := hfitsStep hf.1 hf.2
        rw [error.stripped]
        refine ⟨hfits, ?_, hcode⟩
        rw [Nat.one_le_iff_ne_zero, ne_eq, String.length_eq_zero_iff]
        exact error.non_empty
      | raised =>
        have hreason : strip "plan_step_failed" = "plan_step_failed" := (written_ofList rfl).1
        refine halted_ends hreceipts hunique hkeys hlength hlaw "plan_step_failed" (by rw [hreason]; decide) fun hf => ?_
        rw [hreason]
        exact ⟨(hfitsStep hf.1 hf.2).1, by decide, by decide⟩

/-! ## The checks -/

/-- What the checks say: a code that fits and that something is wrong, or that all is well. -/
def Checked (wrong well : Prop) : Option String → Prop
  | some code => (strip code = code ∧ FitsReason code) ∧ wrong
  | none => well

/-- One check before the others, with its code by its characters. -/
theorem Checked.check {wrong well c : Prop} [Decidable c] {code : List Char} {rest : Option String}
    (hcode : (code.all (fun c => !isSpace c) && decide (1 ≤ code.length ∧ code.length ≤ 128)) = true) (hc : c → wrong)
    (hrest : ¬ c → Checked wrong well rest) : Checked wrong well (if c then some (String.ofList code) else rest) := by
  have hfits := fitsReason_ofList hcode
  have hstripped : strip (String.ofList code) = String.ofList code :=
    strip_of_no_space (by simpa using (Bool.and_eq_true_iff.mp hcode).1)
  rw [hstripped] at hfits
  split
  · rename_i h
    exact ⟨⟨hstripped, hfits⟩, hc h⟩
  · rename_i h
    exact hrest h

/-- A mismatch is a code that fits, and without one the checks pass when there is time left. -/
theorem mismatch?_checked (ledger : RouteBudgetLedger) :
    Checked (¬ ChecksPass D request ledger)
      (1 ≤ request.deadlineMs → 1 ≤ PlanExecutor.timeoutMs ledger request.deadlineMs → ChecksPass D request ledger)
      (mismatch? D request request.executionPlan) := by
  have hplan : Checked (¬ ChecksPass D request ledger)
      (request.executionPlan.queryPlanSha256 = D.queryPlan request.queryPlan ∧
        request.executionPlan.semanticReleaseId = request.context.semanticReleaseId ∧
        request.executionPlan.schemaSnapshotId = request.context.schemaSnapshotId)
      (planMismatch? D request.queryPlan request.context request.executionPlan) := by
    unfold planMismatch?
    refine Checked.check rfl (fun h hp => h hp.query_hash) fun h1 => ?_
    refine Checked.check rfl (fun h hp => h hp.release) fun h2 => ?_
    refine Checked.check rfl (fun h hp => h hp.schema_snapshot) fun h3 => ?_
    exact ⟨not_not.mp h1, not_not.mp h2, not_not.mp h3⟩
  unfold mismatch?
  split
  · rename_i code hcode
    rw [hcode] at hplan
    exact hplan
  · rename_i hnone
    rw [hnone] at hplan
    unfold validationMismatch?
    refine Checked.check rfl (fun h hp => h hp.outcome) fun h4 => ?_
    refine Checked.check rfl (fun h hp => h hp.validated_query) fun h5 => ?_
    refine Checked.check rfl (fun h hp => h hp.validated_context) fun h6 => ?_
    refine Checked.check rfl (fun h hp => h hp.validated_plan) fun h7 => ?_
    refine Checked.check rfl (fun h hp => h hp.policy_version) fun h8 => ?_
    refine Checked.check rfl (fun h hp => h hp.policy_checksum) fun h9 => ?_
    exact fun h10 h11 => ⟨hplan.1, hplan.2.1, hplan.2.2, not_not.mp h4, not_not.mp h5, not_not.mp h6, not_not.mp h7, not_not.mp h8,
      not_not.mp h9, h10, h11⟩

/-- A request that is refused returns an empty record, and no runner is called. -/
theorem refuse_run (plan : ExecutionPlan D.toCalculationDigests) {status : ExecutionStatus} (hstatus : status ≠ .succeeded)
    {code : String} (hstrip : strip code = code) (hfits : FitsReason code) {ordered : List (PlanStep D.toCalculationDigests)}
    (hpos : ordered ≠ []) (s : RunState D.toCalculationDigests) :
    ∃ r l, (refuse D plan status code).run s = .ok r { s with ledger := l } ∧ RecordLaw ordered r [] [] ordered ∧
      r.outputs = Dict.empty := by
  have hne : strip code ≠ "" := strip_ne_of_fits (hstrip.symm ▸ hfits)
  obtain ⟨stopped, l, hrun, -⟩ := haltWith_run (D := D) hne s
  have hvalid : ValidExecution status [] (Dict.empty : Dict PlanStepId Json).keys (some code) := by
    refine ⟨by decide, by decide, fun r hr => ?_, ⟨nofun, fun h => absurd h hstatus⟩, List.nodup_nil, rfl, fun h => absurd h hstatus⟩
    cases hr
    exact hfits
  refine ⟨⟨⟨D.executionPlan plan, status, [], [], some code, hvalid⟩, Dict.empty⟩, l, ?_, ?_, rfl⟩
  · unfold refuse
    rw [EStateM.run_bind, hrun]
    simp only [result, dif_pos hvalid]
    rfl
  · exact ⟨rfl, Nat.zero_le 1, rfl, rfl, rfl, ⟨fun h => absurd h hstatus, fun h => absurd h.symm hpos⟩⟩

/-- The three ways a request goes: its plan is not read back, it is refused, or its steps are run. -/
theorem execute_cases (s : RunState D.toCalculationDigests) :
    (request.executionPlan.snapshot? = none ∧ (execute D R request).run s = .error .snapshot s) ∨
    (request.executionPlan.snapshot? = some request.executionPlan ∧ ¬ ChecksPass D request s.ledger ∧
      ∃ status code, status ≠ .succeeded ∧ strip code = code ∧ FitsReason code ∧
        (execute D R request).run s = (refuse D request.executionPlan status code).run s) ∨
    (request.executionPlan.snapshot? = some request.executionPlan ∧ ChecksPass D request s.ledger ∧
      ∃ ordered, orderedSteps request.executionPlan = some ordered ∧
        (execute D R request).run s = (runSteps D R request request.executionPlan
          (PlanExecutor.timeoutMs s.ledger request.deadlineMs) ordered Dict.empty []).run s) := by
  cases hsnapshot : request.executionPlan.snapshot? with
  | none =>
    refine .inl ⟨rfl, ?_⟩
    simp only [execute, hsnapshot]
    rfl
  | some plan =>
    have heq := PlanAux.plan_snapshot_eq hsnapshot
    subst heq
    refine .inr ?_
    have hchecked := mismatch?_checked request s.ledger
    cases hmismatch : mismatch? D request request.executionPlan with
    | some code =>
      rw [hmismatch] at hchecked
      refine .inl ⟨rfl, hchecked.2, .failed, code, by decide, hchecked.1.1, hchecked.1.2, ?_⟩
      simp only [execute, hsnapshot, hmismatch]
    | none =>
      rw [hmismatch] at hchecked
      by_cases hdeadline : request.deadlineMs < 1
      · refine .inl ⟨rfl, fun h => absurd h.deadline (by omega), .deadlineExceeded, "execution_deadline_unavailable", by decide,
          (written_ofList rfl).1, ⟨by decide, by decide⟩, ?_⟩
        simp only [execute, hsnapshot, hmismatch, hdeadline, if_true]
      · by_cases hreserve : PlanExecutor.timeoutMs s.ledger request.deadlineMs < 1
        · refine .inl ⟨rfl, fun h => absurd h.reserve (by omega), .deadlineExceeded, "deadline_reserve", by decide,
            (written_ofList rfl).1, ⟨by decide, by decide⟩, ?_⟩
          simp [execute, hsnapshot, hmismatch, hdeadline, hreserve]
        · obtain ⟨ordered, hordered, -⟩ := orderedSteps_eq_some request.executionPlan
          refine .inr ⟨rfl, hchecked (by omega) (by omega), ordered, hordered, ?_⟩
          simp [execute, hsnapshot, hmismatch, hdeadline, hreserve, hordered]

/-- A plan has a step. -/
theorem ne_nil_of_perm {plan : ExecutionPlan D.toCalculationDigests} {ordered : List (PlanStep D.toCalculationDigests)}
    (hperm : ordered.Perm plan.steps) : ordered ≠ [] := by
  rw [← List.length_pos_iff, hperm.length_eq]
  exact plan.steps_length.1

/-- A run of the steps of a plan, from the beginning. -/
theorem run_ends {ordered : List (PlanStep D.toCalculationDigests)}
    (hperm : ordered.Perm request.executionPlan.steps) (timeoutMs : Int) (ledger : RouteBudgetLedger) :
    Ends (R.Bounded ∧ FitsState (⟨ledger, [], Dict.empty⟩ : RunState D.toCalculationDigests)) ordered
      ((runSteps D R request request.executionPlan timeoutMs ordered Dict.empty []).run ⟨ledger, [], Dict.empty⟩) := by
  have hlength := request.executionPlan.steps_length
  rw [← hperm.length_eq] at hlength
  refine runSteps_ends request request.executionPlan timeoutMs ordered [] Dict.empty [] ⟨ledger, [], Dict.empty⟩
    ⟨rfl, rfl, ⟨nofun, nofun⟩⟩ ?_ hlength.2 (ne_nil_of_perm hperm)
  exact (hperm.map _).nodup_iff.mpr request.executionPlan.dag.ids_unique

end ExecutorAux

open ExecutorAux PlanExecutor PlanAux

/-- The record law of the executor. For every plan and whatever the runners do at each step, a run that returns has a record, valid
by its type, whose receipts are those of the first steps in the order of the plan, which succeeded, with at most one failed receipt
of the next step; its outputs are those of the steps that succeeded, and it succeeded exactly when all steps did. Where a check
before the run fails, no runner is called and there is no output. A run raises only where the plan is not read back, or where a
reason does not fit a receipt: never with runners whose errors fit, on a ledger whose stop reason does. -/
theorem execution_record_law (D : ExecutionDigests) (R : PlanRunners D.toCalculationDigests)
    (request : ExecutionRequest D.toCalculationDigests) (ledger : RouteBudgetLedger) :
    (match (execute D R request).run ⟨ledger, [], Dict.empty⟩ with
      | .ok result s => ∃ ordered done failed rest, orderedSteps request.executionPlan = some ordered ∧
          ordered.Perm request.executionPlan.steps ∧ Topological ordered ∧ RecordLaw ordered result done failed rest ∧
          (¬ ChecksPass D request ledger → s.calls = [] ∧ result.outputs = Dict.empty)
      | .error e s => (e = .snapshot ∧ request.executionPlan.snapshot? = none ∧ s.calls = []) ∨
          (ChecksPass D request ledger ∧ ((∃ code, e = .receipt code ∧ ¬ FitsReason code) ∨ e = .blankReason))) ∧
    (request.executionPlan.snapshot? ≠ none → validStopReason ledger.stopReason → R.Bounded →
      ∃ result s, (execute D R request).run ⟨ledger, [], Dict.empty⟩ = .ok result s) := by
  obtain ⟨ordered, hordered, hperm, htop⟩ := orderedSteps_eq_some request.executionPlan
  rcases execute_cases (R := R) request ⟨ledger, [], Dict.empty⟩ with
    ⟨hnone, hrun⟩ | ⟨-, hchecks, status, code, hstatus, hstrip, hfits, hrun⟩ | ⟨-, hchecks, steps, hsteps, hrun⟩
  · rw [hrun]
    exact ⟨.inl ⟨rfl, hnone, rfl⟩, fun hsome => absurd hnone hsome⟩
  · obtain ⟨r, l, hrefuse, hlaw, houtputs⟩ := refuse_run request.executionPlan hstatus hstrip hfits (ne_nil_of_perm hperm)
      ⟨ledger, [], Dict.empty⟩
    rw [hrun, hrefuse]
    exact ⟨⟨ordered, [], [], ordered, hordered, hperm, htop, hlaw, fun _ => ⟨rfl, houtputs⟩⟩, fun _ _ _ => ⟨r, _, rfl⟩⟩
  · rw [hordered] at hsteps
    cases hsteps
    have hends := run_ends (R := R) request hperm (timeoutMs ledger request.deadlineMs) ledger
    rw [hrun]
    revert hends
    cases (runSteps D R request request.executionPlan (timeoutMs ledger request.deadlineMs) ordered Dict.empty []).run
        ⟨ledger, [], Dict.empty⟩ with
    | ok result s =>
      rintro ⟨done, failed, rest, hlaw, -⟩
      exact ⟨⟨ordered, done, failed, rest, hordered, hperm, htop, hlaw, fun h => absurd hchecks h⟩, fun _ _ _ => ⟨result, s, rfl⟩⟩
    | error e s =>
      rintro ⟨herror, hunfit⟩
      exact ⟨.inr ⟨hchecks, herror⟩, fun _ hstop hR => absurd ⟨hR, hstop⟩ hunfit⟩

end Nl2Sql
