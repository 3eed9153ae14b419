import Nl2Sql.Lemmas.Clarify

/-!
# What the nodes leave alone

The channels of the mode capability are written by the plan node and the capability node, and an approval is asked for by the model node:
every other node leaves them alone.
-/

namespace Nl2Sql

open Py

namespace Engine

variable {D : EngineDigests} {E : Engine D} {config : RunConfig} {a : Answers D.toCalculationDigests}
  {w w' w'' : WorkChannels D.toCalculationDigests}

/-- The channels of the mode capability are unchanged. -/
structure SameCapability (w w' : WorkChannels D.toCalculationDigests) : Prop where
  pending : w'.modeCapabilityPending = w.modeCapabilityPending
  outcome : w'.modeCapabilityOutcome = w.modeCapabilityOutcome

/-- The channels of the mode capability are unchanged, and no approval is asked for. -/
structure Frame (w w' : WorkChannels D.toCalculationDigests) : Prop extends SameCapability w w' where
  approval : w'.needsHitl = true → w.needsHitl = true

theorem SameCapability.trans (h : SameCapability w w') (h' : SameCapability w' w'') : SameCapability w w'' :=
  ⟨h'.pending.trans h.pending, h'.outcome.trans h.outcome⟩

theorem Frame.refl (w : WorkChannels D.toCalculationDigests) : Frame w w := ⟨⟨rfl, rfl⟩, id⟩

theorem Frame.trans (h : Frame w w') (h' : Frame w' w'') : Frame w w'' :=
  ⟨h.toSameCapability.trans h'.toSameCapability, fun ha => h.approval (h'.approval ha)⟩

theorem frame_stopWith (w : WorkChannels D.toCalculationDigests) (content reason flag : String) :
    Frame w (w.stopWith content reason flag) := ⟨⟨rfl, rfl⟩, id⟩

theorem frame_checkpointed {ledger : RouteBudgetLedger} (h : checkpointed ledger w' = .ok w'') (hw : Frame w w') : Frame w w'' := by
  obtain ⟨-, record, rfl⟩ := checkpointed_eq_ok h
  exact hw.trans ⟨⟨rfl, rfl⟩, id⟩

theorem frame_haltedWith {ledger : RouteBudgetLedger} {content reason flag : String}
    (h : haltedWith ledger w content reason flag = .ok w') : Frame w w' := by
  obtain ⟨stop, record, -, rfl⟩ := haltedWith_eq_ok h
  exact ⟨⟨rfl, rfl⟩, id⟩

/-! ## Up to the route -/

theorem frame_typedRuntime {answer : FactoryAnswer} {bundle : Option TypedRuntimeBundle}
    (h : (typedRuntime config answer w).result = .ok (w', bundle)) : Frame w w' := by
  unfold typedRuntime at h
  split at h
  · cases h
    exact ⟨⟨rfl, rfl⟩, id⟩
  simp only [Visit.calling] at h
  split at h
  · cases h
  · cases h
    exact ⟨⟨rfl, rfl⟩, id⟩
  · cases h
    exact ⟨⟨rfl, rfl⟩, id⟩

theorem frame_contextFailed (w : WorkChannels D.toCalculationDigests) (failure : ResolverFailure) : Frame w (contextFailed w failure) := by
  cases failure <;> exact frame_stopWith _ _ _ _

theorem frame_context {runtime b now answer} (h : (E.context config runtime b now answer w).result = .ok w') : Frame w w' := by
  unfold context at h
  split at h
  · cases h
    exact .refl _
  split at h
  · cases h
  split at h
  · cases h
    exact frame_contextFailed _ _
  split at h
  · cases h
    exact frame_contextFailed _ _
  simp only [Visit.calling] at h
  split at h
  · cases h
    exact frame_contextFailed _ _
  · cases h
    exact ⟨⟨rfl, rfl⟩, id⟩

/-- A proposal that failed leaves the channels alone, or the capability pending. -/
theorem frame_proposalFailed (b : RunBinding) (w : WorkChannels D.toCalculationDigests) (failure : ProposalFailure) :
    Frame w (proposalFailed b w failure) ∨
      proposalFailed b w failure = { w with modeCapabilityPending := true } := by
  unfold proposalFailed
  split
  · split
    · exact .inl ⟨⟨rfl, rfl⟩, id⟩
    · exact .inr rfl
    · exact .inl (frame_stopWith _ _ _ _)
  · exact .inl (frame_stopWith _ _ _ _)
  · exact .inl (frame_stopWith _ _ _ _)

/-- The plan node leaves the channels alone, or the capability pending. -/
theorem frame_plan {runtime b now answer} (h : (E.plan config runtime b now answer w).result = .ok w') :
    Frame w w' ∨ w' = { w with modeCapabilityPending := true } := by
  unfold plan at h
  split at h
  · cases h
    exact .inl (.refl _)
  split at h
  · cases h
  split at h
  · cases h
    exact frame_proposalFailed _ _ _
  split at h
  · cases h
    exact frame_proposalFailed _ _ _
  split at h
  · cases h
    exact frame_proposalFailed _ _ _
  simp only [Visit.calling] at h
  split at h
  · cases h
    exact frame_proposalFailed _ _ _
  · cases h
    exact .inl ⟨⟨rfl, rfl⟩, id⟩

theorem frame_validate {d d' : DecisionChannels} (h : E.validate config d w = (d', w')) : Frame w w' := by
  unfold validate at h
  split at h
  · cases h
    exact .refl _
  split at h
  · cases h
    exact frame_stopWith _ _ _ _
  dsimp only at h
  split at h
  · cases h
    exact ⟨⟨rfl, rfl⟩, id⟩
  · split at h
    · cases h
      exact ⟨⟨rfl, rfl⟩, id⟩
    · cases h
      exact ⟨⟨rfl, rfl⟩, nofun⟩
  · cases h
    exact ⟨⟨rfl, rfl⟩, id⟩

theorem frame_route {b now} (h : E.route config b now w = .ok w') : Frame w w' := by
  unfold route at h
  split at h
  · cases h
    exact frame_stopWith _ _ _ _
  · dsimp only at h
    exact frame_checkpointed h ⟨⟨rfl, rfl⟩, id⟩

/-! ## Compilation, execution and analysis -/

theorem frame_compile (h : E.compile w = .ok w') : Frame w w' := by
  unfold compile at h
  obtain ⟨route, -, h⟩ := bind_eq_ok.mp h
  obtain ⟨ledger, -, h⟩ := bind_eq_ok.mp h
  split at h
  · exact frame_haltedWith h
  obtain ⟨w1, hw1, h⟩ := bind_eq_ok.mp h
  have hfirst : Frame w w1 := frame_checkpointed hw1 ⟨⟨rfl, rfl⟩, id⟩
  split at h
  · cases h
    exact hfirst
  · exact hfirst.trans (frame_haltedWith h)
  · exact hfirst.trans (frame_haltedWith h)

theorem frame_executed {inputs : ExecutionInputs D} {result : PlanExecutionResult} {ledger : RouteBudgetLedger}
    (h : E.executed inputs result ledger w = .ok w') : Frame w w' := by
  unfold executed at h
  obtain ⟨w1, hw1, h⟩ := bind_eq_ok.mp h
  have hfirst : Frame w w1 := frame_checkpointed hw1 ⟨⟨rfl, rfl⟩, id⟩
  split at h
  · split at h
    · cases h
    obtain ⟨blocks, -, h⟩ := bind_eq_ok.mp h
    cases h
    exact hfirst.trans ⟨⟨rfl, rfl⟩, id⟩
  · cases h
    exact hfirst.trans (frame_stopWith _ _ _ _)

theorem frame_execute {runtime b now runners} (h : (E.execute config runtime b now runners w).result = .ok w') : Frame w w' := by
  unfold execute at h
  split at h
  · cases h
  split at h
  · cases h
  split at h
  · exact frame_haltedWith h
  · simp only [Visit.calling] at h
    split at h
    · cases h
    · exact frame_executed h

/-- An exit before a call is one of the exits of a checkpointed state. -/
theorem beginCall_stopped {α : Type} {ledger : RouteBudgetLedger} {start : α} {call : ModelCall}
    {exceeded : String → WorkChannels D.toCalculationDigests} (h : beginCall ledger start call exceeded = .ok (.stopped w')) :
    ∃ stop, Frame (exceeded stop) w' := by
  unfold beginCall at h
  split at h
  · cases h
  · obtain ⟨⟨stop, ledger'⟩, -, h⟩ := bind_eq_ok.mp h
    obtain ⟨w1, hw1, h⟩ := bind_eq_ok.mp h
    cases h
    exact ⟨stop, frame_checkpointed hw1 (.refl _)⟩
  · cases h

theorem frame_analysisStopped (w : WorkChannels D.toCalculationDigests) (content reason flag : String) :
    Frame w (analysisStopped w content reason flag) := ⟨⟨rfl, rfl⟩, id⟩

theorem frame_analysisStart {b now} (h : E.analysisStart config b now w = .ok (.stopped w')) : Frame w w' := by
  unfold analysisStart at h
  split at h
  · cases h
    exact frame_analysisStopped _ _ _ _
  obtain ⟨route, -, h⟩ := bind_eq_ok.mp h
  split at h
  · cases h
    exact frame_analysisStopped _ _ _ _
  dsimp only at h
  split at h
  · obtain ⟨w1, hw1, h⟩ := bind_eq_ok.mp h
    cases h
    exact frame_checkpointed hw1 (frame_analysisStopped _ _ _ _)
  · obtain ⟨stop, hstop⟩ := beginCall_stopped h
    exact (frame_analysisStopped _ _ _ _).trans hstop

theorem frame_analysisFailed {ledger : RouteBudgetLedger} {record : LedgerM Unit} {content reason flag : String}
    {receipt : Option ModelReceipt} (h : E.analysisFailed ledger w record content reason flag receipt = .ok w') : Frame w w' := by
  unfold analysisFailed at h
  obtain ⟨⟨stop, ledger'⟩, -, h⟩ := bind_eq_ok.mp h
  dsimp only at h
  exact frame_checkpointed h ⟨⟨rfl, rfl⟩, id⟩

theorem frame_analysisCompleted {input : AnalysisInput} {sourceFacts : String} {interpretation : AnalysisInterpretation}
    {receipt : ModelReceipt} {ledger : RouteBudgetLedger}
    (h : E.analysisCompleted input sourceFacts interpretation receipt ledger w = .ok w') : Frame w w' := by
  unfold analysisCompleted at h
  obtain ⟨⟨stop, ledger'⟩, -, h⟩ := bind_eq_ok.mp h
  dsimp only at h
  split at h
  · exact frame_checkpointed h ⟨⟨rfl, rfl⟩, id⟩
  · split at h
    · exact frame_checkpointed h ⟨⟨rfl, rfl⟩, id⟩
    · cases h

theorem frame_analysis {b now answer} (h : (E.analysis config b now answer w).result = .ok w') : Frame w w' := by
  unfold analysis at h
  split at h
  · cases h
  · rename_i w1 hstart
    cases h
    exact frame_analysisStart hstart
  simp only [Visit.calling] at h
  unfold analysisAnswered at h
  split at h
  · exact frame_analysisFailed h
  · exact frame_analysisFailed h
  · exact frame_analysisFailed h
  · cases h
  split at h
  · exact frame_analysisFailed h
  · cases h
  · exact frame_analysisCompleted h

/-! ## The model and the approval -/

/-- The model node asks for an approval only with the approval channels written. -/
structure ModelFrame (w : WorkChannels D.toCalculationDigests) (r : ModelResult D) : Prop extends SameCapability w r.1 where
  approval : r.1.needsHitl = true → w.needsHitl = true ∨ r.2 ≠ none

theorem ModelFrame.ofFrame (h : Frame w w') : ModelFrame w (w', none) := ⟨h.toSameCapability, fun ha => .inl (h.approval ha)⟩

theorem frame_modelStopped (w : WorkChannels D.toCalculationDigests) (content reason flag : String) :
    Frame w (modelStopped w content reason flag) := ⟨⟨rfl, rfl⟩, id⟩

theorem frame_modelStart {b now elapsed} (h : E.modelStart config b now elapsed w = .ok (.stopped w')) : Frame w w' := by
  unfold modelStart at h
  obtain ⟨route, -, h⟩ := bind_eq_ok.mp h
  obtain ⟨ledger, -, h⟩ := bind_eq_ok.mp h
  dsimp only at h
  split at h
  · obtain ⟨⟨stop, ledger'⟩, -, h⟩ := bind_eq_ok.mp h
    obtain ⟨w1, hw1, h⟩ := bind_eq_ok.mp h
    cases h
    exact frame_checkpointed hw1 (frame_modelStopped _ _ _ _)
  split at h
  · obtain ⟨⟨stop, ledger'⟩, -, h⟩ := bind_eq_ok.mp h
    obtain ⟨w1, hw1, h⟩ := bind_eq_ok.mp h
    cases h
    exact frame_checkpointed hw1 (frame_modelStopped _ _ _ _)
  · obtain ⟨stop, hstop⟩ := beginCall_stopped h
    exact (frame_modelStopped _ _ _ _).trans hstop

theorem frame_modelAnswered {route ledger receipt} {r : ModelResult D}
    (h : E.modelAnswered config route ledger receipt w = .ok r) : ModelFrame w r := by
  unfold modelAnswered at h
  obtain ⟨⟨stop, ledger'⟩, -, h⟩ := bind_eq_ok.mp h
  dsimp only at h
  split at h
  · obtain ⟨w1, hw1, h⟩ := bind_eq_ok.mp h
    cases h
    exact .ofFrame (frame_checkpointed hw1 (frame_modelStopped _ _ _ _))
  · obtain ⟨w1, hw1, h⟩ := bind_eq_ok.mp h
    have hframe : Frame w w1 := frame_checkpointed hw1 ⟨⟨rfl, rfl⟩, id⟩
    split at h
    · cases h
      exact ⟨⟨hframe.pending, hframe.outcome⟩, fun _ => .inr nofun⟩
    · cases h
      exact .ofFrame (hframe.trans ⟨⟨rfl, rfl⟩, id⟩)

theorem frame_modelReturned {route ledger answer} {r : ModelResult D}
    (h : E.modelReturned config route ledger answer w = .ok r) : ModelFrame w r := by
  unfold modelReturned at h
  split at h
  · exact frame_modelAnswered h
  · cases h
  · obtain ⟨⟨stop, ledger'⟩, -, h⟩ := bind_eq_ok.mp h
    obtain ⟨w1, hw1, h⟩ := bind_eq_ok.mp h
    cases h
    exact .ofFrame (frame_checkpointed hw1 (frame_modelStopped _ _ _ _))
  · split at h
    · cases h
    obtain ⟨⟨stop, ledger'⟩, -, h⟩ := bind_eq_ok.mp h
    obtain ⟨w1, hw1, h⟩ := bind_eq_ok.mp h
    cases h
    exact .ofFrame (frame_checkpointed hw1 (frame_modelStopped _ _ _ _))

theorem frame_model {b now elapsed answer} {r : ModelResult D} (h : (E.model config b now elapsed answer w).result = .ok r) :
    ModelFrame w r := by
  unfold model at h
  split at h
  · cases h
  · rename_i w1 hstart
    cases h
    exact .ofFrame (frame_modelStart hstart)
  · exact frame_modelReturned h

theorem capability_failedAction (h : HitlChannels) (w : WorkChannels D.toCalculationDigests) (version : Nat) (reason : String) :
    SameCapability w (failedAction h w version reason).2 := ⟨rfl, rfl⟩

theorem capability_approvalKey {members : List (String × Json)} {h : HitlChannels} {r}
    (hr : approvalKey members h w = .error r) : SameCapability w r.2 := by
  unfold approvalKey at hr
  split at hr
  · dsimp only at hr
    split at hr
    · cases hr
      exact ⟨rfl, rfl⟩
    split at hr
    · cases hr
      exact ⟨rfl, rfl⟩
    split at hr
    · cases hr
      exact ⟨rfl, rfl⟩
    · cases hr
  · cases hr
    exact ⟨rfl, rfl⟩

theorem capability_hitl {payload : Json} {h : HitlChannels} {r} (hr : E.hitl payload h w = .ok r) : SameCapability w r.2 := by
  unfold hitl at hr
  split at hr
  · obtain ⟨action, -, hr⟩ := bind_eq_ok.mp hr
    split at hr
    · cases hr
      exact capability_failedAction _ _ _ _
    split at hr
    · cases hr
      exact capability_failedAction _ _ _ _
    split at hr
    · rename_i failed hfailed
      cases hr
      exact capability_approvalKey hfailed
    · cases hr
      unfold applyAction
      split <;> exact ⟨rfl, rfl⟩
  · cases hr
    exact capability_failedAction _ _ _ _

theorem capability_hitlVisit {received : List Json} {h : HitlChannels} {r}
    (hr : E.hitlVisit received h w = .ok (.returned r)) : SameCapability w r.2 := by
  unfold hitlVisit at hr
  split at hr
  · cases hr
  · rename_i payload rest
    cases hh : E.hitl payload h w with
    | error e =>
      rw [hh] at hr
      cases hr
    | ok r' =>
      rw [hh] at hr
      cases hr
      exact capability_hitl hh

/-! ## The clarification -/

/-- The decision node keeps the frame, and leaves the continuation as it was. -/
theorem frame_decision {received : List Json} {d d' : DecisionChannels} (h : decision received d w = .returned (d', w')) :
    Frame w w' ∧ d'.continuationReady = d.continuationReady := by
  unfold decision at h
  split at h
  · cases h
    exact ⟨frame_stopWith _ _ _ _, rfl⟩
  obtain ⟨payload, -, haccepted⟩ := accepted_of_decisionLoop h
  unfold receivePayload at haccepted
  split at haccepted
  · cases haccepted
  split at haccepted
  · cases haccepted
  split at haccepted
  · rename_i settled hsettled
    cases haccepted
    unfold settle? at hsettled
    split at hsettled
    · cases hsettled
      exact ⟨⟨⟨rfl, rfl⟩, nofun⟩, rfl⟩
    split at hsettled
    · unfold replayResult at hsettled
      split at hsettled
      · cases hsettled
        exact ⟨frame_stopWith _ _ _ _, rfl⟩
      · cases hsettled
        exact ⟨⟨⟨rfl, rfl⟩, nofun⟩, rfl⟩
    · cases hsettled
  · cases haccepted

theorem frame_continuationStopped (d : DecisionChannels) (w : WorkChannels D.toCalculationDigests) (reason : String) :
    Frame w (continuationStopped d w reason).2 := ⟨⟨rfl, rfl⟩, nofun⟩

theorem frame_replannedAllow {answer newPlan context validation} {d base d' : DecisionChannels}
    (h : (E.replannedAllow config answer newPlan context validation d base w).result = .ok (d', w')) : Frame w w' := by
  unfold replannedAllow at h
  split at h
  · cases h
    exact ⟨⟨rfl, rfl⟩, nofun⟩
  split at h
  · cases h
    exact ⟨⟨rfl, rfl⟩, nofun⟩
  · cases h
    exact frame_continuationStopped d w _

theorem frame_replan {runtime : Option TypedRuntimeBundle} {d d' : DecisionChannels}
    (h : (E.replan config runtime a d w).result = .ok (d', w')) : Frame w w' := by
  unfold replan at h
  split at h
  · cases h
  · cases h
    exact frame_continuationStopped d w _
  split at h
  · cases h
  split at h
  · cases h
    exact frame_continuationStopped d w _
  · cases h
  dsimp only at h
  split at h
  · cases h
    exact frame_continuationStopped d w _
  split at h
  · cases h
    exact frame_continuationStopped d w _
  unfold replannedWith at h
  dsimp only at h
  split at h
  · exact frame_replannedAllow h
  · split at h
    · cases h
      exact frame_continuationStopped d w _
    · cases h
      exact ⟨⟨rfl, rfl⟩, nofun⟩
  · cases h
    exact frame_stopWith _ _ _ _

end Engine

end Nl2Sql
