import Nl2Sql.Lemmas.Executor
import Nl2Sql.Lib.Acyclic
import Nl2Sql.Plan.TypedDag

/-!
# The two topological loops

The validator of a plan peels the dependencies layer by layer and throws the layers away; the executor goes through them again and
keeps them. What the first accepts is a plan without a cycle, and what it accepts the second puts in order.
-/

namespace Nl2Sql

open Py

namespace TypedDagAux

open ExecutorAux

variable {D : CalculationDigests}

/-- The loop of the validator peels the steps by their ids and dependencies. -/
theorem dagLoop_eq_peel (rounds : Nat) (pending : List (PlanStep D)) (resolved : List PlanStepId) :
    dagLoop rounds pending resolved = peel PlanStep.stepId PlanStep.dependsOn rounds pending resolved := by
  induction rounds generalizing pending resolved with
  | zero => cases pending <;> rfl
  | succ rounds ih =>
    cases pending with
    | nil => rfl
    | cons step pending =>
      simp only [dagLoop, peel, ih]
      congr!

/-- A step raises nothing exactly where its dependencies are known other steps, and its references are to them. -/
theorem dagStepError_eq_none_iff {steps : List (PlanStep D)} {step : PlanStep D} :
    dagStepError (steps.map (·.stepId.val)) step = none ↔
      (step.stepId ∉ step.dependsOn ∧ ∀ d ∈ step.dependsOn, d ∈ steps.map (·.stepId)) ∧
      ∀ ref ∈ step.refs, ref.root ∈ step.dependsOn.map (·.val) := by
  have hval : ∀ {id : PlanStepId} {ids : List PlanStepId}, id.val ∈ ids.map (·.val) ↔ id ∈ ids :=
    List.mem_map_of_injective Subtype.val_injective
  have hids : steps.map (·.stepId.val) = (steps.map (·.stepId)).map (·.val) := by
    rw [List.map_map]
    rfl
  have hunknown : (sortedStr ((step.dependsOn.map (·.val)).filter (· ∉ steps.map (·.stepId.val)))).head? = none ↔
      ∀ d ∈ step.dependsOn, d ∈ steps.map (·.stepId) := by
    rw [List.head?_eq_none_iff, ← List.length_eq_zero_iff, sortedStr, List.length_insertionSort, List.length_eq_zero_iff,
      List.filter_eq_nil_iff, List.forall_mem_map, hids]
    simp only [decide_eq_true_eq, not_not, hval]
  unfold dagStepError
  by_cases hself : step.stepId ∈ step.dependsOn
  · rw [if_pos (hval.mpr hself)]
    exact ⟨fun h => (nomatch h), fun h => absurd hself h.1.1⟩
  · rw [if_neg fun h => hself (hval.mp h)]
    cases hhead : (sortedStr ((step.dependsOn.map (·.val)).filter (· ∉ steps.map (·.stepId.val)))).head? with
    | some unknown =>
      refine ⟨fun h => (nomatch h), fun h => ?_⟩
      rw [hunknown.mpr h.1.2] at hhead
      nomatch hhead
    | none =>
      have hknown := hunknown.mp hhead
      rw [and_iff_right ⟨hself, hknown⟩]
      refine List.findSome?_eq_none_iff.trans (forall₂_congr fun ref _ => ?_)
      by_cases hroot : ref.root ∈ step.dependsOn.map (·.val)
      · have hplan : ref.root ∈ steps.map (·.stepId.val) := by
          obtain ⟨d, hd, hroot'⟩ := List.mem_map.mp hroot
          rw [hids, ← hroot']
          exact hval.mpr (hknown d hd)
        simp only [hroot, hplan, not_true_eq_false, if_false]
      · simp only [hroot, not_false_eq_true, if_true, iff_false]
        split <;> exact Option.some_ne_none _

/-- The validator accepts exactly the steps of a plan. -/
theorem validateTypedDag_ok_iff {steps : List (PlanStep D)} : validateTypedDag steps = .ok () ↔ ValidTypedDag steps := by
  unfold validateTypedDag
  by_cases hunique : (steps.map (·.stepId)).Nodup
  · rw [if_neg (not_not.mpr hunique)]
    cases hfind : steps.findSome? (dagStepError (steps.map (·.stepId.val))) with
    | some message =>
      constructor
      · exact fun h => nomatch h
      · intro h
        obtain ⟨step, hstep, herror⟩ := List.exists_of_findSome?_eq_some hfind
        have hnone := dagStepError_eq_none_iff.mpr ⟨⟨h.not_self step hstep, h.known step hstep⟩, h.refs_declared step hstep⟩
        rw [hnone] at herror
        nomatch herror
    | none =>
      have hsteps := fun step hstep => dagStepError_eq_none_iff.mp (List.findSome?_eq_none_iff.mp hfind step hstep)
      constructor
      · intro h
        have hloop : dagLoop steps.length steps [] = true := by
          by_contra hnot
          simp only [hnot, if_false] at h
          nomatch h
        exact ⟨hunique, fun step hstep => (hsteps step hstep).1.1, fun step hstep => (hsteps step hstep).1.2,
          fun step hstep => (hsteps step hstep).2, hloop⟩
      · intro h
        simp only [h.resolves, if_true]
  · rw [if_pos hunique]
    exact ⟨fun h => (nomatch h), fun h => absurd h.ids_unique hunique⟩

/-- What a plan's validator accepts, without the loop: there is no cycle. -/
theorem validTypedDag_iff_acyclic {steps : List (PlanStep D)} : ValidTypedDag steps ↔
    (steps.map (·.stepId)).Nodup ∧ (∀ step ∈ steps, ∀ d ∈ step.dependsOn, d ≠ step.stepId ∧ d ∈ steps.map (·.stepId)) ∧
      (∀ step ∈ steps, ∀ ref ∈ step.refs, ref.root ∈ step.dependsOn.map (·.val)) ∧
      Acyclic PlanStep.stepId PlanStep.dependsOn steps := by
  constructor
  · intro h
    refine ⟨h.ids_unique, fun step hstep d hd => ⟨?_, h.known step hstep d hd⟩, h.refs_declared, ?_⟩
    · rintro rfl
      exact h.not_self step hstep hd
    · rw [← peel_iff_acyclic h.ids_unique h.known, ← dagLoop_eq_peel]
      exact h.resolves
  · rintro ⟨hunique, hdeps, hrefs, hacyclic⟩
    have hknown := fun step hstep d hd => (hdeps step hstep d hd).2
    refine ⟨hunique, fun step hstep hself => (hdeps step hstep _ hself).1 rfl, hknown, hrefs, ?_⟩
    rw [dagLoop_eq_peel, peel_iff_acyclic hunique hknown]
    exact hacyclic

/-- The root of a reference is a step id where the reference is declared, and is found among the outputs where its step has one. -/
theorem outputOf_root {outputs : Dict PlanStepId Json} {ref : PlanInputRef} {d : PlanStepId} (hroot : d.val = ref.root)
    (hd : d ∈ outputs) : ∃ value, outputOf outputs ref.root = some value := by
  rw [Dict.mem_iff_mem_keys, ← Dict.get?_isSome_iff] at hd
  obtain ⟨value, hvalue⟩ := Option.isSome_iff_exists.mp hd
  refine ⟨value, ?_⟩
  rw [outputOf, ← hroot, dif_pos d.property]
  exact hvalue

end TypedDagAux

open TypedDagAux ExecutorAux

/-- The two topological loops agree. The validator of a plan accepts exactly the steps whose ids are unique, whose dependencies are
known other steps and without a cycle, and whose references are to declared dependencies. And of an accepted plan the executor's loop
returns all the steps, each after those it depends on, so that every reference finds its root among the outputs of the steps before. -/
theorem typed_dag_law (D : CalculationDigests) :
    (∀ steps : List (PlanStep D), validateTypedDag steps = .ok () ↔
      (steps.map (·.stepId)).Nodup ∧ (∀ step ∈ steps, ∀ d ∈ step.dependsOn, d ≠ step.stepId ∧ d ∈ steps.map (·.stepId)) ∧
        (∀ step ∈ steps, ∀ ref ∈ step.refs, ref.root ∈ step.dependsOn.map (·.val)) ∧
        Acyclic PlanStep.stepId PlanStep.dependsOn steps) ∧
    ∀ plan : ExecutionPlan D, validateTypedDag plan.steps = .ok () ∧
      ∃ ordered, orderedSteps plan = some ordered ∧ ordered.Perm plan.steps ∧
        ∀ before step after, ordered = before ++ step :: after →
          (∀ d ∈ step.dependsOn, d ∈ before.map (·.stepId)) ∧
          ∀ outputs : Dict PlanStepId Json, (∀ earlier ∈ before, earlier.stepId ∈ outputs) → ∀ ref ∈ step.refs,
            ∃ value, outputOf outputs ref.root = some value ∧ resolveRef outputs ref = descend ((split '.' ref.val).drop 1) value := by
  refine ⟨fun steps => validateTypedDag_ok_iff.trans validTypedDag_iff_acyclic, fun plan =>
    ⟨validateTypedDag_ok_iff.mpr plan.dag, ?_⟩⟩
  obtain ⟨ordered, hordered, hperm, htopological⟩ := orderedSteps_eq_some plan
  refine ⟨ordered, hordered, hperm, fun before step after heq => ?_⟩
  have hbefore := htopological before step after heq
  refine ⟨hbefore, fun outputs houtputs ref href => ?_⟩
  have hstep : step ∈ plan.steps := hperm.mem_iff.mp (by simp [heq])
  obtain ⟨d, hd, hroot⟩ := List.mem_map.mp (plan.dag.refs_declared step hstep ref href)
  obtain ⟨earlier, hearlier, rfl⟩ := List.mem_map.mp (hbefore d hd)
  obtain ⟨value, hvalue⟩ := outputOf_root hroot (houtputs earlier hearlier)
  refine ⟨value, hvalue, ?_⟩
  unfold resolveRef
  rw [PlanInputRef.root] at hvalue
  cases hsplit : split '.' ref.val with
  | nil =>
    have hnonempty : ref.root = "" := by rw [PlanInputRef.root, hsplit]; rfl
    rw [hnonempty] at hroot
    exact absurd earlier.stepId.property (by rw [hroot]; decide)
  | cons root parts =>
    rw [hsplit, List.headD_cons] at hvalue
    simp only [hvalue, Option.bind_some, List.drop_one, List.tail_cons]

end Nl2Sql
