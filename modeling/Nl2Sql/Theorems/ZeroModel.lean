import Nl2Sql.Lemmas.Engine

/-!
# Which runs call a model

The mode of a run is in its envelope, which only the receiving node writes, and the edges read it: a QUERY run never reaches a node that
calls the model gateway, and an ANALYZE run of the typed pipeline reaches one of them, once, behind an execution that succeeded.
-/

namespace Nl2Sql

open Py Engine

namespace ZeroModelAux

variable {D : EngineDigests} {E : Engine D}

/-- The calls of the model gateway of some steps. -/
def modelCalls (records : List (Record D)) : List (EngineCall D.toCalculationDigests) :=
  (records.flatMap (·.step.calls)).filter (·.isModel)

theorem modelCalls_append_singleton (past : List (Record D)) (record : Record D) :
    modelCalls (past ++ [record]) = modelCalls past ++ record.step.calls.filter (·.isModel) := by
  simp [modelCalls]

/-- A step of a run leaves its mode alone. -/
theorem effectiveMode_moves {config a s received runtime node s' runtime' next}
    (h : Moves E config a s received runtime node s' runtime' next) : s'.binding.effectiveMode = s.binding.effectiveMode := by
  cases h <;> rfl

/-- A mode that lets a model be called behind an execution only. -/
def Governed (E : Engine D) (mode : Option ProductMode) : Prop :=
  mode = some .query ∨ mode = some .analyze ∧ E.typedPipelineEnabled

/-- The edge out of the route node leads to the model in neither of the two modes. -/
theorem eq_of_afterRoute {s : V2EngineState D.toCalculationDigests} {next : Node} (h : E.afterRoute s = .ok (some next))
    (hmode : Governed E s.binding.effectiveMode) :
    next = .compile ∨ next = .modeCapability := by
  unfold afterRoute at h
  split at h
  · cases h
  rcases hmode with hmode | ⟨hmode, htyped⟩
  · simp only [hmode] at h
    split at h <;> cases h <;> simp
  · simp only [hmode, htyped] at h
    cases h
    exact .inl rfl

/-- Where a governed run goes on to: never to the model node, and to the analysis in ANALYZE behind an execution that succeeded. -/
theorem governed_moves {config a s received runtime node s' runtime' next} (hmode : Governed E s.binding.effectiveMode) (hnode : node ≠ .model)
    (h : Moves E config a s received runtime node s' runtime' (some next)) :
    next ≠ .model ∧ next ≠ .hitl ∧ (next = .analysis → s'.binding.effectiveMode = some .analyze ∧
      ∃ record, s'.work.executionRecord = some record ∧ record.status = .succeeded) := by
  have hmem := next_mem_successors h
  cases h with
  | route hw hnext => rcases eq_of_afterRoute hnext hmode with rfl | rfl <;> simp
  | execute hw hnext =>
    have hnext' : next = .analysis := by simpa [successors] using hmem
    subst hnext'
    unfold afterExecute at hnext
    split at hnext
    · cases hnext
    rename_i hgo
    split at hnext
    · rename_i hanalyze
      exact ⟨(by rintro ⟨⟩), (by rintro ⟨⟩), fun _ => ⟨hanalyze, execute_succeeded hw (Bool.not_eq_true _ ▸ hgo)⟩⟩
    · cases hnext
  | model => exact absurd rfl hnode
  | _ =>
    simp only [successors, List.mem_cons, List.not_mem_nil, or_false] at hmem
    rcases hmem with rfl | rfl <;> simp

/-- Where a governed run stands, with the steps it has taken: it has called no model yet. -/
structure Stands (E : Engine D) (mode : Option ProductMode) (past : List (Record D)) (node : Node)
    (s : V2EngineState D.toCalculationDigests) : Prop where
  governed : Governed E mode
  mode_eq : s.binding.effectiveMode = mode
  not_model : node ≠ .model ∧ node ≠ .hitl
  behind : node = .analysis → mode = some .analyze ∧ ∃ record, s.work.executionRecord = some record ∧ record.status = .succeeded
  no_call : modelCalls past = []

/-- What a governed run did: one call of a model at most, of an ANALYZE run and behind an execution that succeeded. -/
structure Called (mode : Option ProductMode) (past : List (Record D)) : Prop where
  once : (modelCalls past).length ≤ 1
  behind : ∀ record ∈ past, ∀ call ∈ record.step.calls, call.isModel = true → mode = some .analyze ∧
    ∃ execution, record.cursor.values.work.executionRecord = some execution ∧ execution.status = .succeeded

/-- No step of the past called a model. -/
theorem not_isModel {past : List (Record D)} (h : modelCalls past = []) :
    ∀ record ∈ past, ∀ call ∈ record.step.calls, call.isModel = false := by
  intro record hrecord call hcall
  have hmem := List.filter_eq_nil_iff.mp h call (List.mem_flatMap.mpr ⟨record, hrecord, hcall⟩)
  exact Bool.not_eq_true _ ▸ hmem

/-- A step calls a model at the analysis node, where the run stands behind an execution. -/
theorem Stands.calls {mode past config a} {c : Cursor D} (h : Stands E mode past c.node c.values)
    (hcall : (E.step config a c).calls.filter (·.isModel) ≠ []) : c.node = .analysis := by
  rcases (model_calls_of_step c).2 hcall with hnode | hnode
  · exact hnode
  · exact absurd hnode h.not_model.1

theorem rule (E : Engine D) (mode : Option ProductMode) : RunRule E (Stands E mode) (Called mode) where
  holds past node s h :=
    { once := by simp [h.no_call]
      behind := fun record hrecord call hcall hmodel => by simp [not_isModel h.no_call record hrecord call hcall] at hmodel }
  moves config a past c s runtime node h ho := by
    have hmoves := moves_of_step ho
    have hmode : Governed E c.values.binding.effectiveMode := h.mode_eq ▸ h.governed
    obtain ⟨hmodel, hhitl, hbehind⟩ := governed_moves hmode h.not_model.1 hmoves
    refine ⟨h.governed, (effectiveMode_moves hmoves).trans h.mode_eq, ⟨hmodel, hhitl⟩, fun hn => ?_, ?_⟩
    · obtain ⟨hanalyze, hrecord⟩ := hbehind hn
      exact ⟨((effectiveMode_moves hmoves).trans h.mode_eq).symm.trans hanalyze, hrecord⟩
    · rw [modelCalls_append_singleton, h.no_call, List.nil_append]
      by_contra hcall
      have hnode := h.calls hcall
      -- the analysis ends the run, so a step that goes on is not one of it
      rw [hnode] at hmoves
      cases hmoves
  suspends config a past c prompt h ho := by
    refine ⟨h.governed, h.mode_eq, h.not_model, h.behind, ?_⟩
    rw [modelCalls_append_singleton, h.no_call, List.nil_append]
    by_contra hcall
    rcases suspends_of_step ho with ⟨hnode, -⟩ | ⟨hnode, -⟩
    · exact h.not_model.2 hnode
    · rw [h.calls hcall] at hnode
      cases hnode
  steps config a past c h := by
    refine ⟨?_, ?_⟩
    · rw [modelCalls_append_singleton, h.no_call, List.nil_append]
      exact (model_calls_of_step c).1
    · intro record hrecord call hcall hmodel
      rcases List.mem_append.mp hrecord with hpast | hlast
      · simp [not_isModel h.no_call record hpast call hcall] at hmodel
      · cases List.mem_singleton.mp hlast
        exact h.behind (h.calls (List.ne_nil_of_mem (List.mem_filter.mpr ⟨hcall, hmodel⟩)))

end ZeroModelAux

open ZeroModelAux

/-- Over every run on every thread, with any answers of the injected code and any resumes: a run whose effective mode is QUERY never
calls the model gateway, and a run whose effective mode is ANALYZE on an engine with the typed pipeline calls it once at most, and only
where the run holds the record of an execution that succeeded. -/
theorem zero_model_query {D : EngineDigests} (E : Engine D) (thread : Thread D) (run : Run D) :
    ((withInput thread.values run.input).binding.effectiveMode = some .query →
      ∀ record ∈ (E.runOn thread run).1, ∀ call ∈ record.step.calls, call.isModel = false) ∧
    ((withInput thread.values run.input).binding.effectiveMode = some .analyze → E.typedPipelineEnabled →
      (modelCalls (E.runOn thread run).1).length ≤ 1 ∧
      ∀ record ∈ (E.runOn thread run).1, ∀ call ∈ record.step.calls, call.isModel = true →
        ∃ execution, record.cursor.values.work.executionRecord = some execution ∧ execution.status = .succeeded) := by
  have called (hgoverned : Governed E (withInput thread.values run.input).binding.effectiveMode) :
      Called (withInput thread.values run.input).binding.effectiveMode (E.runOn thread run).1 :=
    ((rule E _).runOn thread run ⟨hgoverned, rfl, ⟨nofun, nofun⟩, nofun, rfl⟩).1
  refine ⟨fun hquery => ?_, fun hanalyze htyped => ?_⟩
  · intro record hrecord call hcall
    by_contra hmodel
    obtain ⟨hanalyze, -⟩ := (called (.inl hquery)).behind record hrecord call hcall (Bool.not_eq_false _ ▸ hmodel)
    rw [hquery] at hanalyze
    cases hanalyze
  · have h := called (.inr ⟨hanalyze, htyped⟩)
    exact ⟨h.once, fun record hrecord call hcall hmodel => (h.behind record hrecord call hcall hmodel).2⟩

end Nl2Sql
