import Nl2Sql.Calculation.CustomExecution
import Nl2Sql.Lib.Lists
import Nl2Sql.Theorems.Binding

/-!
# What an execution of a custom calculation gives

An execution that does not escape either refuses or gives a result that says what it was computed from, the same for every order of the
inputs. It escapes where an integer has no text, where a result would be of no input, where an instant is out of the calendar and where the
name of the unit is too long; each of these matters only when the execution comes to it.
-/

namespace Nl2Sql.Custom

open Py

/-! ## What is asked of an execution -/

/-- The input given for a declared role. -/
def inputFor (inputs : List ResolvedCalculationInput) (requirement : CalculationInputSpec) : Option ResolvedCalculationInput :=
  inputs.find? fun resolved => resolved.role = requirement.role

/-- The inputs given and resolved for declared roles, in the order of their declaration. -/
def suppliedInputs (requirements : List CalculationInputSpec) (inputs : List ResolvedCalculationInput) : List ResolvedCalculationInput :=
  requirements.filterMap fun requirement => (inputFor inputs requirement).filter (·.status = .resolved)

/-- The values of inputs, by their roles. -/
def runtimeValues (supplied : List ResolvedCalculationInput) : Dict String PyValue :=
  Dict.ofList (supplied.map fun resolved => (resolved.role.val, resolved.value.toPy))

/-- Everything but the value of an input, and the digest of the whole. -/
def provenanceOf (D : ExecutionDigests) (resolved : ResolvedCalculationInput) : CalculationInputProvenance where
  role := resolved.role
  metricKey := resolved.metricKey
  status := resolved.status
  unit := resolved.unit
  dataAsOf := resolved.dataAsOf
  timeRange := resolved.timeRange
  provenance := resolved.provenance
  sourceId := resolved.sourceId
  receiptStepId := resolved.receiptStepId
  factId := resolved.factId
  inputChecksum := D.input resolved

/-- The datetime of an input that names an instant. -/
def ResolvedCalculationInput.asOf? (resolved : ResolvedCalculationInput) : Option AwareDatetime := resolved.dataAsOf.bind Datetime.aware?

/-- The earliest instant of some inputs, as a datetime in UTC: none where one of them has none. -/
def EarliestOf (supplied : List ResolvedCalculationInput) (dataAsOf : Option Datetime) : Prop :=
  ((∃ resolved ∈ supplied, resolved.asOf? = none) → dataAsOf = none) ∧
    ((∀ resolved ∈ supplied, resolved.asOf? ≠ none) → ∃ utc : AwareDatetime, dataAsOf = some (.aware utc) ∧ utc.offset = 0 ∧
      (∃ resolved ∈ supplied, ∃ t ∈ resolved.asOf?, t.instant = utc.instant) ∧
      ∀ resolved ∈ supplied, ∀ t ∈ resolved.asOf?, utc.instant ≤ t.instant)

/-- The time range that all of some inputs have: none where they differ or one has none. -/
def CommonRange (supplied : List ResolvedCalculationInput) (timeRange : Option TimeRange) : Prop :=
  ∀ range, timeRange = some range ↔ supplied ≠ [] ∧ ∀ resolved ∈ supplied, resolved.timeRange = some range

section Law

variable (D : ExecutionDigests) (spec : CalculationSpec) (binding : CalculationExecutionBinding) (inputs : List ResolvedCalculationInput)

/-- A result is of the inputs supplied: its value is what the runtime gives on them, and its provenance lists them in declared order. -/
structure Faithful (result : CustomCalculationExecutionResult) : Prop where
  value : ∃ evaluated, evaluateCalculation spec (runtimeValues (suppliedInputs spec.inputs inputs)) (some binding) = .ok evaluated ∧
    result.value = evaluated.value
  provenance : result.inputProvenance = (suppliedInputs spec.inputs inputs).map (provenanceOf D)
  dataAsOf : EarliestOf (suppliedInputs spec.inputs inputs) result.dataAsOf
  timeRange : CommonRange (suppliedInputs spec.inputs inputs) result.timeRange

/-- What is asked of an execution: it refuses or gives a faithful result, and the order of its inputs does not matter. -/
structure ExecutionLaw : Prop where
  refuses : ∀ error, executeCustomCalculation D spec binding inputs = .error error → ∃ refusal, error = .refused refusal
  faithful : ∀ result, executeCustomCalculation D spec binding inputs = .ok result → Faithful D spec binding inputs result
  ordered : ∀ other, other.Perm inputs →
    executeCustomCalculation D spec binding other = executeCustomCalculation D spec binding inputs

/-! ## Where it is met -/

/-- A value of a parameter that has a text. -/
def WritableValue (value : ParameterValue) : Prop := ∀ n, value = .int n → WritableInt n

/-- The value of an input has a text. -/
def ResolvedCalculationInput.Writable (resolved : ResolvedCalculationInput) : Prop := ∀ n, resolved.value = .int n → WritableInt n

/-- The bound values that are looked up among allowed texts have one. -/
def LookupsWritten : Prop :=
  ∀ parameter ∈ spec.parameters, parameter.allowedValues ≠ [] →
    ∀ value ∈ binding.bound? parameter.name, valueMatchesType value parameter.valueType = true → WritableValue value

/-- A declared role is refused: it is required and has no resolved input, or its input is of another metric or provenance. -/
def Refused (requirement : CalculationInputSpec) : Prop :=
  match inputFor inputs requirement with
  | none => requirement.required = true
  | some resolved => requirement.metricKey ≠ some resolved.metricKey ∨ resolved.provenance ≠ requirement.provenance ∨
      resolved.status = .unavailable ∧ requirement.required = true

/-- The binding or the roles of the inputs are refused before any input is read. -/
def RefusedAtOnce : Prop :=
  binding.bindingFailures D.toCalculationDigests spec ≠ [] ∨ ¬(inputs.map (·.role)).Nodup ∨
    ∃ resolved ∈ inputs, resolved.role ∉ spec.inputs.map (·.role)

/-- The inputs of declared roles that are read, up to the first role refused, have a text. -/
def InputsWritten (requirements : List CalculationInputSpec) : Prop :=
  EachAfter (fun before requirement => (∃ refused ∈ before ++ [requirement], Refused inputs refused) ∨
    ∀ resolved ∈ suppliedInputs [requirement] inputs, resolved.Writable) requirements

/-- A result can be made: the bound values have texts, the unit is not too long, there is an input, and where every input names an instant
all of them are in the calendar. -/
structure Renderable : Prop where
  written : ∀ p ∈ binding.parameters, WritableValue p.value
  unit : ∀ custom ∈ spec.customUnitId, custom.val.length ≤ 64
  supplied : suppliedInputs spec.inputs inputs ≠ []
  instants : (∀ resolved ∈ suppliedInputs spec.inputs inputs, resolved.asOf? ≠ none) →
    ∀ resolved ∈ suppliedInputs spec.inputs inputs, ∀ t ∈ resolved.asOf?, t.InCalendar

/-- Nothing that an execution comes to escapes. -/
def Contained : Prop :=
  LookupsWritten spec binding ∧ (RefusedAtOnce D spec binding inputs ∨ InputsWritten inputs spec.inputs ∧
    ((∃ requirement ∈ spec.inputs, Refused inputs requirement) ∨
      (∃ code, evaluateCalculation spec (runtimeValues (suppliedInputs spec.inputs inputs)) (some binding) = .error code) ∨
      Renderable spec binding inputs))

end Law

/-! ## Escapes -/

section Escapes

variable {α β : Type} {m : Except ExecutionError α}

/-- An error that is no refusal. -/
def Escapes (m : Except ExecutionError α) : Prop := ∃ error, m = .error error ∧ ∀ refusal, error ≠ .refused refusal

theorem not_escapes_ok (a : α) : ¬Escapes (.ok a : Except ExecutionError α) := fun ⟨_, h, _⟩ => nomatch h

theorem not_escapes_refused (refusal : ExecutionRefusal) : ¬Escapes (.error (.refused refusal) : Except ExecutionError α) :=
  fun ⟨_, h, hne⟩ => hne refusal (Except.error.inj h).symm

theorem not_escapes_iff : ¬Escapes m ↔ ∀ error, m = .error error → ∃ refusal, error = .refused refusal := by
  constructor
  · intro h error herror
    by_contra hno
    exact h ⟨error, herror, fun refusal heq => hno ⟨refusal, heq⟩⟩
  · rintro h ⟨error, herror, hne⟩
    obtain ⟨refusal, heq⟩ := h error herror
    exact hne refusal heq

/-- A sequence escapes where its first part does, or the rest does on what it returned. -/
theorem escapes_bind {f : α → Except ExecutionError β} : Escapes (m >>= f) ↔ Escapes m ∨ ∃ a, m = .ok a ∧ Escapes (f a) := by
  constructor
  · rintro ⟨error, h, hne⟩
    rcases bind_eq_error.mp h with h | ⟨a, ha, h⟩
    · exact .inl ⟨error, h, hne⟩
    · exact .inr ⟨a, ha, error, h, hne⟩
  · rintro (⟨error, h, hne⟩ | ⟨a, ha, error, h, hne⟩)
    · exact ⟨error, bind_eq_error.mpr (.inl h), hne⟩
    · exact ⟨error, bind_eq_error.mpr (.inr ⟨a, ha, h⟩), hne⟩

/-- A computation gives a value under a condition, and escapes without it. -/
def Yields (m : Except ExecutionError α) (P : Prop) (a : α) : Prop := (P → m = .ok a) ∧ (¬P → Escapes m)

namespace Yields

variable {P : Prop} {a : α}

theorem eq_ok (h : Yields m P a) {b : α} : m = .ok b ↔ P ∧ a = b := by
  constructor
  · intro hm
    by_cases hP : P
    · exact ⟨hP, Except.ok.inj ((h.1 hP).symm.trans hm)⟩
    · exact absurd (hm ▸ h.2 hP) (not_escapes_ok b)
  · rintro ⟨hP, rfl⟩
    exact h.1 hP

theorem escapes (h : Yields m P a) : Escapes m ↔ ¬P := by
  refine ⟨fun hescapes hP => ?_, h.2⟩
  rw [h.1 hP] at hescapes
  exact not_escapes_ok a hescapes

theorem ne_refused (h : Yields m P a) (refusal : ExecutionRefusal) : m ≠ .error (.refused refusal) := by
  intro hm
  by_cases hP : P
  · exact absurd ((h.1 hP).symm.trans hm) fun heq => nomatch heq
  · exact not_escapes_refused refusal (hm ▸ h.2 hP)

theorem map (h : Yields m P a) (g : α → β) : Yields (m >>= fun a => .ok (g a)) P (g a) :=
  ⟨fun hP => bind_eq_ok.mpr ⟨a, h.1 hP, rfl⟩, fun hP => escapes_bind.mpr (.inl (h.2 hP))⟩

/-- A loop gives what its elements give, where all do. -/
theorem mapM {f : α → Except ExecutionError β} {P : α → Prop} {g : α → β} {values : List α} (h : ∀ a ∈ values, Yields (f a) (P a) (g a)) :
    Yields (values.mapM f) (∀ a ∈ values, P a) (values.map g) := by
  refine ⟨fun hP => mapM_ok fun a ha => (h a ha).1 (hP a ha), ?_⟩
  induction values with
  | nil => exact fun hP => absurd (fun _ h => nomatch h) hP
  | cons a rest ih =>
    intro hP
    rw [List.mapM_cons]
    by_cases ha : P a
    · have hrest : Escapes (rest.mapM f) := by
        refine ih (fun a ha => h a (List.mem_cons_of_mem _ ha)) fun hall => hP fun b hb => ?_
        rcases List.mem_cons.mp hb with rfl | hb
        · exact ha
        · exact hall b hb
      exact escapes_bind.mpr (.inr ⟨g a, (h a List.mem_cons_self).1 ha, escapes_bind.mpr (.inl hrest)⟩)
    · exact escapes_bind.mpr (.inl ((h a List.mem_cons_self).2 ha))

end Yields

end Escapes

/-! ## The binding -/

theorem yields_writtenValue (value : ParameterValue) : Yields (writtenValue value) (WritableValue value) value.text := by
  cases value with
  | int n =>
    have hwritable : WritableValue (.int n) ↔ WritableInt n := by
      refine ⟨fun h => h n rfl, fun h k hk => ?_⟩
      rwa [← ParameterValue.int.inj hk]
    rw [Yields, hwritable, writtenValue]
    refine ⟨fun h => if_pos h, fun h => ⟨_, if_neg h, fun refusal hrefusal => nomatch hrefusal⟩⟩
  | str s => exact ⟨fun _ => rfl, fun h => (h fun n hn => nomatch hn).elim⟩
  | bool b => exact ⟨fun _ => rfl, fun h => (h fun n hn => nomatch hn).elim⟩
  | float text => exact ⟨fun _ => rfl, fun h => (h fun n hn => nomatch hn).elim⟩
  | decimal d => exact ⟨fun _ => rfl, fun h => (h fun n hn => nomatch hn).elim⟩

section Binding

variable {D : ExecutionDigests} {spec : CalculationSpec} {binding : CalculationExecutionBinding}

/-- The failures of a parameter are those of the contract, where a value that is looked up has a text. -/
theorem yields_checkParameter (binding : CalculationExecutionBinding) (parameter : ParameterSpec) : Yields (checkParameter binding parameter)
    (parameter.allowedValues ≠ [] → ∀ value ∈ binding.bound? parameter.name, valueMatchesType value parameter.valueType = true → WritableValue value)
    (binding.parameterFailures parameter) := by
  unfold checkParameter CalculationExecutionBinding.parameterFailures
  cases binding.bound? parameter.name with
  | none => exact ⟨fun _ => rfl, fun h => absurd (fun _ _ hvalue => by cases hvalue) h⟩
  | some value =>
    by_cases hmatches : valueMatchesType value parameter.valueType = true
    · simp only [hmatches, Bool.not_true, Bool.false_eq_true, if_false]
      by_cases hallowed : parameter.allowedValues = []
      · rw [if_pos hallowed, if_neg fun h => h.1 hallowed]
        exact ⟨fun _ => rfl, fun h => absurd (fun hne => absurd hallowed hne) h⟩
      · rw [if_neg hallowed]
        have hyields := (yields_writtenValue value).map fun text => if text ∉ parameter.allowedValues then [BindingFailure.valueNotAllowed] else []
        have hcond : (parameter.allowedValues ≠ [] → ∀ v ∈ some value, valueMatchesType v parameter.valueType = true → WritableValue v) ↔
            WritableValue value := by
          refine ⟨fun h => h hallowed value rfl hmatches, fun h _ v hv _ => ?_⟩
          obtain rfl := Option.some.inj hv
          exact h
        rw [Yields, hcond]
        simp only [ne_eq, hallowed, not_false_eq_true, true_and]
        exact hyields
    · simp only [Bool.not_eq_true] at hmatches
      simp only [hmatches, Bool.not_false, if_true]
      refine ⟨fun _ => rfl, fun h => absurd (fun _ v hv htrue => ?_) h⟩
      obtain rfl := Option.some.inj hv
      rw [hmatches] at htrue
      cases htrue

/-- The failures of a binding are those of the contract, where the values that are looked up have texts. -/
theorem yields_checkFailures (D : ExecutionDigests) (spec : CalculationSpec) (binding : CalculationExecutionBinding) : Yields (checkFailures D binding spec) (LookupsWritten spec binding)
    (binding.bindingFailures D.toCalculationDigests spec) := by
  have hparameters := Yields.mapM fun parameter (_ : parameter ∈ spec.parameters) => yields_checkParameter binding parameter
  have hmap := hparameters.map fun checked => fromKeys
    ((if spec.calculationId ≠ binding.calculationId ∨ spec.checksum D.toCalculationDigests ≠ binding.specChecksum then [.specMismatch] else []) ++
      (binding.parameters.filter fun p => p.name ∉ spec.parameters.map (·.name)).map (fun _ => .unknownParameter) ++ checked.flatten)
  rw [← List.flatMap_def] at hmap
  exact hmap

theorem yields_bindingChecksum (D : ExecutionDigests) (binding : CalculationExecutionBinding) : Yields (bindingChecksum D binding) (∀ p ∈ binding.parameters, WritableValue p.value)
    (binding.checksum D.toCalculationDigests) := by
  have hparameters := Yields.mapM fun p (_ : p ∈ binding.parameters) => yields_writtenValue p.value
  exact hparameters.map fun _ => binding.checksum D.toCalculationDigests

end Binding

/-! ## The inputs -/

section Inputs

variable {D : ExecutionDigests} {inputs : List ResolvedCalculationInput}

theorem yields_projectProvenance (resolved : ResolvedCalculationInput) :
    Yields (projectProvenance D resolved) resolved.Writable (provenanceOf D resolved) := by
  have hchecksum : Yields (resolved.checksum D) resolved.Writable (D.input resolved) := by
    unfold ResolvedCalculationInput.checksum ResolvedCalculationInput.Writable
    cases resolved.value with
    | int n =>
      have hwritable : (∀ k, ResolvedScalar.int n = .int k → WritableInt k) ↔ WritableInt n := by
        refine ⟨fun h => h n rfl, fun h k hk => ?_⟩
        rwa [← ResolvedScalar.int.inj hk]
      rw [Yields, hwritable]
      exact ⟨fun h => if_pos h, fun h => ⟨_, if_neg h, fun refusal hrefusal => nomatch hrefusal⟩⟩
    | decimal d => exact ⟨fun _ => rfl, fun h => (h fun n hn => nomatch hn).elim⟩
    | str text => exact ⟨fun _ => rfl, fun h => (h fun n hn => nomatch hn).elim⟩
    | none => exact ⟨fun _ => rfl, fun h => (h fun n hn => nomatch hn).elim⟩
  exact hchecksum.map fun inputChecksum => { provenanceOf D resolved with inputChecksum }

/-- A role is read: refused, or the input of it taken where it is resolved. -/
theorem resolveRole_cases {supplied : Dict RoleName ResolvedCalculationInput} {requirement : CalculationInputSpec}
    (hget : supplied.get? requirement.role = inputFor inputs requirement) :
    (Refused inputs requirement ∧ ∃ refusal, resolveRole supplied requirement.role requirement = .error refusal) ∨
      (¬Refused inputs requirement ∧
        resolveRole supplied requirement.role requirement = .ok ((inputFor inputs requirement).filter (·.status = .resolved))) := by
  unfold resolveRole Refused
  rw [hget]
  cases inputFor inputs requirement with
  | none =>
    cases hrequired : requirement.required with
    | true => exact .inl ⟨rfl, _, rfl⟩
    | false => exact .inr ⟨Bool.false_ne_true, rfl⟩
  | some resolved =>
    by_cases hkey : requirement.metricKey = some resolved.metricKey
    · have hpass : ¬(requirement.metricKey = none ∨ some resolved.metricKey ≠ requirement.metricKey) := by
        rw [hkey]
        simp
      simp only [hpass, if_false]
      by_cases hprovenance : resolved.provenance = requirement.provenance
      · simp only [hkey, hprovenance, ne_eq, not_true_eq_false, if_false, false_or]
        cases hstatus : resolved.status with
        | unavailable =>
          cases hrequired : requirement.required with
          | true => exact .inl ⟨⟨rfl, rfl⟩, _, rfl⟩
          | false =>
            refine .inr ⟨fun h => Bool.false_ne_true h.2, ?_⟩
            rw [Option.filter_some_neg (by rw [hstatus]; decide)]
            rfl
        | resolved =>
          refine .inr ⟨fun h => absurd h.1 (by decide), ?_⟩
          rw [Option.filter_some_pos (by rw [hstatus]; decide)]
          rfl
      · simp only [hprovenance, ne_eq, not_false_eq_true, if_true]
        exact .inl ⟨.inr (.inl trivial), _, rfl⟩
    · have hfail : requirement.metricKey = none ∨ some resolved.metricKey ≠ requirement.metricKey := .inr fun h => hkey h.symm
      simp only [hfail, if_true]
      exact .inl ⟨.inl hkey, _, rfl⟩

theorem suppliedInputs_cons (requirement : CalculationInputSpec) (requirements : List CalculationInputSpec) :
    suppliedInputs (requirement :: requirements) inputs = suppliedInputs [requirement] inputs ++ suppliedInputs requirements inputs := by
  rw [suppliedInputs, suppliedInputs, suppliedInputs, ← List.filterMap_append, List.singleton_append]

theorem inputsWritten_cons {requirement : CalculationInputSpec} {requirements : List CalculationInputSpec} :
    InputsWritten inputs (requirement :: requirements) ↔ Refused inputs requirement ∨
      (∀ resolved ∈ suppliedInputs [requirement] inputs, resolved.Writable) ∧ InputsWritten inputs requirements := by
  unfold InputsWritten
  rw [eachAfter_cons]
  by_cases hrefused : Refused inputs requirement
  · refine iff_of_true ⟨.inl ⟨_, List.mem_singleton_self _, hrefused⟩, fun before r after _ => .inl ⟨requirement, ?_, hrefused⟩⟩ (.inl hrefused)
    exact List.mem_append_left _ List.mem_cons_self
  · simp only [hrefused, false_or, List.nil_append, List.cons_append, List.mem_cons, exists_eq_or_imp, List.not_mem_nil, false_and,
      exists_false]

/-- Where no role is refused, all the inputs supplied are read. -/
theorem inputsWritten_iff {requirements : List CalculationInputSpec} (h : ∀ requirement ∈ requirements, ¬Refused inputs requirement) :
    InputsWritten inputs requirements ↔ ∀ resolved ∈ suppliedInputs requirements inputs, resolved.Writable := by
  induction requirements with
  | nil => exact iff_of_true (eachAfter_nil _) fun _ hmem => absurd hmem List.not_mem_nil
  | cons requirement requirements ih =>
    rw [inputsWritten_cons, suppliedInputs_cons requirement requirements, List.forall_mem_append, ih fun r hr => h r (List.mem_cons_of_mem _ hr)]
    exact ⟨fun hor => hor.resolve_left (h requirement List.mem_cons_self), .inr⟩

theorem mem_of_inputFor {requirement : CalculationInputSpec} {resolved : ResolvedCalculationInput}
    (h : (inputFor inputs requirement).filter (·.status = .resolved) = some resolved) : resolved ∈ inputs ∧ resolved.role = requirement.role := by
  have hfind := (Option.filter_eq_some_iff.mp h).1
  exact ⟨List.mem_of_find?_eq_some hfind, by simpa using List.find?_some hfind⟩

/-- The dictionary of the inputs finds what the list of them finds. -/
def Finds (inputs : List ResolvedCalculationInput) (supplied : Dict RoleName ResolvedCalculationInput) : Prop :=
  ∀ requirement, supplied.get? requirement.role = inputFor inputs requirement

/-- The loop escapes exactly where a role is read whose input is not written. -/
theorem escapes_collectInputs {supplied : Dict RoleName ResolvedCalculationInput} (hfinds : Finds inputs supplied)
    (requirements : List CalculationInputSpec) (runtime : Dict String PyValue) (made : List CalculationInputProvenance) :
    Escapes (collectInputs D supplied (requirements.map fun item => (item.role, item)) runtime made) ↔ ¬InputsWritten inputs requirements := by
  induction requirements generalizing runtime made with
  | nil => exact iff_of_false (not_escapes_ok _) (not_not.mpr (eachAfter_nil _))
  | cons requirement requirements ih =>
    rw [List.map_cons, collectInputs, inputsWritten_cons]
    rcases resolveRole_cases (hfinds requirement) with ⟨hrefused, refusal, hrole⟩ | ⟨hpasses, hrole⟩
    · rw [hrole]
      exact iff_of_false (not_escapes_refused refusal) (not_not.mpr (.inl hrefused))
    · rw [hrole]
      simp only [hpasses, false_or]
      cases htaken : (inputFor inputs requirement).filter (·.status = .resolved) with
      | none =>
        have hnone : suppliedInputs [requirement] inputs = [] := by rw [suppliedInputs, List.filterMap_cons, htaken]; rfl
        simp only [hnone, List.not_mem_nil, false_implies, implies_true, true_and]
        exact ih runtime made
      | some resolved =>
        have hone : suppliedInputs [requirement] inputs = [resolved] := by rw [suppliedInputs, List.filterMap_cons, htaken]; rfl
        simp only [hone, List.mem_singleton, forall_eq]
        have hproject := yields_projectProvenance (D := D) resolved
        rw [escapes_bind, hproject.escapes, not_and_or]
        simp only [hproject.eq_ok, ih]
        constructor
        · rintro (h | ⟨_, ⟨-, rfl⟩, h⟩)
          · exact .inl h
          · exact .inr h
        · rintro (h | h)
          · exact .inl h
          · by_cases hwritable : resolved.Writable
            · exact .inr ⟨_, ⟨hwritable, rfl⟩, h⟩
            · exact .inl hwritable

/-- The loop returns where no role is refused and the inputs are written; the inputs taken are those supplied. -/
theorem collectInputs_eq_ok {supplied : Dict RoleName ResolvedCalculationInput} (hfinds : Finds inputs supplied)
    {requirements : List CalculationInputSpec} {runtime runtime' : Dict String PyValue} {made made' : List CalculationInputProvenance} :
    collectInputs D supplied (requirements.map fun item => (item.role, item)) runtime made = .ok (runtime', made') ↔
      (∀ requirement ∈ requirements, ¬Refused inputs requirement) ∧ (∀ resolved ∈ suppliedInputs requirements inputs, resolved.Writable) ∧
        runtime' = runtime.update ((suppliedInputs requirements inputs).map fun resolved => (resolved.role.val, resolved.value.toPy)) ∧
        made' = made ++ (suppliedInputs requirements inputs).map (provenanceOf D) := by
  induction requirements generalizing runtime made with
  | nil =>
    rw [List.map_nil, collectInputs, suppliedInputs, List.filterMap_nil, List.map_nil, List.map_nil, List.append_nil, Except.ok.injEq,
      Prod.mk.injEq]
    refine ⟨fun ⟨h, h'⟩ => ⟨List.forall_mem_nil _, List.forall_mem_nil _, h.symm, h'.symm⟩, fun ⟨_, _, h, h'⟩ => ⟨h.symm, h'.symm⟩⟩
  | cons requirement requirements ih =>
    rw [List.map_cons, collectInputs, suppliedInputs_cons, List.forall_mem_cons]
    rcases resolveRole_cases (hfinds requirement) with ⟨hrefused, refusal, hrole⟩ | ⟨hpasses, hrole⟩
    · rw [hrole]
      exact iff_of_false (fun h => nomatch h) fun h => h.1.1 hrefused
    · rw [hrole]
      simp only [hpasses, not_false_eq_true, true_and]
      cases htaken : (inputFor inputs requirement).filter (·.status = .resolved) with
      | none =>
        have hnone : suppliedInputs [requirement] inputs = [] := by rw [suppliedInputs, List.filterMap_cons, htaken]; rfl
        rw [hnone, List.nil_append]
        exact ih
      | some resolved =>
        have hone : suppliedInputs [requirement] inputs = [resolved] := by rw [suppliedInputs, List.filterMap_cons, htaken]; rfl
        have hproject := yields_projectProvenance (D := D) resolved
        rw [hone, List.singleton_append, List.map_cons, List.map_cons, List.forall_mem_cons, bind_eq_ok, ← (mem_of_inputFor htaken).2]
        simp only [hproject.eq_ok, ih, List.append_assoc, List.singleton_append]
        constructor
        · rintro ⟨_, ⟨hwritable, rfl⟩, hpass, hwritten, hruntime, hmade⟩
          exact ⟨hpass, ⟨hwritable, hwritten⟩, hruntime, hmade⟩
        · rintro ⟨hpass, ⟨hwritable, hwritten⟩, hruntime, hmade⟩
          exact ⟨_, ⟨hwritable, rfl⟩, hpass, hwritten, hruntime, hmade⟩

end Inputs

/-! ## The instants and the range -/

section Aggregates

variable {D : ExecutionDigests} {supplied : List ResolvedCalculationInput}

theorem earlier_instant_le (a b : AwareDatetime) : (earlier a b).instant ≤ a.instant ∧ (earlier a b).instant ≤ b.instant := by
  unfold earlier
  split
  · rename_i hlt
    exact ⟨hlt.le, le_rfl⟩
  · rename_i hle
    exact ⟨le_rfl, not_lt.mp hle⟩

/-- The least of some datetimes is one of them, and at no later instant than any. -/
theorem foldl_earlier (rest : List AwareDatetime) (first : AwareDatetime) :
    rest.foldl earlier first ∈ first :: rest ∧ ∀ t ∈ first :: rest, (rest.foldl earlier first).instant ≤ t.instant := by
  induction rest generalizing first with
  | nil => exact ⟨List.mem_singleton_self _, fun t ht => List.mem_singleton.mp ht ▸ le_rfl⟩
  | cons t rest ih =>
    obtain ⟨hmem, hleast⟩ := ih (earlier first t)
    obtain ⟨hfirst, ht⟩ := earlier_instant_le first t
    rw [List.foldl_cons]
    have hbelow := hleast _ List.mem_cons_self
    constructor
    · rcases List.mem_cons.mp hmem with heq | hrest
      · rw [heq, earlier]
        split
        · exact List.mem_cons_of_mem _ List.mem_cons_self
        · exact List.mem_cons_self
      · exact List.mem_cons_of_mem _ (List.mem_cons_of_mem _ hrest)
    · intro u hu
      rcases List.mem_cons.mp hu with rfl | hu
      · exact hbelow.trans hfirst
      · rcases List.mem_cons.mp hu with rfl | hu
        · exact hbelow.trans ht
        · exact hleast u (List.mem_cons_of_mem _ hu)

theorem earliest_eq_ok {values : List AwareDatetime} {utc : AwareDatetime} (h : earliest values = .ok utc) :
    utc ∈ values ∧ ∀ t ∈ values, utc.instant ≤ t.instant := by
  cases values with
  | nil => nomatch h
  | cons first rest =>
    obtain rfl := Except.ok.inj h
    exact foldl_earlier rest first

theorem yields_astimezone (t : AwareDatetime) : Yields (astimezone t) t.InCalendar (t.toUtc.getD t) := by
  have hsome := AwareDatetime.toUtc_isSome_iff (t := t)
  unfold astimezone
  cases hutc : t.toUtc with
  | none =>
    rw [hutc] at hsome
    exact ⟨fun h => absurd (hsome.mpr h) Bool.false_ne_true, fun _ => ⟨_, rfl, fun refusal hrefusal => nomatch hrefusal⟩⟩
  | some utc =>
    rw [hutc] at hsome
    exact ⟨fun _ => rfl, fun h => absurd (hsome.mp rfl) h⟩

/-- Where an input names no instant there is no earliest, else it is that of the converted datetimes. -/
theorem conservativeDataAsOf_eq : conservativeDataAsOf (supplied.map (provenanceOf D)) =
    if ∃ resolved ∈ supplied, resolved.asOf? = none then .ok none
    else (supplied.filterMap (·.asOf?)).mapM astimezone >>= fun converted => earliest converted >>= fun utc => .ok (some (.aware utc)) := by
  have hvalues : (supplied.map (provenanceOf D)).map (fun item => item.dataAsOf.bind Datetime.aware?) = supplied.map (·.asOf?) := by
    rw [List.map_map]
    rfl
  have hmem : none ∈ supplied.map (·.asOf?) ↔ ∃ resolved ∈ supplied, resolved.asOf? = none := List.mem_map
  unfold conservativeDataAsOf
  simp only [hvalues, hmem, List.filterMap_map, Function.id_comp]
  rfl

theorem mem_filterMap_asOf {t : AwareDatetime} : t ∈ supplied.filterMap (·.asOf?) ↔ ∃ resolved ∈ supplied, resolved.asOf? = some t :=
  List.mem_filterMap

/-- The earliest datetime escapes where there is none to compare, or an instant is out of the calendar. -/
theorem escapes_conservativeDataAsOf : Escapes (conservativeDataAsOf (supplied.map (provenanceOf D))) ↔
    (∀ resolved ∈ supplied, resolved.asOf? ≠ none) ∧
      (supplied = [] ∨ ¬∀ resolved ∈ supplied, ∀ t ∈ resolved.asOf?, t.InCalendar) := by
  rw [conservativeDataAsOf_eq]
  by_cases hnone : ∃ resolved ∈ supplied, resolved.asOf? = none
  · rw [if_pos hnone]
    obtain ⟨resolved, hmem, hresolved⟩ := hnone
    exact iff_of_false (not_escapes_ok _) fun h => h.1 resolved hmem hresolved
  · have hall : ∀ resolved ∈ supplied, resolved.asOf? ≠ none := fun resolved hmem h => hnone ⟨resolved, hmem, h⟩
    have hconvert := Yields.mapM fun t (_ : t ∈ supplied.filterMap (·.asOf?)) => yields_astimezone t
    have hcalendar : (∀ t ∈ supplied.filterMap (·.asOf?), t.InCalendar) ↔ ∀ resolved ∈ supplied, ∀ t ∈ resolved.asOf?, t.InCalendar := by
      refine ⟨fun h resolved hmem t ht => h t (mem_filterMap_asOf.mpr ⟨resolved, hmem, ht⟩), fun h t ht => ?_⟩
      obtain ⟨resolved, hmem, ht⟩ := mem_filterMap_asOf.mp ht
      exact h resolved hmem t ht
    have hempty : supplied.filterMap (·.asOf?) = [] ↔ supplied = [] := by
      rw [List.filterMap_eq_nil_iff]
      refine ⟨fun h => ?_, fun h resolved hmem => absurd (h ▸ hmem) List.not_mem_nil⟩
      exact List.eq_nil_iff_forall_not_mem.mpr fun resolved hmem => hall resolved hmem (h resolved hmem)
    rw [if_neg hnone, escapes_bind, hconvert.escapes, hcalendar]
    simp only [hconvert.eq_ok, hcalendar]
    constructor
    · rintro (h | ⟨_, ⟨-, rfl⟩, h⟩)
      · exact ⟨hall, .inr h⟩
      · refine ⟨hall, .inl (hempty.mp ?_)⟩
        cases hinstants : supplied.filterMap (·.asOf?) with
        | nil => rfl
        | cons first rest =>
          rw [hinstants] at h
          exact absurd h (not_escapes_ok _)
    · rintro ⟨-, hnil | h⟩
      · by_cases hin : ∀ resolved ∈ supplied, ∀ t ∈ resolved.asOf?, t.InCalendar
        · refine .inr ⟨_, ⟨hin, rfl⟩, ?_⟩
          rw [hempty.mpr hnil]
          exact ⟨_, rfl, fun refusal hrefusal => nomatch hrefusal⟩
        · exact .inl hin
      · exact .inl h

theorem conservativeDataAsOf_ne_refused (refusal : ExecutionRefusal) :
    conservativeDataAsOf (supplied.map (provenanceOf D)) ≠ .error (.refused refusal) := by
  intro h
  rw [conservativeDataAsOf_eq] at h
  split at h
  · nomatch h
  · have hconvert := Yields.mapM fun t (_ : t ∈ supplied.filterMap (·.asOf?)) => yields_astimezone t
    rcases bind_eq_error.mp h with h | ⟨converted, -, h⟩
    · exact hconvert.ne_refused refusal h
    · rcases bind_eq_error.mp h with h | ⟨utc, -, h⟩
      · cases converted with
        | nil => nomatch h
        | cons first rest => nomatch h
      · nomatch h

theorem earliestOf_of_ok {dataAsOf : Option Datetime} (h : conservativeDataAsOf (supplied.map (provenanceOf D)) = .ok dataAsOf) :
    EarliestOf supplied dataAsOf := by
  rw [conservativeDataAsOf_eq] at h
  by_cases hnone : ∃ resolved ∈ supplied, resolved.asOf? = none
  · rw [if_pos hnone] at h
    obtain ⟨resolved, hmem, hresolved⟩ := hnone
    exact ⟨fun _ => (Except.ok.inj h).symm, fun hall => absurd hresolved (hall resolved hmem)⟩
  · refine ⟨fun h => absurd h hnone, fun _ => ?_⟩
    rw [if_neg hnone] at h
    obtain ⟨converted, hconverted, h⟩ := bind_eq_ok.mp h
    obtain ⟨utc, hutc, h⟩ := bind_eq_ok.mp h
    have hconvert : ∀ t ∈ supplied.filterMap (·.asOf?), Yields (astimezone t) t.InCalendar (t.toUtc.getD t) := fun t _ => yields_astimezone t
    obtain ⟨hin, rfl⟩ := (Yields.mapM hconvert).eq_ok.mp hconverted
    have hsame : ∀ t ∈ supplied.filterMap (·.asOf?), (t.toUtc.getD t).offset = 0 ∧ (t.toUtc.getD t).instant = t.instant := by
      intro t ht
      obtain ⟨u, hu, hoffset, hinstant⟩ := AwareDatetime.toUtc_of_inCalendar (hin t ht)
      rw [hu, Option.getD_some]
      exact ⟨hoffset, hinstant⟩
    obtain ⟨hmem, hleast⟩ := earliest_eq_ok hutc
    obtain ⟨t, ht, rfl⟩ := List.mem_map.mp hmem
    obtain ⟨resolved, hresolved, hasOf⟩ := mem_filterMap_asOf.mp ht
    refine ⟨_, (Except.ok.inj h).symm, (hsame t ht).1, ⟨resolved, hresolved, t, hasOf, (hsame t ht).2.symm⟩, fun other hother u hu => ?_⟩
    have humem := mem_filterMap_asOf.mpr ⟨other, hother, hu⟩
    rw [← (hsame u humem).2]
    exact hleast _ (List.mem_map_of_mem humem)

theorem commonRange_commonTimeRange : CommonRange supplied (commonTimeRange (supplied.map (provenanceOf D))) := by
  have hranges : (supplied.map (provenanceOf D)).map (·.timeRange) = supplied.map (·.timeRange) := by rw [List.map_map]; rfl
  intro range
  rw [commonTimeRange, hranges]
  cases supplied with
  | nil => exact iff_of_false (fun h => nomatch h) fun h => h.1 rfl
  | cons resolved rest =>
    rw [List.map_cons, List.forall_mem_cons]
    cases hfirst : resolved.timeRange with
    | none => exact iff_of_false (fun h => nomatch h) fun h => nomatch h.2.1
    | some first =>
      have hall : (rest.map (·.timeRange)).all (fun range => decide (range = some first)) = true ↔
          ∀ other ∈ rest, other.timeRange = some first := by simp
      simp only [ne_eq, reduceCtorEq, not_false_eq_true, true_and, Option.some.injEq]
      split
      · rename_i hsame
        rw [Option.some.injEq]
        exact ⟨fun h => ⟨h, h ▸ hall.mp hsame⟩, fun h => h.1⟩
      · rename_i hdiffer
        refine iff_of_false (fun h => nomatch h) ?_
        rintro ⟨rfl, hrest⟩
        exact hdiffer (hall.mpr hrest)

end Aggregates

/-! ## The execution -/

section Execution

variable {D : ExecutionDigests} {spec : CalculationSpec} {binding : CalculationExecutionBinding} {inputs : List ResolvedCalculationInput}

theorem suppliedInputs_length_le (requirements : List CalculationInputSpec) (inputs : List ResolvedCalculationInput) : (suppliedInputs requirements inputs).length ≤ requirements.length :=
  List.length_filterMap_le _ _

/-- The supplied inputs are of different roles, as the declarations are. -/
theorem suppliedInputs_nodup (spec : CalculationSpec) : ((suppliedInputs spec.inputs inputs).map (·.role)).Nodup := by
  have hsublist : ∀ requirements : List CalculationInputSpec,
      ((suppliedInputs requirements inputs).map (·.role)).Sublist (requirements.map (·.role)) := by
    intro requirements
    induction requirements with
    | nil => exact List.Sublist.slnil
    | cons requirement requirements ih =>
      rw [suppliedInputs, List.filterMap_cons]
      cases htaken : (inputFor inputs requirement).filter (·.status = .resolved) with
      | none => exact ih.cons _
      | some resolved =>
        rw [List.map_cons, List.map_cons, (mem_of_inputFor htaken).2]
        exact ih.cons_cons _
  exact (hsublist spec.inputs).nodup spec.inputs_unique

theorem resultUnit_length (spec : CalculationSpec) : 1 ≤ (resultUnit spec).length ∧ ((resultUnit spec).length ≤ 64 ↔ ∀ custom ∈ spec.customUnitId, custom.val.length ≤ 64) := by
  unfold resultUnit
  cases spec.customUnitId with
  | none =>
    refine ⟨?_, iff_of_true ?_ fun _ h => nomatch h⟩
    · cases spec.unit <;> decide
    · cases spec.unit <;> decide
  | some custom =>
    refine ⟨?_, ⟨fun h other hother => Option.some.inj hother ▸ h, fun h => h custom rfl⟩⟩
    have hpattern := custom.property
    rw [isCustomUnitId, Bool.and_eq_true] at hpattern
    rw [← String.length_toList]
    cases hchars : custom.val.toList with
    | nil =>
      rw [hchars] at hpattern
      exact absurd hpattern.1 (by decide)
    | cons c cs => exact Nat.le_add_left 1 _

/-- A result is built where the unit is not too long and there is an input. -/
theorem escapes_buildResult {digest : Sha256} {value : Decimal} {dataAsOf : Option Datetime} :
    Escapes (buildResult D spec digest value ((suppliedInputs spec.inputs inputs).map (provenanceOf D)) dataAsOf) ↔
      ¬((∀ custom ∈ spec.customUnitId, custom.val.length ≤ 64) ∧ suppliedInputs spec.inputs inputs ≠ []) := by
  obtain ⟨hlow, hunit⟩ := resultUnit_length spec
  have hroles : ((suppliedInputs spec.inputs inputs).map (provenanceOf D)).map (·.role) = (suppliedInputs spec.inputs inputs).map (·.role) := by
    rw [List.map_map]
    rfl
  have hcount : 1 ≤ (suppliedInputs spec.inputs inputs).length ↔ suppliedInputs spec.inputs inputs ≠ [] := List.length_pos_iff
  have hmost := (suppliedInputs_length_le spec.inputs inputs).trans spec.inputs_length.2
  unfold buildResult
  split
  · rename_i h
    rw [List.length_map, hcount, hunit] at h
    exact iff_of_false (not_escapes_ok _) (not_not.mpr ⟨h.1.2, h.2.1.1⟩)
  · rename_i h
    rw [List.length_map, hcount, hunit, hroles] at h
    refine iff_of_true ⟨_, rfl, fun refusal hrefusal => nomatch hrefusal⟩ fun hok => h ?_
    exact ⟨⟨hlow, hok.1⟩, ⟨hok.2, hmost⟩, suppliedInputs_nodup spec⟩

theorem buildResult_eq_ok {digest : Sha256} {value : Decimal} {provenance : List CalculationInputProvenance} {dataAsOf : Option Datetime}
    {result : CustomCalculationExecutionResult} (h : buildResult D spec digest value provenance dataAsOf = .ok result) :
    result.value = value ∧ result.inputProvenance = provenance ∧ result.dataAsOf = dataAsOf ∧ result.timeRange = commonTimeRange provenance := by
  unfold buildResult at h
  split at h
  · obtain rfl := Except.ok.inj h
    exact ⟨rfl, rfl, rfl, rfl⟩
  · nomatch h

/-- Once the inputs are collected the execution escapes exactly where the evaluation succeeds and no result can be made. -/
theorem escapes_concludeExecution : Escapes (concludeExecution D spec binding (runtimeValues (suppliedInputs spec.inputs inputs))
      ((suppliedInputs spec.inputs inputs).map (provenanceOf D))) ↔
    ¬((∃ code, evaluateCalculation spec (runtimeValues (suppliedInputs spec.inputs inputs)) (some binding) = .error code) ∨
      Renderable spec binding inputs) := by
  unfold concludeExecution
  cases evaluateCalculation spec (runtimeValues (suppliedInputs spec.inputs inputs)) (some binding) with
  | error code => exact iff_of_false (not_escapes_refused _) (not_not.mpr (.inl ⟨code, rfl⟩))
  | ok evaluated =>
    have hchecksum := yields_bindingChecksum D binding
    simp only [reduceCtorEq, exists_false, false_or]
    rw [escapes_bind, hchecksum.escapes]
    simp only [hchecksum.eq_ok]
    constructor
    · rintro (hwritten | ⟨_, ⟨-, rfl⟩, hrest⟩) hrenderable
      · exact hwritten hrenderable.written
      · rcases escapes_bind.mp hrest with hinstants | ⟨dataAsOf, -, hbuild⟩
        · obtain ⟨hall, hnil | hout⟩ := escapes_conservativeDataAsOf.mp hinstants
          · exact hrenderable.supplied hnil
          · exact hout (hrenderable.instants hall)
        · exact escapes_buildResult.mp hbuild ⟨hrenderable.unit, hrenderable.supplied⟩
    · intro hnot
      by_cases hwritten : ∀ p ∈ binding.parameters, WritableValue p.value
      · refine .inr ⟨_, ⟨hwritten, rfl⟩, escapes_bind.mpr ?_⟩
        cases hasOf : conservativeDataAsOf ((suppliedInputs spec.inputs inputs).map (provenanceOf D)) with
        | error error =>
          exact .inl ⟨error, rfl, fun refusal hrefusal => conservativeDataAsOf_ne_refused refusal (hrefusal ▸ hasOf)⟩
        | ok dataAsOf =>
          refine .inr ⟨dataAsOf, rfl, escapes_buildResult.mpr fun hbuild => hnot ⟨hwritten, hbuild.1, hbuild.2, fun hall => ?_⟩⟩
          by_contra hout
          exact not_escapes_ok dataAsOf (hasOf ▸ escapes_conservativeDataAsOf.mpr ⟨hall, .inr hout⟩)
      · exact .inl hwritten

theorem concludeExecution_eq_ok {runtime : Dict String PyValue} {provenance : List CalculationInputProvenance}
    {result : CustomCalculationExecutionResult} (h : concludeExecution D spec binding runtime provenance = .ok result) :
    (∃ evaluated, evaluateCalculation spec runtime (some binding) = .ok evaluated ∧ result.value = evaluated.value) ∧
      result.inputProvenance = provenance ∧ conservativeDataAsOf provenance = .ok result.dataAsOf ∧
      result.timeRange = commonTimeRange provenance := by
  unfold concludeExecution at h
  cases hevaluated : evaluateCalculation spec runtime (some binding) with
  | error code =>
    rw [hevaluated] at h
    nomatch h
  | ok evaluated =>
    rw [hevaluated] at h
    obtain ⟨digest, -, h⟩ := bind_eq_ok.mp h
    obtain ⟨dataAsOf, hasOf, h⟩ := bind_eq_ok.mp h
    obtain ⟨hvalue, hprovenance, hdata, hrange⟩ := buildResult_eq_ok h
    exact ⟨⟨evaluated, rfl, hvalue⟩, hprovenance, hdata ▸ hasOf, hrange⟩

/-- The execution, with the checks of the roles in the terms of the lists. -/
theorem executeCustomCalculation_eq : executeCustomCalculation D spec binding inputs =
    checkFailures D binding spec >>= fun failures =>
      match failures with
      | failure :: _ => .error (.refused (.binding failure))
      | [] =>
        if ¬(inputs.map (·.role)).Nodup then .error (.refused .roleDuplicate)
        else if ∃ resolved ∈ inputs, resolved.role ∉ spec.inputs.map (·.role) then .error (.refused .roleUnknown)
        else collectInputs D (Dict.ofList (inputs.map fun item => (item.role, item))) (spec.inputs.map fun item => (item.role, item)) Dict.empty [] >>=
          fun collected => concludeExecution D spec binding collected.1 collected.2 := by
  have hentries : (Dict.ofList (spec.inputs.map fun item => (item.role, item))).entries = spec.inputs.map fun item => (item.role, item) := by
    refine Dict.entries_ofList ?_
    rw [List.map_map]
    exact spec.inputs_unique
  have hknown : (∀ role ∈ (Dict.ofList (inputs.map fun item => (item.role, item))).keys,
      role ∈ (Dict.ofList (spec.inputs.map fun item => (item.role, item))).keys) ↔
      ¬∃ resolved ∈ inputs, resolved.role ∉ spec.inputs.map (·.role) := by
    simp only [Dict.mem_keys_ofList, List.map_map, Function.comp_def, List.mem_map, forall_exists_index, and_imp, forall_apply_eq_imp_iff₂]
    push Not
    rfl
  unfold executeCustomCalculation
  refine congrArg _ (funext fun failures => ?_)
  cases failures with
  | cons failure rest => rfl
  | nil =>
    simp only [ne_eq, length_fromKeys_eq_iff, hknown, hentries, not_not]
    by_cases hdistinct : (inputs.map (·.role)).Nodup
    · rw [if_neg (not_not.mpr hdistinct), if_neg (not_not.mpr hdistinct)]
      by_cases hunknown : ∃ resolved ∈ inputs, resolved.role ∉ spec.inputs.map (·.role)
      · rw [if_pos hunknown, if_pos hunknown]
        rfl
      · rw [if_neg hunknown, if_neg hunknown]
    · rw [if_pos hdistinct, if_pos hdistinct]
      rfl

theorem finds_of_nodup (hdistinct : (inputs.map (·.role)).Nodup) : Finds inputs (Dict.ofList (inputs.map fun item => (item.role, item))) :=
  fun requirement => Dict.get?_ofList_eq_find? hdistinct requirement.role

/-- What is found for a role does not depend on the order of inputs of different roles. -/
theorem inputFor_perm {other : List ResolvedCalculationInput} (h : other.Perm inputs) (hdistinct : (inputs.map (·.role)).Nodup)
    (requirement : CalculationInputSpec) : inputFor other requirement = inputFor inputs requirement := by
  have hother : (other.map (·.role)).Nodup := (h.map _).nodup_iff.mpr hdistinct
  have hfound : ∀ {values : List ResolvedCalculationInput}, (values.map (·.role)).Nodup → ∀ resolved,
      inputFor values requirement = some resolved ↔ resolved ∈ values ∧ resolved.role = requirement.role := by
    intro values hvalues resolved
    constructor
    · exact fun hfind => ⟨List.mem_of_find?_eq_some hfind, by simpa using List.find?_some hfind⟩
    · rintro ⟨hmem, hrole⟩
      rw [← finds_of_nodup hvalues requirement, ← hrole]
      refine Dict.get?_ofList_of_mem ?_ (List.mem_map_of_mem hmem)
      rw [List.map_map]
      exact hvalues
  refine Option.ext fun resolved => ?_
  rw [hfound hother, hfound hdistinct, h.mem_iff]

/-- The loop reads the inputs only through what is found for each role. -/
theorem collectInputs_congr {supplied supplied' : Dict RoleName ResolvedCalculationInput} (h : ∀ role, supplied.get? role = supplied'.get? role)
    (entries : List (RoleName × CalculationInputSpec)) (runtime : Dict String PyValue) (made : List CalculationInputProvenance) :
    collectInputs D supplied entries runtime made = collectInputs D supplied' entries runtime made := by
  induction entries generalizing runtime made with
  | nil => rfl
  | cons entry entries ih =>
    have hrole : resolveRole supplied entry.1 entry.2 = resolveRole supplied' entry.1 entry.2 := by rw [resolveRole, resolveRole, h]
    simp only [collectInputs, hrole, ih]

/-- The order of the inputs does not matter. -/
theorem executeCustomCalculation_perm {other : List ResolvedCalculationInput} (h : other.Perm inputs) :
    executeCustomCalculation D spec binding other = executeCustomCalculation D spec binding inputs := by
  have hnodup : (other.map (·.role)).Nodup ↔ (inputs.map (·.role)).Nodup := (h.map _).nodup_iff
  have hunknown : (∃ resolved ∈ other, resolved.role ∉ spec.inputs.map (·.role)) ↔ ∃ resolved ∈ inputs, resolved.role ∉ spec.inputs.map (·.role) := by
    simp only [h.mem_iff]
  rw [executeCustomCalculation_eq, executeCustomCalculation_eq]
  refine congrArg _ (funext fun failures => ?_)
  cases failures with
  | cons failure rest => rfl
  | nil =>
    simp only [hnodup, hunknown]
    by_cases hdistinct : (inputs.map (·.role)).Nodup
    · have hget : ∀ role, (Dict.ofList (other.map fun item => (item.role, item))).get? role =
          (Dict.ofList (inputs.map fun item => (item.role, item))).get? role := by
        intro role
        have hfind := inputFor_perm h hdistinct ⟨role, .adHocMetric, none, false, fun hformal => nomatch hformal⟩
        rw [Dict.get?_ofList_eq_find? (hnodup.mpr hdistinct), Dict.get?_ofList_eq_find? hdistinct]
        exact hfind
      rw [if_neg (not_not.mpr hdistinct), if_neg (not_not.mpr hdistinct), collectInputs_congr hget]
    · rw [if_pos hdistinct, if_pos hdistinct]

/-- What an execution does after a binding that passes: the roles are refused, or the inputs are collected. -/
theorem executeCustomCalculation_cases (D : ExecutionDigests) (inputs : List ResolvedCalculationInput) (hlookups : LookupsWritten spec binding) :
    (RefusedAtOnce D spec binding inputs ∧ ∃ refusal, executeCustomCalculation D spec binding inputs = .error (.refused refusal)) ∨
      (¬RefusedAtOnce D spec binding inputs ∧ (inputs.map (·.role)).Nodup ∧ executeCustomCalculation D spec binding inputs =
        collectInputs D (Dict.ofList (inputs.map fun item => (item.role, item))) (spec.inputs.map fun item => (item.role, item)) Dict.empty [] >>=
          fun collected => concludeExecution D spec binding collected.1 collected.2) := by
  have hfailures := (yields_checkFailures D spec binding).1 hlookups
  rw [executeCustomCalculation_eq, hfailures]
  unfold RefusedAtOnce
  cases hlist : binding.bindingFailures D.toCalculationDigests spec with
  | cons failure rest => exact .inl ⟨.inl (List.cons_ne_nil _ _), _, rfl⟩
  | nil =>
    by_cases hdistinct : (inputs.map (·.role)).Nodup
    · by_cases hunknown : ∃ resolved ∈ inputs, resolved.role ∉ spec.inputs.map (·.role)
      · refine .inl ⟨.inr (.inr hunknown), .roleUnknown, ?_⟩
        exact (if_neg (not_not.mpr hdistinct)).trans (if_pos hunknown)
      · refine .inr ⟨?_, hdistinct, (if_neg (not_not.mpr hdistinct)).trans (if_neg hunknown)⟩
        rintro (h | h | h)
        · exact h rfl
        · exact h hdistinct
        · exact hunknown h
    · exact .inl ⟨.inr (.inl hdistinct), .roleDuplicate, if_pos hdistinct⟩

/-- An execution escapes exactly where something it comes to does. -/
theorem escapes_executeCustomCalculation :
    Escapes (executeCustomCalculation D spec binding inputs) ↔ ¬Contained D spec binding inputs := by
  by_cases hlookups : LookupsWritten spec binding
  · rcases executeCustomCalculation_cases D inputs hlookups with ⟨hrefused, refusal, hexecute⟩ | ⟨hpasses, hdistinct, hexecute⟩
    · rw [hexecute]
      exact iff_of_false (not_escapes_refused refusal) (not_not.mpr ⟨hlookups, .inl hrefused⟩)
    · have hfinds := finds_of_nodup hdistinct
      rw [hexecute, escapes_bind, escapes_collectInputs hfinds]
      simp only [Contained, hlookups, hpasses, true_and, false_or, not_and_or]
      by_cases hwritten : InputsWritten inputs spec.inputs
      · simp only [hwritten, not_true_eq_false, false_or]
        by_cases hrefused : ∃ requirement ∈ spec.inputs, Refused inputs requirement
        · refine iff_of_false ?_ (not_not.mpr (.inl hrefused))
          rintro ⟨⟨runtime, made⟩, hcollect, -⟩
          obtain ⟨requirement, hmem, hrefused⟩ := hrefused
          exact ((collectInputs_eq_ok hfinds).mp hcollect).1 requirement hmem hrefused
        · have hall : ∀ requirement ∈ spec.inputs, ¬Refused inputs requirement := fun requirement hmem h => hrefused ⟨requirement, hmem, h⟩
          have hwritable := (inputsWritten_iff hall).mp hwritten
          have hcollect : collectInputs D (Dict.ofList (inputs.map fun item => (item.role, item))) (spec.inputs.map fun item => (item.role, item))
              Dict.empty [] = .ok (runtimeValues (suppliedInputs spec.inputs inputs), (suppliedInputs spec.inputs inputs).map (provenanceOf D)) :=
            (collectInputs_eq_ok hfinds).mpr ⟨hall, hwritable, rfl, rfl⟩
          simp only [hrefused, false_or]
          rw [← escapes_concludeExecution (D := D)]
          constructor
          · rintro ⟨collected, hcollected, hescapes⟩
            obtain rfl := Except.ok.inj (hcollect.symm.trans hcollected)
            exact hescapes
          · exact fun h => ⟨_, hcollect, h⟩
      · exact iff_of_true (.inl hwritten) (.inl hwritten)
  · rw [executeCustomCalculation_eq, escapes_bind]
    exact iff_of_true (.inl ((yields_checkFailures D spec binding).2 hlookups)) fun h => hlookups h.1

/-- A result that is returned says what it was computed from. -/
theorem faithful_of_ok {result : CustomCalculationExecutionResult} (h : executeCustomCalculation D spec binding inputs = .ok result) :
    Faithful D spec binding inputs result := by
  have hlookups : LookupsWritten spec binding := by
    have hcontained : Contained D spec binding inputs := by
      by_contra hnot
      exact not_escapes_ok result (h ▸ escapes_executeCustomCalculation.mpr hnot)
    exact hcontained.1
  rcases executeCustomCalculation_cases D inputs hlookups with ⟨-, refusal, hexecute⟩ | ⟨-, hdistinct, hexecute⟩
  · exact absurd (hexecute.symm.trans h) fun heq => nomatch heq
  · obtain ⟨⟨runtime, made⟩, hcollect, hconclude⟩ := bind_eq_ok.mp (hexecute.symm.trans h)
    obtain ⟨-, -, rfl, rfl⟩ := (collectInputs_eq_ok (finds_of_nodup hdistinct)).mp hcollect
    obtain ⟨hvalue, hprovenance, hasOf, hrange⟩ := concludeExecution_eq_ok hconclude
    rw [List.nil_append] at hprovenance hasOf hrange
    exact ⟨hvalue, hprovenance, earliestOf_of_ok hasOf, hrange ▸ commonRange_commonTimeRange⟩

end Execution

/-- An execution refuses or gives a faithful result, the same for every order of its inputs, exactly where nothing it comes to escapes: the
bound values that are looked up have texts, and either it is refused before any input is read, or the inputs read have texts and it is
refused for one of them, or by the runtime, or a result can be made. -/
theorem custom_execution_iff (D : ExecutionDigests) (spec : CalculationSpec) (binding : CalculationExecutionBinding)
    (inputs : List ResolvedCalculationInput) : ExecutionLaw D spec binding inputs ↔ Contained D spec binding inputs := by
  constructor
  · intro hlaw
    by_contra hnot
    exact not_escapes_iff.mpr hlaw.refuses (escapes_executeCustomCalculation.mpr hnot)
  · intro hcontained
    refine ⟨not_escapes_iff.mp fun h => escapes_executeCustomCalculation.mp h hcontained, fun result h => faithful_of_ok h, ?_⟩
    exact fun other h => executeCustomCalculation_perm h

/-- A fixed fee: no input is referred to, and the one declared is optional. -/
def fixedFee : CalculationSpec :=
  { discountedRevenue with
    calculationId := ⟨"fixed_fee", by decide⟩
    expression := .literal ⟨false, 5, 0⟩
    inputs := [{ revenueInput with required := false }]
    parameters := []
    inputs_length := by decide
    inputs_unique := by decide
    parameters_length := by decide
    parameters_unique := by decide
    depth_bounded := by decide
    nodes_bounded := by decide
    roles_declared := by decide
    parameters_declared := by decide }

/-- The digests at `fixedFee`. -/
def fixedFeeDigests : ExecutionDigests where
  spec _ := discountedRevenueChecksum
  binding _ := discountedRevenueChecksum
  derived _ _ := discountedRevenueChecksum
  input _ := discountedRevenueChecksum

/-- The binding of `fixedFee`, which has no parameter. -/
def fixedFeeBinding : CalculationExecutionBinding where
  calculationId := ⟨"fixed_fee", by decide⟩
  specChecksum := discountedRevenueChecksum
  parameters := []
  parameters_length := by decide
  parameters_unique := by decide

/-- Without its optional input the fee is evaluated, and then the earliest of no datetime is asked for. -/
theorem custom_execution_empty : executeCustomCalculation fixedFeeDigests fixedFee fixedFeeBinding [] = .error .emptySequence ∧
    ¬ExecutionLaw fixedFeeDigests fixedFee fixedFeeBinding [] := by
  have hexecute : executeCustomCalculation fixedFeeDigests fixedFee fixedFeeBinding [] = .error .emptySequence := by decide +kernel
  refine ⟨hexecute, fun hlaw => ?_⟩
  obtain ⟨refusal, hrefusal⟩ := hlaw.refuses _ hexecute
  nomatch hrefusal

end Nl2Sql.Custom
