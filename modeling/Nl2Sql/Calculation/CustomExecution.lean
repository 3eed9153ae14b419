import Nl2Sql.Calculation.Dump
import Nl2Sql.Calculation.Evaluate
import Nl2Sql.Lib.Datetime
import Nl2Sql.Lib.Writable
import Nl2Sql.Plan.Contracts

/-!
# Executing a custom calculation

`orchestration/custom_calculation_execution.py`: scalars already resolved for the roles of a spec are checked against its declarations, the
shared runtime evaluates the expression on them, and the result carries what they came from. A checksum is a function of what is digested,
where the JSON text of it can be written.
-/

namespace Nl2Sql.Custom

open Py

/-- `ResolvedScalar`: a text is of at most 256 characters (`validate_bounded_value`). -/
inductive ResolvedScalar where
  | decimal (d : Decimal)
  | int (n : Int)
  | str (s : BoundedText 0 256)
  | none
  deriving DecidableEq

/-- A resolved scalar as the evaluator sees it. -/
def ResolvedScalar.toPy : ResolvedScalar → PyValue
  | .decimal d => .decimal d
  | .int n => .int n
  | .str s => .str s
  | .none => .none

inductive InputStatus where
  | resolved | unavailable
  deriving DecidableEq, Repr

/-- One governed scalar resolved for a declared role. -/
structure ResolvedCalculationInput where
  role : RoleName
  metricKey : BoundedText 1 256
  status : InputStatus := .resolved
  value : ResolvedScalar := .none
  unit : BoundedText 1 64
  dataAsOf : Option Datetime := none
  timeRange : Option TimeRange := none
  provenance : InputProvenance
  sourceId : Option ContractId := none
  receiptStepId : Option PlanStepId := none
  factId : Option Sha256 := none
  unavailable_empty : status = .unavailable → value = .none
  deriving DecidableEq

/-- What the result says of an input: everything but its value. -/
structure CalculationInputProvenance where
  role : RoleName
  metricKey : BoundedText 1 256
  status : InputStatus
  unit : BoundedText 1 64
  dataAsOf : Option Datetime
  timeRange : Option TimeRange
  provenance : InputProvenance
  sourceId : Option ContractId
  receiptStepId : Option PlanStepId
  factId : Option Sha256
  inputChecksum : Sha256
  deriving DecidableEq

structure CustomCalculationExecutionResult where
  calculationId : ContractId
  specChecksum : Sha256
  bindingChecksum : Sha256
  value : Decimal
  unit : BoundedText 1 64
  inputProvenance : List CalculationInputProvenance
  dataAsOf : Option Datetime
  timeRange : Option TimeRange
  provenance_length : 1 ≤ inputProvenance.length ∧ inputProvenance.length ≤ 32
  provenance_unique : (inputProvenance.map (·.role)).Nodup
  deriving DecidableEq

/-- The digests of the contract and of a resolved input. -/
structure ExecutionDigests extends CalculationDigests where
  input : ResolvedCalculationInput → Sha256

/-! ## Errors -/

/-- Why an execution is refused. -/
inductive ExecutionRefusal where
  | binding (failure : BindingFailure)
  | roleDuplicate | roleUnknown | inputMissing | metricMismatch | provenanceMismatch | inputUnavailable
  | runtime (code : RuntimeCode)
  deriving DecidableEq, Repr

/-- The code of a refusal. -/
def ExecutionRefusal.code : ExecutionRefusal → String
  | .binding failure => failure.text
  | .roleDuplicate => "calculation_input_role_duplicate"
  | .roleUnknown => "calculation_input_role_unknown"
  | .inputMissing => "calculation_input_missing"
  | .metricMismatch => "calculation_input_metric_mismatch"
  | .provenanceMismatch => "calculation_input_provenance_mismatch"
  | .inputUnavailable => "calculation_input_unavailable"
  | .runtime code => code.text

/-- What an execution raises: `CustomCalculationExecutionError`, `ValueError` for an integer of too many digits or for the least of nothing,
`OverflowError` for an instant out of the calendar, `ValidationError` for a result that is none. -/
inductive ExecutionError where
  | refused (refusal : ExecutionRefusal)
  | tooManyDigits | emptySequence | dateOutOfRange | invalidResult
  deriving DecidableEq, Repr

/-! ## The binding -/

/-- `str(value)`, and the digits a JSON text has of it. -/
def writtenValue : ParameterValue → Except ExecutionError String
  | .int n => if WritableInt n then .ok (toString n) else .error .tooManyDigits
  | value => .ok value.text

/-- The failures of one declared parameter, where a text is made of its value to look it up. -/
def checkParameter (b : CalculationExecutionBinding) (parameter : ParameterSpec) :
    Except ExecutionError (List BindingFailure) :=
  match b.bound? parameter.name with
  | none => .ok (if parameter.required then [.missingRequiredParameter] else [])
  | some value =>
    if !valueMatchesType value parameter.valueType then
      .ok [.valueTypeMismatch]
    else if parameter.allowedValues = [] then
      .ok []
    else do
      let text ← writtenValue value
      return if text ∉ parameter.allowedValues then [.valueNotAllowed] else []

section Execution

variable (D : ExecutionDigests)

/-- `binding.binding_failures(spec)`. -/
def checkFailures (b : CalculationExecutionBinding) (spec : CalculationSpec) :
    Except ExecutionError (List BindingFailure) := do
  let checked ← spec.parameters.mapM (checkParameter b)
  return fromKeys
    ((if spec.calculationId ≠ b.calculationId ∨ spec.checksum D.toCalculationDigests ≠ b.specChecksum
        then [BindingFailure.specMismatch] else []) ++
      (b.parameters.filter fun p => p.name ∉ spec.parameters.map (·.name)).map (fun _ => BindingFailure.unknownParameter) ++ checked.flatten)

/-- `binding.checksum`. -/
def bindingChecksum (b : CalculationExecutionBinding) : Except ExecutionError Sha256 := do
  let _ ← b.parameters.mapM fun p => writtenValue p.value
  return b.checksum D.toCalculationDigests

/-! ## The inputs -/

/-- `resolved.checksum`. -/
def ResolvedCalculationInput.checksum (resolved : ResolvedCalculationInput) : Except ExecutionError Sha256 :=
  match resolved.value with
  | .int n => if WritableInt n then .ok (D.input resolved) else .error .tooManyDigits
  | _ => .ok (D.input resolved)

/-- `_project_provenance`. -/
def projectProvenance (resolved : ResolvedCalculationInput) : Except ExecutionError CalculationInputProvenance := do
  let inputChecksum ← resolved.checksum D
  return {
    role := resolved.role
    metricKey := resolved.metricKey
    status := resolved.status
    unit := resolved.unit
    dataAsOf := resolved.dataAsOf
    timeRange := resolved.timeRange
    provenance := resolved.provenance
    sourceId := resolved.sourceId
    receiptStepId := resolved.receiptStepId
    factId := resolved.factId
    inputChecksum }

/-- The checks of one declared role: the input to take for it, if there is one. -/
def resolveRole (supplied : Dict RoleName ResolvedCalculationInput) (role : RoleName) (requirement : CalculationInputSpec) :
    Except ExecutionRefusal (Option ResolvedCalculationInput) :=
  match supplied.get? role with
  | none => if requirement.required then .error .inputMissing else .ok none
  | some resolved =>
    if requirement.metricKey = none ∨ some resolved.metricKey ≠ requirement.metricKey then
      .error .metricMismatch
    else if resolved.provenance ≠ requirement.provenance then
      .error .provenanceMismatch
    else if resolved.status = .unavailable then
      if requirement.required then .error .inputUnavailable else .ok none
    else
      .ok (some resolved)

/-- The loop over the declared roles: the inputs of the runtime and what they came from. -/
def collectInputs (supplied : Dict RoleName ResolvedCalculationInput) : List (RoleName × CalculationInputSpec) → Dict String PyValue →
    List CalculationInputProvenance → Except ExecutionError (Dict String PyValue × List CalculationInputProvenance)
  | [], runtimeInputs, provenance => .ok (runtimeInputs, provenance)
  | (role, requirement) :: rest, runtimeInputs, provenance =>
    match resolveRole supplied role requirement with
    | .error refusal => .error (.refused refusal)
    | .ok none => collectInputs supplied rest runtimeInputs provenance
    | .ok (some resolved) => do
      let item ← projectProvenance D resolved
      collectInputs supplied rest (runtimeInputs.set role resolved.value.toPy) (provenance ++ [item])

/-! ## The result -/

/-- The earlier of two datetimes, the first of two at one instant. -/
def earlier (a b : AwareDatetime) : AwareDatetime := if b.instant < a.instant then b else a

/-- `min` of datetimes in UTC. -/
def earliest : List AwareDatetime → Except ExecutionError AwareDatetime
  | [] => .error .emptySequence
  | first :: rest => .ok (rest.foldl earlier first)

/-- `value.astimezone(UTC)`. -/
def astimezone (t : AwareDatetime) : Except ExecutionError AwareDatetime :=
  match t.toUtc with
  | some utc => .ok utc
  | none => .error .dateOutOfRange

/-- `_conservative_data_as_of`: none where one has no instant, else the earliest. -/
def conservativeDataAsOf (inputs : List CalculationInputProvenance) : Except ExecutionError (Option Datetime) :=
  let values := inputs.map fun item => item.dataAsOf.bind Datetime.aware?
  if none ∈ values then
    .ok none
  else do
    let converted ← (values.filterMap id).mapM astimezone
    let utc ← earliest converted
    return some (.aware utc)

/-- `_common_time_range`. -/
def commonTimeRange (inputs : List CalculationInputProvenance) : Option TimeRange :=
  match inputs.map (·.timeRange) with
  | some first :: rest => if rest.all (· = some first) then some first else none
  | _ => none

/-- The unit of the result: the custom one, where the spec has one. -/
def resultUnit (spec : CalculationSpec) : String :=
  match spec.customUnitId with
  | some custom => custom
  | none => literalText UnitPolicy.literals spec.unit

/-- The result of an evaluation, validated. -/
def buildResult (spec : CalculationSpec) (bindingDigest : Sha256) (value : Decimal) (inputProvenance : List CalculationInputProvenance)
    (dataAsOf : Option Datetime) : Except ExecutionError CustomCalculationExecutionResult :=
  if h : (1 ≤ (resultUnit spec).length ∧ (resultUnit spec).length ≤ 64) ∧ (1 ≤ inputProvenance.length ∧ inputProvenance.length ≤ 32) ∧
      (inputProvenance.map (·.role)).Nodup then
    .ok {
      calculationId := spec.calculationId
      specChecksum := spec.checksum D.toCalculationDigests
      bindingChecksum := bindingDigest
      value
      unit := ⟨resultUnit spec, h.1⟩
      inputProvenance
      dataAsOf
      timeRange := commonTimeRange inputProvenance
      provenance_length := h.2.1
      provenance_unique := h.2.2 }
  else
    .error .invalidResult

/-- What follows the collection of the inputs: the evaluation and the result. -/
def concludeExecution (spec : CalculationSpec) (binding : CalculationExecutionBinding) (runtimeInputs : Dict String PyValue)
    (provenance : List CalculationInputProvenance) : Except ExecutionError CustomCalculationExecutionResult :=
  match evaluateCalculation spec runtimeInputs (some binding) with
  | .error code => .error (.refused (.runtime code))
  | .ok evaluated => do
    let bindingDigest ← bindingChecksum D binding
    let dataAsOf ← conservativeDataAsOf provenance
    buildResult D spec bindingDigest evaluated.value provenance dataAsOf

/-- `execute_custom_calculation`. -/
def executeCustomCalculation (spec : CalculationSpec) (binding : CalculationExecutionBinding) (inputs : List ResolvedCalculationInput) :
    Except ExecutionError CustomCalculationExecutionResult := do
  if let failure :: _ ← checkFailures D binding spec then
    throw (.refused (.binding failure))
  let roles := inputs.map (·.role)
  if (fromKeys roles).length ≠ roles.length then
    throw (.refused .roleDuplicate)
  let declared : Dict RoleName CalculationInputSpec := Dict.ofList (spec.inputs.map fun item => (item.role, item))
  let supplied : Dict RoleName ResolvedCalculationInput := Dict.ofList (inputs.map fun item => (item.role, item))
  if ¬∀ role ∈ supplied.keys, role ∈ declared.keys then
    throw (.refused .roleUnknown)
  let (runtimeInputs, provenance) ← collectInputs D supplied declared.entries Dict.empty []
  concludeExecution D spec binding runtimeInputs provenance

end Execution

end Nl2Sql.Custom
