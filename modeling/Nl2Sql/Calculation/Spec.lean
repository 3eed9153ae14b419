import Nl2Sql.Calculation.Contract
import Nl2Sql.Lib.Json
import Nl2Sql.Lib.Date

/-!
# Calculation specs and their bindings

`semantic/calculation_contract.py`, its second half: a reusable spec declares input roles and parameters, and a binding gives one
run's values to the parameters. The validators of the models are fields of the structures. A checksum is the SHA-256 of a
canonical JSON text; all that is used of it is that it is a function of the content, and so the digests are parameters.
-/

namespace Nl2Sql

open Py

inductive UnitPolicy where
  | count | percent | ratio | currencyCny | seconds | customUnit
  deriving DecidableEq, Repr

/-- The texts a custom unit must not shadow: the built-in literals and the anonymous one. -/
def builtinUnitLiterals : List String := ["count", "percent", "ratio", "currency_cny", "seconds", "custom_unit", "custom"]

/-- One segment of a custom unit: `[a-z0-9_]+`. -/
def isUnitSegment (cs : List Char) : Bool :=
  !cs.isEmpty && cs.all fun c => isLowerAscii c || isDigitAscii c || c == '_'

/-- The pattern of a custom unit: `^[a-z][a-z0-9_]*(?:[.-][a-z0-9_]+)*$`. -/
def isCustomUnitId (s : String) : Bool :=
  (s.toList.head?.map isLowerAscii).getD false && (s.toList.splitOnP fun c => c == '.' || c == '-').all isUnitSegment

inductive ParameterValueType where
  | string | integer | decimal | date | boolean
  deriving DecidableEq, Repr

inductive InputProvenance where
  | publishedGold | definitionBackedComputed | productPublishedState | adHocMetric
  deriving DecidableEq, Repr

/-- `_FORMAL_PROVENANCE`. -/
def InputProvenance.isFormal : InputProvenance → Bool
  | .publishedGold => true
  | .definitionBackedComputed => true
  | .productPublishedState => true
  | .adHocMetric => false

/-- A text of bounded length. -/
abbrev BoundedText (low high : Nat) : Type := { s : String // low ≤ s.length ∧ s.length ≤ high }

/-- One declared input role and the identity it must resolve to. -/
structure CalculationInputSpec where
  role : RoleName
  provenance : InputProvenance
  metricKey : Option (BoundedText 1 256)
  required : Bool
  formal_named : provenance.isFormal = true → metricKey.isSome = true
  deriving DecidableEq

/-- A declared parameter. -/
structure ParameterSpec where
  name : ParameterName
  valueType : ParameterValueType
  required : Bool
  allowedValues : List String
  description : Option (BoundedText 0 512)
  allowed_length : allowedValues.length ≤ 64
  allowed_non_blank : ∀ v ∈ allowedValues, isBlank v = false
  allowed_unique : allowedValues.Nodup

instance : DecidableEq ParameterSpec := fun a b =>
  decidable_of_iff
    (a.name = b.name ∧ a.valueType = b.valueType ∧ a.required = b.required ∧ a.allowedValues = b.allowedValues ∧
      a.description = b.description)
    (by cases a; cases b; simp)

/-- A reusable calculation: the expression, what it declares, and the policy of its value. -/
structure CalculationSpec where
  calculationId : ContractId
  expression : Expression
  inputs : List CalculationInputSpec
  parameters : List ParameterSpec
  unit : UnitPolicy
  customUnitId : Option { s : String // isCustomUnitId s = true }
  precision : Option Precision
  rounding : Option Rounding
  inputs_length : 1 ≤ inputs.length ∧ inputs.length ≤ 32
  inputs_unique : (inputs.map (·.role)).Nodup
  parameters_length : parameters.length ≤ 32
  parameters_unique : (parameters.map (·.name)).Nodup
  depth_bounded : ∃ depth, expression.depth = some depth ∧ depth ≤ maxExpressionDepth
  nodes_bounded : ∃ count, expression.nodeCount = some count ∧ count ≤ maxExpressionNodes
  roles_declared : ∀ roles, expression.referencedInputRoles = some roles → ∀ r ∈ roles, r ∈ inputs.map (·.role.val)
  parameters_declared : ∀ names, expression.referencedParameterNames = some names → ∀ n ∈ names, n ∈ parameters.map (·.name.val)
  rounding_precision : rounding.isSome = true → precision.isSome = true
  custom_unit : unit = .customUnit ↔ customUnitId.isSome = true
  custom_unit_fresh : ∀ u ∈ customUnitId, u.val ∉ builtinUnitLiterals

/-- The roles the expression of a spec refers to. -/
def CalculationSpec.referencedRoles (spec : CalculationSpec) : List String := spec.expression.referencedInputRoles.getD []

/-- One run's value of a parameter. A float and a decimal are finite (`_finite`). -/
inductive ParameterValue where
  | str (s : String)
  | bool (b : Bool)
  | int (n : Int)
  | float (text : String)
  | decimal (d : Decimal)
  deriving DecidableEq

/-- `str(value)`. -/
def ParameterValue.text : ParameterValue → String
  | .str s => s
  | .bool true => "True"
  | .bool false => "False"
  | .int n => toString n
  | .float text => text
  | .decimal d => d.toStr

/-- The number a list of decimal digits writes. -/
def ofDigitChars (cs : List Char) : Nat := cs.foldl (fun n c => 10 * n + (c.toNat - '0'.toNat)) 0

/-- `_is_iso_calendar_date`: ten characters `YYYY-MM-DD` that name a day of the years 1 to 9999. -/
def isIsoCalendarDate (s : String) : Bool :=
  match s.toList with
  | [y1, y2, y3, y4, d1, m1, m2, d2, t1, t2] =>
    let year := ofDigitChars [y1, y2, y3, y4]
    let month := ofDigitChars [m1, m2]
    let day := ofDigitChars [t1, t2]
    [y1, y2, y3, y4, m1, m2, t1, t2].all isDigitAscii && d1 == '-' && d2 == '-' && decide (1 ≤ year) &&
      decide (1 ≤ month ∧ month ≤ 12) && decide (1 ≤ day ∧ day ≤ daysInMonth year month)
  | _ => false

/-- `value_matches_type`. -/
def valueMatchesType : ParameterValue → ParameterValueType → Bool
  | .str _, .string => true
  | .bool _, .boolean => true
  | .int _, .integer => true
  | .decimal _, .decimal => true
  | .int _, .decimal => true
  | .str s, .date => isIsoCalendarDate s
  | _, _ => false

/-- One parameter bound to a value. -/
@[ext] structure ParameterBinding where
  name : ParameterName
  value : ParameterValue
  deriving DecidableEq

/-- The binding of one run's values to the parameters of one spec. -/
structure CalculationExecutionBinding where
  calculationId : ContractId
  specChecksum : Sha256
  parameters : List ParameterBinding
  parameters_length : parameters.length ≤ 32
  parameters_unique : (parameters.map (·.name)).Nodup
  deriving DecidableEq

/-- The digests of the calculation contract, as functions of what is digested. -/
structure CalculationDigests where
  spec : CalculationSpec → Sha256
  binding : CalculationExecutionBinding → Sha256
  /-- of the two checksums that identify a derived output -/
  derived : Sha256 → Sha256 → Sha256

section Binding

variable (D : CalculationDigests)

/-- `CalculationSpec.checksum`. -/
def CalculationSpec.checksum (spec : CalculationSpec) : Sha256 := D.spec spec

/-- `CalculationExecutionBinding.checksum`. -/
def CalculationExecutionBinding.checksum (b : CalculationExecutionBinding) : Sha256 := D.binding b

/-- What `binding_failures` reports. -/
inductive BindingFailure where
  | specMismatch | unknownParameter | missingRequiredParameter | valueTypeMismatch | valueNotAllowed
  deriving DecidableEq, Repr

/-- The text of a failure. -/
def BindingFailure.text : BindingFailure → String
  | .specMismatch => "execution_binding_spec_mismatch"
  | .unknownParameter => "execution_binding_unknown_parameter"
  | .missingRequiredParameter => "execution_binding_missing_required_parameter"
  | .valueTypeMismatch => "execution_binding_value_type_mismatch"
  | .valueNotAllowed => "execution_binding_value_not_allowed"

/-- The value a binding gives to a name. -/
def CalculationExecutionBinding.bound? (b : CalculationExecutionBinding) (name : ParameterName) : Option ParameterValue :=
  (b.parameters.find? fun p => p.name = name).map (·.value)

/-- The failures of one declared parameter. -/
def CalculationExecutionBinding.parameterFailures (b : CalculationExecutionBinding) (parameter : ParameterSpec) :
    List BindingFailure :=
  match b.bound? parameter.name with
  | none => if parameter.required then [.missingRequiredParameter] else []
  | some value =>
    if !valueMatchesType value parameter.valueType then
      [.valueTypeMismatch]
    else if parameter.allowedValues ≠ [] ∧ value.text ∉ parameter.allowedValues then
      [.valueNotAllowed]
    else
      []

/-- `binding_failures`. -/
def CalculationExecutionBinding.bindingFailures (b : CalculationExecutionBinding) (spec : CalculationSpec) : List BindingFailure :=
  fromKeys
    ((if spec.calculationId ≠ b.calculationId ∨ spec.checksum D ≠ b.specChecksum then [BindingFailure.specMismatch] else []) ++
      (b.parameters.filter fun p => p.name ∉ spec.parameters.map (·.name)).map (fun _ => BindingFailure.unknownParameter) ++
      spec.parameters.flatMap b.parameterFailures)

end Binding

/-! ## The derived output -/

/-- The pattern of a derived output: `^adhoc_[0-9a-f]{32}$`. -/
def isDerivedOutputId (s : String) : Bool :=
  s.toList.take 6 == "adhoc_".toList && (s.toList.drop 6).all (fun c => isDigitAscii c || ('a' ≤ c && c ≤ 'f')) &&
    decide (s.length = 38)

/-- The identity of a derived output. It names no metric. -/
abbrev DerivedOutputId : Type := { s : String // isDerivedOutputId s = true }

/-- The first half of a digest, marked: an identity of a derived output. -/
def DerivedOutputId.ofDigest (digest : Sha256) : DerivedOutputId :=
  ⟨String.ofList ("adhoc_".toList ++ digest.val.toList.take 32), by
    obtain ⟨s, hs⟩ := digest
    simp only [isSha256, Bool.and_eq_true, List.all_eq_true, decide_eq_true_eq] at hs
    obtain ⟨hall, hlen⟩ := hs
    have hlen' : s.toList.length = 64 := by rw [String.length_toList]; exact hlen
    have h6 : ("adhoc_".toList ++ s.toList.take 32).take 6 = "adhoc_".toList := by
      rw [List.take_append_of_le_length (by decide)]
      decide
    have hd6 : ("adhoc_".toList ++ s.toList.take 32).drop 6 = s.toList.take 32 := by
      rw [List.drop_append_of_le_length (by decide)]
      simp
    simp only [isDerivedOutputId, String.toList_ofList, h6, hd6, Bool.and_eq_true, beq_self_eq_true, true_and,
      List.all_eq_true, decide_eq_true_eq]
    refine ⟨fun c hc => hall c (List.mem_of_mem_take hc), ?_⟩
    rw [← String.length_toList, String.toList_ofList, List.length_append, List.length_take, hlen']
    decide⟩

/-- `derived_output_id`. -/
def derivedOutputId (D : CalculationDigests) (spec : CalculationSpec) (binding : CalculationExecutionBinding) : DerivedOutputId :=
  .ofDigest (D.derived (spec.checksum D) (binding.checksum D))

/-! ## The JSON form of a binding -/

/-- `model_dump_json` of a parameter value: a decimal is written as text. -/
def ParameterValue.toJson : ParameterValue → Json
  | .str s => .str s
  | .bool b => .bool b
  | .int n => .int n
  | .float text => .float text
  | .decimal d => .str d.toStr

/-- `model_validate_json` of a parameter value: the member of the union whose type the JSON value has. No member is read from an
array, an object or null, and the members that come first for text and numbers are the exact ones. -/
def ParameterValue.ofJson? : Json → Option ParameterValue
  | .str s => some (.str s)
  | .bool b => some (.bool b)
  | .int n => some (.int n)
  | .float text => some (.float text)
  | .null => none
  | .arr _ => none
  | .obj _ => none

/-- The value that a value is read back as. -/
def ParameterValue.reread : ParameterValue → ParameterValue
  | .decimal d => .str d.toStr
  | v => v

/-- Reading a dumped value back never fails. -/
theorem ParameterValue.ofJson?_toJson (v : ParameterValue) : ParameterValue.ofJson? v.toJson = some v.reread := by
  cases v <;> rfl

/-- `CalculationExecutionBinding.model_validate_json(binding.model_dump_json())`. -/
def CalculationExecutionBinding.snapshot (b : CalculationExecutionBinding) : CalculationExecutionBinding where
  calculationId := b.calculationId
  specChecksum := b.specChecksum
  parameters := b.parameters.map fun p => { p with value := p.value.reread }
  parameters_length := by
    rw [List.length_map]
    exact b.parameters_length
  parameters_unique := by
    rw [List.map_map]
    exact b.parameters_unique

end Nl2Sql
