import Nl2Sql.Calculation.Spec

/-!
# The semantic check of a calculation

`CalculationSpec._validate_semantics` of `semantic/calculation_contract.py`. It runs once the fields of a spec have passed their own
checks: a draft is a spec of which no more than that is known. The checks come in the order of the source, and each raises a text.
-/

namespace Nl2Sql

open Py

/-- A spec whose fields have passed their own checks. -/
@[ext] structure CalculationDraft where
  calculationId : ContractId
  expression : Expression
  inputs : List CalculationInputSpec
  parameters : List ParameterSpec
  unit : UnitPolicy
  customUnitId : Option { s : String // isCustomUnitId s = true }
  precision : Option Precision
  rounding : Option Rounding
  inputs_length : 1 ≤ inputs.length ∧ inputs.length ≤ 32
  inputs_unique : (inputs.map (·.role)).Nodup
  parameters_length : parameters.length ≤ 32
  parameters_unique : (parameters.map (·.name)).Nodup

/-- The draft a spec was. -/
def CalculationSpec.draft (spec : CalculationSpec) : CalculationDraft where
  calculationId := spec.calculationId
  expression := spec.expression
  inputs := spec.inputs
  parameters := spec.parameters
  unit := spec.unit
  customUnitId := spec.customUnitId
  precision := spec.precision
  rounding := spec.rounding
  inputs_length := spec.inputs_length
  inputs_unique := spec.inputs_unique
  parameters_length := spec.parameters_length
  parameters_unique := spec.parameters_unique

/-- The text that the walks raise past their budget, and that the count of the nodes is checked under. -/
def nodeCountText : String := "calculation expression exceeds the bounded node count"

/-- The text that the depth is checked under. -/
def depthText : String := "calculation expression exceeds the bounded depth"

/-- What a walk returns, or the error it raises. -/
def orTooLarge {α : Type} : Option α → Except String α
  | some a => .ok a
  | none => .error nodeCountText

/-- A check that raises its text. -/
def valueErrorIf (p : Prop) [Decidable p] (text : String) : Except String Unit := if p then .error text else .ok ()

/-- `_validate_semantics`. -/
def CalculationDraft.validateSemantics (d : CalculationDraft) : Except String Unit := do
  let depth ← orTooLarge d.expression.depth
  valueErrorIf (maxExpressionDepth < depth) depthText
  let count ← orTooLarge d.expression.nodeCount
  valueErrorIf (maxExpressionNodes < count) nodeCountText
  let roles ← orTooLarge d.expression.referencedInputRoles
  valueErrorIf (¬∀ r ∈ roles, r ∈ d.inputs.map (·.role.val)) "expression references an undeclared input role"
  let names ← orTooLarge d.expression.referencedParameterNames
  valueErrorIf (¬∀ n ∈ names, n ∈ d.parameters.map (·.name.val)) "expression references an undeclared parameter"
  valueErrorIf (d.rounding.isSome = true ∧ ¬d.precision.isSome = true) "rounding requires an explicit precision"
  valueErrorIf (¬(d.unit = .customUnit ↔ d.customUnitId.isSome = true)) "custom_unit requires exactly one bounded custom_unit_id"
  valueErrorIf (∃ u ∈ d.customUnitId, u.val ∈ builtinUnitLiterals) "custom_unit_id must not shadow a built-in unit literal"

end Nl2Sql
