import Nl2Sql.Calculation.Runtime
import Nl2Sql.Calculation.Spec

/-!
# Evaluating a calculation

`evaluate_calculation` of `semantic/calculation_runtime.py`: the expression of a spec under the values a binding gives to its
parameters, then the declared precision, once. The quantization stands inside the boundary that turns exceptions into codes.
-/

namespace Nl2Sql

open Py

/-- A bound value as the evaluator sees it. A binary float is no business number. -/
def ParameterValue.toPy : ParameterValue → PyValue
  | .str s => .str s
  | .bool b => .bool b
  | .int n => .int n
  | .float _ => .other
  | .decimal d => .decimal d

/-- `{item.name: item.value for item in binding.parameters}`, and nothing without a binding. -/
def boundParameters (binding : Option CalculationExecutionBinding) : Dict String PyValue :=
  match binding with
  | none => Dict.empty
  | some b => Dict.ofList (b.parameters.map fun p => (p.name.val, p.value.toPy))

/-- The value of an evaluation that succeeded and the precision applied to it. -/
structure EvaluationResult where
  value : Decimal
  precision : Option Precision
  deriving DecidableEq

/-- The declared precision and rounding of a spec, applied to an exact value; without a precision the value stays exact. -/
def applySpecPrecision (spec : CalculationSpec) (exact : Decimal) : EvalM EvaluationResult :=
  match spec.precision with
  | none => pure ⟨exact, none⟩
  | some precision => do
    let value ← applyPrecision exact precision (spec.rounding.getD .halfUp)
    pure ⟨value, some precision⟩

/-- `evaluate_calculation`. -/
def evaluateCalculation (spec : CalculationSpec) (inputs : Dict String PyValue) (binding : Option CalculationExecutionBinding) :
    Except RuntimeCode EvaluationResult := do
  requireBounded spec.expression
  evalBoundary ((evaluate inputs (boundParameters binding) spec.expression >>= applySpecPrecision spec).run [])

end Nl2Sql
