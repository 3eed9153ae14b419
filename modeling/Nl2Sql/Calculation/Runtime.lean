import Nl2Sql.Calculation.Contract
import Nl2Sql.Lib.DecimalExact
import Nl2Sql.Lib.Kleene
import Nl2Sql.Lib.Method

/-!
# The calculation runtime

`semantic/calculation_runtime.py`: the pure evaluator of expression trees. Evaluation is a program that may raise: a NULL operand
is an exception that COALESCE, the null tests, the comparisons and CASE intercept, a runtime error carries a stable code, and a
decimal operation may raise the signal its context traps. The state of the program is the list of the decimal operations it has
performed, which is what the statements about exact evaluation speak of; the value computed does not depend on it.
-/

namespace Nl2Sql

open Py

/-- The codes of `CalculationRuntimeError` this module raises. -/
inductive RuntimeCode where
  | inputMissing | inputNotNumeric | parameterMissing | parameterNotNumeric | aggregateUnsupported
  | undefinedDivisionByZero | undefined | numericOutOfRange | expressionTooDeep | expressionTooLarge | resultNullUnsupported
  deriving DecidableEq, Repr

/-- The text of a code: the contract of the error. -/
def RuntimeCode.text : RuntimeCode → String
  | .inputMissing => "calculation_input_missing"
  | .inputNotNumeric => "calculation_input_not_numeric"
  | .parameterMissing => "calculation_parameter_missing"
  | .parameterNotNumeric => "calculation_parameter_not_numeric"
  | .aggregateUnsupported => "calculation_aggregate_unsupported"
  | .undefinedDivisionByZero => "calculation_undefined_division_by_zero"
  | .undefined => "calculation_undefined"
  | .numericOutOfRange => "calculation_numeric_out_of_range"
  | .expressionTooDeep => "calculation_expression_too_deep"
  | .expressionTooLarge => "calculation_expression_too_large"
  | .resultNullUnsupported => "calculation_result_null_unsupported"

/-- A resolved scalar, as the evaluator tells scalars apart: a decimal is finite or not, and whatever is no decimal, integer,
boolean, text or None (a binary float, a list, a mapping) is `other`. -/
inductive PyValue where
  | none
  | bool (b : Bool)
  | int (n : Int)
  | decimal (d : Decimal)
  | nonFiniteDecimal
  | str (s : String)
  | other
  deriving DecidableEq, Repr

theorem exact_emin : (-999999 : Int) ≤ 0 := by decide

theorem exact_emax : (0 : Int) ≤ 999999 := by decide

/-- The working context: 64 digits, and the exponent range of Python's default context. -/
def exactContext : DecimalContext := ⟨64, -999999, 999999, by decide, exact_emin, exact_emax⟩

/-- `_coerce_numeric`: the exact finite decimal a scalar stands for, or the code given. -/
def coerceNumeric (value : PyValue) (code : RuntimeCode) : Except RuntimeCode Decimal :=
  match value with
  | .bool _ => .error code
  | .decimal d => .ok d
  | .int n => .ok (Decimal.ofInt n)
  | .str s =>
    if strip s = "" then
      .error code
    else
      match Decimal.ofString? (strip s) with
      | some d => .ok d
      | none => .error code
  | .nonFiniteDecimal => .error code
  | .none => .error code
  | .other => .error code

/-- `_decimal_error_code`. -/
def decimalErrorCode : DecimalSignal → RuntimeCode
  | .divisionByZero => .undefinedDivisionByZero
  | .invalidOperation => .undefined
  | .overflow => .numericOutOfRange

/-- `_require_bounded`: the bounds of the contract, for a raw tree. -/
def requireBounded (e : Expression) : Except RuntimeCode Unit :=
  match e.depth with
  | none => .error .expressionTooLarge
  | some depth =>
    if maxExpressionDepth < depth then
      .error .expressionTooDeep
    else
      match e.nodeCount with
      | none => .error .expressionTooLarge
      | some count => if maxExpressionNodes < count then .error .expressionTooLarge else .ok ()

/-- The decimal operations the evaluator performs. A comparison is exact in every context and is not one of them. -/
inductive DecimalOp where
  | add (a b : Decimal)
  | sub (a b : Decimal)
  | mul (a b : Decimal)
  | div (a b : Decimal)
  | quantize (mode : Rounding) (d : Decimal) (places : Nat)
  deriving DecidableEq, Repr

/-- What an operation returns or raises in the working context. -/
def DecimalOp.result : DecimalOp → Except DecimalSignal Decimal
  | .add a b => Decimal.add exactContext a b
  | .sub a b => Decimal.sub exactContext a b
  | .mul a b => Decimal.mul exactContext a b
  | .div a b => Decimal.div exactContext a b
  | .quantize mode d places => Decimal.quantize exactContext mode d (-(places : Int))

/-- What evaluation may raise. -/
inductive EvalError where
  | null
  | runtime (code : RuntimeCode)
  | decimal (signal : DecimalSignal)
  deriving DecidableEq, Repr

/-- An evaluation: it may raise, and it keeps the decimal operations performed, the latest last. -/
abbrev EvalM : Type → Type := EStateM EvalError (List DecimalOp)

/-- Perform one decimal operation. -/
def perform (op : DecimalOp) : EvalM Decimal := do
  modify (· ++ [op])
  match op.result with
  | .ok d => pure d
  | .error signal => throw (.decimal signal)

/-- `_apply_precision`: the declared decimal places, applied once. -/
def applyPrecision (value : Decimal) (precision : Precision) (rounding : Rounding) : EvalM Decimal :=
  perform (.quantize rounding value precision)

/-- A reference to a resolved scalar: missing, NULL, or coerced. -/
def resolveScalar (scalars : Dict String PyValue) (name : String) (missing notNumeric : RuntimeCode) : EvalM Decimal :=
  match scalars.get? name with
  | none => throw (.runtime missing)
  | some .none => throw .null
  | some value =>
    match coerceNumeric value notNumeric with
    | .ok d => pure d
    | .error code => throw (.runtime code)

/-- The arithmetic of a binary operand; an exact zero denominator is an error of its own. -/
def applyBinary : BinaryOperator → Decimal → Decimal → EvalM Decimal
  | .add, left, right => perform (.add left right)
  | .subtract, left, right => perform (.sub left right)
  | .multiply, left, right => perform (.mul left right)
  | .divide, left, right =>
    if right.isZero then throw (.runtime .undefinedDivisionByZero) else perform (.div left right)

/-- The order tests of a comparison. -/
def ComparisonOperator.matched : ComparisonOperator → Decimal → Decimal → Bool
  | .gt, left, right => Decimal.lt right left
  | .le, left, right => Decimal.le left right

/-- Run `m`; a NULL raised in it gives `onNull` instead, and every other exception passes. -/
def catchNull {α : Type} (m : EvalM α) (onNull : α) : EvalM α :=
  tryCatch m fun
    | .null => pure onNull
    | e => throw e

section Evaluate

variable (inputs parameters : Dict String PyValue)

mutual

/-- `_evaluate`. -/
def evaluate : Expression → EvalM Decimal
  | .literal value => pure value
  | .null => throw .null
  | .input role => resolveScalar inputs role .inputMissing .inputNotNumeric
  | .parameter name => resolveScalar parameters name .parameterMissing .parameterNotNumeric
  | .aggregate _ _ => throw (.runtime .aggregateUnsupported)
  | .round operand digits => do
    let inner ← evaluate operand
    applyPrecision inner digits .halfUp
  | .coalesce operand default => catchNull (evaluate operand) default
  | .condition c => do
    match ← condition c with
    | .unknown => throw .null
    | .true => pure (Decimal.ofInt 1)
    | .false => pure (Decimal.ofInt 0)
  | .case whens otherwise => evaluateWhens whens (evaluateOtherwise otherwise)
  | .binary op left right => do
    let l ← evaluate left
    let r ← evaluate right
    applyBinary op l r

/-- The ELSE of a CASE: an absent one is NULL. -/
def evaluateOtherwise : Option Expression → EvalM Decimal
  | none => throw .null
  | some e => evaluate e

/-- The branches of a CASE: the first whose condition is TRUE is evaluated, and no other. -/
def evaluateWhens : List WhenBranch → EvalM Decimal → EvalM Decimal
  | [], otherwise => otherwise
  | .mk guard result :: rest, otherwise => do
    if (← condition guard) = .true then
      evaluate result
    else
      evaluateWhens rest otherwise

/-- `_condition`. Every condition of ALL and ANY is evaluated before the result is decided. -/
def condition : Condition → EvalM Kleene
  | .simple c => simpleCondition c
  | .all conditions => do
    let states ← conditionStates conditions
    if Kleene.false ∈ states then
      pure .false
    else
      pure (if Kleene.unknown ∈ states then .unknown else .true)
  | .any conditions => do
    let states ← conditionStates conditions
    if Kleene.true ∈ states then
      pure .true
    else
      pure (if Kleene.unknown ∈ states then .unknown else .false)

/-- The states of the conditions of ALL and ANY, in order. -/
def conditionStates : List SimpleCondition → EvalM (List Kleene)
  | [] => pure []
  | c :: rest => do
    let state ← simpleCondition c
    let states ← conditionStates rest
    pure (state :: states)

/-- `_condition` of a comparison or a null test. A comparison with NULL is UNKNOWN. -/
def simpleCondition : SimpleCondition → EvalM Kleene
  | .nullTest operator operand => do
    let isNull ← catchNull (do let _ ← evaluate operand; pure false) true
    match operator with
    | .isNull => pure (Kleene.ofBool isNull)
    | .isNotNull => pure (Kleene.ofBool !isNull)
  | .compare operator left right =>
    catchNull
      (do
        let l ← evaluate left
        let r ← evaluate right
        pure (Kleene.ofBool (operator.matched l r)))
      .unknown

end

end Evaluate

/-- How an evaluation ends at the boundary of an entry point: NULL and the decimal signals become codes. -/
def evalBoundary {α : Type} : EStateM.Result EvalError (List DecimalOp) α → Except RuntimeCode α
  | .ok a _ => .ok a
  | .error .null _ => .error .resultNullUnsupported
  | .error (.runtime code) _ => .error code
  | .error (.decimal signal) _ => .error (decimalErrorCode signal)

/-- `evaluate_expression`. -/
def evaluateExpression (e : Expression) (inputs parameters : Dict String PyValue) : Except RuntimeCode Decimal := do
  requireBounded e
  evalBoundary ((evaluate inputs parameters e).run [])

/-- The decimal operations that evaluating a tree performs. -/
def decimalOps (e : Expression) (inputs parameters : Dict String PyValue) : List DecimalOp :=
  match (evaluate inputs parameters e).run [] with
  | .ok _ ops => ops
  | .error _ ops => ops

/-- How an evaluation ends: with a value, with NULL, or with an exception that is a failure. -/
inductive Ending (α : Type) where
  | value (a : α)
  | null
  | raised
  deriving DecidableEq, Repr

/-- Every exception but NULL is a failure. -/
def Ending.ofOutcome {α : Type} : Except EvalError α → Ending α
  | .ok a => .value a
  | .error .null => .null
  | .error _ => .raised

/-- How an evaluation ends. -/
def ending {α : Type} (m : EvalM α) : Ending α := .ofOutcome (outcome (m.run []))

end Nl2Sql
