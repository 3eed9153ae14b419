import Nl2Sql.Calculation.Runtime

/-!
# What an expression means

A reference semantics of the expression tree over the exact rationals, written without exceptions, decimals or precision: an
expression denotes a value, NULL or an error code, and a condition a truth value of Kleene's logic. Operands are taken from left
to right, so a NULL or an error on the left decides before the right operand is looked at. It knows nothing of the evaluator;
`Theorems.Calculation` compares the two.
-/

namespace Nl2Sql

open Py

/-- What an expression denotes: a value, NULL, or the code of an error. -/
inductive Denotation (α : Type) where
  | value (a : α)
  | null
  | error (code : RuntimeCode)
  deriving DecidableEq, Repr

namespace Denotation

variable {α β : Type}

/-- Strict sequencing: NULL and errors pass. -/
def bind (d : Denotation α) (f : α → Denotation β) : Denotation β :=
  match d with
  | .value a => f a
  | .null => .null
  | .error code => .error code

/-- NULL replaced by a value; a value and an error stay. -/
def orNull (d : Denotation α) (a : α) : Denotation α :=
  match d with
  | .null => .value a
  | d => d

/-- What a denotation is at the boundary: a NULL that nothing handled is an error of its own. -/
def atBoundary : Denotation α → Except RuntimeCode α
  | .value a => .ok a
  | .null => .error .resultNullUnsupported
  | .error code => .error code

end Denotation

/-- The meaning of the arithmetic operators: a division by zero is an error, never NULL. -/
def BinaryOperator.denote : BinaryOperator → ℚ → ℚ → Denotation ℚ
  | .add, a, b => .value (a + b)
  | .subtract, a, b => .value (a - b)
  | .multiply, a, b => .value (a * b)
  | .divide, a, b => if b = 0 then .error .undefinedDivisionByZero else .value (a / b)

/-- The meaning of the comparison operators. -/
def ComparisonOperator.denote : ComparisonOperator → ℚ → ℚ → Bool
  | .gt, a, b => decide (b < a)
  | .le, a, b => decide (a ≤ b)

/-- The meaning of a reference: a missing scalar and one that is no exact number are errors, None is NULL. -/
def denoteScalar (scalars : Dict String PyValue) (name : String) (missing notNumeric : RuntimeCode) : Denotation ℚ :=
  match scalars.get? name with
  | none => .error missing
  | some .none => .null
  | some value =>
    match coerceNumeric value notNumeric with
    | .ok d => .value d.toRat
    | .error code => .error code

section Denote

variable (inputs parameters : Dict String PyValue)

mutual

/-- The meaning of an expression. -/
def denote : Expression → Denotation ℚ
  | .literal value => .value value.toRat
  | .null => .null
  | .input role => denoteScalar inputs role .inputMissing .inputNotNumeric
  | .parameter name => denoteScalar parameters name .parameterMissing .parameterNotNumeric
  | .aggregate _ _ => .error .aggregateUnsupported
  | .binary op left right => (denote left).bind fun a => (denote right).bind fun b => op.denote a b
  | .round operand digits => (denote operand).bind fun a => .value (Decimal.roundHalfUp a digits)
  | .coalesce operand default => (denote operand).orNull default.toRat
  | .condition c =>
    (denoteCondition c).bind fun
      | .true => .value 1
      | .false => .value 0
      | .unknown => .null
  | .case whens otherwise => denoteWhens whens (denoteOtherwise otherwise)

/-- A missing ELSE is NULL. -/
def denoteOtherwise : Option Expression → Denotation ℚ
  | none => .null
  | some e => denote e

/-- CASE takes the first branch whose condition is TRUE; FALSE and UNKNOWN fall through alike. -/
def denoteWhens : List WhenBranch → Denotation ℚ → Denotation ℚ
  | [], otherwise => otherwise
  | .mk guard result :: rest, otherwise =>
    (denoteCondition guard).bind fun
      | .true => denote result
      | .false => denoteWhens rest otherwise
      | .unknown => denoteWhens rest otherwise

/-- The meaning of a condition: ALL and ANY are Kleene's conjunction and disjunction over all their conditions. -/
def denoteCondition : Condition → Denotation Kleene
  | .simple c => denoteSimple c
  | .all conditions => (denoteStates conditions).bind fun states => .value (Kleene.all states)
  | .any conditions => (denoteStates conditions).bind fun states => .value (Kleene.any states)

/-- The truth values of a list of conditions; the first error passes. -/
def denoteStates : List SimpleCondition → Denotation (List Kleene)
  | [] => .value []
  | c :: rest => (denoteSimple c).bind fun state => (denoteStates rest).bind fun states => .value (state :: states)

/-- A comparison is UNKNOWN with a NULL operand; a null test is never UNKNOWN. -/
def denoteSimple : SimpleCondition → Denotation Kleene
  | .compare operator left right =>
    ((denote left).bind fun a => (denote right).bind fun b => .value (Kleene.ofBool (operator.denote a b))).orNull .unknown
  | .nullTest .isNull operand => ((denote operand).bind fun _ => .value Kleene.false).orNull .true
  | .nullTest .isNotNull operand => ((denote operand).bind fun _ => .value Kleene.true).orNull .false

end

end Denote

/-- An operation that neither rounds, underflows nor overflows at 64 digits: its exact result is a number of the working context.
Quantizing rounds to the places it was asked for, and its result has at most 64 digits. -/
def DecimalOp.Exact : DecimalOp → Prop
  | .add a b => Fits exactContext (a.toRat + b.toRat)
  | .sub a b => Fits exactContext (a.toRat - b.toRat)
  | .mul a b => Fits exactContext (a.toRat * b.toRat)
  | .div a b => Fits exactContext (a.toRat / b.toRat)
  | .quantize mode d places => (Decimal.rescale mode d (-(places : Int))).coeff < 10 ^ exactContext.prec

end Nl2Sql
