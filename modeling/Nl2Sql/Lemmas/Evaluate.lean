import Nl2Sql.Calculation.Runtime

/-!
# How an evaluation ends

The value of an expression, or what it raises, does not depend on the decimal operations performed before. So an evaluation of several
operands ends as its parts do, each run on its own.
-/

namespace Nl2Sql

open Py

/-- Strict sequencing of endings: NULL and failures pass. -/
def Ending.bind {α β : Type} (e : Ending α) (f : α → Ending β) : Ending β :=
  match e with
  | .value a => f a
  | .null => .null
  | .raised => .raised

/-- NULL replaced by a value. -/
def Ending.orNull {α : Type} (e : Ending α) (a : α) : Ending α :=
  match e with
  | .null => .value a
  | e => e

namespace EvaluateAux

variable {α β : Type}

/-- An operation ends with its result. -/
theorem outcome_perform (op : DecimalOp) (ops : List DecimalOp) :
    outcome ((perform op).run ops) =
      match op.result with
      | .ok d => .ok d
      | .error signal => .error (.decimal signal) := by
  unfold perform
  rw [EStateM.run_bind, EStateM.run_modify]
  cases op.result <;> rfl

theorem uniform_perform (op : DecimalOp) : Uniform (perform op) := by
  intro ops ops'
  rw [outcome_perform, outcome_perform]

theorem uniform_catchNull {m : EvalM α} (hm : Uniform m) (a : α) : Uniform (catchNull m a) := by
  refine Uniform.tryCatch hm fun e => ?_
  cases e with
  | null => exact Uniform.pure a
  | runtime code => exact Uniform.throw _
  | decimal signal => exact Uniform.throw _

theorem uniform_coerced (r : Except RuntimeCode Decimal) :
    Uniform (match r with | .ok d => pure d | .error code => throw (.runtime code) : EvalM Decimal) := by
  cases r with
  | ok d => exact Uniform.pure d
  | error code => exact Uniform.throw _

theorem uniform_resolveScalar (scalars : Dict String PyValue) (name : String) (missing notNumeric : RuntimeCode) :
    Uniform (resolveScalar scalars name missing notNumeric) := by
  unfold resolveScalar
  cases scalars.get? name with
  | none => exact Uniform.throw _
  | some value =>
    cases value with
    | none => exact Uniform.throw _
    | bool b => exact uniform_coerced (coerceNumeric (.bool b) notNumeric)
    | int n => exact uniform_coerced (coerceNumeric (.int n) notNumeric)
    | decimal d => exact uniform_coerced (coerceNumeric (.decimal d) notNumeric)
    | nonFiniteDecimal => exact uniform_coerced (coerceNumeric .nonFiniteDecimal notNumeric)
    | str s => exact uniform_coerced (coerceNumeric (.str s) notNumeric)
    | other => exact uniform_coerced (coerceNumeric .other notNumeric)

theorem uniform_applyBinary (op : BinaryOperator) (l r : Decimal) : Uniform (applyBinary op l r) := by
  cases op with
  | add => exact uniform_perform _
  | subtract => exact uniform_perform _
  | multiply => exact uniform_perform _
  | divide =>
    simp only [applyBinary]
    split
    · exact Uniform.throw _
    · exact uniform_perform _

section Tree

variable (inputs parameters : Dict String PyValue)

mutual

theorem uniform_evaluate (e : Expression) : Uniform (evaluate inputs parameters e) := by
  match e with
  | .literal value =>
    rw [evaluate]
    exact Uniform.pure _
  | .null =>
    rw [evaluate]
    exact Uniform.throw _
  | .input role =>
    rw [evaluate]
    exact uniform_resolveScalar _ _ _ _
  | .parameter name =>
    rw [evaluate]
    exact uniform_resolveScalar _ _ _ _
  | .aggregate _ _ =>
    rw [evaluate]
    exact Uniform.throw _
  | .round operand digits =>
    rw [evaluate]
    exact Uniform.bind (uniform_evaluate operand) fun d => uniform_perform _
  | .coalesce operand default =>
    rw [evaluate]
    exact uniform_catchNull (uniform_evaluate operand) default
  | .condition c =>
    rw [evaluate]
    refine Uniform.bind (uniform_condition c) fun state => ?_
    cases state with
    | unknown => exact Uniform.throw _
    | true => exact Uniform.pure _
    | false => exact Uniform.pure _
  | .case whens otherwise =>
    rw [evaluate]
    exact uniform_whens whens (uniform_otherwise otherwise)
  | .binary op left right =>
    rw [evaluate]
    exact Uniform.bind (uniform_evaluate left) fun l => Uniform.bind (uniform_evaluate right) fun r => uniform_applyBinary op l r

theorem uniform_otherwise (o : Option Expression) : Uniform (evaluateOtherwise inputs parameters o) := by
  match o with
  | none =>
    rw [evaluateOtherwise]
    exact Uniform.throw _
  | some e =>
    rw [evaluateOtherwise]
    exact uniform_evaluate e

theorem uniform_whens (whens : List WhenBranch) {m : EvalM Decimal} (hm : Uniform m) :
    Uniform (evaluateWhens inputs parameters whens m) := by
  match whens with
  | [] =>
    rw [evaluateWhens]
    exact hm
  | .mk guard result :: rest =>
    rw [evaluateWhens]
    refine Uniform.bind (uniform_condition guard) fun state => ?_
    split
    · exact uniform_evaluate result
    · exact uniform_whens rest hm

theorem uniform_condition (c : Condition) : Uniform (condition inputs parameters c) := by
  match c with
  | .simple c =>
    rw [condition]
    exact uniform_simple c
  | .all conditions =>
    rw [condition]
    refine Uniform.bind (uniform_states conditions) fun states => ?_
    split
    · exact Uniform.pure _
    · exact Uniform.pure _
  | .any conditions =>
    rw [condition]
    refine Uniform.bind (uniform_states conditions) fun states => ?_
    split
    · exact Uniform.pure _
    · exact Uniform.pure _

theorem uniform_states (cs : List SimpleCondition) : Uniform (conditionStates inputs parameters cs) := by
  match cs with
  | [] =>
    rw [conditionStates]
    exact Uniform.pure _
  | c :: rest =>
    rw [conditionStates]
    exact Uniform.bind (uniform_simple c) fun state => Uniform.bind (uniform_states rest) fun states => Uniform.pure _

theorem uniform_simple (c : SimpleCondition) : Uniform (simpleCondition inputs parameters c) := by
  match c with
  | .compare operator left right =>
    rw [simpleCondition]
    exact uniform_catchNull
      (Uniform.bind (uniform_evaluate left) fun l => Uniform.bind (uniform_evaluate right) fun r => Uniform.pure _) _
  | .nullTest operator operand =>
    rw [simpleCondition]
    refine Uniform.bind (uniform_catchNull (Uniform.bind (uniform_evaluate operand) fun _ => Uniform.pure _) _) fun isNull => ?_
    cases operator with
    | isNull => exact Uniform.pure _
    | isNotNull => exact Uniform.pure _

end

end Tree

/-! ## Endings of the combinators -/

theorem ofOutcome_bind (r : Except EvalError α) (f : α → Except EvalError β) :
    Ending.ofOutcome (r.bind f) = (Ending.ofOutcome r).bind fun a => .ofOutcome (f a) := by
  cases r with
  | ok a => rfl
  | error e => cases e <;> rfl

theorem ending_bind {m : EvalM α} {f : α → EvalM β} (hf : ∀ a, Uniform (f a)) :
    ending (m >>= f) = (ending m).bind fun a => ending (f a) := by
  rw [ending, outcome_bind hf [] [], ofOutcome_bind]
  rfl

theorem ending_catchNull (m : EvalM α) (a : α) : ending (catchNull m a) = (ending m).orNull a := by
  unfold ending catchNull
  rw [run_tryCatch]
  cases m.run [] with
  | ok b t => rfl
  | error e t => cases e <;> rfl

end EvaluateAux

end Nl2Sql
