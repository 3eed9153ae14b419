import Nl2Sql.Plan.Contracts

/-!
# The typed-DAG validator

`ExecutionPlan.validate_typed_dag` of `contracts.py`, with the texts it raises. The steps are gone over once, each with its dependencies
first and its references then, and the loop that looks for a cycle comes last.
-/

namespace Nl2Sql

open Py

variable {D : CalculationDigests}

/-- What the validator raises at one step, where the ids of the plan are known. -/
def dagStepError (known : List String) (step : PlanStep D) : Option String :=
  let current := step.dependsOn.map (·.val)
  if step.stepId.val ∈ current then
    some "execution plan step cannot depend on itself"
  else
    match (sortedStr (current.filter (· ∉ known))).head? with
    | some unknown => some ("execution plan dependency is unknown: " ++ unknown)
    | none =>
      step.refs.findSome? fun ref =>
        if ref.root ∉ known then
          some ("execution plan input ref is unknown: " ++ ref.root)
        else if ref.root ∉ current then
          some ("execution plan input ref must be declared as a dependency: " ++ ref.root)
        else
          none

/-- `validate_typed_dag`. -/
def validateTypedDag (steps : List (PlanStep D)) : Except String Unit :=
  if ¬(steps.map (·.stepId)).Nodup then
    .error "execution plan step ids must be unique"
  else
    match steps.findSome? (dagStepError (steps.map (·.stepId.val))) with
    | some message => .error message
    | none => if dagLoop steps.length steps [] then .ok () else .error "execution plan dependencies contain a cycle"

end Nl2Sql
