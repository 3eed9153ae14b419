import Nl2Sql.Lib.Decimal
import Nl2Sql.Budget

/-!
# The calculation contract

`semantic/calculation_contract.py`: the bounded expression tree, the reusable calculation spec with its declared inputs and
parameters, and the per-run binding of parameter values. The tree is typed as the contract types it: a condition of ALL and ANY
is a comparison or a null test, and a CASE branch is guarded by a condition.
-/

namespace Nl2Sql

open Py

/-- The pattern of a role or a parameter name: `^[A-Za-z_][A-Za-z0-9_]{0,63}$`. -/
def isRoleName (s : String) : Bool :=
  matchesName (fun c => isLowerAscii c || isUpperAscii c || c == '_')
    (fun c => isLowerAscii c || isUpperAscii c || isDigitAscii c || c == '_') 63 s

/-- The pattern of a calculation id: `^[a-z][a-z0-9_.-]{0,127}$`. -/
def isContractId (s : String) : Bool :=
  matchesName isLowerAscii (fun c => isLowerAscii c || isDigitAscii c || c == '_' || c == '.' || c == '-') 127 s

/-- The name of an input role. -/
abbrev RoleName : Type := { s : String // isRoleName s = true }

instance RoleName.lawfulBEq : LawfulBEq RoleName := inferInstance

/-- The name of a parameter. -/
abbrev ParameterName : Type := { s : String // isRoleName s = true }

/-- The identifier of a calculation, a template or a source. -/
abbrev ContractId : Type := { s : String // isContractId s = true }

/-- A number of decimal places: 0 to 12. -/
abbrev Precision : Type := Fin 13

inductive AggregateFunction where
  | sum | count | countDistinct | min | max | avg
  deriving DecidableEq, Repr

inductive BinaryOperator where
  | add | subtract | multiply | divide
  deriving DecidableEq, Repr

inductive ComparisonOperator where
  | gt | le
  deriving DecidableEq, Repr

inductive NullTestOperator where
  | isNull | isNotNull
  deriving DecidableEq, Repr

mutual

/-- The expression tree. The four operands that are conditions stand under `condition`. -/
inductive Expression where
  | literal (value : Decimal)
  | null
  | input (role : RoleName)
  | parameter (name : ParameterName)
  | aggregate (function : AggregateFunction) (role : RoleName)
  | binary (op : BinaryOperator) (left right : Expression)
  | condition (c : Condition)
  | coalesce (operand : Expression) (default : Decimal)
  | round (operand : Expression) (digits : Precision)
  | case (whens : List WhenBranch) (otherwise : Option Expression)

/-- A comparison or a null test. -/
inductive SimpleCondition where
  | compare (operator : ComparisonOperator) (left right : Expression)
  | nullTest (operator : NullTestOperator) (operand : Expression)

/-- What may guard a CASE branch. -/
inductive Condition where
  | simple (c : SimpleCondition)
  | all (conditions : List SimpleCondition)
  | any (conditions : List SimpleCondition)

/-- One CASE branch: a condition and its result. -/
inductive WhenBranch where
  | mk (condition : Condition) (result : Expression)

end

/-! ## The bounded walks over a tree -/

def maxExpressionDepth : Nat := 16

def maxExpressionNodes : Nat := 64

/-- The condition of a CASE branch. -/
def WhenBranch.condition : WhenBranch → Condition
  | .mk c _ => c

/-- The result of a CASE branch. -/
def WhenBranch.result : WhenBranch → Expression
  | .mk _ e => e

/-- `_children`: every direct child of a node, in the order the walks visit them. -/
def Expression.children : Expression → List Expression
  | .binary _ left right => [left, right]
  | .condition (.simple (.compare _ left right)) => [left, right]
  | .condition (.simple (.nullTest _ operand)) => [operand]
  | .condition (.all conditions) => conditions.map fun c => .condition (.simple c)
  | .condition (.any conditions) => conditions.map fun c => .condition (.simple c)
  | .coalesce operand _ => [operand]
  | .round operand _ => [operand]
  | .case whens otherwise => whens.map (fun b => .condition b.condition) ++ whens.map (·.result) ++ otherwise.toList
  | _ => []

/-- The loop of `_walk`: at most `budget` nodes more; none where the walk raises. The stack's top is its head. -/
def walkLoop : Nat → List Expression → Option (List Expression)
  | _, [] => some []
  | 0, _ :: _ => none
  | budget + 1, node :: stack => (walkLoop budget (node.children ++ stack)).map (node :: ·)

/-- `_walk`: the nodes in depth-first order, of a tree of at most `maxExpressionNodes` nodes. -/
def Expression.walk (e : Expression) : Option (List Expression) := walkLoop maxExpressionNodes [e]

/-- The loop of `expression_depth`. -/
def depthLoop : Nat → List (Expression × Nat) → Nat → Option Nat
  | _, [], best => some best
  | 0, _ :: _, _ => none
  | budget + 1, (node, depth) :: stack, best =>
    depthLoop budget ((node.children.map fun child => (child, depth + 1)).reverse ++ stack) (max best depth)

/-- `expression_depth`: the longest path of a tree of at most `maxExpressionNodes` nodes. -/
def Expression.depth (e : Expression) : Option Nat := depthLoop maxExpressionNodes [(e, 1)] 0

/-- `expression_node_count`. -/
def Expression.nodeCount (e : Expression) : Option Nat := e.walk.map List.length

/-- The role a node refers to, if it refers to one. -/
def Expression.role? : Expression → Option String
  | .input role => some role
  | .aggregate _ role => some role
  | _ => none

/-- The parameter a node refers to, if it refers to one. -/
def Expression.parameter? : Expression → Option String
  | .parameter name => some name
  | _ => none

/-- `referenced_input_roles`, of a tree the walk does not reject. -/
def Expression.referencedInputRoles (e : Expression) : Option (List String) :=
  e.walk.map fun nodes => fromKeys (nodes.filterMap Expression.role?)

/-- `referenced_parameter_names`. -/
def Expression.referencedParameterNames (e : Expression) : Option (List String) :=
  e.walk.map fun nodes => fromKeys (nodes.filterMap Expression.parameter?)

end Nl2Sql
