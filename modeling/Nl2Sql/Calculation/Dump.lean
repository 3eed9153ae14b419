import Nl2Sql.Calculation.Spec
import Nl2Sql.Lib.JsonRead

/-!
# The JSON form of a calculation

`model_dump(mode="json")` and `model_validate` of the models of `semantic/calculation_contract.py`. A decimal is dumped as its text. An
expression in value position is read by its `op`; the conditions of CASE, ALL and ANY are read by the members of their union in order, and
a member refuses an `op` that is not its own. What a validator makes of a value whose JSON type is not the field's own comes from outside.
-/

namespace Nl2Sql

open Py Json

/-- What validation makes of a value of another JSON type than the field's. -/
structure Coercions where
  bool : Json → Option Bool
  int : Json → Option Int
  decimal : Json → Option Decimal

/-! ## Closed vocabularies -/

def AggregateFunction.literals : List (String × AggregateFunction) :=
  [("sum", .sum), ("count", .count), ("count_distinct", .countDistinct), ("min", .min), ("max", .max), ("avg", .avg)]

def BinaryOperator.literals : List (String × BinaryOperator) :=
  [("add", .add), ("subtract", .subtract), ("multiply", .multiply), ("divide", .divide)]

def ComparisonOperator.literals : List (String × ComparisonOperator) := [("gt", .gt), ("le", .le)]

def NullTestOperator.literals : List (String × NullTestOperator) := [("is_null", .isNull), ("is_not_null", .isNotNull)]

def UnitPolicy.literals : List (String × UnitPolicy) :=
  [("count", .count), ("percent", .percent), ("ratio", .ratio), ("currency_cny", .currencyCny), ("seconds", .seconds),
    ("custom_unit", .customUnit)]

def roundingLiterals : List (String × Rounding) :=
  [("half_up", .halfUp), ("half_even", .halfEven), ("half_down", .halfDown), ("floor", .floor), ("ceil", .ceiling)]

def ParameterValueType.literals : List (String × ParameterValueType) :=
  [("string", .string), ("integer", .integer), ("decimal", .decimal), ("date", .date), ("boolean", .boolean)]

def InputProvenance.literals : List (String × InputProvenance) :=
  [("published_gold", .publishedGold), ("definition_backed_computed", .definitionBackedComputed),
    ("product_published_state", .productPublishedState), ("ad_hoc_metric", .adHocMetric)]

/-- The text of a value of a vocabulary. -/
def literalText {α : Type} [DecidableEq α] (table : List (String × α)) (x : α) : String :=
  ((table.find? fun entry => entry.2 = x).map Prod.fst).getD ""

/-! ## Dumping -/

section Dump

variable (write : Decimal → String)

/-- The dump of a `LiteralOperand`, for a way of writing its decimal. -/
def literalDump (value : Decimal) : Json := .obj [("op", .str "literal"), ("value", .str (write value))]

mutual

/-- The dump of an expression. -/
def Expression.dump : Expression → Json
  | .literal value => literalDump write value
  | .null => .obj [("op", .str "null")]
  | .input role => .obj [("op", .str "input"), ("role", .str role.val)]
  | .parameter name => .obj [("op", .str "parameter"), ("name", .str name.val)]
  | .aggregate function role =>
    .obj [("op", .str "aggregate"), ("function", .str (literalText AggregateFunction.literals function)), ("role", .str role.val)]
  | .binary op left right => .obj [("op", .str (literalText BinaryOperator.literals op)), ("left", left.dump), ("right", right.dump)]
  | .condition c => c.dump
  | .coalesce operand default => .obj [("op", .str "coalesce"), ("operand", operand.dump), ("default", literalDump write default)]
  | .round operand digits => .obj [("op", .str "round"), ("operand", operand.dump), ("digits", .int digits.val)]
  | .case whens otherwise => .obj [("op", .str "case"), ("whens", .arr (whensDump whens)), ("otherwise", otherwiseDump otherwise)]

/-- A missing ELSE is dumped as null. -/
def otherwiseDump : Option Expression → Json
  | none => .null
  | some e => e.dump

def whensDump : List WhenBranch → List Json
  | [] => []
  | branch :: rest => branch.dump :: whensDump rest

def WhenBranch.dump : WhenBranch → Json
  | .mk condition result => .obj [("condition", condition.dump), ("then", result.dump)]

def Condition.dump : Condition → Json
  | .simple c => c.dump
  | .all conditions => .obj [("op", .str "all"), ("conditions", .arr (conditionsDump conditions))]
  | .any conditions => .obj [("op", .str "any"), ("conditions", .arr (conditionsDump conditions))]

def conditionsDump : List SimpleCondition → List Json
  | [] => []
  | c :: rest => c.dump :: conditionsDump rest

def SimpleCondition.dump : SimpleCondition → Json
  | .compare operator left right =>
    .obj [("op", .str "compare"), ("operator", .str (literalText ComparisonOperator.literals operator)), ("left", left.dump),
      ("right", right.dump)]
  | .nullTest operator operand =>
    .obj [("op", .str "null_test"), ("operator", .str (literalText NullTestOperator.literals operator)), ("operand", operand.dump)]

end

/-- The dump of a field that may be null. -/
def nullableToJson {α : Type} (write : α → Json) : Option α → Json
  | none => .null
  | some x => write x

def CalculationInputSpec.toJson (input : CalculationInputSpec) : Json :=
  .obj [("role", .str input.role.val), ("provenance", .str (literalText InputProvenance.literals input.provenance)),
    ("metric_key", nullableToJson (fun key => .str key.val) input.metricKey), ("required", .bool input.required)]

def ParameterSpec.toJson (parameter : ParameterSpec) : Json :=
  .obj [("name", .str parameter.name.val), ("value_type", .str (literalText ParameterValueType.literals parameter.valueType)),
    ("required", .bool parameter.required), ("allowed_values", .arr (parameter.allowedValues.map .str)),
    ("description", nullableToJson (fun text => .str text.val) parameter.description)]

def CalculationSpec.dump (spec : CalculationSpec) : Json :=
  .obj [("schema_version", .str "1.1"), ("calculation_id", .str spec.calculationId.val), ("expression", spec.expression.dump write),
    ("inputs", .arr (spec.inputs.map CalculationInputSpec.toJson)), ("parameters", .arr (spec.parameters.map ParameterSpec.toJson)),
    ("unit", .str (literalText UnitPolicy.literals spec.unit)), ("custom_unit_id", nullableToJson (fun u => .str u.val) spec.customUnitId),
    ("precision", nullableToJson (fun p => .int p.val) spec.precision),
    ("rounding", nullableToJson (fun r => .str (literalText roundingLiterals r)) spec.rounding)]

end Dump

/-- `model_dump(mode="json")` of an expression. -/
def Expression.toJson (e : Expression) : Json := e.dump Decimal.toStr

/-- `model_dump(mode="json")` of a spec. -/
def CalculationSpec.toJson (spec : CalculationSpec) : Json := spec.dump Decimal.toStr

/-- `_checksum(self.model_dump(mode="json"))`. -/
def CalculationSpec.dumpChecksum (sha256 : String → Sha256) (spec : CalculationSpec) : Sha256 := sha256 spec.toJson.dumps

/-! ## Validating -/

/-- A text that matches a pattern. -/
def readPattern (p : String → Bool) (j : Json) : Option { s : String // p s = true } :=
  j.text?.bind fun s => if h : p s = true then some ⟨s, h⟩ else none

/-- A text of bounded length. -/
def readBounded (low high : Nat) (j : Json) : Option (BoundedText low high) :=
  j.text?.bind fun s => if h : low ≤ s.length ∧ s.length ≤ high then some ⟨s, h⟩ else none

/-- A field that may be left out. -/
def readDefault {α : Type} (default : α) (read : Json → Option α) : Option Json → Option α
  | none => some default
  | some j => read j

/-- An array of at least `low` and at most `high` items. -/
def readItems {α : Type} (low high : Nat) (read : Json → Option α) (j : Json) : Option (List α) :=
  j.items?.bind fun items => if low ≤ items.length ∧ items.length ≤ high then items.mapM read else none

/-- The `op` of a model: its own, or left out. -/
def opIs (op : String) (members : List (String × Json)) : Bool :=
  match member? "op" members with
  | none => true
  | some j => j.text? == some op

section Coerce

variable (co : Coercions)

def readBool : Json → Option Bool
  | .bool b => some b
  | j => co.bool j

/-- An integer from 0 to 12. -/
def readPrecision (j : Json) : Option Precision :=
  (match j with
    | .int n => some n
    | j => co.int j).bind fun n => if h : 0 ≤ n ∧ n ≤ 12 then some ⟨n.toNat, by omega⟩ else none

/-- A finite decimal: a text is read by `Decimal`. -/
def readDecimal : Json → Option Decimal
  | .str s => Decimal.ofString? s
  | j => co.decimal j

/-- `LiteralOperand`. -/
def readLiteral (j : Json) : Option Decimal := do
  let members ← fields? ["op", "value"] j
  if opIs "literal" members then readDecimal co (← member? "value" members) else none

variable (expression : Json → Option Expression)

/-- `CompareOperand`. -/
def readCompare (j : Json) : Option SimpleCondition := do
  let members ← fields? ["op", "operator", "left", "right"] j
  if opIs "compare" members then
    return .compare (← literal? ComparisonOperator.literals (← member? "operator" members)) (← expression (← member? "left" members))
      (← expression (← member? "right" members))
  else none

/-- `NullTestOperand`. -/
def readNullTest (j : Json) : Option SimpleCondition := do
  let members ← fields? ["op", "operator", "operand"] j
  if opIs "null_test" members then
    return .nullTest (← literal? NullTestOperator.literals (← member? "operator" members)) (← expression (← member? "operand" members))
  else none

/-- `CompareOperand | NullTestOperand`. -/
def readSimple (j : Json) : Option SimpleCondition := (readCompare expression j).or (readNullTest expression j)

/-- `AllOperand`. -/
def readAll (j : Json) : Option Condition := do
  let members ← fields? ["op", "conditions"] j
  if opIs "all" members then return .all (← readItems 1 8 (readSimple expression) (← member? "conditions" members)) else none

/-- `AnyOperand`. -/
def readAny (j : Json) : Option Condition := do
  let members ← fields? ["op", "conditions"] j
  if opIs "any" members then return .any (← readItems 1 8 (readSimple expression) (← member? "conditions" members)) else none

/-- `CompareOperand | NullTestOperand | AllOperand | AnyOperand`. -/
def readGuard (j : Json) : Option Condition :=
  ((readCompare expression j).map .simple).or (((readNullTest expression j).map .simple).or
    ((readAll expression j).or (readAny expression j)))

/-- `WhenBranch`. -/
def readBranch (j : Json) : Option WhenBranch := do
  let members ← fields? ["condition", "then"] j
  return .mk (← readGuard expression (← member? "condition" members)) (← expression (← member? "then" members))

/-- `CaseOperand`. -/
def readCase (j : Json) : Option Expression := do
  let members ← fields? ["op", "whens", "otherwise"] j
  return .case (← readItems 1 8 (readBranch expression) (← member? "whens" members))
    (← readDefault none (nullable? expression) (member? "otherwise" members))

def readInput (j : Json) : Option Expression := do
  let members ← fields? ["op", "role"] j
  return .input (← readPattern isRoleName (← member? "role" members))

def readParameter (j : Json) : Option Expression := do
  let members ← fields? ["op", "name"] j
  return .parameter (← readPattern isRoleName (← member? "name" members))

def readAggregate (j : Json) : Option Expression := do
  let members ← fields? ["op", "function", "role"] j
  return .aggregate (← literal? AggregateFunction.literals (← member? "function" members))
    (← readPattern isRoleName (← member? "role" members))

def readBinary (j : Json) : Option Expression := do
  let members ← fields? ["op", "left", "right"] j
  return .binary (← literal? BinaryOperator.literals (← member? "op" members)) (← expression (← member? "left" members))
    (← expression (← member? "right" members))

def readCoalesce (j : Json) : Option Expression := do
  let members ← fields? ["op", "operand", "default"] j
  return .coalesce (← expression (← member? "operand" members)) (← readLiteral co (← member? "default" members))

def readRound (j : Json) : Option Expression := do
  let members ← fields? ["op", "operand", "digits"] j
  return .round (← expression (← member? "operand" members)) (← readPrecision co (← member? "digits" members))

/-- The models of an expression, by the `op` that chooses them. -/
def readTagged (op : String) (j : Json) : Option Expression :=
  if op = "literal" then (readLiteral co j).map .literal
  else if op = "null" then (fields? ["op"] j).map fun _ => .null
  else if op = "input" then readInput j
  else if op = "parameter" then readParameter j
  else if op = "aggregate" then readAggregate j
  else if op ∈ BinaryOperator.literals.map Prod.fst then readBinary expression j
  else if op = "compare" then (readCompare expression j).map fun c => .condition (.simple c)
  else if op = "null_test" then (readNullTest expression j).map fun c => .condition (.simple c)
  else if op = "coalesce" then readCoalesce co expression j
  else if op = "round" then readRound co expression j
  else if op = "all" then (readAll expression j).map .condition
  else if op = "any" then (readAny expression j).map .condition
  else if op = "case" then readCase expression j
  else none

/-- The discriminator of a value: a text under `op`. -/
def tag? : Json → Option String
  | .obj members => (member? "op" members).bind text?
  | _ => none

end Coerce

/-- An expression is read by its discriminator. A value is nested as deep as its expressions at least. -/
def readExpression (co : Coercions) : Nat → Json → Option Expression
  | 0, _ => none
  | depth + 1, j => (tag? j).bind fun op => readTagged co (readExpression co depth) op j

/-- `CalculationInputSpec.model_validate`. -/
def CalculationInputSpec.ofJson? (co : Coercions) (j : Json) : Option CalculationInputSpec := do
  let members ← fields? ["role", "provenance", "metric_key", "required"] j
  let role ← readPattern isRoleName (← member? "role" members)
  let provenance ← literal? InputProvenance.literals (← member? "provenance" members)
  let metricKey ← readDefault none (nullable? (readBounded 1 256)) (member? "metric_key" members)
  let required ← readDefault true (readBool co) (member? "required" members)
  if h : provenance.isFormal = true → metricKey.isSome = true then return ⟨role, provenance, metricKey, required, h⟩ else none

/-- `ParameterSpec.model_validate`. -/
def ParameterSpec.ofJson? (co : Coercions) (j : Json) : Option ParameterSpec := do
  let members ← fields? ["name", "value_type", "required", "allowed_values", "description"] j
  let name ← readPattern isRoleName (← member? "name" members)
  let valueType ← literal? ParameterValueType.literals (← member? "value_type" members)
  let required ← readDefault true (readBool co) (member? "required" members)
  let allowedValues ← readDefault [] (readItems 0 64 text?) (member? "allowed_values" members)
  let description ← readDefault none (nullable? (readBounded 0 512)) (member? "description" members)
  if h : allowedValues.length ≤ 64 ∧ (∀ v ∈ allowedValues, isBlank v = false) ∧ allowedValues.Nodup then
    return ⟨name, valueType, required, allowedValues, description, h.1, h.2.1, h.2.2⟩
  else none

/-- `CalculationSpec(...)`: its validators. -/
def CalculationSpec.of? (calculationId : ContractId) (expression : Expression) (inputs : List CalculationInputSpec)
    (parameters : List ParameterSpec) (unit : UnitPolicy) (customUnitId : Option { s : String // isCustomUnitId s = true })
    (precision : Option Precision) (rounding : Option Rounding) : Option CalculationSpec :=
  if h : (1 ≤ inputs.length ∧ inputs.length ≤ 32) ∧ (inputs.map (·.role)).Nodup ∧ parameters.length ≤ 32 ∧
      (parameters.map (·.name)).Nodup ∧ (∃ depth, expression.depth = some depth ∧ depth ≤ maxExpressionDepth) ∧
      (∃ count, expression.nodeCount = some count ∧ count ≤ maxExpressionNodes) ∧
      (∀ roles, expression.referencedInputRoles = some roles → ∀ r ∈ roles, r ∈ inputs.map (·.role.val)) ∧
      (∀ names, expression.referencedParameterNames = some names → ∀ n ∈ names, n ∈ parameters.map (·.name.val)) ∧
      (rounding.isSome = true → precision.isSome = true) ∧ (unit = .customUnit ↔ customUnitId.isSome = true) ∧
      ∀ u ∈ customUnitId, u.val ∉ builtinUnitLiterals then
    some
      { calculationId, expression, inputs, parameters, unit, customUnitId, precision, rounding
        inputs_length := h.1
        inputs_unique := h.2.1
        parameters_length := h.2.2.1
        parameters_unique := h.2.2.2.1
        depth_bounded := h.2.2.2.2.1
        nodes_bounded := h.2.2.2.2.2.1
        roles_declared := h.2.2.2.2.2.2.1
        parameters_declared := h.2.2.2.2.2.2.2.1
        rounding_precision := h.2.2.2.2.2.2.2.2.1
        custom_unit := h.2.2.2.2.2.2.2.2.2.1
        custom_unit_fresh := h.2.2.2.2.2.2.2.2.2.2 }
  else none

/-- A valid spec passes its validators. -/
theorem CalculationSpec.of?_self (s : CalculationSpec) :
    of? s.calculationId s.expression s.inputs s.parameters s.unit s.customUnitId s.precision s.rounding = some s :=
  dif_pos ⟨s.inputs_length, s.inputs_unique, s.parameters_length, s.parameters_unique, s.depth_bounded, s.nodes_bounded,
    s.roles_declared, s.parameters_declared, s.rounding_precision, s.custom_unit, s.custom_unit_fresh⟩

/-- `CalculationSpec.model_validate`. The names of authority and lifecycle are not names of fields, and so they are refused too. -/
def CalculationSpec.ofJson? (co : Coercions) (j : Json) : Option CalculationSpec := do
  let members ← fields? ["schema_version", "calculation_id", "expression", "inputs", "parameters", "unit", "custom_unit_id", "precision",
    "rounding"] j
  let _ ← readDefault () (literal? [("1.1", ())]) (member? "schema_version" members)
  let calculationId ← readPattern isContractId (← member? "calculation_id" members)
  let expression ← (member? "expression" members).bind fun e => readExpression co e.depth e
  let inputs ← readItems 1 32 (CalculationInputSpec.ofJson? co) (← member? "inputs" members)
  let parameters ← readDefault [] (readItems 0 32 (ParameterSpec.ofJson? co)) (member? "parameters" members)
  let unit ← literal? UnitPolicy.literals (← member? "unit" members)
  let customUnitId ← readDefault none (nullable? (readPattern isCustomUnitId)) (member? "custom_unit_id" members)
  let precision ← readDefault none (nullable? (readPrecision co)) (member? "precision" members)
  let rounding ← readDefault none (nullable? (literal? roundingLiterals)) (member? "rounding" members)
  CalculationSpec.of? calculationId expression inputs parameters unit customUnitId precision rounding

/-! ## What the types leave open -/

mutual

/-- The bounds of the models of an expression: ALL, ANY and CASE have one to eight branches, and a literal is a decimal that can be
built. -/
def Expression.Valid : Expression → Prop
  | .literal value => value.constructible = true
  | .null => True
  | .input _ => True
  | .parameter _ => True
  | .aggregate _ _ => True
  | .binary _ left right => left.Valid ∧ right.Valid
  | .condition c => c.Valid
  | .coalesce operand default => operand.Valid ∧ default.constructible = true
  | .round operand _ => operand.Valid
  | .case whens otherwise => (1 ≤ whens.length ∧ whens.length ≤ 8) ∧ whensValid whens ∧ otherwiseValid otherwise

def otherwiseValid : Option Expression → Prop
  | none => True
  | some e => e.Valid

def whensValid : List WhenBranch → Prop
  | [] => True
  | branch :: rest => branch.Valid ∧ whensValid rest

def WhenBranch.Valid : WhenBranch → Prop
  | .mk condition result => condition.Valid ∧ result.Valid

def Condition.Valid : Condition → Prop
  | .simple c => c.Valid
  | .all conditions => (1 ≤ conditions.length ∧ conditions.length ≤ 8) ∧ conditionsValid conditions
  | .any conditions => (1 ≤ conditions.length ∧ conditions.length ≤ 8) ∧ conditionsValid conditions

def conditionsValid : List SimpleCondition → Prop
  | [] => True
  | c :: rest => c.Valid ∧ conditionsValid rest

def SimpleCondition.Valid : SimpleCondition → Prop
  | .compare _ left right => left.Valid ∧ right.Valid
  | .nullTest _ operand => operand.Valid

end

theorem conditionsValid_iff {conditions : List SimpleCondition} : conditionsValid conditions ↔ ∀ c ∈ conditions, c.Valid := by
  induction conditions with
  | nil => exact ⟨nofun, fun _ => trivial⟩
  | cons c rest ih => rw [conditionsValid, List.forall_mem_cons, ih]

theorem whensValid_iff {whens : List WhenBranch} : whensValid whens ↔ ∀ b ∈ whens, b.Valid := by
  induction whens with
  | nil => exact ⟨nofun, fun _ => trivial⟩
  | cons b rest ih => rw [whensValid, List.forall_mem_cons, ih]

theorem conditionsDump_eq (write : Decimal → String) (conditions : List SimpleCondition) :
    conditionsDump write conditions = conditions.map (SimpleCondition.dump write) := by
  induction conditions with
  | nil => rfl
  | cons c rest ih => rw [conditionsDump, List.map_cons, ih]

theorem whensDump_eq (write : Decimal → String) (whens : List WhenBranch) : whensDump write whens = whens.map (WhenBranch.dump write) := by
  induction whens with
  | nil => rfl
  | cons b rest ih => rw [whensDump, List.map_cons, ih]

end Nl2Sql
