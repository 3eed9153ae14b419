import Nl2Sql.Calculation.Runtime
import Nl2Sql.Candidate.Rowset
import Nl2Sql.Metric.Compiler
import Nl2Sql.Metric.Gateway
import Nl2Sql.Metric.Runner

/-!
# The execution of a metric query

`GatewayMetricStepRunner.execute` of `orchestration/metric_query.py`: the plan of a prepared query is compiled again against what is
active now, the query is run at the gateway, and a result is returned only when it is whole and has the shape of the plan.
-/

namespace Nl2Sql

open Py Sql

/-! ## The shape of a result -/

/-- A result row. -/
abbrev ResultRow : Type := Dict String Cell

/-- `row[name]` of a row that has the column. -/
def cellOf (row : ResultRow) (name : String) : Cell := (row.get? name).getD .null

/-- `raise PlanStepError("metric_result_shape_invalid")`, where a condition holds. -/
def shapeInvalidIf (c : Prop) [Decidable c] : Except StepFailure Unit := refuseStepIf c "metric_result_shape_invalid" (written_ofList rfl)

/-- `_reject_calculation_error_rows`. -/
def rejectCalculationErrorRows (rows : List ResultRow) : Except StepFailure Unit :=
  refuseStepIf (∃ row ∈ rows, row.get? "status" = some (.str "calculation_error")) "metric_calculation_undefined_division_by_zero" (written_ofList rfl)

/-- `Decimal(100) * numerator / denominator` to two places, half up. -/
def expectedRatio (numerator denominator : Int) : Except DecimalSignal Decimal := do
  let hundredfold ← Decimal.mul exactContext (Decimal.ofInt 100) (Decimal.ofInt numerator)
  let quotient ← Decimal.div exactContext hundredfold (Decimal.ofInt denominator)
  Decimal.quantize exactContext .halfUp quotient (-2)

/-- The value of a ratio, of its two counts and its status. -/
def ratioValid (numerator denominator : Int) (value status : Cell) : Except StepFailure Bool :=
  if denominator = 0 then
    .ok (decide (value = .null ∧ status = .str "calculation_error"))
  else
    match expectedRatio numerator denominator with
    | .error _ => .error .raised
    | .ok expected =>
      match value with
      | .decimal (some d) => .ok (decide (d.exp = -2 ∧ d.toRat = expected.toRat ∧ status = .str "success"))
      | _ => .ok false

/-- `_validate_ratio_row`. -/
def validateRatioRow (row : ResultRow) : Except StepFailure Unit :=
  match cellOf row "numerator", cellOf row "denominator" with
  | .int numerator, .int denominator => do
    shapeInvalidIf (¬ (0 ≤ numerator ∧ numerator ≤ denominator ∧ denominator ≤ 2 ^ 63 - 1))
    let valid ← ratioValid numerator denominator (cellOf row "value") (cellOf row "status")
    shapeInvalidIf (valid = false)
  | _, _ => shapeInvalidIf True

/-- The columns a result has. -/
def expectedColumns (query : CompiledMetricQuery) : List String :=
  (match query.operation with
    | .count => ["value"]
    | .ratio => ["numerator", "denominator", "value", "status"]) ++
    (if query.queryPlan.intent = .trend then ["period"] else []) ++ if query.dimension.isSome = true then ["dimension_id"] else []

/-- The value of a row. -/
def validateValue (query : CompiledMetricQuery) (row : ResultRow) : Except StepFailure Unit :=
  match query.operation with
  | .ratio => validateRatioRow row
  | .count =>
    match cellOf row "value" with
    | .int n => shapeInvalidIf (n < 0)
    | _ => shapeInvalidIf True

/-- A day of a month by its number. -/
def firstOfMonth (d : Date) : Date :=
  ⟨d.year, d.month, 1, d.year_bounds, d.month_bounds, Nat.le_refl 1, Nat.le_trans d.day_bounds.1 d.day_bounds.2⟩

/-- The period of a row: a local midnight inside the time range, the first of a month where the grain is one. -/
def validatePeriod (plan : QueryPlan) : Cell → Except StepFailure Unit
  | .datetime none day micros => do
    shapeInvalidIf (micros ≠ 0 ∨ (plan.grain = .month ∧ day.day ≠ 1))
    let first := if plan.grain = .month then firstOfMonth plan.timeRange.start else plan.timeRange.start
    shapeInvalidIf (¬ (first ≤ day ∧ day ≤ plan.timeRange.stop))
  | _ => shapeInvalidIf True

/-- The dimension of a row, by the type of its values. -/
def validateDimension (dimension : OrganizationCoverageBinding) (identifier : Cell) : Except StepFailure Unit :=
  if dimension.valueType = some "text" then
    match identifier with
    | .str s => shapeInvalidIf (s = "" ∨ 256 < s.length ∨ '\x00' ∈ s.toList)
    | _ => shapeInvalidIf True
  else if dimension.valueType = some "integer" then
    match identifier with
    | .int n => shapeInvalidIf (¬ (-(2 ^ 63) ≤ n ∧ n < 2 ^ 63))
    | _ => shapeInvalidIf True
  else
    .ok ()

/-- The checks of one row; gives its keys. -/
def validateRow (query : CompiledMetricQuery) (row : ResultRow) : Except StepFailure (List Cell) := do
  shapeInvalidIf (¬ SameSet row.keys (expectedColumns query))
  validateValue query row
  let period := if "period" ∈ row.keys then [cellOf row "period"] else []
  for cell in period do validatePeriod query.queryPlan cell
  match query.dimension with
  | none => .ok period
  | some dimension => do
    validateDimension dimension (cellOf row "dimension_id")
    .ok (period ++ [cellOf row "dimension_id"])

/-- `a <= b` of two keys: none where Python cannot compare them. -/
def Cell.le? : Cell → Cell → Option Bool
  | .int a, .int b => some (decide (a ≤ b))
  | .str a, .str b => some (decide (a ≤ b))
  | .datetime none a x, .datetime none b y => some (decide (a < b ∨ (a = b ∧ x ≤ y)))
  | _, _ => none

/-- `sorted(items, key=...)`: stable, none where two keys cannot be compared. -/
def sortedBy? {α : Type} (key : α → Cell) (items : List α) : Option (List α) :=
  if items.length ≤ 1 ∨ ∀ a ∈ items, ∀ b ∈ items, ((key a).le? (key b)).isSome = true then
    some (items.insertionSort fun a b => (key a).le? (key b) = some true)
  else
    none

/-- The key of the second pass over a ranking: no value is less than any. -/
def rankKey (row : ResultRow) : WithBot ℚ :=
  match cellOf row "value" with
  | .int n => some (n : ℚ)
  | .decimal (some d) => some d.toRat
  | _ => none

/-- The order of the rows of a ranking: two stable passes, by the dimension and then by the value from the greatest. A row without a
dimension raises. -/
def rankedRows? (rows : List ResultRow) : Option (List ResultRow) :=
  if ∀ row ∈ rows, "dimension_id" ∈ row.keys then
    (sortedBy? (cellOf · "dimension_id") rows).map fun ordered => ordered.insertionSort fun a b => rankKey b ≤ rankKey a
  else
    none

/-- The day of a key that is a time. -/
def Cell.day? : Cell → Option Date
  | .datetime _ day _ => some day
  | _ => none

/-- The value that the language gives, or its exception. -/
def orRaised {α : Type} : Option α → Except StepFailure α
  | some a => .ok a
  | none => .error .raised

/-- The exception of a deadline that passed. -/
def raisedIf (passed : Bool) : Except StepFailure Unit := if passed = true then .error .raised else .ok ()

/-- `_validate_rows`. -/
def validateRows (rows : List ResultRow) (query : CompiledMetricQuery) : Except StepFailure Unit := do
  let plan := query.queryPlan
  shapeInvalidIf ((plan.intent = .metric ∧ rows.length ≠ 1) ∨ (plan.intent = .ranking ∧ plan.rankingLimit < rows.length))
  let keys := (← rows.mapM (validateRow query)).flatten
  shapeInvalidIf (¬ keys.Nodup)
  if plan.availableDates ≠ [] then
    let days ← orRaised (keys.mapM Cell.day?)
    refuseStepIf (days ≠ plan.availableDates) "metric_available_period_set_invalid" (written_ofList rfl)
  if plan.intent = .ranking then
    let ordered ← orRaised (rankedRows? rows)
    shapeInvalidIf (rows ≠ ordered)
  else
    let ordered ← orRaised (sortedBy? id keys)
    shapeInvalidIf (keys ≠ ordered)

/-! ## The output -/

/-- The texts that Python gives dates and times, and the hash of a text. -/
structure ResultTexts where
  /-- `value.isoformat()` of a time -/
  isoformat : Option Int → Date → Nat → String
  /-- the canonical text of a time, of UTC where it has an offset -/
  canonical : Option Int → Date → Nat → String
  /-- the text of an instant in microseconds -/
  instant : Int → String
  sha256 : String → Sha256

/-- A cell as the comparison of rowsets takes it. -/
def Cell.rowValue (texts : ResultTexts) : Cell → RowValue
  | .null => .null
  | .bool b => .bool b
  | .int n => .int n
  | .str s => .str s
  | .decimal value => .decimal value
  | .datetime offset day micros => .datetime offset.isSome (texts.canonical offset day micros)
  | .date day => .date day.isoformat
  | .other => .other

/-- A cell of the output: a decimal is the text of two places. -/
def jsonCell (texts : ResultTexts) : Cell → Except StepFailure Json
  | .int n => .ok (.int n)
  | .datetime offset day micros => .ok (.str (texts.isoformat offset day micros))
  | .decimal (some d) => .ok (.str (Decimal.rescale .halfEven d (-2)).formatF)
  | .null => .ok .null
  | .str s => .ok (.str s)
  | .bool _ | .date _ | .decimal none | .other => refuseStep "metric_result_shape_invalid" (written_ofList rfl)

/-- A row of the output. -/
def jsonRow (texts : ResultTexts) (row : ResultRow) : Except StepFailure (List (String × Json)) :=
  row.entries.mapM fun entry => do
    let value ← jsonCell texts entry.2
    pure (entry.1, value)

/-- `project_dependency_scalar`. -/
def projectDependencyScalar (rows : List (List (String × Json))) (noData : Bool) : Except StepFailure Json :=
  if noData = true then refuseStep "metric_dependency_no_data" (written_ofList rfl)
  else
    match rows with
    | [row] =>
      match Json.member? "value" row with
      | none => refuseStep "metric_dependency_value_missing" (written_ofList rfl)
      | some value => do
        let status := (Json.member? "status" row).getD .null
        match status with
        | .str "calculation_error" => refuseStep "metric_calculation_undefined_division_by_zero" (written_ofList rfl)
        | .str "no_data" => refuseStep "metric_dependency_no_data" (written_ofList rfl)
        | .null | .str "success" =>
          match value with
          | .null => refuseStep "metric_dependency_no_data" (written_ofList rfl)
          | .obj _ | .arr _ => refuseStep "metric_dependency_scalar_required" (written_ofList rfl)
          | scalar => .ok scalar
        | _ => refuseStep "metric_dependency_status_invalid" (written_ofList rfl)
    | _ => refuseStep "metric_dependency_scalar_required" (written_ofList rfl)

/-! ## The execution -/

/-- A query that was compiled and prepared: `PreparedMetricStep` with its payload. -/
structure PreparedMetricQuery where
  payload : CompiledMetricQuery
  sqlFingerprint : Sha256
  dependencyFetch : Bool

/-- `current.params != query.params`, negated: the same names with the same values. -/
def sameParams (a b : Params) : Prop := (∀ k ∈ a.keys, a.get? k = b.get? k) ∧ ∀ k ∈ b.keys, b.get? k = a.get? k

instance (a b : Params) : Decidable (sameParams a b) := inferInstanceAs (Decidable ((∀ k ∈ a.keys, _) ∧ ∀ k ∈ b.keys, _))

deriving instance DecidableEq for SourceFreshnessRecord

/-- A query compiled now is the one that was prepared. -/
def Unchanged (current query : CompiledMetricQuery) : Prop :=
  current.sql = query.sql ∧ sameParams current.params query.params ∧ current.snapshotChecksum = query.snapshotChecksum ∧
    current.operation = query.operation ∧ current.dimension = query.dimension ∧ current.freshness = query.freshness ∧
    current.semanticSignature = query.semanticSignature ∧ current.sourceId = query.sourceId ∧ current.sourceKind = query.sourceKind ∧
    current.selectionReason = query.selectionReason ∧ current.degradation = query.degradation ∧
    current.authorizationRevision = query.authorizationRevision ∧ current.authorizationScopeLevel = query.authorizationScopeLevel

instance (current query : CompiledMetricQuery) : Decidable (Unchanged current query) := inferInstanceAs (Decidable (_ ∧ _))

/-- What compiling raises, as the runner lets it through. -/
def compileFailure : MetricError → StepFailure
  | .raised => .raised
  | .step code => (PlanStepError.of? code.text).elim .raised .stepError

/-- The runner of a request, with what its compiler reads now. -/
structure MetricExecution where
  compiler : MetricQueryCompiler
  digests : MetricDigests
  gateway : QueryGateway
  texts : ResultTexts

namespace MetricExecution

variable (runner : MetricExecution)

/-- The query that is run: the prepared one, compiled again. -/
def recompiled (prepared : PreparedMetricQuery) : Except StepFailure CompiledMetricQuery := do
  let current ← (runner.compiler.compile runner.digests prepared.payload.queryPlan prepared.payload.context).mapError compileFailure
  refuseStepIf (¬ Unchanged current prepared.payload) "metric_prepared_query_changed" (written_ofList rfl)
  let again ← (runner.gateway.prepare current.query).mapError fun _ => .raised
  refuseStepIf (again.fingerprint ≠ prepared.sqlFingerprint) "metric_prepared_query_changed" (written_ofList rfl)
  .ok current

/-- A ranking is complete where its limit is within the gateway's. -/
def rankingComplete (plan : QueryPlan) (result : QueryReceipt) : Prop :=
  plan.intent = .ranking ∧ ∃ n ∈ result.maxRows, plan.rankingLimit ≤ n

instance (plan : QueryPlan) (result : QueryReceipt) : Decidable (rankingComplete plan result) := inferInstanceAs (Decidable (_ ∧ ∃ n ∈ _, _))

/-- The checks of a result that was accepted: no row may be missing, and the rows have the shape of the plan. -/
def checkResult (query : CompiledMetricQuery) (result : QueryReceipt) : Except StepFailure Unit := do
  refuseStepIf (result.accepted = false) "metric_gateway_denied" (written_ofList rfl)
  refuseStepIf (∃ n ∈ result.maxRows, n < result.rowCount ∨ (result.rowCount = n ∧ ¬ rankingComplete query.queryPlan result))
    "metric_result_may_be_truncated" (written_ofList rfl)
  shapeInvalidIf (result.rowCount ≠ result.rows.length)
  rejectCalculationErrorRows result.rows
  validateRows result.rows query

/-- The evidence that the receipt carries. -/
def sourceEvidence (current : CompiledMetricQuery) (digest : Sha256) : SourceEvidence where
  rowsetSha256 := some digest
  dataAsOf := current.freshness.dataAsOf.map runner.texts.instant
  freshnessStatus := current.freshness.status
  sourceKind := some current.sourceKind
  sourceId := some current.sourceId
  selectionReason := some current.selectionReason
  sourceDegradation := current.degradation
  sourceCheckpoint := current.freshness.checkpoint
  semanticSignature := some current.semanticSignature

/-- The receipt of the gateway with the evidence of the source. -/
def receiptOf (result : QueryReceipt) (current : CompiledMetricQuery) (digest : Sha256) : ExecutionReceipt where
  datasource := result.datasource
  readonlyRole := result.readonlyRole
  errorTaxonomy := result.error.map (·.code.text)
  sqlFingerprint := result.sqlFingerprint.val
  policyVersion := "query-gateway-v2"
  policyOutcome := if result.allowed then .allow else .deny
  source := runner.sourceEvidence current digest

/-- Nothing but genuine absence. -/
def noData (query : CompiledMetricQuery) (rows : List ResultRow) : Bool :=
  rows = [] ∨ (query.operation = .ratio ∧ ∀ row ∈ rows, row.get? "status" = some (.str "no_data"))

/-- The value of a step: the scalar of a dependency fetch, else the rows. -/
def outputOf (prepared : PreparedMetricQuery) (rows : List (List (String × Json))) (absent : Bool) : Except StepFailure Json :=
  if prepared.dependencyFetch = true then do
    let value ← projectDependencyScalar rows absent
    .ok (.obj [("value", value)])
  else
    .ok (.obj [("rows", .arr (rows.map .obj)), ("no_data", .bool absent)])

/-- `execute`; `answers` is what the surroundings of the gateway answer, and `timedOut` that the deadline of the call passed. -/
def execute (answers : GatewayAnswers) (timedOut : Bool) (prepared : PreparedMetricQuery) : Except StepFailure MetricStepResult := do
  let current ← runner.recompiled prepared
  raisedIf timedOut
  let result := runner.gateway.execute answers current.query current.params
  checkResult prepared.payload result
  let digest ← (rowsetSha256 runner.texts.sha256 (result.rows.map fun row =>
    row.entries.map fun entry => (entry.1, entry.2.rowValue runner.texts))).mapError fun _ => .raised
  let rows ← result.rows.mapM (jsonRow runner.texts)
  let value ← outputOf prepared rows (noData prepared.payload result.rows)
  .ok ⟨some value, runner.receiptOf result current digest⟩

end MetricExecution

end Nl2Sql
