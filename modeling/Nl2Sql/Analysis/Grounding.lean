import Nl2Sql.Analysis.Evidence
import Nl2Sql.Metric.Compiler

/-!
# Grounded answers

`orchestration/grounding.py` with the contract of a fact: the only reader of the outputs of an execution. A receipt of the record is
bound again to the step of the plan it names, and only then is the output of the step projected into a fact. The identity of a fact is a
canonical metric or a derived output, never both, and a fact that is unavailable carries no value.
-/

namespace Nl2Sql

open Py

/-! ## Facts -/

/-- What is projected from an output: `("unavailable", None)` or `("grounded", value)`. -/
inductive Projected where
  | unavailable
  | grounded (value : Json)

/-- The status of a fact. -/
def Projected.status : Projected → String
  | .unavailable => "unavailable"
  | .grounded _ => "grounded"

/-- The value of a fact. -/
def Projected.value : Projected → Json
  | .unavailable => .null
  | .grounded value => value

/-- The one result identity of a fact: a derived output is of the scope `ad_hoc_noncanonical`. -/
inductive FactIdentity where
  | metric (key : BoundedText 1 256)
  | derived (id : DerivedOutputId)
  deriving DecidableEq

/-- One grounded value with its evidence. -/
structure AnswerFact where
  factId : Sha256
  stepId : PlanStepId
  identity : FactIdentity
  result : Projected
  outputDigest : Option Sha256
  source : SourceEvidence
  timeRange : Option TimeRange
  /-- the checkpoint of the source is no field of a fact -/
  no_checkpoint : source.sourceCheckpoint = none

/-- `metric_key`. -/
def AnswerFact.metricKey (fact : AnswerFact) : Option String :=
  match fact.identity with
  | .metric key => some key.val
  | .derived _ => none

/-! ## Projection -/

/-- The value of a row: none for a row that is not counted. -/
def rowValue? : Json → Option Json
  | .obj members => Json.member? "value" members
  | _ => none

/-- The entry of a mapping for a metric, by its key or by the last part of it, or else its only scalar, or else the whole. -/
def projectEntry (members : List (String × Json)) (metricKey : String) : Projected :=
  match (Json.member? metricKey members).or (Json.member? ((split '.' metricKey).getLastD metricKey) members) with
  | some value => .grounded value
  | none =>
    match members with
    | [(_, only)] => .grounded (if isScalar only then only else .obj members)
    | _ => .grounded (.obj members)

/-- The projection of a mapping: the known shape is a rowset with a flag for its absence. -/
def projectMapping (members : List (String × Json)) (metricKey : String) : Projected :=
  match Json.member? "no_data" members, Json.member? "rows" members with
  | some (.bool true), _ => .unavailable
  | some (.bool false), some (.arr rows) =>
    match rows.filterMap rowValue? with
    | [] => .unavailable
    | [value] => .grounded value
    | values => .grounded (.arr values)
  | _, _ => projectEntry members metricKey

/-- `_project_output`, of `outputs.get(step_id)`. -/
def projectOutput (output : Option Json) (metricKey : String) : Projected :=
  match output with
  | none => .unavailable
  | some .null => .unavailable
  | some (.obj members) => projectMapping members metricKey
  | some value => .grounded value

/-- One row of a trend: a period, read from the first ten characters of its text, and a value. -/
def trendPoint? : Json → Option (Date × Json)
  | .obj members =>
    match Json.member? "period" members, Json.member? "value" members with
    | some (.str period), some value => (Date.fromIsoformat? (String.ofList (period.toList.take 10))).map fun date => (date, value)
    | _, _ => none
  | _ => none

/-- `_trend_points`: nothing unless every row is a point. -/
def trendPoints : Option Json → List (Date × Json)
  | some (.obj members) =>
    match Json.member? "rows" members with
    | some (.arr rows) => if 31 < rows.length then [] else (rows.mapM trendPoint?).getD []
    | _ => []
  | _ => []

/-- The day of one point of a trend. -/
def pointRange (period : Date) : TimeRange := ⟨period, period, ⟨"Asia/Shanghai", shanghai_length⟩, Nat.le_refl _⟩

/-- What a fetch projects for one metric: the points of a trend, or one value. -/
def fetchResults (queryPlan : QueryPlan) (output : Option Json) (metricKey : String) : List (Projected × Option TimeRange) :=
  match if queryPlan.intent = .trend then trendPoints output else [] with
  | [] => [(projectOutput output metricKey, none)]
  | points => points.map fun (period, value) =>
    (projectOutput (some (.obj [("rows", .arr [.obj [("value", value)]]), ("no_data", .bool false)])) metricKey,
      some (pointRange period))

/-! ## Building the facts -/

section Build

variable (D : ExecutionDigests)

/-- `_fact_id` of a metric, `_derived_fact_id` of a derived output. -/
def factIdOf (stepId : PlanStepId) (identity : FactIdentity) (result : Projected) (timeRange : Option TimeRange) : Sha256 :=
  D.json (.obj
    ([("step_id", .str stepId.val),
      match identity with
      | .metric key => ("metric_key", .str key.val)
      | .derived id => ("derived_output_id", .str id.val),
      ("status", .str result.status), ("value", result.value)] ++
      (timeRange.map fun range => ("time_range", range.toJson)).toList))

/-- A fact with the evidence of its receipt, copied verbatim. -/
def factOf (receipt : PlanStepReceipt) (identity : FactIdentity) (result : Projected) (timeRange : Option TimeRange) : AnswerFact where
  factId := factIdOf D receipt.stepId identity result timeRange
  stepId := receipt.stepId
  identity := identity
  result := result
  outputDigest := receipt.outputDigest
  source := { receipt.source with sourceCheckpoint := none }
  timeRange := timeRange
  no_checkpoint := rfl

/-- `_answer_fact`: none where the contract rejects the metric key. -/
def answerFact? (receipt : PlanStepReceipt) (metricKey : String) (result : Projected) (timeRange : Option TimeRange) :
    Option AnswerFact :=
  if h : 1 ≤ metricKey.length ∧ metricKey.length ≤ 256 then some (factOf D receipt (.metric ⟨metricKey, h⟩) result timeRange)
  else none

/-- What one receipt adds to an answer. -/
structure Grounding where
  facts : List AnswerFact := []
  flags : List String := []

/-- `grounding_execution_mismatch`. -/
def Grounding.mismatch : Grounding := { flags := ["grounding_execution_mismatch"] }

variable (queryPlan : QueryPlan) (plan : ExecutionPlan D.toCalculationDigests) (record : PlanExecutionRecord)
  (outputs : Dict PlanStepId Json)

/-- The first loop: a fetch that feeds a calculation grounds nothing. -/
def groundFetch (receipt : PlanStepReceipt) : Option Grounding :=
  if receipt.status ≠ .succeeded ∨ receipt.kind ≠ .fetchMetric then some {}
  else
    match plan.step? receipt.stepId with
    | some (.fetch step) =>
      if receipt.stepId ∉ record.outputStepIds then some {}
      else if step.calculationInputRole.isSome ∨ step.adHocInputRole.isSome then some {}
      else do
        let facts ← step.metricKeys.mapM fun key =>
          (fetchResults queryPlan (outputs.get? receipt.stepId) key).mapM fun (result, timeRange) =>
            answerFact? D receipt key result timeRange
        some { facts := facts.flatten }
    | _ => some {}

/-- The second loop: the provenance of a trusted calculation on its receipt is that of its step. -/
def groundTrusted (receipt : PlanStepReceipt) : Option Grounding :=
  if receipt.status ≠ .succeeded ∨ receipt.kind ≠ .trustedCalculation then some {}
  else
    match plan.step? receipt.stepId with
    | some (.trusted step) =>
      if receipt.stepId ∉ record.outputStepIds then some {}
      else
        match step.outputMetricKey with
        | none => some {}
        | some key =>
          if key = "" then some {}
          else if receipt.provenance.outputMetricKey.map (·.val) ≠ step.outputMetricKey ∨
              receipt.provenance.templateId.map (·.val) ≠ some step.templateId.val ∨
              receipt.provenance.templateVersion ≠ step.binding.map (·.templateVersion) ∨
              receipt.provenance.bindingChecksum ≠ step.binding.map (·.bindingChecksum) then
            some .mismatch
          else do
            some { facts := [← answerFact? D receipt key (projectOutput (outputs.get? receipt.stepId) key) none] }
    | _ => some .mismatch

/-- The third loop: the derived output of an AD_HOC calculation, and an output that is present. -/
def groundAdHoc (receipt : PlanStepReceipt) : Option Grounding :=
  if receipt.status ≠ .succeeded ∨ receipt.kind ≠ .adHocCalculation then some {}
  else
    match plan.step? receipt.stepId with
    | some (.adHoc step) =>
      if receipt.stepId ∉ record.outputStepIds then some {}
      else
        match receipt.provenance.derivedOutputId with
        | none => some .mismatch
        | some id =>
          if id ≠ step.derivedOutputId ∨
              receipt.provenance.calculationSpecChecksum ≠ some (step.calculationSpec.checksum D.toCalculationDigests) ∨
              receipt.provenance.executionBindingChecksum ≠ some (D.binding step.executionBinding) ∨
              receipt.provenance.calculationScope ≠ some .adHocNoncanonical then
            some .mismatch
          else
            match outputs.get? receipt.stepId with
            | none => some {}
            | some output => some { facts := [factOf D receipt (.derived id) (projectOutput (some output) id.val) none] }
    | _ => some .mismatch

/-- `_build_answer_facts_with_flags`: none where the contract of a fact rejects a metric key. -/
def buildAnswerFactsWithFlags : Option Grounding :=
  if record.status ≠ .succeeded then some {}
  else if record.executionPlanChecksum ≠ D.executionPlan plan then some {}
  else do
    let fetched ← record.stepReceipts.mapM (groundFetch D queryPlan plan record outputs)
    let trusted ← record.stepReceipts.mapM (groundTrusted D plan record outputs)
    let adHoc ← record.stepReceipts.mapM (groundAdHoc D plan record outputs)
    let parts := fetched ++ trusted ++ adHoc
    some ⟨parts.flatMap (·.facts), fromKeys (parts.flatMap (·.flags))⟩

/-- `build_answer_facts`. -/
def buildAnswerFacts : Option (List AnswerFact) := (buildAnswerFactsWithFlags D queryPlan plan record outputs).map (·.facts)

end Build

/-! ## The answer -/

/-- The flags of one receipt that succeeded: the degradations of its source, and a freshness that is not fresh. -/
def receiptFlags (receipt : PlanStepReceipt) : List String :=
  if receipt.status ≠ .succeeded then []
  else
    receipt.source.sourceDegradation.map MetricQueryCompiler.degradationText ++
      match receipt.source.freshnessStatus with
      | .fresh => []
      | .stale => ["GroundedAnswerStale"]
      | .unknown => ["GroundedAnswerFreshnessUnknown"]

/-- `receipt_degradation_flags`. -/
def receiptDegradationFlags (record : PlanExecutionRecord) : List String :=
  fromKeys ((record.stepReceipts.flatMap receiptFlags).filter fun flag => !isBlank flag)

/-- `_fact_label`. -/
def factLabel (fact : AnswerFact) : String :=
  match fact.identity with
  | .metric key =>
    match fact.timeRange with
    | some range => if range.start = range.stop then key.val ++ " [" ++ range.start.isoformat ++ "]" else key.val
    | none => key.val
  | .derived id => "Derived result (" ++ id.val ++ ")"

/-- The line of one fact. -/
def factLine (fact : AnswerFact) : String :=
  match fact.result with
  | .unavailable => factLabel fact ++ ": no data returned"
  | .grounded value =>
    if isScalar value then factLabel fact ++ ": " ++ value.dumps
    else
      factLabel fact ++ ": grounded value recorded (digest " ++ ((fact.outputDigest.map (·.val)).getD fact.factId.val) ++ ")"

/-- `render_grounded_answer`. -/
def renderGroundedAnswer (queryPlan : QueryPlan) (facts : List AnswerFact) : String :=
  if facts.isEmpty then "No grounded value was produced for " ++ ", ".intercalate queryPlan.metricKeys ++ "."
  else "\n".intercalate (facts.map factLine)

/-- The artifact of an answer: the fields that have a producer. -/
structure AnswerArtifact where
  facts : List AnswerFact
  degradationFlags : List String

/-- A grounded answer; its facts are those of the artifact. -/
structure GroundedAnswer where
  answerText : String
  artifact : AnswerArtifact

/-- `ground_execution_answer`: none where the contract of a fact rejects a metric key. -/
def groundExecutionAnswer (D : ExecutionDigests) (queryPlan : QueryPlan) (plan : ExecutionPlan D.toCalculationDigests)
    (record : PlanExecutionRecord) (outputs : Dict PlanStepId Json) : Option GroundedAnswer := do
  let grounding ← buildAnswerFactsWithFlags D queryPlan plan record outputs
  some ⟨renderGroundedAnswer queryPlan grounding.facts,
    ⟨grounding.facts, fromKeys (receiptDegradationFlags record ++ grounding.flags)⟩⟩

end Nl2Sql
