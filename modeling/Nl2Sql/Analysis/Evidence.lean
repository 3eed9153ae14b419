import Nl2Sql.Lib.Numeral
import Nl2Sql.Plan.Contracts

/-!
# The numeric gate of an analysis

`validate_analysis_interpretation` of `orchestration/analysis_evidence.py` with the contracts it reads: the facts of an evidence
bundle, and the statements a model returns with the facts they cite. Of a fact, the gate reads what a number may be traced to. The gate
reads numbers with a regular expression and compares their normalized texts; the expression is modelled as a backtracking matcher that
tries its ways in the order Python's `re` does. The text of a float and of a datetime stand for the value.
-/

namespace Nl2Sql

open Py

/-! ## Contracts -/

/-- A scalar value of a fact that is not null. -/
inductive AnalysisScalar where
  | str (s : BoundedText 0 1024)
  | bool (b : Bool)
  | int (n : Int)
  | float (text : String)

/-- A scalar as a JSON value. -/
def AnalysisScalar.toJson : AnalysisScalar → Json
  | .str s => .str s.val
  | .bool b => .bool b
  | .int n => .int n
  | .float text => .float text

/-- One fact: its identity, and what a number may be traced to. -/
structure AnalysisEvidenceFact where
  factId : Sha256
  value : Option AnalysisScalar
  unit : Option (BoundedText 1 64)
  timeRange : Option TimeRange
  /-- the text of a datetime -/
  observedAt : Option String
  /-- the text of a datetime -/
  dataAsOf : Option String

/-- The facts of an evidence bundle. -/
structure AnalysisEvidenceBundle where
  facts : List AnalysisEvidenceFact
  facts_length : 1 ≤ facts.length ∧ facts.length ≤ 16
  facts_unique : (facts.map (·.factId)).Nodup

/-- One statement of a model with the facts it cites. -/
structure AnalysisStatement where
  text : BoundedText 1 2048
  factIds : List Sha256
  facts_length : factIds.length ≤ 16
  facts_unique : factIds.Nodup

/-- What a model returns. -/
structure AnalysisInterpretation where
  summary : AnalysisStatement
  observations : List AnalysisStatement
  caveats : List AnalysisStatement
  observations_length : observations.length ≤ 16
  caveats_length : caveats.length ≤ 16

/-- What the gate may raise. -/
inductive EvidenceError where
  | evidence (code : String)
  | decimal (signal : DecimalSignal)
  deriving DecidableEq, Repr

/-! ## The pattern -/

/-- `[A-Za-z0-9_]`. -/
def isWordAscii (c : Char) : Bool := isUpperAscii c || isLowerAscii c || isDigitAscii c || c == '_'

/-- A boundary: no character of a word on this side. -/
def isClear (side : Option Char) : Bool := !side.any isWordAscii

/-- The ends of a fraction `\.\d+` after `k` characters, the longest first. -/
def fractionEnds (cs : List Char) (k : Nat) : List Nat :=
  match cs.drop k with
  | '.' :: rest => ((List.range (rest.takeWhile isDecimal).length).map fun j => k + 2 + j).reverse
  | _ => []

/-- The ends of `\d+(?:\.\d+)?` at the front of a text, in the order they are tried: the most digits first, and a fraction before none. -/
def bodyEnds (cs : List Char) : List Nat :=
  ((List.range (cs.takeWhile isDecimal).length).reverse.map (· + 1)).flatMap fun k => fractionEnds cs k ++ [k]

/-- The first end with a boundary after it. -/
def matchBody (cs : List Char) : Option Nat := (bodyEnds cs).find? fun k => isClear (cs.drop k).head?

/-- The match of `[-+]?\d+(?:\.\d+)?(?![A-Za-z0-9_])` at the front of a text: where it ends. -/
def matchNumber : List Char → Option Nat
  | '-' :: rest => (matchBody rest).map (· + 1)
  | '+' :: rest => (matchBody rest).map (· + 1)
  | cs => matchBody cs

/-- `_NUMBER_PATTERN.finditer(text)`: the matches from left to right, each after the one before. `before` is the character the
lookbehind sees. -/
def findNumbers : Nat → Option Char → List Char → List (List Char)
  | _, _, [] => []
  | 0, _, _ => []
  | rounds + 1, before, c :: cs =>
    match if isClear before then matchNumber (c :: cs) else none with
    | some k => (c :: cs).take k :: findNumbers rounds ((c :: cs).take k).getLast? ((c :: cs).drop k)
    | none => findNumbers rounds (some c) cs

/-! ## The gate -/

/-- `_numeric_tokens`. -/
def numericTokens (text : String) : Except EvidenceError (List String) :=
  ((findNumbers text.toList.length none text.toList).filterMap fun found => Decimal.ofString? (String.ofList found)).mapM fun number =>
    match number.normalize .default with
    | .ok normalized => .ok normalized.formatF
    | .error signal => .error (.decimal signal)

/-- The JSON value of an optional text. -/
def textOrNull : Option String → Json
  | some text => .str text
  | none => .null

/-- `time_range.model_dump(mode="json")`. -/
def TimeRange.toJson (r : TimeRange) : Json :=
  .obj [("start", .str r.start.isoformat), ("end", .str r.stop.isoformat), ("timezone", .str r.timezone.val)]

/-- The traceable fields of a fact, as `_canonical_json` writes them. -/
def AnalysisEvidenceFact.traceable (fact : AnalysisEvidenceFact) : String :=
  Json.dumps (.obj
    [("value", (fact.value.map AnalysisScalar.toJson).getD .null),
      ("unit", textOrNull (fact.unit.map (·.val))),
      ("time_range", (fact.timeRange.map TimeRange.toJson).getD .null),
      ("observed_at", textOrNull fact.observedAt),
      ("data_as_of", textOrNull fact.dataAsOf)])

namespace AnalysisEvidenceBundle

/-- `facts[fact_id]`. -/
def fact? (evidence : AnalysisEvidenceBundle) (factId : Sha256) : Option AnalysisEvidenceFact :=
  evidence.facts.find? fun fact => fact.factId = factId

/-- The facts a statement cites. -/
def cited (evidence : AnalysisEvidenceBundle) (statement : AnalysisStatement) : List AnalysisEvidenceFact :=
  statement.factIds.filterMap evidence.fact?

end AnalysisEvidenceBundle

/-- The statements of an interpretation. -/
def AnalysisInterpretation.statements (interpretation : AnalysisInterpretation) : List AnalysisStatement :=
  interpretation.summary :: interpretation.observations ++ interpretation.caveats

/-- The checks of one statement. -/
def validateStatement (evidence : AnalysisEvidenceBundle) (statement : AnalysisStatement) : Except EvidenceError Unit := do
  if statement.factIds.any fun factId => (evidence.fact? factId).isNone then
    throw (.evidence "analysis_interpretation_unknown_fact")
  let allowed ← (evidence.cited statement).mapM fun fact => numericTokens fact.traceable
  let actual ← numericTokens statement.text.val
  if ¬ ∀ token ∈ actual, token ∈ allowed.flatten then
    throw (.evidence "analysis_interpretation_numeric_fact_unproven")

/-- `validate_analysis_interpretation`. -/
def validateAnalysisInterpretation (interpretation : AnalysisInterpretation) (evidence : AnalysisEvidenceBundle) :
    Except EvidenceError AnalysisInterpretation := do
  let _ ← interpretation.statements.mapM (validateStatement evidence)
  pure interpretation

end Nl2Sql
