import Nl2Sql.Lib.Datetime
import Nl2Sql.Lib.DecimalText
import Nl2Sql.Lib.JsonOrder
import Nl2Sql.Lib.Writable

/-!
# Published metric results and their checksums

The identity of a published metric, one effective result of it, and the request that reads several: `semantic/published_result.py` and the
request of `semantic/published_reader.py`. A checksum is the digest of a JSON text in which decimals and timestamps have a canonical form.
-/

namespace Nl2Sql.Published

open Py

inductive PublishedMetricStatus
  | success
  | partially
  | noData
  | failed
  | missing
  deriving DecidableEq, Repr

/-- The literal of a status. -/
def PublishedMetricStatus.value : PublishedMetricStatus → String
  | .success => "success"
  | .partially => "partial"
  | .noData => "no_data"
  | .failed => "failed"
  | .missing => "missing"

inductive FreshnessStatus
  | fresh
  | stale
  | unknown
  deriving DecidableEq, Repr

/-- The literal of a freshness. -/
def FreshnessStatus.value : FreshnessStatus → String
  | .fresh => "fresh"
  | .stale => "stale"
  | .unknown => "unknown"

/-- `MetricTimeValue`: a calendar date, or the `CURRENT_STATE` token. -/
inductive MetricTimeValue
  | date (d : Date)
  | currentState
  deriving DecidableEq

/-- A text of `Field(min_length=1, max_length=...)`. -/
def TextWithin (limit : Nat) (text : String) : Prop := 1 ≤ text.length ∧ text.length ≤ limit

/-- A text within its length that is not blank. -/
def IdentityText (limit : Nat) (text : String) : Prop := TextWithin limit text ∧ isBlank text = false

instance (limit : Nat) (text : String) : Decidable (TextWithin limit text) := inferInstanceAs (Decidable (_ ∧ _))

instance (limit : Nat) (text : String) : Decidable (IdentityText limit text) := inferInstanceAs (Decidable (_ ∧ _))

structure PublishedMetricKey where
  metricCode : String
  timeGrain : String
  timeValue : MetricTimeValue
  dimensionType : String
  areaId : Option Int := none
  teamId : Option Int := none
  employeeId : Option Int := none
  categoryCode : String
  metricCode_ok : IdentityText 100 metricCode
  timeGrain_ok : IdentityText 20 timeGrain
  dimensionType_ok : IdentityText 50 dimensionType
  categoryCode_ok : IdentityText 20 categoryCode
  deriving DecidableEq

/-- An optional text that is not blank. -/
def Named (text : Option String) : Prop := ∃ name ∈ text, isBlank name = false

/-- `_validate_effective_binding`: a missing result has no value; any other tells its origin, its revision and when it was computed, and has
no value where there is no data or the computation failed. -/
def EffectiveBinding (status : PublishedMetricStatus) (value : Option Decimal) (origin revision : Option String)
    (computedAt : Option AwareDatetime) : Prop :=
  if status = .missing then value = none
  else Named origin ∧ Named revision ∧ computedAt ≠ none ∧ (status = .noData ∨ status = .failed → value = none)

structure EffectivePublishedMetricResult where
  key : PublishedMetricKey
  status : PublishedMetricStatus
  value : Option Decimal := none
  valueType : Option String := none
  unit : Option String := none
  errorMessage : Option String := none
  dataQualityScore : Option Int := none
  computedAt : Option AwareDatetime := none
  dataAsOf : Option AwareDatetime := none
  freshnessStatus : FreshnessStatus := .unknown
  effectiveOrigin : Option String := none
  effectiveRevision : Option String := none
  valueType_ok : ∀ text ∈ valueType, TextWithin 32 text
  unit_ok : ∀ text ∈ unit, TextWithin 20 text
  errorMessage_ok : ∀ text ∈ errorMessage, text.length ≤ 2000
  dataQualityScore_ok : ∀ score ∈ dataQualityScore, 0 ≤ score ∧ score ≤ 100
  effectiveOrigin_ok : ∀ text ∈ effectiveOrigin, TextWithin 64 text
  effectiveRevision_ok : ∀ text ∈ effectiveRevision, TextWithin 256 text
  binding : EffectiveBinding status value effectiveOrigin effectiveRevision computedAt

/-! ## Canonical forms -/

/-- What computing a checksum raises: a timestamp whose instant is in no year of the calendar, or an integer of too many digits. -/
inductive ChecksumError
  | dateOutOfRange
  | tooManyDigits
  deriving DecidableEq, Repr

/-- `_canonical_decimal`. -/
def canonicalDecimal (value : Decimal) : String := if value.isZero then "0" else value.plainText

/-- `value.astimezone(timezone.utc).isoformat()`. -/
def canonicalTimestamp (value : AwareDatetime) : Except ChecksumError String :=
  match value.toUtc with
  | some utc => .ok (utcIsoformat utc)
  | none => .error .dateOutOfRange

/-- `_canonical_semantic` of an optional timestamp. -/
def optionalTimestamp : Option AwareDatetime → Except ChecksumError Json
  | none => .ok .null
  | some value => (canonicalTimestamp value).map .str

/-- An optional value as JSON. -/
def optional {α : Type} (write : α → Json) (value : Option α) : Json := (value.map write).getD .null

/-- `_canonical_semantic` of the time of a key. -/
def MetricTimeValue.payload : MetricTimeValue → Json
  | .date d => .str d.isoformat
  | .currentState => .str "CURRENT_STATE"

/-- `_canonical_semantic(key.model_dump(mode="python"))`. -/
def PublishedMetricKey.payload (key : PublishedMetricKey) : Json :=
  .obj [("metric_code", .str key.metricCode), ("time_grain", .str key.timeGrain), ("time_value", key.timeValue.payload),
    ("dimension_type", .str key.dimensionType), ("area_id", optional .int key.areaId), ("team_id", optional .int key.teamId),
    ("employee_id", optional .int key.employeeId), ("category_code", .str key.categoryCode)]

/-- `_canonical_semantic(result.model_dump(mode="python"))`. -/
def EffectivePublishedMetricResult.payload (result : EffectivePublishedMetricResult) : Except ChecksumError Json := do
  let computedAt ← optionalTimestamp result.computedAt
  let dataAsOf ← optionalTimestamp result.dataAsOf
  return .obj [("schema_version", .str "1.0"), ("key", result.key.payload), ("status", .str result.status.value),
    ("value", optional (fun value => .str (canonicalDecimal value)) result.value), ("value_type", optional .str result.valueType),
    ("unit", optional .str result.unit), ("error_message", optional .str result.errorMessage),
    ("data_quality_score", optional .int result.dataQualityScore), ("computed_at", computedAt), ("data_as_of", dataAsOf),
    ("freshness_status", .str result.freshnessStatus.value), ("effective_origin", optional .str result.effectiveOrigin),
    ("effective_revision", optional .str result.effectiveRevision)]

/-! ## Checksums -/

/-- `_canonical_json`. -/
def canonicalJson (payload : Json) : Except ChecksumError String := if Json.writable payload then .ok payload.dumps else .error .tooManyDigits

/-- The text that the checksum of a key is the digest of. -/
def PublishedMetricKey.checksumText (key : PublishedMetricKey) : Except ChecksumError String := canonicalJson key.payload

/-- The text that the checksum of a result is the digest of. -/
def EffectivePublishedMetricResult.checksumText (result : EffectivePublishedMetricResult) : Except ChecksumError String := do
  canonicalJson (← result.payload)

/-! ## Requests -/

/-- Why a request is rejected for its keys. -/
inductive RequestError
  | checksum (error : ChecksumError)
  | notDistinct
  deriving DecidableEq, Repr

/-- `checksum` of a key, of the digest of a text. -/
def PublishedMetricKey.checksum {δ : Type} (sha256 : String → δ) (key : PublishedMetricKey) : Except RequestError δ :=
  match key.checksumText with
  | .ok text => .ok (sha256 text)
  | .error error => .error (.checksum error)

/-- The keys of a `PublishedMetricReadRequest`: from 1 to 256. -/
structure RequestKeys where
  keys : List PublishedMetricKey
  bounds : 1 ≤ keys.length ∧ keys.length ≤ 256

/-- `_distinct_keys`. -/
def distinctKeys {δ : Type} [DecidableEq δ] (sha256 : String → δ) (request : RequestKeys) : Except RequestError Unit := do
  let checksums ← request.keys.mapM (·.checksum sha256)
  if (fromKeys checksums).length ≠ checksums.length then throw .notDistinct

end Nl2Sql.Published
