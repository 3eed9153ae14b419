import Nl2Sql.Lib.Lists
import Nl2Sql.Lib.Method
import Nl2Sql.Semantic.PublishedResult

/-!
# When the checksums of published results are exact

Two keys are hashed as one text exactly when they are equal, and two results exactly when they agree up to the number of their decimal and
the instants of their timestamps; a request is then rejected for its keys exactly when two of them are equal. All this holds of values whose
integers `json.dumps` writes and whose instants are in the calendar; of others no text is made.
-/

namespace Nl2Sql.Published

open Py Json

/-! ## What the values agree on -/

/-- The integers of a key are ones that `json.dumps` writes. -/
def PublishedMetricKey.Writable (key : PublishedMetricKey) : Prop :=
  (∀ id ∈ key.areaId, WritableInt id) ∧ (∀ id ∈ key.teamId, WritableInt id) ∧ ∀ id ∈ key.employeeId, WritableInt id

instance (key : PublishedMetricKey) : Decidable key.Writable := inferInstanceAs (Decidable (_ ∧ _ ∧ _))

/-- The integers of the key of a result are writable, and its instants are in the calendar. -/
def EffectivePublishedMetricResult.InRange (result : EffectivePublishedMetricResult) : Prop :=
  result.key.Writable ∧ (∀ t ∈ result.computedAt, t.InCalendar) ∧ ∀ t ∈ result.dataAsOf, t.InCalendar

/-- All fields agree: decimals as numbers, timestamps as instants. -/
structure SameResult (result other : EffectivePublishedMetricResult) : Prop where
  key : result.key = other.key
  status : result.status = other.status
  value : result.value.map Decimal.toRat = other.value.map Decimal.toRat
  valueType : result.valueType = other.valueType
  unit : result.unit = other.unit
  errorMessage : result.errorMessage = other.errorMessage
  dataQualityScore : result.dataQualityScore = other.dataQualityScore
  computedAt : result.computedAt.map AwareDatetime.instant = other.computedAt.map AwareDatetime.instant
  dataAsOf : result.dataAsOf.map AwareDatetime.instant = other.dataAsOf.map AwareDatetime.instant
  freshnessStatus : result.freshnessStatus = other.freshnessStatus
  effectiveOrigin : result.effectiveOrigin = other.effectiveOrigin
  effectiveRevision : result.effectiveRevision = other.effectiveRevision

/-- Making the texts of two values raises nothing, and the texts are one exactly when the values agree. -/
def Exact {α : Type} (text : α → Except ChecksumError String) (Agree : α → α → Prop) (a b : α) : Prop :=
  ∃ s t, text a = .ok s ∧ text b = .ok t ∧ (s = t ↔ Agree a b)

/-! ## Values of fields -/

/-- A value without parts. -/
def Scalar : Json → Prop
  | .null | .str _ | .int _ => True
  | _ => False

theorem Scalar.plain {v : Json} (h : Scalar v) : v.Plain := by
  cases v <;> trivial

theorem Scalar.sortKeys {v : Json} (h : Scalar v) : v.sortKeys = v := by
  cases v <;> first | rfl | exact h.elim

theorem scalar_optional {α : Type} {write : α → Json} (h : ∀ a, Scalar (write a)) (value : Option α) : Scalar (optional write value) := by
  cases value with
  | none => trivial
  | some a => exact h a

theorem scalar_timeValue (time : MetricTimeValue) : Scalar time.payload := by
  cases time <;> trivial

/-- An optional value is known by what is written of it. -/
theorem optional_eq_iff {α : Type} {write : α → Json} (hnull : ∀ a, write a ≠ .null) {value other : Option α} {β : Type} {f : α → β}
    (hwrite : ∀ a b, write a = write b ↔ f a = f b) : optional write value = optional write other ↔ value.map f = other.map f := by
  cases value with
  | none =>
    cases other with
    | none => exact iff_of_true rfl rfl
    | some b => exact iff_of_false (fun h => hnull b h.symm) (by simp)
  | some a =>
    cases other with
    | none => exact iff_of_false (hnull a) (by simp)
    | some b => exact (hwrite a b).trans Option.some_inj.symm

theorem scalar_str (value : Option String) : Scalar (optional .str value) := by
  have h : ∀ text : String, Scalar (.str text) := fun _ => trivial
  exact scalar_optional h value

theorem scalar_int (value : Option Int) : Scalar (optional .int value) := by
  have h : ∀ n : Int, Scalar (.int n) := fun _ => trivial
  exact scalar_optional h value

theorem scalar_decimal (value : Option Decimal) : Scalar (optional (fun value => .str (canonicalDecimal value)) value) := by
  have h : ∀ d : Decimal, Scalar (.str (canonicalDecimal d)) := fun _ => trivial
  exact scalar_optional h value

theorem optional_str_eq_iff {value other : Option String} : optional .str value = optional .str other ↔ value = other := by
  have hnull : ∀ text : String, Json.str text ≠ .null := fun _ h => nomatch h
  have h : optional Json.str value = optional Json.str other ↔ value.map id = other.map id :=
    optional_eq_iff hnull fun a b => by rw [Json.str.injEq, id, id]
  rwa [Option.map_id, id, id] at h

theorem optional_int_eq_iff {value other : Option Int} : optional .int value = optional .int other ↔ value = other := by
  have hnull : ∀ n : Int, Json.int n ≠ .null := fun _ h => nomatch h
  have h : optional Json.int value = optional Json.int other ↔ value.map id = other.map id :=
    optional_eq_iff hnull fun a b => by rw [Json.int.injEq, id, id]
  rwa [Option.map_id, id, id] at h

/-- The canonical text of a decimal is that of the number. -/
theorem canonicalDecimal_eq_iff (a b : Decimal) : canonicalDecimal a = canonicalDecimal b ↔ a.toRat = b.toRat := by
  have hcoeff : ∀ d : Decimal, d.isZero = true ↔ d.coeff = 0 := fun d => (Decimal.isZero_iff d).trans (Decimal.toRat_eq_zero_iff d)
  unfold canonicalDecimal
  by_cases ha : a.isZero = true
  · have hazero := (Decimal.isZero_iff a).mp ha
    rw [if_pos ha, hazero]
    by_cases hb : b.isZero = true
    · rw [if_pos hb, (Decimal.isZero_iff b).mp hb]
      exact iff_of_true rfl rfl
    · rw [if_neg hb]
      refine iff_of_false (fun h => ?_) fun h => ?_
      · exact Decimal.plainText_ne_zero (fun hzero => hb ((hcoeff b).mpr hzero)) h.symm
      · exact hb ((Decimal.isZero_iff b).mpr h.symm)
  · rw [if_neg ha]
    by_cases hb : b.isZero = true
    · rw [if_pos hb, (Decimal.isZero_iff b).mp hb]
      refine iff_of_false (fun h => ?_) fun h => ?_
      · exact Decimal.plainText_ne_zero (fun hzero => ha ((hcoeff a).mpr hzero)) h
      · exact ha ((Decimal.isZero_iff a).mpr h)
    · rw [if_neg hb]
      exact Decimal.plainText_inj (fun hzero => ha ((hcoeff a).mpr hzero)) fun hzero => hb ((hcoeff b).mpr hzero)

theorem optional_decimal_eq_iff {value other : Option Decimal} :
    optional (fun value => .str (canonicalDecimal value)) value = optional (fun value => .str (canonicalDecimal value)) other ↔
      value.map Decimal.toRat = other.map Decimal.toRat := by
  have hnull : ∀ d : Decimal, Json.str (canonicalDecimal d) ≠ .null := fun _ h => nomatch h
  have hwrite : ∀ a b : Decimal, Json.str (canonicalDecimal a) = .str (canonicalDecimal b) ↔ a.toRat = b.toRat := fun a b => by
    rw [Json.str.injEq, canonicalDecimal_eq_iff]
  exact optional_eq_iff hnull hwrite

/-- The time of a key is known by what is written of it: no date reads like the token. -/
theorem timeValue_eq_iff {time other : MetricTimeValue} : time.payload = other.payload ↔ time = other := by
  have htoken : ∀ d : Date, d.isoformat ≠ "CURRENT_STATE" := by
    intro d h
    have hlength := congrArg List.length (Date.toList_isoformat d [])
    have hyear : (Date.padded 4 d.year).toList.length = 4 := Date.length_padded (by decide) (lt_of_le_of_lt d.year_bounds.2 (by decide))
    have hmonth : (Date.padded 2 d.month).toList.length = 2 := Date.length_padded (by decide) (lt_of_le_of_lt d.month_bounds.2 (by decide))
    have hday : (Date.padded 2 d.day).toList.length = 2 := Date.length_padded (by decide) (lt_of_le_of_lt d.day_le (by decide))
    rw [h] at hlength
    simp [hyear, hmonth, hday] at hlength
  cases time with
  | date d =>
    cases other with
    | date e =>
      rw [MetricTimeValue.payload, MetricTimeValue.payload, Json.str.injEq, MetricTimeValue.date.injEq]
      exact ⟨Date.isoformat_injective, congrArg _⟩
    | currentState => exact iff_of_false (fun h => htoken d (Json.str.inj h)) fun h => nomatch h
  | currentState =>
    cases other with
    | date e => exact iff_of_false (fun h => htoken e (Json.str.inj h).symm) fun h => nomatch h
    | currentState => exact iff_of_true rfl rfl

theorem status_value_injective {status other : PublishedMetricStatus} (h : status.value = other.value) : status = other := by
  cases status <;> cases other <;> first | rfl | exact absurd h (by decide)

theorem freshness_value_injective {freshness other : FreshnessStatus} (h : freshness.value = other.value) : freshness = other := by
  cases freshness <;> cases other <;> first | rfl | exact absurd h (by decide)

/-! ## Timestamps -/

/-- A timestamp has a text exactly when its instant is in the calendar. -/
theorem optionalTimestamp_isOk {value : Option AwareDatetime} : (∃ v, optionalTimestamp value = .ok v) ↔ ∀ t ∈ value, t.InCalendar := by
  cases value with
  | none => exact iff_of_true ⟨_, rfl⟩ fun _ h => nomatch h
  | some t =>
    rw [optionalTimestamp, canonicalTimestamp]
    have hsome := AwareDatetime.toUtc_isSome_iff (t := t)
    cases hutc : t.toUtc with
    | none =>
      rw [hutc] at hsome
      exact iff_of_false (fun ⟨_, h⟩ => nomatch h) fun h => nomatch hsome.mpr (h t rfl)
    | some utc =>
      rw [hutc] at hsome
      exact iff_of_true ⟨_, rfl⟩ fun _ h => Option.some.inj h ▸ hsome.mp rfl

theorem scalar_timestamp {value : Option AwareDatetime} {v : Json} (h : optionalTimestamp value = .ok v) : Scalar v ∧ Json.writable v = true := by
  cases value with
  | none =>
    obtain rfl := Except.ok.inj h
    exact ⟨trivial, rfl⟩
  | some t =>
    rw [optionalTimestamp] at h
    cases htext : canonicalTimestamp t with
    | error e =>
      rw [htext] at h
      nomatch h
    | ok text =>
      rw [htext] at h
      obtain rfl := Except.ok.inj h
      exact ⟨trivial, rfl⟩

/-- Timestamps are written alike exactly when they are one instant. -/
theorem timestamp_eq_iff {value other : Option AwareDatetime} {v w : Json} (hv : optionalTimestamp value = .ok v)
    (hw : optionalTimestamp other = .ok w) : v = w ↔ value.map AwareDatetime.instant = other.map AwareDatetime.instant := by
  have hutc : ∀ {t : AwareDatetime} {v : Json}, optionalTimestamp (some t) = .ok v →
      ∃ utc : AwareDatetime, v = .str (utcIsoformat utc) ∧ utc.offset = 0 ∧ utc.instant = t.instant := by
    intro t v h
    rw [optionalTimestamp, canonicalTimestamp] at h
    cases hutc : t.toUtc with
    | none =>
      rw [hutc] at h
      nomatch h
    | some utc =>
      rw [hutc] at h
      exact ⟨utc, (Except.ok.inj h).symm, AwareDatetime.toUtc_eq_some_iff.mp hutc⟩
  cases value with
  | none =>
    obtain rfl := Except.ok.inj hv
    cases other with
    | none => exact iff_of_true (Except.ok.inj hw) rfl
    | some t =>
      obtain ⟨utc, rfl, -⟩ := hutc hw
      exact iff_of_false (fun h => nomatch h) (by simp)
  | some s =>
    obtain ⟨utc, rfl, hoffset, hinstant⟩ := hutc hv
    cases other with
    | none =>
      obtain rfl := Except.ok.inj hw
      exact iff_of_false (fun h => nomatch h) (by simp)
    | some t =>
      obtain ⟨utc', rfl, hoffset', hinstant'⟩ := hutc hw
      rw [Option.map_some, Option.map_some, Option.some_inj, Json.str.injEq, ← hinstant, ← hinstant',
        ← AwareDatetime.eq_iff_of_utc hoffset hoffset']
      exact ⟨utcIsoformat_injective hoffset hoffset', congrArg _⟩

/-! ## Keys -/

section Keys

variable {key other : PublishedMetricKey}

theorem writable_optional_int (value : Option Int) : Json.writable (optional .int value) = true ↔ ∀ n ∈ value, WritableInt n := by
  cases value with
  | none => exact iff_of_true rfl fun _ h => nomatch h
  | some n => exact decide_eq_true_iff.trans ⟨fun h _ heq => Option.some.inj heq ▸ h, fun h => h n rfl⟩

theorem writable_key : Json.writable key.payload = true ↔ key.Writable := by
  have htime : Json.writable key.timeValue.payload = true := by cases key.timeValue <;> rfl
  have htext : ∀ text, Json.writable (.str text) = true := fun _ => rfl
  rw [PublishedMetricKey.payload, Json.writable]
  simp only [Json.writableMembers, htime, htext, Bool.true_and, Bool.and_true, Bool.and_eq_true, writable_optional_int]
  rfl

theorem key_plain : key.payload.Plain := by
  have hnames : ["metric_code", "time_grain", "time_value", "dimension_type", "area_id", "team_id", "employee_id", "category_code"].Nodup := by
    decide
  exact ⟨hnames, trivial, trivial, (scalar_timeValue key.timeValue).plain, trivial, (scalar_int _).plain, (scalar_int _).plain,
    (scalar_int _).plain, trivial, trivial⟩

/-- A key is known by its payload. -/
theorem key_eq_of_sortKeys (h : key.payload.sortKeys = other.payload.sortKeys) : key = other := by
  have htext : ∀ text, (Json.str text).sortKeys = .str text := fun _ => rfl
  rw [PublishedMetricKey.payload, PublishedMetricKey.payload] at h
  have hmembers := sortedMembers_eq (by rfl) h
  simp only [List.map_cons, List.map_nil, sortedMember, List.cons.injEq, Prod.mk.injEq, true_and, and_true, (scalar_int _).sortKeys, htext,
    Json.str.injEq, (scalar_timeValue _).sortKeys, timeValue_eq_iff, optional_int_eq_iff] at hmembers
  obtain ⟨h1, h2, h3, h4, h5, h6, h7, h8⟩ := hmembers
  cases key
  cases other
  simp only at h1 h2 h3 h4 h5 h6 h7 h8
  subst h1 h2 h3 h4 h5 h6 h7 h8
  rfl

theorem keyText_eq_ok {text : String} : key.checksumText = .ok text ↔ key.Writable ∧ text = key.payload.dumps := by
  rw [PublishedMetricKey.checksumText, canonicalJson, ← writable_key]
  split
  · rename_i hwritable
    exact ⟨fun h => ⟨hwritable, (Except.ok.inj h).symm⟩, fun h => h.2 ▸ rfl⟩
  · rename_i hunwritable
    exact iff_of_false (fun h => nomatch h) fun h => hunwritable h.1

/-- The texts of keys are exact where their integers are writable. -/
theorem keyText_exact_iff : Exact PublishedMetricKey.checksumText Eq key other ↔ key.Writable ∧ other.Writable := by
  constructor
  · rintro ⟨s, t, hs, ht, -⟩
    exact ⟨(keyText_eq_ok.mp hs).1, (keyText_eq_ok.mp ht).1⟩
  · rintro ⟨hkey, hother⟩
    refine ⟨_, _, keyText_eq_ok.mpr ⟨hkey, rfl⟩, keyText_eq_ok.mpr ⟨hother, rfl⟩, fun h => ?_, fun h => h ▸ rfl⟩
    exact key_eq_of_sortKeys (sortKeys_eq_of_dumps key_plain key_plain h)

end Keys

/-! ## Results -/

section Results

variable {result other : EffectivePublishedMetricResult}

theorem writable_optional_text {α : Type} (write : α → String) (value : Option α) :
    Json.writable (optional (fun a => .str (write a)) value) = true := by
  cases value <;> rfl

/-- A score between 0 and 100 has few digits. -/
theorem writable_score {score : Int} (h : 0 ≤ score ∧ score ≤ 100) : WritableInt score := by
  have hlt : score.natAbs < 10 ^ 3 := by omega
  exact (Decimal.numDigits_le_of_lt (by decide) hlt).trans (by decide)

theorem payload_eq_ok {v : Json} : result.payload = .ok v ↔ ∃ computedAt dataAsOf, optionalTimestamp result.computedAt = .ok computedAt ∧
    optionalTimestamp result.dataAsOf = .ok dataAsOf ∧
    v = .obj [("schema_version", .str "1.0"), ("key", result.key.payload), ("status", .str result.status.value),
      ("value", optional (fun value => .str (canonicalDecimal value)) result.value), ("value_type", optional .str result.valueType),
      ("unit", optional .str result.unit), ("error_message", optional .str result.errorMessage),
      ("data_quality_score", optional .int result.dataQualityScore), ("computed_at", computedAt), ("data_as_of", dataAsOf),
      ("freshness_status", .str result.freshnessStatus.value), ("effective_origin", optional .str result.effectiveOrigin),
      ("effective_revision", optional .str result.effectiveRevision)] := by
  rw [EffectivePublishedMetricResult.payload, bind_eq_ok]
  refine exists_congr fun computedAt => ?_
  rw [bind_eq_ok, ← exists_and_left]
  refine exists_congr fun dataAsOf => and_congr_right fun _ => and_congr_right fun _ => ?_
  exact ⟨fun h => (Except.ok.inj h).symm, fun h => h ▸ rfl⟩

theorem writable_payload {v : Json} (h : result.payload = .ok v) : Json.writable v = true ↔ result.key.Writable := by
  obtain ⟨computedAt, dataAsOf, hcomputed, hdata, rfl⟩ := payload_eq_ok.mp h
  have htext : ∀ text, Json.writable (.str text) = true := fun _ => rfl
  have hoptional : ∀ value : Option String, Json.writable (optional .str value) = true := writable_optional_text id
  have hscore : Json.writable (optional .int result.dataQualityScore) = true :=
    (writable_optional_int _).mpr fun score hscore => writable_score (result.dataQualityScore_ok score hscore)
  rw [Json.writable]
  simp only [Json.writableMembers, htext, hoptional, hscore, writable_optional_text, (scalar_timestamp hcomputed).2, (scalar_timestamp hdata).2,
    Bool.true_and, Bool.and_true, writable_key]

theorem payload_plain {v : Json} (h : result.payload = .ok v) : v.Plain := by
  obtain ⟨computedAt, dataAsOf, hcomputed, hdata, rfl⟩ := payload_eq_ok.mp h
  have hnames : ["schema_version", "key", "status", "value", "value_type", "unit", "error_message", "data_quality_score", "computed_at",
    "data_as_of", "freshness_status", "effective_origin", "effective_revision"].Nodup := by decide
  exact ⟨hnames, trivial, key_plain, trivial, (scalar_decimal _).plain, (scalar_str _).plain, (scalar_str _).plain, (scalar_str _).plain,
    (scalar_int _).plain, (scalar_timestamp hcomputed).1.plain, (scalar_timestamp hdata).1.plain, trivial, (scalar_str _).plain,
    (scalar_str _).plain, trivial⟩

theorem resultText_eq_ok {text : String} : result.checksumText = .ok text ↔
    result.key.Writable ∧ ∃ v, result.payload = .ok v ∧ text = v.dumps := by
  rw [EffectivePublishedMetricResult.checksumText, bind_eq_ok, ← exists_and_left]
  refine exists_congr fun v => ?_
  rw [and_left_comm]
  refine and_congr_right fun hv => ?_
  rw [canonicalJson, ← writable_payload hv]
  split
  · rename_i hwritable
    exact ⟨fun h => ⟨hwritable, (Except.ok.inj h).symm⟩, fun h => h.2 ▸ rfl⟩
  · rename_i hunwritable
    exact iff_of_false (fun h => nomatch h) fun h => hunwritable h.1

/-- The payloads of two results say the same exactly when the results agree. -/
theorem sortKeys_payload_iff {v w : Json} (hv : result.payload = .ok v) (hw : other.payload = .ok w) :
    v.sortKeys = w.sortKeys ↔ SameResult result other := by
  obtain ⟨computedAt, dataAsOf, hcomputed, hdata, rfl⟩ := payload_eq_ok.mp hv
  obtain ⟨computedAt', dataAsOf', hcomputed', hdata', rfl⟩ := payload_eq_ok.mp hw
  have htext : ∀ text, (Json.str text).sortKeys = .str text := fun _ => rfl
  constructor
  · intro h
    have hmembers := sortedMembers_eq (by rfl) h
    simp only [List.map_cons, List.map_nil, sortedMember, List.cons.injEq, Prod.mk.injEq, true_and, and_true, (scalar_int _).sortKeys, htext,
      (scalar_str _).sortKeys, (scalar_decimal _).sortKeys, (scalar_timestamp hcomputed).1.sortKeys, (scalar_timestamp hdata).1.sortKeys,
      (scalar_timestamp hcomputed').1.sortKeys, (scalar_timestamp hdata').1.sortKeys, Json.str.injEq, optional_str_eq_iff,
      optional_int_eq_iff, optional_decimal_eq_iff, timestamp_eq_iff hcomputed hcomputed', timestamp_eq_iff hdata hdata'] at hmembers
    obtain ⟨hkey, hstatus, hnumber, htype, hunit, hmessage, hscore, hcomputed, hdata, hfresh, horigin, hrevision⟩ := hmembers
    exact ⟨key_eq_of_sortKeys hkey, status_value_injective hstatus, hnumber, htype, hunit, hmessage, hscore, hcomputed, hdata,
      freshness_value_injective hfresh, horigin, hrevision⟩
  · intro h
    rw [h.key, h.status, h.valueType, h.unit, h.errorMessage, h.dataQualityScore, h.freshnessStatus, h.effectiveOrigin, h.effectiveRevision,
      optional_decimal_eq_iff.mpr h.value, (timestamp_eq_iff hcomputed hcomputed').mpr h.computedAt, (timestamp_eq_iff hdata hdata').mpr h.dataAsOf]

/-- The texts of results are exact where their integers are writable and their instants in the calendar. -/
theorem resultText_exact_iff : Exact EffectivePublishedMetricResult.checksumText SameResult result other ↔ result.InRange ∧ other.InRange := by
  have hpayload : ∀ result : EffectivePublishedMetricResult, (∃ v, result.payload = .ok v) ↔
      (∀ t ∈ result.computedAt, t.InCalendar) ∧ ∀ t ∈ result.dataAsOf, t.InCalendar := by
    intro result
    rw [← optionalTimestamp_isOk, ← optionalTimestamp_isOk]
    constructor
    · rintro ⟨v, hv⟩
      obtain ⟨computedAt, dataAsOf, hcomputed, hdata, -⟩ := payload_eq_ok.mp hv
      exact ⟨⟨_, hcomputed⟩, _, hdata⟩
    · rintro ⟨⟨computedAt, hcomputed⟩, dataAsOf, hdata⟩
      exact ⟨_, payload_eq_ok.mpr ⟨_, _, hcomputed, hdata, rfl⟩⟩
  have hok : ∀ {result : EffectivePublishedMetricResult} {text : String}, result.checksumText = .ok text → result.InRange := by
    intro result text htext
    obtain ⟨hwritable, v, hv, -⟩ := resultText_eq_ok.mp htext
    exact ⟨hwritable, (hpayload result).mp ⟨v, hv⟩⟩
  constructor
  · rintro ⟨s, t, hs, ht, -⟩
    exact ⟨hok hs, hok ht⟩
  · rintro ⟨⟨hkey, htimes⟩, hkey', htimes'⟩
    obtain ⟨v, hv⟩ := (hpayload result).mpr htimes
    obtain ⟨w, hw⟩ := (hpayload other).mpr htimes'
    refine ⟨_, _, resultText_eq_ok.mpr ⟨hkey, v, hv, rfl⟩, resultText_eq_ok.mpr ⟨hkey', w, hw, rfl⟩, ?_⟩
    rw [← sortKeys_payload_iff hv hw]
    refine ⟨sortKeys_eq_of_dumps (payload_plain hv) (payload_plain hw), fun h => ?_⟩
    rw [← dumps_sortKeys, h, dumps_sortKeys]

end Results

/-! ## Requests -/

section Requests

variable {δ : Type} [DecidableEq δ] {sha256 : String → δ} {request : RequestKeys}

/-- No two different texts of keys of a request have one digest. -/
def DigestsTell (sha256 : String → δ) (request : RequestKeys) : Prop :=
  ∀ key ∈ request.keys, ∀ other ∈ request.keys, sha256 key.payload.dumps = sha256 other.payload.dumps → key.payload.dumps = other.payload.dumps

omit [DecidableEq δ] in
theorem checksum_eq_ok {key : PublishedMetricKey} (h : key.Writable) : key.checksum sha256 = .ok (sha256 key.payload.dumps) := by
  rw [PublishedMetricKey.checksum, keyText_eq_ok.mpr ⟨h, rfl⟩]

omit [DecidableEq δ] in
theorem writable_of_checksum {key : PublishedMetricKey} {digest : δ} (h : key.checksum sha256 = .ok digest) : key.Writable := by
  unfold PublishedMetricKey.checksum at h
  split at h
  · rename_i text htext
    exact (keyText_eq_ok.mp htext).1
  · nomatch h

/-- A request goes through exactly when the integers of its keys are writable and the keys differ. -/
theorem distinctKeys_eq_ok (hdigests : DigestsTell sha256 request) :
    distinctKeys sha256 request = .ok () ↔ (∀ key ∈ request.keys, key.Writable) ∧ request.keys.Nodup := by
  rw [distinctKeys, bind_eq_ok]
  constructor
  · rintro ⟨checksums, hchecksums, hdistinct⟩
    have hwritable : ∀ key ∈ request.keys, key.Writable := by
      intro key hkey
      obtain ⟨digest, hdigest⟩ := mapM_isOk.mp ⟨checksums, hchecksums⟩ key hkey
      exact writable_of_checksum hdigest
    obtain rfl := Except.ok.inj ((mapM_ok fun key hkey => checksum_eq_ok (hwritable key hkey)).symm.trans hchecksums)
    split at hdistinct
    · nomatch hdistinct
    · rename_i hlength
      exact ⟨hwritable, (length_fromKeys_eq_iff.mp (not_not.mp hlength)).of_map _⟩
  · rintro ⟨hwritable, hnodup⟩
    refine ⟨_, mapM_ok fun key hkey => checksum_eq_ok (hwritable key hkey), ?_⟩
    have hdistinct : (request.keys.map fun key => sha256 key.payload.dumps).Nodup := by
      refine hnodup.map_on fun key hkey other hother h => ?_
      exact key_eq_of_sortKeys (sortKeys_eq_of_dumps key_plain key_plain (hdigests key hkey other hother h))
    rw [if_neg (not_not.mpr (length_fromKeys_eq_iff.mpr hdistinct))]
    rfl

end Requests

theorem year_bounds : 1 ≤ 2026 ∧ 2026 ≤ 9999 := by decide

theorem month_bounds : 1 ≤ 1 ∧ 1 ≤ 12 := by decide

theorem day_bounds : 1 ≤ 31 ∧ 31 ≤ daysInMonth 2026 1 := by decide

/-- The key of a metric of the day, in an area. -/
def dayKey (areaId : Option Int) : PublishedMetricKey where
  metricCode := "order_total"
  timeGrain := "day"
  timeValue := .date ⟨2026, 1, 31, year_bounds, month_bounds, day_bounds⟩
  dimensionType := "area"
  areaId := areaId
  categoryCode := "all"
  metricCode_ok := by decide
  timeGrain_ok := by decide
  dimensionType_ok := by decide
  categoryCode_ok := by decide

/-- A request for one key in two areas. -/
def twoAreas : RequestKeys := ⟨[dayKey (some 0), dayKey none], by decide⟩

/-- A result computed at midnight on the first day of the calendar, eight hours east of UTC. -/
def firstMidnight : EffectivePublishedMetricResult where
  key := dayKey none
  status := .success
  value := some ⟨false, 1, 0⟩
  computedAt := some ⟨⟨1, 1, 1, by decide, month_bounds, by decide⟩, 0, 28800000000, by decide, by decide⟩
  effectiveOrigin := some "gold"
  effectiveRevision := some "1"
  valueType_ok := by decide
  unit_ok := by decide
  errorMessage_ok := by decide
  dataQualityScore_ok := by decide
  effectiveOrigin_ok := by decide
  effectiveRevision_ok := by decide
  binding := by
    rw [EffectiveBinding, if_neg (by decide)]
    exact ⟨⟨"gold", rfl, by decide⟩, ⟨"1", rfl, by decide⟩, Option.some_ne_none _, fun h => absurd h (by decide)⟩

end Nl2Sql.Published
