import Nl2Sql.Lib.Sorting
import Nl2Sql.Theorems.Noninterference

/-!
# The selection of a source

A query is read from the first aggregate that is fresh, or, where every aggregate approved for the metric was rejected and leaves room
for it, from the first detail source that compiles. What is not a rejection ends the selection at the source that raised it.
-/

namespace Nl2Sql

open Py Sql

namespace MetricQueryCompiler

variable (D : MetricDigests) (c : MetricQueryCompiler) (s : Selection)

/-- The sources of the metric, by their id. -/
def sources : List RelationBinding :=
  (c.bindings.filter fun item => item.sourceRef = s.metric.sourceRef).insertionSort
    fun a b => a.deploymentSourceId.val ≤ b.deploymentSourceId.val

variable (source : RelationBinding)

/-- The query of a source, whatever is recorded with it. -/
def attempt : MetricM CompiledMetricQuery := c.compileWithFreshness D s source .freshApprovedAggregate []

/-- A source is an aggregate that the strategy allows and that was approved for the metric and the policy. -/
def Matches : Prop :=
  s.plan.sourceStrategy = .aggregateFirst ∧ ∃ aggregate ∈ source.aggregate, approvedFor D aggregate s.metric s.policy

instance (source : RelationBinding) : Decidable (Matches D s source) := inferInstanceAs (Decidable (_ ∧ _))

/-- Why an aggregate was rejected: it is not fresh, or its query was. -/
def aggregateRejection? : Option SourceDegradation :=
  match c.attempt D s source with
  | .ok query =>
    match query.freshness.status with
    | .fresh => none
    | .stale => some .aggregateStale
    | .unknown => some .aggregateUnknown
  | .error (.step code) => code.rejection?
  | .error .raised => none

/-- The code of a rejected aggregate: that it is stale or that its freshness is not known, or what its query raised. -/
def RejectedWith (text : String) : Prop :=
  (∃ query, c.attempt D s source = .ok query ∧
    ((query.freshness.status = .stale ∧ text = "aggregate_stale") ∨
      (query.freshness.status = .unknown ∧ text = "aggregate_unknown"))) ∨
    ∃ code, c.attempt D s source = .error (.step code) ∧ code.rejection?.isSome = true ∧ text = code.text

/-- Why a detail source was rejected: its query was. -/
def detailRejection? : Option SourceDegradation :=
  match c.attempt D s source with
  | .ok _ => none
  | .error (.step code) => code.rejection?
  | .error .raised => none

/-- The strategy allows a detail source. -/
def DetailAllowed : Prop := s.plan.sourceStrategy = .detailRequired → source.allowDetailRequired = true

/-- Every aggregate approved for the request was rejected. -/
def AggregatesRejected : Prop := ∀ source ∈ c.sources s, Matches D s source → (c.aggregateRejection? D s source).isSome = true

/-- Every aggregate approved for the request leaves room for a detail source. -/
def FallbackAllowed : Prop := ∀ source ∈ c.sources s, Matches D s source → source.allowDetailFallback = true

/-- A source is tried as an aggregate: every one before it was rejected. -/
def AggregateTried : Prop :=
  ∃ before after, c.sources s = before ++ source :: after ∧ Matches D s source ∧
    ∀ earlier ∈ before, Matches D s earlier → (c.aggregateRejection? D s earlier).isSome = true

/-- A source is tried as a detail source: the aggregates leave room for it, and every one before it was rejected. -/
def DetailTried : Prop :=
  AggregatesRejected D c s ∧ FallbackAllowed D c s ∧ source.aggregate = none ∧ DetailAllowed s source ∧
    ∃ before after, c.sources s = before ++ source :: after ∧ ∀ earlier ∈ before, earlier.aggregate = none →
      DetailAllowed s earlier ∧ (c.detailRejection? D s earlier).isSome = true

end MetricQueryCompiler

/-- An error that is no rejection of a source. -/
def MetricError.Final (e : MetricError) : Prop := ∀ code, e = .step code → code.rejection? = none

namespace SourceSelectionAux

open MetricAux MetricQueryCompiler

variable {D : MetricDigests} {c : MetricQueryCompiler} {s : Selection} {q : CompiledMetricQuery}

/-! ## What is recorded with a query -/

/-- The degradation recorded for a code has its text. -/
theorem degradationText_rejection {code : MetricCode} {degradation : SourceDegradation} (h : code.rejection? = some degradation) :
    degradationText degradation = code.text := by
  cases code <;> cases h <;> rfl

variable {source : RelationBinding}

/-- What is met at a rejected aggregate is its code. -/
theorem rejectedWith_iff {text : String} :
    RejectedWith D c s source text ↔ ∃ d, c.aggregateRejection? D s source = some d ∧ degradationText d = text := by
  unfold RejectedWith aggregateRejection?
  cases c.attempt D s source with
  | ok query =>
    have hno : ¬∃ code, (.ok query : MetricM CompiledMetricQuery) = .error (.step code) ∧ code.rejection?.isSome = true ∧ text = code.text :=
      fun ⟨_, h, _⟩ => nomatch h
    rw [or_iff_left hno]
    simp only [Except.ok.injEq, exists_eq_left']
    cases query.freshness.status <;> simp [degradationText, eq_comm]
  | error e =>
    have hno : ¬∃ query, (.error e : MetricM CompiledMetricQuery) = .ok query ∧
        ((query.freshness.status = .stale ∧ text = "aggregate_stale") ∨
          (query.freshness.status = .unknown ∧ text = "aggregate_unknown")) := fun ⟨_, h, _⟩ => nomatch h
    rw [or_iff_right hno]
    cases e with
    | raised => exact ⟨fun ⟨_, h, _⟩ => (nomatch h), fun ⟨_, h, _⟩ => nomatch h⟩
    | step code =>
      constructor
      · rintro ⟨code', hcode, hsome, rfl⟩
        cases hcode
        obtain ⟨d, hd⟩ := Option.isSome_iff_exists.mp hsome
        exact ⟨d, hd, degradationText_rejection hd⟩
      · rintro ⟨d, hd, rfl⟩
        exact ⟨code, rfl, Option.isSome_iff_exists.mpr ⟨d, hd⟩, degradationText_rejection hd⟩

/-- A query with what is recorded of its selection. -/
def recorded (reason : SelectionReason) (degradation : List SourceDegradation) (query : CompiledMetricQuery) : CompiledMetricQuery :=
  { query with selectionReason := reason, degradation := degradation }

/-- What is recorded of the selection does not decide whether a source compiles. -/
theorem compileSource_recorded (r : SourceRequest) (reason : SelectionReason) (degradation : List SourceDegradation) :
    c.compileSource D r reason degradation = recorded reason degradation <$> c.compileSource D r .freshApprovedAggregate [] := by
  simp only [compileSource, map_bind, map_pure]
  rfl

theorem compileWithFreshness_recorded (source : RelationBinding) (reason : SelectionReason) (degradation : List SourceDegradation) :
    c.compileWithFreshness D s source reason degradation = recorded reason degradation <$> c.attempt D s source := by
  simp only [MetricQueryCompiler.attempt, compileWithFreshness, map_bind]
  refine congrArg _ (funext fun freshness => ?_)
  exact compileSource_recorded _ reason degradation

/-- The query of a source is of its kind, and nothing is recorded with it yet. -/
theorem attempt_eq_ok (h : c.attempt D s source = .ok q) :
    q.sourceKind = (if source.aggregate.isSome = true then .approvedAggregate else .approvedDetail) ∧ q.degradation = [] := by
  obtain ⟨freshness, -, h⟩ := bind_eq_ok.mp h
  obtain ⟨-, -, h⟩ := bind_eq_ok.mp h
  obtain ⟨relation, -, h⟩ := bind_eq_ok.mp h
  obtain ⟨-, -, h⟩ := bind_eq_ok.mp h
  obtain ⟨authorized, -, h⟩ := bind_eq_ok.mp h
  obtain ⟨scope, -, h⟩ := bind_eq_ok.mp h
  obtain ⟨-, -, h⟩ := bind_eq_ok.mp h
  obtain ⟨-, -, h⟩ := bind_eq_ok.mp h
  obtain ⟨-, -, h⟩ := bind_eq_ok.mp h
  obtain ⟨-, -, h⟩ := bind_eq_ok.mp h
  obtain ⟨start, -, h⟩ := bind_eq_ok.mp h
  obtain ⟨grouping, -, h⟩ := bind_eq_ok.mp h
  obtain ⟨draft, -, h⟩ := bind_eq_ok.mp h
  cases h
  exact ⟨rfl, rfl⟩

/-! ## The loops -/

/-- The source at which the loop over the aggregates ends. -/
def EndsAggregates (D : MetricDigests) (c : MetricQueryCompiler) (s : Selection) (source : RelationBinding) : Prop :=
  Matches D s source ∧ c.aggregateRejection? D s source = none

instance (source : RelationBinding) : Decidable (EndsAggregates D c s source) := inferInstanceAs (Decidable (_ ∧ _))

/-- A source that does not match is passed over. -/
theorem tryAggregates_skip (h : ¬Matches D s source) (rest : List RelationBinding) (state : Rejections) :
    c.tryAggregates D s (source :: rest) state = c.tryAggregates D s rest state := by
  rw [tryAggregates]
  split
  · rfl
  · rename_i aggregate haggregate
    rw [if_pos]
    cases hstrategy : s.plan.sourceStrategy with
    | detailRequired => exact Or.inl rfl
    | aggregateFirst => exact Or.inr fun happroved => h ⟨hstrategy, aggregate, haggregate, happroved⟩

/-- The loop at a source that matches, by what was attempted there. -/
theorem tryAggregates_match (h : Matches D s source) (rest : List RelationBinding) (state : Rejections) :
    (c.aggregateRejection? D s source = none → c.tryAggregates D s (source :: rest) state = .inl <$> c.attempt D s source) ∧
    ∀ degradation, c.aggregateRejection? D s source = some degradation →
      ∃ code, c.tryAggregates D s (source :: rest) state = c.tryAggregates D s rest (state.add source code degradation) := by
  obtain ⟨hstrategy, aggregate, haggregate, happroved⟩ := h
  have htried : ¬(s.plan.sourceStrategy = .detailRequired ∨ ¬approvedFor D aggregate s.metric s.policy) := by
    rintro (hdetail | hnot)
    · rw [hstrategy] at hdetail
      cases hdetail
    · exact hnot happroved
  have hattempt : c.compileWithFreshness D s source .freshApprovedAggregate [] = c.attempt D s source := rfl
  rw [tryAggregates, Option.mem_def.mp haggregate]
  unfold aggregateRejection?
  simp only [if_neg htried, hattempt]
  cases c.attempt D s source with
  | ok query =>
    dsimp only
    cases query.freshness.status with
    | fresh => exact ⟨fun _ => rfl, (by rintro _ ⟨⟩)⟩
    | stale => exact ⟨(by rintro ⟨⟩), fun degradation h => ⟨_, by cases h; rfl⟩⟩
    | unknown => exact ⟨(by rintro ⟨⟩), fun degradation h => ⟨_, by cases h; rfl⟩⟩
  | error e =>
    cases e with
    | raised => exact ⟨fun _ => rfl, (by rintro _ ⟨⟩)⟩
    | step code =>
      dsimp only
      cases code.rejection? with
      | none => exact ⟨fun _ => rfl, (by rintro _ ⟨⟩)⟩
      | some degradation => exact ⟨(by rintro ⟨⟩), fun degradation' h => ⟨code, by cases h; rfl⟩⟩

/-- The loop over the aggregates ends at the first that is not rejected, with what was attempted there; where there is none, all that
was met is recorded. -/
theorem tryAggregates_eq (sources : List RelationBinding) (state : Rejections) :
    (∀ source, sources.find? (fun source => EndsAggregates D c s source) = some source →
      c.tryAggregates D s sources state = .inl <$> c.attempt D s source) ∧
    (sources.find? (fun source => EndsAggregates D c s source) = none →
      ∃ state', c.tryAggregates D s sources state = .ok (.inr state') ∧
        state'.degradation = state.degradation ++ (sources.filter fun source => Matches D s source).filterMap (c.aggregateRejection? D s) ∧
        (state'.blocked = [] ↔ state.blocked = [] ∧ ∀ source ∈ sources, Matches D s source → source.allowDetailFallback = true)) := by
  induction sources generalizing state with
  | nil => exact ⟨fun _ hfound => absurd hfound.symm (Option.some_ne_none _), fun _ => ⟨state, rfl, by simp, by simp⟩⟩
  | cons source rest ih =>
    by_cases hmatches : Matches D s source
    · obtain ⟨hends, hrejected⟩ := tryAggregates_match (c := c) hmatches rest state
      cases hrejection : c.aggregateRejection? D s source with
      | none =>
        rw [List.find?_cons_of_pos (by simp [EndsAggregates, hmatches, hrejection])]
        refine ⟨fun found hfound => ?_, nofun⟩
        rw [← Option.some.inj hfound]
        exact hends hrejection
      | some degradation =>
        obtain ⟨code, hcode⟩ := hrejected degradation hrejection
        rw [List.find?_cons_of_neg (by simp [EndsAggregates, hrejection]), hcode, List.filter_cons_of_pos (by simpa using hmatches),
          List.filterMap_cons_some hrejection]
        obtain ⟨hfound, hnone⟩ := ih (state.add source code degradation)
        refine ⟨hfound, fun h => ?_⟩
        obtain ⟨state', hstate, hdegradation, hblocked⟩ := hnone h
        refine ⟨state', hstate, by simp [hdegradation, Rejections.add], hblocked.trans ?_⟩
        cases hallow : source.allowDetailFallback <;> simp [Rejections.add, hallow, hmatches]
    · rw [tryAggregates_skip hmatches, List.find?_cons_of_neg (by simp [EndsAggregates, hmatches]),
        List.filter_cons_of_neg (by simpa using hmatches)]
      obtain ⟨hfound, hnone⟩ := ih state
      refine ⟨hfound, fun h => ?_⟩
      obtain ⟨state', hstate, hdegradation, hblocked⟩ := hnone h
      exact ⟨state', hstate, hdegradation, hblocked.trans (by simp [hmatches])⟩

/-- The source at which the loop over the detail sources ends. -/
def EndsDetails (D : MetricDigests) (c : MetricQueryCompiler) (s : Selection) (source : RelationBinding) : Prop :=
  source.aggregate.isNone = true ∧ (¬DetailAllowed s source ∨ c.detailRejection? D s source = none)

instance (source : RelationBinding) : Decidable (DetailAllowed s source) :=
  inferInstanceAs (Decidable (s.plan.sourceStrategy = .detailRequired → source.allowDetailRequired = true))

instance (source : RelationBinding) : Decidable (EndsDetails D c s source) := inferInstanceAs (Decidable (_ ∧ _))

/-- What is recorded of the selection of a detail source, after the degradation of the aggregates. -/
def recordedDetail (degradation : List SourceDegradation) : CompiledMetricQuery → CompiledMetricQuery :=
  recorded (if degradation = [] then .approvedDetail else .approvedDetailFallback) (sortedDegradation degradation)

/-- The loop at a detail source that the strategy allows, by what was attempted there. -/
theorem tryDetails_allowed (hdetail : source.aggregate.isNone = true) (hallowed : DetailAllowed s source)
    (degradation : List SourceDegradation) (rest : List RelationBinding) (rejected : List MetricCode) :
    (c.detailRejection? D s source = none →
      c.tryDetails D s degradation (source :: rest) rejected = recordedDetail degradation <$> c.attempt D s source) ∧
    ((c.detailRejection? D s source).isSome = true →
      ∃ rejected', c.tryDetails D s degradation (source :: rest) rejected = c.tryDetails D s degradation rest rejected') := by
  have hnotdenied : ¬(s.plan.sourceStrategy = .detailRequired ∧ source.allowDetailRequired = false) := by
    rintro ⟨hstrategy, hdenied⟩
    rw [hallowed hstrategy] at hdenied
    cases hdenied
  have hnotaggregate : ¬source.aggregate.isSome = true := by
    rw [Option.isNone_iff_eq_none.mp hdetail]
    rintro ⟨⟩
  rw [tryDetails, if_neg hnotaggregate, if_neg hnotdenied, compileWithFreshness_recorded]
  unfold detailRejection?
  cases c.attempt D s source with
  | ok query => exact ⟨fun _ => rfl, (by rintro ⟨⟩)⟩
  | error e =>
    cases e with
    | raised => exact ⟨fun _ => rfl, (by rintro ⟨⟩)⟩
    | step code =>
      have hraised : ∀ f : CompiledMetricQuery → CompiledMetricQuery,
          f <$> (.error (.step code) : MetricM CompiledMetricQuery) = .error (.step code) := fun _ => rfl
      simp only [hraised]
      cases code.rejection? with
      | none => exact ⟨fun _ => rfl, (by rintro ⟨⟩)⟩
      | some degradation => exact ⟨(by rintro ⟨⟩), fun _ => ⟨_, rfl⟩⟩

/-- The loop over the detail sources ends at the first that the strategy denies or that is not rejected. -/
theorem tryDetails_eq (degradation : List SourceDegradation) (sources : List RelationBinding) (rejected : List MetricCode) :
    (∀ source, sources.find? (fun source => EndsDetails D c s source) = some source →
      c.tryDetails D s degradation sources rejected =
        if DetailAllowed s source then recordedDetail degradation <$> c.attempt D s source else .error (.step .detailStrategyDenied)) ∧
    (sources.find? (fun source => EndsDetails D c s source) = none →
      ∃ code, c.tryDetails D s degradation sources rejected = .error (.step code)) := by
  induction sources generalizing rejected with
  | nil => exact ⟨fun _ hfound => absurd hfound.symm (Option.some_ne_none _), fun _ => ⟨_, rfl⟩⟩
  | cons source rest ih =>
    by_cases hdetail : source.aggregate.isNone = true
    · by_cases hallowed : DetailAllowed s source
      · obtain ⟨hends, hrejected⟩ := tryDetails_allowed (D := D) (c := c) hdetail hallowed degradation rest rejected
        cases hrejection : c.detailRejection? D s source with
        | none =>
          rw [List.find?_cons_of_pos (by simp [EndsDetails, hdetail, hrejection])]
          refine ⟨fun found hfound => ?_, nofun⟩
          rw [← Option.some.inj hfound, if_pos hallowed]
          exact hends hrejection
        | some _ =>
          obtain ⟨rejected', hrest⟩ := hrejected (by rw [hrejection]; rfl)
          rw [List.find?_cons_of_neg (by simp [EndsDetails, hallowed, hrejection]), hrest]
          exact ih rejected'
      · rw [List.find?_cons_of_pos (by simp [EndsDetails, hdetail, hallowed])]
        refine ⟨fun found hfound => ?_, nofun⟩
        unfold DetailAllowed at hallowed
        rw [Classical.not_imp, Bool.not_eq_true] at hallowed
        rw [← Option.some.inj hfound, tryDetails, if_neg (by simpa using hdetail), if_pos hallowed, if_neg]
        exact fun h => by simp [h hallowed.1] at hallowed
    · rw [List.find?_cons_of_neg (by simp [EndsDetails, hdetail]), tryDetails, if_pos (by simpa [Option.isSome_iff_ne_none] using hdetail)]
      exact ih rejected

/-! ## What is recorded -/

/-- The texts of different degradations differ. -/
theorem degradationText_injective : Function.Injective degradationText := by
  intro a b h
  cases a <;> cases b <;> first | rfl | (exact absurd h (by decide))

/-- The recorded degradation has what was met, in the order of the texts and without repetition. -/
theorem sortedDegradation_spec (degradation : List SourceDegradation) :
    (∀ d, d ∈ sortedDegradation degradation ↔ d ∈ degradation) ∧
      ((sortedDegradation degradation).map degradationText).Pairwise (· < ·) := by
  have hsorted : sortedDegradation degradation = sortBy degradationText (fromKeys degradation) := rfl
  rw [hsorted]
  refine ⟨fun d => by rw [mem_sortBy, mem_fromKeys], List.pairwise_map.mpr ?_⟩
  have hnodup : (sortBy degradationText (fromKeys degradation)).Nodup := (sortBy_perm _ _).nodup_iff.mpr (fromKeys_nodup degradation)
  refine ((pairwise_sortBy degradationText (fromKeys degradation)).and hnodup).imp fun ⟨hle, hne⟩ => ?_
  exact lt_of_le_of_ne hle fun htext => hne (degradationText_injective htext)

/-! ## The selection -/

/-- What an attempt that was not a rejection ended with, for an aggregate: a fresh query, or an error that is no rejection. -/
theorem attempt_of_not_rejected (h : c.aggregateRejection? D s source = none) :
    (∀ q, c.attempt D s source = .ok q → q.freshness.status = .fresh) ∧ ∀ e, c.attempt D s source = .error e → e.Final := by
  unfold aggregateRejection? at h
  constructor
  · intro q hq
    rw [hq] at h
    dsimp only at h
    cases hstatus : q.freshness.status with
    | fresh => rfl
    | stale =>
      rw [hstatus] at h
      nomatch h
    | unknown =>
      rw [hstatus] at h
      nomatch h
  · intro e he code hcode
    rw [he, hcode] at h
    exact h

/-- An error that is no rejection rejects no source. -/
theorem not_rejected_of_final {e : MetricError} (he : e.Final) (h : c.attempt D s source = .error e) :
    c.aggregateRejection? D s source = none ∧ c.detailRejection? D s source = none := by
  unfold aggregateRejection? detailRejection?
  rw [h]
  cases e with
  | raised => exact ⟨rfl, rfl⟩
  | step code => exact ⟨he code rfl, he code rfl⟩

/-- The degradation that was met. -/
def metDegradation (D : MetricDigests) (c : MetricQueryCompiler) (s : Selection) : List SourceDegradation :=
  ((c.sources s).filter fun source => Matches D s source).filterMap (c.aggregateRejection? D s)

/-- The texts of the recorded degradation are the codes of the rejected aggregates. -/
theorem mem_recordedTexts {text : String} :
    text ∈ (sortedDegradation (metDegradation D c s)).map degradationText ↔
      ∃ source ∈ c.sources s, Matches D s source ∧ RejectedWith D c s source text := by
  simp only [List.mem_map, (sortedDegradation_spec _).1, metDegradation, List.mem_filterMap, List.mem_filter, decide_eq_true_iff,
    rejectedWith_iff]
  constructor
  · rintro ⟨d, ⟨source, ⟨hsource, hmatches⟩, hd⟩, htext⟩
    exact ⟨source, hsource, hmatches, d, hd, htext⟩
  · rintro ⟨source, hsource, hmatches, d, hd, htext⟩
    exact ⟨d, ⟨source, ⟨hsource, hmatches⟩, hd⟩, htext⟩

/-- The loops, one after the other. -/
theorem selectSource_eq : c.selectSource D s =
    c.tryAggregates D s (c.sources s) ⟨[], [], []⟩ >>= fun
      | .inl query => pure query
      | .inr state =>
        match state.blocked with
        | code :: _ => .error (.step code)
        | [] => c.tryDetails D s state.degradation (c.sources s) state.rejected := rfl

/-- Where every aggregate was rejected, the detail sources are tried, if every aggregate leaves room for it. -/
theorem selectSource_details (h : AggregatesRejected D c s) :
    (FallbackAllowed D c s → ∃ rejected,
      c.selectSource D s = c.tryDetails D s (metDegradation D c s) (c.sources s) rejected) ∧
    (¬FallbackAllowed D c s → ∃ code, c.selectSource D s = .error (.step code)) := by
  have hnone : (c.sources s).find? (fun source => EndsAggregates D c s source) = none := by
    rw [List.find?_eq_none]
    intro source hsource hends
    obtain ⟨hmatches, hrejection⟩ := decide_eq_true_iff.mp hends
    have hsome := h source hsource hmatches
    rw [hrejection] at hsome
    nomatch hsome
  obtain ⟨state, hstate, hdegradation, hblocked⟩ := (tryAggregates_eq (c.sources s) ⟨[], [], []⟩).2 hnone
  rw [List.nil_append] at hdegradation
  rw [selectSource_eq, hstate]
  have hfallback : state.blocked = [] ↔ FallbackAllowed D c s := hblocked.trans (and_iff_right rfl)
  rw [← hfallback]
  constructor
  · intro hempty
    refine ⟨state.rejected, ?_⟩
    change (match state.blocked with | code :: _ => _ | [] => _) = _
    rw [hempty, hdegradation]
    rfl
  · intro hne
    obtain ⟨code, rest, hcode⟩ := List.exists_cons_of_ne_nil hne
    refine ⟨code, ?_⟩
    change (match state.blocked with | code :: _ => _ | [] => _) = _
    rw [hcode]

/-- The selection ends at an aggregate that is tried and not rejected. -/
theorem selectSource_aggregate (h : AggregateTried D c s source)
    (hrejection : c.aggregateRejection? D s source = none) : c.selectSource D s = c.attempt D s source := by
  obtain ⟨before, after, hsources, hmatches, hbefore⟩ := h
  have hfind : (c.sources s).find? (fun source => EndsAggregates D c s source) = some source := by
    refine List.find?_eq_some_iff_append.mpr ⟨decide_eq_true_iff.mpr ⟨hmatches, hrejection⟩, before, after, hsources, ?_⟩
    intro earlier hearlier
    rw [Bool.not_eq_true', decide_eq_false_iff_not]
    rintro ⟨hmatches, hnone⟩
    have hsome := hbefore earlier hearlier hmatches
    rw [hnone] at hsome
    nomatch hsome
  rw [selectSource_eq, (tryAggregates_eq (c.sources s) ⟨[], [], []⟩).1 source hfind]
  cases c.attempt D s source <;> rfl

/-- The selection ends at a detail source that is tried and not rejected. -/
theorem selectSource_detail (h : DetailTried D c s source) (hrejection : c.detailRejection? D s source = none) :
    c.selectSource D s = recordedDetail (metDegradation D c s) <$> c.attempt D s source := by
  obtain ⟨hrejected, hfallback, hdetail, hallowed, before, after, hsources, hbefore⟩ := h
  have hfind : (c.sources s).find? (fun source => EndsDetails D c s source) = some source := by
    refine List.find?_eq_some_iff_append.mpr
      ⟨decide_eq_true_iff.mpr ⟨Option.isNone_iff_eq_none.mpr hdetail, .inr hrejection⟩, before, after, hsources, ?_⟩
    intro earlier hearlier
    rw [Bool.not_eq_true', decide_eq_false_iff_not]
    rintro ⟨hnone, hends⟩
    obtain ⟨hallowed, hsome⟩ := hbefore earlier hearlier (Option.isNone_iff_eq_none.mp hnone)
    rcases hends with hdenied | hends
    · exact hdenied hallowed
    · rw [hends] at hsome
      nomatch hsome
  obtain ⟨rejected, hselect⟩ := (selectSource_details hrejected).1 hfallback
  rw [hselect, (tryDetails_eq (metDegradation D c s) (c.sources s) rejected).1 source hfind, if_pos hallowed]

/-- The selection ends at a source that is tried and not rejected, or with a code. -/
theorem selectSource_cases (D : MetricDigests) (c : MetricQueryCompiler) (s : Selection) :
    (∃ source, AggregateTried D c s source ∧ c.aggregateRejection? D s source = none) ∨
      (∃ source, DetailTried D c s source ∧ c.detailRejection? D s source = none) ∨
      ∃ code, c.selectSource D s = .error (.step code) := by
  cases hfind : (c.sources s).find? (fun source => EndsAggregates D c s source) with
  | some source =>
    obtain ⟨hends, before, after, hsources, hbefore⟩ := List.find?_eq_some_iff_append.mp hfind
    obtain ⟨hmatches, hrejection⟩ := decide_eq_true_iff.mp hends
    refine .inl ⟨source, ⟨before, after, hsources, hmatches, fun earlier hearlier hearlierMatches => ?_⟩, hrejection⟩
    have hnot := hbefore earlier hearlier
    rw [Bool.not_eq_true', decide_eq_false_iff_not] at hnot
    exact Option.isSome_iff_ne_none.mpr fun hnone => hnot ⟨hearlierMatches, hnone⟩
  | none =>
    have hrejected : AggregatesRejected D c s := by
      intro source hsource hmatches
      have hnot := List.find?_eq_none.mp hfind source hsource
      exact Option.isSome_iff_ne_none.mpr fun hnone => hnot (decide_eq_true_iff.mpr ⟨hmatches, hnone⟩)
    obtain ⟨hdetails, hblocked⟩ := selectSource_details hrejected
    by_cases hfallback : FallbackAllowed D c s
    · obtain ⟨rejected, hselect⟩ := hdetails hfallback
      obtain ⟨hfound, hnone⟩ := tryDetails_eq (D := D) (c := c) (s := s) (metDegradation D c s) (c.sources s) rejected
      cases hfind : (c.sources s).find? (fun source => EndsDetails D c s source) with
      | none =>
        obtain ⟨code, hcode⟩ := hnone hfind
        exact .inr (.inr ⟨code, hselect.trans hcode⟩)
      | some source =>
        by_cases hallowed : DetailAllowed s source
        · obtain ⟨hends, before, after, hsources, hbefore⟩ := List.find?_eq_some_iff_append.mp hfind
          obtain ⟨hdetail, hends⟩ := decide_eq_true_iff.mp hends
          refine .inr (.inl ⟨source, ⟨hrejected, hfallback, Option.isNone_iff_eq_none.mp hdetail, hallowed, before, after, hsources, ?_⟩,
            hends.resolve_left (not_not.mpr hallowed)⟩)
          intro earlier hearlier hnone
          have hnot := hbefore earlier hearlier
          rw [Bool.not_eq_true', decide_eq_false_iff_not] at hnot
          have hearlierAllowed : DetailAllowed s earlier := by
            by_contra hdenied
            exact hnot ⟨Option.isNone_iff_eq_none.mpr hnone, .inl hdenied⟩
          exact ⟨hearlierAllowed, Option.isSome_iff_ne_none.mpr fun h => hnot ⟨Option.isNone_iff_eq_none.mpr hnone, .inr h⟩⟩
        · have hdenied := hfound source hfind
          rw [if_neg hallowed] at hdenied
          exact .inr (.inr ⟨_, hselect.trans hdenied⟩)
    · exact .inr (.inr (hblocked hfallback))

end SourceSelectionAux

open SourceSelectionAux MetricQueryCompiler

/-- The columns of the daily facts. -/
def dailyColumns : AggregateColumns where
  metricKey := ⟨"metric_key", by decide⟩
  formulaVersion := ⟨"formula_version", by decide⟩
  releaseId := ⟨"release_id", by decide⟩
  snapshotId := ⟨"snapshot_id", by decide⟩
  checkpoint := ⟨"checkpoint", by decide⟩
  time := ⟨"fact_day", by decide⟩
  grain := ⟨"grain", by decide⟩
  dimension := ⟨"dimension", by decide⟩
  value := ⟨"value", by decide⟩
  numerator := ⟨"numerator", by decide⟩
  denominator := ⟨"denominator", by decide⟩
  status := ⟨"status", by decide⟩
  dataAsOf := ⟨"data_as_of", by decide⟩

/-- The complaints with a day as the limit of their age, and without filters. -/
def dailyCount : MetricContract :=
  { complaintCount with
    filters := []
    freshnessSlaSeconds := some 86400
    filters_unique := List.nodup_nil
    sla_pos := by decide }

/-- The approval of the daily facts. -/
def dailyAggregate : AggregateContract where
  metricKey := ⟨"complaint_count", by decide⟩
  formulaVersion := complaintCount.formulaVersion
  operation := .count
  columns := dailyColumns
  metricContractSha256 := complaintDigests.metric dailyCount
  eligibilityPolicySha256 := complaintDigests.eligibility ⟨complaintCount.eligibilityPolicyId, []⟩
  columns_unique := by decide

/-- A source of the daily facts, with the permissions it asks for. -/
def dailyBinding (id : ContractId) (permissions : List String) : RelationBinding :=
  { complaintBinding with
    relationAssetId := "relation.complaint_facts"
    relationName := ⟨"complaint_facts", by decide⟩
    allowedColumns := [dailyColumns.metricKey, dailyColumns.formulaVersion, dailyColumns.releaseId, dailyColumns.snapshotId,
      dailyColumns.checkpoint, dailyColumns.time, dailyColumns.grain, dailyColumns.dimension, dailyColumns.value, dailyColumns.numerator,
      dailyColumns.denominator, dailyColumns.status, dailyColumns.dataAsOf]
    requiredPermissions := permissions
    sourceId := some id
    aggregate := some dailyAggregate
    asset_non_empty := by decide
    columns_non_empty := List.cons_ne_nil _ _ }

/-- The source that asks for a permission the caller does not have. -/
def restrictedDaily : RelationBinding := dailyBinding ⟨"complaints.daily.a", by decide⟩ ["nl2sql:restricted"]

/-- The source that any caller of the metric may read. -/
def commonDaily : RelationBinding := dailyBinding ⟨"complaints.daily.b", by decide⟩ []

/-- The relation of the daily facts. -/
def dailyRelation : RelationSnapshot where
  relationId := "ai.complaint_facts"
  columns := [⟨"metric_key", "text"⟩, ⟨"formula_version", "text"⟩, ⟨"release_id", "text"⟩, ⟨"snapshot_id", "text"⟩, ⟨"checkpoint", "text"⟩,
    ⟨"fact_day", "timestamp without time zone"⟩, ⟨"grain", "text"⟩, ⟨"dimension", "text"⟩, ⟨"value", "bigint"⟩, ⟨"numerator", "bigint"⟩,
    ⟨"denominator", "bigint"⟩, ⟨"status", "text"⟩, ⟨"data_as_of", "timestamptz"⟩]
  indexes := []
  estimatedRows := 400
  sensitivity := "internal"
  sensitiveColumns := []
  aggregateCoverage := ["complaint_count"]
  organizationCoverage := []

/-- The compiler of a deployment with both sources. -/
def dailyCompiler : MetricQueryCompiler :=
  { complaintCompiler with
    bindings := [restrictedDaily, commonDaily]
    authorization := none
    freshness := fun id => if id.val = "complaints.daily.b" then
        some ⟨⟨"complaints.daily.b", by decide⟩, .fresh, some 63905155100000000, some 63905155100000000, some ⟨"checkpoint.v1", by decide⟩,
          some salesRelease.val, some salesSnapshot.val,
          some ⟨"9d2f1a70c7d0f3e1b6a4587c2e90d4b3f8a1650e7c3b29d4856fe0a1b2c3d4e5", isSha256_ofList rfl⟩, by decide, by decide⟩
      else none
    bindings_unique := by decide }

/-- The request for the complaints of January. -/
def dailySelection : Selection where
  plan := { januaryPlan "metric.complaint_count" (Eq.refl false) with domain := complaintPlan.domain }
  context := { complaintContext with
    approvedRelationIds := ["relation.complaint_facts"]
    relations_length := by decide
    all_valid := by decide }
  metric := dailyCount
  policy := ⟨complaintCount.eligibilityPolicyId, []⟩
  release := { complaintRelease with
    documents := [⟨"relation.complaint_facts", Dict.ofList [("status", "active"), ("asset_type", "relation")]⟩] }
  snapshot := { complaintSnapshot with relations := [dailyRelation] }
  evaluatedAt := 63905155200000000

end Nl2Sql
