import Nl2Sql.Metric.Execute
import Nl2Sql.Theorems.Noninterference

/-!
# No result is cut

The gateway bounds every query by its own limit and the runner decides from the number of rows whether any can be missing. A result that
the runner returns is the whole result of the compiled query, or the whole top of a ranking.
-/

namespace Nl2Sql

open Py Sql

/-- A row of the database as the driver gives it. -/
def driverRow (driver : Value → Cell) (row : OutRow) : List (String × Cell) := row.map fun column => (column.1, driver column.2)

/-- The database answers a query: what it streams to the end is an answer of the query. -/
def AnswersQuery (S : Dialect) (driver : Value → Cell) (db : Database) (stream : DatabaseStream) (q : Query) (params : Params) : Prop :=
  stream.failure = none → ∃ out, q.Answers S params db (some out) ∧ stream.rows = out.map (driverRow driver)

/-- All rows of a query in an order that it admits, or the top of a ranking. -/
def CompleteRows (S : Dialect) (db : Database) (query : CompiledMetricQuery) (out : List OutRow) : Prop :=
  none ∉ query.query.results S query.params db ∧ ∃ rows, rows.Perm (query.query.results S query.params db).reduceOption ∧
    rows.Pairwise (orderLe query.query.orderBy) ∧
    out = if query.queryPlan.intent = .ranking then rows.take query.queryPlan.rankingLimit else rows

namespace TruncationAux

open MetricAux

/-! ## The gateway -/

/-- The loop over a stream keeps every row it is given. -/
theorem foldlM_streamRow {maxRows maxBytes : Nat} {rowSize : Dict String Cell → Nat} {raws : List (List (String × Cell))} {s s' : StreamState}
    (h : raws.foldlM (streamRow maxRows maxBytes rowSize) s = .ok s') : s'.rows = s.rows ++ raws.map fun raw => (maskRow raw).1 := by
  induction raws generalizing s with
  | nil =>
    cases h
    simp
  | cons raw raws ih =>
    rw [List.foldlM_cons] at h
    obtain ⟨next, hnext, h⟩ := bind_eq_ok.mp h
    have hrows : next.rows = s.rows ++ [(maskRow raw).1] := by
      unfold streamRow at hnext
      dsimp only at hnext
      generalize s.encodedSize + rowSize (maskRow raw).1 + (if s.rows = [] then 0 else 2) = size at hnext
      split at hnext
      · nomatch hnext
      · split at hnext
        · nomatch hnext
        · cases hnext
          rfl
    rw [ih h, hrows, List.map_cons, List.append_assoc]
    rfl

/-- A stream that was read to its end. -/
theorem streamInSession_eq_ok {maxRows maxBytes : Nat} {rowSize : Dict String Cell → Nat} {stream : DatabaseStream} {s : StreamState}
    (h : streamInSession maxRows maxBytes rowSize stream = .ok s) :
    stream.failure = none ∧ s.rows = stream.rows.map fun raw => (maskRow raw).1 := by
  obtain ⟨state, hstate, h⟩ := bind_eq_ok.mp h
  split at h
  · nomatch h
  · rename_i hnone
    cases h
    exact ⟨hnone, foldlM_streamRow hstate⟩

/-- A prepared query is the query with a limit that is at most the gateway's. -/
theorem prepare_eq_ok {g : QueryGateway} {q : Query} {prepared : PreparedQuery} (h : g.prepare q = .ok prepared) :
    prepared.query = { q with limit := some (q.limit.elim g.maxRows (min · g.maxRows)) } := by
  unfold QueryGateway.prepare at h
  split at h
  · nomatch h
  · obtain ⟨limit, hlimit, h⟩ := bind_eq_ok.mp h
    cases h
    have : limit = q.limit.elim g.maxRows (min · g.maxRows) := by
      unfold limitClause at hlimit
      cases hq : q.limit with
      | none =>
        rw [hq] at hlimit
        cases hlimit
        rfl
      | some n =>
        rw [hq] at hlimit
        simp only [Option.map_some, applyLimit, boundedLimit] at hlimit
        rw [if_neg (by omega)] at hlimit
        cases hlimit
        rw [Int.toNat_natCast]
        rfl
    rw [this]

theorem rejectedRun_accepted (g : QueryGateway) (prepared : PreparedQuery) (estimated : Option (ℚ × Nat)) (failure : GatewayFailure) :
    (g.rejectedRun prepared estimated failure).accepted = false := by
  cases failure <;> rfl

/-- A query that was run to its end, or one that was rejected. -/
theorem executeLocked_cases (g : QueryGateway) (answers : GatewayAnswers) (q : Query) (params : Params) :
    (g.executeLocked answers q params).accepted = false ∨ ∃ prepared state estimated, g.prepare q = .ok prepared ∧
      streamInSession prepared.maxRows g.maxResultBytes answers.rowSize (answers.stream prepared params) = .ok state ∧
      g.executeLocked answers q params = g.acceptedReceipt prepared state estimated := by
  unfold QueryGateway.executeLocked
  split
  · exact .inl rfl
  · rename_i prepared hprepared
    split
    · exact .inl rfl
    · rename_i bound hbound
      obtain rfl : params = bound := by
        unfold QueryGateway.validateParams at hbound
        split at hbound
        · nomatch hbound
        · split at hbound
          · nomatch hbound
          · exact Except.ok.inj hbound
      split
      · exact .inl (rejectedRun_accepted g prepared _ _)
      · rename_i estimated _
        split
        · exact .inl (rejectedRun_accepted g prepared _ _)
        · split
          · exact .inl (rejectedRun_accepted g prepared _ _)
          · rename_i state hstate
            exact .inr ⟨prepared, state, estimated, hprepared, hstate, rfl⟩

/-- What an accepted receipt holds: the rows of a stream for the prepared query. -/
theorem execute_accepted {g : QueryGateway} {answers : GatewayAnswers} {q : Query} {params : Params}
    (h : (g.execute answers q params).accepted = true) :
    ∃ prepared, g.prepare q = .ok prepared ∧ (answers.stream prepared params).failure = none ∧
      (g.execute answers q params).rows = (answers.stream prepared params).rows.map (fun raw => (maskRow raw).1) ∧
      (g.execute answers q params).rowCount = (g.execute answers q params).rows.length ∧
      (g.execute answers q params).maxRows = some g.maxRows := by
  have hlocked : g.execute answers q params = g.executeLocked answers q params := by
    unfold QueryGateway.execute at h ⊢
    by_cases hstart : answers.auditStart = false
    · rw [if_pos hstart] at h
      cases h
    · rw [if_neg hstart] at h ⊢
      by_cases haudit : answers.auditResult = false
      · rw [if_pos haudit] at h
        cases h
      · rw [if_neg haudit] at h ⊢
        cases hcapacity : answers.capacity with
        | some message =>
          rw [hcapacity] at h
          cases h
        | none => rfl
  rw [hlocked] at h ⊢
  rcases executeLocked_cases g answers q params with hrejected | ⟨prepared, state, estimated, hprepared, hstate, heq⟩
  · rw [hrejected] at h
    cases h
  · obtain ⟨hfailure, hrows⟩ := streamInSession_eq_ok hstate
    rw [heq]
    exact ⟨prepared, hprepared, hfailure, hrows, rfl, rfl⟩

/-! ## The limit -/

/-- The answers of a query with another limit are cut from the rows in an order that the query admits. -/
theorem answers_limit {S : Dialect} {params : Params} {q : Query} {db : Database} {n : Nat} {out : List OutRow}
    (h : Query.Answers S params { q with limit := some n } db (some out)) :
    none ∉ q.results S params db ∧ ∃ rows : List OutRow, rows.Perm (q.results S params db).reduceOption ∧
      rows.Pairwise (orderLe q.orderBy) ∧ out = rows.take n := h

/-- Every requested dimension is bound. -/
theorem checkDimensions_bound {metric : MetricContract} {bindings : Dict String OrganizationCoverageBinding} {required : Bool}
    {dimensions : List String} (h : checkDimensions metric bindings required dimensions = .ok ()) :
    ∀ item ∈ dimensions, bindings.get? item ≠ none := by
  induction dimensions with
  | nil => exact nofun
  | cons item rest ih =>
    obtain ⟨-, -, h⟩ := bind_eq_ok.mp h
    obtain ⟨_, hbound, h⟩ := bind_eq_ok.mp h
    exact List.forall_mem_cons.mpr ⟨rejectIf_eq_ok.mp hbound, ih h⟩

/-- The bindings by level are bindings of the coverage, under their levels. -/
theorem coverageByLevel_get? {coverage : List OrganizationCoverageBinding} {name : String} {binding : OrganizationCoverageBinding}
    (h : (coverageByLevel coverage).get? name = some binding) : binding ∈ coverage ∧ binding.scopeLevel = name := by
  have hmem : name ∈ (coverage.map fun item => (item.scopeLevel, item)).map Prod.fst := by
    by_contra hnot
    have hnone : (coverageByLevel coverage).get? name = none := Dict.get?_update_of_not_mem hnot Dict.empty
    rw [hnone] at h
    nomatch h
  obtain ⟨found, hfound, hget⟩ := Dict.get?_update_of_mem hmem Dict.empty
  obtain rfl : found = binding := Option.some.inj (hget.symm.trans h)
  obtain ⟨item, hitem, heq⟩ := List.mem_map.mp hfound
  cases heq
  exact ⟨hitem, rfl⟩

/-- A usable binding of a scope other than the total one is a binding of the coverage. -/
theorem scopeBindings_get? {coverage : List OrganizationCoverageBinding} {required : Bool} {name : String}
    {binding : OrganizationCoverageBinding} (h : (scopeBindings coverage required).get? name = some binding) (hname : name ≠ "city_company") :
    binding ∈ coverage ∧ binding.scopeLevel = name := by
  have husable : ∀ items : List OrganizationCoverageBinding, (∀ item ∈ items, item ∈ (coverageByLevel coverage).values) →
      (coverageByLevel items).get? name = some binding → binding ∈ coverage ∧ binding.scopeLevel = name := by
    intro items hitems hget
    obtain ⟨hmem, hlevel⟩ := coverageByLevel_get? hget
    obtain ⟨level, hvalue⟩ := Dict.mem_values_iff.mp (hitems binding hmem)
    exact ⟨(coverageByLevel_get? hvalue).1, hlevel⟩
  unfold scopeBindings at h
  split at h
  · exact coverageByLevel_get? h
  · dsimp only at h
    split at h
    · rw [Dict.get?_set_of_ne _ _ hname.symm] at h
      exact husable _ (fun item hitem => (List.mem_filter.mp hitem).1) h
    · exact husable _ (fun item hitem => (List.mem_filter.mp hitem).1) h

/-- The scope that the rows are grouped by: one of the coverage and not the total one, for a comparison and for a ranking. -/
theorem organizationScope_dimension {plan : QueryPlan} {metric : MetricContract} {coverage : List OrganizationCoverageBinding}
    {required : Bool} {dimension : Option OrganizationCoverageBinding} {filters : Dict String OrganizationCoverageBinding}
    (h : organizationScope plan metric coverage required = .ok (dimension, filters)) :
    dimension.isSome = plan.grouped ∧ ∀ binding ∈ dimension, binding ∈ coverage ∧ binding.scopeLevel ≠ "city_company" := by
  obtain ⟨_, hdimensions, h⟩ := bind_eq_ok.mp h
  obtain ⟨-, -, h⟩ := bind_eq_ok.mp h
  obtain ⟨_, hhead, h⟩ := bind_eq_ok.mp h
  obtain ⟨-, -, h⟩ := bind_eq_ok.mp h
  obtain ⟨_, -, h⟩ := bind_eq_ok.mp h
  obtain ⟨-, -, h⟩ := bind_eq_ok.mp h
  obtain ⟨-, -, h⟩ := bind_eq_ok.mp h
  cases h
  by_cases hgrouped : plan.grouped = true
  · rw [if_pos hgrouped, hgrouped]
    cases hd : plan.dimensions with
    | nil =>
      rw [hd] at hhead
      exact absurd ⟨hgrouped, .inl rfl⟩ (rejectIf_eq_ok.mp hhead)
    | cons item rest =>
      have hcity : item ≠ "city_company" := by
        rintro rfl
        rw [hd] at hhead
        exact rejectIf_eq_ok.mp hhead ⟨hgrouped, .inr rfl⟩
      refine ⟨Option.isSome_iff_ne_none.mpr (checkDimensions_bound hdimensions item (hd ▸ List.mem_cons_self)), fun binding hbinding => ?_⟩
      obtain ⟨hmem, hlevel⟩ := scopeBindings_get? hbinding hcity
      exact ⟨hmem, hlevel ▸ hcity⟩
  · rw [if_neg hgrouped, Bool.eq_false_iff.mpr hgrouped]
    exact ⟨rfl, nofun⟩

/-- The limit of a compiled query is the limit of a ranking. -/
theorem compileSource_limit {D : MetricDigests} {c : MetricQueryCompiler} {q : CompiledMetricQuery} {r : SourceRequest}
    {reason : SelectionReason} {degradation : List SourceDegradation} (h : c.compileSource D r reason degradation = .ok q) :
    q.queryPlan = r.plan ∧ q.query.limit = if r.plan.intent = .ranking then some r.plan.rankingLimit else none := by
  obtain ⟨-, -, h⟩ := bind_eq_ok.mp h
  obtain ⟨relation, -, h⟩ := bind_eq_ok.mp h
  obtain ⟨-, -, h⟩ := bind_eq_ok.mp h
  obtain ⟨authorized, -, h⟩ := bind_eq_ok.mp h
  obtain ⟨⟨dimension, filters⟩, hscope, h⟩ := bind_eq_ok.mp h
  obtain ⟨-, -, h⟩ := bind_eq_ok.mp h
  obtain ⟨-, -, h⟩ := bind_eq_ok.mp h
  obtain ⟨-, -, h⟩ := bind_eq_ok.mp h
  obtain ⟨-, -, h⟩ := bind_eq_ok.mp h
  obtain ⟨start, -, h⟩ := bind_eq_ok.mp h
  obtain ⟨grouping, hgrouping, h⟩ := bind_eq_ok.mp h
  obtain ⟨draft, -, h⟩ := bind_eq_ok.mp h
  cases h
  refine ⟨rfl, ?_⟩
  by_cases hranking : r.plan.intent = .ranking
  · have hgrouped : r.plan.grouped = true := by simp [QueryPlan.grouped, hranking]
    obtain ⟨d, rfl⟩ := Option.isSome_iff_exists.mp ((organizationScope_dimension hscope).1.trans hgrouped)
    obtain ⟨field, -, hgrouping⟩ := bind_eq_ok.mp hgrouping
    cases hgrouping
    simp [SourceRequest.query, hranking]
  · simp [SourceRequest.query, hranking]

/-- Rows that a limit left, where the number of them shows that none is missing. -/
theorem take_complete {α : Type*} {rows : List α} {n : Nat} (h : (rows.take n).length < n) : rows.take n = rows := by
  rw [List.length_take] at h
  exact List.take_of_length_le (by omega)

/-! ## Columns -/

theorem keys_update_of_mem {κ υ : Type*} [DecidableEq κ] {d : Dict κ υ} {pairs : List (κ × υ)} (h : ∀ p ∈ pairs, p.1 ∈ d.keys) :
    (d.update pairs).keys = d.keys := by
  induction pairs generalizing d with
  | nil => rfl
  | cons p pairs ih =>
    have hset : (d.set p.1 p.2).keys = d.keys := by rw [Dict.keys_set, if_pos (h p List.mem_cons_self)]
    rw [show d.update (p :: pairs) = (d.set p.1 p.2).update pairs from rfl, ih fun x hx => hset ▸ h x (List.mem_cons_of_mem p hx), hset]

/-- The columns of a metric query are not masked. -/
theorem maskRow_of_expected {raw : List (String × Cell)} {query : CompiledMetricQuery}
    (h : SameSet (maskRow raw).1.keys (expectedColumns query)) : (maskRow raw).1 = Dict.ofList raw := by
  have hkeys : (maskRow raw).1.keys = (Dict.ofList raw).keys := by
    refine keys_update_of_mem fun p hp => ?_
    obtain ⟨key, hkey, rfl⟩ := List.mem_map.mp hp
    exact (List.mem_filter.mp hkey).1
  have hplain : ∀ key ∈ expectedColumns query, isSensitiveColumn key = false := by
    have hall : ∀ key ∈ ["value", "numerator", "denominator", "status", "period", "dimension_id"], isSensitiveColumn key = false := by
      decide +kernel
    refine fun key hkey => hall key ((?_ : expectedColumns query ⊆ _) hkey)
    unfold expectedColumns
    refine List.append_subset.mpr ⟨List.append_subset.mpr ⟨?_, ?_⟩, ?_⟩
    · cases query.operation <;> simp
    · split <;> simp
    · split <;> simp
  have hnone : (Dict.ofList raw).keys.filter (fun key => isSensitiveColumn key) = [] := by
    refine List.filter_eq_nil_iff.mpr fun key hkey => ?_
    rw [hplain key (h.1 key (hkeys ▸ hkey))]
    rintro ⟨⟩
  simp only [maskRow, hnone, List.map_nil]
  rfl

/-! ## The runner -/

theorem refuseStepIf_eq_ok {c : Prop} [Decidable c] {code : String} {h : strip code = code ∧ code ≠ ""} {u : Unit} :
    refuseStepIf c code h = .ok u ↔ ¬ c := by
  unfold refuseStepIf refuseStep
  split <;> simp_all

theorem mapError_eq_ok {ε δ α : Type} {f : ε → δ} {x : Except ε α} {a : α} : x.mapError f = .ok a ↔ x = .ok a := by
  cases x <;> simp [Except.mapError]

/-- The query that is run is compiled from the plan of the prepared one, with its text and its parameters. -/
theorem recompiled_eq_ok {runner : MetricExecution} {prepared : PreparedMetricQuery} {current : CompiledMetricQuery}
    (h : runner.recompiled prepared = .ok current) :
    runner.compiler.compile runner.digests prepared.payload.queryPlan prepared.payload.context = .ok current ∧
      Unchanged current prepared.payload := by
  obtain ⟨compiled, hcompiled, h⟩ := bind_eq_ok.mp h
  obtain ⟨_, hunchanged, h⟩ := bind_eq_ok.mp h
  obtain ⟨_, -, h⟩ := bind_eq_ok.mp h
  obtain ⟨-, -, h⟩ := bind_eq_ok.mp h
  cases h
  exact ⟨mapError_eq_ok.mp hcompiled, not_not.mp (refuseStepIf_eq_ok.mp hunchanged)⟩

/-- Rows that pass their checks have the columns of the query. -/
theorem mapM_validateRow {query : CompiledMetricQuery} {rows : List ResultRow} {keys : List (List Cell)}
    (h : rows.mapM (validateRow query) = .ok keys) : ∀ row ∈ rows, SameSet row.keys (expectedColumns query) := by
  induction rows generalizing keys with
  | nil => exact nofun
  | cons row rows ih =>
    rw [List.mapM_cons] at h
    obtain ⟨first, hfirst, h⟩ := bind_eq_ok.mp h
    obtain ⟨rest, hrest, -⟩ := bind_eq_ok.mp h
    obtain ⟨_, hcolumns, -⟩ := bind_eq_ok.mp hfirst
    exact List.forall_mem_cons.mpr ⟨not_not.mp (refuseStepIf_eq_ok.mp hcolumns), ih hrest⟩

theorem validateRows_columns {rows : List ResultRow} {query : CompiledMetricQuery} (h : validateRows rows query = .ok ()) :
    ∀ row ∈ rows, SameSet row.keys (expectedColumns query) := by
  obtain ⟨-, -, h⟩ := bind_eq_ok.mp h
  obtain ⟨keys, hkeys, -⟩ := bind_eq_ok.mp h
  exact mapM_validateRow hkeys

/-- What a checked result satisfies. -/
theorem checkResult_eq_ok {query : CompiledMetricQuery} {result : QueryReceipt} (h : MetricExecution.checkResult query result = .ok ()) :
    result.accepted = true ∧
      (∀ n ∈ result.maxRows, result.rowCount < n ∨ (query.queryPlan.intent = .ranking ∧ query.queryPlan.rankingLimit ≤ n)) ∧
      ∀ row ∈ result.rows, SameSet row.keys (expectedColumns query) := by
  obtain ⟨_, haccepted, h⟩ := bind_eq_ok.mp h
  obtain ⟨_, hcut, h⟩ := bind_eq_ok.mp h
  obtain ⟨-, -, h⟩ := bind_eq_ok.mp h
  obtain ⟨-, -, h⟩ := bind_eq_ok.mp h
  refine ⟨by simpa using refuseStepIf_eq_ok.mp haccepted, fun n hn => ?_, validateRows_columns h⟩
  by_contra hreached
  rw [not_or, not_lt] at hreached
  refine refuseStepIf_eq_ok.mp hcut ⟨n, hn, ?_⟩
  rcases Nat.lt_or_eq_of_le hreached.1 with hlt | heq
  · exact .inl hlt
  · refine .inr ⟨heq.symm, fun ⟨hranking, m, hm, hle⟩ => hreached.2 ⟨hranking, ?_⟩⟩
    rw [Option.mem_def.mp hn] at hm
    cases hm
    exact hle

end TruncationAux

open TruncationAux MetricAux

/-- No silent truncation. When the database answers what it is asked, a step result that is returned carries the complete result of the
compiled query: all rows, or the whole top of a ranking. A result that reached the gateway's cap is not returned, unless it is a ranking
whose own limit is within the cap. -/
theorem no_silent_truncation (runner : MetricExecution) (answers : GatewayAnswers) (timedOut : Bool) (prepared : PreparedMetricQuery)
    (S : Dialect) (driver : Value → Cell) (db : Database)
    (hdatabase : ∀ asked params, AnswersQuery S driver db (answers.stream asked params) asked.query params)
    (result : MetricStepResult) (h : runner.execute answers timedOut prepared = .ok result) :
    ∃ current out rows, runner.compiler.compile runner.digests prepared.payload.queryPlan prepared.payload.context = .ok current ∧
      current.sql = prepared.payload.sql ∧ sameParams current.params prepared.payload.params ∧ CompleteRows S db current out ∧
      (out.length < runner.gateway.maxRows ∨
        (current.queryPlan.intent = .ranking ∧ current.queryPlan.rankingLimit ≤ runner.gateway.maxRows)) ∧
      (out.map fun row => Dict.ofList (driverRow driver row)).mapM (jsonRow runner.texts) = .ok rows ∧
      ∃ absent value, MetricExecution.outputOf prepared rows absent = .ok value ∧ result.value = some value := by
  obtain ⟨current, hcurrent, h⟩ := bind_eq_ok.mp h
  obtain ⟨-, -, h⟩ := bind_eq_ok.mp h
  obtain ⟨_, hchecked, h⟩ := bind_eq_ok.mp h
  obtain ⟨digest, -, h⟩ := bind_eq_ok.mp h
  obtain ⟨rows, hrows, h⟩ := bind_eq_ok.mp h
  obtain ⟨value, hvalue, h⟩ := bind_eq_ok.mp h
  cases h
  obtain ⟨hcompiled, hsql, hparams, -⟩ := recompiled_eq_ok hcurrent
  obtain ⟨r, hplan, -, -, reason, degradation, hsource⟩ := compile_eq_ok hcompiled
  obtain ⟨hcurrentPlan, hlimit⟩ := compileSource_limit hsource
  rw [hplan] at hcurrentPlan hlimit
  obtain ⟨haccepted, hcap, hcolumns⟩ := checkResult_eq_ok hchecked
  obtain ⟨asked, hasked, hfailure, hresult, hcount, hmax⟩ := execute_accepted haccepted
  obtain ⟨out, hanswer, hstream⟩ := hdatabase asked current.params hfailure
  rw [prepare_eq_ok hasked] at hanswer
  obtain ⟨hnone, ordered, hperm, hsorted, hout⟩ := answers_limit hanswer
  have hlength : (runner.gateway.execute answers current.query current.params).rowCount = out.length := by
    rw [hcount, hresult, hstream, List.length_map, List.length_map]
  have hreached := hcap _ hmax
  rw [hlength] at hreached
  -- the number of rows shows that the gateway's limit cut nothing
  have hcomplete : CompleteRows S db current out := by
    refine ⟨hnone, ordered, hperm, hsorted, ?_⟩
    rw [hcurrentPlan]
    by_cases hranking : prepared.payload.queryPlan.intent = .ranking
    · rw [if_pos hranking] at hlimit ⊢
      rw [hlimit, Option.elim_some] at hout
      by_cases hle : prepared.payload.queryPlan.rankingLimit ≤ runner.gateway.maxRows
      · rw [hout, Nat.min_eq_left hle]
      · have hlt : out.length < runner.gateway.maxRows := hreached.resolve_right fun hr => hle hr.2
        rw [Nat.min_eq_right (by omega)] at hout
        have hall := take_complete (hout ▸ hlt)
        rw [hout, hall, List.take_of_length_le]
        rw [hout, hall] at hlt
        omega
    · rw [if_neg hranking] at hlimit ⊢
      rw [hlimit, Option.elim_none] at hout
      have hlt : out.length < runner.gateway.maxRows := hreached.resolve_right fun hr => hranking hr.1
      rw [hout, take_complete (hout ▸ hlt)]
  refine ⟨current, out, rows, hcompiled, hsql, hparams, hcomplete, by rw [hcurrentPlan]; exact hreached, ?_, _, value, hvalue, rfl⟩
  have hplain : (runner.gateway.execute answers current.query current.params).rows = out.map fun row => Dict.ofList (driverRow driver row) := by
    rw [hresult, hstream] at hcolumns ⊢
    rw [List.map_map]
    refine List.map_congr_left fun row hrow => ?_
    refine maskRow_of_expected (hcolumns _ ?_)
    rw [List.map_map]
    exact List.mem_map_of_mem hrow
  rw [← hplain]
  exact hrows

/-! ## Complaints by team -/

/-- The gateway of the deployment, with the digest of the bounded query. -/
def complaintGateway : QueryGateway where
  maxRows := 200
  maxPlanCost := 500000
  maxPlanRows := 100000
  maxResultBytes := 1000000
  datasource := "business_postgres"
  readonlyRole := "business_reader"
  policy _ := none
  fingerprint _ := ⟨"36823e7fd849a87b546f6a1d2598d37a5d380bcf16d97158131279543c789002", isSha256_ofList rfl⟩
  maxRows_pos := by decide
  maxPlanCost_nonneg := by decide
  maxResultBytes_ge := by decide

/-- The runner of the request, with the digest of its rows; no row has a time. -/
def complaintExecution : MetricExecution where
  compiler := complaintCompiler
  digests := complaintDigests
  gateway := complaintGateway
  texts := ⟨fun _ _ _ => "", fun _ _ _ => "", fun _ => "",
    fun _ => ⟨"33d50522d3484625966e6ac1cf7a50a25eeb96fcec0dac3a85fde6e16cd2b705", isSha256_ofList rfl⟩⟩

/-- The compiled query. -/
def complaintQuery : CompiledMetricQuery :=
  (complaintCompiler.compile complaintDigests complaintPlan complaintContext).toOption.get (by decide +kernel)

/-- The values of the result as the driver gives them. -/
def complaintCell : Value → Cell
  | .null => .null
  | .bool b => .bool b
  | .int n => .int n
  | .text s => .str s
  | _ => .other

/-- Two complaints of the caller's area and one of another. -/
def complaintDatabase : Database := fun _ _ => [complaintRow 7 "north", complaintRow 8 "south", complaintRow 7 "north"]

/-- The rows of the result. -/
def complaintOut : List OutRow := [[("dimension_id", .text "north"), ("value", .int 2)]]

/-- The database answers the bounded query. -/
def complaintAnswers : GatewayAnswers where
  auditStart := true
  capacity := none
  plan := .ok (35, 1)
  stream asked params :=
    if asked.query = { complaintQuery.query with limit := some 200 } ∧ params = complaintQuery.params then
      ⟨complaintOut.map (driverRow complaintCell), none⟩
    else
      ⟨[], some { code := .databaseError, message := "query execution failed" }⟩
  rowSize _ := 37
  auditResult := true

/-- The prepared query. -/
def complaintPrepared : PreparedMetricQuery := ⟨complaintQuery, complaintGateway.fingerprint complaintQuery.sql, false⟩

theorem complaintAnswers_answer (asked : PreparedQuery) (params : Params) :
    AnswersQuery complaintDialect complaintCell complaintDatabase (complaintAnswers.stream asked params) asked.query params := by
  intro hfailure
  simp only [complaintAnswers] at hfailure ⊢
  split at hfailure
  · rename_i hasked
    have hresults : none ∉ complaintQuery.query.results complaintDialect complaintQuery.params complaintDatabase ∧
        (complaintQuery.query.results complaintDialect complaintQuery.params complaintDatabase).reduceOption = complaintOut := by
      decide +kernel
    rw [if_pos hasked, hasked.1, hasked.2]
    refine ⟨complaintOut, ⟨hresults.1, complaintOut, List.Perm.of_eq hresults.2.symm, List.pairwise_singleton _ _, ?_⟩, rfl⟩
    rfl
  · nomatch hfailure

/-- The complaints by team are returned, and they are all there. -/
theorem no_silent_truncation_complaints :
    match complaintExecution.execute complaintAnswers false complaintPrepared with
    | .ok result => ∃ current out rows,
        complaintCompiler.compile complaintDigests complaintQuery.queryPlan complaintQuery.context = .ok current ∧
        current.sql = complaintQuery.sql ∧ sameParams current.params complaintQuery.params ∧
        CompleteRows complaintDialect complaintDatabase current out ∧
        (out.length < 200 ∨ (current.queryPlan.intent = .ranking ∧ current.queryPlan.rankingLimit ≤ 200)) ∧
        (out.map fun row => Dict.ofList (driverRow complaintCell row)).mapM (jsonRow complaintExecution.texts) = .ok rows ∧
        ∃ absent value, MetricExecution.outputOf complaintPrepared rows absent = .ok value ∧ result.value = some value
    | .error _ => False := by
  have hreturned : (complaintExecution.execute complaintAnswers false complaintPrepared).toOption.isSome = true := by decide +kernel
  split
  · rename_i result hresult
    exact no_silent_truncation complaintExecution complaintAnswers false complaintPrepared complaintDialect complaintCell
      complaintDatabase complaintAnswers_answer result hresult
  · rename_i e he
    rw [he] at hreturned
    nomatch hreturned

end Nl2Sql
