import Nl2Sql.Lib.Calendar
import Nl2Sql.Lib.StableSort
import Nl2Sql.Theorems.Truncation

/-!
# The order of a result

The rows of a result are accepted in the order that the `ORDER BY` of the compiled query admits, and in no other, and with each period or
dimension once. What the database answers is in that order.
-/

namespace Nl2Sql

open Py Sql

/-! ## Result rows as rows of the database -/

/-- The value of the database that a cell is read from. -/
def Cell.sqlValue : Cell → Value
  | .bool b => .bool b
  | .int n => .int n
  | .str s => .text s
  | .decimal (some d) => .numeric d.toRat
  | .datetime none day micros => .timestamp (day.toOrdinal * dayMicros + micros)
  | .datetime (some offset) day micros => .timestamptz (day.toOrdinal * dayMicros + micros - offset)
  | .date day => .date day.toOrdinal
  | .null | .decimal none | .other => .null

/-- A result row with the values of the database. -/
def sqlRow (row : ResultRow) : OutRow := row.entries.map fun entry => (entry.1, entry.2.sqlValue)

/-- The column by which the rows of a result differ. -/
def keyColumn (query : CompiledMetricQuery) : Option String :=
  if query.queryPlan.intent = .trend then some "period" else if query.dimension.isSome = true then some "dimension_id" else none

/-- No two rows have one period or one dimension. -/
def UniqueKeys (query : CompiledMetricQuery) (rows : List ResultRow) : Prop :=
  ∀ name ∈ keyColumn query, (rows.map (cellOf · name)).Nodup

/-- The rows stand in the order of the query. -/
def Ordered (query : CompiledMetricQuery) (rows : List ResultRow) : Prop :=
  rows.Pairwise fun a b => orderLe query.query.orderBy (sqlRow a) (sqlRow b)

/-- What is checked of the rows beside their order: their number, each row, and the set of the available periods. -/
structure WellShaped (query : CompiledMetricQuery) (rows : List ResultRow) : Prop where
  single : query.queryPlan.intent = .metric → rows.length = 1
  limited : query.queryPlan.intent = .ranking → rows.length ≤ query.queryPlan.rankingLimit
  valid : ∀ row ∈ rows, ∃ keys, validateRow query row = .ok keys
  available : query.queryPlan.availableDates ≠ [] →
    rows.mapM (fun row => (cellOf row "period").day?) = some query.queryPlan.availableDates

namespace ResultOrderAux

open MetricAux TruncationAux SourceRequest

/-! ## Cells in order -/

theorem sqlRow_get (row : ResultRow) (name : String) : (sqlRow row).get name = (cellOf row name).sqlValue := by
  unfold sqlRow OutRow.get cellOf Dict.get?
  induction row.entries with
  | nil => rfl
  | cons entry entries ih =>
    rw [List.map_cons, List.lookup_cons, Dict.getEntries]
    by_cases h : entry.1 = name
    · simp [h]
    · have hne : (name == entry.1) = false := beq_eq_false_iff_ne.mpr fun heq => h heq.symm
      simp only [hne, h, if_false]
      exact ih

/-- Cells of one kind, as one column has them: numbers, texts or days. -/
def OneKind (cells : List Cell) : Prop :=
  (∀ cell ∈ cells, ∃ n, cell = .int n) ∨ (∀ cell ∈ cells, ∃ s, cell = .str s) ∨ ∀ cell ∈ cells, ∃ day, cell = .datetime none day 0

/-- Numbers of one kind are ordered as numbers. -/
theorem rank_le_rank {kind : Nat} {p q : ℚ} :
    (toLex (kind, toLex (p, "")) : Nat ×ₗ ℚ ×ₗ String) ≤ toLex (kind, toLex (q, "")) ↔ p ≤ q := by
  rw [Prod.Lex.toLex_le_toLex, Prod.Lex.toLex_le_toLex, le_iff_lt_or_eq (a := p)]
  simp

theorem int_le_int {n m : Int} : Value.int n ≤ Value.int m ↔ n ≤ m := rank_le_rank.trans Int.cast_le

theorem numeric_le_numeric {p q : ℚ} : Value.numeric p ≤ Value.numeric q ↔ p ≤ q := rank_le_rank

theorem timestamp_le_timestamp {n m : Int} : Value.timestamp n ≤ Value.timestamp m ↔ n ≤ m := rank_le_rank.trans Int.cast_le

theorem text_le_text {s t : String} : Value.text s ≤ Value.text t ↔ s ≤ t := by
  change (toLex (3, toLex ((0 : ℚ), s)) : Nat ×ₗ ℚ ×ₗ String) ≤ toLex (3, toLex ((0 : ℚ), t)) ↔ _
  rw [Prod.Lex.toLex_le_toLex, Prod.Lex.toLex_le_toLex]
  simp

/-- The language compares cells of one kind as the database compares their values. -/
theorem le?_of_oneKind {cells : List Cell} (h : OneKind cells) :
    ∀ a ∈ cells, ∀ b ∈ cells, a.le? b = some (decide (a.sqlValue ≤ b.sqlValue)) := by
  rcases h with h | h | h
  · intro a ha b hb
    obtain ⟨n, rfl⟩ := h a ha
    obtain ⟨m, rfl⟩ := h b hb
    simp only [Cell.le?, Cell.sqlValue, int_le_int]
  · intro a ha b hb
    obtain ⟨s, rfl⟩ := h a ha
    obtain ⟨t, rfl⟩ := h b hb
    simp only [Cell.le?, Cell.sqlValue, text_le_text]
  · intro a ha b hb
    obtain ⟨x, rfl⟩ := h a ha
    obtain ⟨y, rfl⟩ := h b hb
    simp only [Cell.le?, Cell.sqlValue, timestamp_le_timestamp, Option.some.injEq, decide_eq_decide]
    have hday : (x.toOrdinal : Int) * dayMicros + ((0 : Nat) : Int) ≤ y.toOrdinal * dayMicros + ((0 : Nat) : Int) ↔ x ≤ y := by
      rw [← Date.toOrdinal_le_iff]
      unfold dayMicros
      omega
    rw [hday, ← Date.toOrdinal_le_iff, ← Date.toOrdinal_lt_iff]
    constructor
    · rintro (hlt | ⟨rfl, -⟩)
      · exact hlt.le
      · exact le_rfl
    · intro hle
      exact hle.lt_or_eq.imp id fun heq => ⟨Date.toOrdinal_injective heq, le_rfl⟩

/-- Cells of one kind with one value are one cell. -/
theorem sqlValue_inj {cells : List Cell} (h : OneKind cells) {a b : Cell} (ha : a ∈ cells) (hb : b ∈ cells)
    (heq : a.sqlValue = b.sqlValue) : a = b := by
  rcases h with h | h | h
  · obtain ⟨n, rfl⟩ := h a ha
    obtain ⟨m, rfl⟩ := h b hb
    cases heq
    rfl
  · obtain ⟨s, rfl⟩ := h a ha
    obtain ⟨t, rfl⟩ := h b hb
    cases heq
    rfl
  · obtain ⟨x, rfl⟩ := h a ha
    obtain ⟨y, rfl⟩ := h b hb
    have hday : (x.toOrdinal : Int) * dayMicros + ((0 : Nat) : Int) = y.toOrdinal * dayMicros + ((0 : Nat) : Int) := Value.timestamp.inj heq
    unfold dayMicros at hday
    rw [Date.toOrdinal_injective (by omega : x.toOrdinal = y.toOrdinal)]

/-- Sorting cells of one kind is sorting their values. -/
theorem sortedBy?_of_oneKind {α : Type} {key : α → Cell} {items : List α} (h : OneKind (items.map key)) :
    sortedBy? key items = some (sortBy (fun a => (key a).sqlValue) items) := by
  have hle : ∀ a ∈ items, ∀ b ∈ items, (key a).le? (key b) = some (decide ((key a).sqlValue ≤ (key b).sqlValue)) := fun a ha b hb =>
    le?_of_oneKind h _ (List.mem_map_of_mem ha) _ (List.mem_map_of_mem hb)
  unfold sortedBy?
  rw [if_pos (.inr fun a ha b hb => by rw [hle a ha b hb]; rfl)]
  refine congrArg some (insertionSort_congr fun a ha b hb => ?_)
  rw [hle a ha b hb, Option.some.injEq, decide_eq_true_iff]

/-! ## Rows in order -/

/-- Values of one kind, as the column of one operation has them: counts, or ratios with nothing where there is none. -/
def NumberKind (rows : List ResultRow) : Prop :=
  (∀ row ∈ rows, ∃ n, cellOf row "value" = .int n) ∨
    ∀ row ∈ rows, cellOf row "value" = .null ∨ ∃ d, cellOf row "value" = .decimal (some d)

theorem rankKey_int {row : ResultRow} {n : Int} (h : cellOf row "value" = .int n) : rankKey row = ((n : ℚ) : WithBot ℚ) := by
  rw [rankKey, h]
  rfl

theorem rankKey_decimal {row : ResultRow} {d : Decimal} (h : cellOf row "value" = .decimal (some d)) :
    rankKey row = (d.toRat : WithBot ℚ) := by
  rw [rankKey, h]
  rfl

theorem rankKey_null {row : ResultRow} (h : cellOf row "value" = .null) : rankKey row = ⊥ := by
  rw [rankKey, h]
  rfl

/-- The place of a value in a ranking, from the greatest with nothing last. -/
theorem rankKey_before {rows : List ResultRow} (h : NumberKind rows) {a b : ResultRow} (ha : a ∈ rows) (hb : b ∈ rows) :
    (rankKey b < rankKey a ↔ (OrderKey.descNullsLast "value").before (cellOf a "value").sqlValue (cellOf b "value").sqlValue) ∧
      (rankKey a = rankKey b ↔ (cellOf a "value").sqlValue = (cellOf b "value").sqlValue) := by
  unfold OrderKey.before
  rcases h with h | h
  · obtain ⟨n, hn⟩ := h a ha
    obtain ⟨m, hm⟩ := h b hb
    have hlt : Value.int m < Value.int n ↔ m < n := by rw [← not_le, int_le_int, not_le]
    rw [rankKey_int hn, rankKey_int hm, hn, hm, WithBot.coe_lt_coe, WithBot.coe_inj, Int.cast_lt, Int.cast_inj]
    simp only [Cell.sqlValue, hlt, Value.int.injEq, ne_eq, reduceCtorEq, not_false_eq_true, true_and, false_or, and_self]
  · rcases h a ha with hn | ⟨x, hx⟩ <;> rcases h b hb with hm | ⟨y, hy⟩
    · rw [rankKey_null hn, rankKey_null hm, hn, hm]
      simp [Cell.sqlValue]
    · rw [rankKey_null hn, rankKey_decimal hy, hn, hy]
      simp [Cell.sqlValue]
    · rw [rankKey_decimal hx, rankKey_null hm, hx, hm]
      simp [Cell.sqlValue]
    · have hlt : Value.numeric y.toRat < Value.numeric x.toRat ↔ y.toRat < x.toRat := by rw [← not_le, numeric_le_numeric, not_le]
      rw [rankKey_decimal hx, rankKey_decimal hy, hx, hy, WithBot.coe_lt_coe, WithBot.coe_inj]
      simp only [Cell.sqlValue, hlt, Value.numeric.injEq, ne_eq, reduceCtorEq, not_false_eq_true, true_and, false_or, and_self]

/-- The order of a ranking is that of the two passes. -/
theorem orderLe_ranking {rows : List ResultRow} (h : NumberKind rows) {a b : ResultRow} (ha : a ∈ rows) (hb : b ∈ rows) :
    LexLe (fun row => OrderDual.toDual (rankKey row)) (fun row => (cellOf row "dimension_id").sqlValue) a b ↔
      orderLe [OrderKey.descNullsLast "value", .asc "dimension_id"] (sqlRow a) (sqlRow b) := by
  obtain ⟨hbefore, htie⟩ := rankKey_before h ha hb
  simp only [LexLe, OrderDual.toDual_lt_toDual, OrderDual.toDual_inj, hbefore, htie, orderLe, sqlRow_get, OrderKey.name,
    OrderKey.before, and_true, le_iff_lt_or_eq]

/-- The order by one column. -/
theorem orderLe_asc {name : String} {a b : ResultRow} :
    orderLe [OrderKey.asc name] (sqlRow a) (sqlRow b) ↔ (cellOf a name).sqlValue ≤ (cellOf b name).sqlValue := by
  simp only [orderLe, sqlRow_get, OrderKey.name, OrderKey.before, and_true, le_iff_lt_or_eq]

/-! ## The query -/

/-- What compiling makes of the order of a query: a trend is by its period, a ranking and a comparison by a dimension of numbers or texts,
and anything else has no order. -/
structure Emitted (q : CompiledMetricQuery) : Prop where
  trend : q.queryPlan.intent = .trend → q.dimension = none ∧ q.query.orderBy = [OrderKey.asc "period"]
  ranking : q.queryPlan.intent = .ranking → q.dimension.isSome = true ∧
    q.query.orderBy = [OrderKey.descNullsLast "value", .asc "dimension_id"]
  comparison : q.queryPlan.intent = .comparison → q.dimension.isSome = true ∧ q.query.orderBy = [OrderKey.asc "dimension_id"]
  other : q.queryPlan.intent = .metric ∨ q.queryPlan.intent = .detail → q.dimension = none ∧ q.query.orderBy = []
  typed : ∀ dimension ∈ q.dimension, dimension.valueType = some "text" ∨ dimension.valueType = some "integer"
  grouped : q.query.grouped.key.map Prod.snd = keyColumn q

section Rows

variable {q : CompiledMetricQuery} {row : ResultRow} {rows : List ResultRow} {keys : List Cell}

theorem shapeInvalidIf_eq_ok {p : Prop} [Decidable p] {u : Unit} : shapeInvalidIf p = .ok u ↔ ¬p := refuseStepIf_eq_ok

/-- A valid row has a valid value. -/
theorem validateRow_value (h : validateRow q row = .ok keys) : validateValue q row = .ok () := by
  obtain ⟨-, -, h⟩ := bind_eq_ok.mp h
  obtain ⟨_, hvalue, -⟩ := bind_eq_ok.mp h
  exact hvalue

/-- The values of valid rows are of one kind. -/
theorem numberKind_of_valid (h : ∀ row ∈ rows, ∃ keys, validateRow q row = .ok keys) : NumberKind rows := by
  cases hoperation : q.operation with
  | count =>
    refine .inl fun row hrow => ?_
    obtain ⟨keys, hkeys⟩ := h row hrow
    have hvalue := validateRow_value hkeys
    unfold validateValue at hvalue
    rw [hoperation] at hvalue
    dsimp only at hvalue
    split at hvalue
    · exact ⟨_, by assumption⟩
    · exact absurd trivial (shapeInvalidIf_eq_ok.mp hvalue)
  | ratio =>
    refine .inr fun row hrow => ?_
    obtain ⟨keys, hkeys⟩ := h row hrow
    have hvalue := validateRow_value hkeys
    unfold validateValue validateRatioRow at hvalue
    rw [hoperation] at hvalue
    dsimp only at hvalue
    split at hvalue
    · obtain ⟨-, -, hvalue⟩ := bind_eq_ok.mp hvalue
      obtain ⟨valid, hvalid, haccepted⟩ := bind_eq_ok.mp hvalue
      have htrue : valid = true := by simpa using shapeInvalidIf_eq_ok.mp haccepted
      subst htrue
      unfold ratioValid at hvalid
      split at hvalid
      · have hzero := of_decide_eq_true (Except.ok.inj hvalid)
        exact .inl hzero.1
      · split at hvalid
        · nomatch hvalid
        · split at hvalid
          · exact .inr ⟨_, by assumption⟩
          · nomatch hvalid
    · exact absurd trivial (shapeInvalidIf_eq_ok.mp hvalue)

/-- A loop over one cell. -/
theorem forIn_singleton_eq_ok {cell : Cell} {check : Cell → Except StepFailure Unit} {u : PUnit} :
    (forIn [cell] PUnit.unit fun cell _ => do
      check cell
      pure (ForInStep.yield PUnit.unit)) = .ok u ↔ check cell = .ok () := by
  cases h : check cell <;> simp [h]

/-- A valid period is a local midnight. -/
theorem validatePeriod_eq_ok {plan : QueryPlan} {cell : Cell} (h : validatePeriod plan cell = .ok ()) :
    ∃ day, cell = .datetime none day 0 := by
  unfold validatePeriod at h
  split at h
  · rename_i day micros
    obtain ⟨_, hmidnight, -⟩ := bind_eq_ok.mp h
    have hzero : micros = 0 := not_not.mp fun hne => shapeInvalidIf_eq_ok.mp hmidnight (.inl hne)
    exact ⟨day, hzero ▸ rfl⟩
  · exact absurd trivial (shapeInvalidIf_eq_ok.mp h)

/-- A valid dimension has the type of its column. -/
theorem validateDimension_eq_ok {dimension : OrganizationCoverageBinding} {cell : Cell} (h : validateDimension dimension cell = .ok ()) :
    (dimension.valueType = some "text" → ∃ s, cell = .str s) ∧ (dimension.valueType = some "integer" → ∃ n, cell = .int n) := by
  unfold validateDimension at h
  constructor
  · intro htext
    rw [if_pos htext] at h
    split at h
    · exact ⟨_, rfl⟩
    · exact absurd trivial (shapeInvalidIf_eq_ok.mp h)
  · intro hinteger
    rw [if_neg (by rw [hinteger]; decide), if_pos hinteger] at h
    split at h
    · exact ⟨_, rfl⟩
    · exact absurd trivial (shapeInvalidIf_eq_ok.mp h)

/-- The keys of a valid row, and of what kind they are. -/
theorem validateRow_keys (hq : Emitted q) (h : validateRow q row = .ok keys) :
    keys = (keyColumn q).toList.map (cellOf row) ∧
      (q.queryPlan.intent = .trend → ∃ day, cellOf row "period" = .datetime none day 0) ∧
      ∀ dimension ∈ q.dimension, "dimension_id" ∈ row.keys ∧
        (dimension.valueType = some "text" → ∃ s, cellOf row "dimension_id" = .str s) ∧
        (dimension.valueType = some "integer" → ∃ n, cellOf row "dimension_id" = .int n) := by
  obtain ⟨_, hcolumns, h⟩ := bind_eq_ok.mp h
  obtain ⟨-, -, h⟩ := bind_eq_ok.mp h
  have hsame := not_not.mp (shapeInvalidIf_eq_ok.mp hcolumns)
  by_cases htrend : q.queryPlan.intent = .trend
  · have hdimension := (hq.trend htrend).1
    have hperiod : "period" ∈ row.keys := hsame.2 "period" (by simp [expectedColumns, htrend])
    rw [if_pos hperiod, hdimension] at h
    obtain ⟨_, hfor, h⟩ := bind_eq_ok.mp h
    cases h
    refine ⟨by simp [keyColumn, htrend], fun _ => validatePeriod_eq_ok (forIn_singleton_eq_ok.mp hfor), ?_⟩
    rw [hdimension]
    nofun
  · have hperiod : "period" ∉ row.keys := fun hmem => by
      have hexpected := hsame.1 "period" hmem
      unfold expectedColumns at hexpected
      cases hoperation : q.operation <;> simp [hoperation, htrend] at hexpected
    rw [if_neg hperiod] at h
    cases hdimension : q.dimension with
    | none =>
      rw [hdimension] at h
      cases h
      exact ⟨by simp [keyColumn, htrend, hdimension], fun h => absurd h htrend, nofun⟩
    | some dimension =>
      rw [hdimension] at h
      obtain ⟨-, -, h⟩ := bind_eq_ok.mp h
      obtain ⟨_, hvalid, h⟩ := bind_eq_ok.mp h
      cases h
      refine ⟨by simp [keyColumn, htrend, hdimension], fun h => absurd h htrend, fun _ hd => ?_⟩
      cases hd
      exact ⟨hsame.2 "dimension_id" (by simp [expectedColumns, hdimension]), validateDimension_eq_ok hvalid⟩

/-- The cells by which valid rows differ are of one kind. -/
theorem oneKind_of_valid (hq : Emitted q) (h : ∀ row ∈ rows, ∃ keys, validateRow q row = .ok keys) {name : String}
    (hname : keyColumn q = some name) : OneKind (rows.map (cellOf · name)) := by
  unfold keyColumn at hname
  split at hname
  · rename_i htrend
    cases hname
    refine .inr (.inr (List.forall_mem_map.mpr fun row hrow => ?_))
    obtain ⟨keys, hkeys⟩ := h row hrow
    exact (validateRow_keys hq hkeys).2.1 htrend
  · split at hname
    · rename_i hsome
      cases hname
      obtain ⟨dimension, hdimension⟩ := Option.isSome_iff_exists.mp hsome
      have hcell : ∀ row ∈ rows, (dimension.valueType = some "text" → ∃ s, cellOf row "dimension_id" = .str s) ∧
          (dimension.valueType = some "integer" → ∃ n, cellOf row "dimension_id" = .int n) := by
        intro row hrow
        obtain ⟨keys, hkeys⟩ := h row hrow
        exact ((validateRow_keys hq hkeys).2.2 dimension hdimension).2
      rcases hq.typed dimension hdimension with htext | hinteger
      · exact .inr (.inl (List.forall_mem_map.mpr fun row hrow => (hcell row hrow).1 htext))
      · exact .inl (List.forall_mem_map.mpr fun row hrow => (hcell row hrow).2 hinteger)
    · nomatch hname

/-- The keys of the rows. -/
theorem mapM_validateRow_iff (hq : Emitted q) {keyss : List (List Cell)} :
    rows.mapM (validateRow q) = .ok keyss ↔
      (∀ row ∈ rows, ∃ keys, validateRow q row = .ok keys) ∧ keyss = rows.map fun row => (keyColumn q).toList.map (cellOf row) := by
  constructor
  · intro h
    obtain ⟨rfl, hall⟩ := mapM_eq_ok (fun row keys hkeys => (validateRow_keys hq hkeys).1.symm) h
    exact ⟨fun row hrow => ⟨_, hall row hrow⟩, rfl⟩
  · rintro ⟨hall, rfl⟩
    refine mapM_ok fun row hrow => ?_
    obtain ⟨keys, hkeys⟩ := hall row hrow
    rw [hkeys, (validateRow_keys hq hkeys).1]

/-- One cell of each row, or none. -/
theorem flatten_keys (q : CompiledMetricQuery) (rows : List ResultRow) :
    (rows.map fun row => (keyColumn q).toList.map (cellOf row)).flatten =
      (keyColumn q).elim [] fun name => rows.map (cellOf · name) := by
  cases keyColumn q with
  | none => simp
  | some name =>
    rw [← List.flatMap_def]
    exact List.map_eq_flatMap.symm

/-! ## The checks of the rows -/

theorem orRaised_eq_ok {α : Type} {o : Option α} {a : α} : orRaised o = .ok a ↔ o = some a := by
  cases o with
  | none => exact ⟨(by rintro ⟨⟩), (by rintro ⟨⟩)⟩
  | some b => exact ⟨fun h => congrArg some (Except.ok.inj h), fun h => congrArg Except.ok (Option.some.inj h)⟩

/-- No key is repeated. -/
theorem nodup_keys_iff : ((keyColumn q).elim [] fun name => rows.map (cellOf · name)).Nodup ↔ UniqueKeys q rows := by
  unfold UniqueKeys
  cases keyColumn q with
  | none => exact ⟨fun _ => nofun, fun _ => List.nodup_nil⟩
  | some name => exact ⟨fun h _ hname => by cases hname; exact h, fun h => h name rfl⟩

/-- The keys of rows that are ordered by one column are sorted where the rows are. -/
theorem sorted_keys_iff {name : String} (hkind : OneKind (rows.map (cellOf · name))) (horder : q.query.orderBy = [OrderKey.asc name]) :
    sortedBy? id (rows.map (cellOf · name)) = some (rows.map (cellOf · name)) ↔ Ordered q rows := by
  have hsorted : sortedBy? id (rows.map (cellOf · name)) = some (sortBy Cell.sqlValue (rows.map (cellOf · name))) :=
    sortedBy?_of_oneKind (by rwa [List.map_id])
  unfold Ordered
  rw [hsorted, Option.some.injEq, sortBy_eq_self_iff, List.pairwise_map, horder]
  simp only [orderLe_asc]

/-- The rows of a ranking are as the two passes leave them where they are in its order. -/
theorem ranked_rows_iff (hq : Emitted q) (hranking : q.queryPlan.intent = .ranking)
    (h : ∀ row ∈ rows, ∃ keys, validateRow q row = .ok keys) (hunique : UniqueKeys q rows) :
    rankedRows? rows = some rows ↔ Ordered q rows := by
  obtain ⟨hsome, horder⟩ := hq.ranking hranking
  have hcolumn : keyColumn q = some "dimension_id" := by
    unfold keyColumn
    rw [if_neg (by rw [hranking]; decide), if_pos hsome]
  have hkind := oneKind_of_valid hq h hcolumn
  have hpresent : ∀ row ∈ rows, "dimension_id" ∈ row.keys := by
    intro row hrow
    obtain ⟨keys, hkeys⟩ := h row hrow
    obtain ⟨dimension, hdimension⟩ := Option.isSome_iff_exists.mp hsome
    exact ((validateRow_keys hq hkeys).2.2 dimension hdimension).1
  have hdistinct : (rows.map fun row => (cellOf row "dimension_id").sqlValue).Nodup := by
    have hcells := hunique "dimension_id" hcolumn
    have hmap : rows.map (fun row => (cellOf row "dimension_id").sqlValue) =
        (rows.map (cellOf · "dimension_id")).map Cell.sqlValue := by rw [List.map_map]; rfl
    rw [hmap]
    exact hcells.map_on fun a ha b hb heq => sqlValue_inj hkind ha hb heq
  have hpass : ∀ ordered : List ResultRow, ordered.insertionSort (fun a b => rankKey b ≤ rankKey a) =
      sortBy (fun row => OrderDual.toDual (rankKey row)) ordered := fun _ => rfl
  unfold rankedRows? Ordered
  rw [if_pos hpresent, sortedBy?_of_oneKind hkind, Option.map_some, hpass, Option.some.injEq, sortBy_sortBy_eq_self_iff hdistinct, horder]
  exact List.Pairwise.iff_of_mem fun {a b} ha hb => orderLe_ranking (numberKind_of_valid h) ha hb

/-- Something that is compared with what the language makes of it. -/
theorem compared_eq_ok {α : Type} [DecidableEq α] {o : Option α} {a : α} :
    (do
      let ordered ← orRaised o
      shapeInvalidIf (a ≠ ordered)) = .ok () ↔ o = some a := by
  simp only [bind_eq_ok, orRaised_eq_ok, shapeInvalidIf_eq_ok, not_not]
  exact ⟨fun ⟨_, ho, heq⟩ => heq ▸ ho, fun ho => ⟨a, ho, rfl⟩⟩

/-- The comparison with the sorted rows, or with the sorted keys, is the order of the query. -/
theorem order_eq_ok_iff (hq : Emitted q) (h : ∀ row ∈ rows, ∃ keys, validateRow q row = .ok keys) (hunique : UniqueKeys q rows) :
    (if q.queryPlan.intent = .ranking then do
        let ordered ← orRaised (rankedRows? rows)
        shapeInvalidIf (rows ≠ ordered)
      else do
        let ordered ← orRaised (sortedBy? id ((keyColumn q).elim [] fun name => rows.map (cellOf · name)))
        shapeInvalidIf (((keyColumn q).elim [] fun name => rows.map (cellOf · name)) ≠ ordered)) = .ok () ↔ Ordered q rows := by
  by_cases hranking : q.queryPlan.intent = .ranking
  · rw [if_pos hranking, compared_eq_ok, ranked_rows_iff hq hranking h hunique]
  · rw [if_neg hranking, compared_eq_ok]
    have hother : q.query.orderBy = [] → (sortedBy? id [] = some ([] : List Cell) ↔ Ordered q rows) := by
      intro horder
      unfold Ordered
      rw [horder]
      exact ⟨fun _ => List.pairwise_of_forall fun _ _ => trivial, fun _ => rfl⟩
    have hnone : q.queryPlan.intent = .metric ∨ q.queryPlan.intent = .detail → keyColumn q = none := by
      intro hintent
      unfold keyColumn
      rw [(hq.other hintent).1, if_neg (by rcases hintent with hi | hi <;> rw [hi] <;> decide), if_neg nofun]
    cases hintent : q.queryPlan.intent with
    | ranking => exact absurd hintent hranking
    | trend =>
      have hcolumn : keyColumn q = some "period" := if_pos hintent
      have hkind := oneKind_of_valid hq h hcolumn
      rw [hcolumn]
      exact sorted_keys_iff hkind (hq.trend hintent).2
    | comparison =>
      have hcolumn : keyColumn q = some "dimension_id" := by
        unfold keyColumn
        rw [if_neg (by rw [hintent]; decide), if_pos (hq.comparison hintent).1]
      have hkind := oneKind_of_valid hq h hcolumn
      rw [hcolumn]
      exact sorted_keys_iff hkind (hq.comparison hintent).2
    | metric =>
      rw [hnone (.inl hintent)]
      exact hother (hq.other (.inl hintent)).2
    | detail =>
      rw [hnone (.inr hintent)]
      exact hother (hq.other (.inr hintent)).2

/-- Rows are accepted that are well shaped, differ in their keys and are in the order of the query, and no others. -/
theorem validateRows_eq_ok_iff (hq : Emitted q) :
    validateRows rows q = .ok () ↔ WellShaped q rows ∧ UniqueKeys q rows ∧ Ordered q rows := by
  have hdays : q.queryPlan.availableDates ≠ [] → ((keyColumn q).elim [] fun name => rows.map (cellOf · name)).mapM Cell.day? =
      rows.mapM fun row => (cellOf row "period").day? := by
    intro hdates
    have hcolumn : keyColumn q = some "period" := if_pos (q.queryPlan.dates_trend hdates)
    rw [hcolumn]
    exact List.mapM_map
  unfold validateRows
  simp only [bind_eq_ok, shapeInvalidIf_eq_ok, mapM_validateRow_iff hq]
  constructor
  · rintro ⟨_, hsize, _, ⟨hvalid, rfl⟩, _, hunique, h⟩
    rw [not_not, flatten_keys, nodup_keys_iff] at hunique
    rw [flatten_keys] at h
    refine ⟨⟨fun hmetric => ?_, fun hranking => ?_, hvalid, fun hdates => ?_⟩, hunique, ?_⟩
    · exact not_not.mp fun hne => hsize (.inl ⟨hmetric, hne⟩)
    · exact not_lt.mp fun hlt => hsize (.inr ⟨hranking, hlt⟩)
    · rw [if_pos hdates] at h
      obtain ⟨days, hread, h⟩ := bind_eq_ok.mp h
      obtain ⟨_, hsame, -⟩ := bind_eq_ok.mp h
      rw [← hdays hdates, orRaised_eq_ok.mp hread, not_not.mp (refuseStepIf_eq_ok.mp hsame)]
    · refine (order_eq_ok_iff hq hvalid hunique).mp ?_
      split at h
      · obtain ⟨days, -, h⟩ := bind_eq_ok.mp h
        obtain ⟨_, -, h⟩ := bind_eq_ok.mp h
        exact h
      · exact h
  · rintro ⟨⟨hsingle, hlimited, hvalid, havailable⟩, hunique, hordered⟩
    have horder := (order_eq_ok_iff hq hvalid hunique).mpr hordered
    refine ⟨(), ?_, _, ⟨hvalid, rfl⟩, (), ?_, ?_⟩
    · rintro (⟨hmetric, hne⟩ | ⟨hranking, hlt⟩)
      · exact hne (hsingle hmetric)
      · exact absurd (hlimited hranking) (not_le.mpr hlt)
    · rw [not_not, flatten_keys, nodup_keys_iff]
      exact hunique
    · rw [flatten_keys]
      split
      · rename_i hdates
        refine bind_eq_ok.mpr ⟨q.queryPlan.availableDates, ?_, bind_eq_ok.mpr ⟨(), refuseStepIf_eq_ok.mpr (not_not.mpr rfl), horder⟩⟩
        rw [orRaised_eq_ok, hdays hdates, havailable hdates]
      · exact horder

end Rows

/-! ## The query of a source -/

/-- In a coverage without a defect every scope but the total one has a column of texts or integers. -/
theorem valueType_of_valid {types : Dict String String} {levels fields : List String} {coverage : List OrganizationCoverageBinding}
    (h : coverageProblems types levels fields coverage = []) :
    ∀ binding ∈ coverage, binding.scopeLevel ≠ "city_company" → binding.valueType = some "text" ∨ binding.valueType = some "integer" := by
  induction coverage generalizing levels fields with
  | nil => exact nofun
  | cons binding rest ih =>
    rw [coverageProblems] at h
    split at h
    · nomatch h
    · split at h
      · nomatch h
      · obtain ⟨hfirst, hrest⟩ := List.append_eq_nil_iff.mp h
        refine List.forall_mem_cons.mpr ⟨fun hcity => ?_, ih hrest⟩
        unfold bindingProblems at hfirst
        dsimp only at hfirst
        rw [if_neg hcity] at hfirst
        split at hfirst
        · rename_i field valueType _ hvalue
          split at hfirst
          · nomatch hfirst
          · rename_i type htype
            have hname : type.name = valueType := by simpa using List.find?_some htype
            rw [hvalue, ← hname]
            cases type with
            | text => exact .inl rfl
            | integer => exact .inr rfl
        · nomatch hfirst

theorem grouped_of_intent {plan : QueryPlan} {intent : QueryIntent} : plan.intent = intent → plan.grouped =
    match intent with
    | .comparison | .ranking => true
    | _ => false := by
  intro h
  rw [QueryPlan.grouped, h]
  cases intent <;> rfl

theorem orderBy_of_intent {r : SourceRequest} {dimension : Option (OrganizationCoverageBinding × String)}
    (hnone : dimension.isNone = !r.plan.grouped) {intent : QueryIntent} : r.plan.intent = intent → r.orderBy dimension =
    match intent with
    | .trend => [OrderKey.asc "period"]
    | .ranking => [OrderKey.descNullsLast "value", .asc "dimension_id"]
    | .comparison => [OrderKey.asc "dimension_id"]
    | .metric | .detail => [] := by
  intro h
  rw [orderBy, hnone, QueryPlan.grouped, h]
  cases intent <;> rfl

/-- The query of a source is in the order of its intent. -/
theorem compileSource_emitted {D : MetricDigests} {c : MetricQueryCompiler} {q : CompiledMetricQuery} {r : SourceRequest}
    {reason : SelectionReason} {degradation : List SourceDegradation} (h : c.compileSource D r reason degradation = .ok q)
    (hcoverage : ∀ relation ∈ r.snapshot.relations, validateOrganizationCoverage relation = []) :
    Emitted q ∧ ∀ S, q.query.Determined S := by
  obtain ⟨-, -, h⟩ := bind_eq_ok.mp h
  obtain ⟨relation, hrelation, h⟩ := bind_eq_ok.mp h
  obtain ⟨-, -, h⟩ := bind_eq_ok.mp h
  obtain ⟨authorized, -, h⟩ := bind_eq_ok.mp h
  obtain ⟨⟨dimension, filters⟩, hscope, h⟩ := bind_eq_ok.mp h
  obtain ⟨-, -, h⟩ := bind_eq_ok.mp h
  obtain ⟨-, -, h⟩ := bind_eq_ok.mp h
  obtain ⟨-, -, h⟩ := bind_eq_ok.mp h
  obtain ⟨-, -, h⟩ := bind_eq_ok.mp h
  obtain ⟨start, -, h⟩ := bind_eq_ok.mp h
  obtain ⟨grouping, hgrouping, h⟩ := bind_eq_ok.mp h
  obtain ⟨draft, -, h⟩ := bind_eq_ok.mp h
  cases h
  obtain ⟨hsome, hbound⟩ := organizationScope_dimension hscope
  have hsame : grouping.isNone = dimension.isNone := by
    cases dimension with
    | none =>
      cases hgrouping
      rfl
    | some d =>
      obtain ⟨field, -, hgrouping⟩ := bind_eq_ok.mp hgrouping
      cases hgrouping
      rfl
  have hmem : relation ∈ r.snapshot.relations := by
    obtain ⟨-, -, hrelation⟩ := bind_eq_ok.mp hrelation
    dsimp only at hrelation
    split at hrelation
    · rename_i doc only hdocs hrelations
      cases hrelation
      exact (List.mem_filter.mp (hrelations ▸ List.mem_singleton.mpr rfl : relation ∈ r.snapshot.relations.filter _)).1
    · cases hrelation
  have hisNone : grouping.isNone = !r.plan.grouped := by rw [hsame, ← hsome, Option.not_isSome]
  have horder {intent : QueryIntent} (hintent : r.plan.intent = intent) := orderBy_of_intent hisNone hintent
  have hdimension {intent : QueryIntent} (hintent : r.plan.intent = intent) := hsome.trans (grouped_of_intent hintent)
  refine ⟨⟨fun hi => ⟨?_, horder hi⟩, fun hi => ⟨?_, horder hi⟩, fun hi => ⟨?_, horder hi⟩, fun hi => ?_, fun binding hbinding => ?_, ?_⟩,
    fun S => query_determined S r grouping draft.conditions⟩
  · simpa using hdimension hi
  · exact hdimension hi
  · exact hdimension hi
  · rcases hi with hi | hi
    · exact ⟨by simpa using hdimension hi, horder hi⟩
    · exact ⟨by simpa using hdimension hi, horder hi⟩
  · obtain ⟨hin, hcity⟩ := hbound binding hbinding
    exact valueType_of_valid (hcoverage relation hmem) binding hin hcity
  · change (r.groupKey grouping).map Prod.snd = _
    unfold groupKey keyColumn
    dsimp only
    by_cases htrend : r.plan.intent = .trend
    · rw [if_pos htrend, if_pos htrend]
      rfl
    · rw [if_neg htrend, if_neg htrend, ← Option.not_isNone, ← hsame]
      cases grouping with
      | none => rfl
      | some pair => rfl

/-- The schema of a compiled query was validated. -/
theorem compile_snapshot {D : MetricDigests} {c : MetricQueryCompiler} {plan : QueryPlan} {context : ContextBundle}
    {q : CompiledMetricQuery} (h : c.compile D plan context = .ok q) :
    ∃ snapshot, c.snapshots context.schemaSnapshotId.val = some snapshot ∧ snapshot.state = .validated := by
  obtain ⟨-, -, h⟩ := bind_eq_ok.mp h
  obtain ⟨validation, -, h⟩ := bind_eq_ok.mp h
  obtain ⟨-, -, h⟩ := bind_eq_ok.mp h
  obtain ⟨-, -, h⟩ := bind_eq_ok.mp h
  obtain ⟨release, -, h⟩ := bind_eq_ok.mp h
  obtain ⟨snapshot, hsnapshot, h⟩ := bind_eq_ok.mp h
  obtain ⟨snapshot, hread, hsnapshot⟩ := bind_eq_ok.mp hsnapshot
  obtain ⟨_, hvalid, hsnapshot⟩ := bind_eq_ok.mp hsnapshot
  refine ⟨snapshot, orReject_eq_ok.mp hread, ?_⟩
  by_contra hstate
  exact rejectIf_eq_ok.mp hvalid (.inl hstate)

/-! ## The answers of the database -/

/-- Result rows that were read from rows of the database: column by column they have their values. -/
def ReadFrom (rows : List ResultRow) (out : List OutRow) : Prop :=
  List.Forall₂ (fun row source => ∀ name, (sqlRow row).get name = source.get name) rows out

/-- The order of two rows is that of their values. -/
theorem orderLe_congr {ks : List OrderKey} {a a' b b' : OutRow} (ha : ∀ name, a'.get name = a.get name) (hb : ∀ name, b'.get name = b.get name)
    (h : orderLe ks a b) : orderLe ks a' b' := by
  induction ks with
  | nil => trivial
  | cons k ks ih =>
    unfold orderLe
    rw [ha, hb]
    exact h.imp id fun htie => ⟨htie.1, ih htie.2⟩

/-- Rows that were read from ordered rows are ordered. -/
theorem ReadFrom.ordered {rows : List ResultRow} {out : List OutRow} (hread : ReadFrom rows out) {ks : List OrderKey}
    (h : out.Pairwise (orderLe ks)) : rows.Pairwise fun a b => orderLe ks (sqlRow a) (sqlRow b) := by
  have hlength := hread.length_eq
  rw [List.pairwise_iff_getElem] at h ⊢
  intro i j hi hj hij
  have hfirst := hread.get hi (hlength ▸ hi)
  have hsecond := hread.get hj (hlength ▸ hj)
  exact orderLe_congr hfirst hsecond (h i j (hlength ▸ hi) (hlength ▸ hj) hij)

/-- Rows that were read from rows without a repeated value of a column have no repeated cell of it. -/
theorem ReadFrom.nodup {rows : List ResultRow} {out : List OutRow} (hread : ReadFrom rows out) {name : String}
    (h : (out.map (OutRow.get · name)).Nodup) : (rows.map (cellOf · name)).Nodup := by
  have hvalues : (rows.map (cellOf · name)).map Cell.sqlValue = out.map (OutRow.get · name) := by
    rw [List.map_map]
    induction hread with
    | nil => rfl
    | cons hrow _ ih =>
      rw [List.map_cons, List.map_cons, ih (List.nodup_cons.mp h).2, ← hrow name, sqlRow_get]
      rfl
  exact List.Nodup.of_map Cell.sqlValue (hvalues ▸ h)

end ResultOrderAux

open MetricAux ResultOrderAux

/-- The order of a result. Over schemas whose organization coverage was validated, rows are accepted as the result of a compiled query
exactly when they are well shaped, no period or dimension is repeated, and they are in the order of the query: a ranking by its values
from the greatest with nothing last and then by the dimension, a trend by its period, a comparison by its dimension. And what is read
from an answer of the database repeats none and is in that order. -/
theorem result_order (D : MetricDigests) (c : MetricQueryCompiler)
    (hsnapshots : ∀ id snapshot, c.snapshots id = some snapshot → snapshot.state = .validated →
      ∀ relation ∈ snapshot.relations, validateOrganizationCoverage relation = [])
    (plan : QueryPlan) (context : ContextBundle) (q : CompiledMetricQuery) (h : c.compile D plan context = .ok q) :
    (q.queryPlan.intent = .ranking → keyColumn q = some "dimension_id" ∧
      q.query.orderBy = [OrderKey.descNullsLast "value", .asc "dimension_id"]) ∧
    (q.queryPlan.intent = .trend → keyColumn q = some "period" ∧ q.query.orderBy = [OrderKey.asc "period"]) ∧
    (q.queryPlan.intent = .comparison → keyColumn q = some "dimension_id" ∧ q.query.orderBy = [OrderKey.asc "dimension_id"]) ∧
    (∀ rows, validateRows rows q = .ok () ↔ WellShaped q rows ∧ UniqueKeys q rows ∧ Ordered q rows) ∧
    ∀ (S : Dialect) (db : Database) (out : List OutRow) (rows : List ResultRow), q.query.Answers S q.params db (some out) →
      ReadFrom rows out → UniqueKeys q rows ∧ Ordered q rows := by
  obtain ⟨r, -, -, hread, reason, degradation, hsource⟩ := compile_eq_ok h
  obtain ⟨snapshot, hsnapshot, hvalidated⟩ := compile_snapshot h
  obtain rfl : r.snapshot = snapshot := Option.some.inj (hread.symm.trans hsnapshot)
  obtain ⟨hq, hdetermined⟩ := compileSource_emitted hsource (hsnapshots _ _ hread hvalidated)
  have hgrouped : q.queryPlan.intent ≠ .trend → q.dimension.isSome = true → keyColumn q = some "dimension_id" := by
    intro hintent hsome
    unfold keyColumn
    rw [if_neg hintent, if_pos hsome]
  refine ⟨fun hi => ⟨?_, (hq.ranking hi).2⟩, fun hi => ⟨if_pos hi, (hq.trend hi).2⟩, fun hi => ⟨?_, (hq.comparison hi).2⟩,
    fun rows => validateRows_eq_ok_iff hq, fun S db out rows hanswer hrows => ?_⟩
  · exact hgrouped (by rw [hi]; decide) (hq.ranking hi).1
  · exact hgrouped (by rw [hi]; decide) (hq.comparison hi).1
  · obtain ⟨hunique, hordered⟩ := Query.answer_ordered (hdetermined S) hanswer
    refine ⟨fun name hname => ?_, hrows.ordered hordered⟩
    rw [← hq.grouped] at hname
    obtain ⟨key, hkey, rfl⟩ := Option.map_eq_some_iff.mp hname
    exact hrows.nodup (hunique key hkey)

/-- Complaints by team: the schema was validated, and their rows are accepted in the order of the teams. -/
theorem result_order_complaints :
    match complaintCompiler.compile complaintDigests complaintPlan complaintContext with
    | .ok q => ∀ rows, validateRows rows q = .ok () ↔ WellShaped q rows ∧ UniqueKeys q rows ∧ Ordered q rows
    | .error _ => False := by
  have hsnapshots : ∀ id snapshot, complaintCompiler.snapshots id = some snapshot → snapshot.state = .validated →
      ∀ relation ∈ snapshot.relations, validateOrganizationCoverage relation = [] := by
    intro id snapshot hsnapshot _
    obtain ⟨-, hsame⟩ := Option.ite_none_right_eq_some.mp hsnapshot
    cases hsame
    exact List.forall_mem_singleton.mpr (by decide +kernel)
  have hcompiled : (complaintCompiler.compile complaintDigests complaintPlan complaintContext).toOption.isSome = true := by decide +kernel
  split
  · rename_i q hq
    exact (result_order complaintDigests complaintCompiler hsnapshots complaintPlan complaintContext q hq).2.2.2.1
  · rename_i e he
    rw [he] at hcompiled
    cases hcompiled

end Nl2Sql
