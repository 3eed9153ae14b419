import Nl2Sql.Artifact.Publication
import Nl2Sql.Lib.DecimalRead

namespace Nl2Sql

open Py Json

/-! ## Calculations survive storage -/

namespace StoredAux

/-! ### Vocabularies -/

theorem literal?_aggregate (x : AggregateFunction) :
    literal? AggregateFunction.literals (.str (literalText AggregateFunction.literals x)) = some x := by cases x <;> rfl

theorem literal?_binary (x : BinaryOperator) : literal? BinaryOperator.literals (.str (literalText BinaryOperator.literals x)) = some x := by
  cases x <;> rfl

theorem literal?_comparison (x : ComparisonOperator) :
    literal? ComparisonOperator.literals (.str (literalText ComparisonOperator.literals x)) = some x := by cases x <;> rfl

theorem literal?_nullTest (x : NullTestOperator) :
    literal? NullTestOperator.literals (.str (literalText NullTestOperator.literals x)) = some x := by cases x <;> rfl

theorem literal?_unit (x : UnitPolicy) : literal? UnitPolicy.literals (.str (literalText UnitPolicy.literals x)) = some x := by
  cases x <;> rfl

theorem literal?_rounding (x : Rounding) : literal? roundingLiterals (.str (literalText roundingLiterals x)) = some x := by cases x <;> rfl

theorem literal?_valueType (x : ParameterValueType) :
    literal? ParameterValueType.literals (.str (literalText ParameterValueType.literals x)) = some x := by cases x <;> rfl

theorem literal?_provenance (x : InputProvenance) :
    literal? InputProvenance.literals (.str (literalText InputProvenance.literals x)) = some x := by cases x <;> rfl

/-! ### Leaves -/

theorem readPattern_val {p : String → Bool} (s : { s : String // p s = true }) : readPattern p (.str s.val) = some s := by
  rw [readPattern, text?, Option.bind_some, dif_pos s.property]

theorem readBounded_val {low high : Nat} (s : BoundedText low high) : readBounded low high (.str s.val) = some s := by
  rw [readBounded, text?, Option.bind_some, dif_pos s.property]

variable {co : Coercions}

theorem readPrecision_val (p : Precision) : readPrecision co (.int p.val) = some p := by
  have h : (0 : Int) ≤ p.val ∧ (p.val : Int) ≤ 12 := ⟨by omega, by omega⟩
  simp only [readPrecision, Option.bind_some, dif_pos h]
  rfl

/-- A nullable field is read when its value is, and no value is dumped as null. -/
theorem nullable?_of_stored {α : Type} {write : α → Json} {read : Json → Option α} {x : Option α} {j : Json}
    (h : Stored (nullableToJson write x) j) (hread : ∀ y ∈ x, Stored (write y) j → read j = some y) (hnull : ∀ y ∈ x, j ≠ .null) :
    nullable? read j = some x := by
  cases x with
  | none =>
    cases h
    rfl
  | some y =>
    have hy := hread y rfl h
    unfold nullable?
    split
    · exact absurd rfl (hnull y rfl)
    · rw [hy]
      rfl

/-- A nullable text. -/
theorem nullable?_text {α : Type} {write : α → String} {read : Json → Option α} (hread : ∀ y, read (.str (write y)) = some y)
    {x : Option α} {j : Json} (h : Stored (nullableToJson (fun y => .str (write y)) x) j) : nullable? read j = some x := by
  refine nullable?_of_stored h (fun y _ hy => ?_) fun y hy => ?_
  · rw [hy.text?]
    exact hread y
  · cases hy
    rw [Stored.text? h]
    nofun

theorem readLiteral_of_stored {value : Decimal} (hvalue : value.constructible = true) {j : Json} (h : Stored (literalDump Decimal.toStr value) j) :
    readLiteral co j = some value := by
  obtain ⟨members, hfields, rfl, hmember⟩ := fields?_of_stored h (by simp)
  obtain ⟨_, hop, hs⟩ := hmember "op" _ rfl
  obtain rfl := hs.text?
  obtain ⟨_, hval, hs⟩ := hmember "value" _ rfl
  obtain rfl := hs.text?
  change fields? ["op", "value"] _ = _ at hfields
  simp [readLiteral, hfields, opIs, hop, text?, hval, readDecimal, Decimal.ofString?_toStr hvalue]

/-! ### Conditions -/

/-- A reader of the expressions that are nested less deep than a bound. -/
def Reads (read : Json → Option Expression) (bound : Nat) : Prop :=
  ∀ e : Expression, e.Valid → ∀ j, Stored e.toJson j → j.depth < bound → read j = some e

variable {read : Json → Option Expression} {bound : Nat} {j : Json}

/-- A value under another `op` is refused: its own is what a model asks for. -/
theorem opIs_of_ne {members : List (String × Json)} {op own : String} (h : tag? (.obj members) = some op) (hne : op ≠ own) :
    opIs own members = false := by
  unfold tag? at h
  obtain ⟨v, hv, htext⟩ := Option.bind_eq_some_iff.mp h
  unfold opIs
  rw [hv]
  simp only [htext, beq_eq_false_iff_ne, ne_eq, Option.some.injEq]
  exact hne

theorem readCompare_none {op : String} (h : tag? j = some op) (hne : op ≠ "compare") : readCompare read j = none := by
  unfold readCompare
  cases hfields : fields? ["op", "operator", "left", "right"] j with
  | none => rfl
  | some members =>
    obtain rfl := eq_obj_of_fields? hfields
    simp [opIs_of_ne h hne]

theorem readNullTest_none {op : String} (h : tag? j = some op) (hne : op ≠ "null_test") : readNullTest read j = none := by
  unfold readNullTest
  cases hfields : fields? ["op", "operator", "operand"] j with
  | none => rfl
  | some members =>
    obtain rfl := eq_obj_of_fields? hfields
    simp [opIs_of_ne h hne]

theorem readAll_none {op : String} (h : tag? j = some op) (hne : op ≠ "all") : readAll read j = none := by
  unfold readAll
  cases hfields : fields? ["op", "conditions"] j with
  | none => rfl
  | some members =>
    obtain rfl := eq_obj_of_fields? hfields
    simp [opIs_of_ne h hne]

/-- The discriminator of what is stored of an object. -/
theorem tag?_of_stored {members : List (String × Json)} {op : String} (h : Stored (.obj members) j) (hn : (members.map Prod.fst).Nodup)
    (hop : member? "op" members = some (.str op)) : tag? j = some op := by
  obtain ⟨members', rfl, -, hmember⟩ := h.obj_inv hn
  obtain ⟨_, hop', hs⟩ := hmember "op" _ hop
  obtain rfl := hs.text?
  rw [tag?, hop']
  rfl

/-- The discriminator of a dumped condition. -/
def simpleOp : SimpleCondition → String
  | .compare _ _ _ => "compare"
  | .nullTest _ _ => "null_test"

theorem tag?_simple {c : SimpleCondition} (h : Stored (c.dump Decimal.toStr) j) : tag? j = some (simpleOp c) := by
  cases c with
  | compare operator left right =>
    rw [SimpleCondition.dump] at h
    exact tag?_of_stored h (by simp) rfl
  | nullTest operator operand =>
    rw [SimpleCondition.dump] at h
    exact tag?_of_stored h (by simp) rfl

theorem readItems_of_stored {α : Type} {write : α → Json} {item : Json → Option α} {low high : Nat} {xs : List α}
    (hlow : low ≤ xs.length) (hhigh : xs.length ≤ high) (h : Stored (.arr (xs.map write)) j)
    (hread : ∀ x ∈ xs, ∀ v, v.depth < j.depth → Stored (write x) v → item v = some x) : readItems low high item j = some xs := by
  obtain ⟨items, rfl, hitems⟩ := h.arr_inv
  have hmapM := mapM_of_storedItems hitems fun x hx v hv => hread x hx v (depth_lt_of_mem hv)
  have hlength : items.length = xs.length := by
    rw [← hitems.length, List.length_map]
  rw [readItems, items?, Option.bind_some, hlength, if_pos ⟨hlow, hhigh⟩, hmapM]

/-- The discriminator of a dumped guard. -/
def guardOp : Condition → String
  | .simple c => simpleOp c
  | .all _ => "all"
  | .any _ => "any"

theorem tag?_guard {c : Condition} (h : Stored (c.dump Decimal.toStr) j) : tag? j = some (guardOp c) := by
  cases c with
  | simple c =>
    rw [Condition.dump] at h
    exact tag?_simple h
  | all conditions =>
    rw [Condition.dump] at h
    exact tag?_of_stored h (by simp) rfl
  | any conditions =>
    rw [Condition.dump] at h
    exact tag?_of_stored h (by simp) rfl

section

variable (hread : Reads read bound)
include hread

theorem readCompare_of_stored {operator : ComparisonOperator} {left right : Expression}
    (hleft : left.Valid) (hright : right.Valid) (h : Stored ((SimpleCondition.compare operator left right).dump Decimal.toStr) j)
    (hj : j.depth ≤ bound) : readCompare read j = some (.compare operator left right) := by
  rw [SimpleCondition.dump] at h
  obtain ⟨members, hfields, rfl, hmember⟩ := fields?_of_stored h (by simp)
  obtain ⟨_, hop, hs⟩ := hmember "op" _ rfl
  obtain rfl := hs.text?
  obtain ⟨_, hoperator, hs⟩ := hmember "operator" _ rfl
  obtain rfl := hs.text?
  obtain ⟨l, hl, hs⟩ := hmember "left" _ rfl
  have hl' := hread left hleft l hs ((depth_lt_of_member? hl).trans_le hj)
  obtain ⟨r, hr, hs⟩ := hmember "right" _ rfl
  have hr' := hread right hright r hs ((depth_lt_of_member? hr).trans_le hj)
  change fields? ["op", "operator", "left", "right"] _ = _ at hfields
  simp [readCompare, hfields, opIs, hop, text?, hoperator, hl, hr, hl', hr', literal?_comparison]

theorem readNullTest_of_stored {operator : NullTestOperator} {operand : Expression} (hoperand : operand.Valid)
    (h : Stored ((SimpleCondition.nullTest operator operand).dump Decimal.toStr) j) (hj : j.depth ≤ bound) :
    readNullTest read j = some (.nullTest operator operand) := by
  rw [SimpleCondition.dump] at h
  obtain ⟨members, hfields, rfl, hmember⟩ := fields?_of_stored h (by simp)
  obtain ⟨_, hop, hs⟩ := hmember "op" _ rfl
  obtain rfl := hs.text?
  obtain ⟨_, hoperator, hs⟩ := hmember "operator" _ rfl
  obtain rfl := hs.text?
  obtain ⟨e, he, hs⟩ := hmember "operand" _ rfl
  have he' := hread operand hoperand e hs ((depth_lt_of_member? he).trans_le hj)
  change fields? ["op", "operator", "operand"] _ = _ at hfields
  simp [readNullTest, hfields, opIs, hop, text?, hoperator, he, he', literal?_nullTest]

/-- The members of the union are tried in order, and the first that accepts is the condition's own. -/
theorem readSimple_of_stored {c : SimpleCondition} (hc : c.Valid) (h : Stored (c.dump Decimal.toStr) j)
    (hj : j.depth ≤ bound) : readSimple read j = some c := by
  cases c with
  | compare operator left right =>
    rw [SimpleCondition.Valid] at hc
    rw [readSimple, readCompare_of_stored hread hc.1 hc.2 h hj]
    rfl
  | nullTest operator operand =>
    rw [SimpleCondition.Valid] at hc
    have htag : tag? j = some "null_test" := tag?_simple h
    rw [readSimple, readCompare_none htag (by decide), readNullTest_of_stored hread hc h hj]
    rfl

/-- The conditions of ALL and ANY. -/
theorem readConditions_of_stored {conditions : List SimpleCondition}
    (hlength : 1 ≤ conditions.length ∧ conditions.length ≤ 8) (hvalid : conditionsValid conditions)
    (h : Stored (.arr (conditionsDump Decimal.toStr conditions)) j) (hj : j.depth ≤ bound) :
    readItems 1 8 (readSimple read) j = some conditions := by
  rw [conditionsDump_eq] at h
  refine readItems_of_stored hlength.1 hlength.2 h fun c hc v hv hs => ?_
  exact readSimple_of_stored hread (conditionsValid_iff.mp hvalid c hc) hs (hv.le.trans hj)

theorem readAll_of_stored {conditions : List SimpleCondition} (hvalid : (Condition.all conditions).Valid)
    (h : Stored ((Condition.all conditions).dump Decimal.toStr) j) (hj : j.depth ≤ bound) : readAll read j = some (.all conditions) := by
  rw [Condition.dump] at h
  rw [Condition.Valid] at hvalid
  obtain ⟨members, hfields, rfl, hmember⟩ := fields?_of_stored h (by simp)
  obtain ⟨_, hop, hs⟩ := hmember "op" _ rfl
  obtain rfl := hs.text?
  obtain ⟨items, hitems, hs⟩ := hmember "conditions" _ rfl
  have hconditions := readConditions_of_stored hread hvalid.1 hvalid.2 hs ((depth_lt_of_member? hitems).le.trans hj)
  change fields? ["op", "conditions"] _ = _ at hfields
  simp [readAll, hfields, opIs, hop, text?, hitems, hconditions]

theorem readAny_of_stored {conditions : List SimpleCondition} (hvalid : (Condition.any conditions).Valid)
    (h : Stored ((Condition.any conditions).dump Decimal.toStr) j) (hj : j.depth ≤ bound) : readAny read j = some (.any conditions) := by
  rw [Condition.dump] at h
  rw [Condition.Valid] at hvalid
  obtain ⟨members, hfields, rfl, hmember⟩ := fields?_of_stored h (by simp)
  obtain ⟨_, hop, hs⟩ := hmember "op" _ rfl
  obtain rfl := hs.text?
  obtain ⟨items, hitems, hs⟩ := hmember "conditions" _ rfl
  have hconditions := readConditions_of_stored hread hvalid.1 hvalid.2 hs ((depth_lt_of_member? hitems).le.trans hj)
  change fields? ["op", "conditions"] _ = _ at hfields
  simp [readAny, hfields, opIs, hop, text?, hitems, hconditions]

theorem readGuard_of_stored {c : Condition} (hc : c.Valid) (h : Stored (c.dump Decimal.toStr) j) (hj : j.depth ≤ bound) :
    readGuard read j = some c := by
  have hguard := tag?_guard h
  cases c with
  | simple c =>
    rw [Condition.dump] at h
    rw [Condition.Valid] at hc
    cases c with
    | compare operator left right =>
      rw [SimpleCondition.Valid] at hc
      rw [readGuard, readCompare_of_stored hread hc.1 hc.2 h hj]
      rfl
    | nullTest operator operand =>
      rw [SimpleCondition.Valid] at hc
      have htag : tag? j = some "null_test" := hguard
      rw [readGuard, readCompare_none htag (by decide), readNullTest_of_stored hread hc h hj]
      rfl
  | all conditions =>
    have htag : tag? j = some "all" := hguard
    rw [readGuard, readCompare_none htag (by decide), readNullTest_none htag (by decide), readAll_of_stored hread hc h hj]
    rfl
  | any conditions =>
    have htag : tag? j = some "any" := hguard
    rw [readGuard, readCompare_none htag (by decide), readNullTest_none htag (by decide), readAll_none htag (by decide),
      readAny_of_stored hread hc h hj]
    rfl

theorem readBranch_of_stored {branch : WhenBranch} (hbranch : branch.Valid) (h : Stored (branch.dump Decimal.toStr) j)
    (hj : j.depth ≤ bound) : readBranch read j = some branch := by
  obtain ⟨condition, result⟩ := branch
  rw [WhenBranch.dump] at h
  rw [WhenBranch.Valid] at hbranch
  obtain ⟨members, hfields, rfl, hmember⟩ := fields?_of_stored h (by simp)
  obtain ⟨c, hc, hs⟩ := hmember "condition" _ rfl
  have hc' := readGuard_of_stored hread hbranch.1 hs ((depth_lt_of_member? hc).le.trans hj)
  obtain ⟨e, he, hs⟩ := hmember "then" _ rfl
  have he' := hread result hbranch.2 e hs ((depth_lt_of_member? he).trans_le hj)
  change fields? ["condition", "then"] _ = _ at hfields
  simp [readBranch, hfields, hc, hc', he, he']

end

/-! ### Expressions -/

theorem depth_pos (j : Json) : 0 < j.depth := by
  cases j <;> simp [depth]

theorem not_null_of_tag {op : String} (h : tag? j = some op) : j ≠ .null := by
  rintro rfl
  nomatch h

/-- The discriminator of a dumped expression. -/
def expressionOp : Expression → String
  | .literal _ => "literal"
  | .null => "null"
  | .input _ => "input"
  | .parameter _ => "parameter"
  | .aggregate _ _ => "aggregate"
  | .binary op _ _ => literalText BinaryOperator.literals op
  | .condition c => guardOp c
  | .coalesce _ _ => "coalesce"
  | .round _ _ => "round"
  | .case _ _ => "case"

theorem tag?_expression {e : Expression} (h : Stored e.toJson j) : tag? j = some (expressionOp e) := by
  cases e with
  | condition c =>
    rw [Expression.toJson, Expression.dump] at h
    exact tag?_guard h
  | literal value =>
    rw [Expression.toJson, Expression.dump] at h
    exact tag?_of_stored h (by simp) rfl
  | _ =>
    rw [Expression.toJson, Expression.dump] at h
    exact tag?_of_stored h (by simp) rfl

theorem readInput_of_stored {role : RoleName} (h : Stored (Expression.input role).toJson j) : readInput j = some (.input role) := by
  rw [Expression.toJson, Expression.dump] at h
  obtain ⟨members, hfields, rfl, hmember⟩ := fields?_of_stored h (by simp)
  obtain ⟨_, hrole, hs⟩ := hmember "role" _ rfl
  obtain rfl := hs.text?
  change fields? ["op", "role"] _ = _ at hfields
  simp [readInput, hfields, hrole, readPattern_val]

theorem readParameter_of_stored {name : ParameterName} (h : Stored (Expression.parameter name).toJson j) :
    readParameter j = some (.parameter name) := by
  rw [Expression.toJson, Expression.dump] at h
  obtain ⟨members, hfields, rfl, hmember⟩ := fields?_of_stored h (by simp)
  obtain ⟨_, hname, hs⟩ := hmember "name" _ rfl
  obtain rfl := hs.text?
  change fields? ["op", "name"] _ = _ at hfields
  simp [readParameter, hfields, hname, readPattern_val]

theorem readAggregate_of_stored {function : AggregateFunction} {role : RoleName} (h : Stored (Expression.aggregate function role).toJson j) :
    readAggregate j = some (.aggregate function role) := by
  rw [Expression.toJson, Expression.dump] at h
  obtain ⟨members, hfields, rfl, hmember⟩ := fields?_of_stored h (by simp)
  obtain ⟨_, hfunction, hs⟩ := hmember "function" _ rfl
  obtain rfl := hs.text?
  obtain ⟨_, hrole, hs⟩ := hmember "role" _ rfl
  obtain rfl := hs.text?
  change fields? ["op", "function", "role"] _ = _ at hfields
  simp [readAggregate, hfields, hfunction, hrole, readPattern_val, literal?_aggregate]

theorem readNull_of_stored (h : Stored Expression.null.toJson j) : ∃ members, fields? ["op"] j = some members := by
  rw [Expression.toJson, Expression.dump] at h
  obtain ⟨members, hfields, -, -⟩ := fields?_of_stored h (by simp)
  exact ⟨members, hfields⟩

section

variable (hread : Reads read bound)
include hread

theorem readBinary_of_stored {op : BinaryOperator} {left right : Expression} (hleft : left.Valid)
    (hright : right.Valid) (h : Stored (Expression.binary op left right).toJson j) (hj : j.depth ≤ bound) :
    readBinary read j = some (.binary op left right) := by
  rw [Expression.toJson, Expression.dump] at h
  obtain ⟨members, hfields, rfl, hmember⟩ := fields?_of_stored h (by simp)
  obtain ⟨_, hop, hs⟩ := hmember "op" _ rfl
  obtain rfl := hs.text?
  obtain ⟨l, hl, hs⟩ := hmember "left" _ rfl
  have hl' := hread left hleft l hs ((depth_lt_of_member? hl).trans_le hj)
  obtain ⟨r, hr, hs⟩ := hmember "right" _ rfl
  have hr' := hread right hright r hs ((depth_lt_of_member? hr).trans_le hj)
  change fields? ["op", "left", "right"] _ = _ at hfields
  simp [readBinary, hfields, hop, hl, hr, hl', hr', literal?_binary]

theorem readCoalesce_of_stored {operand : Expression} {default : Decimal} (hoperand : operand.Valid)
    (hdefault : default.constructible = true) (h : Stored (Expression.coalesce operand default).toJson j) (hj : j.depth ≤ bound) :
    readCoalesce co read j = some (.coalesce operand default) := by
  rw [Expression.toJson, Expression.dump] at h
  obtain ⟨members, hfields, rfl, hmember⟩ := fields?_of_stored h (by simp)
  obtain ⟨e, he, hs⟩ := hmember "operand" _ rfl
  have he' := hread operand hoperand e hs ((depth_lt_of_member? he).trans_le hj)
  obtain ⟨v, hv, hs⟩ := hmember "default" _ rfl
  have hv' : readLiteral co v = some default := readLiteral_of_stored hdefault hs
  change fields? ["op", "operand", "default"] _ = _ at hfields
  simp [readCoalesce, hfields, he, hv, he', hv']

theorem readRound_of_stored {operand : Expression} {digits : Precision} (hoperand : operand.Valid)
    (h : Stored (Expression.round operand digits).toJson j) (hj : j.depth ≤ bound) :
    readRound co read j = some (.round operand digits) := by
  rw [Expression.toJson, Expression.dump] at h
  obtain ⟨members, hfields, rfl, hmember⟩ := fields?_of_stored h (by simp)
  obtain ⟨e, he, hs⟩ := hmember "operand" _ rfl
  have he' := hread operand hoperand e hs ((depth_lt_of_member? he).trans_le hj)
  obtain ⟨_, hdigits, hs⟩ := hmember "digits" _ rfl
  obtain rfl := hs.int_inv
  change fields? ["op", "operand", "digits"] _ = _ at hfields
  simp [readRound, hfields, he, he', hdigits, readPrecision_val]

/-- An ELSE, or none. -/
theorem nullable?_otherwise {otherwise : Option Expression} (hvalid : otherwiseValid otherwise)
    (h : Stored (otherwiseDump Decimal.toStr otherwise) j) (hj : j.depth < bound) : nullable? read j = some otherwise := by
  cases otherwise with
  | none =>
    rw [otherwiseDump] at h
    obtain rfl := h.null_inv
    rfl
  | some e =>
    rw [otherwiseDump] at h
    rw [otherwiseValid] at hvalid
    have he := hread e hvalid j h hj
    have hnull := not_null_of_tag (tag?_expression h)
    unfold nullable?
    split
    · exact absurd rfl hnull
    · rw [he]
      rfl

theorem readCase_of_stored {whens : List WhenBranch} {otherwise : Option Expression}
    (hvalid : (Expression.case whens otherwise).Valid) (h : Stored (Expression.case whens otherwise).toJson j) (hj : j.depth ≤ bound) :
    readCase read j = some (.case whens otherwise) := by
  rw [Expression.toJson, Expression.dump, whensDump_eq] at h
  rw [Expression.Valid] at hvalid
  obtain ⟨hlength, hwhens, hotherwise⟩ := hvalid
  obtain ⟨members, hfields, rfl, hmember⟩ := fields?_of_stored h (by simp)
  obtain ⟨items, hitems, hs⟩ := hmember "whens" _ rfl
  have hbranches : readItems 1 8 (readBranch read) items = some whens := by
    refine readItems_of_stored hlength.1 hlength.2 hs fun b hb v hv hs => ?_
    exact readBranch_of_stored hread (whensValid_iff.mp hwhens b hb) hs ((hv.trans (depth_lt_of_member? hitems)).le.trans hj)
  obtain ⟨e, he, hs⟩ := hmember "otherwise" _ rfl
  have he' := nullable?_otherwise hread hotherwise hs ((depth_lt_of_member? he).trans_le hj)
  change fields? ["op", "whens", "otherwise"] _ = _ at hfields
  simp [readCase, hfields, hitems, hbranches, he, he', readDefault]

/-- Each of the thirteen models reads what its own dump is stored as. -/
theorem readTagged_of_stored {e : Expression} (he : e.Valid) (h : Stored e.toJson j) (hj : j.depth ≤ bound) :
    readTagged co read (expressionOp e) j = some e := by
  cases e with
  | literal value =>
    rw [Expression.toJson, Expression.dump] at h
    rw [Expression.Valid] at he
    simp [readTagged, expressionOp, readLiteral_of_stored he h]
  | null =>
    obtain ⟨members, hfields⟩ := readNull_of_stored h
    simp [readTagged, expressionOp, hfields]
  | input role => simp [readTagged, expressionOp, readInput_of_stored h]
  | parameter name => simp [readTagged, expressionOp, readParameter_of_stored h]
  | aggregate function role => simp [readTagged, expressionOp, readAggregate_of_stored h]
  | binary op left right =>
    rw [Expression.Valid] at he
    have hbinary := readBinary_of_stored hread he.1 he.2 h hj
    cases op <;> simp [readTagged, expressionOp, literalText, BinaryOperator.literals, hbinary]
  | condition c =>
    rw [Expression.toJson, Expression.dump] at h
    rw [Expression.Valid] at he
    cases c with
    | simple c =>
      rw [Condition.dump] at h
      rw [Condition.Valid] at he
      cases c with
      | compare operator left right =>
        rw [SimpleCondition.Valid] at he
        simp [readTagged, expressionOp, guardOp, simpleOp, BinaryOperator.literals, readCompare_of_stored hread he.1 he.2 h hj]
      | nullTest operator operand =>
        rw [SimpleCondition.Valid] at he
        simp [readTagged, expressionOp, guardOp, simpleOp, BinaryOperator.literals, readNullTest_of_stored hread he h hj]
    | all conditions => simp [readTagged, expressionOp, guardOp, BinaryOperator.literals, readAll_of_stored hread he h hj]
    | any conditions => simp [readTagged, expressionOp, guardOp, BinaryOperator.literals, readAny_of_stored hread he h hj]
  | coalesce operand default =>
    rw [Expression.Valid] at he
    simp [readTagged, expressionOp, BinaryOperator.literals, readCoalesce_of_stored hread he.1 he.2 h hj]
  | round operand digits =>
    rw [Expression.Valid] at he
    simp [readTagged, expressionOp, BinaryOperator.literals, readRound_of_stored hread he h hj]
  | case whens otherwise => simp [readTagged, expressionOp, BinaryOperator.literals, readCase_of_stored hread he h hj]

end

/-- Reading as deep as a value is nested reads the expression it stores. -/
theorem readExpression_of_stored (depth : Nat) : Reads (readExpression co depth) (depth + 1) := by
  induction depth with
  | zero =>
    intro e _ j _ hj
    exact absurd (depth_pos j) (by omega)
  | succ depth ih =>
    intro e he j hs hj
    rw [readExpression, tag?_expression hs, Option.bind_some]
    exact readTagged_of_stored ih he hs (by omega)

/-! ### Specs -/

theorem readBool_of_stored {b : Bool} (h : Stored (.bool b) j) : readBool co j = some b := by
  rw [h.bool_inv, readBool]

theorem input_of_stored {input : CalculationInputSpec} (h : Stored input.toJson j) : CalculationInputSpec.ofJson? co j = some input := by
  obtain ⟨role, provenance, metricKey, required, hformal⟩ := input
  obtain ⟨members, hfields, rfl, hmember⟩ := fields?_of_stored h (by simp)
  obtain ⟨_, hrole, hs⟩ := hmember "role" _ rfl
  obtain rfl := hs.text?
  obtain ⟨_, hprovenance, hs⟩ := hmember "provenance" _ rfl
  obtain rfl := hs.text?
  obtain ⟨k, hk, hs⟩ := hmember "metric_key" _ rfl
  have hk' : nullable? (readBounded 1 256) k = some metricKey := nullable?_text readBounded_val hs
  obtain ⟨b, hb, hs⟩ := hmember "required" _ rfl
  have hb' : readBool co b = some required := readBool_of_stored hs
  change fields? ["role", "provenance", "metric_key", "required"] _ = _ at hfields
  simp only [CalculationInputSpec.ofJson?, hfields, hrole, hprovenance, hk, hb, readPattern_val, literal?_provenance, readDefault, hk', hb',
    Option.bind_eq_bind, Option.bind_some, Option.pure_def]
  exact dif_pos hformal

theorem parameter_of_stored {parameter : ParameterSpec} (h : Stored parameter.toJson j) : ParameterSpec.ofJson? co j = some parameter := by
  obtain ⟨name, valueType, required, allowedValues, description, hlength, hblank, hunique⟩ := parameter
  obtain ⟨members, hfields, rfl, hmember⟩ := fields?_of_stored h (by simp)
  obtain ⟨_, hname, hs⟩ := hmember "name" _ rfl
  obtain rfl := hs.text?
  obtain ⟨_, hvalueType, hs⟩ := hmember "value_type" _ rfl
  obtain rfl := hs.text?
  obtain ⟨b, hb, hs⟩ := hmember "required" _ rfl
  have hb' : readBool co b = some required := readBool_of_stored hs
  obtain ⟨v, hv, hs⟩ := hmember "allowed_values" _ rfl
  have hv' : readItems 0 64 text? v = some allowedValues := by
    refine readItems_of_stored (Nat.zero_le _) hlength hs fun x _ w _ hs => ?_
    rw [hs.text?]
    rfl
  obtain ⟨t, ht, hs⟩ := hmember "description" _ rfl
  have ht' : nullable? (readBounded 0 512) t = some description := nullable?_text readBounded_val hs
  change fields? ["name", "value_type", "required", "allowed_values", "description"] _ = _ at hfields
  simp only [ParameterSpec.ofJson?, hfields, hname, hvalueType, hb, hv, ht, readPattern_val, literal?_valueType, readDefault, hb', hv', ht',
    Option.bind_eq_bind, Option.bind_some, Option.pure_def]
  exact dif_pos ⟨hlength, hblank, hunique⟩

theorem spec_of_stored {spec : CalculationSpec} (hvalid : spec.expression.Valid) (h : Stored spec.toJson j) :
    CalculationSpec.ofJson? co j = some spec := by
  obtain ⟨members, hfields, rfl, hmember⟩ := fields?_of_stored h (by simp)
  obtain ⟨_, hversion, hs⟩ := hmember "schema_version" _ rfl
  obtain rfl := hs.text?
  have hversion' : literal? [("1.1", ())] (.str "1.1") = some () := rfl
  obtain ⟨_, hid, hs⟩ := hmember "calculation_id" _ rfl
  obtain rfl := hs.text?
  obtain ⟨e, he, hs⟩ := hmember "expression" _ rfl
  have he' : readExpression co e.depth e = some spec.expression := readExpression_of_stored e.depth _ hvalid e hs (Nat.lt_succ_self _)
  obtain ⟨i, hi, hs⟩ := hmember "inputs" _ rfl
  have hi' : readItems 1 32 (CalculationInputSpec.ofJson? co) i = some spec.inputs :=
    readItems_of_stored spec.inputs_length.1 spec.inputs_length.2 hs fun _ _ _ _ hs => input_of_stored hs
  obtain ⟨p, hp, hs⟩ := hmember "parameters" _ rfl
  have hp' : readItems 0 32 (ParameterSpec.ofJson? co) p = some spec.parameters :=
    readItems_of_stored (Nat.zero_le _) spec.parameters_length hs fun _ _ _ _ hs => parameter_of_stored hs
  obtain ⟨_, hunit, hs⟩ := hmember "unit" _ rfl
  obtain rfl := hs.text?
  obtain ⟨u, hu, hs⟩ := hmember "custom_unit_id" _ rfl
  have hu' : nullable? (readPattern isCustomUnitId) u = some spec.customUnitId := nullable?_text readPattern_val hs
  obtain ⟨q, hq, hs⟩ := hmember "precision" _ rfl
  have hq' : nullable? (readPrecision co) q = some spec.precision := by
    refine nullable?_of_stored hs (fun y _ hy => ?_) fun y hy => ?_
    · rw [hy.int_inv]
      exact readPrecision_val y
    · rw [Option.mem_def.mp hy] at hs
      rw [Stored.int_inv hs]
      rintro ⟨⟩
  obtain ⟨r, hr, hs⟩ := hmember "rounding" _ rfl
  have hr' : nullable? (literal? roundingLiterals) r = some spec.rounding := nullable?_text literal?_rounding hs
  change fields? ["schema_version", "calculation_id", "expression", "inputs", "parameters", "unit", "custom_unit_id", "precision",
    "rounding"] _ = _ at hfields
  have hspec := spec.of?_self
  simp only [CalculationSpec.ofJson?, hfields, hversion, hversion', hid, he, he', hi, hi', hp, hp', hunit, hu, hu', hq, hq', hr, hr', readDefault,
    readPattern_val, literal?_unit, hspec, Option.bind_eq_bind, Option.bind_some]

theorem contract_of_stored {co : PackageCoercions} {contract : ParameterContract} (h : Stored contract.toJson j) :
    ParameterContract.ofJson? co j = some contract := by
  obtain ⟨parameters, hlength⟩ := contract
  obtain ⟨members, hfields, rfl, hmember⟩ := fields?_of_stored h (by simp)
  obtain ⟨p, hp, hs⟩ := hmember "parameters" _ rfl
  have hp' : readItems 0 32 (ParameterSpec.ofJson? co.toCoercions) p = some parameters :=
    readItems_of_stored (Nat.zero_le _) hlength hs fun _ _ _ _ hs => parameter_of_stored hs
  change fields? ["parameters"] _ = _ at hfields
  simp [ParameterContract.ofJson?, hfields, hp, hp', readDefault, hlength]

/-- A package is read back from what is stored of its payload. -/
theorem package_of_stored {co : PackageCoercions} {package : PublishedSemanticPackage} (hvalid : package.calculation.expression.Valid)
    (h : Stored (semanticPayload package) j) : semanticPackage co (some j) = .ok (some package) := by
  obtain ⟨members, rfl, -, hmember⟩ := h.obj_inv (by simp)
  obtain ⟨c, hc, hs⟩ := hmember "calculation" _ rfl
  have hc' : CalculationSpec.ofJson? co.toCoercions c = some package.calculation := spec_of_stored hvalid hs
  obtain ⟨k, hk, hs⟩ := hmember "parameter_contract" _ rfl
  have hk' : ParameterContract.ofJson? co k = some package.parameterContract := contract_of_stored hs
  obtain ⟨_, hid, hs⟩ := hmember "source_definition_id" _ rfl
  obtain rfl := hs.text?
  obtain ⟨_, hversion, hs⟩ := hmember "source_definition_version" _ rfl
  obtain rfl := hs.int_inv
  obtain ⟨_, hchecksum, hs⟩ := hmember "source_definition_checksum" _ rfl
  obtain rfl := hs.text?
  have hread : readPackage co (.obj members) = some package := by
    simp only [readPackage, membersOf, hc, hc', hk, hk', hid, hversion, hchecksum, strOf, intOf, Option.bind_eq_bind, Option.bind_some,
      Option.pure_def]
    exact dif_pos package.coherent
  simp only [semanticPackage, hread]

end StoredAux

open StoredAux in
/-- Validating what is stored of the JSON form of a spec, or that form itself, gives the spec with its checksum; and a package is read back
from what is stored of its payload. -/
theorem calculation_survives_storage (co : PackageCoercions) :
    (∀ spec : CalculationSpec, spec.expression.Valid → ∀ j, Stored spec.toJson j →
      ∃ spec', CalculationSpec.ofJson? co.toCoercions j = some spec' ∧ spec' = spec ∧
        ∀ sha256, spec'.dumpChecksum sha256 = spec.dumpChecksum sha256) ∧
    ∀ package : PublishedSemanticPackage, package.calculation.expression.Valid → ∀ raw, Stored (semanticPayload package) raw →
      semanticPackage co (some raw) = .ok (some package) :=
  ⟨fun spec hvalid _ hs => ⟨spec, spec_of_stored hvalid hs, rfl, fun _ => rfl⟩, fun _ hvalid _ hs => package_of_stored hvalid hs⟩

theorem no_parameters_length : ([] : List ParameterSpec).length ≤ 32 := by decide

theorem no_parameters_unique : (([] : List ParameterSpec).map (·.name)).Nodup := by decide

theorem no_custom_unit : ∀ u ∈ (none : Option { s : String // isCustomUnitId s = true }), u.val ∉ builtinUnitLiterals := by decide

/-- Complaints per order, NULL where there are no orders, a missing number of complaints counting as none. -/
def complaintRate : CalculationSpec where
  calculationId := ⟨"complaint_rate", by decide⟩
  expression := .case
    [.mk (.any [.nullTest .isNull (.input ⟨"orders", by decide⟩), .compare .le (.input ⟨"orders", by decide⟩) (.literal ⟨false, 0, 0⟩)]) .null]
    (some (.round (.binary .divide (.coalesce (.input ⟨"complaints", by decide⟩) ⟨false, 0, -2⟩) (.input ⟨"orders", by decide⟩)) ⟨4, by decide⟩))
  inputs := [⟨⟨"orders", by decide⟩, .adHocMetric, none, true, nofun⟩, ⟨⟨"complaints", by decide⟩, .adHocMetric, none, true, nofun⟩]
  parameters := []
  unit := .ratio
  customUnitId := none
  precision := some ⟨4, by decide⟩
  rounding := some .halfUp
  inputs_length := by decide
  inputs_unique := by decide
  parameters_length := no_parameters_length
  parameters_unique := no_parameters_unique
  depth_bounded := by decide
  nodes_bounded := by decide
  roles_declared := by decide
  parameters_declared := by decide
  rounding_precision := by decide
  custom_unit := by decide
  custom_unit_fresh := no_custom_unit

/-- Coercions that change no value of the type asked for. -/
def plainCoercions : PackageCoercions where
  bool := fun j => match j with
    | .bool b => some b
    | _ => none
  int := fun j => match j with
    | .int n => some n
    | _ => none
  decimal := fun j => match j with
    | .int n => some (.ofInt n)
    | _ => none
  str := Json.dumps
  integer := fun j => match j with
    | .int n => some n
    | _ => none

theorem calculation_survives_storage_rate :
    CalculationSpec.ofJson? plainCoercions.toCoercions complaintRate.toJson = some complaintRate := by
  obtain ⟨spec', hread, rfl, -⟩ := (calculation_survives_storage plainCoercions).1 complaintRate
    (by simp [complaintRate, Expression.Valid, whensValid, otherwiseValid, WhenBranch.Valid, Condition.Valid, conditionsValid,
      SimpleCondition.Valid, Decimal.constructible]) complaintRate.toJson (Stored.refl _)
  exact hread

end Nl2Sql
