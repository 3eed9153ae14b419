import Nl2Sql.Calculation.Semantics

/-!
# The evaluator agrees with the meaning of expressions

`Agrees view m d` says the evaluation `m` only adds to the list of decimal operations, and that, when the operations it added are
all exact, it ends as `d` says: with a value that `view` maps to the one `d` names, with NULL, or with the code of an error. The
combinators of the evaluator keep it, and the agreement of `evaluate` with `denote` follows by recursion on the tree.
-/

namespace Nl2Sql

open Py

namespace CalculationAux

/-- How a run of an evaluation from the operations `t` ends, against a denotation. -/
def EndsAs {α β : Type} (view : α → β) (t : List DecimalOp) (d : Denotation β) :
    EStateM.Result EvalError (List DecimalOp) α → Prop
  | .ok a t' => ∃ ops, t' = t ++ ops ∧ ((∀ op ∈ ops, op.Exact) → d = .value (view a))
  | .error .null t' => ∃ ops, t' = t ++ ops ∧ ((∀ op ∈ ops, op.Exact) → d = .null)
  | .error (.runtime code) t' => ∃ ops, t' = t ++ ops ∧ ((∀ op ∈ ops, op.Exact) → d = .error code)
  | .error (.decimal _) t' => ∃ ops, t' = t ++ ops ∧ ¬ ∀ op ∈ ops, op.Exact

/-- An evaluation that agrees with a denotation wherever its decimal operations are exact. -/
def Agrees {α β : Type} (view : α → β) (m : EvalM α) (d : Denotation β) : Prop := ∀ t, EndsAs view t d (m.run t)

variable {α β γ δ : Type}

theorem agrees_pure (view : α → β) (a : α) : Agrees view (pure a : EvalM α) (.value (view a)) := by
  intro t
  exact ⟨[], by simp, fun _ => rfl⟩

theorem agrees_throw_null (view : α → β) : Agrees view (throw .null : EvalM α) .null := by
  intro t
  exact ⟨[], by simp, fun _ => rfl⟩

theorem agrees_throw_runtime (view : α → β) (code : RuntimeCode) :
    Agrees view (throw (.runtime code) : EvalM α) (.error code) := by
  intro t
  exact ⟨[], by simp, fun _ => rfl⟩

/-- Exactness of the operations added splits over what was added first and what was added after. -/
theorem exact_append {ops ops' : List DecimalOp} (h : ∀ op ∈ ops ++ ops', op.Exact) :
    (∀ op ∈ ops, op.Exact) ∧ ∀ op ∈ ops', op.Exact :=
  ⟨fun op hop => h op (List.mem_append_left _ hop), fun op hop => h op (List.mem_append_right _ hop)⟩

/-- Sequencing: the second evaluation agrees with what the first one's value is mapped to. -/
theorem agrees_bind {view : α → β} {view' : γ → δ} {m : EvalM α} {d : Denotation β} {k : α → EvalM γ}
    {k' : β → Denotation δ} (hm : Agrees view m d) (hk : ∀ a, Agrees view' (k a) (k' (view a))) :
    Agrees view' (m >>= k) (d.bind k') := by
  intro t
  have h := hm t
  rw [EStateM.run_bind]
  cases hrun : m.run t with
  | ok a t' =>
    rw [hrun] at h
    obtain ⟨ops, rfl, hd⟩ := h
    have h' := hk a (t ++ ops)
    change EndsAs view' t _ ((k a).run (t ++ ops))
    cases hrun' : (k a).run (t ++ ops) with
    | ok c t'' =>
      rw [hrun'] at h'
      obtain ⟨ops', rfl, hd'⟩ := h'
      refine ⟨ops ++ ops', by rw [List.append_assoc], fun hx => ?_⟩
      obtain ⟨h1, h2⟩ := exact_append hx
      rw [hd h1, Denotation.bind, hd' h2]
    | error e t'' =>
      rw [hrun'] at h'
      cases e with
      | null =>
        obtain ⟨ops', rfl, hd'⟩ := h'
        refine ⟨ops ++ ops', by rw [List.append_assoc], fun hx => ?_⟩
        obtain ⟨h1, h2⟩ := exact_append hx
        rw [hd h1, Denotation.bind, hd' h2]
      | runtime code =>
        obtain ⟨ops', rfl, hd'⟩ := h'
        refine ⟨ops ++ ops', by rw [List.append_assoc], fun hx => ?_⟩
        obtain ⟨h1, h2⟩ := exact_append hx
        rw [hd h1, Denotation.bind, hd' h2]
      | decimal signal =>
        obtain ⟨ops', rfl, hx'⟩ := h'
        exact ⟨ops ++ ops', by rw [List.append_assoc], fun hx => hx' (exact_append hx).2⟩
  | error e t' =>
    rw [hrun] at h
    cases e with
    | null =>
      obtain ⟨ops, rfl, hd⟩ := h
      exact ⟨ops, rfl, fun hx => by rw [hd hx]; rfl⟩
    | runtime code =>
      obtain ⟨ops, rfl, hd⟩ := h
      exact ⟨ops, rfl, fun hx => by rw [hd hx]; rfl⟩
    | decimal signal => exact h

theorem run_catchNull (m : EvalM α) (a : α) (t : List DecimalOp) :
    (catchNull m a).run t =
      match m.run t with
      | .error .null t' => .ok a t'
      | r => r := by
  change EStateM.tryCatch m _ t = _
  unfold EStateM.tryCatch EStateM.run
  cases m t with
  | ok b t' => rfl
  | error e t' => cases e <;> rfl

/-- Catching NULL is replacing it. -/
theorem agrees_catchNull {view : α → β} {m : EvalM α} {d : Denotation β} (hm : Agrees view m d) (a : α) :
    Agrees view (catchNull m a) (d.orNull (view a)) := by
  intro t
  have h := hm t
  rw [run_catchNull]
  cases hrun : m.run t with
  | ok b t' =>
    rw [hrun] at h
    obtain ⟨ops, rfl, hd⟩ := h
    exact ⟨ops, rfl, fun hx => by rw [hd hx]; rfl⟩
  | error e t' =>
    rw [hrun] at h
    cases e with
    | null =>
      obtain ⟨ops, rfl, hd⟩ := h
      exact ⟨ops, rfl, fun hx => by rw [hd hx]; rfl⟩
    | runtime code =>
      obtain ⟨ops, rfl, hd⟩ := h
      exact ⟨ops, rfl, fun hx => by rw [hd hx]; rfl⟩
    | decimal signal => exact h

/-- An operation is written down, whether it raises or not. -/
theorem perform_run (op : DecimalOp) (t : List DecimalOp) : (perform op).run t =
    match op.result with
    | .ok d => .ok d (t ++ [op])
    | .error signal => .error (.decimal signal) (t ++ [op]) := by
  cases hr : op.result with
  | ok d => simp [perform, hr]
  | error signal =>
    simp only [perform, hr, EStateM.run_bind, EStateM.run_modify]
    rfl

/-- An operation that returns the exact result whenever it is exact agrees with that result. -/
theorem agrees_perform {op : DecimalOp} {q : ℚ} (h : op.Exact → ∃ r, op.result = .ok r ∧ r.toRat = q) :
    Agrees Decimal.toRat (perform op) (.value q) := by
  intro t
  rw [perform_run]
  cases hr : op.result with
  | ok d =>
    refine ⟨[op], rfl, fun hx => ?_⟩
    obtain ⟨r, hr', hv⟩ := h (hx op (by simp))
    rw [hr] at hr'
    cases hr'
    rw [hv]
  | error signal =>
    refine ⟨[op], rfl, fun hx => ?_⟩
    obtain ⟨r, hr', -⟩ := h (hx op (by simp))
    rw [hr] at hr'
    cases hr'

/-! ## The operations of the evaluator -/

theorem agrees_applyBinary (op : BinaryOperator) (l r : Decimal) :
    Agrees Decimal.toRat (applyBinary op l r) (op.denote l.toRat r.toRat) := by
  cases op with
  | add => exact agrees_perform Decimal.add_of_fits
  | subtract => exact agrees_perform Decimal.sub_of_fits
  | multiply => exact agrees_perform Decimal.mul_of_fits
  | divide =>
    by_cases hz : r.isZero = true
    · have hq : r.toRat = 0 := (Decimal.isZero_iff r).mp hz
      simp only [applyBinary, hz, if_true, BinaryOperator.denote, hq]
      exact agrees_throw_runtime _ _
    · have hq : r.toRat ≠ 0 := fun h => hz ((Decimal.isZero_iff r).mpr h)
      have hc : r.coeff ≠ 0 := fun h => hq ((Decimal.toRat_eq_zero_iff r).mpr h)
      simp only [applyBinary, hz, if_false, BinaryOperator.denote, hq]
      exact agrees_perform (Decimal.div_of_fits hc)

theorem agrees_applyPrecision (d : Decimal) (digits : Precision) :
    Agrees Decimal.toRat (applyPrecision d digits .halfUp) (.value (Decimal.roundHalfUp d.toRat digits)) := by
  refine agrees_perform fun hx => ?_
  have hd := digits.isLt
  refine Decimal.quantize_halfUp (by decide) ?_ ?_
  · simp only [exactContext, DecimalContext.etiny]
    omega
  · have := Decimal.rescale_halfUp d digits
    simp only [DecimalOp.Exact, this] at hx
    exact hx

theorem agrees_coerced (r : Except RuntimeCode Decimal) :
    Agrees Decimal.toRat
      (match r with | .ok d => pure d | .error code => throw (.runtime code) : EvalM Decimal)
      (match r with | .ok d => .value d.toRat | .error code => .error code) := by
  cases r with
  | ok d => exact agrees_pure _ _
  | error code => exact agrees_throw_runtime _ _

theorem agrees_resolveScalar (scalars : Dict String PyValue) (name : String) (missing notNumeric : RuntimeCode) :
    Agrees Decimal.toRat (resolveScalar scalars name missing notNumeric) (denoteScalar scalars name missing notNumeric) := by
  unfold resolveScalar denoteScalar
  cases scalars.get? name with
  | none => exact agrees_throw_runtime _ _
  | some value =>
    cases value with
    | none => exact agrees_throw_null _
    | bool b => exact agrees_coerced (coerceNumeric (.bool b) notNumeric)
    | int n => exact agrees_coerced (coerceNumeric (.int n) notNumeric)
    | decimal d => exact agrees_coerced (coerceNumeric (.decimal d) notNumeric)
    | nonFiniteDecimal => exact agrees_coerced (coerceNumeric .nonFiniteDecimal notNumeric)
    | str s => exact agrees_coerced (coerceNumeric (.str s) notNumeric)
    | other => exact agrees_coerced (coerceNumeric .other notNumeric)

theorem matched_eq_denote (op : ComparisonOperator) (l r : Decimal) : op.matched l r = op.denote l.toRat r.toRat := by
  cases op with
  | gt =>
    rw [Bool.eq_iff_iff]
    simp only [ComparisonOperator.matched, ComparisonOperator.denote, Decimal.lt_iff, decide_eq_true_eq]
  | le =>
    rw [Bool.eq_iff_iff]
    simp only [ComparisonOperator.matched, ComparisonOperator.denote, Decimal.le_iff, decide_eq_true_eq]

/-- A null test looks only at whether its operand is NULL; an error passes. -/
theorem agrees_nullTest {m : EvalM Decimal} {d : Denotation ℚ} (hm : Agrees Decimal.toRat m d) (f : Bool → Kleene) :
    Agrees id (catchNull (do let _ ← m; pure false) true >>= fun b => pure (f b))
      ((d.bind fun _ => .value (f false)).orNull (f true)) := by
  have hn : Agrees id (catchNull (do let _ ← m; pure false) true) ((d.bind fun _ => .value false).orNull true) :=
    agrees_catchNull (agrees_bind hm fun _ => agrees_pure id false) true
  have h : Agrees id (catchNull (do let _ ← m; pure false) true >>= fun b => pure (f b))
      (((d.bind fun _ => .value false).orNull true).bind fun b => .value (f b)) :=
    agrees_bind hn fun b => agrees_pure id (f b)
  cases d <;> exact h

/-! ## The agreement, by recursion on the tree -/

section Tree

variable (inputs parameters : Dict String PyValue)

mutual

theorem agrees_evaluate (e : Expression) : Agrees Decimal.toRat (evaluate inputs parameters e) (denote inputs parameters e) := by
  match e with
  | .literal value =>
    rw [evaluate, denote]
    exact agrees_pure _ _
  | .null =>
    rw [evaluate, denote]
    exact agrees_throw_null _
  | .input role =>
    rw [evaluate, denote]
    exact agrees_resolveScalar _ _ _ _
  | .parameter name =>
    rw [evaluate, denote]
    exact agrees_resolveScalar _ _ _ _
  | .aggregate _ _ =>
    rw [evaluate, denote]
    exact agrees_throw_runtime _ _
  | .round operand digits =>
    rw [evaluate, denote]
    exact agrees_bind (agrees_evaluate operand) fun d => agrees_applyPrecision d digits
  | .coalesce operand default =>
    rw [evaluate, denote]
    exact agrees_catchNull (agrees_evaluate operand) default
  | .condition c =>
    rw [evaluate, denote]
    refine agrees_bind (agrees_condition c) fun state => ?_
    cases state with
    | unknown => exact agrees_throw_null _
    | true =>
      have h := agrees_pure Decimal.toRat (Decimal.ofInt 1)
      rwa [Decimal.toRat_ofInt, Int.cast_one] at h
    | false =>
      have h := agrees_pure Decimal.toRat (Decimal.ofInt 0)
      rwa [Decimal.toRat_ofInt, Int.cast_zero] at h
  | .case whens otherwise =>
    rw [evaluate, denote]
    exact agrees_whens whens (agrees_otherwise otherwise)
  | .binary op left right =>
    rw [evaluate, denote]
    exact agrees_bind (agrees_evaluate left) fun l =>
      agrees_bind (agrees_evaluate right) fun r => agrees_applyBinary op l r

theorem agrees_otherwise (o : Option Expression) :
    Agrees Decimal.toRat (evaluateOtherwise inputs parameters o) (denoteOtherwise inputs parameters o) := by
  match o with
  | none =>
    rw [evaluateOtherwise, denoteOtherwise]
    exact agrees_throw_null _
  | some e =>
    rw [evaluateOtherwise, denoteOtherwise]
    exact agrees_evaluate e

theorem agrees_whens (whens : List WhenBranch) {m : EvalM Decimal} {d : Denotation ℚ} (hm : Agrees Decimal.toRat m d) :
    Agrees Decimal.toRat (evaluateWhens inputs parameters whens m) (denoteWhens inputs parameters whens d) := by
  match whens with
  | [] =>
    rw [evaluateWhens, denoteWhens]
    exact hm
  | .mk guard result :: rest =>
    rw [evaluateWhens, denoteWhens]
    refine agrees_bind (agrees_condition guard) fun state => ?_
    cases state with
    | true => exact agrees_evaluate result
    | false => exact agrees_whens rest hm
    | unknown => exact agrees_whens rest hm

theorem agrees_condition (c : Condition) :
    Agrees id (condition inputs parameters c) (denoteCondition inputs parameters c) := by
  match c with
  | .simple c =>
    rw [condition, denoteCondition]
    exact agrees_simple c
  | .all conditions =>
    rw [condition, denoteCondition]
    refine agrees_bind (agrees_states conditions) fun states => ?_
    rw [id, Kleene.all_eq]
    split
    · exact agrees_pure id _
    · exact agrees_pure id _
  | .any conditions =>
    rw [condition, denoteCondition]
    refine agrees_bind (agrees_states conditions) fun states => ?_
    rw [id, Kleene.any_eq]
    split
    · exact agrees_pure id _
    · exact agrees_pure id _

theorem agrees_states (cs : List SimpleCondition) :
    Agrees id (conditionStates inputs parameters cs) (denoteStates inputs parameters cs) := by
  match cs with
  | [] =>
    rw [conditionStates, denoteStates]
    exact agrees_pure id _
  | c :: rest =>
    rw [conditionStates, denoteStates]
    exact agrees_bind (agrees_simple c) fun state => agrees_bind (agrees_states rest) fun states => agrees_pure id _

theorem agrees_simple (c : SimpleCondition) :
    Agrees id (simpleCondition inputs parameters c) (denoteSimple inputs parameters c) := by
  match c with
  | .compare operator left right =>
    rw [simpleCondition, denoteSimple]
    have hc : Agrees id (evaluate inputs parameters left >>= fun l => evaluate inputs parameters right >>= fun r =>
          (pure (Kleene.ofBool (operator.matched l r)) : EvalM Kleene))
        ((denote inputs parameters left).bind fun a => (denote inputs parameters right).bind fun b =>
          .value (Kleene.ofBool (operator.denote a b))) := by
      refine agrees_bind (agrees_evaluate left) fun l => agrees_bind (agrees_evaluate right) fun r => ?_
      rw [← matched_eq_denote]
      exact agrees_pure id _
    exact agrees_catchNull hc .unknown
  | .nullTest .isNull operand =>
    rw [simpleCondition, denoteSimple]
    exact agrees_nullTest (agrees_evaluate operand) Kleene.ofBool
  | .nullTest .isNotNull operand =>
    rw [simpleCondition, denoteSimple]
    exact agrees_nullTest (agrees_evaluate operand) fun b => Kleene.ofBool !b

end

end Tree

end CalculationAux

open CalculationAux

/-- The evaluator computes the meaning of expressions. For every tree within the bounds and every resolved inputs and parameters:
where no decimal operation performed rounds, underflows or overflows, `evaluateExpression` returns exactly the value the reference
semantics names, or raises exactly the code it names; a NULL that reaches the boundary is an error of its own. -/
theorem evaluate_expression_agrees (e : Expression) (inputs parameters : Dict String PyValue)
    (hbounded : requireBounded e = .ok ()) (hexact : ∀ op ∈ decimalOps e inputs parameters, op.Exact) :
    (evaluateExpression e inputs parameters).map Decimal.toRat = (denote inputs parameters e).atBoundary := by
  have h := agrees_evaluate inputs parameters e []
  unfold decimalOps at hexact
  rw [evaluateExpression, hbounded]
  change (evalBoundary ((evaluate inputs parameters e).run [])).map _ = _
  cases hrun : (evaluate inputs parameters e).run [] with
  | ok d ops =>
    rw [hrun] at h hexact
    obtain ⟨ops', rfl, hd⟩ := h
    rw [hd hexact]
    rfl
  | error err ops =>
    rw [hrun] at h hexact
    cases err with
    | null =>
      obtain ⟨ops', rfl, hd⟩ := h
      rw [hd hexact]
      rfl
    | runtime code =>
      obtain ⟨ops', rfl, hd⟩ := h
      rw [hd hexact]
      rfl
    | decimal signal =>
      obtain ⟨ops', rfl, hx⟩ := h
      exact absurd hexact hx

/-- A margin guarded by a CASE, its revenue a decimal text, its bonus NULL: `(profit + COALESCE(bonus, 0)) / revenue`, rounded. -/
def guardedMargin : Expression :=
  .case
    [.mk (.all [.compare .gt (.input ⟨"revenue", Eq.refl true⟩) (.literal (Decimal.ofInt 0)),
        .nullTest .isNotNull (.input ⟨"profit", by decide⟩)])
      (.round (.binary .divide
        (.binary .add (.input ⟨"profit", by decide⟩) (.coalesce (.input ⟨"bonus", by decide⟩) (Decimal.ofInt 0)))
        (.input ⟨"revenue", Eq.refl true⟩)) 2)]
    none

/-- The resolved inputs of `guardedMargin`. -/
def guardedMarginInputs : Dict String PyValue := Dict.ofList [("profit", .int 1), ("revenue", .str "4.0"), ("bonus", .none)]

theorem guarded_margin_ops : decimalOps guardedMargin guardedMarginInputs Dict.empty =
    [.add (Decimal.ofInt 1) (Decimal.ofInt 0), .div (Decimal.ofInt 1) ⟨false, 40, -1⟩, .quantize .halfUp ⟨false, 25, -2⟩ 2] := by
  decide

/-- The margin of the example is what the reference semantics says it is. -/
theorem evaluate_guarded_margin : (evaluateExpression guardedMargin guardedMarginInputs Dict.empty).map Decimal.toRat =
    (denote guardedMarginInputs Dict.empty guardedMargin).atBoundary := by
  refine evaluate_expression_agrees guardedMargin guardedMarginInputs Dict.empty (by decide) ?_
  rw [guarded_margin_ops]
  intro op hop
  simp only [List.mem_cons, List.not_mem_nil, or_false] at hop
  rcases hop with rfl | rfl | rfl
  · exact ⟨1, 0, by simp [Decimal.toRat_ofInt], by decide, by decide, by decide⟩
  · refine ⟨25, -2, ?_, by decide, by decide, by decide⟩
    norm_num [Decimal.toRat, Decimal.signed, Decimal.ofInt]
  · simp only [DecimalOp.Exact]
    decide

end Nl2Sql
