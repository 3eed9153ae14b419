import Nl2Sql.Lemmas.Evaluate

namespace Nl2Sql

open Py

/-! ## The order of operands and of conditions -/

namespace OrderAux

variable {α β : Type}

theorem add_comm (c : DecimalContext) (a b : Decimal) : Decimal.add c a b = Decimal.add c b a := by
  simp only [Decimal.add, min_comm a.exp b.exp, and_comm (a := a.coeff = 0), Bool.and_comm a.sign, Int.add_comm (a.scaled _)]

theorem mul_comm (c : DecimalContext) (a b : Decimal) : Decimal.mul c a b = Decimal.mul c b a := by
  rw [Decimal.mul, Decimal.mul, Bool.xor_comm, Nat.mul_comm, Int.add_comm]

theorem ending_perform_congr {op op' : DecimalOp} (h : op.result = op'.result) : ending (perform op) = ending (perform op') := by
  rw [ending, ending, EvaluateAux.outcome_perform, EvaluateAux.outcome_perform, h]

end OrderAux

/-- One operand is NULL and the other fails. -/
def Ending.OneNullOneFails {α : Type} (x y : Ending α) : Prop := (x = .null ∧ y = .raised) ∨ (x = .raised ∧ y = .null)

namespace OrderAux

variable {α β : Type}

/-- Two operands in either order: the first that is NULL or fails decides, so only these two together tell the orders apart. -/
theorem bind_swap_iff {x y : Ending α} {f g : α → α → Ending β} (hfg : ∀ a b, f a b = g b a) :
    (x.bind fun a => y.bind fun b => f a b) = (y.bind fun b => x.bind fun a => g b a) ↔ ¬ x.OneNullOneFails y := by
  cases x with
  | value a =>
    cases y with
    | value b => simp [Ending.bind, Ending.OneNullOneFails, hfg]
    | null => simp [Ending.bind, Ending.OneNullOneFails]
    | raised => simp [Ending.bind, Ending.OneNullOneFails]
  | null => cases y <;> simp [Ending.bind, Ending.OneNullOneFails]
  | raised => cases y <;> simp [Ending.bind, Ending.OneNullOneFails]

/-- A comparison, by how its sides end. -/
def compared (f : α → α → Kleene) (x y : Ending α) : Ending Kleene := (x.bind fun a => y.bind fun b => .value (f a b)).orNull .unknown

theorem compared_swap_iff {x y : Ending α} {f g : α → α → Kleene} (hf : ∀ a b, f a b ≠ .unknown) (hg : ∀ a b, g a b ≠ .unknown) :
    ((compared f x y = .raised ↔ compared g y x = .raised) ∧ (compared f x y = .value .unknown ↔ compared g y x = .value .unknown)) ↔
      ¬ x.OneNullOneFails y := by
  cases x with
  | value a =>
    cases y with
    | value b => simp [compared, Ending.bind, Ending.orNull, Ending.OneNullOneFails, hf, hg]
    | null => simp [compared, Ending.bind, Ending.orNull, Ending.OneNullOneFails]
    | raised => simp [compared, Ending.bind, Ending.orNull, Ending.OneNullOneFails]
  | null => cases y <;> simp [compared, Ending.bind, Ending.orNull, Ending.OneNullOneFails]
  | raised => cases y <;> simp [compared, Ending.bind, Ending.orNull, Ending.OneNullOneFails]

section Tree

open EvaluateAux

variable (inputs parameters : Dict String PyValue)

theorem ending_binary (op : BinaryOperator) (l r : Expression) :
    ending (evaluate inputs parameters (.binary op l r)) =
      (ending (evaluate inputs parameters l)).bind fun a => (ending (evaluate inputs parameters r)).bind fun b =>
        ending (applyBinary op a b) := by
  rw [evaluate, ending_bind fun a => Uniform.bind (uniform_evaluate inputs parameters r) fun b => uniform_applyBinary op a b]
  congr 1
  funext a
  exact ending_bind fun b => uniform_applyBinary op a b

theorem ending_compare (operator : ComparisonOperator) (l r : Expression) :
    ending (simpleCondition inputs parameters (.compare operator l r)) =
      compared (fun a b => Kleene.ofBool (operator.matched a b)) (ending (evaluate inputs parameters l))
        (ending (evaluate inputs parameters r)) := by
  rw [simpleCondition, ending_catchNull, compared,
    ending_bind fun a => Uniform.bind (uniform_evaluate inputs parameters r) fun b => Uniform.pure _]
  congr 2
  funext a
  exact ending_bind fun b => Uniform.pure _

end Tree

theorem ofBool_ne_unknown (b : Bool) : Kleene.ofBool b ≠ .unknown := by
  cases b <;> nofun

end OrderAux

open OrderAux in
/-- The order of the operands of a sum or a product, and of the sides of a comparison, does not matter exactly where it is not the case
that one of them is NULL and the other fails. -/
theorem operand_order_iff (inputs parameters : Dict String PyValue) (l r : Expression) :
    (ending (evaluate inputs parameters (.binary .add l r)) = ending (evaluate inputs parameters (.binary .add r l)) ↔
      ¬ (ending (evaluate inputs parameters l)).OneNullOneFails (ending (evaluate inputs parameters r))) ∧
    (ending (evaluate inputs parameters (.binary .multiply l r)) = ending (evaluate inputs parameters (.binary .multiply r l)) ↔
      ¬ (ending (evaluate inputs parameters l)).OneNullOneFails (ending (evaluate inputs parameters r))) ∧
    ∀ operator operator' : ComparisonOperator,
      ((ending (simpleCondition inputs parameters (.compare operator l r)) = .raised ↔
          ending (simpleCondition inputs parameters (.compare operator' r l)) = .raised) ∧
        (ending (simpleCondition inputs parameters (.compare operator l r)) = .value .unknown ↔
          ending (simpleCondition inputs parameters (.compare operator' r l)) = .value .unknown)) ↔
      ¬ (ending (evaluate inputs parameters l)).OneNullOneFails (ending (evaluate inputs parameters r)) := by
  refine ⟨?_, ?_, fun operator operator' => ?_⟩
  · rw [ending_binary, ending_binary]
    exact bind_swap_iff fun a b => ending_perform_congr (add_comm exactContext a b)
  · rw [ending_binary, ending_binary]
    exact bind_swap_iff fun a b => ending_perform_congr (mul_comm exactContext a b)
  · rw [ending_compare, ending_compare]
    exact compared_swap_iff (fun a b => ofBool_ne_unknown _) fun a b => ofBool_ne_unknown _

/-- A quotient that fails. -/
def failingQuotient : Expression := .binary .divide (.literal (Decimal.ofInt 1)) (.literal (Decimal.ofInt 0))

/-- NULL before a failing operand hides the failure, and COALESCE swallows it; after it, it does not. -/
theorem operand_order_hidden :
    ending (evaluate .empty .empty (.binary .add .null failingQuotient)) = .null ∧
      ending (evaluate .empty .empty (.binary .add failingQuotient .null)) = .raised ∧
      evaluateExpression (.coalesce (.binary .add .null failingQuotient) (Decimal.ofInt 0)) .empty .empty = .ok (Decimal.ofInt 0) ∧
      evaluateExpression (.coalesce (.binary .add failingQuotient .null) (Decimal.ofInt 0)) .empty .empty =
        .error .undefinedDivisionByZero := by
  decide +kernel

namespace OrderAux

section Conditions

open EvaluateAux

variable (inputs parameters : Dict String PyValue)

theorem ending_states_cons (c : SimpleCondition) (rest : List SimpleCondition) :
    ending (conditionStates inputs parameters (c :: rest)) =
      (ending (simpleCondition inputs parameters c)).bind fun state =>
        (ending (conditionStates inputs parameters rest)).bind fun states => .value (state :: states) := by
  rw [conditionStates, ending_bind fun _ => Uniform.bind (uniform_states inputs parameters rest) fun _ => Uniform.pure _]
  congr 1
  funext state
  exact ending_bind fun _ => Uniform.pure _

/-- A comparison or a null test has no NULL: it is TRUE, FALSE, UNKNOWN, or fails. -/
theorem ending_simple_ne_null (c : SimpleCondition) : ending (simpleCondition inputs parameters c) ≠ .null := by
  have horNull : ∀ {γ : Type} (e : Ending γ) (a : γ), e.orNull a ≠ .null := by
    intro γ e a
    cases e <;> rintro ⟨⟩
  cases c with
  | compare operator left right =>
    rw [simpleCondition, ending_catchNull]
    exact horNull _ _
  | nullTest operator operand =>
    rw [simpleCondition, ending_bind, ending_catchNull]
    · generalize hm : (ending _).orNull true = e
      cases e with
      | value isNull => cases operator <;> rintro ⟨⟩
      | null => exact absurd hm (horNull _ _)
      | raised => rintro ⟨⟩
    · intro isNull
      cases operator <;> exact Uniform.pure _

/-- The state a condition ends with, where it does not fail. -/
def stateOf (c : SimpleCondition) : Kleene :=
  match ending (simpleCondition inputs parameters c) with
  | .value state => state
  | _ => .unknown

/-- The conditions end with their states, or one of them fails and so do they. -/
theorem ending_states (cs : List SimpleCondition) :
    ((∀ c ∈ cs, ending (simpleCondition inputs parameters c) ≠ .raised) ∧
        ending (conditionStates inputs parameters cs) = .value (cs.map (stateOf inputs parameters))) ∨
      ((∃ c ∈ cs, ending (simpleCondition inputs parameters c) = .raised) ∧ ending (conditionStates inputs parameters cs) = .raised) := by
  induction cs with
  | nil =>
    refine .inl ⟨nofun, ?_⟩
    rw [conditionStates]
    rfl
  | cons c rest ih =>
    rw [ending_states_cons]
    cases hc : ending (simpleCondition inputs parameters c) with
    | value state =>
      rcases ih with ⟨hall, hstates⟩ | ⟨⟨d, hd, hraised⟩, hstates⟩
      · refine .inl ⟨List.forall_mem_cons.mpr ⟨by rw [hc]; nofun, hall⟩, ?_⟩
        have hstate : stateOf inputs parameters c = state := by rw [stateOf, hc]
        rw [hstates, List.map_cons, hstate]
        rfl
      · exact .inr ⟨⟨d, List.mem_cons_of_mem c hd, hraised⟩, by rw [hstates]; rfl⟩
    | null => exact absurd hc (ending_simple_ne_null inputs parameters c)
    | raised => exact .inr ⟨⟨c, List.mem_cons_self, hc⟩, rfl⟩

/-- What is decided from the states, whatever their order, is decided alike for conditions in another order. -/
theorem ending_states_perm {cs cs' : List SimpleCondition} (h : cs.Perm cs') {decided : List Kleene → Kleene}
    (hdecided : ∀ {states states' : List Kleene}, states.Perm states' → decided states = decided states') :
    ((ending (conditionStates inputs parameters cs)).bind fun states => .value (decided states)) =
      (ending (conditionStates inputs parameters cs')).bind fun states => .value (decided states) := by
  rcases ending_states inputs parameters cs with ⟨hall, hs⟩ | ⟨⟨c, hc, hraised⟩, hs⟩
  · rcases ending_states inputs parameters cs' with ⟨-, hs'⟩ | ⟨⟨c, hc, hraised⟩, -⟩
    · rw [hs, hs']
      exact congrArg Ending.value (hdecided (h.map _))
    · exact absurd hraised (hall c (h.mem_iff.mpr hc))
  · rcases ending_states inputs parameters cs' with ⟨hall, -⟩ | ⟨-, hs'⟩
    · exact absurd hraised (hall c (h.mem_iff.mp hc))
    · rw [hs, hs']

/-- A state that decides as soon as it occurs, else UNKNOWN if it occurs, else the other. -/
def decidedBy (first last : Kleene) (states : List Kleene) : Kleene :=
  if first ∈ states then first else if Kleene.unknown ∈ states then .unknown else last

theorem decidedBy_perm (first last : Kleene) {states states' : List Kleene} (h : states.Perm states') :
    decidedBy first last states = decidedBy first last states' := by
  simp only [decidedBy, h.mem_iff]

theorem ending_all (cs : List SimpleCondition) :
    ending (condition inputs parameters (.all cs)) =
      (ending (conditionStates inputs parameters cs)).bind fun states => .value (decidedBy .false .true states) := by
  have huniform : ∀ states : List Kleene, Uniform (if Kleene.false ∈ states then pure .false
      else pure (if Kleene.unknown ∈ states then .unknown else .true) : EvalM Kleene) := by
    intro states
    split <;> exact Uniform.pure _
  rw [condition, ending_bind huniform]
  congr 1
  funext states
  unfold decidedBy
  split <;> rfl

theorem ending_any (cs : List SimpleCondition) :
    ending (condition inputs parameters (.any cs)) =
      (ending (conditionStates inputs parameters cs)).bind fun states => .value (decidedBy .true .false states) := by
  have huniform : ∀ states : List Kleene, Uniform (if Kleene.true ∈ states then pure .true
      else pure (if Kleene.unknown ∈ states then .unknown else .false) : EvalM Kleene) := by
    intro states
    split <;> exact Uniform.pure _
  rw [condition, ending_bind huniform]
  congr 1
  funext states
  unfold decidedBy
  split <;> rfl

end Conditions

end OrderAux

open OrderAux in
/-- ALL and ANY of conditions in any order: the same state, or both fail. -/
theorem condition_order (inputs parameters : Dict String PyValue) (cs cs' : List SimpleCondition) (h : cs.Perm cs') :
    ending (condition inputs parameters (.all cs)) = ending (condition inputs parameters (.all cs')) ∧
      ending (condition inputs parameters (.any cs)) = ending (condition inputs parameters (.any cs')) := by
  rw [ending_all, ending_all, ending_any, ending_any]
  exact ⟨ending_states_perm inputs parameters h fun h => decidedBy_perm _ _ h,
    ending_states_perm inputs parameters h fun h => decidedBy_perm _ _ h⟩

/-- A condition that is TRUE and one that fails, either way round: both fail. -/
theorem condition_order_failing :
    ending (condition .empty .empty (.any [.nullTest .isNull .null, .nullTest .isNull failingQuotient])) =
      ending (condition .empty .empty (.any [.nullTest .isNull failingQuotient, .nullTest .isNull .null])) :=
  (condition_order .empty .empty _ _ (List.Perm.swap _ _ [])).2

end Nl2Sql
