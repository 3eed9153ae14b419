import Nl2Sql.Calculation.Evaluate
import Nl2Sql.Theorems.Binding

/-!
# Well-formed calculations do not go wrong

The checks of a spec walk its tree with a stack, the evaluator recurses. The walk lists every node the recursion reaches, so what
the checks say of the listed nodes holds at every node that is evaluated, in a value position and in a condition position.
-/

namespace Nl2Sql

open Py

namespace SoundnessAux

/-! ## The walk reaches every node -/

/-- A list of nodes that holds the children of each of its nodes. -/
def ChildClosed (nodes : List Expression) : Prop := ∀ node ∈ nodes, ∀ child ∈ node.children, child ∈ nodes

/-- The walk lists its stack, and with a node its children. -/
theorem walkLoop_closed {budget : Nat} {stack nodes : List Expression} (h : walkLoop budget stack = some nodes) :
    (∀ e ∈ stack, e ∈ nodes) ∧ ChildClosed nodes := by
  induction budget generalizing stack nodes with
  | zero =>
    cases stack with
    | nil =>
      cases h
      exact ⟨nofun, nofun⟩
    | cons e stack => nomatch h
  | succ budget ih =>
    cases stack with
    | nil =>
      cases h
      exact ⟨nofun, nofun⟩
    | cons e stack =>
      obtain ⟨rest, hrest, rfl⟩ := Option.map_eq_some_iff.mp h
      obtain ⟨hstack, hclosed⟩ := ih hrest
      constructor
      · intro e' he'
        rcases List.mem_cons.mp he' with rfl | hmem
        · exact List.mem_cons_self
        · exact List.mem_cons_of_mem _ (hstack e' (List.mem_append_right _ hmem))
      · intro node hnode child hchild
        rcases List.mem_cons.mp hnode with rfl | hmem
        · exact List.mem_cons_of_mem _ (hstack child (List.mem_append_left _ hchild))
        · exact List.mem_cons_of_mem _ (hclosed node hmem child hchild)

/-! ## What an evaluation may raise -/

/-- The codes a well-formed calculation may raise. -/
def soundCodes : List RuntimeCode :=
  [.aggregateUnsupported, .inputNotNumeric, .undefined, .undefinedDivisionByZero, .numericOutOfRange, .resultNullUnsupported]

/-- What an evaluation may raise inside the boundary: NULL, a decimal signal, or one of these codes. -/
def Sound : EvalError → Prop
  | .runtime code => code ∈ soundCodes
  | _ => True

/-- An evaluation that raises nothing else. -/
def NeverWrong {α : Type} (m : EvalM α) : Prop := Triple (fun _ => True) m (fun _ _ => True) (fun e _ => Sound e)

variable {α β : Type}

theorem neverWrong_pure (a : α) : NeverWrong (pure a : EvalM α) := Triple.pure fun _ _ => trivial

theorem neverWrong_throw {e : EvalError} (h : Sound e) : NeverWrong (throw e : EvalM α) := Triple.throw fun _ _ => h

theorem neverWrong_bind {m : EvalM α} {k : α → EvalM β} (hm : NeverWrong m) (hk : ∀ a, NeverWrong (k a)) : NeverWrong (m >>= k) :=
  Triple.bind hm hk

theorem neverWrong_catchNull {m : EvalM α} (hm : NeverWrong m) (a : α) : NeverWrong (catchNull m a) := by
  intro t ht
  have h := hm t ht
  simp only [catchNull, run_tryCatch]
  revert h
  cases m.run t with
  | ok b t' => exact fun _ => trivial
  | error e t' =>
    cases e with
    | null => exact fun _ => trivial
    | runtime code => exact id
    | decimal signal => exact id

theorem neverWrong_perform (op : DecimalOp) : NeverWrong (perform op) := by
  unfold perform
  refine neverWrong_bind (fun _ _ => trivial) fun _ => ?_
  cases op.result with
  | ok d => exact neverWrong_pure d
  | error signal => exact neverWrong_throw trivial

theorem neverWrong_applyBinary (op : BinaryOperator) (l r : Decimal) : NeverWrong (applyBinary op l r) := by
  cases op with
  | add => exact neverWrong_perform _
  | subtract => exact neverWrong_perform _
  | multiply => exact neverWrong_perform _
  | divide =>
    simp only [applyBinary]
    split
    · exact neverWrong_throw (e := .runtime .undefinedDivisionByZero) (by simp [Sound, soundCodes])
    · exact neverWrong_perform _

/-- The evaluator refuses with the code it was given. -/
theorem coerceNumeric_error {value : PyValue} {code code' : RuntimeCode} (h : coerceNumeric value code = .error code') :
    code' = code := by
  unfold coerceNumeric at h
  cases value with
  | bool b => exact (Except.error.inj h).symm
  | decimal d => nomatch h
  | int n => nomatch h
  | nonFiniteDecimal => exact (Except.error.inj h).symm
  | none => exact (Except.error.inj h).symm
  | other => exact (Except.error.inj h).symm
  | str s =>
    simp only at h
    split at h
    · exact (Except.error.inj h).symm
    · split at h
      · nomatch h
      · exact (Except.error.inj h).symm

theorem neverWrong_coerced {value : PyValue} {notNumeric : RuntimeCode}
    (hnumeric : notNumeric ∈ soundCodes ∨ ∃ d, coerceNumeric value notNumeric = .ok d) :
    NeverWrong (match coerceNumeric value notNumeric with
      | .ok d => pure d
      | .error code => throw (.runtime code) : EvalM Decimal) := by
  cases hcoerce : coerceNumeric value notNumeric with
  | ok d => exact neverWrong_pure d
  | error code =>
    rcases hnumeric with hsound | ⟨d, hd⟩
    · rw [coerceNumeric_error hcoerce]
      exact neverWrong_throw hsound
    · rw [hcoerce] at hd
      cases hd

/-- A scalar that is present resolves, to NULL, or raises that it is no number; the latter only where it is none. -/
theorem neverWrong_resolveScalar {scalars : Dict String PyValue} {name : String} {missing notNumeric : RuntimeCode} {value : PyValue}
    (hget : scalars.get? name = some value)
    (hnumeric : notNumeric ∈ soundCodes ∨ ∃ d, coerceNumeric value notNumeric = .ok d) :
    NeverWrong (resolveScalar scalars name missing notNumeric) := by
  have hrest := neverWrong_coerced hnumeric
  unfold resolveScalar
  rw [hget]
  cases value with
  | none => exact neverWrong_throw trivial
  | bool b => exact hrest
  | int n => exact hrest
  | decimal d => exact hrest
  | nonFiniteDecimal => exact hrest
  | str s => exact hrest
  | other => exact hrest

/-! ## The tree, one case per constructor -/

section Tree

/-- The nodes of a tree whose references resolve: a role has an input, and a parameter is bound to a number. -/
structure Resolved (inputs parameters : Dict String PyValue) (nodes : List Expression) : Prop where
  closed : ChildClosed nodes
  role : ∀ role, .input role ∈ nodes → ∃ value, inputs.get? role.val = some value
  parameter : ∀ name, .parameter name ∈ nodes → ∃ value, parameters.get? name.val = some value ∧
    ∃ d, coerceNumeric value .parameterNotNumeric = .ok d

variable {inputs parameters : Dict String PyValue} {nodes : List Expression}

mutual

theorem neverWrong_evaluate (h : Resolved inputs parameters nodes) (e : Expression) (he : e ∈ nodes) :
    NeverWrong (evaluate inputs parameters e) := by
  match e, he with
  | .literal value, _ =>
    rw [evaluate]
    exact neverWrong_pure _
  | .null, _ =>
    rw [evaluate]
    exact neverWrong_throw trivial
  | .input role, he =>
    rw [evaluate]
    obtain ⟨value, hget⟩ := h.role role he
    exact neverWrong_resolveScalar hget (.inl (by decide))
  | .parameter name, he =>
    rw [evaluate]
    obtain ⟨value, hget, hnumeric⟩ := h.parameter name he
    exact neverWrong_resolveScalar hget (.inr hnumeric)
  | .aggregate _ _, _ =>
    rw [evaluate]
    exact neverWrong_throw (by simp [Sound, soundCodes])
  | .round operand digits, he =>
    rw [evaluate]
    have hchild := h.closed _ he operand (by simp [Expression.children])
    exact neverWrong_bind (neverWrong_evaluate h operand hchild) fun d => neverWrong_perform _
  | .coalesce operand default, he =>
    rw [evaluate]
    have hchild := h.closed _ he operand (by simp [Expression.children])
    exact neverWrong_catchNull (neverWrong_evaluate h operand hchild) default
  | .condition c, he =>
    rw [evaluate]
    refine neverWrong_bind (neverWrong_condition h c he) fun state => ?_
    cases state with
    | unknown => exact neverWrong_throw trivial
    | true => exact neverWrong_pure _
    | false => exact neverWrong_pure _
  | .case whens otherwise, he =>
    rw [evaluate]
    refine neverWrong_whens h whens (fun b hb => ?_) (neverWrong_otherwise h otherwise fun e hsome => ?_)
    · constructor
      · exact h.closed _ he _ (by simp only [Expression.children, List.mem_append, List.mem_map]; exact .inl (.inl ⟨b, hb, rfl⟩))
      · exact h.closed _ he _ (by simp only [Expression.children, List.mem_append, List.mem_map]; exact .inl (.inr ⟨b, hb, rfl⟩))
    · exact h.closed _ he _ (by simp only [Expression.children, List.mem_append, hsome]; exact .inr (by simp))
  | .binary op left right, he =>
    rw [evaluate]
    have hleft := h.closed _ he left (by simp [Expression.children])
    have hright := h.closed _ he right (by simp [Expression.children])
    exact neverWrong_bind (neverWrong_evaluate h left hleft) fun l =>
      neverWrong_bind (neverWrong_evaluate h right hright) fun r => neverWrong_applyBinary op l r

theorem neverWrong_otherwise (h : Resolved inputs parameters nodes) (o : Option Expression) (ho : ∀ e, o = some e → e ∈ nodes) :
    NeverWrong (evaluateOtherwise inputs parameters o) := by
  match o, ho with
  | none, _ =>
    rw [evaluateOtherwise]
    exact neverWrong_throw trivial
  | some e, ho =>
    rw [evaluateOtherwise]
    exact neverWrong_evaluate h e (ho e rfl)

theorem neverWrong_whens (h : Resolved inputs parameters nodes) (whens : List WhenBranch)
    (hwhens : ∀ b ∈ whens, .condition b.condition ∈ nodes ∧ b.result ∈ nodes) {m : EvalM Decimal} (hm : NeverWrong m) :
    NeverWrong (evaluateWhens inputs parameters whens m) := by
  match whens, hwhens with
  | [], _ =>
    rw [evaluateWhens]
    exact hm
  | .mk guard result :: rest, hwhens =>
    rw [evaluateWhens]
    have hfirst := hwhens _ List.mem_cons_self
    refine neverWrong_bind (neverWrong_condition h guard hfirst.1) fun state => ?_
    split
    · exact neverWrong_evaluate h result hfirst.2
    · exact neverWrong_whens h rest (fun b hb => hwhens b (List.mem_cons_of_mem _ hb)) hm

theorem neverWrong_condition (h : Resolved inputs parameters nodes) (c : Condition) (hc : .condition c ∈ nodes) :
    NeverWrong (condition inputs parameters c) := by
  match c, hc with
  | .simple c, hc =>
    rw [condition]
    exact neverWrong_simple h c hc
  | .all conditions, hc =>
    rw [condition]
    refine neverWrong_bind (neverWrong_states h conditions fun c hmem => ?_) fun states => ?_
    · exact h.closed _ hc _ (by simp only [Expression.children]; exact List.mem_map_of_mem hmem)
    · split
      · exact neverWrong_pure _
      · exact neverWrong_pure _
  | .any conditions, hc =>
    rw [condition]
    refine neverWrong_bind (neverWrong_states h conditions fun c hmem => ?_) fun states => ?_
    · exact h.closed _ hc _ (by simp only [Expression.children]; exact List.mem_map_of_mem hmem)
    · split
      · exact neverWrong_pure _
      · exact neverWrong_pure _

theorem neverWrong_states (h : Resolved inputs parameters nodes) (cs : List SimpleCondition)
    (hcs : ∀ c ∈ cs, .condition (.simple c) ∈ nodes) : NeverWrong (conditionStates inputs parameters cs) := by
  match cs, hcs with
  | [], _ =>
    rw [conditionStates]
    exact neverWrong_pure _
  | c :: rest, hcs =>
    rw [conditionStates]
    refine neverWrong_bind (neverWrong_simple h c (hcs c List.mem_cons_self)) fun state => ?_
    refine neverWrong_bind (neverWrong_states h rest fun c' hc' => hcs c' (List.mem_cons_of_mem _ hc')) fun states => ?_
    exact neverWrong_pure _

theorem neverWrong_simple (h : Resolved inputs parameters nodes) (c : SimpleCondition) (hc : .condition (.simple c) ∈ nodes) :
    NeverWrong (simpleCondition inputs parameters c) := by
  match c, hc with
  | .compare operator left right, hc =>
    rw [simpleCondition]
    have hleft := h.closed _ hc left (by simp [Expression.children])
    have hright := h.closed _ hc right (by simp [Expression.children])
    refine neverWrong_catchNull ?_ _
    exact neverWrong_bind (neverWrong_evaluate h left hleft) fun l =>
      neverWrong_bind (neverWrong_evaluate h right hright) fun r => neverWrong_pure _
  | .nullTest operator operand, hc =>
    rw [simpleCondition]
    have hchild := h.closed _ hc operand (by simp [Expression.children])
    refine neverWrong_bind (neverWrong_catchNull (neverWrong_bind (neverWrong_evaluate h operand hchild) fun _ => ?_) _) fun isNull => ?_
    · exact neverWrong_pure _
    · cases operator with
      | isNull => exact neverWrong_pure _
      | isNotNull => exact neverWrong_pure _

end

end Tree

/-! ## A spec and its binding -/

/-- The parameters of a binding, by name. -/
theorem get?_boundParameters {b : CalculationExecutionBinding} {name : ParameterName} {value : ParameterValue}
    (h : b.bound? name = some value) : (boundParameters (some b)).get? name.val = some value.toPy := by
  obtain ⟨p, hfind, rfl⟩ := Option.map_eq_some_iff.mp h
  have hmem := List.mem_of_find?_eq_some hfind
  have hname : p.name = name := by simpa using List.find?_some hfind
  have hkey : name.val ∈ (b.parameters.map fun p => (p.name.val, p.value.toPy)).map Prod.fst := by
    rw [List.map_map]
    exact List.mem_map.mpr ⟨p, hmem, congrArg Subtype.val hname⟩
  obtain ⟨v, hv, hget⟩ := Dict.get?_update_of_mem hkey Dict.empty
  obtain ⟨q, hq, heq⟩ := List.mem_map.mp hv
  have hqname : q.name = p.name := Subtype.ext ((congrArg Prod.fst heq).trans (congrArg Subtype.val hname).symm)
  have hqp := BindingAux.bound?_of_mem hq
  rw [hqname, BindingAux.bound?_of_mem hmem] at hqp
  have hvalue : v = p.value.toPy := by rw [Option.some.inj hqp]; exact (congrArg Prod.snd heq).symm
  rw [hvalue] at hget
  exact hget

/-- What a binding gives to a required number is a number. -/
theorem coerce_of_parameterFailures {b : CalculationExecutionBinding} {p : ParameterSpec} (h : b.parameterFailures p = [])
    (hrequired : p.required = true) (hnumeric : p.valueType = .integer ∨ p.valueType = .decimal) (code : RuntimeCode) :
    ∃ value, b.bound? p.name = some value ∧ ∃ d, coerceNumeric value.toPy code = .ok d := by
  unfold CalculationExecutionBinding.parameterFailures at h
  cases hbound : b.bound? p.name with
  | none =>
    rw [hbound] at h
    simp [hrequired] at h
  | some value =>
    rw [hbound] at h
    refine ⟨value, rfl, ?_⟩
    simp only at h
    split at h
    · nomatch h
    · rename_i hmatches
      rcases hnumeric with hty | hty <;> rw [hty] at hmatches <;> cases value <;> simp [valueMatchesType] at hmatches
      · exact ⟨_, rfl⟩
      · exact ⟨_, rfl⟩
      · exact ⟨_, rfl⟩

/-- A spec passes the evaluator's bounds: they are its own. -/
theorem requireBounded_spec (spec : CalculationSpec) : requireBounded spec.expression = .ok () := by
  obtain ⟨depth, hdepth, hdepth'⟩ := spec.depth_bounded
  obtain ⟨count, hcount, hcount'⟩ := spec.nodes_bounded
  simp only [requireBounded, hdepth, hcount, Nat.not_lt.mpr hdepth', Nat.not_lt.mpr hcount', if_false]

end SoundnessAux

open SoundnessAux

/-- Well-formed calculations do not go wrong. For every spec, every binding that the contract accepts and in which each parameter
the expression refers to is required and a number, and every inputs with a key for each declared role, evaluating the calculation
returns or raises one of six codes. No reference is missing, no parameter is no number, and the tree is never too deep or large. -/
theorem calculation_never_wrong (D : CalculationDigests) (spec : CalculationSpec) (b : CalculationExecutionBinding)
    (inputs : Dict String PyValue) (hbinding : b.bindingFailures D spec = [])
    (hparameters : ∀ names, spec.expression.referencedParameterNames = some names → ∀ name ∈ names,
      ∃ p ∈ spec.parameters, p.name.val = name ∧ p.required = true ∧ (p.valueType = .integer ∨ p.valueType = .decimal))
    (hinputs : ∀ item ∈ spec.inputs, item.role.val ∈ inputs) :
    (∃ result, evaluateCalculation spec inputs (some b) = .ok result) ∨
    ∃ code, evaluateCalculation spec inputs (some b) = .error code ∧
      code.text ∈ ["calculation_aggregate_unsupported", "calculation_input_not_numeric", "calculation_undefined",
        "calculation_undefined_division_by_zero", "calculation_numeric_out_of_range", "calculation_result_null_unsupported"] := by
  obtain ⟨count, hcount, -⟩ := spec.nodes_bounded
  obtain ⟨nodes, hwalk, -⟩ := Option.map_eq_some_iff.mp hcount
  obtain ⟨hroot, hclosed⟩ := walkLoop_closed hwalk
  have hresolved : Resolved inputs (boundParameters (some b)) nodes := by
    refine ⟨hclosed, fun role hrole => ?_, fun name hname => ?_⟩
    · have hmem : role.val ∈ fromKeys (nodes.filterMap Expression.role?) :=
        (mem_fromKeys _ _).mpr (List.mem_filterMap.mpr ⟨_, hrole, rfl⟩)
      have hdeclared := spec.roles_declared _ (by rw [Expression.referencedInputRoles, hwalk]; rfl) _ hmem
      obtain ⟨item, hitem, hitemRole⟩ := List.mem_map.mp hdeclared
      have hkey := hinputs item hitem
      rw [hitemRole, Dict.mem_iff_mem_keys, ← Dict.get?_isSome_iff] at hkey
      exact Option.isSome_iff_exists.mp hkey
    · have hmem : name.val ∈ fromKeys (nodes.filterMap Expression.parameter?) :=
        (mem_fromKeys _ _).mpr (List.mem_filterMap.mpr ⟨_, hname, rfl⟩)
      obtain ⟨p, hp, hpname, hrequired, hnumeric⟩ :=
        hparameters _ (by rw [Expression.referencedParameterNames, hwalk]; rfl) _ hmem
      have hfailures := ((BindingAux.bindingFailures_eq_nil_iff b spec).mp hbinding).2.2 p hp
      obtain ⟨value, hbound, hcoerce⟩ := coerce_of_parameterFailures hfailures hrequired hnumeric .parameterNotNumeric
      rw [← hpname]
      exact ⟨value.toPy, get?_boundParameters hbound, hcoerce⟩
  have hsound : NeverWrong (evaluate inputs (boundParameters (some b)) spec.expression >>= applySpecPrecision spec) := by
    refine neverWrong_bind (neverWrong_evaluate hresolved _ (hroot _ (List.mem_singleton.mpr rfl))) fun exact => ?_
    unfold applySpecPrecision
    split
    · exact neverWrong_pure _
    · exact neverWrong_bind (neverWrong_perform _) fun value => neverWrong_pure _
  have hend := hsound [] trivial
  rw [evaluateCalculation, requireBounded_spec]
  change (∃ result, evalBoundary _ = .ok result) ∨ ∃ code, evalBoundary _ = .error code ∧ _
  revert hend
  cases (evaluate inputs (boundParameters (some b)) spec.expression >>= applySpecPrecision spec).run [] with
  | ok result ops => exact fun _ => .inl ⟨result, rfl⟩
  | error e ops =>
    intro hend
    refine .inr ?_
    cases e with
    | null => exact ⟨_, rfl, by decide⟩
    | runtime code =>
      have hcode : code ∈ soundCodes := hend
      refine ⟨code, rfl, ?_⟩
      clear hend
      revert hcode
      cases code <;> decide
    | decimal signal =>
      refine ⟨_, rfl, ?_⟩
      cases signal <;> decide

/-- The discounted revenue of a NULL revenue raises that the result is NULL, and no other code. -/
theorem calculation_never_wrong_null :
    evaluateCalculation discountedRevenue (Dict.ofList [("revenue", .none)]) (some (rateBinding (.int 2))) =
      .error .resultNullUnsupported ∧
    ((∃ result, evaluateCalculation discountedRevenue (Dict.ofList [("revenue", .none)]) (some (rateBinding (.int 2))) = .ok result) ∨
    ∃ code, evaluateCalculation discountedRevenue (Dict.ofList [("revenue", .none)]) (some (rateBinding (.int 2))) = .error code ∧
      code.text ∈ ["calculation_aggregate_unsupported", "calculation_input_not_numeric", "calculation_undefined",
        "calculation_undefined_division_by_zero", "calculation_numeric_out_of_range", "calculation_result_null_unsupported"]) := by
  refine ⟨by decide, calculation_never_wrong discountedRevenueDigests discountedRevenue (rateBinding (.int 2)) _ (by decide) ?_
    (by decide)⟩
  intro names hnames name hname
  have heval : discountedRevenue.expression.referencedParameterNames = some ["rate"] := by decide
  rw [heval] at hnames
  rw [← Option.some.inj hnames, List.mem_singleton] at hname
  exact ⟨_, List.mem_singleton.mpr rfl, hname.symm, rfl, .inr rfl⟩

end Nl2Sql
