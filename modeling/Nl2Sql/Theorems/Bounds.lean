import Nl2Sql.Calculation.Draft
import Nl2Sql.Calculation.Runtime
import Nl2Sql.Lib.Branching

/-!
# The bounds of an expression

Three places bound an expression tree: the walk, the depth loop and the semantic check of a spec, and a fourth, the runtime, bounds
the tree a caller hands to it. All of them come to the number of its nodes and its height.
-/

namespace Nl2Sql

open Py

namespace BoundsAux

/-- A condition of ALL or ANY is a smaller term than the node it stands in. -/
theorem sizeOf_lt_of_mem_conditions {conditions : List SimpleCondition} {child : Expression}
    (h : child ∈ conditions.map fun c => Expression.condition (.simple c)) : sizeOf child < 2 + sizeOf conditions := by
  obtain ⟨c, hc, rfl⟩ := List.mem_map.mp h
  have hlt := List.sizeOf_lt_of_mem hc
  simp only [Expression.condition.sizeOf_spec, Condition.simple.sizeOf_spec]
  omega

/-- A child is a smaller term than its node. -/
theorem sizeOf_lt_of_mem_children {node child : Expression} (h : child ∈ node.children) : sizeOf child < sizeOf node := by
  cases node with
  | literal | null | input | parameter | aggregate => nomatch h
  | binary op left right =>
    rw [Expression.binary.sizeOf_spec]
    rcases List.mem_pair.mp h with rfl | rfl <;> omega
  | condition c =>
    rw [Expression.condition.sizeOf_spec]
    cases c with
    | simple c =>
      rw [Condition.simple.sizeOf_spec]
      cases c with
      | compare op left right =>
        rw [SimpleCondition.compare.sizeOf_spec]
        rcases List.mem_pair.mp h with rfl | rfl <;> omega
      | nullTest op operand =>
        rw [SimpleCondition.nullTest.sizeOf_spec, List.mem_singleton.mp h]
        omega
    | all conditions =>
      have hlt := sizeOf_lt_of_mem_conditions h
      rw [Condition.all.sizeOf_spec]
      omega
    | any conditions =>
      have hlt := sizeOf_lt_of_mem_conditions h
      rw [Condition.any.sizeOf_spec]
      omega
  | coalesce operand default =>
    rw [List.mem_singleton.mp h, Expression.coalesce.sizeOf_spec]
    omega
  | round operand digits =>
    rw [List.mem_singleton.mp h, Expression.round.sizeOf_spec]
    omega
  | case whens otherwise =>
    simp only [Expression.children, List.mem_append, List.mem_map, Option.mem_toList] at h
    rw [Expression.case.sizeOf_spec]
    rcases h with (⟨⟨c, e⟩, hb, rfl⟩ | ⟨⟨c, e⟩, hb, rfl⟩) | ho
    · have hlt := List.sizeOf_lt_of_mem hb
      rw [WhenBranch.mk.sizeOf_spec] at hlt
      rw [WhenBranch.condition, Expression.condition.sizeOf_spec]
      omega
    · have hlt := List.sizeOf_lt_of_mem hb
      rw [WhenBranch.mk.sizeOf_spec] at hlt
      rw [WhenBranch.result]
      omega
    · rw [ho, Option.some.sizeOf_spec]
      omega

end BoundsAux

/-- The expression trees. -/
def Expression.tree : Branching Expression where
  children := Expression.children
  wellFounded := Subrelation.wf BoundsAux.sizeOf_lt_of_mem_children (measure sizeOf).wf

namespace BoundsAux

/-- The walk of the contract is the walk of its trees. -/
theorem walkLoop_eq (budget : Nat) (stack : List Expression) : walkLoop budget stack = Expression.tree.walk budget stack := by
  induction budget generalizing stack with
  | zero => cases stack <;> rfl
  | succ budget ih =>
    cases stack with
    | nil => rfl
    | cons node stack =>
      rw [walkLoop, ih]
      rfl

/-- The depth loop of the contract is the depth loop of its trees. -/
theorem depthLoop_eq (budget : Nat) (stack : List (Expression × Nat)) (best : Nat) :
    depthLoop budget stack best = Expression.tree.deepest budget stack best := by
  induction budget generalizing stack best with
  | zero => cases stack <;> rfl
  | succ budget ih =>
    cases stack with
    | nil => rfl
    | cons entry stack =>
      rw [depthLoop, ih]
      rfl

/-- The walk lists a tree in preorder, or the tree has too many nodes. -/
theorem walk_spec (e : Expression) :
    e.walk = if Expression.tree.size e ≤ maxExpressionNodes then some (Expression.tree.preorder e) else none := by
  rw [Expression.walk, walkLoop_eq, Branching.walk_root]

/-- The depth loop finds the height, or the tree has too many nodes. -/
theorem depth_spec (e : Expression) :
    e.depth = if Expression.tree.size e ≤ maxExpressionNodes then some (Expression.tree.height e) else none := by
  rw [Expression.depth, depthLoop_eq, Branching.deepest_root]

/-- The count is that of the nodes, or the tree has too many. -/
theorem nodeCount_spec (e : Expression) :
    e.nodeCount = if Expression.tree.size e ≤ maxExpressionNodes then some (Expression.tree.size e) else none := by
  rw [Expression.nodeCount, walk_spec]
  by_cases hle : Expression.tree.size e ≤ maxExpressionNodes
  · rw [if_pos hle, if_pos hle, Option.map_some, Branching.length_preorder]
  · rw [if_neg hle, if_neg hle, Option.map_none]

/-- What the bounds of the runtime come to: the nodes first, whichever loop meets them, and the height then. -/
theorem requireBounded_spec (e : Expression) :
    requireBounded e =
      if maxExpressionNodes < Expression.tree.size e then .error .expressionTooLarge
      else if maxExpressionDepth < Expression.tree.height e then .error .expressionTooDeep else .ok () := by
  rw [requireBounded, depth_spec, nodeCount_spec]
  by_cases hle : Expression.tree.size e ≤ maxExpressionNodes
  · simp only [if_pos hle, if_neg (Nat.not_lt.mpr hle)]
  · simp only [if_neg hle, if_pos (Nat.not_le.mp hle)]

/-- What is left of the semantic check once an expression is bounded. -/
def declarations (d : CalculationDraft) : Except String Unit := do
  valueErrorIf (¬∀ r ∈ d.expression.referencedInputRoles.getD [], r ∈ d.inputs.map (·.role.val))
    "expression references an undeclared input role"
  valueErrorIf (¬∀ n ∈ d.expression.referencedParameterNames.getD [], n ∈ d.parameters.map (·.name.val))
    "expression references an undeclared parameter"
  valueErrorIf (d.rounding.isSome = true ∧ ¬d.precision.isSome = true) "rounding requires an explicit precision"
  valueErrorIf (¬(d.unit = .customUnit ↔ d.customUnitId.isSome = true)) "custom_unit requires exactly one bounded custom_unit_id"
  valueErrorIf (∃ u ∈ d.customUnitId, u.val ∈ builtinUnitLiterals) "custom_unit_id must not shadow a built-in unit literal"

/-- A check passes where its condition does not hold. -/
theorem valueErrorIf_eq_ok {p : Prop} [Decidable p] {text : String} {u : Unit} : valueErrorIf p text = .ok u ↔ ¬p := by
  by_cases hp : p
  · simp [valueErrorIf, hp]
  · simp [valueErrorIf, hp]

/-- A check in front of others raises its text, or leaves the rest to run. -/
theorem valueErrorIf_bind (p : Prop) [Decidable p] (text : String) (rest : Unit → Except String Unit) :
    (valueErrorIf p text >>= rest) = if p then .error text else rest () := by
  by_cases hp : p
  · rw [valueErrorIf, if_pos hp, if_pos hp]
    rfl
  · rw [valueErrorIf, if_neg hp, if_neg hp]
    rfl

/-- What a check in front of others raises is its text or theirs. -/
theorem valueErrorIf_bind_error {p : Prop} [Decidable p] {text raised : String} {rest : Unit → Except String Unit}
    (h : (valueErrorIf p text >>= rest) = .error raised) : raised = text ∨ rest () = .error raised := by
  rw [valueErrorIf_bind] at h
  split at h
  · exact .inl (Except.error.inj h).symm
  · exact .inr h

/-- What the semantic check comes to: the nodes first, the height then, and the declarations last. -/
theorem validateSemantics_spec (d : CalculationDraft) :
    d.validateSemantics =
      if maxExpressionNodes < Expression.tree.size d.expression then .error nodeCountText
      else if maxExpressionDepth < Expression.tree.height d.expression then .error depthText else declarations d := by
  unfold CalculationDraft.validateSemantics
  rw [depth_spec, nodeCount_spec]
  by_cases hle : Expression.tree.size d.expression ≤ maxExpressionNodes
  · have hwalk : d.expression.walk = some (Expression.tree.preorder d.expression) := by rw [walk_spec, if_pos hle]
    have hroles : orTooLarge d.expression.referencedInputRoles = .ok (d.expression.referencedInputRoles.getD []) := by
      rw [Expression.referencedInputRoles, hwalk]
      rfl
    have hnames : orTooLarge d.expression.referencedParameterNames = .ok (d.expression.referencedParameterNames.getD []) := by
      rw [Expression.referencedParameterNames, hwalk]
      rfl
    have hdepth : orTooLarge (some (Expression.tree.height d.expression)) = .ok (Expression.tree.height d.expression) := rfl
    have hcount : orTooLarge (some (Expression.tree.size d.expression)) = .ok (Expression.tree.size d.expression) := rfl
    have ok_bind : ∀ {α : Type} (a : α) (rest : α → Except String Unit), (Except.ok a >>= rest) = rest a := fun _ _ => rfl
    rw [if_pos hle, if_pos hle, if_neg (Nat.not_lt.mpr hle), hdepth, ok_bind, valueErrorIf_bind, hcount, ok_bind, valueErrorIf_bind,
      if_neg (Nat.not_lt.mpr hle), hroles, ok_bind, hnames]
    rfl
  · rw [if_neg hle, if_neg hle, if_pos (Nat.not_le.mp hle)]
    rfl

/-- What a declaration check raises is about no bound. -/
theorem declarations_error {d : CalculationDraft} {text : String} (h : declarations d = .error text) :
    text ≠ nodeCountText ∧ text ≠ depthText := by
  rcases valueErrorIf_bind_error h with rfl | h
  · decide
  rcases valueErrorIf_bind_error h with rfl | h
  · decide
  rcases valueErrorIf_bind_error h with rfl | h
  · decide
  rcases valueErrorIf_bind_error h with rfl | h
  · decide
  unfold valueErrorIf at h
  split at h
  · cases h
    decide
  · nomatch h

end BoundsAux

open BoundsAux

/-- The semantic check passes exactly the drafts that specs are. -/
theorem validateSemantics_ok_iff (d : CalculationDraft) : d.validateSemantics = .ok () ↔ ∃ spec : CalculationSpec, spec.draft = d := by
  have hok : ∀ {α : Type} {x : Option α} {a : α}, orTooLarge x = .ok a ↔ x = some a := by
    intro α x a
    cases x <;> simp [orTooLarge]
  simp only [CalculationDraft.validateSemantics, bind_eq_ok, valueErrorIf_eq_ok, hok]
  constructor
  · rintro ⟨depth, hdepth, -, hdepthBound, count, hcount, -, hcountBound, roles, hroles, -, hdeclared, names, hnames, -, hbound, -,
      hrounding, -, hcustom, hfresh⟩
    refine ⟨{ calculationId := d.calculationId, expression := d.expression, inputs := d.inputs, parameters := d.parameters,
              unit := d.unit, customUnitId := d.customUnitId, precision := d.precision, rounding := d.rounding,
              inputs_length := d.inputs_length, inputs_unique := d.inputs_unique, parameters_length := d.parameters_length,
              parameters_unique := d.parameters_unique
              depth_bounded := ⟨depth, hdepth, Nat.not_lt.mp hdepthBound⟩
              nodes_bounded := ⟨count, hcount, Nat.not_lt.mp hcountBound⟩
              roles_declared := ?_, parameters_declared := ?_, rounding_precision := ?_, custom_unit := not_not.mp hcustom
              custom_unit_fresh := fun u hu hmem => hfresh ⟨u, hu, hmem⟩ }, rfl⟩
    · intro roles' hroles'
      rw [hroles] at hroles'
      cases hroles'
      exact not_not.mp hdeclared
    · intro names' hnames'
      rw [hnames] at hnames'
      cases hnames'
      exact not_not.mp hbound
    · intro hsome
      exact not_not.mp fun hnone => hrounding ⟨hsome, hnone⟩
  · rintro ⟨spec, rfl⟩
    obtain ⟨depth, hdepth, hdepthBound⟩ := spec.depth_bounded
    obtain ⟨count, hcount, hcountBound⟩ := spec.nodes_bounded
    obtain ⟨nodes, hwalk, -⟩ := Option.map_eq_some_iff.mp hcount
    have hroles : spec.expression.referencedInputRoles = some _ := congrArg (Option.map _) hwalk
    have hnames : spec.expression.referencedParameterNames = some _ := congrArg (Option.map _) hwalk
    exact ⟨depth, hdepth, (), Nat.not_lt.mpr hdepthBound, count, hcount, (), Nat.not_lt.mpr hcountBound, _, hroles, (),
      not_not.mpr (spec.roles_declared _ hroles), _, hnames, (), not_not.mpr (spec.parameters_declared _ hnames), (),
      fun h => h.2 (spec.rounding_precision h.1), (), not_not.mpr spec.custom_unit, fun ⟨u, hu, hmem⟩ => spec.custom_unit_fresh u hu hmem⟩

/-- Where the bounds of an expression agree. The runtime finds a tree too large exactly where it has more than 64 nodes, too deep
exactly where it has no more and is higher than 16, and passes it otherwise. The walk lists the tree in preorder and the depth loop
finds its height, or both fail on the nodes. And the semantic check of a spec raises either text exactly where the runtime raises
the code that goes with it. -/
theorem bound_agreement (e : Expression) :
    (requireBounded e = .error .expressionTooLarge ↔ 64 < Expression.tree.size e) ∧
    (requireBounded e = .error .expressionTooDeep ↔ Expression.tree.size e ≤ 64 ∧ 16 < Expression.tree.height e) ∧
    (requireBounded e = .ok () ↔ Expression.tree.size e ≤ 64 ∧ Expression.tree.height e ≤ 16) ∧
    e.walk = (if Expression.tree.size e ≤ 64 then some (Expression.tree.preorder e) else none) ∧
    e.depth = (if Expression.tree.size e ≤ 64 then some (Expression.tree.height e) else none) ∧
    ∀ d : CalculationDraft,
      (d.validateSemantics = .error nodeCountText ↔ requireBounded d.expression = .error .expressionTooLarge) ∧
      (d.validateSemantics = .error depthText ↔ requireBounded d.expression = .error .expressionTooDeep) := by
  have htexts : nodeCountText ≠ depthText := by decide
  refine ⟨?_, ?_, ?_, walk_spec e, depth_spec e, fun d => ?_⟩
  · rw [requireBounded_spec, maxExpressionNodes, maxExpressionDepth]
    split_ifs with hsize hheight
    · simp [hsize]
    · simp [hsize]
    · simp [hsize]
  · rw [requireBounded_spec, maxExpressionNodes, maxExpressionDepth]
    split_ifs with hsize hheight
    · simp [hsize]
    · simp [Nat.not_lt.mp hsize, hheight]
    · simp [hheight]
  · rw [requireBounded_spec, maxExpressionNodes, maxExpressionDepth]
    split_ifs with hsize hheight
    · simp [hsize]
    · simp [hheight]
    · simp [Nat.not_lt.mp hsize, Nat.not_lt.mp hheight]
  · rw [requireBounded_spec, validateSemantics_spec]
    split_ifs with hsize hheight
    · simp [htexts]
    · simp [htexts.symm]
    · have hnot := fun text (h : declarations d = .error text) => declarations_error h
      simp only [iff_false]
      exact ⟨fun h => (hnot _ h).1 rfl, fun h => (hnot _ h).2 rfl⟩

end Nl2Sql
