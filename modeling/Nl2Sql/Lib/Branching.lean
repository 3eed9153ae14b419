import Mathlib.Algebra.GroupWithZero.Nat
import Mathlib.Data.List.Basic
import Mathlib.Algebra.Order.Group.Nat

/-!
# Trees walked with an explicit stack

A type of finite trees, given by the children of a node: the nodes of a tree in preorder, their number, and its height, all by
recursion; and the two loops that come to the same with a stack of nodes yet to visit, as far as a budget of nodes allows.
-/

namespace Py

universe u

/-- Finite trees: every node has its children, and no path from a child to its child goes on for ever. -/
structure Branching (N : Type u) where
  children : N → List N
  wellFounded : WellFounded fun child node => child ∈ children node

namespace Branching

variable {N : Type u} (T : Branching N)

/-! ## The recursive definitions -/

/-- The nodes of a tree: a node before its children, and these in order. -/
def preorder (node : N) : List N :=
  node :: (T.children node).attach.flatMap fun child => preorder child.val
termination_by T.wellFounded.wrap node
decreasing_by exact child.property

/-- The number of nodes of a tree. -/
def size (node : N) : Nat :=
  1 + ((T.children node).attach.map fun child => size child.val).sum
termination_by T.wellFounded.wrap node
decreasing_by exact child.property

/-- The number of nodes on the longest path down a tree. -/
def height (node : N) : Nat :=
  1 + ((T.children node).attach.map fun child => height child.val).foldr max 0
termination_by T.wellFounded.wrap node
decreasing_by exact child.property

theorem preorder_eq (node : N) : T.preorder node = node :: (T.children node).flatMap T.preorder := by
  rw [preorder, List.flatMap_subtype (g := T.preorder) fun _ _ => rfl, List.unattach_attach]

theorem size_eq (node : N) : T.size node = 1 + ((T.children node).map T.size).sum := by
  rw [size, List.map_subtype (g := T.size) fun _ _ => rfl, List.unattach_attach]

theorem height_eq (node : N) : T.height node = 1 + ((T.children node).map T.height).foldr max 0 := by
  rw [height, List.map_subtype (g := T.height) fun _ _ => rfl, List.unattach_attach]

theorem size_pos (node : N) : 0 < T.size node := by
  rw [size_eq]
  omega

theorem height_pos (node : N) : 0 < T.height node := by
  rw [height_eq]
  omega

/-- What holds of a node where it holds of its children holds of every node. -/
theorem induct {P : N → Prop} (step : ∀ node, (∀ child ∈ T.children node, P child) → P node) (node : N) : P node :=
  T.wellFounded.induction node step

/-- The preorder lists each node once for each time it stands in the tree. -/
theorem length_preorder (node : N) : (T.preorder node).length = T.size node := by
  induction node using T.induct with
  | step node ih =>
    rw [preorder_eq, size_eq, List.length_cons, List.length_flatMap, List.map_congr_left ih, Nat.add_comm]

/-- The greatest of some numbers is within a bound exactly where they all are. -/
theorem foldr_max_le_iff {numbers : List Nat} {bound : Nat} : numbers.foldr max 0 ≤ bound ↔ ∀ number ∈ numbers, number ≤ bound := by
  induction numbers with
  | nil => simp
  | cons number numbers ih => rw [List.foldr_cons, max_le_iff, ih, List.forall_mem_cons]

/-- A tree is within a height exactly where there is room for its node, and below it for its children. -/
theorem height_le_iff {node : N} {bound : Nat} :
    T.height node ≤ bound + 1 ↔ ∀ child ∈ T.children node, T.height child ≤ bound := by
  rw [height_eq, Nat.add_comm, Nat.add_le_add_iff_right, foldr_max_le_iff, List.forall_mem_map]

/-! ## The loops -/

/-- The nodes that a stack of trees holds, the top's first: at most `budget` of them, and none where there are more. -/
def walk : Nat → List N → Option (List N)
  | _, [] => some []
  | 0, _ :: _ => none
  | budget + 1, node :: stack => (walk budget (T.children node ++ stack)).map (node :: ·)

/-- The greatest depth met in a stack of trees, each with the depth of its root, and in `best`: of at most `budget` nodes. -/
def deepest : Nat → List (N × Nat) → Nat → Option Nat
  | _, [], best => some best
  | 0, _ :: _, _ => none
  | budget + 1, (node, depth) :: stack, best =>
    deepest budget (((T.children node).map fun child => (child, depth + 1)).reverse ++ stack) (max best depth)

/-- The walk of a stack comes to the preorder of its trees, and fails exactly where they have more nodes than the budget. -/
theorem walk_eq (budget : Nat) (stack : List N) :
    T.walk budget stack = if (stack.map T.size).sum ≤ budget then some (stack.flatMap T.preorder) else none := by
  induction budget generalizing stack with
  | zero =>
    cases stack with
    | nil => rfl
    | cons node stack =>
      have hpos := T.size_pos node
      rw [walk, if_neg]
      rw [List.map_cons, List.sum_cons]
      omega
  | succ budget ih =>
    cases stack with
    | nil => rfl
    | cons node stack =>
      have hsum : ((node :: stack).map T.size).sum = ((T.children node ++ stack).map T.size).sum + 1 := by
        rw [List.map_cons, List.sum_cons, size_eq, List.map_append, List.sum_append]
        omega
      have hflat : (node :: stack).flatMap T.preorder = node :: (T.children node ++ stack).flatMap T.preorder := by
        rw [List.flatMap_cons, preorder_eq, List.flatMap_append, List.cons_append]
      rw [walk, ih, hsum, hflat]
      by_cases hle : ((T.children node ++ stack).map T.size).sum ≤ budget
      · rw [if_pos hle, if_pos (Nat.succ_le_succ hle), Option.map_some]
      · rw [if_neg hle, if_neg fun h => hle (Nat.le_of_succ_le_succ h), Option.map_none]

/-- The depth loop fails exactly where the trees have more nodes than the budget. -/
theorem deepest_isSome (budget : Nat) (stack : List (N × Nat)) (best : Nat) :
    (T.deepest budget stack best).isSome = true ↔ (stack.map fun entry => T.size entry.1).sum ≤ budget := by
  induction budget generalizing stack best with
  | zero =>
    cases stack with
    | nil => simp [deepest]
    | cons entry stack =>
      have hpos := T.size_pos entry.1
      rw [deepest, List.map_cons, List.sum_cons]
      simp only [Option.isSome_none, Bool.false_eq_true, false_iff]
      omega
  | succ budget ih =>
    cases stack with
    | nil => simp [deepest]
    | cons entry stack =>
      rw [deepest, ih, List.map_append, List.map_reverse, List.map_map, List.sum_append, List.sum_reverse, List.map_cons,
        List.sum_cons, size_eq]
      change ((T.children entry.1).map T.size).sum + _ ≤ budget ↔ _
      omega

/-- The greatest depth met is within a bound exactly where `best` is, and every tree ends above the bound from where it hangs. -/
theorem deepest_le_iff {budget : Nat} {stack : List (N × Nat)} {best greatest : Nat}
    (h : T.deepest budget stack best = some greatest) (bound : Nat) :
    greatest ≤ bound ↔ best ≤ bound ∧ ∀ entry ∈ stack, entry.2 + T.height entry.1 ≤ bound + 1 := by
  induction budget generalizing stack best with
  | zero =>
    cases stack with
    | nil =>
      rw [← Option.some.inj h]
      simp
    | cons entry stack => nomatch h
  | succ budget ih =>
    cases stack with
    | nil =>
      rw [← Option.some.inj h]
      simp
    | cons entry stack =>
      rw [deepest] at h
      have hentry : entry.2 + T.height entry.1 ≤ bound + 1 ↔
          entry.2 ≤ bound ∧ ∀ child ∈ T.children entry.1, entry.2 + 1 + T.height child ≤ bound + 1 := by
        constructor
        · intro hle
          have hpos := T.height_pos entry.1
          have hheight : T.height entry.1 ≤ (bound - entry.2) + 1 := by omega
          refine ⟨by omega, fun child hchild => ?_⟩
          have := T.height_le_iff.mp hheight child hchild
          omega
        · rintro ⟨hdepth, hchildren⟩
          have hheight : T.height entry.1 ≤ (bound - entry.2) + 1 := by
            refine T.height_le_iff.mpr fun child hchild => ?_
            have := hchildren child hchild
            omega
          omega
      rw [ih h, List.forall_mem_cons, hentry, max_le_iff]
      simp only [List.mem_append, List.mem_reverse, List.mem_map]
      constructor
      · rintro ⟨⟨hbest, hdepth⟩, hall⟩
        exact ⟨hbest, ⟨hdepth, fun child hchild => hall _ (.inl ⟨child, hchild, rfl⟩)⟩, fun e he => hall e (.inr he)⟩
      · rintro ⟨hbest, ⟨hdepth, hchildren⟩, hstack⟩
        refine ⟨⟨hbest, hdepth⟩, fun e he => ?_⟩
        rcases he with ⟨child, hchild, rfl⟩ | he
        · exact hchildren child hchild
        · exact hstack e he

/-- The depth loop of one tree comes to its height. -/
theorem deepest_root (budget : Nat) (node : N) :
    T.deepest budget [(node, 1)] 0 = if T.size node ≤ budget then some (T.height node) else none := by
  have hsome := T.deepest_isSome budget [(node, 1)] 0
  rw [List.map_singleton, List.sum_singleton] at hsome
  cases h : T.deepest budget [(node, 1)] 0 with
  | none =>
    rw [h] at hsome
    rw [if_neg fun hle => absurd (hsome.mpr hle) (by simp)]
  | some greatest =>
    rw [h] at hsome
    rw [if_pos (hsome.mp rfl)]
    have hle := T.deepest_le_iff h
    have heq : greatest = T.height node := by
      refine eq_of_forall_ge_iff fun bound => ?_
      rw [hle, List.forall_mem_singleton]
      change 0 ≤ bound ∧ 1 + T.height node ≤ bound + 1 ↔ T.height node ≤ bound
      omega
    rw [heq]

/-- The walk of one tree comes to its preorder. -/
theorem walk_root (budget : Nat) (node : N) :
    T.walk budget [node] = if T.size node ≤ budget then some (T.preorder node) else none := by
  rw [walk_eq, List.map_singleton, List.sum_singleton, List.flatMap_singleton]

end Branching

end Py
