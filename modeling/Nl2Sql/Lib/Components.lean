import Nl2Sql.Lib.Dict
import Nl2Sql.Lib.Sorting

/-!
# Strongly connected components with an explicit stack

A depth-first search without recursion: the nodes under way stand on a list of work with the place each has come to among its neighbours.
A node gets an index when it is discovered and keeps the lowest index on the stack it is known to lead to; where that is its own index,
what stands above it on the stack is its component. The stack falls into segments, one for each node under way, and the invariant says of
each segment what the search knows about it.
-/

namespace Py

universe u

variable {V : Type u}

section Graph

variable (adj : V → List V)

/-- One node leads to another along an edge. -/
def Leads (a b : V) : Prop := b ∈ adj a

/-- One node leads to another along some edges. -/
abbrev Reaches : V → V → Prop := Relation.ReflTransGen (Leads adj)

/-- Two nodes lead to each other. -/
def Linked (a b : V) : Prop := Reaches adj a b ∧ Reaches adj b a

end Graph

/-- What a node leads to stays in a set that no edge leaves. -/
theorem Reaches.mem_of_closed {adj : V → List V} {P : V → Prop} (hclosed : ∀ a, P a → ∀ b ∈ adj a, P b) {a b : V} (ha : P a)
    (h : Reaches adj a b) : P b := by
  induction h with
  | refl => exact ha
  | tail _ hedge ih => exact hclosed _ ih _ hedge

/-- The state of the search: the work and the stack with what was last put on them first. -/
structure Tarjan (V : Type u) where
  index : Dict V Nat := .empty
  low : Dict V Nat := .empty
  onStack : List V := []
  stack : List V := []
  components : List (List V) := []
  counter : Nat := 0
  work : List (V × Nat) := []

namespace Tarjan

section Search

variable [LinearOrder V]

/-- The index of a node that has one. -/
def num (s : Tarjan V) (v : V) : Nat := (s.index.get? v).getD 0

/-- The lowest index a node is known to lead to. -/
def lowest (s : Tarjan V) (v : V) : Nat := (s.low.get? v).getD 0

/-- A node is come to for the first time. -/
def discover (node : V) (s : Tarjan V) : Tarjan V :=
  { s with
    index := s.index.set node s.counter
    low := s.low.set node s.counter
    counter := s.counter + 1
    stack := node :: s.stack
    onStack := node :: s.onStack }

/-- `low[node] = min(low[node], bound)`. -/
def lower (node : V) (bound : Nat) (s : Tarjan V) : Tarjan V := { s with low := s.low.set node (min (s.lowest node) bound) }

/-- The next neighbour of the node on top of the work. -/
def follow (node : V) (position : Nat) (neighbour : V) (rest : List (V × Nat)) (s : Tarjan V) : Tarjan V :=
  let s := { s with work := (node, position + 1) :: rest }
  if neighbour ∉ s.index then
    { s with work := (neighbour, 0) :: s.work }
  else if neighbour ∈ s.onStack then
    s.lower node (s.num neighbour)
  else
    s

/-- What is popped until a node is, and what stays. -/
def popUntil (node : V) : List V → List V × List V
  | [] => ([], [])
  | member :: stack =>
    if member = node then
      ([member], stack)
    else
      (member :: (popUntil node stack).1, (popUntil node stack).2)

/-- The component of a node is popped from the stack. -/
def emit (node : V) (s : Tarjan V) : Tarjan V :=
  let (component, stack) := popUntil node s.stack
  { s with
    stack := stack
    onStack := s.onStack.filter (· ∉ component)
    components := s.components ++ [sortBy id component] }

/-- The node on top of the work has no neighbour left. -/
def leave (node : V) (rest : List (V × Nat)) (s : Tarjan V) : Tarjan V :=
  let s := { s with work := rest }
  let s :=
    match rest with
    | [] => s
    | parent :: _ => s.lower parent.1 (s.lowest node)
  if s.lowest node = s.num node then s.emit node else s

variable (adj : V → List V)

/-- One round of the loop over the work. -/
def step (s : Tarjan V) : Tarjan V :=
  match s.work with
  | [] => s
  | (node, position) :: rest =>
    let s := if position = 0 then s.discover node else s
    match (adj node)[position]? with
    | some neighbour => s.follow node position neighbour rest
    | none => s.leave node rest

/-- The loop, which ends when no work is left. The first argument bounds the rounds. -/
def loop : Nat → Tarjan V → Option (Tarjan V)
  | 0, s => if s.work = [] then some s else none
  | fuel + 1, s => if s.work = [] then some s else loop fuel (s.step adj)

/-- The rounds a search of some nodes takes at most: one for each edge and one more for each node. -/
def rounds (nodes : List V) : Nat := (nodes.map fun v => (adj v).length + 1).sum

/-- The search from one root, unless it has been come to. -/
def search (nodes : List V) (s : Tarjan V) (root : V) : Option (Tarjan V) :=
  if root ∈ s.index then some s else loop adj (rounds adj nodes) { s with work := [(root, 0)] }

/-- The strongly connected components of the graph on some nodes, each in order. -/
def stronglyConnectedComponents (nodes : List V) : Option (List (List V)) :=
  (((sortBy id nodes).foldlM (search adj nodes) {}).map Tarjan.components)

end Search

section Frames

variable (adj : V → List V) (seen : V → Prop) (index low : V → Nat)

/-- What is known of one segment of the stack: of the node under way, with the place it has come to, of the finished nodes that stand
above it and what they lead to below it. -/
structure Frame (node : V) (position : Nat) (segment below : List V) : Prop where
  done : ∀ x ∈ segment, ∀ y ∈ adj x, seen y
  taken : ∀ y ∈ (adj node).take position, seen y
  down : ∀ x ∈ segment, Reaches adj node x
  up : ∀ x ∈ segment, ∃ w ∈ segment ++ node :: below, index w = low x ∧ low x < index x ∧ Reaches adj x w
  self : ∃ w ∈ node :: below, index w = low node ∧ Reaches adj node w
  least : ∀ x ∈ segment, low node ≤ low x
  cross : ∀ x ∈ segment, ∀ y ∈ adj x, y ∈ below → low node ≤ index y
  crossed : ∀ y ∈ (adj node).take position, y ∈ below → low node ≤ index y

/-- A node was come to from the node under it on the work. -/
def Entered (rest : List (V × Nat)) (node : V) : Prop := ∀ parent ∈ rest.head?, node ∈ (adj parent.1).take parent.2

/-- The stack is made of the segments of the nodes under way. -/
def Frames : List (V × Nat) → List V → Prop
  | [], stack => stack = []
  | (node, position) :: rest, stack =>
    ∃ segment below, stack = segment ++ node :: below ∧ Frame adj seen index low node position segment below ∧
      Entered adj rest node ∧ Frames rest below

variable {adj seen index low}

/-- The segments stay what they are when more is seen and the marks of what is on the stack do not change. -/
theorem Frames.congr {seen' : V → Prop} {index' low' : V → Nat} (hseen : ∀ v, seen v → seen' v) {work : List (V × Nat)} {stack : List V}
    (h : Frames adj seen index low work stack) (hindex : ∀ v ∈ stack, index' v = index v) (hlow : ∀ v ∈ stack, low' v = low v) :
    Frames adj seen' index' low' work stack := by
  induction work generalizing stack with
  | nil => exact h
  | cons top rest ih =>
    obtain ⟨segment, below, rfl, hframe, hentered, hrest⟩ := h
    have hbelow : ∀ v ∈ below, v ∈ segment ++ top.1 :: below := fun v hv => List.mem_append_right _ (List.mem_cons_of_mem _ hv)
    have hsegment : ∀ v ∈ segment, v ∈ segment ++ top.1 :: below := fun v hv => List.mem_append_left _ hv
    have hnode : top.1 ∈ segment ++ top.1 :: below := List.mem_append_right _ List.mem_cons_self
    refine ⟨segment, below, rfl, ?_, hentered, ih hrest (fun v hv => hindex v (hbelow v hv)) fun v hv => hlow v (hbelow v hv)⟩
    refine ⟨fun x hx y hy => hseen y (hframe.done x hx y hy), fun y hy => hseen y (hframe.taken y hy), hframe.down, ?_, ?_, ?_, ?_, ?_⟩
    · intro x hx
      obtain ⟨w, hw, heq, hlt, hreach⟩ := hframe.up x hx
      refine ⟨w, hw, ?_, ?_, hreach⟩
      · rw [hindex w hw, hlow x (hsegment x hx), heq]
      · rwa [hlow x (hsegment x hx), hindex x (hsegment x hx)]
    · obtain ⟨w, hw, heq, hreach⟩ := hframe.self
      refine ⟨w, hw, ?_, hreach⟩
      rw [hindex w (List.mem_append_right _ hw), hlow _ hnode, heq]
    · intro x hx
      rw [hlow _ hnode, hlow x (hsegment x hx)]
      exact hframe.least x hx
    · intro x hx y hy hmem
      rw [hlow _ hnode, hindex y (hbelow y hmem)]
      exact hframe.cross x hx y hy hmem
    · intro y hy hmem
      rw [hlow _ hnode, hindex y (hbelow y hmem)]
      exact hframe.crossed y hy hmem

/-- The node under way takes one more neighbour, and its lowest index falls where the neighbour stands below. -/
theorem Frame.advance {node : V} {position : Nat} {segment below : List V} (h : Frame adj seen index low node position segment below)
    {neighbour : V} (hneighbour : (adj node)[position]? = some neighbour) {seen' : V → Prop} {low' : V → Nat}
    (hseen : ∀ v, seen v → seen' v) (hnew : seen' neighbour) (hsegment : ∀ v ∈ segment, low' v = low v) (hle : low' node ≤ low node)
    (hself : ∃ w ∈ node :: below, index w = low' node ∧ Reaches adj node w) (hcross : neighbour ∈ below → low' node ≤ index neighbour) :
    Frame adj seen' index low' node (position + 1) segment below := by
  have htake : ∀ y ∈ (adj node).take (position + 1), y ∈ (adj node).take position ∨ y = neighbour := by
    intro y hy
    rw [List.take_add_one, hneighbour, List.mem_append] at hy
    exact hy.imp_right fun hy => List.mem_singleton.mp hy
  refine ⟨fun x hx y hy => hseen y (h.done x hx y hy), ?_, h.down, ?_, hself, ?_, ?_, ?_⟩
  · intro y hy
    rcases htake y hy with hy | rfl
    · exact hseen y (h.taken y hy)
    · exact hnew
  · intro x hx
    rw [hsegment x hx]
    exact h.up x hx
  · intro x hx
    rw [hsegment x hx]
    exact hle.trans (h.least x hx)
  · exact fun x hx y hy hmem => hle.trans (h.cross x hx y hy hmem)
  · intro y hy hmem
    rcases htake y hy with hy | rfl
    · exact hle.trans (h.crossed y hy hmem)
    · exact hcross hmem

/-- The lowest index of the node under way is at most its own. -/
theorem Frame.self_le {node : V} {position : Nat} {segment below : List V} (h : Frame adj seen index low node position segment below)
    (hsorted : ∀ v ∈ below, index v < index node) : low node ≤ index node := by
  obtain ⟨w, hw, heq, -⟩ := h.self
  rcases List.mem_cons.mp hw with rfl | hw
  · exact heq.ge
  · exact heq ▸ (hsorted w hw).le

/-- A finished node that leads below itself joins the segment of the node it was come to from. -/
theorem Frame.merge {parent node : V} {place position : Nat} {segment segment' below : List V}
    (hsorted : (segment ++ node :: (segment' ++ parent :: below)).Pairwise fun a b => index b < index a)
    (hnode : Frame adj seen index low node position segment (segment' ++ parent :: below))
    (hparent : Frame adj seen index low parent place segment' below)
    (hend : (adj node).take position = adj node) (hlt : low node < index node) (hedge : node ∈ adj parent) {low' : V → Nat}
    (hlow' : low' parent = min (low parent) (low node)) (hsame : ∀ v ∈ segment ++ node :: segment', low' v = low v) :
    Frame adj seen index low' parent place (segment ++ node :: segment') below := by
  have hstack : segment ++ node :: (segment' ++ parent :: below) = (segment ++ node :: segment') ++ parent :: below := by
    rw [List.append_assoc, List.cons_append]
  have hreach : Reaches adj parent node := .single hedge
  have hsplit : ∀ {P : V → Prop}, (∀ x ∈ segment, P x) → P node → (∀ x ∈ segment', P x) → ∀ x ∈ segment ++ node :: segment', P x := by
    intro P h₁ h₂ h₃ x hx
    rcases List.mem_append.mp hx with hx | hx
    · exact h₁ x hx
    · rcases List.mem_cons.mp hx with rfl | hx
      · exact h₂
      · exact h₃ x hx
  have hbelow : ∀ y ∈ below, y ∈ segment' ++ parent :: below := fun y hy => List.mem_append_right _ (List.mem_cons_of_mem _ hy)
  obtain ⟨low₁, hmem₁, heq₁, hreach₁⟩ := hnode.self
  refine ⟨?_, hparent.taken, ?_, ?_, ?_, ?_, ?_, ?_⟩
  · refine hsplit hnode.done (fun y hy => hnode.taken y (hend.symm ▸ hy)) hparent.done
  · exact hsplit (fun x hx => hreach.trans (hnode.down x hx)) hreach hparent.down
  · intro x hx
    rw [hsame x hx, ← hstack]
    revert x hx
    refine hsplit hnode.up ⟨low₁, List.mem_append_right _ hmem₁, heq₁, hlt, hreach₁⟩ ?_
    intro x hx
    obtain ⟨w, hw, h⟩ := hparent.up x hx
    exact ⟨w, List.mem_append_right _ (List.mem_cons_of_mem _ hw), h⟩
  · rw [hlow']
    rcases le_total (low parent) (low node) with hle | hle
    · rw [min_eq_left hle]
      exact hparent.self
    · -- what the finished node leads to has an index that is at most that of the parent
      rw [min_eq_right hle]
      refine ⟨low₁, ?_, heq₁, hreach.trans hreach₁⟩
      rw [hstack] at hsorted
      obtain ⟨-, hbelow', habove⟩ := List.pairwise_append.mp hsorted
      have hparent_le := hparent.self_le (List.pairwise_cons.mp hbelow').1
      by_contra hnot
      have hwhere : low₁ ∈ segment ++ node :: segment' := by
        rcases List.mem_cons.mp hmem₁ with rfl | hmem
        · exact List.mem_append_right _ List.mem_cons_self
        · rcases List.mem_append.mp hmem with hmem | hmem
          · exact List.mem_append_right _ (List.mem_cons_of_mem _ hmem)
          · exact absurd hmem hnot
      have hgt := habove low₁ hwhere parent List.mem_cons_self
      omega
  · intro x hx
    rw [hlow', hsame x hx]
    revert x hx
    exact hsplit (fun x hx => (min_le_right _ _).trans (hnode.least x hx)) (min_le_right _ _)
      fun x hx => (min_le_left _ _).trans (hparent.least x hx)
  · rw [hlow']
    refine hsplit ?_ ?_ ?_
    · exact fun x hx y hy hmem => (min_le_right _ _).trans (hnode.cross x hx y hy (hbelow y hmem))
    · exact fun y hy hmem => (min_le_right _ _).trans (hnode.crossed y (hend.symm ▸ hy) (hbelow y hmem))
    · exact fun x hx y hy hmem => (min_le_left _ _).trans (hparent.cross x hx y hy hmem)
  · rw [hlow']
    exact fun y hy hmem => (min_le_left _ _).trans (hparent.crossed y hy hmem)

/-- Where a finished node leads to nothing below itself, what stands above it leads back to it. -/
theorem Frame.up_to {node : V} {position : Nat} {segment below : List V} (h : Frame adj seen index low node position segment below)
    (hsorted : (segment ++ node :: below).Pairwise fun a b => index b < index a) (hroot : low node = index node) :
    ∀ x ∈ segment, Reaches adj x node := by
  obtain ⟨-, hbelow, -⟩ := List.pairwise_append.mp hsorted
  intro x
  -- each leads to one with a lower index that is not below the node
  induction hn : index x using Nat.strong_induction_on generalizing x with
  | h n ih =>
    intro hx
    obtain ⟨w, hw, heq, hlt, hreach⟩ := h.up x hx
    rcases List.mem_append.mp hw with hw | hw
    · exact hreach.trans (ih (index w) (by omega) w rfl hw)
    · rcases List.mem_cons.mp hw with rfl | hw
      · exact hreach
      · have hlow := h.least x hx
        have hless := (List.pairwise_cons.mp hbelow).1 w hw
        omega

end Frames

end Tarjan

end Py
