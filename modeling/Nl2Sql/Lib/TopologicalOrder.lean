import Mathlib.Order.WellFounded
import Nl2Sql.Lib.Dict
import Nl2Sql.Lib.Lists
import Nl2Sql.Lib.Sorting

/-!
# Topological order by counting

An edge leads from a node to one it depends on. A node is ready when everything it depends on is in the order; the least ready node comes
next, and for each node that depends on it one dependency less is missing. Where no descent along the edges goes on for ever, every node
comes into the order, and no other order of the nodes with dependencies first is smaller.
-/

namespace Py

universe u

/-- The nodes that depend on a node, and the number of dependencies that are missing. -/
structure Degrees (V : Type u) where
  adjacency : Dict V (List V)
  indegree : Dict V Int

namespace Degrees

section Order

variable {V : Type u} [LinearOrder V]

local instance lawfulNodes : LawfulBEq V := inferInstance

/-- An edge is taken into account, unless it has been: from a node to one it depends on. -/
def addEdge (degrees : Degrees V) (edge : V × V) : Option (Degrees V) :=
  match degrees.adjacency.get? edge.2 with
  | none => none
  | some dependents =>
    if edge.1 ∈ dependents then
      some degrees
    else
      match degrees.indegree.get? edge.1 with
      | none => none
      | some degree =>
        some { adjacency := degrees.adjacency.set edge.2 (dependents ++ [edge.1]), indegree := degrees.indegree.set edge.1 (degree + 1) }

/-- The degrees of some nodes under some edges. -/
def build (nodes : List V) (edges : List (V × V)) : Option (Degrees V) :=
  edges.foldlM addEdge { adjacency := .ofList (nodes.map fun v => (v, [])), indegree := .ofList (nodes.map fun v => (v, 0)) }

/-- One dependency of a node is in the order; the node is ready when none is missing. -/
def release (state : Dict V Int × List V) (neighbour : V) : Option (Dict V Int × List V) :=
  match state.1.get? neighbour with
  | none => none
  | some degree => some (state.1.set neighbour (degree - 1), if degree - 1 = 0 then state.2 ++ [neighbour] else state.2)

/-- The loop over the nodes that are ready. The first argument bounds its rounds. -/
def drain (adjacency : Dict V (List V)) : Nat → Dict V Int → List V → List V → Option (List V)
  | _, _, [], order => some order
  | 0, _, _ :: _, _ => none
  | fuel + 1, indegree, node :: ready, order =>
    match adjacency.get? node with
    | none => none
    | some dependents =>
      match (sortBy id dependents).foldlM release (indegree, ready) with
      | none => none
      | some (indegree, ready) => drain adjacency fuel indegree (sortBy id ready) (order ++ [node])

end Order

end Degrees

/-- The nodes in an order in which dependencies come first. -/
def topologicalOrder {V : Type u} [LinearOrder V] (nodes : List V) (edges : List (V × V)) : Option (List V) :=
  match Degrees.build nodes edges with
  | none => none
  | some degrees =>
    Degrees.drain degrees.adjacency nodes.length degrees.indegree (sortBy id (nodes.filter fun v => degrees.indegree.get? v = some 0)) []

namespace Degrees

section Count

variable {V : Type u} [LinearOrder V]

attribute [local instance] lawfulNodes

/-- The edges from a node to what is not in the order. -/
def missing (edges : Finset (V × V)) (order : List V) (v : V) : Finset (V × V) := edges.filter fun e => e.1 = v ∧ e.2 ∉ order

theorem mem_missing {edges : Finset (V × V)} {order : List V} {v : V} {e : V × V} :
    e ∈ missing edges order v ↔ e ∈ edges ∧ e.1 = v ∧ e.2 ∉ order := Finset.mem_filter

/-- Nothing is missing where everything a node depends on is in the order. -/
theorem card_missing_eq_zero {edges : Finset (V × V)} {order : List V} {v : V} :
    (missing edges order v).card = 0 ↔ ∀ w, (v, w) ∈ edges → w ∈ order := by
  rw [Finset.card_eq_zero, Finset.eq_empty_iff_forall_notMem]
  constructor
  · intro h w hw
    by_contra hnot
    exact h (v, w) (mem_missing.mpr ⟨hw, rfl, hnot⟩)
  · rintro h ⟨a, w⟩ hmem
    obtain ⟨hedge, rfl, hnot⟩ := mem_missing.mp hmem
    exact hnot (h w hedge)

/-- One more edge: one dependency more is missing for the node it leads from, where the edge is new. -/
theorem card_missing_insert {edges : Finset (V × V)} {e : V × V} (hnew : e ∉ edges) (v : V) :
    (missing (insert e edges) [] v).card = (missing edges [] v).card + if e.1 = v then 1 else 0 := by
  have hinsert : missing (insert e edges) [] v = if e.1 = v then insert e (missing edges [] v) else missing edges [] v := by
    rw [missing, Finset.filter_insert]
    by_cases hv : e.1 = v
    · rw [if_pos hv, if_pos ⟨hv, List.not_mem_nil⟩, missing]
    · rw [if_neg hv, if_neg fun h => hv h.1, missing]
  rw [hinsert]
  split
  · exact Finset.card_insert_of_notMem fun h => hnew (mem_missing.mp h).1
  · rfl

/-- One node more in the order: one dependency less is missing for each node that depends on it. -/
theorem card_missing_append {edges : Finset (V × V)} {order : List V} {node : V} (hnode : node ∉ order) (v : V) :
    (missing edges (order ++ [node]) v).card + (if (v, node) ∈ edges then 1 else 0) = (missing edges order v).card := by
  have herase : missing edges (order ++ [node]) v = (missing edges order v).erase (v, node) := by
    ext ⟨a, w⟩
    rw [Finset.mem_erase, mem_missing, mem_missing, List.mem_append, List.mem_singleton, not_or, ne_eq, Prod.mk.injEq, not_and]
    constructor
    · rintro ⟨hedge, hv, hout, hne⟩
      exact ⟨fun _ => hne, hedge, hv, hout⟩
    · rintro ⟨hne, hedge, hv, hout⟩
      exact ⟨hedge, hv, hout, hne hv⟩
  rw [herase]
  by_cases hedge : (v, node) ∈ edges
  · have hmem : (v, node) ∈ missing edges order v := mem_missing.mpr ⟨hedge, rfl, hnode⟩
    rw [if_pos hedge, Finset.card_erase_add_one hmem]
  · rw [if_neg hedge, Finset.erase_eq_of_notMem fun h => hedge (mem_missing.mp h).1, Nat.add_zero]

end Count

section Build

variable {V : Type u} [LinearOrder V] {nodes : List V}

/-- The degrees of some nodes are those of the edges that have been taken into account. -/
structure Counts (nodes : List V) (edges : Finset (V × V)) (degrees : Degrees V) : Prop where
  adjacency : ∀ b ∈ nodes, ∃ dependents, degrees.adjacency.get? b = some dependents ∧ dependents.Nodup ∧
    ∀ a, a ∈ dependents ↔ (a, b) ∈ edges
  indegree : ∀ a ∈ nodes, degrees.indegree.get? a = some ((missing edges [] a).card : Int)

theorem addEdge_counts {edges : Finset (V × V)} {degrees : Degrees V} (h : Counts nodes edges degrees) {edge : V × V}
    (hsource : edge.1 ∈ nodes) (htarget : edge.2 ∈ nodes) :
    ∃ degrees', addEdge degrees edge = some degrees' ∧ Counts nodes (insert edge edges) degrees' := by
  obtain ⟨dependents, hget, hnodup, hmem⟩ := h.adjacency edge.2 htarget
  unfold addEdge
  rw [hget]
  by_cases hold : edge.1 ∈ dependents
  · have hinsert : insert edge edges = edges := Finset.insert_eq_of_mem ((hmem edge.1).mp hold)
    exact ⟨degrees, if_pos hold, by rwa [hinsert]⟩
  · have hnew : edge ∉ edges := fun hin => hold ((hmem edge.1).mpr hin)
    dsimp only
    rw [if_neg hold, h.indegree edge.1 hsource]
    refine ⟨_, rfl, fun b hb => ?_, fun a ha => ?_⟩
    · by_cases heq : edge.2 = b
      · subst heq
        refine ⟨dependents ++ [edge.1], Dict.get?_set_self _ _ _, ?_, fun a => ?_⟩
        · exact List.nodup_append.mpr ⟨hnodup, List.nodup_singleton _, fun x hx y hy => by
            rintro rfl
            exact hold (List.mem_singleton.mp hy ▸ hx)⟩
        · rw [List.mem_append, hmem, List.mem_singleton, Finset.mem_insert, Prod.ext_iff]
          tauto
      · obtain ⟨dependents', hget', hnodup', hmem'⟩ := h.adjacency b hb
        refine ⟨dependents', by rw [Dict.get?_set_of_ne _ _ heq, hget'], hnodup', fun a => ?_⟩
        rw [hmem', Finset.mem_insert]
        exact (or_iff_right fun hab => heq (by rw [← hab])).symm
    · rw [card_missing_insert hnew, Dict.get?_set]
      split
      · rename_i heq
        rw [← heq]
        push_cast
        rfl
      · rw [h.indegree a ha, Nat.add_zero]

/-- The degrees of a graph whose edges stay in it. -/
theorem build_counts {edges : List (V × V)} (hedges : ∀ e ∈ edges, e.1 ∈ nodes ∧ e.2 ∈ nodes) :
    ∃ degrees, build nodes edges = some degrees ∧ Counts nodes edges.toFinset degrees := by
  have hstep : ∀ (done : Finset (V × V)) (degrees : Degrees V) (rest : List (V × V)), (∀ e ∈ rest, e.1 ∈ nodes ∧ e.2 ∈ nodes) →
      Counts nodes done degrees → ∃ degrees', rest.foldlM addEdge degrees = some degrees' ∧ Counts nodes (done ∪ rest.toFinset) degrees' := by
    intro done degrees rest
    induction rest generalizing done degrees with
    | nil =>
      intro _ h
      exact ⟨degrees, rfl, by rwa [List.toFinset_nil, Finset.union_empty]⟩
    | cons edge rest ih =>
      intro hrest h
      obtain ⟨hsource, htarget⟩ := hrest edge List.mem_cons_self
      obtain ⟨degrees', hadd, hcounts⟩ := addEdge_counts h hsource htarget
      obtain ⟨degrees'', hfold, hcounts'⟩ := ih _ _ (fun e he => hrest e (List.mem_cons_of_mem _ he)) hcounts
      refine ⟨degrees'', ?_, ?_⟩
      · rw [List.foldlM_cons, hadd]
        exact hfold
      · rwa [List.toFinset_cons, Finset.union_insert, ← Finset.insert_union]
  have hstart : Counts nodes ∅ { adjacency := .ofList (nodes.map fun v => (v, [])), indegree := .ofList (nodes.map fun v => (v, 0)) } := by
    refine ⟨fun b hb => ⟨[], Dict.get?_ofList_keys hb _, .nil, fun a => by simp⟩, fun a ha => ?_⟩
    exact Dict.get?_ofList_keys ha _
  obtain ⟨degrees, hfold, hcounts⟩ := hstep ∅ _ edges hedges hstart
  exact ⟨degrees, hfold, by rwa [Finset.empty_union] at hcounts⟩

end Build

section Drain

variable {V : Type u} [LinearOrder V] {nodes : List V} {edges : Finset (V × V)}

/-- Nodes that depend on one that comes into the order: each has one missing dependency less, and those with none left are ready. -/
theorem release_spec {dependents : List V} (hnodup : dependents.Nodup) (hmem : dependents ⊆ nodes) {indegree : Dict V Int}
    {degree : V → Int} (hdegree : ∀ a ∈ nodes, indegree.get? a = some (degree a)) (ready : List V) :
    ∃ indegree', dependents.foldlM release (indegree, ready) =
        some (indegree', ready ++ dependents.filter fun a => degree a - 1 = 0) ∧
      ∀ a ∈ nodes, indegree'.get? a = some (if a ∈ dependents then degree a - 1 else degree a) := by
  induction dependents generalizing indegree degree ready with
  | nil =>
    exact ⟨indegree, by simp, fun a ha => by rw [if_neg List.not_mem_nil, hdegree a ha]⟩
  | cons first rest ih =>
    obtain ⟨hfirst, hrest⟩ := List.nodup_cons.mp hnodup
    have hfirst_mem : first ∈ nodes := hmem List.mem_cons_self
    have hset : ∀ a ∈ nodes, (indegree.set first (degree first - 1)).get? a = some (if first = a then degree a - 1 else degree a) := by
      intro a ha
      rw [Dict.get?_set]
      split
      · rename_i heq
        rw [heq]
      · exact hdegree a ha
    obtain ⟨indegree', hfold, hget⟩ := ih hrest (fun a ha => hmem (List.mem_cons_of_mem _ ha)) hset
      (if degree first - 1 = 0 then ready ++ [first] else ready)
    refine ⟨indegree', ?_, fun a ha => ?_⟩
    · have hrelease : release (indegree, ready) first =
          some (indegree.set first (degree first - 1), if degree first - 1 = 0 then ready ++ [first] else ready) := by
        rw [release, hdegree first hfirst_mem]
      have hfilter : (rest.filter fun a => (if first = a then degree a - 1 else degree a) - 1 = 0) = rest.filter fun a => degree a - 1 = 0 := by
        refine List.filter_congr fun a ha => ?_
        rw [if_neg fun heq => hfirst (by rwa [heq])]
      rw [List.foldlM_cons, hrelease, List.filter_cons]
      refine hfold.trans ?_
      rw [hfilter]
      by_cases hzero : degree first - 1 = 0
      · rw [if_pos hzero, if_pos (decide_eq_true hzero), List.append_assoc, List.singleton_append]
      · rw [if_neg hzero, if_neg (by simpa using hzero)]
    · rw [hget a ha]
      by_cases heq : first = a
      · subst heq
        rw [if_neg hfirst, if_pos rfl, if_pos List.mem_cons_self]
      · have hiff : a ∈ first :: rest ↔ a ∈ rest := by
          rw [List.mem_cons]
          exact or_iff_right (Ne.symm heq)
        simp only [hiff, if_neg heq]

/-- In an order, what a node depends on comes before it. -/
def DependenciesFirst (edges : Finset (V × V)) : List V → Prop := EachAfter fun before node => ∀ w, (node, w) ∈ edges → w ∈ before

/-- What holds when a round begins: the degrees count what is missing, and what is ready is what misses nothing and is not in the order. -/
structure Drained (nodes : List V) (edges : Finset (V × V)) (indegree : Dict V Int) (ready order : List V) : Prop where
  degrees : ∀ a ∈ nodes, indegree.get? a = some ((missing edges order a).card : Int)
  mem_ready : ∀ a, a ∈ ready ↔ a ∈ nodes ∧ a ∉ order ∧ (missing edges order a).card = 0
  readyNodup : ready.Nodup
  sorted : ready.Pairwise (· ≤ ·)
  nodup : order.Nodup
  mem : order ⊆ nodes
  settled : ∀ a ∈ order, (missing edges order a).card = 0
  first : DependenciesFirst edges order

/-- A round of the loop: the least ready node comes into the order. -/
theorem Drained.step {indegree : Dict V Int} {node : V} {ready order : List V} (h : Drained nodes edges indegree (node :: ready) order)
    (hedges : ∀ e ∈ edges, e.1 ∈ nodes ∧ e.2 ∈ nodes) {dependents : List V} (hnodup : dependents.Nodup)
    (hdependents : ∀ a, a ∈ dependents ↔ (a, node) ∈ edges) :
    ∃ indegree' ready', (sortBy id dependents).foldlM release (indegree, ready) = some (indegree', ready') ∧
      Drained nodes edges indegree' (sortBy id ready') (order ++ [node]) := by
  obtain ⟨hnode, hout, hzero⟩ := (h.mem_ready node).mp List.mem_cons_self
  obtain ⟨hnot, hready⟩ := List.nodup_cons.mp h.readyNodup
  have hmem : sortBy id dependents ⊆ nodes := fun a ha => (hedges _ ((hdependents a).mp (mem_sortBy.mp ha))).1
  obtain ⟨indegree', hfold, hdegrees⟩ := release_spec ((sortBy_perm id dependents).nodup_iff.mpr hnodup) hmem h.degrees ready
  have hcount : ∀ v, (missing edges (order ++ [node]) v).card + (if (v, node) ∈ edges then 1 else 0) = (missing edges order v).card :=
    card_missing_append hout
  have hin : ∀ a, a ∈ sortBy id dependents ↔ (a, node) ∈ edges := fun a => mem_sortBy.trans (hdependents a)
  have hless : ∀ a, (missing edges order a).card = 0 → (missing edges (order ++ [node]) a).card = 0 := by
    intro a ha
    have hadd := hcount a
    omega
  refine ⟨indegree', _, hfold, ?_, ?_, ?_, pairwise_sortBy id _, ?_, ?_, ?_, ?_⟩
  · intro a ha
    have hadd := hcount a
    rw [hdegrees a ha]
    by_cases hedge : (a, node) ∈ edges
    · rw [if_pos hedge] at hadd
      rw [if_pos (hin a |>.mpr hedge)]
      congr 1
      omega
    · rw [if_neg hedge] at hadd
      rw [if_neg (mt (hin a).mp hedge), ← hadd, Nat.add_zero]
  · intro a
    have hadd := hcount a
    rw [mem_sortBy, List.mem_append, List.mem_filter, hin, decide_eq_true_iff, List.mem_append, List.mem_singleton, not_or]
    constructor
    · rintro (ha | ⟨hedge, hone⟩)
      · obtain ⟨hnodes, hout', hzero'⟩ := (h.mem_ready a).mp (List.mem_cons_of_mem _ ha)
        exact ⟨hnodes, ⟨hout', fun heq => hnot (heq ▸ ha)⟩, hless a hzero'⟩
      · rw [if_pos hedge] at hadd
        refine ⟨(hedges _ hedge).1, ⟨fun hmem => ?_, fun heq => ?_⟩, by omega⟩
        · have hzero' := h.settled a hmem
          omega
        · rw [heq, hzero] at hone
          omega
    · rintro ⟨hnodes, ⟨hout', hne⟩, hzero'⟩
      by_cases hedge : (a, node) ∈ edges
      · rw [if_pos hedge] at hadd
        exact .inr ⟨hedge, by omega⟩
      · rw [if_neg hedge] at hadd
        have ha := (h.mem_ready a).mpr ⟨hnodes, hout', by omega⟩
        exact .inl ((List.mem_cons.mp ha).resolve_left hne)
  · refine (sortBy_perm id _).nodup_iff.mpr (List.nodup_append.mpr ⟨hready, ?_, fun x hx y hy heq => ?_⟩)
    · exact ((sortBy_perm id dependents).nodup_iff.mpr hnodup).filter _
    · -- what was ready missed nothing, and what has become ready missed one
      obtain ⟨-, -, hzero'⟩ := (h.mem_ready x).mp (List.mem_cons_of_mem _ hx)
      have hone := of_decide_eq_true (List.mem_filter.mp hy).2
      rw [← heq, hzero'] at hone
      omega
  · exact List.nodup_append.mpr ⟨h.nodup, List.nodup_singleton _, fun x hx y hy heq => hout (List.mem_singleton.mp hy ▸ heq ▸ hx)⟩
  · exact List.append_subset.mpr ⟨h.mem, fun a ha => List.mem_singleton.mp ha ▸ hnode⟩
  · intro a ha
    rcases List.mem_append.mp ha with ha | ha
    · exact hless a (h.settled a ha)
    · exact hless a (List.mem_singleton.mp ha ▸ hzero)
  · exact eachAfter_snoc.mpr ⟨h.first, card_missing_eq_zero.mp hzero⟩

/-- A complete order of the nodes: each once, with what it depends on before it. -/
structure IsOrder (nodes : List V) (edges : Finset (V × V)) (order : List V) : Prop where
  nodup : order.Nodup
  mem : ∀ v, v ∈ order ↔ v ∈ nodes
  first : DependenciesFirst edges order

/-- Where no descent along the edges goes on for ever, a node that is not in the order is ready. -/
theorem Drained.mem_of_nil {indegree : Dict V Int} {order : List V} (h : Drained nodes edges indegree [] order)
    (hedges : ∀ e ∈ edges, e.1 ∈ nodes ∧ e.2 ∈ nodes) (hwf : WellFounded fun b a => (a, b) ∈ edges) : ∀ v ∈ nodes, v ∈ order := by
  intro v
  induction v using hwf.induction with
  | h v ih =>
    intro hv
    by_contra hout
    refine List.not_mem_nil ((h.mem_ready v).mpr ⟨hv, hout, card_missing_eq_zero.mpr fun w hw => ?_⟩)
    exact ih w hw (hedges _ hw).2

/-- The loop ends where nothing is ready: the order is complete. -/
theorem Drained.done {indegree : Dict V Int} {ready order : List V} (h : Drained nodes edges indegree ready order)
    (hedges : ∀ e ∈ edges, e.1 ∈ nodes ∧ e.2 ∈ nodes) (hwf : WellFounded fun b a => (a, b) ∈ edges) (hnil : ready = [])
    {adjacency : Dict V (List V)} {fuel : Nat} :
    ∃ tail, drain adjacency fuel indegree ready order = some (order ++ tail) ∧ IsOrder nodes edges (order ++ tail) ∧
      ∀ tail', IsOrder nodes edges (order ++ tail') → tail ≤ tail' := by
  subst hnil
  refine ⟨[], by rw [drain, List.append_nil], ?_, fun tail' _ => not_lt.mp (List.not_lt_nil tail')⟩
  rw [List.append_nil]
  exact ⟨h.nodup, fun v => ⟨fun hv => h.mem hv, h.mem_of_nil hedges hwf v⟩, h.first⟩

/-- The loop completes the order, and no other completion of it is smaller. -/
theorem drain_spec {adjacency : Dict V (List V)} (hadjacency : ∀ b ∈ nodes, ∃ dependents, adjacency.get? b = some dependents ∧
      dependents.Nodup ∧ ∀ a, a ∈ dependents ↔ (a, b) ∈ edges)
    (hedges : ∀ e ∈ edges, e.1 ∈ nodes ∧ e.2 ∈ nodes) (hwf : WellFounded fun b a => (a, b) ∈ edges) {fuel : Nat} {indegree : Dict V Int}
    {ready order : List V} (h : Drained nodes edges indegree ready order) (hfuel : nodes.length ≤ fuel + order.length) :
    ∃ tail, drain adjacency fuel indegree ready order = some (order ++ tail) ∧ IsOrder nodes edges (order ++ tail) ∧
      ∀ tail', IsOrder nodes edges (order ++ tail') → tail ≤ tail' := by
  induction fuel generalizing indegree ready order with
  | zero =>
    refine h.done hedges hwf (List.eq_nil_iff_forall_not_mem.mpr fun node hready => ?_)
    obtain ⟨hnode, hout, -⟩ := (h.mem_ready node).mp hready
    have hsub : node :: order ⊆ nodes := List.cons_subset.mpr ⟨hnode, h.mem⟩
    have hlength := (List.subperm_of_subset (List.nodup_cons.mpr ⟨hout, h.nodup⟩) hsub).length_le
    rw [List.length_cons] at hlength
    omega
  | succ fuel ih =>
    cases ready with
    | nil => exact h.done hedges hwf rfl
    | cons node ready =>
      obtain ⟨hnode, hout, -⟩ := (h.mem_ready node).mp List.mem_cons_self
      obtain ⟨dependents, hget, hnodup, hdependents⟩ := hadjacency node hnode
      obtain ⟨indegree', ready', hfold, hdrained⟩ := h.step hedges hnodup hdependents
      have hlength : nodes.length ≤ fuel + (order ++ [node]).length := by
        rw [List.length_append, List.length_singleton]
        omega
      obtain ⟨tail, hdrain, horder, hleast⟩ := ih hdrained hlength
      rw [List.append_assoc, List.singleton_append] at hdrain horder
      refine ⟨node :: tail, ?_, horder, fun tail' htail' => ?_⟩
      · rw [drain, hget]
        simp only [hfold, hdrain]
      · cases tail' with
        | nil =>
          rw [List.append_nil] at htail'
          exact absurd ((htail'.mem node).mpr hnode) hout
        | cons other rest =>
          -- the node another order puts next is ready too, so it is not smaller
          have hother : other ∈ node :: ready := by
            refine (h.mem_ready other).mpr ⟨(htail'.mem other).mp (List.mem_append_right _ List.mem_cons_self), ?_, ?_⟩
            · exact fun hmem => (List.disjoint_of_nodup_append htail'.nodup) hmem List.mem_cons_self
            · exact card_missing_eq_zero.mpr (htail'.first order other rest rfl)
          rcases List.mem_cons.mp hother with rfl | hother
          · refine List.cons_le_cons other (hleast rest ?_)
            rwa [List.append_assoc, List.singleton_append]
          · rcases lt_or_eq_of_le ((List.pairwise_cons.mp h.sorted).1 other hother) with hlt | rfl
            · exact le_of_lt (List.Lex.rel hlt)
            · exact absurd hother (List.nodup_cons.mp h.readyNodup).1

end Drain

/-- On a graph whose edges stay in it, and where no descent along them goes on for ever, the order is complete, with dependencies first, and
no such order is smaller. -/
theorem topologicalOrder_spec {V : Type u} [LinearOrder V] {nodes : List V} (hnodup : nodes.Nodup) {edges : List (V × V)}
    (hedges : ∀ e ∈ edges, e.1 ∈ nodes ∧ e.2 ∈ nodes) (hwf : WellFounded fun b a => (a, b) ∈ edges) :
    ∃ order, topologicalOrder nodes edges = some order ∧ IsOrder nodes edges.toFinset order ∧
      ∀ other, IsOrder nodes edges.toFinset other → order ≤ other := by
  have hmem : ∀ e, e ∈ edges.toFinset ↔ e ∈ edges := fun e => List.mem_toFinset
  obtain ⟨degrees, hbuild, hcounts⟩ := build_counts hedges
  have hstart : Drained nodes edges.toFinset degrees.indegree (sortBy id (nodes.filter fun v => degrees.indegree.get? v = some 0)) [] := by
    refine ⟨hcounts.indegree, fun a => ?_, ?_, pairwise_sortBy id _, .nil, List.nil_subset _, ?_, ?_⟩
    · rw [mem_sortBy, List.mem_filter, decide_eq_true_iff]
      refine and_congr_right fun ha => ?_
      rw [hcounts.indegree a ha, Option.some.injEq, Int.natCast_eq_zero]
      exact (and_iff_right List.not_mem_nil).symm
    · exact (sortBy_perm id _).nodup_iff.mpr (hnodup.filter _)
    · exact fun a ha => absurd ha List.not_mem_nil
    · exact eachAfter_nil _
  have hwf' : WellFounded fun b a => (a, b) ∈ edges.toFinset := Subrelation.wf (fun h => (hmem _).mp h) hwf
  obtain ⟨order, hdrain, horder, hleast⟩ := drain_spec hcounts.adjacency (fun e he => hedges e ((hmem e).mp he)) hwf' hstart (Nat.le_refl _)
  exact ⟨order, by rw [topologicalOrder, hbuild]; exact hdrain, horder, hleast⟩

end Degrees

end Py
