import Mathlib.Data.List.Chain
import Mathlib.Order.MinMax
import Nl2Sql.Lib.Components

/-!
# A cycle through the least of some nodes

A breadth-first search from the least of some nodes, among them, which stops where it comes back to where it began. Each node that is come
to has as its parent the node it was come to from, and the cycle is read back along the parents.
-/

namespace Py

universe u

variable {V : Type u}

/-- The state of the search: the nodes come to, with their parents, and those whose neighbours have not been looked at. -/
structure Front (V : Type u) where
  parents : Dict V (Option V)
  queue : List V

namespace Front

section Search

variable [LinearOrder V]

local instance lawfulNodes : LawfulBEq V := inferInstance

/-- The nodes from one back to the beginning, along the parents. The first argument bounds their number. -/
def climb : Nat → Dict V (Option V) → V → Option (List V)
  | 0, _, _ => none
  | fuel + 1, parents, node =>
    match parents.get? node with
    | none => none
    | some none => some [node]
    | some (some parent) => (climb fuel parents parent).map (node :: ·)

variable (members : List V) (start : V)

/-- The neighbours of a node are looked at: those among the members that are new are taken down, and the beginning ends the search. -/
def scan (node : V) : List V → Front V → Except (Dict V (Option V)) (Front V)
  | [], front => .ok front
  | neighbour :: rest, front =>
    if neighbour ∉ members then
      scan node rest front
    else if neighbour = start then
      .error front.parents
    else if neighbour ∉ front.parents then
      scan node rest { parents := front.parents.set neighbour (some node), queue := front.queue ++ [neighbour] }
    else
      scan node rest front

variable (adj : V → List V)

/-- The loop over the queue. The first argument bounds its rounds. -/
def hunt : Nat → Front V → Option (List V)
  | fuel, front =>
    match front.queue with
    | [] => some [start, start]
    | node :: queue =>
      match fuel with
      | 0 => none
      | fuel + 1 =>
        match scan members start node (adj node) { front with queue := queue } with
        | .error parents => (climb parents.keys.length parents node).map fun path => path.reverse ++ [start]
        | .ok front => hunt fuel front

end Search

/-- The cycle through the least member that is found first. -/
def canonicalCycle [LinearOrder V] (adj : V → List V) (members : List V) : Option (List V) :=
  match members.min? with
  | none => none
  | some start => hunt members start adj members.length { parents := Dict.empty.set start none, queue := [start] }

/-- The way from a node back to the beginning. -/
inductive Back (start : V) [DecidableEq V] (parents : Dict V (Option V)) : V → List V → Prop
  | start : parents.get? start = some none → Back start parents start [start]
  | next {node parent : V} {path : List V} : parents.get? node = some (some parent) → Back start parents parent path → node ∉ path →
      Back start parents node (node :: path)

section Back

variable [LinearOrder V] {start : V} {parents : Dict V (Option V)} {node : V} {path : List V}

/-- A way back stays one when more nodes are come to. -/
theorem Back.mono (h : Back start parents node path) {parents' : Dict V (Option V)}
    (hkeeps : ∀ v p, parents.get? v = some p → parents'.get? v = some p) : Back start parents' node path := by
  induction h with
  | start hget => exact .start (hkeeps _ _ hget)
  | next hget _ hnot ih => exact .next (hkeeps _ _ hget) ih hnot

/-- A way back comes to no node twice, only to nodes that were come to, and it is what climbing gives. -/
theorem Back.spec (h : Back start parents node path) :
    path.Nodup ∧ (∀ v ∈ path, v ∈ parents) ∧ path.head? = some node ∧ path.getLast? = some start ∧
      ∀ fuel, path.length ≤ fuel → climb fuel parents node = some path := by
  induction h with
  | start hget =>
    refine ⟨List.nodup_singleton _, fun v hv => ?_, rfl, rfl, fun fuel hfuel => ?_⟩
    · obtain rfl := List.mem_singleton.mp hv
      exact Dict.get?_isSome_iff.mp (by rw [hget]; rfl)
    · obtain ⟨n, rfl⟩ := Nat.exists_eq_add_of_le' hfuel
      show climb (n + 1) parents start = _
      rw [climb, hget]
  | @next node parent path hget _ hnot ih =>
    obtain ⟨hnodup, hmem, hhead, hlast, hclimb⟩ := ih
    refine ⟨List.nodup_cons.mpr ⟨hnot, hnodup⟩, fun v hv => ?_, rfl, ?_, fun fuel hfuel => ?_⟩
    · rcases List.mem_cons.mp hv with rfl | hv
      · exact Dict.get?_isSome_iff.mp (by rw [hget]; rfl)
      · exact hmem v hv
    · cases path with
      | nil => nomatch hhead
      | cons first rest => exact hlast
    · cases fuel with
      | zero => nomatch hfuel
      | succ fuel =>
        rw [climb, hget]
        simp only [hclimb fuel (Nat.le_of_succ_le_succ hfuel), Option.map_some]

/-- A way back goes against the edges, where parents stand at their beginnings. -/
theorem Back.isChain {adj : V → List V} (hedges : ∀ v p, parents.get? v = some (some p) → v ∈ adj p) (h : Back start parents node path) :
    path.IsChain fun a b => Leads adj b a := by
  induction h with
  | start _ => exact .singleton _
  | next hget hback _ ih =>
    have hhead := hback.spec.2.2.1
    cases hback with
    | start _ => exact .cons_cons (hedges _ _ hget) ih
    | next _ _ _ => exact .cons_cons (hedges _ _ hget) ih

end Back

section Hunt

variable [LinearOrder V] {adj : V → List V} {members : List V} {start : V}

/-- What holds of the nodes come to: they are members, and there is a way back from each. -/
structure Known (adj : V → List V) (members : List V) (start : V) (parents : Dict V (Option V)) : Prop where
  begins : parents.get? start = some none
  mem : ∀ v ∈ parents, v ∈ members
  back : ∀ v ∈ parents, ∃ path, Back start parents v path
  edges : ∀ v p, parents.get? v = some (some p) → v ∈ adj p

/-- A new neighbour of a known node is known with it as its parent. -/
theorem Known.set {parents : Dict V (Option V)} (h : Known adj members start parents) {node neighbour : V} (hnode : node ∈ parents)
    (hedge : neighbour ∈ adj node) (hmem : neighbour ∈ members) (hnew : neighbour ∉ parents) :
    Known adj members start (parents.set neighbour (some node)) := by
  have hkeeps : ∀ v p, parents.get? v = some p → (parents.set neighbour (some node)).get? v = some p := by
    intro v p hget
    have hv : v ∈ parents := Dict.get?_isSome_iff.mp (by rw [hget]; rfl)
    rw [Dict.get?_set_of_ne _ _ (fun heq => hnew (by rwa [heq])), hget]
  refine ⟨hkeeps _ _ h.begins, fun v hv => ?_, fun v hv => ?_, fun v p hget => ?_⟩
  · rcases Dict.mem_set.mp hv with hv | rfl
    · exact h.mem v hv
    · exact hmem
  · rcases Dict.mem_set.mp hv with hv | rfl
    · obtain ⟨path, hback⟩ := h.back v hv
      exact ⟨path, hback.mono hkeeps⟩
    · obtain ⟨path, hback⟩ := h.back node hnode
      exact ⟨v :: path, .next (Dict.get?_set_self _ _ _) (hback.mono hkeeps) fun hin => hnew (hback.spec.2.1 v hin)⟩
  · rw [Dict.get?_set] at hget
    split at hget
    · rename_i heq
      obtain rfl := Option.some.inj (Option.some.inj hget)
      exact heq ▸ hedge
    · exact h.edges v p hget

/-- What looking at the neighbours of a node gives: more nodes come to, which stand in the queue. -/
structure Scanned (adj : V → List V) (members : List V) (start : V) (neighbours : List V) (front front' : Front V) : Prop where
  known : Known adj members start front'.parents
  keeps : ∀ v ∈ front.parents, v ∈ front'.parents
  looked : ∀ y ∈ neighbours, y ∈ members → y ≠ start ∧ y ∈ front'.parents
  queue : ∀ v ∈ front.queue, v ∈ front'.queue
  queued : ∀ v ∈ front'.queue, v ∈ front.queue ∨ v ∈ front'.parents
  fresh : ∀ v ∈ front'.parents, v ∈ front.parents ∨ v ∈ front'.queue
  count : front'.queue.length + front.parents.keys.length = front.queue.length + front'.parents.keys.length

theorem Scanned.step {neighbour : V} {rest : List V} {front front₁ front' : Front V}
    (hfirst : Scanned adj members start [neighbour] front front₁) (h : Scanned adj members start rest front₁ front') :
    Scanned adj members start (neighbour :: rest) front front' := by
  refine ⟨h.known, fun v hv => h.keeps v (hfirst.keeps v hv), fun y hy hmem => ?_, fun v hv => h.queue v (hfirst.queue v hv), fun v hv => ?_,
    fun v hv => ?_, ?_⟩
  · rcases List.mem_cons.mp hy with rfl | hy
    · have hlooked := hfirst.looked y (List.mem_singleton_self y) hmem
      exact ⟨hlooked.1, h.keeps y hlooked.2⟩
    · exact h.looked y hy hmem
  · rcases h.queued v hv with hv | hv
    · exact (hfirst.queued v hv).imp_right (h.keeps v)
    · exact .inr hv
  · rcases h.fresh v hv with hv | hv
    · exact (hfirst.fresh v hv).imp_right (h.queue v)
    · exact .inr hv
  · have hcount := hfirst.count
    have hcount' := h.count
    omega

/-- What comes of looking at the neighbours of a node: the beginning is among them, or more nodes are come to. -/
def Outcome (adj : V → List V) (members : List V) (start node : V) (neighbours : List V) (front : Front V) :
    Except (Dict V (Option V)) (Front V) → Prop
  | .error parents => start ∈ neighbours ∧ node ∈ parents ∧ Known adj members start parents
  | .ok front' => Scanned adj members start neighbours front front'

theorem Outcome.step {node neighbour : V} {rest : List V} {front front₁ : Front V} (hfirst : Scanned adj members start [neighbour] front front₁)
    {outcome : Except (Dict V (Option V)) (Front V)} (h : Outcome adj members start node rest front₁ outcome) :
    Outcome adj members start node (neighbour :: rest) front outcome := by
  cases outcome with
  | error parents => exact ⟨List.mem_cons_of_mem _ h.1, h.2⟩
  | ok front' => exact hfirst.step h

/-- A neighbour that is no member or has been come to changes nothing. -/
theorem Scanned.same {neighbour : V} {front : Front V} (h : Known adj members start front.parents)
    (hlooked : neighbour ∈ members → neighbour ≠ start ∧ neighbour ∈ front.parents) : Scanned adj members start [neighbour] front front :=
  { known := h
    keeps := fun _ => id
    looked := fun y hy hmem => by
      obtain rfl := List.mem_singleton.mp hy
      exact hlooked hmem
    queue := fun _ => id
    queued := fun _ => .inl
    fresh := fun _ => .inl
    count := rfl }

/-- A neighbour that is new is taken down. -/
theorem Scanned.new {node neighbour : V} {front : Front V} (h : Known adj members start front.parents) (hnode : node ∈ front.parents)
    (hedge : neighbour ∈ adj node) (hmem : neighbour ∈ members) (hne : neighbour ≠ start) (hnew : neighbour ∉ front.parents) :
    Scanned adj members start [neighbour] front
      { parents := front.parents.set neighbour (some node), queue := front.queue ++ [neighbour] } :=
  { known := h.set hnode hedge hmem hnew
    keeps := fun _ hv => Dict.mem_set.mpr (.inl hv)
    looked := fun y hy _ => by
      obtain rfl := List.mem_singleton.mp hy
      exact ⟨hne, Dict.mem_set.mpr (.inr rfl)⟩
    queue := fun _ hv => List.mem_append_left _ hv
    queued := fun v hv => by
      refine (List.mem_append.mp hv).imp_right fun hv => ?_
      exact Dict.mem_set.mpr (.inr (List.mem_singleton.mp hv))
    fresh := fun v hv => by
      refine (Dict.mem_set.mp hv).imp_right fun hv => ?_
      exact List.mem_append_right _ (List.mem_singleton.mpr hv)
    count := by
      have hkeys : (front.parents.set neighbour (some node)).keys = front.parents.keys ++ [neighbour] :=
        (Dict.keys_set _ _ _).trans (if_neg hnew)
      rw [hkeys, List.length_append, List.length_append, List.length_singleton]
      omega }

/-- The neighbours of a known node are looked at one after another. -/
theorem scan_outcome {node : V} {neighbours : List V} (hedges : ∀ y ∈ neighbours, y ∈ adj node) {front : Front V}
    (h : Known adj members start front.parents) (hnode : node ∈ front.parents) :
    Outcome adj members start node neighbours front (scan members start node neighbours front) := by
  induction neighbours generalizing front with
  | nil =>
    exact ⟨h, fun _ => id, fun _ hy => absurd hy List.not_mem_nil, fun _ => id, fun _ => .inl, fun _ => .inl, rfl⟩
  | cons neighbour rest ih =>
    have hrest := fun y hy => hedges y (List.mem_cons_of_mem _ hy)
    rw [scan]
    split
    · rename_i hout
      exact .step (.same h fun hmem => absurd hmem hout) (ih hrest h hnode)
    · rename_i hmem
      split
      · rename_i heq
        exact ⟨heq ▸ List.mem_cons_self, hnode, h⟩
      · rename_i hne
        split
        · rename_i hnew
          have hscanned := Scanned.new h hnode (hedges neighbour List.mem_cons_self) (not_not.mp hmem) hne hnew
          exact .step hscanned (ih hrest hscanned.known (hscanned.keeps node hnode))
        · rename_i hold
          exact .step (.same h fun _ => ⟨hne, not_not.mp hold⟩) (ih hrest h hnode)

/-- A cycle through a node, given by the nodes it comes to before it comes back: no node twice, only members, along the edges. -/
structure IsCycle (adj : V → List V) (members : List V) (start : V) (path : List V) : Prop where
  head : path.head? = some start
  nodup : path.Nodup
  mem : ∀ v ∈ path, v ∈ members
  edges : (path ++ [start]).IsChain (Leads adj)

/-- Where the beginning is a neighbour of a known node, the way back from that node is a cycle. -/
theorem Known.isCycle {parents : Dict V (Option V)} (h : Known adj members start parents) {node : V} (hnode : node ∈ parents)
    (hedge : start ∈ adj node) :
    ∃ path, climb parents.keys.length parents node = some path ∧ IsCycle adj members start path.reverse := by
  obtain ⟨path, hback⟩ := h.back node hnode
  obtain ⟨hnodup, hmem, hhead, hlast, hclimb⟩ := hback.spec
  have hlength := (List.subperm_of_subset hnodup hmem).length_le
  refine ⟨path, hclimb _ hlength, ?_, List.nodup_reverse.mpr hnodup, fun v hv => h.mem v (hmem v (List.mem_reverse.mp hv)), ?_⟩
  · rw [List.head?_reverse, hlast]
  · have hchain : path.reverse.IsChain (Leads adj) := List.isChain_reverse.mpr (hback.isChain h.edges)
    refine hchain.append (.singleton _) fun a ha b hb => ?_
    rw [List.getLast?_reverse, hhead] at ha
    obtain rfl := Option.some.inj ha
    obtain rfl := Option.some.inj hb
    exact hedge

/-- A node leads to another that is a member. -/
def Within (adj : V → List V) (members : List V) (a b : V) : Prop := b ∈ adj a ∧ b ∈ members

/-- What has been taken from the queue has been looked at. -/
def Looked (adj : V → List V) (members : List V) (start : V) (front : Front V) : Prop :=
  ∀ v ∈ front.parents, v ∉ front.queue → ∀ y ∈ adj v, y ∈ members → y ≠ start ∧ y ∈ front.parents

/-- While nothing has led back to the beginning, something is in the queue. -/
theorem Looked.queue_ne_nil {front : Front V} (h : Known adj members start front.parents) (hlooked : Looked adj members start front)
    {last : V} (hlast : Relation.ReflTransGen (Within adj members) start last) (hback : start ∈ adj last) (hstart : start ∈ members) :
    front.queue ≠ [] := by
  intro hnil
  have hempty : ∀ v, v ∉ front.queue := fun v => hnil ▸ List.not_mem_nil
  have hcome : ∀ v, Relation.ReflTransGen (Within adj members) start v → v ∈ front.parents := by
    intro v hv
    induction hv with
    | refl => exact Dict.get?_isSome_iff.mp (by rw [h.begins]; rfl)
    | tail _ hedge ih => exact (hlooked _ ih (hempty _) _ hedge.1 hedge.2).2
  exact (hlooked last (hcome last hlast) (hempty last) start hback hstart).1 rfl

/-- The loop over the queue finds a cycle, where the beginning leads back to itself among the members. -/
theorem hunt_spec {last : V} (hlast : Relation.ReflTransGen (Within adj members) start last) (hback : start ∈ adj last)
    (hstart : start ∈ members) {fuel : Nat} {front : Front V} (h : Known adj members start front.parents)
    (hqueue : ∀ v ∈ front.queue, v ∈ front.parents) (hlooked : Looked adj members start front)
    (hfuel : front.queue.length + members.length ≤ fuel + front.parents.keys.length) :
    ∃ path, hunt members start adj fuel front = some (path ++ [start]) ∧ IsCycle adj members start path := by
  induction fuel generalizing front with
  | zero =>
    have hlength : front.parents.keys.length ≤ members.length := (List.subperm_of_subset front.parents.nodup h.mem).length_le
    have hpos := List.length_pos_of_ne_nil (hlooked.queue_ne_nil h hlast hback hstart)
    omega
  | succ fuel ih =>
    cases hcons : front.queue with
    | nil => exact absurd hcons (hlooked.queue_ne_nil h hlast hback hstart)
    | cons node queue =>
      have hnode : node ∈ front.parents := hqueue node (hcons ▸ List.mem_cons_self)
      have houtcome : Outcome adj members start node (adj node) { front with queue := queue }
          (scan members start node (adj node) { front with queue := queue }) := scan_outcome (fun _ hy => hy) h hnode
      rw [hunt, hcons]
      dsimp only
      split
      · rename_i parents hscan
        rw [hscan] at houtcome
        obtain ⟨path, hclimb, hcycle⟩ := houtcome.2.2.isCycle houtcome.2.1 houtcome.1
        exact ⟨path.reverse, by rw [hclimb]; rfl, hcycle⟩
      · rename_i front' hscan
        rw [hscan] at houtcome
        have hcount := houtcome.count
        rw [hcons, List.length_cons] at hfuel
        refine ih houtcome.known (fun v hv => ?_) (fun v hv hnot y hy hmem => ?_) (by dsimp only at hcount; omega)
        · refine (houtcome.queued v hv).elim (fun hv => ?_) id
          exact houtcome.keeps v (hqueue v (hcons ▸ List.mem_cons_of_mem _ hv))
        · have hold : v ∈ front.parents := (houtcome.fresh v hv).resolve_right hnot
          by_cases hv' : v = node
          · exact houtcome.looked y (hv' ▸ hy) hmem
          · have hnot' : v ∉ front.queue := by
              rw [hcons, List.mem_cons, not_or]
              exact ⟨hv', fun hin => hnot (houtcome.queue v hin)⟩
            exact (hlooked v hold hnot' y hy hmem).imp_right (houtcome.keeps y)

omit [LinearOrder V] in
/-- Nodes that are linked are linked among the nodes they are linked with. -/
theorem reach_within (hmembers : ∀ v ∈ members, ∀ w, w ∈ members ↔ Linked adj v w) {a b : V} (ha : a ∈ members) (hab : Reaches adj a b)
    (hba : Reaches adj b a) : Relation.ReflTransGen (Within adj members) a b := by
  induction hab with
  | refl => exact .refl
  | @tail c d hac hcd ih =>
    have hca : Reaches adj c a := .head hcd hba
    exact (ih hca).tail ⟨hcd, (hmembers a ha d).mpr ⟨hac.tail hcd, hba⟩⟩

/-- In a strongly connected component with more than one node the search finds a cycle through the least of them. -/
theorem canonicalCycle_spec (hmembers : ∀ v ∈ members, ∀ w, w ∈ members ↔ Linked adj v w) {other : V} (hstart : start ∈ members)
    (hleast : ∀ v ∈ members, start ≤ v) (hother : other ∈ members) (hne : other ≠ start) :
    ∃ path, canonicalCycle adj members = some (path ++ [start]) ∧ IsCycle adj members start path := by
  have : Std.LawfulOrderMin V := { le_min_iff := fun _ _ _ => le_min_iff, min_eq_or := min_choice }
  have hmin : members.min? = some start := List.min?_eq_some_iff.mpr ⟨hstart, hleast⟩
  obtain ⟨hto, hfrom⟩ := (hmembers start hstart other).mp hother
  obtain heq | ⟨last, hlast, hedge⟩ := hfrom.cases_tail
  · exact absurd heq.symm hne
  · have hwithin := reach_within hmembers hstart (hto.trans hlast) (.single hedge)
    have hparents : ∀ v p, (Dict.empty.set start none : Dict V (Option V)).get? v = some p → v = start ∧ p = none := by
      intro v p hget
      rw [Dict.get?_set] at hget
      split at hget
      · rename_i heq
        exact ⟨heq.symm, (Option.some.inj hget).symm⟩
      · cases hget
    have hmem : ∀ v ∈ (Dict.empty.set start none : Dict V (Option V)), v = start := fun v hv =>
      (Dict.mem_set.mp hv).resolve_left List.not_mem_nil
    rw [canonicalCycle, hmin]
    refine hunt_spec hwithin hedge hstart ⟨Dict.get?_set_self _ _ _, fun v hv => ?_, fun v hv => ?_, fun v p hget => ?_⟩ (fun v hv => ?_)
      (fun v hv hnot => ?_) ?_
    · exact hmem v hv ▸ hstart
    · exact ⟨[start], hmem v hv ▸ .start (Dict.get?_set_self _ _ _)⟩
    · cases (hparents v (some p) hget).2
    · exact Dict.mem_set.mpr (.inr (List.mem_singleton.mp hv))
    · exact absurd (List.mem_singleton.mpr (hmem v hv)) hnot
    · exact Nat.le_of_eq (Nat.add_comm _ _)

end Hunt

end Front

end Py
