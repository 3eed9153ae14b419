import Mathlib.Data.List.Perm.Subperm
import Nl2Sql.Lib.Dict

/-!
# Depth-first search for cycles

A graph is a dictionary from a node to the nodes it leads to. The search visits a node with all that it leads to, and takes down a cycle
where it comes to a node that is under way. The recursion is bounded by an argument; the number of nodes is enough of it.
-/

namespace Py

universe u

/-- The state of a search: the nodes under way, those that are done, and the cycles found, each as its path and the node it closes at. -/
structure Search (κ : Type u) where
  visiting : List κ := []
  visited : List κ := []
  cycles : List (List κ × κ) := []

namespace Search

variable {κ : Type u}

/-- The nodes under way are different nodes of the graph, and so many that a bound of the recursion is not reached. -/
structure Within (graph : Dict κ (List κ)) (fuel : Nat) (s : Search κ) : Prop where
  nodup : s.visiting.Nodup
  keys : s.visiting ⊆ graph.keys
  bound : graph.keys.length < fuel + s.visiting.length

/-- One more node is under way. -/
theorem Within.push {graph : Dict κ (List κ)} {fuel : Nat} {s : Search κ} (h : Within graph (fuel + 1) s) {key : κ}
    (hkey : key ∈ graph.keys) (hfresh : key ∉ s.visiting) : Within graph fuel { s with visiting := key :: s.visiting } := by
  refine ⟨List.nodup_cons.mpr ⟨hfresh, h.nodup⟩, List.cons_subset.mpr ⟨hkey, h.keys⟩, ?_⟩
  have hbound := h.bound
  rw [List.length_cons]
  omega

/-- The recursion is not at its bound while a node is under way. -/
theorem Within.fuel_pos {graph : Dict κ (List κ)} {fuel : Nat} {s : Search κ} (h : Within graph fuel s) : 0 < fuel := by
  have hlength := (List.subperm_of_subset h.nodup h.keys).length_le
  have hbound := h.bound
  omega

variable [DecidableEq κ] (graph : Dict κ (List κ))

/-- The visit of a node that was come to along a path. -/
def visit : Nat → κ → List κ → Search κ → Search κ
  | 0, _, _, s => s
  | fuel + 1, key, path, s =>
    if key ∈ s.visiting then { s with cycles := s.cycles ++ [(path, key)] }
    else if key ∈ s.visited then s
    else
      match graph.get? key with
      | none => s
      | some targets =>
        let s' := targets.foldl (fun s target => visit fuel target (path ++ [key]) s) { s with visiting := key :: s.visiting }
        { s' with visiting := s'.visiting.erase key, visited := key :: s'.visited }

/-- The search from each of some nodes. -/
def visitAll (keys : List κ) : Search κ :=
  keys.foldl (fun s key => visit graph (graph.keys.length + 1) key [] s) {}

variable {graph}

/-- A node that is done and leads to itself has been taken down. -/
def Caught (graph : Dict κ (List κ)) (s : Search κ) : Prop :=
  ∀ key ∈ s.visited, ∀ targets, graph.get? key = some targets → key ∈ targets → s.cycles ≠ []

/-- What a visit does: it finds what there is to find and forgets nothing. -/
structure Visits (graph : Dict κ (List κ)) (s s' : Search κ) : Prop where
  visiting : s'.visiting = s.visiting
  cycles : s.cycles ⊆ s'.cycles
  visited : s.visited ⊆ s'.visited
  caught : Caught graph s → Caught graph s'

theorem Visits.refl (s : Search κ) : Visits graph s s := ⟨rfl, List.Subset.refl _, List.Subset.refl _, fun h => h⟩

theorem Visits.trans {a b c : Search κ} (h : Visits graph a b) (h' : Visits graph b c) : Visits graph a c :=
  ⟨h'.visiting.trans h.visiting, List.Subset.trans h.cycles h'.cycles, List.Subset.trans h.visited h'.visited,
    fun hcaught => h'.caught (h.caught hcaught)⟩

theorem Visits.within {s s' : Search κ} (h : Visits graph s s') {fuel : Nat} (hs : Within graph fuel s) : Within graph fuel s' :=
  ⟨h.visiting ▸ hs.nodup, h.visiting ▸ hs.keys, h.visiting ▸ hs.bound⟩

/-- What was found stays. -/
theorem Visits.ne_nil {s s' : Search κ} (h : Visits graph s s') (hs : s.cycles ≠ []) : s'.cycles ≠ [] := by
  obtain ⟨cycle, hcycle⟩ := List.exists_mem_of_ne_nil _ hs
  exact List.ne_nil_of_mem (h.cycles hcycle)

/-- Visits one after another. -/
theorem Visits.foldl {step : Search κ → κ → Search κ} {fuel : Nat} (hstep : ∀ s key, Within graph fuel s → Visits graph s (step s key))
    (keys : List κ) {s : Search κ} (hs : Within graph fuel s) : Visits graph s (keys.foldl step s) := by
  induction keys generalizing s with
  | nil => exact .refl s
  | cons key keys ih => exact (hstep s key hs).trans (ih ((hstep s key hs).within hs))

/-- Among visits one after another each comes about after some and before others. -/
theorem Visits.foldl_at {step : Search κ → κ → Search κ} {fuel : Nat} (hstep : ∀ s key, Within graph fuel s → Visits graph s (step s key))
    {keys : List κ} {key : κ} (hkey : key ∈ keys) {s : Search κ} (hs : Within graph fuel s) :
    ∃ before, Visits graph s before ∧ Visits graph (step before key) (keys.foldl step s) := by
  obtain ⟨first, last, rfl⟩ := List.append_of_mem hkey
  have hfirst := Visits.foldl hstep first hs
  refine ⟨first.foldl step s, hfirst, ?_⟩
  rw [List.foldl_append, List.foldl_cons]
  exact Visits.foldl hstep last ((hstep _ key (hfirst.within hs)).within (hfirst.within hs))

/-- A visit of a node under way finds a cycle. -/
theorem visit_visiting {fuel : Nat} {key : κ} {path : List κ} {s : Search κ} (h : key ∈ s.visiting) :
    (visit graph (fuel + 1) key path s).cycles ≠ [] := by
  rw [visit, if_pos h]
  exact List.append_ne_nil_of_right_ne_nil _ (List.cons_ne_nil _ _)

theorem visit_visits (fuel : Nat) (key : κ) (path : List κ) {s : Search κ} (hs : Within graph fuel s) :
    Visits graph s (visit graph fuel key path s) := by
  induction fuel generalizing key path s with
  | zero => exact .refl s
  | succ fuel ih =>
    rw [visit]
    split
    · exact ⟨rfl, List.subset_append_left _ _, List.Subset.refl _,
        fun _ _ _ _ _ _ => List.append_ne_nil_of_right_ne_nil _ (List.cons_ne_nil _ _)⟩
    · rename_i hfresh
      split
      · exact .refl s
      · split
        · exact .refl s
        · rename_i targets htargets
          have hkey : key ∈ graph.keys := by
            rw [← Dict.get?_isSome_iff, htargets]
            rfl
          have hpush := hs.push hkey hfresh
          have hstep : ∀ (s : Search κ) target, Within graph fuel s → Visits graph s (visit graph fuel target (path ++ [key]) s) :=
            fun s target hs => ih target (path ++ [key]) hs
          have hvisits := Visits.foldl hstep targets hpush
          refine ⟨?_, hvisits.cycles, fun k hk => List.mem_cons_of_mem _ (hvisits.visited hk), fun hcaught => ?_⟩
          · exact (congrArg (fun visiting => visiting.erase key) hvisits.visiting).trans (List.erase_cons_head key s.visiting)
          · intro k hk targets' htargets' hloop
            rcases List.mem_cons.mp hk with rfl | hk
            · -- among the nodes it leads to the search comes to the node itself, which is under way
              obtain rfl := Option.some.inj (htargets.symm.trans htargets')
              obtain ⟨before, hbefore, hafter⟩ := Visits.foldl_at hstep hloop hpush
              obtain ⟨n, rfl⟩ := Nat.exists_eq_succ_of_ne_zero (Nat.pos_iff_ne_zero.mp hpush.fuel_pos)
              have hvisiting : k ∈ before.visiting := by
                rw [hbefore.visiting]
                exact List.mem_cons_self
              exact hafter.ne_nil (visit_visiting hvisiting)
            · exact hvisits.caught (fun k' hk' => hcaught k' hk') k hk targets' htargets' hloop

/-- A node of the graph is under way or done after its visit. -/
theorem mem_visit (fuel : Nat) {key : κ} (path : List κ) (s : Search κ) (hkey : key ∈ graph.keys) :
    key ∈ s.visiting ∨ key ∈ (visit graph (fuel + 1) key path s).visited := by
  rw [visit]
  split
  · rename_i hvisiting
    exact .inl hvisiting
  · split
    · rename_i hvisited
      exact .inr hvisited
    · split
      · rename_i hnone
        rw [← Dict.get?_isSome_iff, hnone] at hkey
        nomatch hkey
      · exact .inr List.mem_cons_self

/-- A node that leads to itself is found. -/
theorem visitAll_self {keys : List κ} {key : κ} (hkey : key ∈ keys) {targets : List κ} (htargets : graph.get? key = some targets)
    (hloop : key ∈ targets) : (visitAll graph keys).cycles ≠ [] := by
  have hs : Within graph (graph.keys.length + 1) ({} : Search κ) := ⟨List.nodup_nil, List.nil_subset _, by simp⟩
  have hstep : ∀ (s : Search κ) key, Within graph (graph.keys.length + 1) s →
      Visits graph s (visit graph (graph.keys.length + 1) key [] s) := fun s key hs => visit_visits _ key [] hs
  obtain ⟨before, hbefore, hafter⟩ := Visits.foldl_at hstep hkey hs
  have hin : key ∈ graph.keys := by
    rw [← Dict.get?_isSome_iff, htargets]
    rfl
  have hdone := (mem_visit graph.keys.length [] before hin).resolve_left fun hvisiting => by
    rw [hbefore.visiting] at hvisiting
    nomatch hvisiting
  have hcaught := (Visits.foldl hstep keys hs).caught fun key hkey => (nomatch hkey)
  exact hcaught key (hafter.visited hdone) targets htargets hloop

/-! ## Cycles -/

/-- An edge of the graph. -/
def Edge (graph : Dict κ (List κ)) (a b : κ) : Prop := ∃ targets, graph.get? a = some targets ∧ b ∈ targets

/-- Some node leads back to itself. -/
def Circular (graph : Dict κ (List κ)) : Prop := ∃ key, Relation.TransGen (Edge graph) key key

/-- The nodes under way lead to the one that came last. -/
theorem reaches_head {visiting : List κ} (hchain : visiting.IsChain fun a b => Edge graph b a) {head key : κ} (hhead : visiting.head? = some head)
    (hkey : key ∈ visiting) : Relation.ReflTransGen (Edge graph) key head := by
  induction visiting generalizing head with
  | nil => nomatch hhead
  | cons first rest ih =>
    obtain rfl := Option.some.inj hhead
    rcases List.mem_cons.mp hkey with rfl | hkey
    · exact .refl
    · cases rest with
      | nil => exact absurd hkey List.not_mem_nil
      | cons second rest =>
        obtain ⟨hedge, hrest⟩ := List.isChain_cons_cons.mp hchain
        exact (ih hrest rfl hkey).tail hedge

/-- A cycle that is taken down is one: the nodes under way lead to the node that is visited. -/
theorem visit_circular (fuel : Nat) (key : κ) (path : List κ) {s : Search κ} (hs : Within graph fuel s)
    (hchain : s.visiting.IsChain fun a b => Edge graph b a) (hhead : ∀ head, s.visiting.head? = some head → Edge graph head key)
    (h : s.cycles = [] ∨ Circular graph) : (visit graph fuel key path s).cycles = [] ∨ Circular graph := by
  induction fuel generalizing key path s with
  | zero => exact h
  | succ fuel ih =>
    rw [visit]
    split
    · rename_i hvisiting
      cases hcons : s.visiting with
      | nil => exact absurd hvisiting (hcons ▸ List.not_mem_nil)
      | cons head rest =>
        have hlast : s.visiting.head? = some head := by rw [hcons, List.head?_cons]
        exact .inr ⟨key, .tail' (reaches_head hchain hlast hvisiting) (hhead head hlast)⟩
    · rename_i hfresh
      split
      · exact h
      · split
        · exact h
        · rename_i targets htargets
          have hkey : key ∈ graph.keys := by
            rw [← Dict.get?_isSome_iff, htargets]
            rfl
          have hfold : ∀ rest ⊆ targets, ∀ t : Search κ, Within graph fuel t → t.visiting = key :: s.visiting →
              (t.cycles = [] ∨ Circular graph) →
              (rest.foldl (fun s target => visit graph fuel target (path ++ [key]) s) t).cycles = [] ∨ Circular graph := by
            intro rest hrest t ht hvisiting hcycles
            induction rest generalizing t with
            | nil => exact hcycles
            | cons target rest ihrest =>
              have hvisits := visit_visits fuel target (path ++ [key]) ht
              refine ihrest (fun v hv => hrest (List.mem_cons_of_mem _ hv)) _ (hvisits.within ht) (hvisits.visiting.trans hvisiting) ?_
              refine ih target (path ++ [key]) ht ?_ ?_ hcycles
              · rw [hvisiting]
                cases hcons : s.visiting with
                | nil => exact .singleton key
                | cons head rest' => exact .cons_cons (hhead head (hcons ▸ rfl)) (hcons ▸ hchain)
              · intro head hlast
                rw [hvisiting, List.head?_cons] at hlast
                exact Option.some.inj hlast ▸ ⟨targets, htargets, hrest List.mem_cons_self⟩
          exact hfold targets (List.Subset.refl _) _ (hs.push hkey hfresh) rfl h

/-- No descent from a node that is done goes on for ever. -/
def Founded (graph : Dict κ (List κ)) (s : Search κ) : Prop := ∀ v ∈ s.visited, Acc (fun b a => Edge graph a b) v

/-- Visits one after another that find no cycle keep it so that no descent goes on for ever, if each does. -/
theorem Visits.foldl_founded {step : Search κ → κ → Search κ} {fuel : Nat} (hstep : ∀ s key, Within graph fuel s → Visits graph s (step s key))
    (hfounded : ∀ s key, Within graph fuel s → Founded graph s → (step s key).cycles = [] → Founded graph (step s key)) (keys : List κ)
    {s : Search κ} (hs : Within graph fuel s) (h : Founded graph s) (hnone : (keys.foldl step s).cycles = []) :
    Founded graph (keys.foldl step s) := by
  induction keys generalizing s with
  | nil => exact h
  | cons key keys ih =>
    have hvisits := hstep s key hs
    have hrest := Visits.foldl hstep keys (hvisits.within hs)
    refine ih (hvisits.within hs) (hfounded s key hs h ?_) hnone
    exact List.eq_nil_iff_forall_not_mem.mpr fun c hc => absurd (hrest.cycles hc) (hnone ▸ List.not_mem_nil)

/-- While no cycle is found, no descent from a node that is done goes on for ever. -/
theorem visit_founded (fuel : Nat) (key : κ) (path : List κ) {s : Search κ} (hs : Within graph fuel s) (h : Founded graph s)
    (hnone : (visit graph fuel key path s).cycles = []) : Founded graph (visit graph fuel key path s) := by
  induction fuel generalizing key path s with
  | zero => exact h
  | succ fuel ih =>
    rw [visit] at hnone ⊢
    by_cases hvisiting : key ∈ s.visiting
    · rw [if_pos hvisiting]
      exact h
    rw [if_neg hvisiting] at hnone ⊢
    by_cases hvisited : key ∈ s.visited
    · rw [if_pos hvisited]
      exact h
    rw [if_neg hvisited] at hnone ⊢
    cases htargets : graph.get? key with
    | none => exact h
    | some targets =>
      rw [htargets] at hnone
      have hpush := hs.push (Dict.get?_isSome_iff.mp (by rw [htargets]; rfl)) hvisiting
      have hstep : ∀ (s : Search κ) target, Within graph fuel s → Visits graph s (visit graph fuel target (path ++ [key]) s) :=
        fun s target hs => visit_visits fuel target (path ++ [key]) hs
      have hdone := Visits.foldl_founded hstep (fun s target hs => ih target (path ++ [key]) hs) targets hpush h hnone
      intro v hv
      rcases List.mem_cons.mp hv with rfl | hv
      · refine Acc.intro v fun target hedge => ?_
        obtain ⟨targets', htargets', hmem⟩ := hedge
        obtain rfl := Option.some.inj (htargets.symm.trans htargets')
        by_cases hgraph : target ∈ graph.keys
        · -- the visit of the target found no cycle, so the target was not under way and is done
          obtain ⟨before, -, hafter⟩ := Visits.foldl_at hstep hmem hpush
          obtain ⟨n, rfl⟩ := Nat.exists_eq_succ_of_ne_zero (Nat.pos_iff_ne_zero.mp hpush.fuel_pos)
          refine hdone target (hafter.visited ((mem_visit n _ before hgraph).resolve_left fun hvisiting => ?_))
          exact hafter.ne_nil (visit_visiting hvisiting) hnone
        · refine Acc.intro target fun b hb => ?_
          obtain ⟨_, hget, -⟩ := hb
          exact absurd (Dict.get?_isSome_iff.mp (by rw [hget]; rfl)) hgraph
      · exact hdone v hv

omit [DecidableEq κ] in
/-- Nothing from which no descent goes on for ever is below itself. -/
theorem not_self_of_acc {r : κ → κ → Prop} {a : κ} (h : Acc r a) : ¬r a a := by
  induction h with
  | intro a _ ih => exact fun hself => ih a hself hself

/-- The search finds a cycle exactly where there is one. -/
theorem visitAll_cycles_iff {keys : List κ} (hkeys : graph.keys ⊆ keys) : (visitAll graph keys).cycles ≠ [] ↔ Circular graph := by
  have hs : Within graph (graph.keys.length + 1) ({} : Search κ) := ⟨List.nodup_nil, List.nil_subset _, by simp⟩
  have hstep : ∀ (s : Search κ) key, Within graph (graph.keys.length + 1) s →
      Visits graph s (visit graph (graph.keys.length + 1) key [] s) := fun s key hs => visit_visits _ key [] hs
  constructor
  · have hfold : ∀ (rest : List κ) (t : Search κ), Within graph (graph.keys.length + 1) t → t.visiting = [] →
        (t.cycles = [] ∨ Circular graph) →
        (rest.foldl (fun s key => visit graph (graph.keys.length + 1) key [] s) t).cycles = [] ∨ Circular graph := by
      intro rest
      induction rest with
      | nil => exact fun _ _ _ h => h
      | cons key rest ih =>
        intro t ht hvisiting hcycles
        have hvisits := hstep t key ht
        refine ih _ (hvisits.within ht) (hvisits.visiting.trans hvisiting) (visit_circular _ key [] ht ?_ ?_ hcycles)
        · rw [hvisiting]
          exact .nil
        · rw [hvisiting]
          nofun
    exact fun hne => (hfold keys {} hs rfl (.inl rfl)).resolve_left hne
  · rintro ⟨key, hcycle⟩ hnone
    have hacc := Visits.foldl_founded hstep (fun s key hs => visit_founded _ key [] hs) keys hs (fun v hv => (nomatch hv)) hnone
    obtain ⟨b, ⟨targets, hget, -⟩, -⟩ := Relation.TransGen.head'_iff.mp hcycle
    have hgraph : key ∈ graph.keys := Dict.get?_isSome_iff.mp (by rw [hget]; rfl)
    obtain ⟨before, hbefore, hafter⟩ := Visits.foldl_at hstep (hkeys hgraph) hs
    have hdone := (mem_visit graph.keys.length [] before hgraph).resolve_left fun hvisiting => by
      rw [hbefore.visiting] at hvisiting
      nomatch hvisiting
    exact not_self_of_acc (hacc key (hafter.visited hdone)).transGen (Relation.transGen_swap.mpr hcycle)

end Search

end Py
