import Mathlib.Order.WellFoundedSet

/-!
# Peeling a dependency graph

Nodes that have keys and name the keys they depend on. The loop resolves what depends on nothing that is unresolved, round after round,
and gives up when nothing is ready. It gets through exactly where no node comes, over some others, before itself.
-/

namespace Py

universe u v

section Peel

variable {N : Type u} {ι : Type v} (key : N → ι) (deps : N → List ι)

/-- One node comes before another, among some nodes: the other depends on it. -/
def ComesBefore (nodes : List N) (first second : N) : Prop := first ∈ nodes ∧ second ∈ nodes ∧ key first ∈ deps second

/-- No node comes, over some others, before itself. -/
def Acyclic (nodes : List N) : Prop := ∀ node, ¬Relation.TransGen (ComesBefore key deps nodes) node node

/-- Without a cycle, no descent among finitely many nodes goes on for ever; and where none does there is no cycle. -/
theorem acyclic_iff_wellFounded (nodes : List N) : Acyclic key deps nodes ↔ WellFounded (ComesBefore key deps nodes) := by
  constructor
  · intro h
    have : IsStrictOrder N (Relation.TransGen (ComesBefore key deps nodes)) :=
      { irrefl := h, trans := fun _ _ _ => Relation.TransGen.trans }
    have hfinite := (List.finite_toSet nodes).wellFoundedOn (r := Relation.TransGen (ComesBefore key deps nodes))
    exact Subrelation.wf (fun h => ⟨.single h, h.1, h.2.1⟩) (Set.wellFoundedOn_iff.mp hfinite)
  · exact fun h node hcycle => h.transGen.irrefl.irrefl node hcycle

/-- Where every node has a rank above those of the nodes it depends on, there is no cycle. -/
theorem acyclic_of_rank {key : N → ι} {deps : N → List ι} {nodes : List N} (rank : N → Nat)
    (h : ∀ first second, ComesBefore key deps nodes first second → rank first < rank second) : Acyclic key deps nodes := by
  rw [acyclic_iff_wellFounded]
  exact Subrelation.wf (h _ _) (measure rank).wf

variable [DecidableEq ι]

/-- The loop over the nodes that are pending: what is ready is resolved together, and the loop fails where nothing is ready. The first
argument bounds the rounds; a round resolves a node. -/
def peel : Nat → List N → List ι → Bool
  | _, [], _ => true
  | 0, _ :: _, _ => false
  | rounds + 1, pending, resolved =>
    let ready := pending.filter fun node => (deps node).all (· ∈ resolved)
    if ready.isEmpty then
      false
    else
      peel rounds (pending.filter fun node => !(deps node).all (· ∈ resolved)) (resolved ++ ready.map key)

variable {key deps}

/-- A round of the loop: something is ready, and the loop gets through with what is not. -/
theorem peel_cons {rounds : Nat} {node : N} {pending : List N} {resolved : List ι} :
    peel key deps (rounds + 1) (node :: pending) resolved = true ↔
      ((node :: pending).filter fun n => (deps n).all (· ∈ resolved)) ≠ [] ∧
      peel key deps rounds ((node :: pending).filter fun n => !(deps n).all (· ∈ resolved))
        (resolved ++ ((node :: pending).filter fun n => (deps n).all (· ∈ resolved)).map key) = true := by
  simp only [peel]
  by_cases hready : ((node :: pending).filter fun n => (deps n).all (· ∈ resolved)) = []
  · simp [hready]
  · rw [if_neg (by simpa using hready)]
    exact ⟨fun h => ⟨hready, h⟩, fun h => h.2⟩

/-- Where the loop gets through, no descent from a pending node goes on for ever, if none does from a resolved one. -/
theorem acc_of_peel {nodes : List N} (hkeys : (nodes.map key).Nodup) {rounds : Nat} {pending : List N} {resolved : List ι}
    (hpeel : peel key deps rounds pending resolved = true) (hpending : pending ⊆ nodes)
    (hresolved : ∀ node ∈ nodes, key node ∈ resolved → Acc (ComesBefore key deps nodes) node) :
    ∀ node ∈ pending, Acc (ComesBefore key deps nodes) node := by
  induction rounds generalizing pending resolved with
  | zero =>
    cases pending with
    | nil => exact fun node hnode => absurd hnode List.not_mem_nil
    | cons node pending => nomatch hpeel
  | succ rounds ih =>
    cases pending with
    | nil => exact fun node hnode => absurd hnode List.not_mem_nil
    | cons first rest =>
      obtain ⟨-, hrest⟩ := peel_cons.mp hpeel
      have hready : ∀ node ∈ (first :: rest).filter fun n => (deps n).all (· ∈ resolved),
          Acc (ComesBefore key deps nodes) node := by
        intro node hnode
        obtain ⟨-, hall⟩ := List.mem_filter.mp hnode
        refine Acc.intro node fun before hbefore => hresolved before hbefore.1 ?_
        exact of_decide_eq_true (List.all_eq_true.mp hall _ hbefore.2.2)
      have hlater := ih hrest (fun node hnode => hpending (List.mem_filter.mp hnode).1) ?_
      · intro node hnode
        by_cases hall : (deps node).all (· ∈ resolved) = true
        · exact hready node (List.mem_filter.mpr ⟨hnode, hall⟩)
        · exact hlater node (List.mem_filter.mpr ⟨hnode, by simpa using hall⟩)
      · intro node hnode hkey
        rcases List.mem_append.mp hkey with hkey | hkey
        · exact hresolved node hnode hkey
        · obtain ⟨other, hother, heq⟩ := List.mem_map.mp hkey
          rw [← List.inj_on_of_nodup_map hkeys (hpending (List.mem_filter.mp hother).1) hnode heq]
          exact hready other hother

/-- Where no descent goes on for ever, the loop gets through in as many rounds as there are nodes. -/
theorem peel_of_wellFounded {nodes : List N} (hwf : WellFounded (ComesBefore key deps nodes)) {rounds : Nat} {pending : List N}
    {resolved : List ι} (hrounds : pending.length ≤ rounds) (hpending : pending ⊆ nodes)
    (hknown : ∀ node ∈ pending, ∀ d ∈ deps node, d ∈ resolved ∨ d ∈ pending.map key) :
    peel key deps rounds pending resolved = true := by
  induction rounds generalizing pending resolved with
  | zero =>
    cases pending with
    | nil => rfl
    | cons node pending => nomatch hrounds
  | succ rounds ih =>
    cases pending with
    | nil => rfl
    | cons first rest =>
      -- a node before which no pending one comes has only resolved dependencies
      obtain ⟨least, hleast, hnone⟩ := hwf.has_min { node | node ∈ first :: rest } ⟨first, List.mem_cons_self⟩
      have hall : (deps least).all (· ∈ resolved) = true := by
        rw [List.all_eq_true]
        intro d hd
        rcases hknown least hleast d hd with hd' | hd'
        · exact decide_eq_true hd'
        · obtain ⟨before, hbefore, rfl⟩ := List.mem_map.mp hd'
          exact absurd ⟨hpending hbefore, hpending hleast, hd⟩ (hnone before hbefore)
      have hready : least ∈ (first :: rest).filter fun n => (deps n).all (· ∈ resolved) := List.mem_filter.mpr ⟨hleast, hall⟩
      refine peel_cons.mpr ⟨List.ne_nil_of_mem hready, ih ?_ (fun node hnode => hpending (List.mem_filter.mp hnode).1) ?_⟩
      · have hlt : ((first :: rest).filter fun n => !(deps n).all (· ∈ resolved)).length < (first :: rest).length :=
          List.length_filter_lt_length_iff_exists.mpr ⟨least, hleast, by simp [hall]⟩
        omega
      · intro node hnode d hd
        rcases hknown node (List.mem_filter.mp hnode).1 d hd with hd' | hd'
        · exact .inl (List.mem_append_left _ hd')
        · obtain ⟨before, hbefore, rfl⟩ := List.mem_map.mp hd'
          by_cases hall : (deps before).all (· ∈ resolved) = true
          · exact .inl (List.mem_append_right _ (List.mem_map_of_mem (List.mem_filter.mpr ⟨hbefore, hall⟩)))
          · exact .inr (List.mem_map_of_mem (List.mem_filter.mpr ⟨hbefore, by simpa using hall⟩))

/-- The loop gets through exactly where there is no cycle. -/
theorem peel_iff_acyclic {nodes : List N} (hkeys : (nodes.map key).Nodup)
    (hknown : ∀ node ∈ nodes, ∀ d ∈ deps node, d ∈ nodes.map key) :
    peel key deps nodes.length nodes [] = true ↔ Acyclic key deps nodes := by
  rw [acyclic_iff_wellFounded]
  constructor
  · intro h
    have hacc := acc_of_peel hkeys h (List.Subset.refl nodes) fun node _ hkey => absurd hkey List.not_mem_nil
    refine ⟨fun node => Acc.intro node fun before hbefore => hacc before hbefore.1⟩
  · intro h
    exact peel_of_wellFounded h (Nat.le_refl _) (List.Subset.refl nodes) fun node hnode d hd => .inr (hknown node hnode d hd)

end Peel

end Py
