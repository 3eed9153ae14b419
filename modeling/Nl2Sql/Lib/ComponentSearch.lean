import Mathlib.Algebra.Order.BigOperators.Group.List
import Mathlib.Algebra.Order.Group.Nat
import Nl2Sql.Lib.Components

/-!
# The component search finds the components

Each round keeps the invariant and leaves less to do, so the search ends; what is out then is what the graph falls into.
-/

namespace Py

namespace Tarjan

universe u

variable {V : Type u} [LinearOrder V] {adj : V → List V}

/-- What holds of the marks and of the components that are out, whatever the work. -/
structure Core (adj : V → List V) (nodes : List V) (s : Tarjan V) : Prop where
  sorted : s.stack.Pairwise fun a b => s.num b < s.num a
  onStack : ∀ v, v ∈ s.onStack ↔ v ∈ s.stack
  counted : ∀ v ∈ s.index, s.num v < s.counter
  known : ∀ v ∈ s.index, v ∈ nodes
  split : ∀ v, v ∈ s.index ↔ v ∈ s.stack ∨ v ∈ s.components.flatten
  nodup : (s.stack ++ s.components.flatten).Nodup
  closed : ∀ v ∈ s.components.flatten, ∀ y ∈ adj v, y ∈ s.components.flatten
  strong : ∀ component ∈ s.components, component ≠ [] ∧ component.Pairwise (· ≤ ·) ∧
    ∀ v ∈ component, ∀ w, w ∈ component ↔ Linked adj v w

/-- A node that is yet to be discovered is on top of the work, over the segments of those under way. -/
structure Pending (adj : V → List V) (nodes : List V) (node : V) (rest : List (V × Nat)) (s : Tarjan V) : Prop where
  fresh : node ∉ s.index
  known : node ∈ nodes
  entered : Entered adj rest node
  frames : Frames adj (fun v => v ∈ s.index ∨ v = node) s.num s.lowest rest s.stack

/-- What holds of the work when a round begins. -/
def Path (adj : V → List V) (nodes : List V) (s : Tarjan V) : Prop :=
  match s.work with
  | (node, 0) :: rest => Pending adj nodes node rest s
  | work => Frames adj (· ∈ s.index) s.num s.lowest work s.stack

/-- The invariant of the loop. -/
structure Inv (adj : V → List V) (nodes : List V) (s : Tarjan V) : Prop where
  core : Core adj nodes s
  path : Path adj nodes s

theorem num_discover (node v : V) (s : Tarjan V) : (s.discover node).num v = if node = v then s.counter else s.num v := by
  rw [num, discover, Dict.get?_set, num]
  split <;> rfl

theorem lowest_discover (node v : V) (s : Tarjan V) : (s.discover node).lowest v = if node = v then s.counter else s.lowest v := by
  rw [lowest, discover, Dict.get?_set, lowest]
  split <;> rfl

theorem lowest_lower (node v : V) (bound : Nat) (s : Tarjan V) :
    (s.lower node bound).lowest v = if node = v then min (s.lowest node) bound else s.lowest v := by
  rw [lowest, lower, Dict.get?_set]
  split <;> rfl

variable {nodes : List V}

/-- Work that is not at its beginning is that of the nodes under way. -/
theorem path_of_frames {s : Tarjan V} (hplace : ∀ top ∈ s.work.head?, top.2 ≠ 0)
    (h : Frames adj (· ∈ s.index) s.num s.lowest s.work s.stack) : Path adj nodes s := by
  unfold Path
  split
  · rename_i node rest hwork
    exact absurd rfl (hplace (node, 0) (by rw [hwork]; rfl))
  · exact h

/-- Work that is at its beginning waits for its discovery. -/
theorem Path.pending {s : Tarjan V} {node : V} {rest : List (V × Nat)} (h : Path adj nodes s)
    (hwork : s.work = (node, 0) :: rest) : Pending adj nodes node rest s := by
  rwa [Path, hwork] at h

theorem Path.frames {s : Tarjan V} (h : Path adj nodes s) (hplace : ∀ top ∈ s.work.head?, top.2 ≠ 0) :
    Frames adj (· ∈ s.index) s.num s.lowest s.work s.stack := by
  unfold Path at h
  split at h
  · rename_i node rest hwork
    exact absurd rfl (hplace (node, 0) (by rw [hwork]; rfl))
  · exact h

/-- The marks and the components hold of a state that differs in its work or in its lowest indices. -/
theorem Core.of_eq {s s' : Tarjan V} (h : Core adj nodes s) (hindex : s'.index = s.index) (hcounter : s'.counter = s.counter)
    (hstack : s'.stack = s.stack) (honStack : s'.onStack = s.onStack) (hcomponents : s'.components = s.components) : Core adj nodes s' := by
  obtain ⟨index, low, onStack, stack, components, counter, work⟩ := s
  obtain ⟨index', low', onStack', stack', components', counter', work'⟩ := s'
  subst hindex hcounter hstack honStack hcomponents
  exact ⟨h.sorted, h.onStack, h.counted, h.known, h.split, h.nodup, h.closed, h.strong⟩

/-- A node that waits is discovered. -/
theorem Core.discover {node : V} {rest : List (V × Nat)} {s : Tarjan V} (h : Core adj nodes s) (hpending : Pending adj nodes node rest s) :
    Core adj nodes (s.discover node) ∧
      Frames adj (· ∈ (s.discover node).index) (s.discover node).num (s.discover node).lowest ((node, 0) :: rest)
        (s.discover node).stack := by
  have hne : ∀ v ∈ s.index, node ≠ v := fun v hv heq => hpending.fresh (heq ▸ hv)
  have hstack : ∀ v ∈ s.stack, v ∈ s.index := fun v hv => (h.split v).mpr (.inl hv)
  have hnum : ∀ v ∈ s.index, (s.discover node).num v = s.num v := fun v hv => by rw [num_discover, if_neg (hne v hv)]
  have hlow : ∀ v ∈ s.index, (s.discover node).lowest v = s.lowest v := fun v hv => by rw [lowest_discover, if_neg (hne v hv)]
  have hself : (s.discover node).num node = s.counter := by rw [num_discover, if_pos rfl]
  have hmem : ∀ v, v ∈ (s.discover node).index ↔ v ∈ s.index ∨ v = node := fun v => Dict.mem_set
  constructor
  · refine ⟨?_, ?_, ?_, ?_, ?_, ?_, h.closed, h.strong⟩
    · refine List.pairwise_cons.mpr ⟨fun v hv => ?_, h.sorted.imp_of_mem fun {a b} ha hb hlt => ?_⟩
      · rw [hself, hnum v (hstack v hv)]
        exact h.counted v (hstack v hv)
      · rwa [hnum a (hstack a ha), hnum b (hstack b hb)]
    · intro v
      rw [Tarjan.discover, List.mem_cons, List.mem_cons, h.onStack]
    · intro v hv
      rcases (hmem v).mp hv with hv | rfl
      · rw [hnum v hv]
        exact (h.counted v hv).trans (Nat.lt_succ_self _)
      · rw [hself]
        exact Nat.lt_succ_self _
    · intro v hv
      rcases (hmem v).mp hv with hv | rfl
      · exact h.known v hv
      · exact hpending.known
    · intro v
      rw [hmem, h.split, Tarjan.discover, List.mem_cons]
      tauto
    · refine List.nodup_cons.mpr ⟨fun hnode => hpending.fresh ((h.split node).mpr (List.mem_append.mp hnode)), h.nodup⟩
  · refine ⟨[], s.stack, rfl, ?_, hpending.entered, ?_⟩
    · refine ⟨?_, ?_, ?_, ?_, ⟨node, List.mem_cons_self, ?_, .refl⟩, ?_, ?_, ?_⟩
      case refine_5 => rw [hself, lowest_discover, if_pos rfl]
      all_goals simp
    · exact hpending.frames.congr (fun v hv => (hmem v).mpr hv) (fun v hv => hnum v (hstack v hv)) fun v hv => hlow v (hstack v hv)

/-- The next neighbour of the node on top is waited for, or it is taken into account. -/
theorem Inv.follow (hnodes : ∀ v ∈ nodes, ∀ y ∈ adj v, y ∈ nodes) {node neighbour : V} {position : Nat}
    {rest : List (V × Nat)} {s : Tarjan V} (h : Core adj nodes s)
    (hframes : Frames adj (· ∈ s.index) s.num s.lowest ((node, position) :: rest) s.stack)
    (hneighbour : (adj node)[position]? = some neighbour) : Inv adj nodes (s.follow node position neighbour rest) := by
  obtain ⟨segment, below, hstack, hframe, hentered, hrest⟩ := hframes
  have hmem : ∀ v, v ∈ s.stack → v ∈ s.index := fun v hv => (h.split v).mpr (.inl hv)
  have hnode : node ∈ s.stack := hstack ▸ List.mem_append_right _ List.mem_cons_self
  have hbelow : ∀ v ∈ below, v ∈ s.stack := fun v hv => hstack ▸ List.mem_append_right _ (List.mem_cons_of_mem _ hv)
  have hsorted := h.sorted
  rw [hstack] at hsorted
  obtain ⟨-, hsorted_below, hsorted_above⟩ := List.pairwise_append.mp hsorted
  have hne_below : ∀ v ∈ below, node ≠ v := by
    rintro v hv rfl
    exact lt_irrefl _ ((List.pairwise_cons.mp hsorted_below).1 node hv)
  have hne_segment : ∀ v ∈ segment, node ≠ v := by
    rintro v hv rfl
    exact lt_irrefl _ (hsorted_above node hv node List.mem_cons_self)
  -- a neighbour on the stack whose index is not above the lowest of the node is not in its segment, or it is the node
  have hwhere : neighbour ∈ s.onStack → s.num neighbour ≤ s.lowest node → neighbour ∈ node :: below := by
    intro hon hle
    have hneighbour_mem := (h.onStack neighbour).mp hon
    rw [hstack] at hneighbour_mem
    refine (List.mem_append.mp hneighbour_mem).resolve_left fun hsegment => ?_
    have hgt := hsorted_above neighbour hsegment node List.mem_cons_self
    have hself := hframe.self_le (List.pairwise_cons.mp hsorted_below).1
    omega
  unfold Tarjan.follow
  by_cases hseen : neighbour ∈ s.index
  · rw [if_neg (not_not_intro hseen)]
    by_cases hon : neighbour ∈ s.onStack
    · rw [if_pos hon]
      refine ⟨h.of_eq rfl rfl rfl rfl rfl, path_of_frames (fun top htop => ?_) ?_⟩
      · obtain rfl := Option.some.inj htop
        exact Nat.succ_ne_zero position
      · refine ⟨segment, below, hstack, ?_, hentered, hrest.congr (fun _ => id) (fun _ _ => rfl) fun v hv => ?_⟩
        · have hlow : (Tarjan.lower node (s.num neighbour) s).lowest node = min (s.lowest node) (s.num neighbour) := by
            rw [lowest_lower, if_pos rfl]
          refine hframe.advance hneighbour (fun _ => id) hseen (fun v hv => ?_) ?_ ?_ fun _ => ?_
          · exact (lowest_lower _ _ _ _).trans (if_neg (hne_segment v hv))
          · exact hlow.trans_le (min_le_left _ _)
          · rcases le_total (s.lowest node) (s.num neighbour) with hle | hle
            · obtain ⟨w, hw, heq, hreach⟩ := hframe.self
              exact ⟨w, hw, heq.trans (hlow.trans (min_eq_left hle)).symm, hreach⟩
            · exact ⟨neighbour, hwhere hon hle, (hlow.trans (min_eq_right hle)).symm, .single (List.mem_of_getElem? hneighbour)⟩
          · exact hlow.trans_le (min_le_right _ _)
        · exact (lowest_lower _ _ _ _).trans (if_neg (hne_below v hv))
    · rw [if_neg hon]
      refine ⟨h.of_eq rfl rfl rfl rfl rfl, path_of_frames (fun top htop => ?_) ?_⟩
      · obtain rfl := Option.some.inj htop
        exact Nat.succ_ne_zero position
      · refine ⟨segment, below, hstack, ?_, hentered, hrest⟩
        exact hframe.advance hneighbour (fun _ => id) hseen (fun _ _ => rfl) le_rfl hframe.self
          fun hb => absurd ((h.onStack neighbour).mpr (hbelow neighbour hb)) hon
  · rw [if_pos hseen]
    refine ⟨h.of_eq rfl rfl rfl rfl rfl, ?_⟩
    have hedge : neighbour ∈ adj node := List.mem_of_getElem? hneighbour
    refine ⟨hseen, hnodes node (h.known node (hmem node hnode)) neighbour hedge, ?_, segment, below, hstack, ?_, hentered, ?_⟩
    · intro parent hparent
      obtain rfl := Option.some.inj hparent
      rw [List.take_add_one, hneighbour]
      exact List.mem_append_right _ (List.mem_singleton_self _)
    · exact hframe.advance hneighbour (fun _ => .inl) (.inr rfl) (fun _ _ => rfl) le_rfl hframe.self
        fun hb => absurd (hmem neighbour (hbelow neighbour hb)) hseen
    · exact hrest.congr (fun _ => .inl) (fun _ _ => rfl) fun _ _ => rfl

/-- What stands above a node on the stack is popped with it. -/
theorem popUntil_append {node : V} {segment : List V} (h : node ∉ segment) (below : List V) :
    popUntil node (segment ++ node :: below) = (segment ++ [node], below) := by
  induction segment with
  | nil => rw [List.nil_append, popUntil, if_pos rfl, List.nil_append]
  | cons member segment ih =>
    obtain ⟨hne, h⟩ := not_or.mp (mt List.mem_cons.mpr h)
    rw [List.cons_append, popUntil, if_neg (Ne.symm hne), ih h, List.cons_append]

/-- A component is popped: what stood above its root and the root. -/
theorem Core.emit {node : V} {position : Nat} {segment below : List V} {s : Tarjan V} (h : Core adj nodes s)
    (hstack : s.stack = segment ++ node :: below)
    (hframe : Frame adj (· ∈ s.index) s.num s.lowest node position segment below) (hend : (adj node).take position = adj node)
    (hroot : s.lowest node = s.num node) :
    Core adj nodes (s.emit node) ∧ (s.emit node).stack = below := by
  have hsorted := h.sorted
  have hnodup := h.nodup
  rw [hstack] at hsorted hnodup
  obtain ⟨-, hsorted_below, hsorted_above⟩ := List.pairwise_append.mp hsorted
  have hnot : node ∉ segment := fun hmem => lt_irrefl _ (hsorted_above node hmem node List.mem_cons_self)
  have hemit : s.emit node =
      { s with
        stack := below
        onStack := s.onStack.filter (· ∉ segment ++ [node])
        components := s.components ++ [sortBy id (segment ++ [node])] } := by
    rw [Tarjan.emit, hstack, popUntil_append hnot]
  have hmem : ∀ v, v ∈ (s.emit node).components.flatten ↔ v ∈ s.components.flatten ∨ v ∈ segment ++ [node] := by
    intro v
    rw [hemit, List.flatten_append, List.mem_append, List.flatten_singleton, mem_sortBy]
  have hmember : ∀ v, v ∈ segment ++ [node] ↔ v ∈ segment ∨ v = node := fun v => by rw [List.mem_append, List.mem_singleton]
  have hon : ∀ v, v ∈ s.stack ↔ v ∈ segment ++ [node] ∨ v ∈ below := by
    intro v
    rw [hmember, hstack, List.mem_append, List.mem_cons, or_assoc]
  have hlinked : ∀ v ∈ segment ++ [node], Linked adj node v := by
    intro v hv
    rcases (hmember v).mp hv with hv | rfl
    · exact ⟨hframe.down v hv, hframe.up_to hsorted hroot v hv⟩
    · exact ⟨.refl, .refl⟩
  -- what is popped leads to itself and to what is out
  have hclosed : ∀ v ∈ (s.emit node).components.flatten, ∀ y ∈ adj v, y ∈ (s.emit node).components.flatten := by
    intro v hv y hy
    rw [hmem] at hv ⊢
    rcases hv with hv | hv
    · exact .inl (h.closed v hv y hy)
    · have hfacts : y ∈ s.index ∧ (y ∈ below → s.lowest node ≤ s.num y) := by
        rcases (hmember v).mp hv with hv | rfl
        · exact ⟨hframe.done v hv y hy, hframe.cross v hv y hy⟩
        · rw [← hend] at hy
          exact ⟨hframe.taken y hy, hframe.crossed y hy⟩
      rcases (h.split y).mp hfacts.1 with hon' | hout
      · refine .inr (((hon y).mp hon').resolve_right fun hbelow => ?_)
        have hle := hfacts.2 hbelow
        have hlt := (List.pairwise_cons.mp hsorted_below).1 y hbelow
        omega
      · exact .inl hout
  have hapart : ∀ v ∈ segment ++ [node], v ∉ s.components.flatten := by
    intro v hv hout
    exact (List.disjoint_of_nodup_append h.nodup) ((hon v).mpr (.inl hv)) hout
  refine ⟨⟨?_, ?_, ?_, ?_, ?_, ?_, hclosed, ?_⟩, by rw [hemit]⟩
  · rw [hemit]
    exact (List.pairwise_cons.mp hsorted_below).2
  · intro v
    rw [hemit, List.mem_filter, h.onStack, hon, decide_eq_true_iff]
    refine ⟨fun hv => hv.1.resolve_left hv.2, fun hv => ⟨.inr hv, fun hmem => ?_⟩⟩
    have hlt : s.num v < s.num v := by
      have hless := (List.pairwise_cons.mp hsorted_below).1 v hv
      rcases (hmember v).mp hmem with hmem | rfl
      · exact hsorted_above v hmem v (List.mem_cons_of_mem _ hv)
      · exact hless
    exact lt_irrefl _ hlt
  · rw [hemit]
    exact h.counted
  · rw [hemit]
    exact h.known
  · intro v
    have hindex : v ∈ (s.emit node).index ↔ v ∈ s.index := by rw [hemit]
    have hbelow : v ∈ (s.emit node).stack ↔ v ∈ below := by rw [hemit]
    rw [hindex, hbelow, hmem, h.split, hon]
    tauto
  · have hperm : (below ++ (s.components ++ [sortBy id (segment ++ [node])]).flatten).Perm
        (segment ++ node :: below ++ s.components.flatten) := by
      rw [List.perm_iff_count]
      intro a
      have hcons : (node :: below).count a = [node].count a + below.count a := by
        rw [← List.singleton_append, List.count_append]
      rw [List.flatten_append, List.flatten_singleton, List.count_append, List.count_append, (sortBy_perm id _).count_eq, List.count_append,
        List.count_append, List.count_append, hcons]
      omega
    rw [hemit]
    exact hperm.nodup_iff.mpr hnodup
  · intro component hcomponent
    rw [hemit] at hcomponent
    rcases List.mem_append.mp hcomponent with hcomponent | hcomponent
    · exact h.strong component hcomponent
    · obtain rfl := List.mem_singleton.mp hcomponent
      refine ⟨List.ne_nil_of_mem (mem_sortBy.mpr ((hmember node).mpr (.inr rfl))), pairwise_sortBy id _, fun v hv w => ?_⟩
      rw [mem_sortBy] at hv ⊢
      constructor
      · intro hw
        exact ⟨(hlinked v hv).2.trans (hlinked w hw).1, (hlinked w hw).2.trans (hlinked v hv).1⟩
      · rintro ⟨hvw, hwv⟩
        have hw := Reaches.mem_of_closed hclosed ((hmem v).mpr (.inr hv)) hvw
        refine ((hmem w).mp hw).resolve_left fun hout => hapart v hv ?_
        exact Reaches.mem_of_closed h.closed hout hwv

/-- The node on top of the work is finished: it joins the segment below, or its component is out. -/
theorem Inv.leave {node : V} {position : Nat} {rest : List (V × Nat)} {s : Tarjan V} (h : Core adj nodes s)
    (hframes : Frames adj (· ∈ s.index) s.num s.lowest ((node, position) :: rest) s.stack)
    (hend : (adj node)[position]? = none) : Inv adj nodes (s.leave node rest) := by
  obtain ⟨segment, below, hstack, hframe, hentered, hrest⟩ := hframes
  have hend : (adj node).take position = adj node := List.take_of_length_le (List.getElem?_eq_none_iff.mp hend)
  have hsorted := h.sorted
  rw [hstack] at hsorted
  obtain ⟨-, hsorted_below, hsorted_above⟩ := List.pairwise_append.mp hsorted
  have hplace : ∀ top ∈ rest.head?, top.2 ≠ 0 := by
    intro top htop hzero
    have hedge := hentered top htop
    rw [hzero] at hedge
    exact List.not_mem_nil hedge
  have hle := hframe.self_le (List.pairwise_cons.mp hsorted_below).1
  cases rest with
  | nil =>
    obtain rfl : below = [] := hrest
    obtain ⟨w, hw, hroot, -⟩ := hframe.self
    obtain rfl := List.mem_singleton.mp hw
    have hemit := Core.emit (s := { s with work := [] }) (h.of_eq rfl rfl rfl rfl rfl) hstack hframe hend hroot.symm
    have hleave : s.leave w [] = Tarjan.emit w { s with work := [] } := if_pos hroot.symm
    rw [hleave]
    exact ⟨hemit.1, hemit.2⟩
  | cons parent rest =>
    obtain ⟨segment', below', rfl, hparent, hentered', hrest'⟩ := hrest
    have hedge : node ∈ (adj parent.1).take parent.2 := hentered parent rfl
    have hstack' : s.stack = (segment ++ node :: segment') ++ parent.1 :: below' := by
      rw [hstack, List.append_assoc, List.cons_append]
    have habove : ∀ v ∈ segment ++ node :: segment', s.num parent.1 < s.num v := by
      intro v hv
      have hsorted' := h.sorted
      rw [hstack'] at hsorted'
      exact (List.pairwise_append.mp hsorted').2.2 v hv parent.1 List.mem_cons_self
    have hnode_above : s.num parent.1 < s.num node := habove node (List.mem_append_right _ List.mem_cons_self)
    have hparent_le := hparent.self_le (List.pairwise_cons.mp (List.pairwise_append.mp (List.pairwise_cons.mp hsorted_below).2).2.1).1
    -- the state once the lowest index of the parent is lowered
    obtain ⟨t, ht⟩ : ∃ t, t = Tarjan.lower parent.1 (s.lowest node) { s with work := parent :: rest } := ⟨_, rfl⟩
    have hlowest : ∀ v, t.lowest v = if parent.1 = v then min (s.lowest parent.1) (s.lowest node) else s.lowest v := by
      intro v
      rw [ht]
      exact lowest_lower _ _ _ _
    have hnode_lowest : t.lowest node = s.lowest node := by
      rw [hlowest, if_neg fun heq => (heq ▸ hnode_above).ne rfl]
    have hleave : s.leave node (parent :: rest) = if s.lowest node = s.num node then t.emit node else t := by
      rw [← hnode_lowest, ht]
      rfl
    have hcore : Core adj nodes t := by
      rw [ht]
      exact h.of_eq rfl rfl rfl rfl rfl
    rw [hleave]
    by_cases hroot : s.lowest node = s.num node
    · have hsame : t.lowest = s.lowest := by
        funext v
        rw [hlowest]
        split
        · rename_i heq
          rw [← heq, min_eq_left (by omega)]
        · rfl
      have hstack_t : t.stack = segment ++ node :: (segment' ++ parent.1 :: below') := by
        rw [ht]
        exact hstack
      have hframe_t : Frame adj (· ∈ t.index) t.num t.lowest node position segment (segment' ++ parent.1 :: below') := by
        rw [hsame, ht]
        exact hframe
      have hemit := hcore.emit hstack_t hframe_t hend (by rw [hsame, ht]; exact hroot)
      rw [if_pos hroot]
      have hkeep : (t.emit node).work = parent :: rest ∧ (t.emit node).index = s.index ∧ (t.emit node).low = t.low := by
        rw [ht]
        exact ⟨rfl, rfl, rfl⟩
      refine ⟨hemit.1, path_of_frames (by rwa [hkeep.1]) ?_⟩
      rw [hkeep.1, hemit.2]
      have hnum' : (t.emit node).num = s.num := by
        funext v
        rw [num, num, hkeep.2.1]
      have hlowest' : (t.emit node).lowest = s.lowest := by
        rw [← hsame]
        funext v
        rw [lowest, lowest, hkeep.2.2]
      rw [hnum', hlowest', hkeep.2.1]
      exact ⟨segment', below', rfl, hparent, hentered', hrest'⟩
    · rw [if_neg hroot]
      have hwork : t.work = parent :: rest ∧ t.stack = s.stack ∧ t.index = s.index := by
        rw [ht]
        exact ⟨rfl, rfl, rfl⟩
      refine ⟨hcore, path_of_frames (by rwa [hwork.1]) ?_⟩
      have hnum' : t.num = s.num := by
        funext v
        rw [num, num, hwork.2.2]
      rw [hwork.1, hwork.2.1, hwork.2.2, hnum', hstack']
      have hkeep : ∀ v, parent.1 ≠ v → t.lowest v = s.lowest v := fun v hv => by rw [hlowest, if_neg hv]
      refine ⟨segment ++ node :: segment', below', rfl, ?_, hentered', hrest'.congr (fun _ => id) (fun _ _ => rfl) fun v hv => ?_⟩
      · refine hframe.merge hsorted hparent hend (lt_of_le_of_ne hle hroot) (List.mem_of_mem_take hedge) ?_ fun v hv => hkeep v ?_
        · rw [hlowest, if_pos rfl]
        · exact fun heq => (heq ▸ habove v hv).ne rfl
      · have hless := (List.pairwise_cons.mp (List.pairwise_append.mp (List.pairwise_cons.mp hsorted_below).2).2.1).1 v hv
        exact hkeep v fun heq => (heq ▸ hless).ne rfl

/-- A round of the loop keeps the invariant. -/
theorem Inv.step (hnodes : ∀ v ∈ nodes, ∀ y ∈ adj v, y ∈ nodes) {s : Tarjan V} (h : Inv adj nodes s) :
    Inv adj nodes (s.step adj) := by
  unfold Tarjan.step
  split
  · exact h
  · rename_i node position rest hwork
    have hready : ∀ t : Tarjan V, t = (if position = 0 then s.discover node else s) →
        Core adj nodes t ∧ Frames adj (· ∈ t.index) t.num t.lowest ((node, position) :: rest) t.stack := by
      rintro t rfl
      by_cases hzero : position = 0
      · subst hzero
        rw [if_pos rfl]
        exact h.core.discover (h.path.pending hwork)
      · rw [if_neg hzero]
        refine ⟨h.core, hwork ▸ h.path.frames fun top htop => ?_⟩
        rw [hwork] at htop
        obtain rfl := Option.some.inj htop
        exact hzero
    obtain ⟨hcore, hframes⟩ := hready _ rfl
    dsimp only
    split
    · rename_i neighbour hneighbour
      exact Inv.follow hnodes hcore hframes hneighbour
    · rename_i hend
      exact Inv.leave hcore hframes hend

/-- The edges of the nodes that have no index, and one more for each of these nodes. -/
def unseen (adj : V → List V) (nodes : List V) (s : Tarjan V) : Nat :=
  ((nodes.filter (· ∉ s.index)).map fun v => (adj v).length + 1).sum

/-- The edges the nodes under way have not come to, and one more for each that has been discovered. -/
def ahead (adj : V → List V) (work : List (V × Nat)) : Nat :=
  (work.map fun top => if top.2 = 0 then 0 else (adj top.1).length - top.2 + 1).sum

omit [LinearOrder V] in
theorem ahead_cons (top : V × Nat) (work : List (V × Nat)) :
    ahead adj (top :: work) = (if top.2 = 0 then 0 else (adj top.1).length - top.2 + 1) + ahead adj work := by
  rw [ahead, List.map_cons, List.sum_cons, ahead]

theorem unseen_discover (hnodup : nodes.Nodup) {node : V} {s : Tarjan V} (hknown : node ∈ nodes) (hfresh : node ∉ s.index) :
    (adj node).length + 1 + unseen adj nodes (s.discover node) = unseen adj nodes s := by
  have hfilter : nodes.filter (· ∉ (s.discover node).index) = (nodes.filter (· ∉ s.index)).erase node := by
    rw [(hnodup.filter _).erase_eq_filter, List.filter_filter]
    refine List.filter_congr fun v _ => ?_
    have hmem : v ∈ (s.discover node).index ↔ v ∈ s.index ∨ v = node := Dict.mem_set
    rw [Bool.eq_iff_iff, decide_eq_true_iff, hmem, Bool.and_eq_true, bne_iff_ne, decide_eq_true_iff]
    tauto
  rw [unseen, unseen, hfilter]
  exact List.sum_map_erase (fun v => (adj v).length + 1) (List.mem_filter.mpr ⟨hknown, decide_eq_true hfresh⟩)

theorem unseen_congr {s s' : Tarjan V} (h : s'.index = s.index) : unseen adj nodes s' = unseen adj nodes s := by
  rw [unseen, unseen, h]

theorem follow_index (node : V) (position : Nat) (neighbour : V) (rest : List (V × Nat)) (s : Tarjan V) :
    (s.follow node position neighbour rest).index = s.index := by
  unfold Tarjan.follow
  dsimp only
  split
  · rfl
  · split <;> rfl

theorem ahead_follow (node : V) (position : Nat) (neighbour : V) (rest : List (V × Nat)) (s : Tarjan V) :
    ahead adj (s.follow node position neighbour rest).work = ahead adj ((node, position + 1) :: rest) := by
  unfold Tarjan.follow
  dsimp only
  split
  · rw [ahead_cons, if_pos rfl, Nat.zero_add]
  · split <;> rfl

theorem leave_index (node : V) (rest : List (V × Nat)) (s : Tarjan V) : (s.leave node rest).index = s.index := by
  cases rest <;> (unfold Tarjan.leave; dsimp only; split <;> rfl)

theorem leave_work (node : V) (rest : List (V × Nat)) (s : Tarjan V) : (s.leave node rest).work = rest := by
  cases rest <;> (unfold Tarjan.leave; dsimp only; split <;> rfl)

/-- An index stays, and the node on top of the work gets one. -/
theorem step_index {s : Tarjan V} (h : Inv adj nodes s) {v : V}
    (hv : v ∈ s.index ∨ ∃ position rest, s.work = (v, position) :: rest) : v ∈ (s.step adj).index := by
  unfold Tarjan.step
  split
  · rename_i hnil
    exact hv.resolve_right fun ⟨position, rest, hcons⟩ => nomatch hnil.symm.trans hcons
  · rename_i node position rest hcons
    have hindex : v ∈ (if position = 0 then s.discover node else s).index := by
      by_cases hzero : position = 0
      · rw [if_pos hzero]
        refine Dict.mem_set.mpr (hv.imp_right fun ⟨position', rest', hcons'⟩ => ?_)
        rw [hcons] at hcons'
        exact (Prod.mk.inj (List.cons.inj hcons').1).1.symm
      · rw [if_neg hzero]
        rcases hv with hv | ⟨position', rest', hcons'⟩
        · exact hv
        · rw [hcons] at hcons'
          obtain ⟨rfl, -⟩ := Prod.mk.inj (List.cons.inj hcons').1
          obtain ⟨segment, below, hstack, -⟩ := hcons ▸ h.path.frames fun top htop => by
            rw [hcons] at htop
            obtain rfl := Option.some.inj htop
            exact hzero
          exact (h.core.split node).mpr (.inl (hstack ▸ List.mem_append_right _ List.mem_cons_self))
    dsimp only
    split
    · rwa [follow_index]
    · rwa [leave_index]

/-- A round of the loop leaves less to do. -/
theorem step_left (hnodup : nodes.Nodup) {s : Tarjan V} (h : Inv adj nodes s) (hwork : s.work ≠ []) :
    unseen adj nodes (s.step adj) + ahead adj (s.step adj).work < unseen adj nodes s + ahead adj s.work := by
  unfold Tarjan.step
  split
  · rename_i hnil
    exact absurd hnil hwork
  · rename_i node position rest hcons
    rw [hcons, ahead_cons]
    by_cases hzero : position = 0
    · subst hzero
      have hpending := h.path.pending hcons
      have hdiscover : (adj node).length + 1 + unseen adj nodes (s.discover node) = unseen adj nodes s :=
        unseen_discover hnodup hpending.known hpending.fresh
      dsimp only
      rw [if_pos rfl, if_pos rfl]
      split
      · rename_i neighbour hneighbour
        have hlt := (List.getElem?_eq_some_iff.mp hneighbour).1
        rw [unseen_congr (follow_index _ _ _ _ _), ahead_follow, ahead_cons, if_neg (Nat.succ_ne_zero 0)]
        dsimp only
        omega
      · rw [unseen_congr (leave_index _ _ _), leave_work]
        omega
    · dsimp only
      rw [if_neg hzero, if_neg hzero]
      split
      · rename_i neighbour hneighbour
        have hlt := (List.getElem?_eq_some_iff.mp hneighbour).1
        rw [unseen_congr (follow_index _ _ _ _ _), ahead_follow, ahead_cons, if_neg (Nat.succ_ne_zero position)]
        dsimp only
        omega
      · rw [unseen_congr (leave_index _ _ _), leave_work]
        omega

/-- The loop ends within its bound, with the invariant and no work left. -/
theorem loop_spec (hnodup : nodes.Nodup) (hnodes : ∀ v ∈ nodes, ∀ y ∈ adj v, y ∈ nodes) {fuel : Nat} {s : Tarjan V}
    (h : Inv adj nodes s) (hfuel : unseen adj nodes s + ahead adj s.work ≤ fuel) :
    ∃ s', loop adj fuel s = some s' ∧ Inv adj nodes s' ∧ s'.work = [] ∧
      ∀ v, (v ∈ s.index ∨ ∃ position rest, s.work = (v, position) :: rest) → v ∈ s'.index := by
  induction fuel generalizing s with
  | zero =>
    have hwork : s.work = [] := by
      by_contra hwork
      have hless := step_left hnodup h hwork
      omega
    exact ⟨s, by rw [loop, if_pos hwork], h, hwork, fun v hv => hv.resolve_right fun ⟨_, _, hcons⟩ => nomatch hwork.symm.trans hcons⟩
  | succ fuel ih =>
    by_cases hwork : s.work = []
    · exact ⟨s, by rw [loop, if_pos hwork], h, hwork, fun v hv => hv.resolve_right fun ⟨_, _, hcons⟩ => nomatch hwork.symm.trans hcons⟩
    · have hless := step_left hnodup h hwork
      obtain ⟨s', hloop, hinv, hdone, hkeeps⟩ := ih (h.step hnodes) (by omega)
      exact ⟨s', by rw [loop, if_neg hwork, hloop], hinv, hdone, fun v hv => hkeeps v (.inl (step_index h hv))⟩

/-- Between two searches there is no work, and the stack is empty. -/
structure Settled (adj : V → List V) (nodes : List V) (s : Tarjan V) : Prop where
  inv : Inv adj nodes s
  done : s.work = []

theorem Settled.stack_eq {s : Tarjan V} (h : Settled adj nodes s) : s.stack = [] := by
  have hpath := h.inv.path
  rwa [Path, h.done] at hpath

/-- A search from a root comes to it, and keeps what was come to before. -/
theorem search_spec (hnodup : nodes.Nodup) (hnodes : ∀ v ∈ nodes, ∀ y ∈ adj v, y ∈ nodes) {s : Tarjan V}
    (h : Settled adj nodes s) {root : V} (hroot : root ∈ nodes) :
    ∃ s', search adj nodes s root = some s' ∧ Settled adj nodes s' ∧ ∀ v, (v ∈ s.index ∨ v = root) → v ∈ s'.index := by
  unfold search
  by_cases hseen : root ∈ s.index
  · rw [if_pos hseen]
    exact ⟨s, rfl, h, fun v hv => hv.elim id fun heq => heq ▸ hseen⟩
  · rw [if_neg hseen]
    have hframes : Frames adj (fun v => v ∈ s.index ∨ v = root) s.num s.lowest [] s.stack := h.stack_eq
    have hinv : Inv adj nodes { s with work := [(root, 0)] } :=
      ⟨h.inv.core.of_eq rfl rfl rfl rfl rfl, hseen, hroot, fun parent hparent => (nomatch hparent), hframes⟩
    have hfuel : unseen adj nodes { s with work := [(root, 0)] } + ahead adj [(root, 0)] ≤ rounds adj nodes := by
      have hsub := (List.filter_sublist (p := (· ∉ s.index)) (l := nodes)).map fun v => (adj v).length + 1
      exact hsub.sum_le_sum fun _ _ => Nat.zero_le _
    obtain ⟨s', hloop, hinv', hdone, hkeeps⟩ := loop_spec hnodup hnodes hinv hfuel
    exact ⟨s', hloop, ⟨hinv', hdone⟩, fun v hv => hkeeps v (hv.imp_right fun heq => ⟨0, [], by rw [heq]⟩)⟩

theorem searches_spec (hnodup : nodes.Nodup) (hnodes : ∀ v ∈ nodes, ∀ y ∈ adj v, y ∈ nodes) {roots : List V}
    (hroots : roots ⊆ nodes) {s : Tarjan V} (h : Settled adj nodes s) :
    ∃ s', roots.foldlM (search adj nodes) s = some s' ∧ Settled adj nodes s' ∧ ∀ v, (v ∈ s.index ∨ v ∈ roots) → v ∈ s'.index := by
  induction roots generalizing s with
  | nil => exact ⟨s, rfl, h, fun v hv => hv.resolve_right List.not_mem_nil⟩
  | cons root roots ih =>
    obtain ⟨t, hsearch, ht, hroot⟩ := search_spec hnodup hnodes h (hroots List.mem_cons_self)
    obtain ⟨s', hrest, hs', hkeeps⟩ := ih (fun v hv => hroots (List.mem_cons_of_mem _ hv)) ht
    refine ⟨s', ?_, hs', fun v hv => hkeeps v ?_⟩
    · rw [List.foldlM_cons, hsearch]
      exact hrest
    · rcases hv with hv | hv
      · exact .inl (hroot v (.inl hv))
      · exact (List.mem_cons.mp hv).imp (fun heq => hroot v (.inr heq)) id

/-- On a graph whose edges stay in it, the search gives the strongly connected components: each node is in one, once, and what is in the
one of a node is what it is linked with. -/
theorem stronglyConnectedComponents_spec (hnodup : nodes.Nodup) (hnodes : ∀ v ∈ nodes, ∀ y ∈ adj v, y ∈ nodes) :
    ∃ components, stronglyConnectedComponents adj nodes = some components ∧ components.flatten.Nodup ∧
      (∀ v, v ∈ components.flatten ↔ v ∈ nodes) ∧
      ∀ component ∈ components, component ≠ [] ∧ component.Pairwise (· ≤ ·) ∧ ∀ v ∈ component, ∀ w, w ∈ component ↔ Linked adj v w := by
  have hstart : Settled adj nodes ({} : Tarjan V) := by
    refine ⟨⟨⟨.nil, ?_, ?_, ?_, ?_, .nil, ?_, ?_⟩, rfl⟩, rfl⟩
    all_goals simp [Dict.mem_iff_mem_keys]
  have hroots : sortBy id nodes ⊆ nodes := fun v hv => mem_sortBy.mp hv
  obtain ⟨s, hsearches, hs, hall⟩ := searches_spec hnodup hnodes hroots hstart
  have hcore := hs.inv.core
  have hsplit : ∀ v, v ∈ s.index ↔ v ∈ s.components.flatten := by
    intro v
    rw [hcore.split, hs.stack_eq]
    exact or_iff_right List.not_mem_nil
  refine ⟨s.components, by rw [stronglyConnectedComponents, hsearches]; rfl, ?_, fun v => ?_, hcore.strong⟩
  · have hnodup := hcore.nodup
    rwa [hs.stack_eq] at hnodup
  · rw [← hsplit]
    exact ⟨hcore.known v, fun hv => hall v (.inr (mem_sortBy.mpr hv))⟩

end Tarjan

end Py
