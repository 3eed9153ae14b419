import Nl2Sql.Lib.Acyclic
import Nl2Sql.Lib.Method
import Nl2Sql.Semantic.Inventory

/-!
# The dependency analysis of the inventory is exact

Whatever the canonical records with different keys: no issue is reported exactly where every dependency names another known key and nothing
goes round in a circle; each strongly connected component with more than one member has one cycle issue, with a real cycle through its
smallest key; and without an issue the topological order is complete, with dependencies first, and the smallest there is.
-/

namespace Nl2Sql

namespace Inventory

open Py

/-- The record of one key names another among its dependencies. -/
def DependsOn (records : List MetricInventoryRecord) (key target : String) : Prop :=
  ∃ record ∈ records, record.metricKey = key ∧ ∃ d ∈ record.dependencies, d.target = target

/-- Two keys depend on each other. -/
def MutuallyDependent (records : List MetricInventoryRecord) (key other : String) : Prop :=
  Relation.ReflTransGen (DependsOn records) key other ∧ Relation.ReflTransGen (DependsOn records) other key

/-- A strongly connected component of the dependency graph: a key with all those that it depends on and that depend on it. -/
def Component (records : List MetricInventoryRecord) (component : Finset String) : Prop :=
  ∃ key ∈ metricKeys records, ∀ other, other ∈ component ↔ MutuallyDependent records key other

/-- What the cycle issue of a component says: a closed walk along dependencies inside it, from its smallest key back to it, which comes to no
other key twice. -/
structure IsCycleIssue (records : List MetricInventoryRecord) (component : Finset String) (issue : MetricDependencyIssue) : Prop where
  mem : issue.metricKey ∈ component
  least : ∀ key ∈ component, issue.metricKey ≤ key
  walk : ∃ path, issue.cycle = path ++ [issue.metricKey] ∧ path.head? = some issue.metricKey ∧ path.Nodup ∧
    (∀ key ∈ path, key ∈ component) ∧ issue.cycle.IsChain (DependsOn records)

/-- An order of all keys, each once, with what a key depends on before it. -/
structure IsTopologicalOrder (records : List MetricInventoryRecord) (order : List String) : Prop where
  nodup : order.Nodup
  complete : ∀ key, key ∈ order ↔ key ∈ metricKeys records
  first : ∀ before key after, order = before ++ key :: after → ∀ target, DependsOn records key target → target ∈ before

section Graph

variable {records : List MetricInventoryRecord}

theorem DependsOn.mem {key target : String} (h : DependsOn records key target) : key ∈ metricKeys records := by
  obtain ⟨record, hrecord, rfl, -⟩ := h
  exact List.mem_map_of_mem hrecord

/-- A dependency has no issue exactly where it names another known key. -/
theorem dependencyIssue_eq_none {identity : List String} {record : MetricInventoryRecord} {d : MetricDependency} :
    dependencyIssue identity record d = none ↔ d.target ≠ record.metricKey ∧ d.target ∈ identity := by
  unfold dependencyIssue
  by_cases hself : d.target = record.metricKey
  · simp [hself]
  · by_cases hknown : d.target ∈ identity <;> simp [hself, hknown]

theorem mem_knownTargets {identity : List String} {record : MetricInventoryRecord} {target : String} :
    target ∈ knownTargets identity record ↔
      (∃ d ∈ record.dependencies, d.target = target) ∧ target ≠ record.metricKey ∧ target ∈ identity := by
  rw [knownTargets, mem_sortBy, List.mem_dedup, List.mem_map]
  constructor
  · rintro ⟨d, hd, rfl⟩
    obtain ⟨hmem, hnone⟩ := List.mem_filter.mp hd
    exact ⟨⟨d, hmem, rfl⟩, dependencyIssue_eq_none.mp (of_decide_eq_true hnone)⟩
  · rintro ⟨⟨d, hmem, rfl⟩, hknown⟩
    exact ⟨d, List.mem_filter.mpr ⟨hmem, decide_eq_true (dependencyIssue_eq_none.mpr hknown)⟩, rfl⟩

theorem mem_dependencyGraph {key : String} : key ∈ (dependencyGraph records).keys ↔ key ∈ metricKeys records := by
  rw [dependencyGraph, Dict.mem_keys_ofList, List.map_map]
  rfl

variable (hkeys : (metricKeys records).Nodup)

include hkeys

/-- The edges of the graph are the dependencies on other known keys. -/
theorem leads_iff {key target : String} :
    Leads (neighbours (dependencyGraph records)) key target ↔ DependsOn records key target ∧ target ≠ key ∧ target ∈ metricKeys records := by
  unfold Leads neighbours
  constructor
  · intro h
    cases hget : (dependencyGraph records).get? key with
    | none =>
      rw [hget] at h
      exact absurd h List.not_mem_nil
    | some targets =>
      rw [hget] at h
      obtain ⟨record, hrecord, heq⟩ := List.mem_map.mp (Dict.mem_of_get?_ofList hget)
      obtain ⟨rfl, rfl⟩ := Prod.mk.inj heq
      obtain ⟨hd, hne, hknown⟩ := mem_knownTargets.mp h
      exact ⟨⟨record, hrecord, rfl, hd⟩, hne, hknown⟩
  · rintro ⟨⟨record, hrecord, rfl, hd⟩, hne, hknown⟩
    have hfst : (records.map fun record => (record.metricKey, knownTargets (metricKeys records) record)).map Prod.fst = metricKeys records := by
      rw [List.map_map]
      rfl
    have hmem : (record.metricKey, knownTargets (metricKeys records) record) ∈
        records.map fun record => (record.metricKey, knownTargets (metricKeys records) record) := List.mem_map.mpr ⟨record, hrecord, rfl⟩
    rw [dependencyGraph, Dict.get?_ofList_of_mem (by rwa [hfst]) hmem]
    exact mem_knownTargets.mpr ⟨hd, hne, hknown⟩

theorem neighbours_closed : ∀ key ∈ (dependencyGraph records).keys, ∀ target ∈ neighbours (dependencyGraph records) key,
    target ∈ (dependencyGraph records).keys :=
  fun _ _ _ htarget => mem_dependencyGraph.mpr ((leads_iff hkeys).mp htarget).2.2

/-- Between known keys the ways along dependencies are those along the edges of the graph. -/
theorem reaches_iff {key other : String} (hother : other ∈ metricKeys records) :
    Reaches (neighbours (dependencyGraph records)) key other ↔ Relation.ReflTransGen (DependsOn records) key other := by
  constructor
  · exact Relation.ReflTransGen.mono (fun _ _ hedge => ((leads_iff hkeys).mp hedge).1) key other
  · intro h
    induction h using Relation.ReflTransGen.head_induction_on with
    | refl => exact .refl
    | @head a c hac hcb ih =>
      by_cases heq : c = a
      · exact heq ▸ ih
      · have hknown : c ∈ metricKeys records := by
          obtain rfl | ⟨_, hstep, -⟩ := hcb.cases_head
          · exact hother
          · exact hstep.mem
        exact .head ((leads_iff hkeys).mpr ⟨hac, heq, hknown⟩) ih

theorem linked_iff {key other : String} (hkey : key ∈ metricKeys records) :
    Linked (neighbours (dependencyGraph records)) key other ↔ MutuallyDependent records key other := by
  constructor
  · rintro ⟨hto, hfrom⟩
    have hother : other ∈ metricKeys records := by
      have hclosed := Reaches.mem_of_closed (neighbours_closed hkeys) (mem_dependencyGraph.mpr hkey) hto
      exact mem_dependencyGraph.mp hclosed
    exact ⟨(reaches_iff hkeys hother).mp hto, (reaches_iff hkeys hkey).mp hfrom⟩
  · rintro ⟨hto, hfrom⟩
    have hother : other ∈ metricKeys records := by
      obtain rfl | ⟨_, hstep, -⟩ := hfrom.cases_head
      · exact hkey
      · exact hstep.mem
    exact ⟨(reaches_iff hkeys hother).mpr hto, (reaches_iff hkeys hkey).mpr hfrom⟩

/-- A strongly connected component with more than one member has a cycle issue. -/
theorem cycleIssue_spec {component : List String} (hnodup : component.Nodup) (hsorted : component.Pairwise (· ≤ ·))
    (hlinked : ∀ v ∈ component, ∀ w, w ∈ component ↔ Linked (neighbours (dependencyGraph records)) v w) (hlength : 2 ≤ component.length) :
    ∃ issue, cycleIssue (dependencyGraph records) component = .ok issue ∧ issue.code = .metricDependencyCycle ∧
      IsCycleIssue records component.toFinset issue := by
  obtain ⟨start, other, rest, rfl⟩ : ∃ start other rest, component = start :: other :: rest := by
    match component, hlength with
    | start :: other :: rest, _ => exact ⟨start, other, rest, rfl⟩
  have hleast : ∀ v ∈ start :: other :: rest, start ≤ v := by
    intro v hv
    rcases List.mem_cons.mp hv with rfl | hv
    · exact le_rfl
    · exact (List.pairwise_cons.mp hsorted).1 v hv
  have hne : other ≠ start := fun heq => (List.nodup_cons.mp hnodup).1 (heq ▸ List.mem_cons_self)
  obtain ⟨path, hcycle, hwalk⟩ := Front.canonicalCycle_spec hlinked List.mem_cons_self hleast
    (List.mem_cons_of_mem _ List.mem_cons_self) hne
  obtain ⟨rest', rfl⟩ : ∃ rest', path = start :: rest' := by
    have hhead := hwalk.head
    match path, hhead with
    | _ :: rest', rfl => exact ⟨rest', rfl⟩
  refine ⟨_, by rw [cycleIssue, hcycle, List.cons_append], rfl, List.mem_toFinset.mpr List.mem_cons_self, ?_, start :: rest', ?_⟩
  · exact fun key hkey => hleast key (List.mem_toFinset.mp hkey)
  · refine ⟨rfl, rfl, hwalk.nodup, fun key hkey => List.mem_toFinset.mpr (hwalk.mem key hkey), ?_⟩
    exact hwalk.edges.imp fun _ _ hedge => ((leads_iff hkeys).mp hedge).1

/-- The strongly connected components the search finds, and their cycle issues. -/
structure Found (records : List MetricInventoryRecord) (components : List (List String)) (cycles : List MetricDependencyIssue) : Prop where
  nodup : components.flatten.Nodup
  mem : ∀ key, key ∈ components.flatten ↔ key ∈ metricKeys records
  linked : ∀ component ∈ components, ∀ key ∈ component, ∀ other, other ∈ component ↔ MutuallyDependent records key other
  cycles : List.Forall₂ (fun component issue => component ∈ components ∧ issue.code = .metricDependencyCycle ∧
    IsCycleIssue records component.toFinset issue) (components.filter fun component => 2 ≤ component.length) cycles

theorem dependencyCycleIssues_spec :
    ∃ components cycles, dependencyCycleIssues (dependencyGraph records) = .ok cycles ∧ Found records components cycles := by
  have hgraph : (dependencyGraph records).keys.Nodup := (dependencyGraph records).nodup
  obtain ⟨components, hcomponents, hnodup, hmem, hlinked⟩ := Tarjan.stronglyConnectedComponents_spec hgraph (neighbours_closed hkeys)
  have hparts := List.nodup_flatten.mp hnodup
  have hcycles : ∀ parts : List (List String), parts ⊆ components → (∀ part ∈ parts, 2 ≤ part.length) →
      ∃ cycles, parts.mapM (cycleIssue (dependencyGraph records)) = .ok cycles ∧
        List.Forall₂ (fun component issue => component ∈ components ∧ issue.code = .metricDependencyCycle ∧
          IsCycleIssue records component.toFinset issue) parts cycles := by
    intro parts hsub hlength
    induction parts with
    | nil => exact ⟨[], rfl, .nil⟩
    | cons part parts ih =>
      have hpart := hsub List.mem_cons_self
      obtain ⟨-, hsorted, hlink⟩ := hlinked part hpart
      obtain ⟨issue, hissue, hcode, hspec⟩ := cycleIssue_spec hkeys (hparts.1 part hpart) hsorted hlink (hlength part List.mem_cons_self)
      obtain ⟨cycles, hmap, hforall⟩ := ih (fun c hc => hsub (List.mem_cons_of_mem _ hc)) fun c hc => hlength c (List.mem_cons_of_mem _ hc)
      refine ⟨issue :: cycles, ?_, .cons ⟨hpart, hcode, hspec⟩ hforall⟩
      rw [List.mapM_cons, hissue, hmap]
      rfl
  obtain ⟨cycles, hmap, hforall⟩ := hcycles (components.filter fun component => 2 ≤ component.length)
    (fun c hc => (List.mem_filter.mp hc).1) fun c hc => of_decide_eq_true (List.mem_filter.mp hc).2
  refine ⟨components, cycles, ?_, hnodup, fun key => (hmem key).trans mem_dependencyGraph, fun component hc key hkey other => ?_, hforall⟩
  · rw [dependencyCycleIssues, hcomponents]
    exact hmap
  · have hknown := mem_dependencyGraph.mp ((hmem key).mp (List.mem_flatten.mpr ⟨component, hc, hkey⟩))
    exact ((hlinked component hc).2.2 key hkey other).trans (linked_iff hkeys hknown)

end Graph

section Issues

variable {records : List MetricInventoryRecord} {components : List (List String)} {cycles : List MetricDependencyIssue}

namespace Found

section

variable (h : Found records components cycles)
include h

/-- The component of a key is one of those found. -/
theorem exists_component {component : Finset String} (hcomponent : Component records component) :
    ∃ found ∈ components, found.toFinset = component := by
  obtain ⟨key, hkey, hmem⟩ := hcomponent
  obtain ⟨found, hfound, hin⟩ := List.mem_flatten.mp ((h.mem key).mpr hkey)
  refine ⟨found, hfound, Finset.ext fun other => ?_⟩
  rw [List.mem_toFinset, h.linked found hfound key hin, hmem]

theorem component_of_mem {found : List String} (hfound : found ∈ components) {key : String}
    (hkey : key ∈ found) : Component records found.toFinset := by
  refine ⟨key, (h.mem key).mp (List.mem_flatten.mpr ⟨found, hfound, hkey⟩), fun other => ?_⟩
  rw [List.mem_toFinset, h.linked found hfound key hkey]

/-- Components that share a key are one. -/
theorem eq_of_mem {found found' : List String} (hfound : found ∈ components)
    (hfound' : found' ∈ components) {key : String} (hkey : key ∈ found) (hkey' : key ∈ found') : found = found' := by
  by_contra hne
  obtain ⟨-, hdisjoint⟩ := List.nodup_flatten.mp h.nodup
  have : Std.Symm (List.Disjoint : List String → List String → Prop) := ⟨fun _ _ => List.Disjoint.symm⟩
  exact hdisjoint.forall hfound hfound' hne hkey hkey'

/-- Each component with more than one member has one cycle issue. -/
theorem count_eq_one {component : Finset String} (hcomponent : Component records component)
    (hcard : 2 ≤ component.card) : cycles.countP (fun issue => issue.metricKey ∈ component) = 1 := by
  obtain ⟨found, hfound, rfl⟩ := h.exists_component hcomponent
  obtain ⟨hnodups, hdisjoint⟩ := List.nodup_flatten.mp h.nodup
  rw [List.toFinset_card_of_nodup (hnodups found hfound)] at hcard
  have hbig : found ∈ components.filter fun component => 2 ≤ component.length := List.mem_filter.mpr ⟨hfound, decide_eq_true hcard⟩
  have hdistinct : (components.filter fun component => 2 ≤ component.length).Nodup := by
    refine (hdisjoint.filter _).imp_of_mem fun {a b} ha _ hab heq => ?_
    have hlength : 2 ≤ a.length := of_decide_eq_true (List.mem_filter.mp ha).2
    obtain ⟨key, hkey⟩ := List.exists_mem_of_length_pos (Nat.lt_of_lt_of_le Nat.zero_lt_two hlength)
    exact hab hkey (heq ▸ hkey)
  have hsame : ∀ other issue, (other ∈ components ∧ issue.code = .metricDependencyCycle ∧ IsCycleIssue records other.toFinset issue) →
      (other == found) = decide (issue.metricKey ∈ found.toFinset) := by
    rintro other issue ⟨hother, -, hissue⟩
    have hkey := List.mem_toFinset.mp hissue.mem
    rw [Bool.eq_iff_iff, beq_iff_eq, decide_eq_true_iff, List.mem_toFinset]
    exact ⟨fun heq => heq ▸ hkey, fun hin => h.eq_of_mem hother hfound hkey hin⟩
  rw [← countP_forall₂ hsame h.cycles]
  exact List.count_eq_one_of_mem hdistinct hbig

/-- Each cycle issue is that of a component with more than one member. -/
theorem exists_of_issue {issue : MetricDependencyIssue} (hissue : issue ∈ cycles) :
    issue.code = .metricDependencyCycle ∧
      ∃ component, Component records component ∧ 2 ≤ component.card ∧ IsCycleIssue records component issue := by
  obtain ⟨found, hbig, hfound, hcode, hspec⟩ := exists_of_forall₂ h.cycles hissue
  have hlength : 2 ≤ found.length := of_decide_eq_true (List.mem_filter.mp hbig).2
  refine ⟨hcode, found.toFinset, h.component_of_mem hfound (List.mem_toFinset.mp hspec.mem), ?_, hspec⟩
  rwa [List.toFinset_card_of_nodup ((List.nodup_flatten.mp h.nodup).1 found hfound)]

/-- Where no dependency goes from a key to itself or to what is unknown, there is a cycle issue exactly where something goes round. -/
theorem eq_nil_iff (hclean : ∀ record ∈ records, ∀ d ∈ record.dependencies, d.target ≠ record.metricKey ∧ d.target ∈ metricKeys records) :
    cycles = [] ↔ ∀ key, ¬Relation.TransGen (DependsOn records) key key := by
  constructor
  · rintro rfl key hcycle
    obtain ⟨target, hstep, hback⟩ := Relation.TransGen.head'_iff.mp hcycle
    have hkey := hstep.mem
    have hlinked : MutuallyDependent records key target := ⟨.single hstep, hback⟩
    obtain ⟨found, hfound, hin⟩ := List.mem_flatten.mp ((h.mem key).mpr hkey)
    have hne : target ≠ key := by
      obtain ⟨record, hrecord, rfl, d, hd, rfl⟩ := hstep
      exact (hclean record hrecord d hd).1
    have hcard : 2 ≤ found.toFinset.card := by
      have hpair : ({target, key} : Finset String) ⊆ found.toFinset := by
        intro other hother
        rcases Finset.mem_insert.mp hother with rfl | hother
        · exact List.mem_toFinset.mpr ((h.linked found hfound key hin other).mpr hlinked)
        · exact List.mem_toFinset.mpr (Finset.mem_singleton.mp hother ▸ hin)
      exact Finset.card_pair hne ▸ Finset.card_le_card hpair
    nomatch h.count_eq_one (h.component_of_mem hfound hin) hcard
  · intro hacyclic
    refine List.eq_nil_iff_forall_not_mem.mpr fun issue hissue => ?_
    obtain ⟨-, component, ⟨key, -, hmem⟩, hcard, -⟩ := h.exists_of_issue hissue
    obtain ⟨other, hother, hne⟩ := Finset.exists_mem_ne (Nat.lt_of_succ_le hcard) key
    obtain ⟨hto, hfrom⟩ := (hmem other).mp hother
    obtain heq | htrans := Relation.reflTransGen_iff_eq_or_transGen.mp hto
    · exact hne heq
    · exact hacyclic key (htrans.trans_left hfrom)

end

end Found

end Issues

section Exact

variable {canonical : List MetricInventoryRecord}

/-- The issues of dependencies that are followed up no further. -/
def plainIssues (records : List MetricInventoryRecord) : List MetricDependencyIssue :=
  records.flatMap fun record => record.dependencies.filterMap (dependencyIssue (metricKeys records) record)

theorem plainIssues_eq_nil {records : List MetricInventoryRecord} :
    plainIssues records = [] ↔
      ∀ record ∈ records, ∀ d ∈ record.dependencies, d.target ≠ record.metricKey ∧ d.target ∈ metricKeys records := by
  rw [plainIssues, List.flatMap_eq_nil_iff]
  refine forall₂_congr fun record _ => ?_
  rw [List.filterMap_eq_nil_iff]
  exact forall₂_congr fun d _ => dependencyIssue_eq_none

theorem plainIssues_code {records : List MetricInventoryRecord} {issue : MetricDependencyIssue} (h : issue ∈ plainIssues records) :
    issue.code ≠ .metricDependencyCycle := by
  obtain ⟨record, -, hissue⟩ := List.mem_flatMap.mp h
  obtain ⟨d, -, hissue⟩ := List.mem_filterMap.mp hissue
  unfold dependencyIssue at hissue
  split at hissue
  · obtain rfl := Option.some.inj hissue
    nofun
  · split at hissue
    · obtain rfl := Option.some.inj hissue
      nofun
    · nomatch hissue

/-- The analysis gives the issues of the dependencies and those of the components, in order. -/
theorem analyze_spec (hkeys : (metricKeys (canonicalRecords canonical)).Nodup) :
    ∃ components cycles, Found (canonicalRecords canonical) components cycles ∧
      analyzeCanonicalDependencies canonical = .ok (sortBy dependencyIssueSortKey (plainIssues (canonicalRecords canonical) ++ cycles)) := by
  obtain ⟨components, cycles, hcycles, hfound⟩ := dependencyCycleIssues_spec hkeys
  refine ⟨components, cycles, hfound, ?_⟩
  rw [analyzeCanonicalDependencies, hcycles]
  rfl

theorem canonicalRecords_idem : canonicalRecords (canonicalRecords canonical) = canonicalRecords canonical := by
  rw [canonicalRecords, canonicalRecords, List.filter_filter]
  exact List.filter_congr fun _ _ => Bool.and_self _

theorem mem_edges {records : List MetricInventoryRecord} {key target : String} :
    (key, target) ∈ (dependencyEdges records).map (fun edge => (edge.source, edge.target)) ↔ DependsOn records key target := by
  rw [dependencyEdges, List.mem_map]
  constructor
  · rintro ⟨edge, hedge, heq⟩
    obtain ⟨record, hrecord, hedge⟩ := List.mem_flatMap.mp (mem_sortBy.mp hedge)
    obtain ⟨d, hd, rfl⟩ := List.mem_map.mp hedge
    obtain ⟨rfl, rfl⟩ := Prod.mk.inj heq
    exact ⟨record, hrecord, rfl, d, hd, rfl⟩
  · rintro ⟨record, hrecord, rfl, d, hd, rfl⟩
    exact ⟨_, mem_sortBy.mpr (List.mem_flatMap.mpr ⟨record, hrecord, List.mem_map.mpr ⟨d, hd, rfl⟩⟩), rfl⟩

/-- Where nothing goes round, no descent along the dependencies goes on for ever. -/
theorem wellFounded_dependsOn {records : List MetricInventoryRecord}
    (hclean : ∀ record ∈ records, ∀ d ∈ record.dependencies, d.target ≠ record.metricKey ∧ d.target ∈ metricKeys records)
    (hacyclic : ∀ key, ¬Relation.TransGen (DependsOn records) key key) : WellFounded fun target key => DependsOn records key target := by
  have hsame : ∀ target key, ComesBefore id (fun key => (records.filter fun r => r.metricKey = key).flatMap fun r =>
      r.dependencies.map MetricDependency.target) (metricKeys records) target key ↔ DependsOn records key target := by
    intro target key
    constructor
    · rintro ⟨-, -, hmem⟩
      obtain ⟨record, hrecord, hd⟩ := List.mem_flatMap.mp hmem
      obtain ⟨d, hd, heq⟩ := List.mem_map.mp hd
      obtain ⟨hrecord, hkey⟩ := List.mem_filter.mp hrecord
      exact ⟨record, hrecord, of_decide_eq_true hkey, d, hd, heq⟩
    · intro h
      obtain ⟨record, hrecord, rfl, d, hd, rfl⟩ := h
      refine ⟨(hclean record hrecord d hd).2, List.mem_map_of_mem hrecord, ?_⟩
      exact List.mem_flatMap.mpr ⟨record, List.mem_filter.mpr ⟨hrecord, decide_eq_true rfl⟩, List.mem_map_of_mem hd⟩
  refine Subrelation.wf (fun h => (hsame _ _).mpr h) ((acyclic_iff_wellFounded _ _ _).mp fun key hcycle => hacyclic key ?_)
  exact Relation.transGen_swap.mp (Relation.TransGen.mono (fun target key h => (hsame target key).mp h) key key hcycle)

/-- Edges in order are accepted as they are. -/
theorem makeGraph_ok {edges : List CanonicalDependencyEdge} (hstable : sortBy edgeSortKey edges = edges) {order : List String}
    (hnodup : order.Nodup) : ∃ graph, makeGraph edges order = .ok graph ∧ graph.topologicalOrder = order := by
  rw [makeGraph, dif_pos hstable, dif_pos hnodup]
  exact ⟨_, rfl, rfl⟩

/-- What has been sorted is sorted. -/
theorem sortBy_dependencyEdges (records : List MetricInventoryRecord) :
    sortBy edgeSortKey (dependencyEdges records) = dependencyEdges records := by
  have hsorted := pairwise_sortBy edgeSortKey (dependencyEdges records)
  have hsorted' : (dependencyEdges records).Pairwise fun a b => edgeSortKey a ≤ edgeSortKey b := pairwise_sortBy edgeSortKey _
  refine (sortBy_perm edgeSortKey (dependencyEdges records)).eq_of_pairwise (fun a b _ _ hab hba => ?_) hsorted hsorted'
  have hkey := le_antisymm hab hba
  cases a
  cases b
  simpa [edgeSortKey, Prod.ext_iff] using hkey

/-- Without an issue the topological order is complete, with dependencies first, and no such order is smaller. -/
theorem build_spec {records : List MetricInventoryRecord} (hkeys : (metricKeys records).Nodup)
    (hclean : ∀ record ∈ records, ∀ d ∈ record.dependencies, d.target ≠ record.metricKey ∧ d.target ∈ metricKeys records)
    (hacyclic : ∀ key, ¬Relation.TransGen (DependsOn records) key key) :
    ∃ order, topologicalOrder (sortBy id (metricKeys records)) ((dependencyEdges records).map fun edge => (edge.source, edge.target)) =
        some order ∧ IsTopologicalOrder records order ∧ ∀ other, IsTopologicalOrder records other → order ≤ other := by
  have hnodup : (sortBy id (metricKeys records)).Nodup := (sortBy_perm id _).nodup_iff.mpr hkeys
  have hedges : ∀ e ∈ (dependencyEdges records).map fun edge => (edge.source, edge.target),
      e.1 ∈ sortBy id (metricKeys records) ∧ e.2 ∈ sortBy id (metricKeys records) := by
    rintro ⟨key, target⟩ he
    have hdepends := mem_edges.mp he
    rw [mem_sortBy, mem_sortBy]
    refine ⟨hdepends.mem, ?_⟩
    obtain ⟨record, hrecord, -, d, hd, rfl⟩ := hdepends
    exact (hclean record hrecord d hd).2
  have hwf : WellFounded fun target key =>
      (key, target) ∈ (dependencyEdges records).map fun edge : CanonicalDependencyEdge => (edge.source, edge.target) :=
    Subrelation.wf (fun h => mem_edges.mp h) (wellFounded_dependsOn hclean hacyclic)
  have hiff : ∀ order, Degrees.IsOrder (sortBy id (metricKeys records))
      ((dependencyEdges records).map fun edge => (edge.source, edge.target)).toFinset order ↔ IsTopologicalOrder records order := by
    intro order
    refine ⟨fun h => ⟨h.nodup, fun key => (h.mem key).trans mem_sortBy, fun before key after heq target hdepends => ?_⟩,
      fun h => ⟨h.nodup, fun key => (h.complete key).trans mem_sortBy.symm, fun before key after heq target hedge => ?_⟩⟩
    · exact h.first before key after heq target (List.mem_toFinset.mpr (mem_edges.mpr hdepends))
    · exact h.first before key after heq target (mem_edges.mp (List.mem_toFinset.mp hedge))
  obtain ⟨order, horder, hvalid, hleast⟩ := Degrees.topologicalOrder_spec hnodup hedges hwf
  exact ⟨order, horder, (hiff order).mp hvalid, fun other hother => hleast other ((hiff other).mpr hother)⟩

/-- The dependency analysis is exact. -/
theorem dependency_analysis_exact (canonical : List MetricInventoryRecord) (hkeys : (metricKeys (canonicalRecords canonical)).Nodup) :
    ∃ issues, analyzeCanonicalDependencies canonical = .ok issues ∧
      (issues = [] ↔
        (∀ record ∈ canonicalRecords canonical, ∀ d ∈ record.dependencies,
          d.target ≠ record.metricKey ∧ d.target ∈ metricKeys (canonicalRecords canonical)) ∧
        ∀ key, ¬Relation.TransGen (DependsOn (canonicalRecords canonical)) key key) ∧
      (∀ component, Component (canonicalRecords canonical) component → 2 ≤ component.card →
        issues.countP (fun issue => issue.code = .metricDependencyCycle ∧ issue.metricKey ∈ component) = 1) ∧
      (∀ issue ∈ issues, issue.code = .metricDependencyCycle →
        ∃ component, Component (canonicalRecords canonical) component ∧ 2 ≤ component.card ∧
          IsCycleIssue (canonicalRecords canonical) component issue) ∧
      (issues = [] →
        ∃ graph, buildCanonicalDependencyGraph canonical = .ok graph ∧
          IsTopologicalOrder (canonicalRecords canonical) graph.topologicalOrder ∧
          ∀ other, IsTopologicalOrder (canonicalRecords canonical) other → graph.topologicalOrder ≤ other) := by
  obtain ⟨components, cycles, hfound, hanalyze⟩ := analyze_spec hkeys
  have hperm := sortBy_perm dependencyIssueSortKey (plainIssues (canonicalRecords canonical) ++ cycles)
  have hnil : sortBy dependencyIssueSortKey (plainIssues (canonicalRecords canonical) ++ cycles) = [] ↔
      plainIssues (canonicalRecords canonical) = [] ∧ cycles = [] := by
    rw [← List.append_eq_nil_iff]
    exact ⟨fun h => List.perm_nil.mp (h ▸ hperm.symm), fun h => List.perm_nil.mp (h ▸ hperm)⟩
  have hiff : sortBy dependencyIssueSortKey (plainIssues (canonicalRecords canonical) ++ cycles) = [] ↔
      (∀ record ∈ canonicalRecords canonical, ∀ d ∈ record.dependencies,
        d.target ≠ record.metricKey ∧ d.target ∈ metricKeys (canonicalRecords canonical)) ∧
      ∀ key, ¬Relation.TransGen (DependsOn (canonicalRecords canonical)) key key := by
    rw [hnil, plainIssues_eq_nil]
    exact and_congr_right fun hclean => hfound.eq_nil_iff hclean
  refine ⟨_, hanalyze, hiff, fun component hcomponent hcard => ?_, fun issue hissue hcode => ?_, fun h => ?_⟩
  · rw [hperm.countP_eq, List.countP_append, List.countP_eq_zero.mpr, Nat.zero_add]
    · rw [← hfound.count_eq_one hcomponent hcard]
      refine List.countP_congr fun issue hissue => ?_
      rw [decide_eq_true_iff, decide_eq_true_iff]
      exact and_iff_right (hfound.exists_of_issue hissue).1
    · intro issue hissue htrue
      exact plainIssues_code hissue (of_decide_eq_true htrue).1
  · rcases List.mem_append.mp (mem_sortBy.mp hissue) with hplain | hcycle
    · exact absurd hcode (plainIssues_code hplain)
    · exact (hfound.exists_of_issue hcycle).2
  · obtain ⟨hclean, hacyclic⟩ := hiff.mp h
    obtain ⟨order, horder, hvalid, hleast⟩ := build_spec hkeys hclean hacyclic
    obtain ⟨graph, hgraph, hsame⟩ := makeGraph_ok (sortBy_dependencyEdges (canonicalRecords canonical)) hvalid.nodup
    refine ⟨graph, ?_, hsame ▸ hvalid, fun other hother => hsame ▸ hleast other hother⟩
    have hagain : analyzeCanonicalDependencies (canonicalRecords canonical) = .ok [] := by
      rw [h] at hanalyze
      rw [← hanalyze, analyzeCanonicalDependencies, analyzeCanonicalDependencies, canonicalRecords_idem]
    rw [buildCanonicalDependencyGraph, hagain]
    simp only [bind, Except.bind, horder]
    exact hgraph

end Exact

/-- A derived metric of the canonical source that depends on one other. -/
def derivedRecord (key target : String) (identity : isIdentity key = true) : MetricInventoryRecord where
  metricKey := key
  displayName := "Margin"
  metricType := .derived
  dependencies := [{ label := "base", target := target }]
  provenance := { sourceKind := .canonicalGold, sourceFile := "margin.yaml" }
  identity := identity
  named := by decide
  labels := List.nodup_singleton _
  legacy := by decide
  bare := nofun

/-- Two metrics that are defined by each other. -/
def circularRecords : List MetricInventoryRecord :=
  [derivedRecord "gross_margin" "net_margin" (by decide), derivedRecord "net_margin" "gross_margin" (by decide)]

theorem dependency_analysis_circular : ∃ issues, analyzeCanonicalDependencies circularRecords = .ok issues ∧ issues ≠ [] := by
  obtain ⟨issues, hanalyze, hiff, -⟩ := dependency_analysis_exact circularRecords (by decide)
  refine ⟨issues, hanalyze, fun hnil => (hiff.mp hnil).2 "gross_margin" ?_⟩
  have hto : DependsOn (canonicalRecords circularRecords) "gross_margin" "net_margin" :=
    ⟨_, List.mem_cons_self, rfl, _, List.mem_cons_self, rfl⟩
  have hfrom : DependsOn (canonicalRecords circularRecords) "net_margin" "gross_margin" :=
    ⟨_, List.mem_cons_of_mem _ List.mem_cons_self, rfl, _, List.mem_cons_self, rfl⟩
  exact .tail (.single hto) hfrom

end Inventory

end Nl2Sql
