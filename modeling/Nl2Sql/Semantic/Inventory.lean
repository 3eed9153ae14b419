import Mathlib.Data.Prod.Lex
import Nl2Sql.Lib.ComponentSearch
import Nl2Sql.Lib.ShortestCycle
import Nl2Sql.Lib.TopologicalOrder

/-!
# The metric inventory and its dependencies

An inventory record names one metric identity and the identities its definition depends on. Before an inventory is accepted the dependencies
of its canonical records are analyzed: what refers to itself, what refers to nothing, and what goes round in a circle is an issue. Without
an issue the dependencies are a graph with a topological order.
-/

namespace Nl2Sql

namespace Inventory

open Py

/-- `_IDENTITY_RE`. -/
def isIdentity (text : String) : Bool :=
  match text.toList with
  | [] => false
  | c :: rest => isLowerAscii c && rest.length ≤ 127 && rest.all fun c => isLowerAscii c || isDigitAscii c || c == '_'

inductive SourceKind
  | canonicalGold
  | legacySemantic
  deriving DecidableEq, Repr

inductive MetricType
  | raw
  | derived
  | external
  | legacyOnly
  deriving DecidableEq, Repr

structure SourceProvenance where
  sourceKind : SourceKind
  sourceFile : String
  deriving DecidableEq

structure MetricDependency where
  label : String
  target : String
  deriving DecidableEq, Repr

/-- A record of the inventory: its labels differ, and legacy records are just those of the legacy type, which depend on nothing. -/
structure MetricInventoryRecord where
  metricKey : String
  displayName : String
  metricType : MetricType
  domain : Option String := none
  unit : Option String := none
  dependencies : List MetricDependency := []
  provenance : SourceProvenance
  identity : isIdentity metricKey = true
  named : displayName ≠ ""
  labels : (dependencies.map MetricDependency.label).Nodup
  legacy : metricType = .legacyOnly ↔ provenance.sourceKind = .legacySemantic
  bare : metricType = .legacyOnly → dependencies = []
  deriving DecidableEq

inductive DependencyIssueCode
  | unknownMetricDependency
  | selfMetricDependency
  | metricDependencyCycle
  deriving DecidableEq, Repr

def DependencyIssueCode.value : DependencyIssueCode → String
  | .unknownMetricDependency => "unknown_metric_dependency"
  | .selfMetricDependency => "self_metric_dependency"
  | .metricDependencyCycle => "metric_dependency_cycle"

structure MetricDependencyIssue where
  code : DependencyIssueCode
  metricKey : String
  message : String
  label : Option String := none
  target : Option String := none
  cycle : List String := []
  deriving DecidableEq, Repr

structure CanonicalDependencyEdge where
  source : String
  label : String
  target : String
  deriving DecidableEq, Repr

/-- `InventoryValidationError`, and what a lookup that fails or a loop without an end would be. -/
inductive InventoryError
  | invalid (message : String)
  | internal
  deriving DecidableEq, Repr

/-- `_edge_sort_key`. -/
def edgeSortKey (edge : CanonicalDependencyEdge) : String ×ₗ String ×ₗ String := toLex (edge.source, toLex (edge.label, edge.target))

/-- `_dependency_issue_sort_key`. -/
def dependencyIssueSortKey (issue : MetricDependencyIssue) : String ×ₗ String ×ₗ String ×ₗ String ×ₗ List String :=
  toLex (issue.code.value, toLex (issue.metricKey, toLex (issue.label.getD "", toLex (issue.target.getD "", issue.cycle))))

/-- A verified graph: its edges stand in order, and its topological order comes to no identity twice. -/
structure CanonicalDependencyGraph where
  edges : List CanonicalDependencyEdge
  topologicalOrder : List String
  stable : sortBy edgeSortKey edges = edges
  nodup : topologicalOrder.Nodup

/-- The records that count: those of the canonical source. -/
def canonicalRecords (canonical : List MetricInventoryRecord) : List MetricInventoryRecord :=
  canonical.filter fun record => record.provenance.sourceKind = .canonicalGold

/-- The issue of one dependency, if it has one. -/
def dependencyIssue (identity : List String) (record : MetricInventoryRecord) (dependency : MetricDependency) :
    Option MetricDependencyIssue :=
  if dependency.target = record.metricKey then
    some
      { code := .selfMetricDependency
        metricKey := record.metricKey
        label := some dependency.label
        target := some dependency.target
        message := "metric dependency refers to itself: " ++ record.metricKey ++ " (" ++ dependency.label ++ ")" }
  else if dependency.target ∉ identity then
    some
      { code := .unknownMetricDependency
        metricKey := record.metricKey
        label := some dependency.label
        target := some dependency.target
        message := "metric dependency does not exist in the canonical identity set: " ++ dependency.target }
  else
    none

/-- What a record leads to: the targets of its dependencies without an issue, in order. -/
def knownTargets (identity : List String) (record : MetricInventoryRecord) : List String :=
  sortBy id ((record.dependencies.filter fun d => dependencyIssue identity record d = none).map MetricDependency.target).dedup

/-- The nodes a node of the graph leads to. -/
def neighbours (graph : Dict String (List String)) (key : String) : List String := (graph.get? key).getD []

/-- The issue of a strongly connected component. -/
def cycleIssue (graph : Dict String (List String)) (component : List String) : Except InventoryError MetricDependencyIssue :=
  match Front.canonicalCycle (neighbours graph) component with
  | none | some [] => .error .internal
  | some (first :: rest) =>
    .ok
      { code := .metricDependencyCycle
        metricKey := first
        cycle := first :: rest
        message := "metric dependency cycle detected: " ++ " -> ".intercalate (first :: rest) }

/-- `_dependency_cycle_issues`. -/
def dependencyCycleIssues (graph : Dict String (List String)) : Except InventoryError (List MetricDependencyIssue) :=
  match Tarjan.stronglyConnectedComponents (neighbours graph) graph.keys with
  | none => .error .internal
  | some components => (components.filter fun component => 2 ≤ component.length).mapM (cycleIssue graph)

/-- The identities some records have. -/
def metricKeys (records : List MetricInventoryRecord) : List String := records.map MetricInventoryRecord.metricKey

/-- The graph of some records. -/
def dependencyGraph (records : List MetricInventoryRecord) : Dict String (List String) :=
  .ofList (records.map fun record => (record.metricKey, knownTargets (metricKeys records) record))

/-- `analyze_canonical_dependencies`. -/
def analyzeCanonicalDependencies (canonical : List MetricInventoryRecord) : Except InventoryError (List MetricDependencyIssue) := do
  let records := canonicalRecords canonical
  let issues := records.flatMap fun record => record.dependencies.filterMap (dependencyIssue (metricKeys records) record)
  let cycles ← dependencyCycleIssues (dependencyGraph records)
  return sortBy dependencyIssueSortKey (issues ++ cycles)

/-- The edges of some records. -/
def dependencyEdges (records : List MetricInventoryRecord) : List CanonicalDependencyEdge :=
  sortBy edgeSortKey (records.flatMap fun record =>
    record.dependencies.map fun d => { source := record.metricKey, label := d.label, target := d.target })

/-- `CanonicalDependencyGraph(...)`, with its validators. -/
def makeGraph (edges : List CanonicalDependencyEdge) (order : List String) : Except InventoryError CanonicalDependencyGraph :=
  if stable : sortBy edgeSortKey edges = edges then
    if nodup : order.Nodup then
      .ok { edges := edges, topologicalOrder := order, stable := stable, nodup := nodup }
    else
      .error (.invalid "topological order must not repeat a metric identity")
  else
    .error (.invalid "dependency edges must use stable order")

/-- `build_canonical_dependency_graph`. -/
def buildCanonicalDependencyGraph (canonical : List MetricInventoryRecord) : Except InventoryError CanonicalDependencyGraph := do
  let records := canonicalRecords canonical
  let issues ← analyzeCanonicalDependencies records
  if issues ≠ [] then
    throw (.invalid ("invalid canonical dependency graph: " ++ "; ".intercalate (issues.map MetricDependencyIssue.message)))
  let edges := dependencyEdges records
  match topologicalOrder (sortBy id (metricKeys records)) (edges.map fun edge => (edge.source, edge.target)) with
  | none => throw .internal
  | some order => makeGraph edges order

end Inventory

end Nl2Sql
