import Nl2Sql.Lib.JsonOrder

/-!
# Fingerprints of metric definitions

The text a metric definition is hashed as, `_canonical_json` of `semantic/metric_inventory.py`: mappings in the order of their keys, and
lists in the order of the texts of their items.
-/

namespace Nl2Sql.Inventory

open Py

mutual

/-- `_canonicalize`. -/
def canonicalize : Json → Json
  | .arr items => .arr (sortBy Json.dumps (canonicalizeItems items))
  | .obj members => .obj (sortBy Prod.fst (canonicalizeMembers members))
  | value => value

/-- `[_canonicalize(item) for item in value]`. -/
def canonicalizeItems : List Json → List Json
  | [] => []
  | value :: rest => canonicalize value :: canonicalizeItems rest

/-- The items of a mapping, canonicalized one by one. -/
def canonicalizeMembers : List (String × Json) → List (String × Json)
  | [] => []
  | (name, value) :: rest => (name, canonicalize value) :: canonicalizeMembers rest

end

/-- `_canonical_json`. -/
def canonicalJson (value : Json) : String := (canonicalize value).dumps

/-- A metric definition: mappings with string keys, lists, strings, integers, booleans and null. -/
structure MetricDefinition where
  value : Json
  plain : value.Plain

end Nl2Sql.Inventory
