import Nl2Sql.Lib.DecimalText
import Nl2Sql.Lib.JsonText

/-!
# Canonical rowsets

`_normalize_value` and `rowset_sha256` of `orchestration/candidates.py`: what two candidates' results are compared by. A value is
turned into tagged JSON, the rows are sorted by their texts, and the text of the sorted rows is hashed.
-/

namespace Nl2Sql

open Py

/-- A value of a result row. A float is known by its seventeen significant digits, a date and a time by their ISO texts; a value that
is not finite has neither digits nor a number. -/
inductive RowValue where
  | null
  | bool (b : Bool)
  | int (n : Int)
  | str (s : String)
  | float (digits : Option String)
  | decimal (value : Option Decimal)
  /-- A date with a time of day: of UTC where it has an offset, else local. -/
  | datetime (aware : Bool) (iso : String)
  | date (iso : String)
  | dict (entries : List (String × RowValue))
  /-- A list or a tuple. -/
  | list (items : List RowValue)
  /-- An object of any other type. -/
  | other

/-- A row: its columns and their values. -/
abbrev Row := List (String × RowValue)

/-- The columns of a row. -/
def Row.columns (row : Row) : List String := row.map Prod.fst

/-- The tagged text of a decimal: all zeros are one, and the zeros at the end of a fraction go. -/
def decimalTag (value : Decimal) : Json := .obj [("$decimal", .str (if value.isZero then "0" else value.plainText))]

/-- An item of a tagged object. -/
def objectItem (member : String × Except String Json) : Except String Json := do
  let value ← member.2
  pure (.arr [.str member.1, value])

mutual

/-- `_normalize_value`. -/
def normalizeValue : RowValue → Except String Json
  | .null => .ok .null
  | .bool b => .ok (.bool b)
  | .int n => .ok (.int n)
  | .str s => .ok (.str s)
  | .float none => .error "nonfinite float is not canonical"
  | .float (some digits) => .ok (.obj [("$float", .str digits)])
  | .decimal none => .error "nonfinite decimal is not canonical"
  | .decimal (some value) => .ok (decimalTag value)
  | .datetime aware iso => .ok (.obj [(if aware then "$datetime_utc" else "$datetime_local", .str iso)])
  | .date iso => .ok (.obj [("$date", .str iso)])
  | .dict entries => do
    let items ← ((normalizeEntries entries).insertionSort fun a b => a.1 ≤ b.1).mapM objectItem
    pure (.obj [("$object", .arr items)])
  | .list items => do
    let items ← (normalizeItems items).mapM id
    pure (.arr items)
  | .other => .error "unsupported canonical value type"

/-- The items of a list, normalized. -/
def normalizeItems : List RowValue → List (Except String Json)
  | [] => []
  | value :: rest => normalizeValue value :: normalizeItems rest

/-- The entries of a dictionary, with their values normalized. -/
def normalizeEntries : List (String × RowValue) → List (String × Except String Json)
  | [] => []
  | (name, value) :: rest => (name, normalizeValue value) :: normalizeEntries rest

end

/-- Every row has the columns of the first. -/
def SameColumns (rowset : List Row) : Prop := ∀ row ∈ rowset, ∀ first ∈ rowset.head?, SameSet row.columns first.columns

instance (rowset : List Row) : Decidable (SameColumns rowset) := inferInstanceAs (Decidable (∀ row ∈ rowset, ∀ first ∈ rowset.head?, _))

/-- The rows sorted by their texts. -/
def sortedRows (rows : List Json) : List Json := rows.insertionSort fun a b => a.dumps ≤ b.dumps

/-- What `rowset_sha256` hashes. -/
def rowsetPayload (rowset : List Row) : Except String String :=
  if ¬ SameColumns rowset then
    .error "rowset columns must be consistent"
  else do
    let rows ← rowset.mapM fun row => normalizeValue (.dict row)
    pure (Json.arr (sortedRows rows)).dumps

/-- `rowset_sha256`, for the hash of a text. -/
def rowsetSha256 {α : Type} (sha256 : String → α) (rowset : List Row) : Except String α := do
  let payload ← rowsetPayload rowset
  pure (sha256 payload)

end Nl2Sql
