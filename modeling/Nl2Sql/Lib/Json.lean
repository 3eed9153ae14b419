import Mathlib.Data.List.Sort
import Mathlib.Data.String.Basic

/-!
# JSON values

A JSON value as Python's `json` reads it: a number without a fraction or an exponent is an integer, any other number a binary
float, known here by its shortest decimal text. An object is the list of its members.
-/

namespace Py

/-- A JSON value. -/
inductive Json where
  | null
  | bool (b : Bool)
  | int (n : Int)
  | float (text : String)
  | str (s : String)
  | arr (items : List Json)
  | obj (members : List (String × Json))

theorem one_le_toNat {n : Int} (h : 1 ≤ n) : 1 ≤ n.toNat := by omega

namespace Json

/-- The member of an object under a name. -/
def member? (name : String) : List (String × Json) → Option Json
  | [] => none
  | m :: rest => if m.1 = name then some m.2 else member? name rest

/-! ## Text -/

/-- One character of a JSON string: what `json.dumps` escapes where it keeps characters beyond ASCII. -/
def escapeChar (c : Char) : List Char :=
  if c = '"' then ['\\', '"']
  else if c = '\\' then ['\\', '\\']
  else if c = '\n' then ['\\', 'n']
  else if c = '\r' then ['\\', 'r']
  else if c = '\t' then ['\\', 't']
  else if c.toNat = 8 then ['\\', 'b']
  else if c.toNat = 12 then ['\\', 'f']
  else if c.toNat < 32 then ['\\', 'u', '0', '0', Nat.digitChar (c.toNat / 16), Nat.digitChar (c.toNat % 16)]
  else [c]

/-- A JSON string. -/
def quote (s : String) : String := String.ofList ('"' :: s.toList.flatMap escapeChar ++ ['"'])

mutual

/-- `json.dumps(value, ensure_ascii=False, separators=(",", ":"), sort_keys=True)`. -/
def dumps : Json → String
  | .null => "null"
  | .bool true => "true"
  | .bool false => "false"
  | .int n => toString n
  | .float text => text
  | .str s => quote s
  | .arr items => "[" ++ ",".intercalate (dumpsItems items) ++ "]"
  | .obj members =>
    "\x7b" ++ ",".intercalate (((dumpsMembers members).insertionSort fun a b => a.1 ≤ b.1).map fun m => quote m.1 ++ ":" ++ m.2) ++ "\x7d"

/-- The texts of the items of an array. -/
def dumpsItems : List Json → List String
  | [] => []
  | value :: rest => dumps value :: dumpsItems rest

/-- The texts of the members of an object, with their names. -/
def dumpsMembers : List (String × Json) → List (String × String)
  | [] => []
  | (name, value) :: rest => (name, dumps value) :: dumpsMembers rest

end

end Json

end Py
