import Nl2Sql.Lib.Decimal
import Nl2Sql.Lib.Json

/-!
# Integers that have a text

`str(n)` and `json.dumps` write an integer of at most 4300 digits; a longer one raises `ValueError`.
-/

namespace Py

/-- The most digits that `int.__repr__` writes. -/
def maxStrDigits : Nat := 4300

/-- An integer that has a text. -/
def WritableInt (n : Int) : Prop := Decimal.numDigits n.natAbs ≤ maxStrDigits

instance (n : Int) : Decidable (WritableInt n) := inferInstanceAs (Decidable (_ ≤ _))

mutual

/-- Every integer of a value has a text: what `json.dumps` asks of it. -/
def Json.writable : Json → Bool
  | .int n => WritableInt n
  | .arr items => Json.writableItems items
  | .obj members => Json.writableMembers members
  | _ => true

/-- Of every item. -/
def Json.writableItems : List Json → Bool
  | [] => true
  | value :: rest => Json.writable value && Json.writableItems rest

/-- Of every member. -/
def Json.writableMembers : List (String × Json) → Bool
  | [] => true
  | (_, value) :: rest => Json.writable value && Json.writableMembers rest

end

end Py
