import Nl2Sql.Lib.Json

/-!
# A JSON text has one reading

`dumps` is injective on the values it writes canonically: the names of each object strictly increase, and no float is written like another
value. A text is followed by a separator or by nothing, never by another digit, so it can be cancelled from the front of a longer text; the
induction over the value carries what is left of both texts along.
-/

namespace Py

namespace Json

mutual

/-- A value that has one text: no floats, and the names of every object strictly increase. -/
def Canonical : Json → Prop
  | .float _ => False
  | .arr items => CanonicalItems items
  | .obj members => (members.map Prod.fst).Pairwise (· < ·) ∧ CanonicalMembers members
  | _ => True

/-- Every item is canonical. -/
def CanonicalItems : List Json → Prop
  | [] => True
  | value :: rest => Canonical value ∧ CanonicalItems rest

/-- Every member is canonical. -/
def CanonicalMembers : List (String × Json) → Prop
  | [] => True
  | (_, value) :: rest => Canonical value ∧ CanonicalMembers rest

end

theorem canonicalItems_iff {items : List Json} : CanonicalItems items ↔ ∀ v ∈ items, Canonical v := by
  induction items with
  | nil => simp [CanonicalItems]
  | cons v items ih => simp [CanonicalItems, ih]

/-! ## Strings -/

/-- The value of a lower-case hexadecimal digit. -/
def hexValue (c : Char) : Nat := if c.isDigit then c.toNat - 48 else c.toNat - 87

/-- Read one character of a JSON string back, and what follows it. None at the closing quote. -/
def readChar : List Char → Option (Char × List Char)
  | '\\' :: 'u' :: _ :: _ :: a :: b :: rest => some (Char.ofNat (16 * hexValue a + hexValue b), rest)
  | '\\' :: 'n' :: rest => some ('\n', rest)
  | '\\' :: 'r' :: rest => some ('\r', rest)
  | '\\' :: 't' :: rest => some ('\t', rest)
  | '\\' :: 'b' :: rest => some (Char.ofNat 8, rest)
  | '\\' :: 'f' :: rest => some (Char.ofNat 12, rest)
  | '\\' :: c :: rest => some (c, rest)
  | '"' :: _ => none
  | c :: rest => some (c, rest)
  | [] => none

theorem hexValue_digitChar : ∀ n < 32, 16 * hexValue (Nat.digitChar (n / 16)) + hexValue (Nat.digitChar (n % 16)) = n := by decide

/-- Reading undoes escaping, whatever follows. -/
theorem readChar_escapeChar (c : Char) (rest : List Char) : readChar (escapeChar c ++ rest) = some (c, rest) := by
  unfold escapeChar
  split
  · subst c; rfl
  split
  · subst c; rfl
  split
  · subst c; rfl
  split
  · subst c; rfl
  split
  · subst c; rfl
  split
  · rename_i h
    rw [← Char.ofNat_toNat c, h]
    rfl
  split
  · rename_i h
    rw [← Char.ofNat_toNat c, h]
    rfl
  split
  · rename_i h
    simp only [List.cons_append, List.nil_append, readChar, hexValue_digitChar c.toNat h, Char.ofNat_toNat]
  · rename_i hquote hslash _ _ _ _ _ _
    unfold readChar
    split <;> simp_all

/-- An escaped string and its closing quote can be cancelled. -/
theorem escaped_cancel {s t rest rest' : List Char}
    (h : s.flatMap escapeChar ++ '"' :: rest = t.flatMap escapeChar ++ '"' :: rest') : s = t ∧ rest = rest' := by
  induction s generalizing t with
  | nil =>
    cases t with
    | nil => exact ⟨rfl, (List.cons.inj h).2⟩
    | cons c t =>
      have hread := congrArg readChar h
      rw [List.flatMap_cons, List.append_assoc, readChar_escapeChar] at hread
      nomatch hread
  | cons c s ih =>
    cases t with
    | nil =>
      have hread := congrArg readChar h
      rw [List.flatMap_cons, List.append_assoc, readChar_escapeChar] at hread
      nomatch hread
    | cons d t =>
      have hread := congrArg readChar h
      rw [List.flatMap_cons, List.flatMap_cons, List.append_assoc, List.append_assoc, readChar_escapeChar, readChar_escapeChar] at hread
      obtain ⟨rfl, htail⟩ := Prod.mk.inj (Option.some.inj hread)
      obtain ⟨rfl, hrest⟩ := ih htail
      exact ⟨rfl, hrest⟩

theorem toList_quote (s : String) : (quote s).toList = '"' :: (s.toList.flatMap escapeChar ++ ['"']) := by
  simp [quote]

theorem quote_cancel {s t : String} {rest rest' : List Char} (h : (quote s).toList ++ rest = (quote t).toList ++ rest') :
    s = t ∧ rest = rest' := by
  rw [toList_quote, toList_quote, List.cons_append, List.cons_append, List.append_assoc, List.append_assoc] at h
  obtain ⟨hs, hrest⟩ := escaped_cancel (List.cons.inj h).2
  exact ⟨String.toList_injective hs, hrest⟩

/-! ## Numbers -/

/-- What follows a number: not another digit. -/
def Ends (rest : List Char) : Prop := rest.head?.any Char.isDigit = false

/-- The digits at the front of a text that ends them. -/
theorem takeWhile_isDigit {ds rest : List Char} (hds : ∀ c ∈ ds, c.isDigit = true) (hr : Ends rest) :
    (ds ++ rest).takeWhile Char.isDigit = ds := by
  have hrest : rest.takeWhile Char.isDigit = [] := by
    cases rest with
    | nil => rfl
    | cons c rest =>
      have hc : c.isDigit = false := hr
      exact List.takeWhile_cons_of_neg (by rw [hc]; nofun)
  rw [List.takeWhile_append_of_pos hds, hrest, List.append_nil]

/-- Digits can be cancelled from the front of what ends them. -/
theorem digits_cancel {m n : Nat} {rest rest' : List Char} (hr : Ends rest) (hr' : Ends rest')
    (h : (Nat.repr m).toList ++ rest = (Nat.repr n).toList ++ rest') : m = n ∧ rest = rest' := by
  rw [Nat.toList_repr, Nat.toList_repr] at h
  have hdigits : ∀ k, ∀ c ∈ Nat.toDigits 10 k, c.isDigit = true :=
    fun k c hc => Nat.isDigit_of_mem_toDigits (by decide) (by decide) hc
  have htake := congrArg (List.takeWhile Char.isDigit) h
  rw [takeWhile_isDigit (hdigits m) hr, takeWhile_isDigit (hdigits n) hr'] at htake
  have hvalue := congrArg (Nat.ofDigitChars 10 · 0) htake
  simp only [Nat.ofDigitChars_ten_toDigits] at hvalue
  rw [htake] at h
  exact ⟨hvalue, List.append_cancel_left h⟩

/-- The first character of a natural number is not a minus sign. -/
theorem head_repr_ne_minus (n : Nat) (rest cs : List Char) : (Nat.repr n).toList ++ rest ≠ '-' :: cs := by
  intro h
  rw [Nat.toList_repr] at h
  obtain ⟨d, ds, hds⟩ := List.exists_cons_of_ne_nil (Nat.toDigits_ne_nil (n := n) (b := 10))
  have hd : d.isDigit = true := Nat.isDigit_of_mem_toDigits (by decide) (by decide) (hds ▸ List.mem_cons_self)
  rw [hds, List.cons_append] at h
  rw [(List.cons.inj h).1] at hd
  nomatch hd

theorem int_cancel {m n : Int} {rest rest' : List Char} (hr : Ends rest) (hr' : Ends rest')
    (h : (toString m).toList ++ rest = (toString n).toList ++ rest') : m = n ∧ rest = rest' := by
  have hneg : ∀ k : Nat, (toString (Int.negSucc k)).toList = '-' :: (Nat.repr (k + 1)).toList := by
    intro k
    show ("-" ++ Nat.repr (k + 1)).toList = _
    rw [String.toList_append]
    rfl
  cases m with
  | ofNat m =>
    cases n with
    | ofNat n =>
      obtain ⟨rfl, hrest⟩ := digits_cancel hr hr' h
      exact ⟨rfl, hrest⟩
    | negSucc n =>
      rw [hneg] at h
      exact absurd h (head_repr_ne_minus m rest _)
  | negSucc m =>
    cases n with
    | ofNat n =>
      rw [hneg] at h
      exact absurd h.symm (head_repr_ne_minus n rest' _)
    | negSucc n =>
      rw [hneg, hneg] at h
      obtain ⟨hmn, hrest⟩ := digits_cancel hr hr' (List.cons.inj h).2
      exact ⟨by omega, hrest⟩

/-- What follows a value: a separator, or nothing. -/
def Closes (rest : List Char) : Prop := rest = [] ∨ ∃ c cs, rest = c :: cs ∧ (c = ',' ∨ c = ']' ∨ c = '\x7d')

theorem Closes.ends {rest : List Char} (h : Closes rest) : Ends rest := by
  rcases h with rfl | ⟨c, cs, rfl, rfl | rfl | rfl⟩ <;> rfl

/-- Texts without separators can be cancelled from the front of what closes them. -/
theorem unseparated_cancel {s t rest rest' : List Char} (hs : ∀ c ∈ s, c ≠ ',' ∧ c ≠ ']' ∧ c ≠ '\x7d')
    (ht : ∀ c ∈ t, c ≠ ',' ∧ c ≠ ']' ∧ c ≠ '\x7d') (hr : Closes rest) (hr' : Closes rest') (h : s ++ rest = t ++ rest') : s = t ∧ rest = rest' := by
  have htake {s rest : List Char} (hs : ∀ c ∈ s, c ≠ ',' ∧ c ≠ ']' ∧ c ≠ '\x7d') (hr : Closes rest) :
      (s ++ rest).takeWhile (fun c => c ≠ ',' ∧ c ≠ ']' ∧ c ≠ '\x7d') = s := by
    have hrest : rest.takeWhile (fun c => c ≠ ',' ∧ c ≠ ']' ∧ c ≠ '\x7d') = [] := by
      rcases hr with rfl | ⟨c, cs, rfl, rfl | rfl | rfl⟩ <;> rfl
    rw [List.takeWhile_append_of_pos fun c hc => decide_eq_true (hs c hc), hrest, List.append_nil]
  have heq := congrArg (List.takeWhile fun c => c ≠ ',' ∧ c ≠ ']' ∧ c ≠ '\x7d') h
  rw [htake hs hr, htake ht hr'] at heq
  rw [heq] at h
  exact ⟨heq, List.append_cancel_left h⟩

/-- The text of an integer holds no separator. -/
theorem unseparated_int (n : Int) : ∀ c ∈ (toString n).toList, c ≠ ',' ∧ c ≠ ']' ∧ c ≠ '\x7d' := by
  have hdigits : ∀ k : Nat, ∀ c ∈ (Nat.repr k).toList, c ≠ ',' ∧ c ≠ ']' ∧ c ≠ '\x7d' := by
    intro k c hc
    rw [Nat.toList_repr] at hc
    have hdigit : c.isDigit = true := Nat.isDigit_of_mem_toDigits (by decide) (by decide) hc
    refine ⟨?_, ?_, ?_⟩ <;> (rintro rfl; nomatch hdigit)
  cases n with
  | ofNat n => exact hdigits n
  | negSucc n =>
    intro c hc
    have htext : (toString (Int.negSucc n)).toList = '-' :: (Nat.repr (n + 1)).toList := by
      show ("-" ++ Nat.repr (n + 1)).toList = _
      rw [String.toList_append]
      rfl
    rw [htext, List.mem_cons] at hc
    rcases hc with rfl | hc
    · decide
    · exact hdigits (n + 1) c hc

/-! ## Values -/

/-- The items of an array after its first, and the closing bracket. -/
def itemsTail : List Json → List Char
  | [] => [']']
  | value :: rest => ',' :: ((dumps value).toList ++ itemsTail rest)

/-- A member of an object. -/
def memberText (m : String × Json) : List Char := (quote m.1).toList ++ ':' :: (dumps m.2).toList

/-- The members of an object after its first, and the closing brace. -/
def membersTail : List (String × Json) → List Char
  | [] => ['\x7d']
  | m :: rest => ',' :: (memberText m ++ membersTail rest)

theorem toList_dumps_nil : (dumps (.arr [])).toList = ['[', ']'] := by decide

theorem toList_dumps_cons (v : Json) (items : List Json) :
    (dumps (.arr (v :: items))).toList = '[' :: ((dumps v).toList ++ itemsTail items) := by
  have htail : ∀ (v : Json) (items : List Json),
      (",".intercalate (dumpsItems (v :: items))).toList ++ [']'] = (dumps v).toList ++ itemsTail items := by
    intro v items
    induction items generalizing v with
    | nil => simp [dumpsItems, itemsTail]
    | cons w items ih =>
      have := ih w
      rw [dumpsItems] at this ⊢
      rw [dumpsItems, String.intercalate_cons_cons]
      simp only [String.toList_append, List.append_assoc, itemsTail] at this ⊢
      rw [this]
      rfl
  rw [dumps, String.toList_append, String.toList_append, List.append_assoc]
  exact congrArg ('[' :: ·) (htail v items)

/-- Names that strictly increase are not moved by the sort. -/
theorem insertionSort_dumpsMembers {members : List (String × Json)} (h : (members.map Prod.fst).Pairwise (· < ·)) :
    (dumpsMembers members).insertionSort (fun a b => a.1 ≤ b.1) = dumpsMembers members := by
  refine List.Pairwise.insertionSort_eq ?_
  have hmap : (dumpsMembers members).map Prod.fst = members.map Prod.fst := by
    induction members with
    | nil => rfl
    | cons m members ih =>
      rw [dumpsMembers, List.map_cons, List.map_cons, ih (List.Pairwise.of_cons h)]
  rw [← hmap, List.pairwise_map] at h
  exact h.imp fun hlt => hlt.le

theorem toList_dumps_object_nil : (dumps (.obj [])).toList = ['\x7b', '\x7d'] := by decide

theorem toList_dumps_object_cons {m : String × Json} {members : List (String × Json)}
    (h : ((m :: members).map Prod.fst).Pairwise (· < ·)) :
    (dumps (.obj (m :: members))).toList = '\x7b' :: (memberText m ++ membersTail members) := by
  have htail : ∀ (m : String × Json) (members : List (String × Json)),
      (",".intercalate ((dumpsMembers (m :: members)).map fun x => quote x.1 ++ ":" ++ x.2)).toList ++ ['\x7d'] =
        memberText m ++ membersTail members := by
    intro m members
    induction members generalizing m with
    | nil => simp [dumpsMembers, membersTail, memberText]
    | cons w members ih =>
      have := ih w
      rw [dumpsMembers, List.map_cons] at this ⊢
      rw [dumpsMembers, List.map_cons, String.intercalate_cons_cons]
      simp only [String.toList_append, List.append_assoc, membersTail] at this ⊢
      rw [this]
      simp [memberText]
  rw [dumps, insertionSort_dumpsMembers h, String.toList_append, String.toList_append, List.append_assoc]
  exact congrArg ('\x7b' :: ·) (htail m members)

theorem closes_itemsTail (items : List Json) (rest : List Char) : Closes (itemsTail items ++ rest) := by
  cases items with
  | nil => exact .inr ⟨_, _, rfl, .inr (.inl rfl)⟩
  | cons v items => exact .inr ⟨_, _, rfl, .inl rfl⟩

theorem closes_membersTail (members : List (String × Json)) (rest : List Char) : Closes (membersTail members ++ rest) := by
  cases members with
  | nil => exact .inr ⟨_, _, rfl, .inr (.inr rfl)⟩
  | cons m members => exact .inr ⟨_, _, rfl, .inl rfl⟩

/-- The kinds of values that the first character of a text tells apart, and the closing bracket. -/
inductive Kind where
  | null | yes | no | int | float | str | arr | obj | bracket
  deriving DecidableEq

/-- The kind of a value. -/
def kindOf : Json → Kind
  | .null => .null
  | .bool true => .yes
  | .bool false => .no
  | .int _ => .int
  | .float _ => .float
  | .str _ => .str
  | .arr _ => .arr
  | .obj _ => .obj

/-- The kind that the first character of a text announces. -/
def kindOfChar (c : Char) : Kind :=
  if c = 'n' then .null
  else if c = 't' then .yes
  else if c = 'f' then .no
  else if c = '"' then .str
  else if c = '[' then .arr
  else if c = '\x7b' then .obj
  else if c = ']' then .bracket
  else .int

/-- What a value of a known kind is. -/
theorem of_kindOf {v w : Json} (h : kindOf v = kindOf w) :
    match v with
    | .null => w = .null
    | .bool b => w = .bool b
    | .int _ => ∃ n, w = .int n
    | .float _ => ∃ text, w = .float text
    | .str _ => ∃ s, w = .str s
    | .arr _ => ∃ items, w = .arr items
    | .obj _ => ∃ members, w = .obj members := by
  rcases v with _ | (_ | _) | _ | _ | _ | _ | _ <;> rcases w with _ | (_ | _) | _ | _ | _ | _ | _ <;> simp [kindOf] at h ⊢

/-- A text that only a float has: it begins like a number, holds no separator and is no integer's. -/
structure FloatText (text : String) : Prop where
  head : ∃ c cs, text.toList = c :: cs ∧ kindOfChar c = .int
  unseparated : ∀ c ∈ text.toList, c ≠ ',' ∧ c ≠ ']' ∧ c ≠ '\x7d'
  not_int : ∀ n : Int, text ≠ toString n

mutual

/-- A value that has one text: floats are written as floats are, and the names of every object strictly increase. -/
def Written : Json → Prop
  | .float text => FloatText text
  | .arr items => WrittenItems items
  | .obj members => (members.map Prod.fst).Pairwise (· < ·) ∧ WrittenMembers members
  | _ => True

/-- Every item is written so. -/
def WrittenItems : List Json → Prop
  | [] => True
  | value :: rest => Written value ∧ WrittenItems rest

/-- Every member is written so. -/
def WrittenMembers : List (String × Json) → Prop
  | [] => True
  | (_, value) :: rest => Written value ∧ WrittenMembers rest

end

mutual

theorem Canonical.written : ∀ {v : Json}, Canonical v → Written v
  | .null, _ => trivial
  | .bool _, _ => trivial
  | .int _, _ => trivial
  | .float _, h => h.elim
  | .str _, _ => trivial
  | .arr _, h => CanonicalItems.written h
  | .obj _, h => ⟨h.1, CanonicalMembers.written h.2⟩

theorem CanonicalItems.written : ∀ {items : List Json}, CanonicalItems items → WrittenItems items
  | [], _ => trivial
  | _ :: _, h => ⟨h.1.written, CanonicalItems.written h.2⟩

theorem CanonicalMembers.written : ∀ {members : List (String × Json)}, CanonicalMembers members → WrittenMembers members
  | [], _ => trivial
  | _ :: _, h => ⟨h.1.written, CanonicalMembers.written h.2⟩

end

/-- The kind that a text begins like: a float begins like an integer. -/
def leadOf (v : Json) : Kind := if kindOf v = .float then .int else kindOf v

/-- A written text begins with a character that tells the kind of its value. -/
theorem head_dumps {v : Json} (h : Written v) : ∃ c cs, (dumps v).toList = c :: cs ∧ kindOfChar c = leadOf v := by
  cases v with
  | null => exact ⟨'n', ['u', 'l', 'l'], by decide, by decide⟩
  | bool b =>
    cases b with
    | true => exact ⟨'t', ['r', 'u', 'e'], by decide, by decide⟩
    | false => exact ⟨'f', ['a', 'l', 's', 'e'], by decide, by decide⟩
  | int n =>
    cases n with
    | ofNat n =>
      obtain ⟨d, ds, hds⟩ := List.exists_cons_of_ne_nil (Nat.toDigits_ne_nil (n := n) (b := 10))
      have hd : d.isDigit = true := Nat.isDigit_of_mem_toDigits (by decide) (by decide) (hds ▸ List.mem_cons_self)
      refine ⟨d, ds, ?_, ?_⟩
      · rw [dumps, ← hds, ← Nat.toList_repr]
        rfl
      · have hne : ∀ c : Char, c.isDigit = false → d ≠ c := by
          rintro c hc rfl
          rw [hd] at hc
          nomatch hc
        simp [kindOfChar, leadOf, kindOf, hne 'n' rfl, hne 't' rfl, hne 'f' rfl, hne '"' rfl, hne '[' rfl, hne '\x7b' rfl, hne ']' rfl]
    | negSucc n =>
      refine ⟨'-', (Nat.repr (n + 1)).toList, ?_, rfl⟩
      show ("-" ++ Nat.repr (n + 1)).toList = _
      rw [String.toList_append]
      rfl
  | float text => exact h.head
  | str s => exact ⟨'"', _, toList_quote s, rfl⟩
  | arr items =>
    cases items with
    | nil => exact ⟨'[', _, toList_dumps_nil, by decide⟩
    | cons v items => exact ⟨'[', _, toList_dumps_cons v items, rfl⟩
  | obj members =>
    cases members with
    | nil => exact ⟨'\x7b', _, toList_dumps_object_nil, by decide⟩
    | cons m members => exact ⟨'\x7b', _, toList_dumps_object_cons h.1, rfl⟩

/-- Texts that agree at the front are texts of one kind of value, but for a float and an integer. -/
theorem leadOf_eq {v w : Json} (hv : Written v) (hw : Written w) {rest rest' : List Char}
    (h : (dumps v).toList ++ rest = (dumps w).toList ++ rest') : leadOf v = leadOf w := by
  obtain ⟨c, cs, hc, hkind⟩ := head_dumps hv
  obtain ⟨d, ds, hd, hkind'⟩ := head_dumps hw
  rw [hc, hd, List.cons_append, List.cons_append] at h
  rw [← hkind, ← hkind', (List.cons.inj h).1]

/-- A float and an integer have texts of their own. -/
theorem float_ne_int {text : String} {n : Int} (hv : FloatText text) {rest rest' : List Char} (hr : Closes rest) (hr' : Closes rest') :
    text.toList ++ rest ≠ (toString n).toList ++ rest' := fun h =>
  hv.not_int n (String.toList_injective (unseparated_cancel hv.unseparated (unseparated_int n) hr hr' h).1)

/-- Texts that agree at the front are texts of one kind of value. -/
theorem kindOf_eq {v w : Json} (hv : Written v) (hw : Written w) {rest rest' : List Char} (hr : Closes rest) (hr' : Closes rest')
    (h : (dumps v).toList ++ rest = (dumps w).toList ++ rest') : kindOf v = kindOf w := by
  have hlead := leadOf_eq hv hw h
  unfold leadOf at hlead
  by_cases hfloat : kindOf v = .float
  · obtain ⟨text, rfl⟩ : ∃ text, v = .float text := of_kindOf (v := .float "") hfloat.symm
    by_cases hfloat' : kindOf w = .float
    · rw [hfloat']
      rfl
    · rw [if_pos hfloat, if_neg hfloat'] at hlead
      obtain ⟨n, rfl⟩ : ∃ n, w = .int n := of_kindOf (v := .int 0) hlead
      exact absurd h (float_ne_int hv hr hr')
  · by_cases hfloat' : kindOf w = .float
    · obtain ⟨text, rfl⟩ : ∃ text, w = .float text := of_kindOf (v := .float "") hfloat'.symm
      rw [if_neg hfloat, if_pos hfloat'] at hlead
      obtain ⟨n, rfl⟩ : ∃ n, v = .int n := of_kindOf (v := .int 0) hlead.symm
      exact absurd h.symm (float_ne_int hw hr' hr)
    · rwa [if_neg hfloat, if_neg hfloat'] at hlead

/-- No written text begins with a closing bracket. -/
theorem ne_bracket_of_written {v : Json} (h : Written v) (rest cs : List Char) : (dumps v).toList ++ rest ≠ ']' :: cs := by
  intro heq
  obtain ⟨c, ds, hc, hkind⟩ := head_dumps h
  rw [hc, List.cons_append] at heq
  rw [(List.cons.inj heq).1] at hkind
  have hne : leadOf v ≠ .bracket := by unfold leadOf kindOf; split <;> (try split) <;> nofun
  exact hne hkind.symm

/-- Arrays with texts that agree at the front have items with texts that agree at the front. -/
theorem itemsTail_eq {items items' : List Json} (hv : WrittenItems items) (hw : WrittenItems items') {rest rest' : List Char}
    (h : (dumps (.arr items)).toList ++ rest = (dumps (.arr items')).toList ++ rest') :
    itemsTail items ++ rest = itemsTail items' ++ rest' := by
  cases items with
  | nil =>
    cases items' with
    | nil => exact (List.cons.inj h).2
    | cons w items' =>
      rw [toList_dumps_nil, toList_dumps_cons, List.cons_append, List.cons_append, List.cons_append, List.append_assoc] at h
      exact absurd (List.cons.inj h).2.symm (ne_bracket_of_written hw.1 _ _)
  | cons v items =>
    cases items' with
    | nil =>
      rw [toList_dumps_nil, toList_dumps_cons, List.cons_append, List.cons_append, List.append_assoc] at h
      exact absurd (List.cons.inj h).2 (ne_bracket_of_written hv.1 _ _)
    | cons w items' =>
      rw [toList_dumps_cons, toList_dumps_cons] at h
      exact congrArg (',' :: ·) (List.cons.inj h).2

/-- Objects with texts that agree at the front have members with texts that agree at the front. -/
theorem membersTail_eq {members members' : List (String × Json)} (hv : (members.map Prod.fst).Pairwise (· < ·))
    (hw : (members'.map Prod.fst).Pairwise (· < ·)) {rest rest' : List Char}
    (h : (dumps (.obj members)).toList ++ rest = (dumps (.obj members')).toList ++ rest') :
    membersTail members ++ rest = membersTail members' ++ rest' := by
  cases members with
  | nil =>
    cases members' with
    | nil => exact (List.cons.inj h).2
    | cons m members' =>
      rw [toList_dumps_object_nil, toList_dumps_object_cons hw, memberText, toList_quote] at h
      nomatch (List.cons.inj (List.cons.inj h).2).1
  | cons m members =>
    cases members' with
    | nil =>
      rw [toList_dumps_object_nil, toList_dumps_object_cons hv, memberText, toList_quote] at h
      nomatch (List.cons.inj (List.cons.inj h).2).1
    | cons m' members' =>
      rw [toList_dumps_object_cons hv, toList_dumps_object_cons hw] at h
      exact congrArg (',' :: ·) (List.cons.inj h).2

mutual

/-- A written text can be cancelled from the front of what closes it. -/
theorem dumps_cancel (v w : Json) (hv : Written v) (hw : Written w) (rest rest' : List Char) (hr : Closes rest) (hr' : Closes rest')
    (h : (dumps v).toList ++ rest = (dumps w).toList ++ rest') : v = w ∧ rest = rest' := by
  have hkind := of_kindOf (kindOf_eq hv hw hr hr' h)
  cases v with
  | null =>
    obtain rfl : w = .null := hkind
    exact ⟨rfl, List.append_cancel_left h⟩
  | bool b =>
    obtain rfl : w = .bool b := hkind
    exact ⟨rfl, List.append_cancel_left h⟩
  | int m =>
    obtain ⟨n, rfl⟩ := hkind
    rw [dumps, dumps] at h
    obtain ⟨rfl, hrest⟩ := int_cancel hr.ends hr'.ends h
    exact ⟨rfl, hrest⟩
  | float text =>
    obtain ⟨text', rfl⟩ := hkind
    obtain ⟨htext, hrest⟩ := unseparated_cancel hv.unseparated hw.unseparated hr hr' h
    exact ⟨congrArg Json.float (String.toList_injective htext), hrest⟩
  | str s =>
    obtain ⟨t, rfl⟩ := hkind
    rw [dumps, dumps] at h
    obtain ⟨rfl, hrest⟩ := quote_cancel h
    exact ⟨rfl, hrest⟩
  | arr items =>
    obtain ⟨items', rfl⟩ := hkind
    obtain ⟨rfl, hrest⟩ := itemsTail_cancel items items' hv hw rest rest' (itemsTail_eq hv hw h)
    exact ⟨rfl, hrest⟩
  | obj members =>
    obtain ⟨members', rfl⟩ := hkind
    obtain ⟨rfl, hrest⟩ := membersTail_cancel members members' hv.2 hw.2 rest rest' (membersTail_eq hv.1 hw.1 h)
    exact ⟨rfl, hrest⟩

/-- The items of an array can be cancelled. -/
theorem itemsTail_cancel (items items' : List Json) (hv : WrittenItems items) (hw : WrittenItems items') (rest rest' : List Char)
    (h : itemsTail items ++ rest = itemsTail items' ++ rest') : items = items' ∧ rest = rest' := by
  cases items with
  | nil =>
    cases items' with
    | nil => exact ⟨rfl, List.append_cancel_left h⟩
    | cons w items' =>
      rw [itemsTail, itemsTail, List.cons_append, List.cons_append] at h
      nomatch (List.cons.inj h).1
  | cons v items =>
    cases items' with
    | nil =>
      rw [itemsTail, itemsTail, List.cons_append, List.cons_append] at h
      nomatch (List.cons.inj h).1
    | cons w items' =>
      rw [itemsTail, itemsTail, List.cons_append, List.cons_append, List.append_assoc, List.append_assoc] at h
      have hcloses := closes_itemsTail items rest
      have hcloses' := closes_itemsTail items' rest'
      obtain ⟨rfl, htail⟩ := dumps_cancel v w hv.1 hw.1 _ _ hcloses hcloses' (List.cons.inj h).2
      obtain ⟨rfl, hrest⟩ := itemsTail_cancel items items' hv.2 hw.2 rest rest' htail
      exact ⟨rfl, hrest⟩

/-- The members of an object can be cancelled. -/
theorem membersTail_cancel (members members' : List (String × Json)) (hv : WrittenMembers members) (hw : WrittenMembers members')
    (rest rest' : List Char) (h : membersTail members ++ rest = membersTail members' ++ rest') :
    members = members' ∧ rest = rest' := by
  cases members with
  | nil =>
    cases members' with
    | nil => exact ⟨rfl, List.append_cancel_left h⟩
    | cons m members' =>
      rw [membersTail, membersTail, List.cons_append, List.cons_append] at h
      nomatch (List.cons.inj h).1
  | cons m members =>
    cases members' with
    | nil =>
      rw [membersTail, membersTail, List.cons_append, List.cons_append] at h
      nomatch (List.cons.inj h).1
    | cons m' members' =>
      obtain ⟨k, v⟩ := m
      obtain ⟨k', w⟩ := m'
      rw [membersTail, membersTail, memberText, memberText, List.cons_append, List.cons_append, List.append_assoc, List.append_assoc,
        List.append_assoc, List.append_assoc] at h
      obtain ⟨hk, hvalue⟩ := quote_cancel (List.cons.inj h).2
      have hcloses := closes_membersTail members rest
      have hcloses' := closes_membersTail members' rest'
      obtain ⟨rfl, htail⟩ := dumps_cancel v w hv.1 hw.1 _ _ hcloses hcloses' (List.cons.inj hvalue).2
      obtain ⟨rfl, hrest⟩ := membersTail_cancel members members' hv.2 hw.2 rest rest' htail
      exact ⟨by rw [show k = k' from hk], hrest⟩

end

/-- A written value is known by its text. -/
theorem dumps_injective_written {v w : Json} (hv : Written v) (hw : Written w) (h : dumps v = dumps w) : v = w := by
  have hcloses : Closes [] := .inl rfl
  exact (dumps_cancel v w hv hw [] [] hcloses hcloses (by rw [h])).1

/-- A canonical value is known by its text. -/
theorem dumps_injective {v w : Json} (hv : Canonical v) (hw : Canonical w) (h : dumps v = dumps w) : v = w :=
  dumps_injective_written hv.written hw.written h

end Json

end Py
