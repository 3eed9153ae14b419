import Mathlib.Data.List.DropRight
import Mathlib.Data.List.Sort
import Mathlib.Data.String.Basic

/-!
# Text, as Python's `str` has it

The few operations on text the verified code calls: `strip`, `lower` on ASCII text, `split` on one character, and the shape
of the regular expressions `^[H][T]{0,n}$` and `^[C]{n}$` that name a bounded identifier. Each is a function of the list of
characters, so that it evaluates. Then what a check does with failure codes: it collects them in a list and drops repetitions.
-/

namespace Py

/-- `str.isspace` of one character: the characters `str.strip` removes. -/
def isSpace (c : Char) : Bool :=
  let n := c.toNat
  (9 ≤ n && n ≤ 13) || (28 ≤ n && n ≤ 32) || n == 0x85 || n == 0xA0 || n == 0x1680 || (0x2000 ≤ n && n ≤ 0x200A) ||
    n == 0x2028 || n == 0x2029 || n == 0x202F || n == 0x205F || n == 0x3000

/-- `s.strip()`. -/
def strip (s : String) : String :=
  String.ofList (((s.toList.dropWhile isSpace).reverse.dropWhile isSpace).reverse)

/-- `not s.strip()`: nothing but white space. -/
def isBlank (s : String) : Bool := strip s == ""

theorem no_words_length : ([] : List String).length ≤ 16 := by decide

theorem no_words_blank : ∀ s ∈ ([] : List String), isBlank s = false := nofun

/-- `c.lower()` of an ASCII character. -/
def lowerChar (c : Char) : Char := if 'A' ≤ c ∧ c ≤ 'Z' then Char.ofNat (c.toNat + 32) else c

/-- `s.lower()` of ASCII text. -/
def lower (s : String) : String := String.ofList (s.toList.map lowerChar)

/-- `s.split(sep)` on one character. -/
def split (sep : Char) (s : String) : List String := (s.toList.splitOn sep).map String.ofList

/-- The words of a text, the one under way first: what stands between white space. -/
def wordsFrom (word : List Char) : List Char → List String
  | [] => if word = [] then [] else [String.ofList word.reverse]
  | c :: cs =>
    if isSpace c then (if word = [] then wordsFrom [] cs else String.ofList word.reverse :: wordsFrom [] cs)
    else wordsFrom (c :: word) cs

/-- `s.split()`. -/
def words (s : String) : List String := wordsFrom [] s.toList

/-- `s.startswith(start)`. -/
def startsWith (start s : String) : Bool := start.toList.isPrefixOf s.toList

/-- `s.partition("=")` and the like, on one character: what stands before the first occurrence, and after it if there is one. -/
def partition (sep : Char) (s : String) : String × Option String :=
  match s.toList.dropWhile (· ≠ sep) with
  | [] => (s, none)
  | _ :: rest => (String.ofList (s.toList.takeWhile (· ≠ sep)), some (String.ofList rest))

/-- The parts of a text between the occurrences of a separator, from the left; `skip` characters of the separator just found are
still to come. -/
def splitTextFrom (sep : List Char) : Nat → List Char → List Char → List String
  | _, part, [] => [String.ofList part.reverse]
  | skip + 1, part, _ :: cs => splitTextFrom sep skip part cs
  | 0, part, c :: cs =>
    if sep.isPrefixOf (c :: cs) then String.ofList part.reverse :: splitTextFrom sep (sep.length - 1) [] cs
    else splitTextFrom sep 0 (c :: part) cs

/-- `s.split(sep)`, on a text that is not empty. -/
def splitText (sep s : String) : List String := splitTextFrom sep.toList 0 [] s.toList

example : splitText ".." "a..b...c" = ["a", "b", ".c"] := by decide +kernel

/-- The character classes `[a-z]`, `[A-Z]` and `[0-9]`. -/
def isLowerAscii (c : Char) : Bool := 'a' ≤ c && c ≤ 'z'

@[inherit_doc isLowerAscii]
def isUpperAscii (c : Char) : Bool := 'A' ≤ c && c ≤ 'Z'

@[inherit_doc isLowerAscii]
def isDigitAscii (c : Char) : Bool := '0' ≤ c && c ≤ '9'

/-- The full match of `^[H][T]{0,n}$`. -/
def matchesName (head tail : Char → Bool) (n : Nat) (s : String) : Bool :=
  match s.toList with
  | [] => false
  | c :: cs => head c && cs.all tail && decide (cs.length ≤ n)

/-- The full match of `^[0-9a-f]{64}$`: a SHA-256 digest in lower-case hexadecimal. -/
def isSha256 (s : String) : Bool :=
  s.toList.all (fun c => isDigitAscii c || ('a' ≤ c && c ≤ 'f')) && decide (s.length = 64)

/-- A digest by its characters. A literal is the text of its characters, so this decides one without decoding it. -/
theorem isSha256_ofList {cs : List Char}
    (h : (cs.all (fun c => isDigitAscii c || ('a' ≤ c && c ≤ 'f')) && decide (cs.length = 64)) = true) :
    isSha256 (String.ofList cs) = true := by
  unfold isSha256
  rw [String.toList_ofList, String.length_ofList]
  exact h

/-- `tuple(dict.fromkeys(xs))`: the first occurrence of each element, in order. -/
def fromKeys {α : Type*} [DecidableEq α] (xs : List α) : List α :=
  xs.foldl (fun acc x => if x ∈ acc then acc else acc ++ [x]) []

/-- `if c: failures.append(x)`. -/
def failIf {α : Type*} (c : Prop) [Decidable c] (x : α) : List α := if c then [x] else []

@[simp] theorem failIf_eq_nil_iff {α : Type*} (c : Prop) [Decidable c] (x : α) : failIf c x = [] ↔ ¬ c := by
  unfold failIf
  split <;> simp_all

theorem mem_failIf {α : Type*} {c : Prop} [Decidable c] {x y : α} : y ∈ failIf c x ↔ c ∧ y = x := by
  unfold failIf
  split <;> simp_all

/-- `set(xs) == set(ys)`. -/
def SameSet {α : Type*} (xs ys : List α) : Prop := (∀ x ∈ xs, x ∈ ys) ∧ ∀ y ∈ ys, y ∈ xs

instance {α : Type*} [DecidableEq α] (xs ys : List α) : Decidable (SameSet xs ys) :=
  inferInstanceAs (Decidable ((∀ x ∈ xs, x ∈ ys) ∧ ∀ y ∈ ys, y ∈ xs))

/-- `sorted(xs)` on text: by code points. -/
def sortedStr (xs : List String) : List String := xs.insertionSort (· ≤ ·)

theorem dropWhile_eq_self_of_head {α : Type*} {p : α → Bool} {l : List α} (h : ∀ a ∈ l.head?, p a = false) : l.dropWhile p = l := by
  cases l with
  | nil => rfl
  | cons a l => exact List.dropWhile_cons_of_neg (by simpa using h a rfl)

/-- What is left after dropping from the front starts with a character that stays, and dropping from the back keeps it. -/
theorem head?_reverse_dropWhile {α : Type*} (p : α → Bool) (l : List α) :
    ∀ a ∈ ((l.dropWhile p).reverse.dropWhile p).reverse.head?, p a = false := by
  intro a ha
  have hprefix : ((l.dropWhile p).reverse.dropWhile p).reverse <+: l.dropWhile p := by
    have hsuffix := (List.dropWhile_suffix p (l := (l.dropWhile p).reverse))
    rw [← List.reverse_prefix, List.reverse_reverse] at hsuffix
    exact hsuffix
  obtain ⟨rest, hrest⟩ := hprefix
  have hhead : (l.dropWhile p).head? = some a := by
    rw [← hrest, List.head?_append]
    rw [Option.mem_def] at ha
    rw [ha]
    rfl
  have hnot := List.head?_dropWhile_not p l
  rw [hhead] at hnot
  simpa using hnot

/-- A text with no white space is not stripped. -/
theorem strip_of_no_space {cs : List Char} (h : ∀ c ∈ cs, isSpace c = false) : strip (String.ofList cs) = String.ofList cs := by
  have hdrop : ∀ l : List Char, (∀ c ∈ l, isSpace c = false) → l.dropWhile isSpace = l := by
    intro l hl
    refine dropWhile_eq_self_of_head fun a ha => ?_
    exact hl a (List.mem_of_mem_head? ha)
  unfold strip
  rw [String.toList_ofList, hdrop cs h, hdrop cs.reverse fun c hc => h c (List.mem_reverse.mp hc), List.reverse_reverse]

/-- A text without white space, by its characters, is its stripped text. -/
theorem written_ofList {cs : List Char} (h : (cs.all (fun c => !isSpace c) && !cs.isEmpty) = true) :
    strip (String.ofList cs) = String.ofList cs ∧ String.ofList cs ≠ "" := by
  simp only [Bool.and_eq_true, List.all_eq_true, Bool.not_eq_true', List.isEmpty_eq_false_iff] at h
  refine ⟨strip_of_no_space h.1, fun hempty => h.2 ?_⟩
  rw [← String.toList_ofList (l := cs), hempty]
  rfl

theorem strip_ofList_ne {cs : List Char} (h : (cs.all (fun c => !isSpace c) && !cs.isEmpty) = true) : strip (String.ofList cs) ≠ "" := by
  rw [(written_ofList h).1]
  exact (written_ofList h).2

theorem length_ofList_le {cs : List Char} {n : Nat} (h : cs.length ≤ n) : (String.ofList cs).length ≤ n := by
  rwa [String.length_ofList]

/-- Stripping twice is stripping once. -/
@[simp] theorem strip_strip (s : String) : strip (strip s) = strip s := by
  simp only [strip, String.toList_ofList]
  rw [dropWhile_eq_self_of_head (head?_reverse_dropWhile isSpace s.toList), List.reverse_reverse]
  congr 2
  exact List.dropWhile_idempotent isSpace _

/-- The length of a name. -/
theorem matchesName_length {head tail : Char → Bool} {n : Nat} {s : String} (h : matchesName head tail n s = true) :
    1 ≤ s.length ∧ s.length ≤ n + 1 := by
  unfold matchesName at h
  split at h
  · nomatch h
  · rename_i c cs heq
    simp only [Bool.and_eq_true, decide_eq_true_eq] at h
    rw [← String.length_toList, heq, List.length_cons]
    omega

/-- Text without the separator is one part. -/
theorem split_of_not_mem {sep : Char} {s : String} (h : sep ∉ s.toList) : split sep s = [s] := by
  rw [split, List.splitOn_eq_singleton h, List.map_singleton, String.ofList_toList]

/-- The part before the first separator. -/
theorem split_append {sep : Char} {s t : String} (h : sep ∉ s.toList) :
    split sep (s ++ String.ofList (sep :: t.toList)) = s :: split sep t := by
  rw [split, String.toList_append, String.toList_ofList, List.splitOn_append_cons_self_of_not_mem h, List.map_cons,
    String.ofList_toList]
  rfl

theorem fromKeys_foldl_mem {α : Type*} [DecidableEq α] (xs acc : List α) (x : α) :
    x ∈ xs.foldl (fun acc x => if x ∈ acc then acc else acc ++ [x]) acc ↔ x ∈ acc ∨ x ∈ xs := by
  induction xs generalizing acc with
  | nil => simp
  | cons y ys ih =>
    rw [List.foldl_cons, ih]
    by_cases h : y ∈ acc
    · simp only [h, if_true, List.mem_cons]
      constructor
      · rintro (hx | hx)
        · exact Or.inl hx
        · exact Or.inr (Or.inr hx)
      · rintro (hx | rfl | hx)
        · exact Or.inl hx
        · exact Or.inl h
        · exact Or.inr hx
    · simp only [h, if_false, List.mem_append, List.mem_cons, List.not_mem_nil, or_false, or_assoc]

/-- Removing repetitions keeps the elements. -/
@[simp] theorem mem_fromKeys {α : Type*} [DecidableEq α] (xs : List α) (x : α) : x ∈ fromKeys xs ↔ x ∈ xs := by
  simp [fromKeys, fromKeys_foldl_mem]

/-- Nothing is left exactly when there was nothing. -/
@[simp] theorem fromKeys_eq_nil_iff {α : Type*} [DecidableEq α] (xs : List α) : fromKeys xs = [] ↔ xs = [] := by
  rw [List.eq_nil_iff_forall_not_mem, List.eq_nil_iff_forall_not_mem]
  simp

theorem fromKeys_foldl_of_nodup {α : Type*} [DecidableEq α] (xs acc : List α) (h : (acc ++ xs).Nodup) :
    xs.foldl (fun acc x => if x ∈ acc then acc else acc ++ [x]) acc = acc ++ xs := by
  induction xs generalizing acc with
  | nil => simp
  | cons y ys ih =>
    have hy : y ∉ acc := fun hmem => (List.nodup_append.mp h).2.2 y hmem y List.mem_cons_self rfl
    rw [List.foldl_cons, if_neg hy, ih _ (by simpa using h)]
    simp

/-- Without repetitions nothing is removed. -/
theorem fromKeys_of_nodup {α : Type*} [DecidableEq α] {xs : List α} (h : xs.Nodup) : fromKeys xs = xs := by
  have hfold := fromKeys_foldl_of_nodup xs [] (by simpa using h)
  rw [List.nil_append] at hfold
  exact hfold

/-- Removing repetitions leaves none. -/
theorem fromKeys_nodup {α : Type*} [DecidableEq α] (values : List α) : (fromKeys values).Nodup := by
  have hfold : ∀ (rest acc : List α), acc.Nodup → (rest.foldl (fun acc x => if x ∈ acc then acc else acc ++ [x]) acc).Nodup := by
    intro rest
    induction rest with
    | nil => exact fun acc h => h
    | cons x rest ih =>
      intro acc h
      rw [List.foldl_cons]
      split
      · exact ih acc h
      · rename_i hx
        refine ih _ (List.nodup_append.mpr ⟨h, List.nodup_singleton _, fun a ha b hb => ?_⟩)
        rw [List.mem_singleton.mp hb]
        rintro rfl
        exact hx ha
  exact hfold values [] List.nodup_nil

end Py
