import Mathlib.Data.Rat.Cast.Defs
import Nl2Sql.Lib.JsonOrder
import Nl2Sql.Lib.JsonRead
import Nl2Sql.Lib.Writable

/-!
# JSON values that Python takes for equal

`==` compares numbers by value, so `True`, `1` and `1.0` are equal, and dictionaries by their keys, in any order. The texts of equal values
may differ. Where every boolean and number stands in a field that is for its kind, equal values are the same but for the order of names.
The value of a float, where it is finite, is a parameter.
-/

namespace Py

namespace Json

section Equal

variable (floatValue : String → Option ℚ)

/-- The value of a number: a boolean is 0 or 1. -/
def number? : Json → Option ℚ
  | .bool b => some (if b then 1 else 0)
  | .int n => some n
  | .float text => floatValue text
  | _ => none

/-- A boolean, an integer or a float. -/
def isNumber : Json → Bool
  | .bool _ => true
  | .int _ => true
  | .float _ => true
  | _ => false

/-- `==` of two numbers. Floats that are not finite are equal to themselves, but for NaN. -/
def sameNumber (v w : Json) : Bool :=
  match number? floatValue v, number? floatValue w with
  | some a, some b => a = b
  | none, none =>
    match v, w with
    | .float s, .float t => s = t ∧ s ≠ "NaN"
    | _, _ => false
  | _, _ => false

mutual

/-- `==`. -/
def pyEq : Json → Json → Bool
  | .null, w => match w with
    | .null => true
    | _ => false
  | .str s, w => match w with
    | .str t => s = t
    | _ => false
  | .arr items, w => match w with
    | .arr items' => pyEqItems items items'
    | _ => false
  | .obj members, w => match w with
    | .obj members' => members.length = members'.length && pyEqMembers members members'
    | _ => false
  | v, w => sameNumber floatValue v w

/-- `==` of two lists. -/
def pyEqItems : List Json → List Json → Bool
  | [], others => others.isEmpty
  | v :: rest, others => match others with
    | w :: rest' => pyEq v w && pyEqItems rest rest'
    | [] => false

/-- Each member is equal to the one of its name. -/
def pyEqMembers : List (String × Json) → List (String × Json) → Bool
  | [], _ => true
  | (name, v) :: rest, others => (match member? name others with
    | some w => pyEq v w
    | none => false) && pyEqMembers rest others

end

variable {floatValue}

theorem pyEqMembers_iff {members others : List (String × Json)} :
    pyEqMembers floatValue members others = true ↔ ∀ m ∈ members, ∃ w, member? m.1 others = some w ∧ pyEq floatValue m.2 w = true := by
  induction members with
  | nil => simp [pyEqMembers]
  | cons m members ih =>
    obtain ⟨name, v⟩ := m
    rw [pyEqMembers, Bool.and_eq_true, ih, List.forall_mem_cons]
    refine and_congr_left fun _ => ?_
    cases member? name others with
    | none => simp
    | some w => simp

mutual

/-- What is stored of a value is equal to it. -/
theorem pyEq_of_stored : ∀ v v' : Json, v.Plain → Stored v v' → pyEq floatValue v' v = true
  | .null, _, _, h => by
    cases h
    rfl
  | .bool b, _, _, h => by
    cases h
    simp [pyEq, sameNumber, number?]
  | .int n, _, _, h => by
    cases h
    simp [pyEq, sameNumber, number?]
  | .float _, _, hv, _ => hv.elim
  | .str s, _, _, h => by
    cases h
    simp [pyEq]
  | .arr items, _, hv, h => by
    obtain ⟨items', rfl, hitems⟩ := h.arr_inv
    exact pyEqItems_of_stored items items' hv hitems
  | .obj members, _, hv, h => by
    cases h with
    | @obj _ kept members' hkept hperm =>
      have hlength : members'.length = members.length := by
        have h := congrArg List.length hkept.map_fst
        rw [List.length_map, List.length_map] at h
        exact hperm.length_eq.symm.trans h
      rw [pyEq, Bool.and_eq_true, pyEqMembers_iff]
      refine ⟨decide_eq_true hlength, fun m hm => ?_⟩
      obtain ⟨v, hmem, heq⟩ := pyEqMembers_of_stored members kept hv.2 hkept m (hperm.mem_iff.mpr hm)
      exact ⟨v, member?_of_mem hv.1 hmem, heq⟩

theorem pyEqItems_of_stored : ∀ items items' : List Json, PlainItems items → StoredItems items items' → pyEqItems floatValue items' items = true
  | [], _, _, h => by
    cases h
    rfl
  | v :: rest, _, hv, h => by
    cases h with
    | cons hs hrest =>
      rw [pyEqItems, Bool.and_eq_true]
      exact ⟨pyEq_of_stored v _ hv.1 hs, pyEqItems_of_stored rest _ hv.2 hrest⟩

theorem pyEqMembers_of_stored : ∀ members kept : List (String × Json), PlainMembers members → StoredMembers members kept →
    ∀ m ∈ kept, ∃ v, (m.1, v) ∈ members ∧ pyEq floatValue m.2 v = true
  | [], _, _, h => by
    cases h
    exact fun _ hm => absurd hm List.not_mem_nil
  | (name, v) :: rest, _, hv, h => by
    cases h with
    | cons hs hrest =>
      intro m hm
      rcases List.mem_cons.mp hm with rfl | hm
      · exact ⟨v, List.mem_cons_self, pyEq_of_stored v _ hv.1 hs⟩
      · obtain ⟨w, hw, heq⟩ := pyEqMembers_of_stored rest _ hv.2 hrest m hm
        exact ⟨w, List.mem_cons_of_mem _ hw, heq⟩

end

end Equal

/-! ## Fields for a kind of number -/

section Fields

/-- Which booleans and numbers a field is for. -/
abbrev NumberField : Type := String → Json → Bool

variable (fits : NumberField)

mutual

/-- Every boolean and number stands in a field that is for it. -/
def Typed : Json → Prop
  | .arr items => TypedItems items
  | .obj members => TypedMembers members
  | v => v.isNumber = false

/-- Of every item. -/
def TypedItems : List Json → Prop
  | [] => True
  | v :: rest => Typed v ∧ TypedItems rest

/-- Of every member: its own value is one that its field is for, where it is a number. -/
def TypedMembers : List (String × Json) → Prop
  | [] => True
  | (name, v) :: rest => (fits name v = true ∨ Typed v) ∧ TypedMembers rest

end

variable {fits}

theorem typedItems_iff {items : List Json} : TypedItems fits items ↔ ∀ v ∈ items, Typed fits v := by
  induction items with
  | nil => simp [TypedItems]
  | cons v items ih => simp [TypedItems, ih]

theorem typedMembers_iff {members : List (String × Json)} : TypedMembers fits members ↔ ∀ m ∈ members, fits m.1 m.2 = true ∨ Typed fits m.2 := by
  induction members with
  | nil => simp [TypedMembers]
  | cons m members ih => simp [TypedMembers, ih]

/-- A field is for booleans and numbers only, and for one of equal ones. -/
structure NumberField.Exact (floatValue : String → Option ℚ) (fits : NumberField) : Prop where
  number : ∀ {name v}, fits name v = true → v.isNumber = true
  eq : ∀ {name v w}, fits name v = true → fits name w = true → sameNumber floatValue v w = true → v = w

variable {floatValue : String → Option ℚ}

theorem pyEq_number {v : Json} (h : v.isNumber = true) (w : Json) : pyEq floatValue v w = sameNumber floatValue v w := by
  cases v <;> first | rfl | nomatch h

theorem number?_eq_none {v : Json} (h : v.isNumber = false) : number? floatValue v = none := by
  cases v <;> first | rfl | nomatch h

theorem isNumber_of_sameNumber {v w : Json} (h : sameNumber floatValue v w = true) : v.isNumber = true ∧ w.isNumber = true := by
  unfold sameNumber at h
  split at h
  · rename_i hv hw
    refine ⟨?_, ?_⟩ <;> (rw [← Bool.not_eq_false]; intro hnot; rw [number?_eq_none hnot] at *; contradiction)
  · split at h
    · exact ⟨rfl, rfl⟩
    · nomatch h
  · nomatch h

/-- Only a number is equal to a number. -/
theorem isNumber_eq_of_pyEq {v w : Json} (h : pyEq floatValue v w = true) : v.isNumber = w.isNumber := by
  cases hv : v.isNumber with
  | true =>
    rw [pyEq_number hv] at h
    exact (isNumber_of_sameNumber h).2.symm
  | false => cases v <;> cases w <;> first | rfl | (cases hv; done) | (simp [pyEq] at h)

/-- A number is not typed by itself. -/
theorem Typed.not_number {v : Json} (h : Typed fits v) : v.isNumber = false := by
  cases v <;> first | exact h | rfl

mutual

/-- Equal values whose numbers stand in fields for them are the same but for the order of names. -/
theorem sortKeys_eq_of_pyEq (hfits : fits.Exact floatValue) : ∀ v w : Json, v.Tidy → w.Tidy → Typed fits v → Typed fits w →
    pyEq floatValue v w = true → v.sortKeys = w.sortKeys
  | .null, w, _, _, _, _, h => by
    cases w <;> first | rfl | nomatch h
  | .str s, w, _, _, _, _, h => by
    cases w with
    | str t =>
      obtain rfl : s = t := of_decide_eq_true h
      rfl
    | _ => nomatch h
  | .bool _, _, _, _, hv, _, _ => nomatch hv.not_number
  | .int _, _, _, _, hv, _, _ => nomatch hv.not_number
  | .float _, _, _, _, hv, _, _ => nomatch hv.not_number
  | .arr items, w, hv, hw, htyped, htyped', h => by
    cases w with
    | arr items' => rw [sortKeys, sortKeys, sortKeysItems_eq_of_pyEq hfits items items' hv hw htyped htyped' h]
    | _ => nomatch h
  | .obj members, w, hv, hw, htyped, htyped', h => by
    cases w with
    | obj others =>
      rw [pyEq, Bool.and_eq_true, decide_eq_true_eq, pyEqMembers_iff] at h
      have hsub := sortedMember_mem_of_pyEq hfits members others hv.2 hw htyped htyped' h.2
      have hnodup : ((members.map sortedMember).map Prod.fst).Nodup := by
        rw [map_fst_sortedMember]
        exact hv.1
      have hsubperm := List.subperm_of_subset hnodup.of_map fun sorted hsorted => by
        obtain ⟨m, hm, rfl⟩ := List.mem_map.mp hsorted
        exact hsub m hm
      have hperm : (members.map sortedMember).Perm (others.map sortedMember) :=
        hsubperm.perm_of_length_le (by rw [List.length_map, List.length_map, h.1])
      rw [sortKeys, sortKeys, sortKeysMembers_eq_map, sortKeysMembers_eq_map, sortBy_eq_of_perm hperm hnodup]
    | _ => nomatch h

theorem sortKeysItems_eq_of_pyEq (hfits : fits.Exact floatValue) : ∀ items others : List Json, TidyItems items → TidyItems others →
    TypedItems fits items → TypedItems fits others → pyEqItems floatValue items others = true → sortKeysItems items = sortKeysItems others
  | [], others, _, _, _, _, h => by
    cases others <;> first | rfl | nomatch h
  | v :: rest, others, hv, hw, htyped, htyped', h => by
    cases others with
    | nil => nomatch h
    | cons w rest' =>
      rw [pyEqItems, Bool.and_eq_true] at h
      rw [sortKeysItems, sortKeysItems, sortKeys_eq_of_pyEq hfits v w hv.1 hw.1 htyped.1 htyped'.1 h.1,
        sortKeysItems_eq_of_pyEq hfits rest rest' hv.2 hw.2 htyped.2 htyped'.2 h.2]

theorem sortedMember_mem_of_pyEq (hfits : fits.Exact floatValue) : ∀ members others : List (String × Json), TidyMembers members →
    (Json.obj others).Tidy → TypedMembers fits members → TypedMembers fits others →
    (∀ m ∈ members, ∃ w, member? m.1 others = some w ∧ pyEq floatValue m.2 w = true) → ∀ m ∈ members, sortedMember m ∈ others.map sortedMember
  | [], _, _, _, _, _, _ => fun _ hm => absurd hm List.not_mem_nil
  | (name, v) :: rest, others, hv, hw, htyped, htyped', h => by
    intro m hm
    rcases List.mem_cons.mp hm with rfl | hm
    · obtain ⟨w, hmember, heq⟩ := h _ List.mem_cons_self
      have hmem := mem_of_member? hmember
      have hsame : v.sortKeys = w.sortKeys := by
        have hnumber := isNumber_eq_of_pyEq heq
        rcases htyped.1, typedMembers_iff.mp htyped' _ hmem with ⟨hv' | hv', hw' | hw'⟩
        · rw [pyEq_number (hfits.number hv')] at heq
          rw [hfits.eq hv' hw' heq]
        · rw [hfits.number hv', hw'.not_number] at hnumber
          cases hnumber
        · rw [hfits.number hw', hv'.not_number] at hnumber
          cases hnumber
        · exact sortKeys_eq_of_pyEq hfits v w hv.1 (tidyMembers_iff.mp hw.2 _ hmem) hv' hw' heq
      exact List.mem_map.mpr ⟨(name, w), hmem, congrArg (Prod.mk name) hsame.symm⟩
    · exact sortedMember_mem_of_pyEq hfits rest others hv.2 hw htyped.2 htyped' (fun m hm => h m (List.mem_cons_of_mem _ hm)) m hm

end

/-! ## What the order of names leaves as it is -/

mutual

theorem typed_sortKeys (hnumber : ∀ {name v}, fits name v = true → v.isNumber = true) : ∀ v : Json, Typed fits v.sortKeys ↔ Typed fits v
  | .null => Iff.rfl
  | .str _ => Iff.rfl
  | .bool _ => Iff.rfl
  | .int _ => Iff.rfl
  | .float _ => Iff.rfl
  | .arr items => typed_sortKeysItems hnumber items
  | .obj members => by
    rw [sortKeys, Typed, Typed, ← typed_sortKeysMembers hnumber members, typedMembers_iff, typedMembers_iff]
    exact forall_congr' fun m => by rw [mem_sortBy]

theorem typed_sortKeysItems (hnumber : ∀ {name v}, fits name v = true → v.isNumber = true) :
    ∀ items : List Json, TypedItems fits (sortKeysItems items) ↔ TypedItems fits items
  | [] => Iff.rfl
  | v :: rest => and_congr (typed_sortKeys hnumber v) (typed_sortKeysItems hnumber rest)

theorem typed_sortKeysMembers (hnumber : ∀ {name v}, fits name v = true → v.isNumber = true) :
    ∀ members : List (String × Json), TypedMembers fits (sortKeysMembers members) ↔ TypedMembers fits members
  | [] => Iff.rfl
  | (name, v) :: rest => by
    have hfits : fits name v.sortKeys = true ↔ fits name v = true := by
      cases v with
      | arr items => exact iff_of_false (fun h => nomatch hnumber h) fun h => nomatch hnumber h
      | obj members => exact iff_of_false (fun h => nomatch hnumber h) fun h => nomatch hnumber h
      | _ => exact Iff.rfl
    exact and_congr (or_congr hfits (typed_sortKeys hnumber v)) (typed_sortKeysMembers hnumber rest)

end

theorem writableMembers_eq_all (members : List (String × Json)) : writableMembers members = members.all fun m => m.2.writable := by
  induction members with
  | nil => rfl
  | cons m members ih => rw [writableMembers, ih, List.all_cons]

mutual

theorem writable_sortKeys : ∀ v : Json, v.sortKeys.writable = v.writable
  | .null => rfl
  | .str _ => rfl
  | .bool _ => rfl
  | .int _ => rfl
  | .float _ => rfl
  | .arr items => writable_sortKeysItems items
  | .obj members => by
    rw [sortKeys, writable, writable, ← writable_sortKeysMembers members, writableMembers_eq_all, writableMembers_eq_all]
    exact (sortBy_perm Prod.fst _).all_eq

theorem writable_sortKeysItems : ∀ items : List Json, writableItems (sortKeysItems items) = writableItems items
  | [] => rfl
  | v :: rest => by rw [sortKeysItems, writableItems, writableItems, writable_sortKeys v, writable_sortKeysItems rest]

theorem writable_sortKeysMembers : ∀ members : List (String × Json), writableMembers (sortKeysMembers members) = writableMembers members
  | [] => rfl
  | (_, v) :: rest => by rw [sortKeysMembers, writableMembers, writableMembers, writable_sortKeys v, writable_sortKeysMembers rest]

end

end Fields

end Json

end Py
