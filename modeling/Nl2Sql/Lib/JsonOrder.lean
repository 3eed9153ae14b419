import Nl2Sql.Lib.JsonText
import Nl2Sql.Lib.Sorting

/-!
# JSON values up to order

Two values are the same up to order when they are alike but for the order of the members of their objects and of the items of their
arrays, at every depth. Without floats, and with the names of every object distinct, a value is what a document of mappings, lists and
scalars reads as.
-/

namespace Py

namespace Json

mutual

/-- The values are the same but for the order of their members and their items. -/
def SameUpToOrder : Json → Json → Prop
  | .arr items, w => ∃ items' order, w = .arr items' ∧ order.Perm items' ∧ SameItems items order
  | .obj members, w => ∃ members' order, w = .obj members' ∧ order.Perm members' ∧ SameMembers members order
  | v, w => v = w

/-- The items are the same up to order, one by one. -/
def SameItems : List Json → List Json → Prop
  | [], others => others = []
  | v :: rest, others => ∃ w rest', others = w :: rest' ∧ SameUpToOrder v w ∧ SameItems rest rest'

/-- The members have the same names, and values that are the same up to order, one by one. -/
def SameMembers : List (String × Json) → List (String × Json) → Prop
  | [], others => others = []
  | (name, v) :: rest, others => ∃ w rest', others = (name, w) :: rest' ∧ SameUpToOrder v w ∧ SameMembers rest rest'

end

mutual

/-- No float occurs, and the names of every object differ. -/
def Plain : Json → Prop
  | .float _ => False
  | .arr items => PlainItems items
  | .obj members => (members.map Prod.fst).Nodup ∧ PlainMembers members
  | _ => True

/-- Every item is plain. -/
def PlainItems : List Json → Prop
  | [] => True
  | value :: rest => Plain value ∧ PlainItems rest

/-- The value of every member is plain. -/
def PlainMembers : List (String × Json) → Prop
  | [] => True
  | (_, value) :: rest => Plain value ∧ PlainMembers rest

end

mutual

/-- Every float is written as floats are, and the names of every object differ. -/
def Tidy : Json → Prop
  | .float text => FloatText text
  | .arr items => TidyItems items
  | .obj members => (members.map Prod.fst).Nodup ∧ TidyMembers members
  | _ => True

/-- Every item is tidy. -/
def TidyItems : List Json → Prop
  | [] => True
  | value :: rest => Tidy value ∧ TidyItems rest

/-- The value of every member is tidy. -/
def TidyMembers : List (String × Json) → Prop
  | [] => True
  | (_, value) :: rest => Tidy value ∧ TidyMembers rest

end

mutual

theorem Plain.tidy : ∀ {v : Json}, v.Plain → v.Tidy
  | .null, _ => trivial
  | .bool _, _ => trivial
  | .int _, _ => trivial
  | .float _, h => h.elim
  | .str _, _ => trivial
  | .arr _, h => PlainItems.tidy h
  | .obj _, h => ⟨h.1, PlainMembers.tidy h.2⟩

theorem PlainItems.tidy : ∀ {items : List Json}, PlainItems items → TidyItems items
  | [], _ => trivial
  | _ :: _, h => ⟨h.1.tidy, PlainItems.tidy h.2⟩

theorem PlainMembers.tidy : ∀ {members : List (String × Json)}, PlainMembers members → TidyMembers members
  | [], _ => trivial
  | _ :: _, h => ⟨h.1.tidy, PlainMembers.tidy h.2⟩

end

theorem plainItems_iff {items : List Json} : PlainItems items ↔ ∀ v ∈ items, Plain v := by
  induction items with
  | nil => simp [PlainItems]
  | cons v items ih => simp [PlainItems, ih]

theorem plainItems_perm {items order : List Json} (h : order.Perm items) (hplain : PlainItems items) : PlainItems order :=
  plainItems_iff.mpr fun v hv => plainItems_iff.mp hplain v (h.mem_iff.mp hv)

theorem plainMembers_iff {members : List (String × Json)} : PlainMembers members ↔ ∀ m ∈ members, Plain m.2 := by
  induction members with
  | nil => simp [PlainMembers]
  | cons m members ih => simp [PlainMembers, ih]

theorem plainMembers_perm {members order : List (String × Json)} (h : order.Perm members) (hplain : PlainMembers members) : PlainMembers order :=
  plainMembers_iff.mpr fun m hm => plainMembers_iff.mp hplain m (h.mem_iff.mp hm)

theorem tidyMembers_iff {members : List (String × Json)} : TidyMembers members ↔ ∀ m ∈ members, Tidy m.2 := by
  induction members with
  | nil => simp [TidyMembers]
  | cons m members ih => simp [TidyMembers, ih]

theorem writtenItems_iff {items : List Json} : WrittenItems items ↔ ∀ v ∈ items, Written v := by
  induction items with
  | nil => simp [WrittenItems]
  | cons v items ih => simp [WrittenItems, ih]

theorem writtenMembers_iff {members : List (String × Json)} : WrittenMembers members ↔ ∀ m ∈ members, Written m.2 := by
  induction members with
  | nil => simp [WrittenMembers]
  | cons m members ih => simp [WrittenMembers, ih]

theorem canonicalMembers_iff {members : List (String × Json)} : CanonicalMembers members ↔ ∀ m ∈ members, Canonical m.2 := by
  induction members with
  | nil => simp [CanonicalMembers]
  | cons m members ih => simp [CanonicalMembers, ih]

/-! ## Names in order -/

mutual

/-- A value with the members of every object in the order of their names. -/
def sortKeys : Json → Json
  | .arr items => .arr (sortKeysItems items)
  | .obj members => .obj (sortBy Prod.fst (sortKeysMembers members))
  | value => value

/-- The items, one by one. -/
def sortKeysItems : List Json → List Json
  | [] => []
  | value :: rest => sortKeys value :: sortKeysItems rest

/-- The members with the values so, one by one. -/
def sortKeysMembers : List (String × Json) → List (String × Json)
  | [] => []
  | (name, value) :: rest => (name, sortKeys value) :: sortKeysMembers rest

end

/-- A member with its value so. -/
def sortedMember (member : String × Json) : String × Json := (member.1, member.2.sortKeys)

theorem sortKeysMembers_eq_map (members : List (String × Json)) : sortKeysMembers members = members.map sortedMember := by
  induction members with
  | nil => rfl
  | cons m members ih => rw [sortKeysMembers, ih, List.map_cons, sortedMember]

theorem dumpsMembers_eq_map (members : List (String × Json)) : dumpsMembers members = members.map fun m => (m.1, m.2.dumps) := by
  induction members with
  | nil => rfl
  | cons m members ih => rw [dumpsMembers, ih, List.map_cons]

theorem map_fst_sortedMember (members : List (String × Json)) : (members.map sortedMember).map Prod.fst = members.map Prod.fst := by
  rw [List.map_map]
  rfl

mutual

/-- The text of a value puts the names in order. -/
theorem dumps_sortKeys : ∀ v : Json, v.sortKeys.dumps = v.dumps
  | .arr items => by rw [sortKeys, dumps, dumps, dumpsItems_sortKeysItems items]
  | .obj members => by
    have hsort : sortBy Prod.fst (dumpsMembers (sortBy Prod.fst (sortKeysMembers members))) = sortBy Prod.fst (dumpsMembers members) := by
      rw [← dumpsMembers_sortKeysMembers members, dumpsMembers_eq_map, dumpsMembers_eq_map, sortBy_map, sortBy_map]
      exact congrArg _ (sortBy_sortBy Prod.fst _)
    rw [sortKeys, dumps, dumps]
    exact congrArg (fun texts : List (String × String) => "\x7b" ++ ",".intercalate (texts.map fun m => quote m.1 ++ ":" ++ m.2) ++ "\x7d") hsort
  | .null => rfl
  | .bool _ => rfl
  | .int _ => rfl
  | .float _ => rfl
  | .str _ => rfl

theorem dumpsItems_sortKeysItems : ∀ items : List Json, dumpsItems (sortKeysItems items) = dumpsItems items
  | [] => rfl
  | value :: rest => by rw [sortKeysItems, dumpsItems, dumpsItems, dumps_sortKeys value, dumpsItems_sortKeysItems rest]

theorem dumpsMembers_sortKeysMembers : ∀ members : List (String × Json), dumpsMembers (sortKeysMembers members) = dumpsMembers members
  | [] => rfl
  | (name, value) :: rest => by rw [sortKeysMembers, dumpsMembers, dumpsMembers, dumps_sortKeys value, dumpsMembers_sortKeysMembers rest]

end

/-- Members of different names, in the order of their names, have increasing names. -/
theorem pairwise_lt_sortBy {members : List (String × Json)} (h : (members.map Prod.fst).Nodup) :
    ((sortBy Prod.fst members).map Prod.fst).Pairwise (· < ·) := by
  have hnodup : ((sortBy Prod.fst members).map Prod.fst).Nodup := ((sortBy_perm Prod.fst members).map _).nodup_iff.mpr h
  have hle : ((sortBy Prod.fst members).map Prod.fst).Pairwise (· ≤ ·) := List.pairwise_map.mpr (pairwise_sortBy Prod.fst members)
  exact hle.imp₂ (fun _ _ hle hne => lt_of_le_of_ne hle hne) hnodup

mutual

/-- A tidy value has one text once its names are in order. -/
theorem written_sortKeys : ∀ v : Json, v.Tidy → v.sortKeys.Written
  | .null, _ => trivial
  | .bool _, _ => trivial
  | .int _, _ => trivial
  | .float _, h => h
  | .str _, _ => trivial
  | .arr items, h => by
    rw [sortKeys, Written, writtenItems_iff]
    exact written_sortKeysItems items h
  | .obj members, h => by
    rw [sortKeys, Written, writtenMembers_iff]
    refine ⟨pairwise_lt_sortBy ?_, fun m hm => written_sortKeysMembers members h.2 m (mem_sortBy.mp hm)⟩
    rw [sortKeysMembers_eq_map, map_fst_sortedMember]
    exact h.1

theorem written_sortKeysItems : ∀ items : List Json, TidyItems items → ∀ v ∈ sortKeysItems items, v.Written
  | [], _ => fun _ hv => absurd hv List.not_mem_nil
  | value :: rest, h => List.forall_mem_cons.mpr ⟨written_sortKeys value h.1, written_sortKeysItems rest h.2⟩

theorem written_sortKeysMembers : ∀ members : List (String × Json), TidyMembers members → ∀ m ∈ sortKeysMembers members, m.2.Written
  | [], _ => fun _ hm => absurd hm List.not_mem_nil
  | (_, value) :: rest, h => List.forall_mem_cons.mpr ⟨written_sortKeys value h.1, written_sortKeysMembers rest h.2⟩

end

/-- Tidy values with one text are the same but for the order of names. -/
theorem sortKeys_eq_of_text {v w : Json} (hv : v.Tidy) (hw : w.Tidy) (h : v.dumps = w.dumps) : v.sortKeys = w.sortKeys :=
  dumps_injective_written (written_sortKeys v hv) (written_sortKeys w hw) (by rw [dumps_sortKeys, dumps_sortKeys, h])

/-- Plain values with one text are the same but for the order of names. -/
theorem sortKeys_eq_of_dumps {v w : Json} (hv : v.Plain) (hw : w.Plain) (h : v.dumps = w.dumps) : v.sortKeys = w.sortKeys :=
  sortKeys_eq_of_text hv.tidy hw.tidy h

/-- Objects with the same names in the same places that are the same but for the order of names have such values in each place. -/
theorem sortedMembers_eq {members members' : List (String × Json)} (hnames : members.map Prod.fst = members'.map Prod.fst)
    (h : (Json.obj members).sortKeys = (Json.obj members').sortKeys) : members.map sortedMember = members'.map sortedMember := by
  rw [sortKeys, sortKeys, Json.obj.injEq, sortKeysMembers_eq_map, sortKeysMembers_eq_map] at h
  exact eq_of_sortBy_eq (by rw [map_fst_sortedMember, map_fst_sortedMember, hnames]) h

end Json

end Py
