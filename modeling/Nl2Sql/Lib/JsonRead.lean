import Nl2Sql.Lib.Json

/-!
# Stored JSON values and their fields

A store may reorder the members of an object, and keeps everything else. A reader of an object that looks its fields up by name does not
see the difference.
-/

namespace Py

namespace Json

mutual

/-- What a store gives back for a value: the value, with the members of its objects in any order. -/
inductive Stored : Json → Json → Prop
  | null : Stored .null .null
  | bool (b : Bool) : Stored (.bool b) (.bool b)
  | int (n : Int) : Stored (.int n) (.int n)
  | float (text : String) : Stored (.float text) (.float text)
  | str (s : String) : Stored (.str s) (.str s)
  | arr {items items' : List Json} (h : StoredItems items items') : Stored (.arr items) (.arr items')
  | obj {members kept members' : List (String × Json)} (h : StoredMembers members kept) (hperm : kept.Perm members') :
      Stored (.obj members) (.obj members')

/-- The items of an array keep their order. -/
inductive StoredItems : List Json → List Json → Prop
  | nil : StoredItems [] []
  | cons {v v' : Json} {items items' : List Json} (h : Stored v v') (hrest : StoredItems items items') :
      StoredItems (v :: items) (v' :: items')

/-- The members of an object keep their names. -/
inductive StoredMembers : List (String × Json) → List (String × Json) → Prop
  | nil : StoredMembers [] []
  | cons {name : String} {v v' : Json} {members members' : List (String × Json)} (h : Stored v v')
      (hrest : StoredMembers members members') : StoredMembers ((name, v) :: members) ((name, v') :: members')

end

mutual

/-- A value is a way of storing it. -/
theorem Stored.refl : ∀ v : Json, Stored v v
  | .null => .null
  | .bool b => .bool b
  | .int n => .int n
  | .float text => .float text
  | .str s => .str s
  | .arr items => .arr (StoredItems.refl items)
  | .obj members => .obj (StoredMembers.refl members) (List.Perm.refl _)

theorem StoredItems.refl : ∀ items : List Json, StoredItems items items
  | [] => .nil
  | v :: items => .cons (Stored.refl v) (StoredItems.refl items)

theorem StoredMembers.refl : ∀ members : List (String × Json), StoredMembers members members
  | [] => .nil
  | (_, v) :: members => .cons (Stored.refl v) (StoredMembers.refl members)

end

theorem StoredMembers.map_fst {members members' : List (String × Json)} (h : StoredMembers members members') :
    members'.map Prod.fst = members.map Prod.fst := by
  induction members generalizing members' with
  | nil =>
    cases h
    rfl
  | cons m rest ih =>
    cases h with
    | cons _ hrest => rw [List.map_cons, List.map_cons, ih hrest]

theorem StoredMembers.member? {members members' : List (String × Json)} (h : StoredMembers members members') {name : String} {v : Json}
    (hv : Json.member? name members = some v) : ∃ v', Json.member? name members' = some v' ∧ Stored v v' := by
  induction members generalizing members' with
  | nil => nomatch hv
  | cons m rest ih =>
    cases h with
    | @cons key w w' _ members' hw hrest =>
      rw [Json.member?] at hv ⊢
      by_cases hname : key = name
      · rw [if_pos hname, Option.some.injEq] at hv
        subst hv
        exact ⟨w', if_pos hname, hw⟩
      · rw [if_neg hname] at hv ⊢
        exact ih hrest hv

/-- A member that is there under a name that is there once. -/
theorem member?_of_mem {members : List (String × Json)} (hn : (members.map Prod.fst).Nodup) {name : String} {v : Json}
    (h : (name, v) ∈ members) : member? name members = some v := by
  induction members with
  | nil => nomatch h
  | cons m rest ih =>
    rw [List.map_cons, List.nodup_cons] at hn
    rw [member?]
    rcases List.mem_cons.mp h with rfl | h
    · exact if_pos rfl
    · have hne : m.1 ≠ name := by
        rintro rfl
        exact hn.1 (List.mem_map.mpr ⟨_, h, rfl⟩)
      rw [if_neg hne]
      exact ih hn.2 h

theorem mem_of_member? {members : List (String × Json)} {name : String} {v : Json} (h : member? name members = some v) :
    (name, v) ∈ members := by
  induction members with
  | nil => nomatch h
  | cons m rest ih =>
    rw [member?] at h
    by_cases hname : m.1 = name
    · rw [if_pos hname, Option.some.injEq] at h
      rw [← h, ← hname]
      exact List.mem_cons_self
    · rw [if_neg hname] at h
      exact List.mem_cons_of_mem _ (ih h)

/-- What is stored of an object whose names differ has the same names, and under each name what is stored of its member. -/
theorem Stored.obj_inv {members : List (String × Json)} {j : Json} (h : Stored (.obj members) j) (hn : (members.map Prod.fst).Nodup) :
    ∃ members', j = .obj members' ∧ (∀ m ∈ members', m.1 ∈ members.map Prod.fst) ∧
      ∀ name v, Json.member? name members = some v → ∃ v', Json.member? name members' = some v' ∧ Stored v v' := by
  cases h with
  | @obj _ kept members' hkept hperm =>
    have hnames := hkept.map_fst
    refine ⟨members', rfl, fun m hm => ?_, fun name v hv => ?_⟩
    · rw [← hnames]
      exact List.mem_map_of_mem (hperm.mem_iff.mpr hm)
    · obtain ⟨v', hv', hstored⟩ := hkept.member? hv
      have hn' : (members'.map Prod.fst).Nodup := by
        rw [← (hperm.map Prod.fst).nodup_iff, hnames]
        exact hn
      exact ⟨v', member?_of_mem hn' (hperm.mem_iff.mp (mem_of_member? hv')), hstored⟩

theorem Stored.arr_inv {items : List Json} {j : Json} (h : Stored (.arr items) j) : ∃ items', j = .arr items' ∧ StoredItems items items' := by
  cases h with
  | arr h => exact ⟨_, rfl, h⟩

/-! ## Depth -/

mutual

/-- How deep a value is nested. -/
def depth : Json → Nat
  | .arr items => depthItems items + 1
  | .obj members => depthMembers members + 1
  | _ => 1

def depthItems : List Json → Nat
  | [] => 0
  | v :: items => max (depth v) (depthItems items)

def depthMembers : List (String × Json) → Nat
  | [] => 0
  | (_, v) :: members => max (depth v) (depthMembers members)

end

theorem depth_le_of_mem {items : List Json} {v : Json} (h : v ∈ items) : v.depth ≤ depthItems items := by
  induction items with
  | nil => nomatch h
  | cons w rest ih =>
    rw [depthItems]
    rcases List.mem_cons.mp h with rfl | h
    · exact le_max_left _ _
    · exact (ih h).trans (le_max_right _ _)

/-- A member of an object is nested less deep. -/
theorem depth_lt_of_member? {members : List (String × Json)} {name : String} {v : Json} (h : member? name members = some v) :
    v.depth < (Json.obj members).depth := by
  have hmem := mem_of_member? h
  rw [depth, Nat.lt_succ_iff]
  clear h
  induction members with
  | nil => nomatch hmem
  | cons m rest ih =>
    obtain ⟨key, w⟩ := m
    rw [depthMembers]
    rcases List.mem_cons.mp hmem with heq | hmem
    · rw [← (Prod.mk.inj heq).2]
      exact le_max_left _ _
    · exact (ih hmem).trans (le_max_right _ _)

/-- An item of an array is nested less deep. -/
theorem depth_lt_of_mem {items : List Json} {v : Json} (h : v ∈ items) : v.depth < (Json.arr items).depth := by
  rw [depth, Nat.lt_succ_iff]
  exact depth_le_of_mem h

mutual

/-- The texts in a value: its strings and its names. -/
def texts : Json → List String
  | .str s => [s]
  | .arr items => textsItems items
  | .obj members => textsMembers members
  | _ => []

def textsItems : List Json → List String
  | [] => []
  | v :: items => texts v ++ textsItems items

def textsMembers : List (String × Json) → List String
  | [] => []
  | (name, v) :: members => name :: texts v ++ textsMembers members

end

/-! ## Reading -/

/-- The members of an object that has no other names than these: `extra="forbid"`. -/
def fields? (names : List String) : Json → Option (List (String × Json))
  | .obj members => if ∀ m ∈ members, m.1 ∈ names then some members else none
  | _ => none

/-- Only an object has fields. -/
theorem eq_obj_of_fields? {names : List String} {j : Json} {members : List (String × Json)} (h : fields? names j = some members) :
    j = .obj members := by
  cases j with
  | obj members' =>
    by_cases hnames : ∀ m ∈ members', m.1 ∈ names
    · rw [fields?, if_pos hnames, Option.some.injEq] at h
      rw [h]
    · rw [fields?, if_neg hnames] at h
      nomatch h
  | _ => nomatch h

/-- A text. -/
def text? : Json → Option String
  | .str s => some s
  | _ => none

/-- The items of an array. -/
def items? : Json → Option (List Json)
  | .arr items => some items
  | _ => none

/-- The value a text names in a table: a `Literal`. -/
def literal? {α : Type} (table : List (String × α)) (j : Json) : Option α :=
  j.text?.bind fun s => (table.find? fun entry => entry.1 = s).map Prod.snd

/-- A value that may be null. -/
def nullable? {α : Type} (read : Json → Option α) : Json → Option (Option α)
  | .null => some none
  | j => (read j).map some

/-- The fields of what is stored of an object. -/
theorem fields?_of_stored {members : List (String × Json)} {j : Json} (h : Stored (.obj members) j) (hn : (members.map Prod.fst).Nodup) :
    ∃ members', fields? (members.map Prod.fst) j = some members' ∧ j = .obj members' ∧
      ∀ name v, member? name members = some v → ∃ v', member? name members' = some v' ∧ Stored v v' := by
  obtain ⟨members', rfl, hnames, hmember⟩ := h.obj_inv hn
  exact ⟨members', if_pos hnames, rfl, hmember⟩

theorem Stored.text? {s : String} {j : Json} (h : Stored (.str s) j) : j = .str s := by
  cases h
  rfl

theorem Stored.int_inv {n : Int} {j : Json} (h : Stored (.int n) j) : j = .int n := by
  cases h
  rfl

theorem Stored.bool_inv {b : Bool} {j : Json} (h : Stored (.bool b) j) : j = .bool b := by
  cases h
  rfl

theorem Stored.null_inv {j : Json} (h : Stored .null j) : j = .null := by
  cases h
  rfl

theorem StoredItems.length {items items' : List Json} (h : StoredItems items items') : items.length = items'.length := by
  induction items generalizing items' with
  | nil =>
    cases h
    rfl
  | cons v rest ih =>
    cases h with
    | cons _ hrest => rw [List.length_cons, List.length_cons, ih hrest]

/-- The items of an array are read when each is. -/
theorem mapM_of_storedItems {α : Type} {write : α → Json} {read : Json → Option α} {xs : List α} {items : List Json}
    (h : StoredItems (xs.map write) items) (hread : ∀ x ∈ xs, ∀ j ∈ items, Stored (write x) j → read j = some x) :
    items.mapM read = some xs := by
  induction xs generalizing items with
  | nil =>
    cases h
    rfl
  | cons x xs ih =>
    cases h with
    | @cons _ v' _ items' hv hrest =>
      have hx := hread x List.mem_cons_self v' List.mem_cons_self hv
      have hxs := ih hrest fun y hy j hj => hread y (List.mem_cons_of_mem x hy) j (List.mem_cons_of_mem v' hj)
      rw [List.mapM_cons, hx, hxs]
      rfl

end Json

end Py
