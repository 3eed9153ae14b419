import Nl2Sql.Candidate.Rowset

/-!
# Equal payloads are equal rowsets

Two rowsets have one canonical payload exactly when one is a permutation of the other up to the equivalence of values: numbers are
compared as numbers, dictionaries by what they hold, lists item by item, and values of different types never agree.
-/

namespace Nl2Sql

open Py

mutual

/-- The values whose comparison is exact: scalars other than floats, finite decimals, and lists and dictionaries of them. -/
def RowValue.Plain : RowValue → Prop
  | .null | .bool _ | .int _ | .str _ => True
  | .decimal value => value.isSome
  | .dict entries => (entries.map Prod.fst).Nodup ∧ PlainEntries entries
  | .list items => PlainItems items
  | .float _ | .datetime _ _ | .date _ | .other => False

/-- Every item is plain. -/
def PlainItems : List RowValue → Prop
  | [] => True
  | value :: rest => value.Plain ∧ PlainItems rest

/-- Every entry is plain. -/
def PlainEntries : List (String × RowValue) → Prop
  | [] => True
  | (_, value) :: rest => value.Plain ∧ PlainEntries rest

end

mutual

/-- Values that stand for the same. -/
inductive ValueEquiv : RowValue → RowValue → Prop where
  | null : ValueEquiv .null .null
  | bool (b : Bool) : ValueEquiv (.bool b) (.bool b)
  | int (n : Int) : ValueEquiv (.int n) (.int n)
  | str (s : String) : ValueEquiv (.str s) (.str s)
  | decimal {a b : Decimal} : a.toRat = b.toRat → ValueEquiv (.decimal (some a)) (.decimal (some b))
  | list {xs ys : List RowValue} : ItemsEquiv xs ys → ValueEquiv (.list xs) (.list ys)
  | dict {xs ys zs : List (String × RowValue)} : ys.Perm zs → EntriesEquiv xs zs → ValueEquiv (.dict xs) (.dict ys)

/-- Lists that agree item by item. -/
inductive ItemsEquiv : List RowValue → List RowValue → Prop where
  | nil : ItemsEquiv [] []
  | cons {x y : RowValue} {xs ys : List RowValue} : ValueEquiv x y → ItemsEquiv xs ys → ItemsEquiv (x :: xs) (y :: ys)

/-- Entries that agree one by one, name and value. -/
inductive EntriesEquiv : List (String × RowValue) → List (String × RowValue) → Prop where
  | nil : EntriesEquiv [] []
  | cons {k : String} {x y : RowValue} {xs ys : List (String × RowValue)} : ValueEquiv x y → EntriesEquiv xs ys →
    EntriesEquiv ((k, x) :: xs) ((k, y) :: ys)

end

/-- One rowset is the other in another order, up to the equivalence of values. -/
def RowsetEquiv (xs ys : List Row) : Prop := ∃ zs, ys.Perm zs ∧ List.Forall₂ (fun x z => ValueEquiv (.dict x) (.dict z)) xs zs

namespace RowsetAux

/-! ## Sorting by a name -/

/-- Sorting entries with distinct names forgets their order and nothing else. -/
theorem insertionSort_eq_iff {α β : Type*} [LinearOrder β] (key : α → β) {xs ys : List α} (hinj : ∀ a ∈ xs, ∀ b ∈ xs, key a = key b → a = b) :
    xs.insertionSort (fun a b => key a ≤ key b) = ys.insertionSort (fun a b => key a ≤ key b) ↔ xs.Perm ys := by
  have hx := List.perm_insertionSort (fun a b : α => key a ≤ key b) xs
  have hy := List.perm_insertionSort (fun a b : α => key a ≤ key b) ys
  refine ⟨fun h => (hx.symm.trans (List.Perm.of_eq h)).trans hy, fun h => ?_⟩
  have htotal : Std.Total (fun a b : α => key a ≤ key b) := ⟨fun a b => le_total (key a) (key b)⟩
  have htrans : IsTrans α (fun a b : α => key a ≤ key b) := ⟨fun a b c => le_trans⟩
  refine List.Perm.eq_of_pairwise (fun a b ha hb hab hba => ?_) (List.pairwise_insertionSort _ xs) (List.pairwise_insertionSort _ ys)
    (hx.trans (h.trans hy.symm))
  exact hinj a (hx.subset ha) b (h.symm.subset (hy.subset hb)) (le_antisymm hab hba)

/-- A permutation of images is the list of the images of a permutation. -/
theorem perm_map {α β : Type*} {f : α → β} {xs : List β} {ys : List α} (h : xs.Perm (ys.map f)) : ∃ zs, ys.Perm zs ∧ xs = zs.map f := by
  have hcomp := congrFun (congrFun (List.eq_map_comp_perm f) xs) ys
  obtain ⟨zs, hmap, hperm⟩ := hcomp.mpr h
  exact ⟨zs, hperm.symm, hmap⟩

/-- An entry with its value normalized. -/
def normalizeEntry (entry : String × RowValue) : String × Except String Json := (entry.1, normalizeValue entry.2)

theorem normalizeEntries_eq_map (entries : List (String × RowValue)) : normalizeEntries entries = entries.map normalizeEntry := by
  induction entries with
  | nil => rfl
  | cons e entries ih => rw [normalizeEntries, ih, List.map_cons, normalizeEntry]

theorem plainItems_iff {items : List RowValue} : PlainItems items ↔ ∀ v ∈ items, v.Plain := by
  induction items with
  | nil => simp [PlainItems]
  | cons v items ih => simp [PlainItems, ih]

theorem plainEntries_iff {entries : List (String × RowValue)} : PlainEntries entries ↔ ∀ e ∈ entries, e.2.Plain := by
  induction entries with
  | nil => simp [PlainEntries]
  | cons e entries ih => simp [PlainEntries, ih]

/-! ## Lists of results -/

/-- A list of results that are all there. -/
theorem mapM_of_ok {α β : Type*} {f : α → Except String β} {xs : List α} {ys : List β} (h : xs.map f = ys.map .ok) : xs.mapM f = .ok ys := by
  induction xs generalizing ys with
  | nil =>
    obtain rfl : ys = [] := by simpa using h
    rfl
  | cons x xs ih =>
    cases ys with
    | nil => nomatch h
    | cons y ys =>
      obtain ⟨hx, hxs⟩ := List.cons.inj h
      rw [List.mapM_cons, hx, ih hxs]
      rfl

/-- Where every result is there, the list of them is there. -/
theorem exists_ok {α β : Type*} {f : α → Except String β} {xs : List α} {P : β → Prop} (h : ∀ x ∈ xs, ∃ y, f x = .ok y ∧ P y) :
    ∃ ys : List β, xs.map f = ys.map .ok ∧ ∀ y ∈ ys, P y := by
  induction xs with
  | nil => exact ⟨[], rfl, nofun⟩
  | cons x xs ih =>
    obtain ⟨y, hy, hP⟩ := h x List.mem_cons_self
    obtain ⟨ys, hys, hPs⟩ := ih fun z hz => h z (List.mem_cons_of_mem x hz)
    refine ⟨y :: ys, by rw [List.map_cons, List.map_cons, hy, hys], ?_⟩
    intro z hz
    rcases List.mem_cons.mp hz with rfl | hz
    · exact hP
    · exact hPs z hz

/-- Lists are known by their images where their elements are. -/
theorem eq_of_map_eq {α β : Type*} {f : α → β} {xs ys : List α} (hinj : ∀ x ∈ xs, ∀ y ∈ ys, f x = f y → x = y)
    (h : xs.map f = ys.map f) : xs = ys := by
  induction xs generalizing ys with
  | nil => exact (List.map_eq_nil_iff.mp h.symm).symm
  | cons x xs ih =>
    cases ys with
    | nil => nomatch h
    | cons y ys =>
      obtain ⟨hx, hxs⟩ := List.cons.inj h
      rw [hinj x List.mem_cons_self y List.mem_cons_self hx,
        ih (fun a ha b hb => hinj a (List.mem_cons_of_mem x ha) b (List.mem_cons_of_mem y hb)) hxs]

/-! ## A plain value has a canonical form -/

/-- A member with a canonical value gives a canonical item. -/
theorem objectItem_ok {m : String × Except String Json} (h : ∃ j, m.2 = .ok j ∧ j.Canonical) : ∃ j, objectItem m = .ok j ∧ j.Canonical := by
  obtain ⟨j, hj, hc⟩ := h
  refine ⟨.arr [.str m.1, j], ?_, trivial, hc, trivial⟩
  unfold objectItem
  rw [hj]
  rfl

/-- An object of one member is canonical where its value is. -/
theorem canonical_singleton {name : String} {j : Json} (h : j.Canonical) : (Json.obj [(name, j)]).Canonical :=
  ⟨List.pairwise_singleton _ _, h, trivial⟩

/-- A list of results gives an array of them. -/
theorem normalize_list {items : List RowValue} (h : ∀ r ∈ normalizeItems items, ∃ j, r = .ok j ∧ j.Canonical) :
    ∃ js : List Json, normalizeItems items = js.map .ok ∧ normalizeValue (.list items) = .ok (.arr js) ∧ ∀ j ∈ js, j.Canonical := by
  obtain ⟨js, hjs, hc⟩ := exists_ok (f := id) h
  refine ⟨js, by simpa using hjs, ?_, hc⟩
  rw [normalizeValue, mapM_of_ok hjs]
  rfl

/-- Entries with results give an object of the sorted results. -/
theorem normalize_dict {entries : List (String × RowValue)} (h : ∀ r ∈ normalizeEntries entries, ∃ j, r.2 = .ok j ∧ j.Canonical) :
    ∃ js : List Json, ((normalizeEntries entries).insertionSort fun a b => a.1 ≤ b.1).map objectItem = js.map .ok ∧
      normalizeValue (.dict entries) = .ok (.obj [("$object", .arr js)]) ∧ ∀ j ∈ js, j.Canonical := by
  have hsorted : ∀ r ∈ (normalizeEntries entries).insertionSort fun a b => a.1 ≤ b.1, ∃ j, objectItem r = .ok j ∧ j.Canonical :=
    fun r hr => objectItem_ok (h r ((List.mem_insertionSort _).mp hr))
  obtain ⟨js, hjs, hc⟩ := exists_ok hsorted
  refine ⟨js, hjs, ?_, hc⟩
  rw [normalizeValue, mapM_of_ok hjs]
  rfl

mutual

/-- A plain value has a canonical form. -/
theorem normalizeValue_ok (v : RowValue) (h : v.Plain) : ∃ j, normalizeValue v = .ok j ∧ j.Canonical := by
  cases v with
  | null => exact ⟨.null, by rw [normalizeValue], trivial⟩
  | bool b => exact ⟨.bool b, by rw [normalizeValue], trivial⟩
  | int n => exact ⟨.int n, by rw [normalizeValue], trivial⟩
  | str s => exact ⟨.str s, by rw [normalizeValue], trivial⟩
  | float digits => exact h.elim
  | decimal value =>
    obtain ⟨d, rfl⟩ := Option.isSome_iff_exists.mp h
    exact ⟨decimalTag d, by rw [normalizeValue], canonical_singleton trivial⟩
  | datetime aware iso => exact h.elim
  | date iso => exact h.elim
  | dict entries =>
    obtain ⟨js, -, hjs, hc⟩ := normalize_dict (normalizeEntries_ok entries h.2)
    exact ⟨_, hjs, canonical_singleton (Json.canonicalItems_iff.mpr hc)⟩
  | list items =>
    obtain ⟨js, -, hjs, hc⟩ := normalize_list (normalizeItems_ok items h)
    exact ⟨_, hjs, Json.canonicalItems_iff.mpr hc⟩
  | other => exact h.elim

/-- Plain items have canonical forms. -/
theorem normalizeItems_ok (items : List RowValue) (h : PlainItems items) : ∀ r ∈ normalizeItems items, ∃ j, r = .ok j ∧ j.Canonical := by
  intro r hr
  cases items with
  | nil => nomatch hr
  | cons v items =>
    rw [normalizeItems] at hr
    rcases List.mem_cons.mp hr with rfl | hr
    · exact normalizeValue_ok v h.1
    · exact normalizeItems_ok items h.2 r hr

/-- Plain entries have canonical forms. -/
theorem normalizeEntries_ok (entries : List (String × RowValue)) (h : PlainEntries entries) :
    ∀ r ∈ normalizeEntries entries, ∃ j, r.2 = .ok j ∧ j.Canonical := by
  intro r hr
  cases entries with
  | nil => nomatch hr
  | cons e entries =>
    obtain ⟨k, v⟩ := e
    rw [normalizeEntries] at hr
    rcases List.mem_cons.mp hr with rfl | hr
    · exact normalizeValue_ok v h.1
    · exact normalizeEntries_ok entries h.2 r hr

end

/-! ## Equal forms are equivalent values -/

/-- The text of a decimal tells the number. -/
theorem decimalTag_inj {a b : Decimal} : decimalTag a = decimalTag b ↔ a.toRat = b.toRat := by
  have htext : decimalTag a = decimalTag b ↔
      (if a.isZero then "0" else a.plainText) = (if b.isZero then "0" else b.plainText) := by simp [decimalTag]
  rw [htext]
  by_cases ha : a.coeff = 0
  · by_cases hb : b.coeff = 0
    · simp [Decimal.isZero, ha, hb, (Decimal.toRat_eq_zero_iff a).mpr ha, (Decimal.toRat_eq_zero_iff b).mpr hb]
    · have hne : b.toRat ≠ 0 := fun h => hb ((Decimal.toRat_eq_zero_iff b).mp h)
      simp [Decimal.isZero, ha, hb, (Decimal.toRat_eq_zero_iff a).mpr ha, hne.symm, (Decimal.plainText_ne_zero hb).symm]
  · by_cases hb : b.coeff = 0
    · have hne : a.toRat ≠ 0 := fun h => ha ((Decimal.toRat_eq_zero_iff a).mp h)
      simp [Decimal.isZero, ha, hb, (Decimal.toRat_eq_zero_iff b).mpr hb, hne, Decimal.plainText_ne_zero ha]
    · simpa [Decimal.isZero, ha, hb] using Decimal.plainText_inj ha hb

/-- The types that a canonical form tells apart. -/
inductive Tag where
  | null | bool | int | str | decimal | list | dict | none
  deriving DecidableEq

/-- The type of a value. -/
def tagOf : RowValue → Tag
  | .null => .null
  | .bool _ => .bool
  | .int _ => .int
  | .str _ => .str
  | .decimal _ => .decimal
  | .list _ => .list
  | .dict _ => .dict
  | _ => .none

/-- The type that a canonical form is tagged with. -/
def tagOfJson : Json → Tag
  | .null => .null
  | .bool _ => .bool
  | .int _ => .int
  | .str _ => .str
  | .arr _ => .list
  | .obj (("$decimal", _) :: _) => .decimal
  | .obj (("$object", _) :: _) => .dict
  | _ => .none

/-- A canonical form is tagged with the type of its value. -/
theorem tagOfJson_eq {v : RowValue} {j : Json} (hv : v.Plain) (h : normalizeValue v = .ok j) : tagOfJson j = tagOf v := by
  cases v with
  | null => rw [normalizeValue] at h; cases h; rfl
  | bool b => rw [normalizeValue] at h; cases h; rfl
  | int n => rw [normalizeValue] at h; cases h; rfl
  | str s => rw [normalizeValue] at h; cases h; rfl
  | float digits => exact hv.elim
  | decimal value =>
    obtain ⟨d, rfl⟩ := Option.isSome_iff_exists.mp hv
    rw [normalizeValue] at h
    cases h
    rfl
  | datetime aware iso => exact hv.elim
  | date iso => exact hv.elim
  | dict entries =>
    obtain ⟨js, -, hjs, -⟩ := normalize_dict (normalizeEntries_ok entries hv.2)
    rw [hjs] at h
    cases h
    rfl
  | list items =>
    obtain ⟨js, -, hjs, -⟩ := normalize_list (normalizeItems_ok items hv)
    rw [hjs] at h
    cases h
    rfl
  | other => exact hv.elim

/-- Values with one canonical form are of one type. -/
theorem tagOf_eq {v w : RowValue} (hv : v.Plain) (hw : w.Plain) (h : normalizeValue v = normalizeValue w) : tagOf v = tagOf w := by
  obtain ⟨j, hj, -⟩ := normalizeValue_ok v hv
  rw [← tagOfJson_eq hv hj, ← tagOfJson_eq hw (h ▸ hj)]

/-- What a value of a known type is. -/
theorem of_tagOf {v w : RowValue} (h : tagOf v = tagOf w) :
    match v with
    | .null => w = .null
    | .bool _ => ∃ b, w = .bool b
    | .int _ => ∃ n, w = .int n
    | .str _ => ∃ s, w = .str s
    | .decimal _ => ∃ value, w = .decimal value
    | .list _ => ∃ items, w = .list items
    | .dict _ => ∃ entries, w = .dict entries
    | _ => True := by
  cases v <;> cases w <;> simp [tagOf] at h ⊢

/-- Names that occur once tell the entries. -/
theorem entry_of_name {entries : List (String × RowValue)} (h : (entries.map Prod.fst).Nodup) :
    ∀ a ∈ normalizeEntries entries, ∀ b ∈ normalizeEntries entries, a.1 = b.1 → a = b := by
  rw [normalizeEntries_eq_map]
  have hmap : (entries.map normalizeEntry).map Prod.fst = entries.map Prod.fst := by
    rw [List.map_map]
    rfl
  rw [← hmap] at h
  intro a ha b hb hname
  exact List.inj_on_of_nodup_map h ha hb hname

/-- Dictionaries have one canonical form exactly when their entries, normalized, are the same in some order. -/
theorem normalize_dict_iff {xs ys : List (String × RowValue)} (hx : (RowValue.dict xs).Plain) (hy : (RowValue.dict ys).Plain) :
    normalizeValue (.dict xs) = normalizeValue (.dict ys) ↔ (normalizeEntries xs).Perm (normalizeEntries ys) := by
  obtain ⟨js, hjs, hnorm, -⟩ := normalize_dict (normalizeEntries_ok xs hx.2)
  obtain ⟨ks, hks, hnorm', -⟩ := normalize_dict (normalizeEntries_ok ys hy.2)
  rw [← insertionSort_eq_iff Prod.fst (entry_of_name hx.1), hnorm, hnorm']
  refine ⟨fun h => ?_, fun h => ?_⟩
  · have hitems : js = ks := by simpa using h
    rw [hitems, ← hks] at hjs
    refine eq_of_map_eq (fun a ha b hb hab => ?_) hjs
    obtain ⟨j, hj, -⟩ := normalizeEntries_ok xs hx.2 a ((List.mem_insertionSort _).mp ha)
    obtain ⟨k, hk, -⟩ := normalizeEntries_ok ys hy.2 b ((List.mem_insertionSort _).mp hb)
    unfold objectItem at hab
    rw [hj, hk] at hab
    obtain ⟨hname, hvalue⟩ : a.1 = b.1 ∧ j = k := by simpa [bind, Except.bind, pure, Except.pure] using hab
    exact Prod.ext hname (by rw [hj, hk, hvalue])
  · rw [h, hks] at hjs
    rw [List.map_inj_right (fun _ _ h => Except.ok.inj h) |>.mp hjs]

/-- Lists have one canonical form exactly when their items do. -/
theorem normalize_list_iff {xs ys : List RowValue} (hx : PlainItems xs) (hy : PlainItems ys) :
    normalizeValue (.list xs) = normalizeValue (.list ys) ↔ normalizeItems xs = normalizeItems ys := by
  obtain ⟨js, hjs, hnorm, -⟩ := normalize_list (normalizeItems_ok xs hx)
  obtain ⟨ks, hks, hnorm', -⟩ := normalize_list (normalizeItems_ok ys hy)
  rw [hnorm, hnorm', hjs, hks, List.map_inj_right fun _ _ h => Except.ok.inj h]
  simp

mutual

/-- Plain values have one canonical form exactly when they are equivalent. -/
theorem normalizeValue_iff (v w : RowValue) (hv : v.Plain) (hw : w.Plain) : normalizeValue v = normalizeValue w ↔ ValueEquiv v w := by
  refine ⟨fun h => ?_, fun h => ?_⟩
  · have htag := of_tagOf (tagOf_eq hv hw h)
    cases v with
    | null =>
      obtain rfl : w = .null := htag
      exact .null
    | bool b =>
      obtain ⟨b', rfl⟩ := htag
      rw [normalizeValue, normalizeValue] at h
      cases h
      exact .bool b
    | int n =>
      obtain ⟨n', rfl⟩ := htag
      rw [normalizeValue, normalizeValue] at h
      cases h
      exact .int n
    | str s =>
      obtain ⟨s', rfl⟩ := htag
      rw [normalizeValue, normalizeValue] at h
      cases h
      exact .str s
    | float digits => exact hv.elim
    | decimal value =>
      obtain ⟨value', rfl⟩ := htag
      obtain ⟨a, rfl⟩ := Option.isSome_iff_exists.mp hv
      obtain ⟨b, rfl⟩ := Option.isSome_iff_exists.mp hw
      rw [normalizeValue, normalizeValue] at h
      exact .decimal (decimalTag_inj.mp (Except.ok.inj h))
    | datetime aware iso => exact hv.elim
    | date iso => exact hv.elim
    | dict entries =>
      obtain ⟨entries', rfl⟩ := htag
      have hperm := (normalize_dict_iff hv hw).mp h
      rw [normalizeEntries_eq_map entries'] at hperm
      obtain ⟨zs, hzs, heq⟩ := perm_map hperm
      have hplain : PlainEntries zs := plainEntries_iff.mpr fun e he => plainEntries_iff.mp hw.2 e (hzs.symm.subset he)
      rw [← normalizeEntries_eq_map] at heq
      exact .dict hzs ((normalizeEntries_iff entries zs hv.2 hplain).mp heq)
    | list items =>
      obtain ⟨items', rfl⟩ := htag
      exact .list ((normalizeItems_iff items items' hv hw).mp ((normalize_list_iff hv hw).mp h))
    | other => exact hv.elim
  · cases v with
    | null => cases h; rfl
    | bool b => cases h; rfl
    | int n => cases h; rfl
    | str s => cases h; rfl
    | float digits => exact hv.elim
    | decimal value =>
      cases h with
      | decimal heq => rw [normalizeValue, normalizeValue, decimalTag_inj.mpr heq]
    | datetime aware iso => exact hv.elim
    | date iso => exact hv.elim
    | dict entries =>
      cases h with
      | @dict _ ys zs hperm hentries =>
        have hplain : PlainEntries zs := plainEntries_iff.mpr fun e he => plainEntries_iff.mp hw.2 e (hperm.symm.subset he)
        rw [normalize_dict_iff hv hw, (normalizeEntries_iff entries zs hv.2 hplain).mpr hentries, normalizeEntries_eq_map,
          normalizeEntries_eq_map]
        exact (hperm.map normalizeEntry).symm
    | list items =>
      cases h with
      | @list _ ys hitems => exact (normalize_list_iff hv hw).mpr ((normalizeItems_iff items ys hv hw).mpr hitems)
    | other => exact hv.elim

/-- Plain items have the same canonical forms exactly when they are equivalent item by item. -/
theorem normalizeItems_iff (xs ys : List RowValue) (hx : PlainItems xs) (hy : PlainItems ys) :
    normalizeItems xs = normalizeItems ys ↔ ItemsEquiv xs ys := by
  cases xs with
  | nil =>
    cases ys with
    | nil => exact ⟨fun _ => .nil, fun _ => rfl⟩
    | cons y ys =>
      rw [normalizeItems, normalizeItems]
      exact ⟨nofun, nofun⟩
  | cons x xs =>
    cases ys with
    | nil =>
      rw [normalizeItems, normalizeItems]
      exact ⟨nofun, nofun⟩
    | cons y ys =>
      rw [normalizeItems, normalizeItems, List.cons.injEq, normalizeValue_iff x y hx.1 hy.1, normalizeItems_iff xs ys hx.2 hy.2]
      refine ⟨fun h => .cons h.1 h.2, fun h => ?_⟩
      cases h with
      | cons hhead htail => exact ⟨hhead, htail⟩

/-- Plain entries have the same canonical forms exactly when they are equivalent one by one. -/
theorem normalizeEntries_iff (xs ys : List (String × RowValue)) (hx : PlainEntries xs) (hy : PlainEntries ys) :
    normalizeEntries xs = normalizeEntries ys ↔ EntriesEquiv xs ys := by
  cases xs with
  | nil =>
    cases ys with
    | nil => exact ⟨fun _ => .nil, fun _ => rfl⟩
    | cons y ys =>
      rw [normalizeEntries, normalizeEntries]
      exact ⟨nofun, nofun⟩
  | cons x xs =>
    cases ys with
    | nil =>
      rw [normalizeEntries, normalizeEntries]
      exact ⟨nofun, nofun⟩
    | cons y ys =>
      obtain ⟨k, v⟩ := x
      obtain ⟨k', w⟩ := y
      rw [normalizeEntries, normalizeEntries, List.cons.injEq, Prod.mk.injEq, normalizeValue_iff v w hx.1 hy.1,
        normalizeEntries_iff xs ys hx.2 hy.2]
      refine ⟨fun h => ?_, fun h => ?_⟩
      · obtain ⟨⟨rfl, hvalue⟩, htail⟩ := h
        exact .cons hvalue htail
      · cases h with
        | cons hvalue htail => exact ⟨⟨rfl, hvalue⟩, htail⟩

end

/-- The canonical rows of a plain rowset. -/
theorem rowsetPayload_ok {rowset : List Row} (h : ∀ row ∈ rowset, (RowValue.dict row).Plain) (hcols : SameColumns rowset) :
    ∃ js : List Json, (rowset.map fun row => normalizeValue (.dict row)) = js.map .ok ∧ (∀ j ∈ js, j.Canonical) ∧
      rowsetPayload rowset = .ok (Json.arr (sortedRows js)).dumps := by
  obtain ⟨js, hjs, hc⟩ := exists_ok (fun row hrow => normalizeValue_ok (.dict row) (h row hrow))
  refine ⟨js, hjs, hc, ?_⟩
  unfold rowsetPayload
  rw [if_neg (not_not.mpr hcols), mapM_of_ok hjs]
  rfl

/-- The text of the sorted rows forgets their order and nothing else. -/
theorem sortedRows_dumps_iff {js ks : List Json} (hj : ∀ j ∈ js, j.Canonical) (hk : ∀ k ∈ ks, k.Canonical) :
    (Json.arr (sortedRows js)).dumps = (Json.arr (sortedRows ks)).dumps ↔ js.Perm ks := by
  have hsorted : ∀ {ls : List Json}, (∀ l ∈ ls, l.Canonical) → (Json.arr (sortedRows ls)).Canonical :=
    fun h => Json.canonicalItems_iff.mpr fun l hl => h l ((List.mem_insertionSort _).mp hl)
  have hinj : ∀ a ∈ js, ∀ b ∈ js, a.dumps = b.dumps → a = b := fun a ha b hb => Json.dumps_injective (hj a ha) (hj b hb)
  rw [← insertionSort_eq_iff Json.dumps hinj]
  refine ⟨fun h => ?_, fun h => congrArg (fun rows => (Json.arr rows).dumps) h⟩
  have harr := Json.dumps_injective (hsorted hj) (hsorted hk) h
  exact Json.arr.inj harr

/-- Rows with the same canonical forms are equivalent one by one. -/
theorem forall₂_iff {xs zs : List Row} (hx : ∀ row ∈ xs, (RowValue.dict row).Plain) (hz : ∀ row ∈ zs, (RowValue.dict row).Plain) :
    (xs.map fun row => normalizeValue (.dict row)) = (zs.map fun row => normalizeValue (.dict row)) ↔
      List.Forall₂ (fun x z => ValueEquiv (.dict x) (.dict z)) xs zs := by
  induction xs generalizing zs with
  | nil => cases zs <;> simp
  | cons x xs ih =>
    cases zs with
    | nil => simp
    | cons z zs =>
      rw [List.map_cons, List.map_cons, List.cons.injEq, List.forall₂_cons,
        normalizeValue_iff _ _ (hx x List.mem_cons_self) (hz z List.mem_cons_self),
        ih (fun row hrow => hx row (List.mem_cons_of_mem x hrow)) (fun row hrow => hz row (List.mem_cons_of_mem z hrow))]

end RowsetAux

open RowsetAux

/-- A rowset that the comparison is about: plain values, and the same columns in every row. -/
def PlainRowset (rowset : List Row) : Prop := (∀ row ∈ rowset, (RowValue.dict row).Plain) ∧ SameColumns rowset

/-- Plain rowsets have canonical payloads, and these are equal exactly when one rowset is the other in another order, up to the
equivalence of values. -/
theorem rowset_payload_iff {xs ys : List Row} (hx : PlainRowset xs) (hy : PlainRowset ys) :
    ∃ p q, rowsetPayload xs = .ok p ∧ rowsetPayload ys = .ok q ∧ (p = q ↔ RowsetEquiv xs ys) := by
  obtain ⟨js, hjs, hjc, hp⟩ := rowsetPayload_ok hx.1 hx.2
  obtain ⟨ks, hks, hkc, hq⟩ := rowsetPayload_ok hy.1 hy.2
  refine ⟨_, _, hp, hq, ?_⟩
  have hok : js.Perm ks ↔ (js.map (Except.ok (ε := String))).Perm (ks.map .ok) :=
    (List.map_perm_map_iff fun _ _ h => Except.ok.inj h).symm
  rw [sortedRows_dumps_iff hjc hkc, hok, ← hjs, ← hks]
  refine ⟨fun h => ?_, ?_⟩
  · obtain ⟨zs, hzs, heq⟩ := perm_map h
    exact ⟨zs, hzs, (forall₂_iff hx.1 fun row hrow => hy.1 row (hzs.symm.subset hrow)).mp heq⟩
  · rintro ⟨zs, hzs, hequiv⟩
    rw [(forall₂_iff hx.1 fun row hrow => hy.1 row (hzs.symm.subset hrow)).mpr hequiv]
    exact (hzs.map _).symm

/-- The revenue of two shops, with the tags of each. -/
def shopRows : List Row :=
  [[("shop", .str "north"), ("revenue", .decimal (some ⟨false, 150, -2⟩)), ("tags", .dict [("a", .int 1), ("b", .null)])],
    [("shop", .str "south"), ("revenue", .decimal (some ⟨true, 0, 3⟩)), ("tags", .list [.bool true, .str "1"])]]

/-- The same rows from another query: other spellings of the numbers, other orders of the rows, the columns and the keys. -/
def shopRowsReordered : List Row :=
  [[("revenue", .decimal (some ⟨false, 0, 0⟩)), ("shop", .str "south"), ("tags", .list [.bool true, .str "1"])],
    [("shop", .str "north"), ("tags", .dict [("b", .null), ("a", .int 1)]), ("revenue", .decimal (some ⟨false, 15, -1⟩))]]

theorem rowset_payload_reordered : PlainRowset shopRows ∧ PlainRowset shopRowsReordered ∧
    ∃ p q, rowsetPayload shopRows = .ok p ∧ rowsetPayload shopRowsReordered = .ok q ∧ (p = q ↔ RowsetEquiv shopRows shopRowsReordered) := by
  have hx : PlainRowset shopRows := by
    refine ⟨?_, by decide⟩
    simp [shopRows, RowValue.Plain, PlainEntries, PlainItems]
  have hy : PlainRowset shopRowsReordered := by
    refine ⟨?_, by decide⟩
    simp [shopRowsReordered, RowValue.Plain, PlainEntries, PlainItems]
  exact ⟨hx, hy, rowset_payload_iff hx hy⟩

end Nl2Sql
