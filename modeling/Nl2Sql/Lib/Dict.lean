import Mathlib.Algebra.GroupWithZero.Nat
import Mathlib.Data.List.Nodup
import Mathlib.Algebra.BigOperators.Group.List.Basic

/-!
# Insertion-ordered dictionaries

A dictionary in the sense of Python's `dict`: its keys are distinct and it is iterated in the order in which the keys were
first set. Setting a key that is present replaces the value where it stands; setting a new key appends it.
-/

universe u v

namespace Py

/-- A dictionary: its entries in insertion order, no key twice. -/
structure Dict (κ : Type u) (υ : Type v) where
  entries : List (κ × υ)
  nodup : (entries.map Prod.fst).Nodup
  deriving DecidableEq

namespace Dict

variable {κ : Type u} {υ : Type v}

/-- The dictionary with no entry. -/
def empty : Dict κ υ := ⟨[], List.nodup_nil⟩

/-- The keys, in insertion order: what iterating over the dictionary gives. -/
def keys (d : Dict κ υ) : List κ := d.entries.map Prod.fst

/-- The values, in insertion order. -/
def values (d : Dict κ υ) : List υ := d.entries.map Prod.snd

/-- The entries with the value at `k` replaced where it stands, or `(k, v)` appended when `k` is not a key. -/
def setEntries [DecidableEq κ] (k : κ) (v : υ) : List (κ × υ) → List (κ × υ)
  | [] => [(k, v)]
  | e :: rest => if e.1 = k then (k, v) :: rest else e :: setEntries k v rest

/-- The first value stored under `k`, if there is one. -/
def getEntries [DecidableEq κ] (k : κ) : List (κ × υ) → Option υ
  | [] => none
  | e :: rest => if e.1 = k then some e.2 else getEntries k rest

section Entries

variable [DecidableEq κ]

/-- Setting a key keeps the keys and their order, with the key appended when it is new. -/
theorem map_fst_setEntries (k : κ) (v : υ) (es : List (κ × υ)) :
    (setEntries k v es).map Prod.fst =
      if k ∈ es.map Prod.fst then es.map Prod.fst else es.map Prod.fst ++ [k] := by
  induction es with
  | nil => simp [setEntries]
  | cons e rest ih =>
    by_cases h : e.1 = k
    · simp [setEntries, h]
    · have h' : ¬ k = e.1 := fun hk => h hk.symm
      simp only [setEntries, h, if_false, List.map_cons, ih, List.mem_cons, h', false_or]
      split <;> simp

/-- Setting a key keeps the keys distinct. -/
theorem nodup_setEntries (k : κ) (v : υ) (es : List (κ × υ)) (h : (es.map Prod.fst).Nodup) :
    ((setEntries k v es).map Prod.fst).Nodup := by
  rw [map_fst_setEntries]
  split
  · exact h
  · rename_i hk
    exact List.nodup_append.mpr ⟨h, List.nodup_singleton k, by
      intro a ha b hb hab
      rw [List.mem_singleton] at hb
      exact hk (hb ▸ hab ▸ ha)⟩

theorem getEntries_setEntries (k k' : κ) (v : υ) (es : List (κ × υ)) :
    getEntries k' (setEntries k v es) = if k = k' then some v else getEntries k' es := by
  induction es with
  | nil => simp [setEntries, getEntries]
  | cons e rest ih =>
    by_cases he : e.1 = k
    · subst he
      by_cases hk : e.1 = k' <;> simp [setEntries, getEntries, hk]
    · by_cases hk' : e.1 = k'
      · subst hk'
        have hk : ¬ k = e.1 := fun h => he h.symm
        simp [setEntries, getEntries, he, hk]
      · simp [setEntries, getEntries, he, hk', ih]

/-- A key has a value exactly when it is one of the keys. -/
theorem getEntries_isSome (k : κ) (es : List (κ × υ)) :
    (getEntries k es).isSome = true ↔ k ∈ es.map Prod.fst := by
  induction es with
  | nil => simp [getEntries]
  | cons e rest ih =>
    by_cases h : e.1 = k
    · simp [getEntries, h]
    · have h' : ¬ k = e.1 := fun hk => h hk.symm
      simp only [getEntries, h, if_false, ih, List.map_cons, List.mem_cons, h', false_or]

/-- A value that is found is one of the entries. -/
theorem mem_of_getEntries {k : κ} {v : υ} {es : List (κ × υ)} (h : getEntries k es = some v) : (k, v) ∈ es := by
  induction es with
  | nil => cases h
  | cons e rest ih =>
    by_cases he : e.1 = k
    · simp only [getEntries, he, if_true, Option.some.injEq] at h
      exact List.mem_cons.mpr (Or.inl (by rw [← he, ← h]))
    · simp only [getEntries, he, if_false] at h
      exact List.mem_cons_of_mem _ (ih h)

/-- Nothing is found under a key that was filtered out, and every other key finds what it found. -/
theorem getEntries_filter_ne (k k' : κ) (es : List (κ × υ)) :
    getEntries k' (es.filter fun e => e.1 ≠ k) = if k = k' then none else getEntries k' es := by
  induction es with
  | nil => split <;> rfl
  | cons e rest ih =>
    by_cases he : e.1 = k
    · rw [List.filter_cons_of_neg (by simpa using he), ih, getEntries, he]
      split
      · rfl
      · rfl
    · rw [List.filter_cons_of_pos (by simpa using he), getEntries, getEntries, ih]
      by_cases hk : e.1 = k'
      · rw [if_pos hk, if_pos hk, if_neg fun h => he (hk.trans h.symm)]
      · rw [if_neg hk, if_neg hk]

/-- With distinct keys every entry is found under its key. -/
theorem getEntries_of_mem {k : κ} {v : υ} {es : List (κ × υ)} (hn : (es.map Prod.fst).Nodup) (h : (k, v) ∈ es) :
    getEntries k es = some v := by
  induction es with
  | nil => cases h
  | cons e rest ih =>
    rw [List.map_cons, List.nodup_cons] at hn
    rcases List.mem_cons.mp h with rfl | h
    · simp [getEntries]
    · have hne : ¬ e.1 = k := by
        intro he
        exact hn.1 (he ▸ List.mem_map_of_mem (f := Prod.fst) h)
      simp only [getEntries, hne, if_false]
      exact ih hn.2 h

/-- What a set does to the sum of the values: the old value under the key leaves it and the new one joins it. -/
theorem sum_map_snd_setEntries (k : κ) (v : Nat) (es : List (κ × Nat)) :
    ((setEntries k v es).map Prod.snd).sum + (getEntries k es).getD 0 = (es.map Prod.snd).sum + v := by
  induction es with
  | nil => simp [setEntries, getEntries]
  | cons e rest ih =>
    by_cases h : e.1 = k
    · simp [setEntries, getEntries, h]
      omega
    · simp only [setEntries, getEntries, h, if_false, List.map_cons, List.sum_cons]
      omega

end Entries

variable [DecidableEq κ]

/-- `d.get(k)`: the value under `k`, if there is one. -/
def get? (d : Dict κ υ) (k : κ) : Option υ := getEntries k d.entries

/-- `d[k] = v`. -/
def set (d : Dict κ υ) (k : κ) (v : υ) : Dict κ υ := ⟨setEntries k v d.entries, nodup_setEntries k v d.entries d.nodup⟩

/-- `d.pop(k, None)`, without the value. -/
def erase (d : Dict κ υ) (k : κ) : Dict κ υ := ⟨d.entries.filter fun e => e.1 ≠ k, d.nodup.sublist (List.filter_sublist.map Prod.fst)⟩

/-- The dictionary a comprehension or a literal builds: the pairs set one after another, a later one over an earlier one. -/
def ofList (ps : List (κ × υ)) : Dict κ υ := ps.foldl (fun d p => d.set p.1 p.2) empty

instance : Membership κ (Dict κ υ) := ⟨fun d k => k ∈ d.keys⟩

instance (k : κ) (d : Dict κ υ) : Decidable (k ∈ d) := inferInstanceAs (Decidable (k ∈ d.keys))

omit [DecidableEq κ] in
theorem mem_iff_mem_keys {d : Dict κ υ} {k : κ} : k ∈ d ↔ k ∈ d.keys := Iff.rfl

omit [DecidableEq κ] in
@[simp] theorem keys_empty : (empty : Dict κ υ).keys = [] := rfl

omit [DecidableEq κ] in
@[simp] theorem values_empty : (empty : Dict κ υ).values = [] := rfl

@[simp] theorem get?_empty (k : κ) : (empty : Dict κ υ).get? k = none := rfl

/-- A key that was just set has the value set. -/
@[simp] theorem get?_set_self (d : Dict κ υ) (k : κ) (v : υ) : (d.set k v).get? k = some v := by
  simp [get?, set, getEntries_setEntries]

/-- Setting one key leaves the others as they were. -/
theorem get?_set_of_ne (d : Dict κ υ) {k k' : κ} (v : υ) (h : k ≠ k') : (d.set k v).get? k' = d.get? k' := by
  simp [get?, set, getEntries_setEntries, h]

/-- What is under a key after a set. -/
theorem get?_set {d : Dict κ υ} {k k' : κ} {v : υ} : (d.set k v).get? k' = if k = k' then some v else d.get? k' :=
  getEntries_setEntries k k' v d.entries

/-- What is under a key after one was popped. -/
theorem get?_erase {d : Dict κ υ} {k k' : κ} : (d.erase k).get? k' = if k = k' then none else d.get? k' :=
  getEntries_filter_ne k k' d.entries

/-- The keys after a set: a new key goes to the end. -/
theorem keys_set (d : Dict κ υ) (k : κ) (v : υ) : (d.set k v).keys = if k ∈ d.keys then d.keys else d.keys ++ [k] :=
  map_fst_setEntries k v d.entries

/-- The keys after a set: the one set is among them. -/
theorem mem_set {d : Dict κ υ} {k k' : κ} {v : υ} : k' ∈ d.set k v ↔ k' ∈ d ∨ k' = k := by
  rw [mem_iff_mem_keys, mem_iff_mem_keys, keys_set]
  split
  · rename_i hk
    exact ⟨.inl, fun h => h.elim id fun h => h ▸ hk⟩
  · rw [List.mem_append, List.mem_singleton]

/-- Setting a new key appends its entry. -/
theorem entries_set_of_not_mem (d : Dict κ υ) {k : κ} (v : υ) (h : k ∉ d.keys) :
    (d.set k v).entries = d.entries ++ [(k, v)] := by
  obtain ⟨es, hn⟩ := d
  simp only [set, keys] at h ⊢
  clear hn
  induction es with
  | nil => rfl
  | cons e rest ih =>
    have he : ¬ e.1 = k := by
      rintro rfl
      exact h (by simp)
    simp only [setEntries, he, if_false, List.cons_append, List.cons.injEq, true_and]
    exact ih (fun hk => h (by simp only [List.map_cons, List.mem_cons]; exact Or.inr hk))

/-- `d.update(pairs)`: the pairs set one after another. -/
def update (d : Dict κ υ) (pairs : List (κ × υ)) : Dict κ υ := pairs.foldl (fun d p => d.set p.1 p.2) d

/-- An update leaves the other keys as they were. -/
theorem get?_update_of_not_mem {k : κ} {pairs : List (κ × υ)} (h : k ∉ pairs.map Prod.fst) (d : Dict κ υ) :
    (d.update pairs).get? k = d.get? k := by
  induction pairs generalizing d with
  | nil => rfl
  | cons p rest ih =>
    rw [List.map_cons, List.mem_cons, not_or] at h
    exact (ih h.2 _).trans (get?_set_of_ne d p.2 fun hp => h.1 hp.symm)

/-- After an update a key of the pairs has the value of one of them. -/
theorem get?_update_of_mem {k : κ} {pairs : List (κ × υ)} (h : k ∈ pairs.map Prod.fst) (d : Dict κ υ) :
    ∃ v, (k, v) ∈ pairs ∧ (d.update pairs).get? k = some v := by
  induction pairs generalizing d with
  | nil => nomatch h
  | cons p rest ih =>
    by_cases hrest : k ∈ rest.map Prod.fst
    · obtain ⟨v, hv, hget⟩ := ih hrest (d.set p.1 p.2)
      exact ⟨v, List.mem_cons_of_mem p hv, hget⟩
    · have hk : p.1 = k := by
        rcases List.mem_cons.mp h with hk | hk
        · exact hk.symm
        · exact absurd hk hrest
      subst hk
      exact ⟨p.2, List.mem_cons_self, (get?_update_of_not_mem hrest _).trans (get?_set_self d p.1 p.2)⟩

/-- An update that leaves out pairs of other keys gives a key the same value. -/
theorem get?_update_filter {k : κ} {p : κ × υ → Bool} {pairs : List (κ × υ)} (h : ∀ pair ∈ pairs, pair.1 = k → p pair = true) (d : Dict κ υ)
    {e : Dict κ υ} (hd : d.get? k = e.get? k) : (d.update pairs).get? k = (e.update (pairs.filter p)).get? k := by
  induction pairs generalizing d e with
  | nil => exact hd
  | cons pair rest ih =>
    have hrest : ∀ pair ∈ rest, pair.1 = k → p pair = true := fun pair hpair => h pair (List.mem_cons_of_mem _ hpair)
    by_cases hp : p pair = true
    · rw [List.filter_cons_of_pos hp]
      refine ih hrest (d.set pair.1 pair.2) (e := e.set pair.1 pair.2) ?_
      by_cases hk : pair.1 = k
      · subst hk
        rw [get?_set_self, get?_set_self]
      · rw [get?_set_of_ne _ _ hk, get?_set_of_ne _ _ hk, hd]
    · rw [List.filter_cons_of_neg hp]
      refine ih hrest (d.set pair.1 pair.2) ?_
      rw [get?_set_of_ne _ _ fun hk => hp (h pair List.mem_cons_self hk), hd]

/-- What a dictionary of pairs has under a key is of one of the pairs. -/
theorem mem_of_get?_ofList {k : κ} {v : υ} {pairs : List (κ × υ)} (h : (ofList pairs).get? k = some v) : (k, v) ∈ pairs := by
  by_cases hk : k ∈ pairs.map Prod.fst
  · obtain ⟨w, hw, hget⟩ := get?_update_of_mem hk empty
    obtain rfl := Option.some.inj (hget.symm.trans h)
    exact hw
  · have hnone : (ofList pairs).get? k = none := get?_update_of_not_mem hk empty
    rw [hnone] at h
    nomatch h

/-- A dictionary of pairs has a value under each of their keys. -/
theorem exists_get?_ofList {k : κ} {pairs : List (κ × υ)} (h : k ∈ pairs.map Prod.fst) : ∃ v, (ofList pairs).get? k = some v := by
  obtain ⟨v, -, hget⟩ := get?_update_of_mem h empty
  exact ⟨v, hget⟩

/-- A dictionary made from keys has under each of them what is made from it. -/
theorem get?_ofList_keys {keys : List κ} {k : κ} (h : k ∈ keys) (f : κ → υ) : (ofList (keys.map fun k => (k, f k))).get? k = some (f k) := by
  have hmem : k ∈ (keys.map fun k => (k, f k)).map Prod.fst := by
    rw [List.map_map]
    exact List.mem_map.mpr ⟨k, h, rfl⟩
  obtain ⟨v, hget⟩ := exists_get?_ofList hmem
  obtain ⟨k', -, heq⟩ := List.mem_map.mp (mem_of_get?_ofList hget)
  obtain ⟨rfl, rfl⟩ := Prod.mk.inj heq
  exact hget

/-- Of the pairs of a key one is the last. -/
theorem exists_last {k : κ} {pairs : List (κ × υ)} (h : k ∈ pairs.map Prod.fst) :
    ∃ before v after, pairs = before ++ (k, v) :: after ∧ k ∉ after.map Prod.fst := by
  induction pairs with
  | nil => nomatch h
  | cons pair rest ih =>
    by_cases hrest : k ∈ rest.map Prod.fst
    · obtain ⟨before, v, after, rfl, hafter⟩ := ih hrest
      exact ⟨pair :: before, v, after, rfl, hafter⟩
    · have hk : k = pair.1 := (List.mem_cons.mp h).resolve_right hrest
      exact ⟨[], pair.2, rest, by rw [hk, List.nil_append], hrest⟩

/-- What a dictionary of pairs has under a key is of the last pair of the key. -/
theorem get?_ofList_eq_some_iff {k : κ} {v : υ} {pairs : List (κ × υ)} :
    (ofList pairs).get? k = some v ↔ ∃ before after, pairs = before ++ (k, v) :: after ∧ k ∉ after.map Prod.fst := by
  have hlast {w : υ} {before after : List (κ × υ)} (hafter : k ∉ after.map Prod.fst) :
      (ofList (before ++ (k, w) :: after)).get? k = some w := by
    unfold ofList
    rw [List.foldl_append, List.foldl_cons]
    exact (get?_update_of_not_mem hafter _).trans (get?_set_self _ k w)
  constructor
  · intro h
    obtain ⟨before, w, after, rfl, hafter⟩ := exists_last (List.mem_map_of_mem (f := Prod.fst) (mem_of_get?_ofList h))
    obtain rfl := Option.some.inj ((hlast hafter).symm.trans h)
    exact ⟨before, after, rfl, hafter⟩
  · rintro ⟨before, after, rfl, hafter⟩
    exact hlast hafter

/-- What an update gives a key of its pairs does not depend on what was updated. -/
theorem get?_update_eq_ofList {k : κ} {pairs : List (κ × υ)} (h : k ∈ pairs.map Prod.fst) (d : Dict κ υ) :
    (d.update pairs).get? k = (ofList pairs).get? k := by
  obtain ⟨before, v, after, rfl, hafter⟩ := exists_last h
  rw [get?_ofList_eq_some_iff.mpr ⟨before, after, rfl, hafter⟩, update, List.foldl_append, List.foldl_cons]
  exact (get?_update_of_not_mem hafter _).trans (get?_set_self _ k v)

/-- A function of the values commutes with the building of a dictionary. -/
theorem get?_ofList_map {ω : Type v} (f : υ → ω) (pairs : List (κ × υ)) (k : κ) :
    (ofList (pairs.map fun pair => (pair.1, f pair.2))).get? k = ((ofList pairs).get? k).map f := by
  cases hget : (ofList pairs).get? k with
  | none =>
    have hk : k ∉ pairs.map Prod.fst := fun hk => by
      obtain ⟨v, hv⟩ := exists_get?_ofList hk
      rw [hv] at hget
      nomatch hget
    refine get?_update_of_not_mem (fun hk' => hk ?_) empty
    rw [List.map_map] at hk'
    exact hk'
  | some v =>
    obtain ⟨before, after, rfl, hafter⟩ := get?_ofList_eq_some_iff.mp hget
    rw [List.map_append, List.map_cons]
    refine get?_ofList_eq_some_iff.mpr ⟨_, _, rfl, fun hk => hafter ?_⟩
    rw [List.map_map] at hk
    exact hk

/-- The keys of a dictionary of pairs are theirs. -/
theorem mem_keys_ofList {k : κ} {pairs : List (κ × υ)} : k ∈ (ofList pairs).keys ↔ k ∈ pairs.map Prod.fst := by
  refine (getEntries_isSome k (ofList pairs).entries).symm.trans (Option.isSome_iff_exists.trans ?_)
  exact ⟨fun ⟨_, hv⟩ => List.mem_map_of_mem (f := Prod.fst) (mem_of_get?_ofList hv), exists_get?_ofList⟩

/-- A dictionary of pairs of different keys has each of them. -/
theorem get?_ofList_of_mem {k : κ} {v : υ} {pairs : List (κ × υ)} (hkeys : (pairs.map Prod.fst).Nodup) (h : (k, v) ∈ pairs) :
    (ofList pairs).get? k = some v := by
  obtain ⟨w, hget⟩ := exists_get?_ofList (List.mem_map_of_mem (f := Prod.fst) h)
  have hsame := List.inj_on_of_nodup_map hkeys h (mem_of_get?_ofList hget) rfl
  rw [(Prod.mk.inj hsame).2]
  exact hget

/-- A dictionary of pairs of different keys has their entries, in their order. -/
theorem entries_ofList {pairs : List (κ × υ)} (hkeys : (pairs.map Prod.fst).Nodup) : (ofList pairs).entries = pairs := by
  have hupdate : ∀ (pairs : List (κ × υ)) (d : Dict κ υ), (pairs.map Prod.fst).Nodup → (∀ k ∈ pairs.map Prod.fst, k ∉ d.keys) →
      (d.update pairs).entries = d.entries ++ pairs := by
    intro pairs
    induction pairs with
    | nil => exact fun d _ _ => (List.append_nil _).symm
    | cons pair rest ih =>
      intro d hnodup hfresh
      rw [List.map_cons, List.nodup_cons] at hnodup
      have hset := entries_set_of_not_mem d pair.2 (hfresh pair.1 List.mem_cons_self)
      refine (ih (d.set pair.1 pair.2) hnodup.2 fun k hk hmem => ?_).trans (by rw [hset, List.append_assoc, List.cons_append, List.nil_append])
      rcases mem_set.mp hmem with hmem | rfl
      · exact hfresh k (List.mem_cons_of_mem _ hk) hmem
      · exact hnodup.1 hk
  exact hupdate pairs empty hkeys fun _ _ h => nomatch h

/-- A dictionary of values under different keys has under each the value of the key. -/
theorem get?_ofList_eq_find? {f : υ → κ} {values : List υ} (hkeys : (values.map f).Nodup) (k : κ) :
    (ofList (values.map fun a => (f a, a))).get? k = values.find? fun a => f a = k := by
  have hfst : (values.map fun a => (f a, a)).map Prod.fst = values.map f := by rw [List.map_map]; rfl
  cases hfind : values.find? fun a => f a = k with
  | some a =>
    have hkey : f a = k := by simpa using List.find?_some hfind
    exact get?_ofList_of_mem (hfst ▸ hkeys) (List.mem_map.mpr ⟨a, List.mem_of_find?_eq_some hfind, by rw [hkey]⟩)
  | none =>
    refine get?_update_of_not_mem (fun hk => ?_) empty
    rw [hfst] at hk
    obtain ⟨a, ha, rfl⟩ := List.mem_map.mp hk
    exact List.find?_eq_none.mp hfind a ha (decide_eq_true rfl)

theorem get?_isSome_iff {d : Dict κ υ} {k : κ} : (d.get? k).isSome = true ↔ k ∈ d.keys :=
  getEntries_isSome k d.entries

theorem get?_eq_none_iff {d : Dict κ υ} {k : κ} : d.get? k = none ↔ k ∉ d.keys := by
  rw [← get?_isSome_iff]
  cases d.get? k <;> simp

/-- A value is found under a key exactly when the dictionary has that entry. -/
theorem get?_eq_some_iff {d : Dict κ υ} {k : κ} {v : υ} : d.get? k = some v ↔ (k, v) ∈ d.entries :=
  ⟨mem_of_getEntries, getEntries_of_mem d.nodup⟩

/-- The values are what is found under some key. -/
theorem mem_values_iff {d : Dict κ υ} {v : υ} : v ∈ d.values ↔ ∃ k, d.get? k = some v := by
  constructor
  · intro h
    obtain ⟨⟨k, v'⟩, hmem, rfl⟩ := List.mem_map.mp h
    exact ⟨k, get?_eq_some_iff.mpr hmem⟩
  · rintro ⟨k, hget⟩
    exact List.mem_map.mpr ⟨(k, v), get?_eq_some_iff.mp hget, rfl⟩

/-- What holds of every value holds after a write of one that has it. -/
theorem forall_values_set {P : υ → Prop} {d : Dict κ υ} {k : κ} {v : υ} (h : ∀ w ∈ d.values, P w) (hv : P v) :
    ∀ w ∈ (d.set k v).values, P w := by
  intro w hw
  obtain ⟨k', hget⟩ := mem_values_iff.mp hw
  by_cases hk : k = k'
  · rw [← hk, get?_set_self, Option.some.injEq] at hget
    rw [← hget]
    exact hv
  · rw [get?_set_of_ne _ _ hk] at hget
    exact h w (mem_values_iff.mpr ⟨k', hget⟩)

omit [DecidableEq κ] in
theorem map_fst_of_mapM {ω : Type v} {f : υ → Option ω} {es : List (κ × υ)} {es' : List (κ × ω)}
    (h : (es.mapM fun e => (f e.2).map (Prod.mk e.1)) = some es') : es'.map Prod.fst = es.map Prod.fst := by
  induction es generalizing es' with
  | nil =>
    rw [List.mapM_nil] at h
    cases h
    rfl
  | cons e rest ih =>
    rw [List.mapM_cons] at h
    obtain ⟨e', he', h⟩ := Option.bind_eq_some_iff.mp h
    obtain ⟨rest', hrest, h⟩ := Option.bind_eq_some_iff.mp h
    obtain ⟨w, -, rfl⟩ := Option.map_eq_some_iff.mp he'
    cases h
    rw [List.map_cons, List.map_cons, ih hrest]

/-- `{k: f(v) for k, v in d.items()}`: none where `f` raises on a value. -/
def mapValues? {ω : Type v} (f : υ → Option ω) (d : Dict κ υ) : Option (Dict κ ω) :=
  match h : d.entries.mapM fun e => (f e.2).map (Prod.mk e.1) with
  | none => none
  | some es => some ⟨es, by rw [map_fst_of_mapM h]; exact d.nodup⟩

theorem getEntries_of_mapM {ω : Type v} {f : υ → Option ω} {es : List (κ × υ)} {es' : List (κ × ω)}
    (h : (es.mapM fun e => (f e.2).map (Prod.mk e.1)) = some es') (k : κ) : getEntries k es' = (getEntries k es).bind f := by
  induction es generalizing es' with
  | nil =>
    rw [List.mapM_nil] at h
    cases h
    rfl
  | cons e rest ih =>
    rw [List.mapM_cons] at h
    obtain ⟨e', he', h⟩ := Option.bind_eq_some_iff.mp h
    obtain ⟨rest', hrest, h⟩ := Option.bind_eq_some_iff.mp h
    obtain ⟨w, hw, rfl⟩ := Option.map_eq_some_iff.mp he'
    cases h
    by_cases hk : e.1 = k
    · simp [getEntries, hk, hw]
    · simp [getEntries, hk, ih hrest]

/-- What a comprehension holds under a key is what it makes of the value there. -/
theorem get?_mapValues? {ω : Type v} {f : υ → Option ω} {d : Dict κ υ} {d' : Dict κ ω} (h : d.mapValues? f = some d') (k : κ) :
    d'.get? k = (d.get? k).bind f := by
  unfold mapValues? at h
  split at h
  · nomatch h
  · rename_i es hes
    cases h
    exact getEntries_of_mapM hes k

/-- A comprehension has a value wherever the dictionary has one. -/
theorem exists_get?_of_mapValues? {ω : Type v} {f : υ → Option ω} {d : Dict κ υ} {d' : Dict κ ω} (h : d.mapValues? f = some d')
    {k : κ} {v : υ} (hv : d.get? k = some v) : ∃ w, f v = some w ∧ d'.get? k = some w := by
  have hget := get?_mapValues? h k
  rw [hv, Option.bind_some] at hget
  have hkeys : d'.keys = d.keys := by
    unfold mapValues? at h
    split at h
    · nomatch h
    · rename_i es hes
      cases h
      exact map_fst_of_mapM hes
  have hmem : k ∈ d'.keys := by
    rw [hkeys, ← get?_isSome_iff, hv]
    rfl
  obtain ⟨w, hw⟩ := Option.isSome_iff_exists.mp (get?_isSome_iff.mpr hmem)
  exact ⟨w, hget.symm.trans hw, hw⟩

omit [DecidableEq κ] in
/-- A comprehension whose values are made the same way is the same. -/
theorem mapValues?_mono {ω : Type v} {f g : υ → Option ω} (hfg : ∀ v w, f v = some w → g v = some w) {d : Dict κ υ} {d' : Dict κ ω}
    (h : d.mapValues? f = some d') : d.mapValues? g = some d' := by
  have hmapM : ∀ (es : List (κ × υ)) (es' : List (κ × ω)), (es.mapM fun e => (f e.2).map (Prod.mk e.1)) = some es' →
      (es.mapM fun e => (g e.2).map (Prod.mk e.1)) = some es' := by
    intro es
    induction es with
    | nil => exact fun es' h => h
    | cons e rest ih =>
      intro es' h
      rw [List.mapM_cons] at h ⊢
      obtain ⟨e', he', h⟩ := Option.bind_eq_some_iff.mp h
      obtain ⟨rest', hrest, h⟩ := Option.bind_eq_some_iff.mp h
      obtain ⟨w, hw, rfl⟩ := Option.map_eq_some_iff.mp he'
      refine Option.bind_eq_some_iff.mpr ⟨(e.1, w), ?_, Option.bind_eq_some_iff.mpr ⟨rest', ih rest' hrest, h⟩⟩
      rw [hfg e.2 w hw]
      rfl
  unfold mapValues? at h ⊢
  split at h
  · nomatch h
  · rename_i es hes
    have hes' := hmapM _ _ hes
    split
    · rename_i hnone
      rw [hes'] at hnone
      nomatch hnone
    · rename_i es'' hes''
      rw [hes'] at hes''
      cases hes''
      exact h

/-- Setting a key again keeps the values in what the new value has in common with the old one. -/
theorem map_values_set_of_get? {γ : Type*} (f : υ → γ) {d : Dict κ υ} {k : κ} {v w : υ} (hget : d.get? k = some w) (h : f v = f w) :
    (d.set k v).values.map f = d.values.map f := by
  obtain ⟨es, hn⟩ := d
  simp only [get?, set, values] at hget ⊢
  clear hn
  induction es with
  | nil => nomatch hget
  | cons e rest ih =>
    by_cases he : e.1 = k
    · simp only [getEntries, he, if_true, Option.some.injEq] at hget
      simp only [setEntries, he, if_true, List.map_cons, h, hget]
    · simp only [getEntries, he, if_false] at hget
      simp only [setEntries, he, if_false, List.map_cons, ih hget]

theorem sum_values_set (d : Dict κ Nat) (k : κ) (v : Nat) :
    (d.set k v).values.sum + (d.get? k).getD 0 = d.values.sum + v :=
  sum_map_snd_setEntries k v d.entries

/-! ## Related entries -/

section Related

variable {α β : Type*}

omit [DecidableEq κ] in
theorem map_fst_of_forall₂ {P : κ × α → κ × β → Prop} (hkey : ∀ e r, P e r → e.1 = r.1) {es : List (κ × α)} {rs : List (κ × β)}
    (h : List.Forall₂ P es rs) : es.map Prod.fst = rs.map Prod.fst := by
  induction h with
  | nil => rfl
  | cons hp _ ih => rw [List.map_cons, List.map_cons, hkey _ _ hp, ih]

/-- Related entries are found together. -/
theorem getEntries_of_forall₂ {P : κ × α → κ × β → Prop} (hkey : ∀ e r, P e r → e.1 = r.1) {es : List (κ × α)} {rs : List (κ × β)}
    (h : List.Forall₂ P es rs) (k : κ) :
    (getEntries k es = none ∧ getEntries k rs = none) ∨ ∃ a b, getEntries k es = some a ∧ getEntries k rs = some b ∧ P (k, a) (k, b) := by
  induction h with
  | nil => exact .inl ⟨rfl, rfl⟩
  | @cons e r es rs hp _ ih =>
    have heq := hkey e r hp
    by_cases he : e.1 = k
    · have hr : r.1 = k := heq ▸ he
      refine .inr ⟨e.2, r.2, if_pos he, if_pos hr, ?_⟩
      have hpair : P (e.1, e.2) (r.1, r.2) := hp
      rwa [he, hr] at hpair
    · have hr : ¬ r.1 = k := heq ▸ he
      simp only [getEntries, he, hr, if_false]
      exact ih

/-- Entries stay related when a key is set on both sides. -/
theorem forall₂_setEntries {P Q : κ × α → κ × β → Prop} (hkey : ∀ e r, P e r → e.1 = r.1) {k : κ} {a : α} {b : β}
    (hother : ∀ e r, P e r → e.1 ≠ k → Q e r) (hset : Q (k, a) (k, b)) {es : List (κ × α)} {rs : List (κ × β)}
    (hn : (es.map Prod.fst).Nodup) (h : List.Forall₂ P es rs) : List.Forall₂ Q (setEntries k a es) (setEntries k b rs) := by
  induction h with
  | nil => exact .cons hset .nil
  | @cons e r es rs hp hrest ih =>
    have heq := hkey e r hp
    rw [List.map_cons, List.nodup_cons] at hn
    by_cases he : e.1 = k
    · have hr : r.1 = k := heq ▸ he
      simp only [setEntries, he, hr, if_true]
      -- the key stands nowhere else
      refine .cons hset ?_
      have hnot : ∀ e' ∈ es, e'.1 ≠ k := fun e' he' hk => hn.1 (by rw [he, ← hk]; exact List.mem_map_of_mem he')
      clear ih
      induction hrest with
      | nil => exact .nil
      | @cons e' r' es rs hp' _ ih =>
        refine .cons (hother e' r' hp' (hnot e' List.mem_cons_self)) (ih ?_ fun x hx => hnot x (List.mem_cons_of_mem e' hx))
        rw [List.map_cons, List.nodup_cons, List.mem_cons, not_or] at hn
        exact ⟨hn.1.2, hn.2.2⟩
    · have hr : ¬ r.1 = k := heq ▸ he
      simp only [setEntries, he, hr, if_false]
      exact .cons (hother e r hp he) (ih hn.2)

/-- Setting a key to what it has changes nothing. -/
theorem setEntries_of_getEntries {k : κ} {v : α} {es : List (κ × α)} (h : getEntries k es = some v) : setEntries k v es = es := by
  induction es with
  | nil => nomatch h
  | cons e rest ih =>
    by_cases he : e.1 = k
    · simp only [getEntries, he, if_true, Option.some.injEq] at h
      simp only [setEntries, he, if_true, ← h]
      rw [← he]
    · simp only [getEntries, he, if_false] at h
      simp only [setEntries, he, if_false, ih h]

/-- Setting a key again keeps the values of some keys in what the new value has in common with the old one. -/
theorem map_filter_setEntries {γ : Type*} (f : α → γ) (p : κ → Bool) {k : κ} {v w : α} {es : List (κ × α)} (hget : getEntries k es = some w)
    (h : f v = f w) : (((setEntries k v es).filter fun e => p e.1).map Prod.snd).map f = ((es.filter fun e => p e.1).map Prod.snd).map f := by
  induction es with
  | nil => nomatch hget
  | cons e rest ih =>
    by_cases he : e.1 = k
    · simp only [getEntries, he, if_true, Option.some.injEq] at hget
      simp only [setEntries, he, if_true, List.filter_cons]
      cases p k with
      | true => simp only [if_true, List.map_cons, h, hget]
      | false => simp only [Bool.false_eq_true, if_false]
    · simp only [getEntries, he, if_false] at hget
      simp only [setEntries, he, if_false, List.filter_cons]
      cases p e.1 with
      | true => simp only [if_true, List.map_cons, ih hget]
      | false => simp only [Bool.false_eq_true, if_false, ih hget]

end Related

end Dict

end Py
