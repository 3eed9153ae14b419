import Mathlib.Data.List.Sort
import Mathlib.Data.List.Perm.Subperm

/-!
# Sorting by a key

`sorted(values, key=f)` is stable: of values with one key, the one that came first stays first. So where the keys differ the order the
values came in is forgotten, and where two agree it is kept, and with it which of them is found first.
-/

namespace Py

variable {α β κ : Type*} [LinearOrder κ]

/-- `sorted(values, key=f)`. -/
def sortBy (f : α → κ) (values : List α) : List α := values.insertionSort fun a b => f a ≤ f b

theorem sortBy_perm (f : α → κ) (values : List α) : (sortBy f values).Perm values := List.perm_insertionSort _ values

@[simp] theorem mem_sortBy {f : α → κ} {values : List α} {a : α} : a ∈ sortBy f values ↔ a ∈ values := List.mem_insertionSort _

/-- The keys stand in order. -/
theorem pairwise_sortBy (f : α → κ) (values : List α) : (sortBy f values).Pairwise fun a b => f a ≤ f b := by
  have : Std.Total fun a b : α => f a ≤ f b := ⟨fun a b => le_total (f a) (f b)⟩
  have : IsTrans α fun a b => f a ≤ f b := ⟨fun _ _ _ => le_trans⟩
  exact List.pairwise_insertionSort (fun a b => f a ≤ f b) values

/-- What is in order is not moved. -/
theorem sortBy_sortBy (f : α → κ) (values : List α) : sortBy f (sortBy f values) = sortBy f values :=
  (pairwise_sortBy f values).insertionSort_eq

/-- Where different values have different keys, lists are sorted into one exactly when one is a permutation of the other. -/
theorem sortBy_eq_iff {f : α → κ} {values values' : List α} (hinj : ∀ a ∈ values, ∀ b ∈ values, f a = f b → a = b) :
    sortBy f values = sortBy f values' ↔ values.Perm values' := by
  constructor
  · intro h
    exact (sortBy_perm f values).symm.trans (h ▸ sortBy_perm f values')
  · intro h
    have hperm : (sortBy f values).Perm (sortBy f values') := ((sortBy_perm f values).trans h).trans (sortBy_perm f values').symm
    refine hperm.eq_of_pairwise (fun a b ha hb hab hba => ?_) (pairwise_sortBy f values) (pairwise_sortBy f values')
    exact hinj a (mem_sortBy.mp ha) b (h.mem_iff.mpr (mem_sortBy.mp hb)) (le_antisymm hab hba)

/-- Where the keys differ, the order the values came in does not matter. -/
theorem sortBy_eq_of_perm {f : α → κ} {values values' : List α} (h : values.Perm values') (hkeys : (values.map f).Nodup) :
    sortBy f values = sortBy f values' :=
  (sortBy_eq_iff fun _ ha _ hb => List.inj_on_of_nodup_map hkeys ha hb).mpr h

/-- What stands in the opposite order is reversed. -/
theorem sortBy_eq_reverse {f : α → κ} {values : List α} (h : values.Pairwise fun a b => f b < f a) : sortBy f values = values.reverse := by
  have hsorted : values.reverse.Pairwise fun a b => f a < f b := List.pairwise_reverse.mpr h
  have hkeys : (values.map f).Nodup := List.pairwise_map.mpr (h.imp fun hlt heq => absurd heq hlt.ne')
  rw [sortBy_eq_of_perm values.reverse_perm.symm hkeys]
  have hself : values.reverse.Pairwise fun a b => f a ≤ f b := hsorted.imp fun hlt => hlt.le
  exact hself.insertionSort_eq

/-- What came first stays before everything with its key: what stands before it has a smaller one. -/
theorem sortBy_cons (f : α → κ) (a : α) (values : List α) :
    ∃ before after, sortBy f (a :: values) = before ++ a :: after ∧ ∀ b ∈ before, f b < f a := by
  have hinsert : ∀ sorted : List α, ∃ before after,
      sorted.orderedInsert (fun a b => f a ≤ f b) a = before ++ a :: after ∧ ∀ b ∈ before, f b < f a := by
    intro sorted
    induction sorted with
    | nil => exact ⟨[], [], rfl, fun b hb => absurd hb List.not_mem_nil⟩
    | cons c sorted ih =>
      rw [List.orderedInsert_cons]
      by_cases hle : f a ≤ f c
      · rw [if_pos hle]
        exact ⟨[], c :: sorted, rfl, fun b hb => absurd hb List.not_mem_nil⟩
      · rw [if_neg hle]
        obtain ⟨before, after, heq, hbefore⟩ := ih
        refine ⟨c :: before, after, by rw [heq, List.cons_append], ?_⟩
        intro b hb
        rcases List.mem_cons.mp hb with rfl | hb
        · exact not_le.mp hle
        · exact hbefore b hb
  exact hinsert _

/-- Values have a least key, where there are any. -/
theorem exists_least (f : α → κ) {values : List α} (h : values ≠ []) : ∃ a ∈ values, ∀ b ∈ values, f a ≤ f b := by
  have hsorted := pairwise_sortBy f values
  have hmem : ∀ b, b ∈ sortBy f values ↔ b ∈ values := fun b => mem_sortBy
  cases hlist : sortBy f values with
  | nil =>
    rw [hlist] at hmem
    exact absurd (List.eq_nil_iff_forall_not_mem.mpr fun b hb => absurd ((hmem b).mpr hb) List.not_mem_nil) h
  | cons a rest =>
    rw [hlist] at hsorted hmem
    refine ⟨a, (hmem a).mp List.mem_cons_self, fun b hb => ?_⟩
    rcases List.mem_cons.mp ((hmem b).mpr hb) with rfl | hb
    · exact le_rfl
    · exact (List.pairwise_cons.mp hsorted).1 b hb

/-- The head of the values in order is the only one with the least key, where there is only one. -/
theorem head?_sortBy {f : α → κ} {values : List α} {a : α} (ha : a ∈ values) (hleast : ∀ b ∈ values, f b ≤ f a → b = a) :
    (sortBy f values).head? = some a := by
  have hsorted := pairwise_sortBy f values
  have hmem : ∀ b, b ∈ sortBy f values ↔ b ∈ values := fun b => mem_sortBy
  cases hlist : sortBy f values with
  | nil =>
    have h := (hmem a).mpr ha
    rw [hlist] at h
    exact absurd h List.not_mem_nil
  | cons b rest =>
    rw [hlist] at hsorted hmem
    rw [List.head?_cons]
    rcases List.mem_cons.mp ((hmem a).mpr ha) with heq | hrest
    · rw [heq]
    · rw [hleast b ((hmem b).mp List.mem_cons_self) ((List.pairwise_cons.mp hsorted).1 a hrest)]

/-- What is found first in lists one after another is found first in one of them. -/
theorem findSome?_flatMap {γ : Type*} (values : List α) (p : α → List γ) (g : γ → Option β) :
    (values.flatMap p).findSome? g = values.findSome? fun a => (p a).findSome? g := by
  induction values with
  | nil => rfl
  | cons a values ih =>
    rw [List.flatMap_cons, List.findSome?_append, List.findSome?_cons, ih]
    cases (p a).findSome? g with
    | none => rfl
    | some r => rfl

/-- Where only one value may be found, it is. -/
theorem findSome?_eq_of_unique {values : List α} {g : α → Option β} {a : α} (ha : a ∈ values)
    (hunique : ∀ b ∈ values, g b ≠ none → b = a) : values.findSome? g = g a := by
  induction values with
  | nil => exact absurd ha List.not_mem_nil
  | cons b values ih =>
    rw [List.findSome?_cons]
    cases hg : g b with
    | some r =>
      have hsame := hunique b List.mem_cons_self (hg ▸ Option.some_ne_none r)
      rw [← hsame, hg]
    | none =>
      rcases List.mem_cons.mp ha with rfl | ha
      · rw [hg]
        refine List.findSome?_eq_none_iff.mpr fun c hc => ?_
        by_contra hfound
        exact hfound (hunique c (List.mem_cons_of_mem _ hc) hfound ▸ hg)
      · exact ih ha fun c hc => hunique c (List.mem_cons_of_mem _ hc)

/-- What is found first among values in order has the least key of those that may be found. -/
theorem findSome?_of_pairwise {f : α → κ} {values : List α} (hsorted : values.Pairwise fun a b => f a ≤ f b) {g : α → Option β} {r : β}
    (h : values.findSome? g = some r) : ∃ a ∈ values, g a = some r ∧ ∀ b ∈ values, g b ≠ none → f a ≤ f b := by
  induction values with
  | nil => nomatch h
  | cons a values ih =>
    obtain ⟨hfirst, hrest⟩ := List.pairwise_cons.mp hsorted
    rw [List.findSome?_cons] at h
    cases hg : g a with
    | some r' =>
      rw [hg] at h
      refine ⟨a, List.mem_cons_self, hg.trans h, fun b hb _ => ?_⟩
      rcases List.mem_cons.mp hb with rfl | hb
      · exact le_rfl
      · exact hfirst b hb
    | none =>
      rw [hg] at h
      obtain ⟨b, hb, hgb, hleast⟩ := ih hrest h
      refine ⟨b, List.mem_cons_of_mem _ hb, hgb, fun c hc hgc => ?_⟩
      rcases List.mem_cons.mp hc with rfl | hc
      · exact absurd hg hgc
      · exact hleast c hc hgc

/-- Two orders of the same values find the same, where values of one key, the least that may be found, agree. -/
theorem findSome?_sortBy_congr {f : α → κ} {values values' : List α} (h : values.Perm values') {g : α → Option β}
    (hagree : ∀ a ∈ values, ∀ b ∈ values, g a ≠ none → g b ≠ none → f a = f b → (∀ c ∈ values, g c ≠ none → f a ≤ f c) → g a = g b) :
    (sortBy f values).findSome? g = (sortBy f values').findSome? g := by
  have hnone {l l' : List α} (hl : l.Perm l') (hfind : l.findSome? g = none) : l'.findSome? g = none := by
    rw [List.findSome?_eq_none_iff] at hfind ⊢
    exact fun a ha => hfind a (hl.mem_iff.mpr ha)
  have hperm : (sortBy f values).Perm (sortBy f values') := ((sortBy_perm f values).trans h).trans (sortBy_perm f values').symm
  cases hfind : (sortBy f values).findSome? g with
  | none => exact (hnone hperm hfind).symm
  | some r =>
    cases hfind' : (sortBy f values').findSome? g with
    | none => rw [hnone hperm.symm hfind'] at hfind; nomatch hfind
    | some r' =>
      obtain ⟨a, ha, hga, hleast⟩ := findSome?_of_pairwise (pairwise_sortBy f values) hfind
      obtain ⟨b, hb, hgb, hleast'⟩ := findSome?_of_pairwise (pairwise_sortBy f values') hfind'
      have hga' : g a ≠ none := hga ▸ Option.some_ne_none r
      have hgb' : g b ≠ none := hgb ▸ Option.some_ne_none r'
      have hsame : f a = f b := le_antisymm (hleast b (hperm.mem_iff.mpr hb) hgb') (hleast' a (hperm.mem_iff.mp ha) hga')
      rw [← hga, ← hgb]
      exact hagree a (mem_sortBy.mp ha) b (h.mem_iff.mpr (mem_sortBy.mp hb)) hga' hgb' hsame
        fun c hc => hleast c (mem_sortBy.mpr hc)

/-- Values that are aligned stay so: two lists with the same keys in the same places are sorted alike. -/
theorem sortBy_map {γ : Type*} {f : α → κ} {p : γ → α} (values : List γ) : sortBy f (values.map p) = (sortBy (f ∘ p) values).map p := by
  unfold sortBy
  exact (List.map_insertionSort (fun a b => f (p a) ≤ f (p b)) (fun a b => f a ≤ f b) p values fun a _ b _ => Iff.rfl).symm

/-- Keys that agree on the values sort them alike. -/
theorem sortBy_congr {f g : α → κ} {values : List α} (h : ∀ a ∈ values, f a = g a) : sortBy f values = sortBy g values := by
  have hmap := List.map_insertionSort (fun a b => f a ≤ f b) (fun a b => g a ≤ g b) id values fun a ha b hb => by
    rw [id, id, h a ha, h b hb]
  rwa [List.map_id, List.map_id] at hmap

/-- Lists that are sorted into one list, with the same keys in the same places, are one list. -/
theorem eq_of_sortBy_eq {f : α → κ} {values values' : List α} (hkeys : values.map f = values'.map f)
    (h : sortBy f values = sortBy f values') : values = values' := by
  have hlength : values.length = values'.length := by
    have h := congrArg List.length hkeys
    rwa [List.length_map, List.length_map] at h
  obtain ⟨pairs, rfl, rfl⟩ : ∃ pairs : List (α × α), pairs.map Prod.fst = values ∧ pairs.map Prod.snd = values' :=
    ⟨values.zip values', List.map_fst_zip hlength.le, List.map_snd_zip hlength.ge⟩
  rw [List.map_map, List.map_map] at hkeys
  have hsort : sortBy (f ∘ Prod.fst) pairs = sortBy (f ∘ Prod.snd) pairs := sortBy_congr (List.map_inj_left.mp hkeys)
  rw [sortBy_map, sortBy_map, hsort] at h
  exact List.map_congr_left fun pair hpair => List.map_inj_left.mp h pair (mem_sortBy.mpr hpair)

end Py
