import Nl2Sql.Lib.Sorting

/-!
# Two stable passes

Sorting by one key and then by another orders by the second key first and keeps the order of the first one among its ties. So, where the
first key tells the values apart, a list that two passes leave as it is is one in the lexicographic order of the two keys.
-/

namespace Py

variable {α κ μ : Type*} [LinearOrder κ] [LinearOrder μ]

/-- A list is left as it is exactly where it is sorted. -/
theorem sortBy_eq_self_iff {f : α → κ} {values : List α} : sortBy f values = values ↔ values.Pairwise fun a b => f a ≤ f b := by
  constructor
  · intro h
    have hsorted := pairwise_sortBy f values
    rwa [h] at hsorted
  · exact fun h => h.insertionSort_eq

/-- Sorting looks at nothing of a comparison but what it says of the values. -/
theorem insertionSort_congr {r r' : α → α → Prop} [DecidableRel r] [DecidableRel r'] {values : List α}
    (h : ∀ a ∈ values, ∀ b ∈ values, r a b ↔ r' a b) : values.insertionSort r = values.insertionSort r' := by
  have hmap := List.map_insertionSort r r' id values h
  rwa [List.map_id, List.map_id] at hmap

/-- The order by one key, and among its ties by another. -/
def LexLe (g : α → μ) (f : α → κ) (a b : α) : Prop := g a < g b ∨ (g a = g b ∧ f a ≤ f b)

/-- A pass over values in the order of one key leaves them so among the ties of its own. -/
theorem pairwise_sortBy_lex {f : α → κ} {g : α → μ} {values : List α} (h : values.Pairwise fun a b => f a ≤ f b) :
    (sortBy g values).Pairwise (LexLe g f) := by
  induction values with
  | nil => exact List.Pairwise.nil
  | cons a values ih =>
    obtain ⟨hfirst, hrest⟩ := List.pairwise_cons.mp h
    have hinsert : ∀ sorted : List α, sorted.Pairwise (LexLe g f) → (∀ b ∈ sorted, f a ≤ f b) →
        (sorted.orderedInsert (fun a b => g a ≤ g b) a).Pairwise (LexLe g f) := by
      intro sorted
      induction sorted with
      | nil => exact fun _ _ => List.pairwise_singleton _ a
      | cons b sorted ihs =>
        intro hsorted hall
        obtain ⟨hb, htail⟩ := List.pairwise_cons.mp hsorted
        rw [List.orderedInsert_cons]
        by_cases hle : g a ≤ g b
        · rw [if_pos hle]
          refine List.pairwise_cons.mpr ⟨fun c hc => ?_, hsorted⟩
          have hac : g a ≤ g c := by
            rcases List.mem_cons.mp hc with rfl | hc
            · exact hle
            · exact hle.trans ((hb c hc).elim le_of_lt fun htie => htie.1.le)
          exact hac.lt_or_eq.imp id fun heq => ⟨heq, hall c hc⟩
        · rw [if_neg hle]
          refine List.pairwise_cons.mpr ⟨fun c hc => ?_, ihs htail fun c hc => hall c (List.mem_cons_of_mem b hc)⟩
          rcases List.mem_cons.mp ((List.perm_orderedInsert _ a sorted).mem_iff.mp hc) with rfl | hc
          · exact .inl (not_le.mp hle)
          · exact hb c hc
    exact hinsert _ (ih hrest) fun b hb => hfirst b (mem_sortBy.mp hb)

/-- Two passes leave a list as it is exactly where it is in the order of the second key and then of the first, if the first one tells its
values apart. -/
theorem sortBy_sortBy_eq_self_iff {f : α → κ} {g : α → μ} {values : List α} (hkeys : (values.map f).Nodup) :
    sortBy g (sortBy f values) = values ↔ values.Pairwise (LexLe g f) := by
  have hlex := pairwise_sortBy_lex (g := g) (pairwise_sortBy f values)
  constructor
  · intro h
    rwa [h] at hlex
  · intro h
    have hperm : (sortBy g (sortBy f values)).Perm values := (sortBy_perm g _).trans (sortBy_perm f values)
    refine hperm.eq_of_pairwise (fun a b ha hb hab hba => ?_) hlex h
    refine List.inj_on_of_nodup_map hkeys (hperm.mem_iff.mp ha) hb ?_
    rcases hab with hlt | ⟨heq, hle⟩
    · rcases hba with hgt | ⟨heq, -⟩
      · exact absurd hgt hlt.asymm
      · exact absurd heq hlt.ne'
    · rcases hba with hgt | ⟨-, hge⟩
      · exact absurd heq hgt.ne'
      · exact le_antisymm hle hge

end Py
