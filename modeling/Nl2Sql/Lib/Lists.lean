import Mathlib.Data.Finset.Card
import Nl2Sql.Lib.Str

/-!
# Lists by what came before

What holds of each element of a list and of those before it, first elements, lists whose elements correspond, and lists without repetition.
-/

namespace Py

universe u v

variable {α : Type u} {β : Type v}

/-- Something holds of each element after those before it. -/
def EachAfter (P : List α → α → Prop) (values : List α) : Prop := ∀ before a after, values = before ++ a :: after → P before a

theorem eachAfter_nil (P : List α → α → Prop) : EachAfter P [] := fun _ _ _ heq =>
  absurd heq.symm (List.append_ne_nil_of_right_ne_nil _ (List.cons_ne_nil _ _))

/-- One element before the others. -/
theorem eachAfter_cons {P : List α → α → Prop} {values : List α} {a : α} :
    EachAfter P (a :: values) ↔ P [] a ∧ EachAfter (fun before => P (a :: before)) values := by
  constructor
  · exact fun h => ⟨h [] a values rfl, fun before b after heq => h (a :: before) b after (by rw [heq, List.cons_append])⟩
  · rintro ⟨ha, h⟩ before b after heq
    cases before with
    | nil =>
      obtain ⟨rfl, -⟩ := List.cons.inj heq
      exact ha
    | cons first before =>
      obtain ⟨rfl, hvalues⟩ := List.cons.inj heq
      exact h before b after hvalues

/-- One element more. -/
theorem eachAfter_snoc {P : List α → α → Prop} {values : List α} {a : α} : EachAfter P (values ++ [a]) ↔ EachAfter P values ∧ P values a := by
  constructor
  · intro h
    refine ⟨fun before b after heq => h before b (after ++ [a]) ?_, h values a [] rfl⟩
    rw [heq, List.append_assoc, List.cons_append]
  · rintro ⟨h, ha⟩ before b after heq
    rcases List.append_eq_append_iff.mp heq with ⟨middle, hbefore, hsingle⟩ | ⟨middle, hvalues, hcons⟩
    · cases middle with
      | nil =>
        obtain ⟨rfl, -⟩ := List.cons.inj hsingle
        rw [hbefore, List.append_nil]
        exact ha
      | cons first middle => exact absurd (congrArg List.length (List.cons.inj hsingle).2) (by simp)
    · cases middle with
      | nil =>
        obtain ⟨rfl, -⟩ := List.cons.inj hcons
        rw [List.append_nil] at hvalues
        exact hvalues ▸ ha
      | cons first middle =>
        obtain ⟨rfl, -⟩ := List.cons.inj hcons
        exact h before b middle hvalues

/-- No key comes twice exactly where none is among the keys before it. -/
theorem eachAfter_fresh_iff {κ : Type*} {f : α → κ} {values : List α} :
    EachAfter (fun before a => f a ∉ before.map f) values ↔ (values.map f).Nodup := by
  induction values using List.reverseRecOn with
  | nil => exact iff_of_true (eachAfter_nil _) List.nodup_nil
  | append_singleton values a ih =>
    rw [eachAfter_snoc, ih, List.map_append, List.map_singleton, List.nodup_append]
    constructor
    · rintro ⟨hnodup, hfresh⟩
      refine ⟨hnodup, List.nodup_singleton _, fun k hk k' hk' heq => ?_⟩
      rw [List.mem_singleton.mp hk'] at heq
      exact hfresh (heq ▸ hk)
    · rintro ⟨hnodup, -, hdisjoint⟩
      exact ⟨hnodup, fun hk => hdisjoint _ hk _ (List.mem_singleton_self _) rfl⟩

/-- Of some elements of a list one comes first. -/
theorem exists_first {P : α → Prop} {values : List α} (h : ∃ a ∈ values, P a) :
    ∃ before a after, values = before ++ a :: after ∧ P a ∧ ∀ b ∈ before, ¬P b := by
  induction values with
  | nil => exact absurd h.choose_spec.1 List.not_mem_nil
  | cons first rest ih =>
    by_cases hfirst : P first
    · exact ⟨[], first, rest, rfl, hfirst, fun b hb => absurd hb List.not_mem_nil⟩
    · obtain ⟨a, ha, hpa⟩ := h
      have hrest : a ∈ rest := (List.mem_cons.mp ha).resolve_left fun heq => hfirst (heq ▸ hpa)
      obtain ⟨before, b, after, rfl, hpb, hbefore⟩ := ih ⟨a, hrest, hpa⟩
      exact ⟨first :: before, b, after, rfl, hpb, List.forall_mem_cons.mpr ⟨hfirst, hbefore⟩⟩

/-- Of two places in a list one comes before the other, or they are one. -/
theorem place_cases {before after before' after' : List α} {a b : α} (h : before ++ a :: after = before' ++ b :: after') :
    b ∈ before ∨ a ∈ before' ∨ (before = before' ∧ a = b) := by
  rcases List.append_eq_append_iff.mp h with ⟨middle, hbefore, hcons⟩ | ⟨middle, hbefore, hcons⟩
  · cases middle with
    | nil => exact .inr (.inr ⟨by rw [hbefore, List.append_nil], (List.cons.inj hcons).1⟩)
    | cons first middle =>
      refine .inr (.inl ?_)
      rw [hbefore, (List.cons.inj hcons).1]
      exact List.mem_append_right _ List.mem_cons_self
  · cases middle with
    | nil => exact .inr (.inr ⟨by rw [hbefore, List.append_nil], (List.cons.inj hcons).1.symm⟩)
    | cons first middle =>
      refine .inl ?_
      rw [hbefore, (List.cons.inj hcons).1]
      exact List.mem_append_right _ List.mem_cons_self

/-- An element may be taken to the front. -/
theorem exists_perm_cons {values : List α} {a : α} (h : a ∈ values) : ∃ rest, values.Perm (a :: rest) := by
  obtain ⟨before, after, rfl⟩ := List.append_of_mem h
  exact ⟨before ++ after, List.perm_middle⟩

section Forall₂

variable {R : α → β → Prop}

/-- Values that correspond are counted alike. -/
theorem countP_forall₂ {p : α → Bool} {q : β → Bool} (hpq : ∀ a b, R a b → p a = q b) {as : List α} {bs : List β}
    (h : List.Forall₂ R as bs) : as.countP p = bs.countP q := by
  induction h with
  | nil => rfl
  | cons hab _ ih => rw [List.countP_cons, List.countP_cons, hpq _ _ hab, ih]

/-- What corresponds to something is there. -/
theorem exists_of_forall₂ {as : List α} {bs : List β} (h : List.Forall₂ R as bs) {b : β} (hb : b ∈ bs) : ∃ a ∈ as, R a b := by
  induction h with
  | nil => exact absurd hb List.not_mem_nil
  | cons hab _ ih =>
    rcases List.mem_cons.mp hb with rfl | hb
    · exact ⟨_, List.mem_cons_self, hab⟩
    · obtain ⟨a, ha, hr⟩ := ih hb
      exact ⟨a, List.mem_cons_of_mem _ ha, hr⟩

end Forall₂

/-- Removing repetitions keeps the length exactly where there are none. -/
theorem length_fromKeys_eq_iff {α : Type*} [DecidableEq α] {values : List α} : (fromKeys values).length = values.length ↔ values.Nodup := by
  constructor
  · intro h
    have hsub : (fromKeys values).Subperm values := List.subperm_of_subset (fromKeys_nodup values) fun a ha => (mem_fromKeys values a).mp ha
    exact (hsub.perm_of_length_le h.ge).nodup_iff.mp (fromKeys_nodup values)
  · exact fun h => by rw [fromKeys_of_nodup h]

/-- As many values are left as there are different ones. -/
theorem length_fromKeys {α : Type*} [DecidableEq α] (values : List α) : (fromKeys values).length = values.toFinset.card := by
  rw [← List.toFinset_card_of_nodup (fromKeys_nodup values)]
  congr 1
  ext a
  simp

/-- Values in an order are the same backwards only where there is at most one. -/
theorem eq_reverse_iff {r : α → α → Prop} {values : List α} (h : values.Pairwise r) (hasymm : ∀ {a b}, r a b → ¬ r b a) :
    values = values.reverse ↔ values.length ≤ 1 := by
  constructor
  · intro heq
    have hback : values.Pairwise fun a b => r b a := List.pairwise_reverse.mp (heq ▸ h)
    cases values with
    | nil => exact Nat.zero_le 1
    | cons a values =>
      cases values with
      | nil => exact Nat.le_refl 1
      | cons b values =>
        have hab := (List.pairwise_cons.mp h).1 b List.mem_cons_self
        exact absurd ((List.pairwise_cons.mp hback).1 b List.mem_cons_self) (hasymm hab)
  · intro hlength
    match values, hlength with
    | [], _ => rfl
    | [a], _ => rfl

end Py
