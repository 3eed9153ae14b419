import Mathlib.Data.List.Induction
import Mathlib.Data.String.Basic
import Nl2Sql.Lib.Method

/-!
# Loops that read a stream

A loop over a list that may be left early ends at the end of the list or at the first element that its body refuses, and what the body
preserves holds of what was read until then. The texts of a list of items, one after another between separators, have a size that is
counted item by item.
-/

namespace Py

variable {ε σ α : Type}

/-- What one round preserves holds where a loop ends: of the whole list, or of what stands before the element that was refused. -/
theorem foldlM_cases {step : σ → α → Except ε σ} {Inv : List α → σ → Prop} {s : σ} (hinit : Inv [] s)
    (hstep : ∀ done x s s', Inv done s → step s x = .ok s' → Inv (done ++ [x]) s') (xs : List α) :
    (∃ s', xs.foldlM step s = .ok s' ∧ Inv xs s') ∨
      ∃ done x rest s' e, xs = done ++ x :: rest ∧ Inv done s' ∧ step s' x = .error e ∧ xs.foldlM step s = .error e := by
  suffices h : ∀ (xs read : List α) (s : σ), Inv read s →
      (∃ s', xs.foldlM step s = .ok s' ∧ Inv (read ++ xs) s') ∨
        ∃ done x rest s' e, xs = done ++ x :: rest ∧ Inv (read ++ done) s' ∧ step s' x = .error e ∧ xs.foldlM step s = .error e by
    exact h xs [] s hinit
  intro xs
  induction xs with
  | nil =>
    intro read s hs
    exact .inl ⟨s, rfl, by rwa [List.append_nil]⟩
  | cons x xs ih =>
    intro read s hs
    rw [List.foldlM_cons]
    cases hx : step s x with
    | error e => exact .inr ⟨[], x, xs, s, e, rfl, by rwa [List.append_nil], hx, rfl⟩
    | ok next =>
      have hnext : Inv (read ++ [x]) next := hstep read x s next hs hx
      rcases ih (read ++ [x]) next hnext with ⟨s', hrun, hinv⟩ | ⟨done, y, rest, s', e, rfl, hinv, hy, hrun⟩
      · exact .inl ⟨s', hrun, by rwa [List.append_assoc] at hinv⟩
      · exact .inr ⟨x :: done, y, rest, s', e, rfl, by rwa [List.append_assoc] at hinv, hy, hrun⟩

/-! ## Texts between separators -/

/-- One more text adds its size, and that of a separator where it is not the first. -/
theorem utf8ByteSize_intercalate_concat (separator text : String) (texts : List String) :
    (separator.intercalate (texts ++ [text])).utf8ByteSize =
      (separator.intercalate texts).utf8ByteSize + text.utf8ByteSize + if texts = [] then 0 else separator.utf8ByteSize := by
  by_cases h : texts = []
  · subst h
    simp
  · rw [String.intercalate_append_of_ne_nil h (List.cons_ne_nil text []), String.intercalate_singleton, String.utf8ByteSize_append,
      String.utf8ByteSize_append, if_neg h]
    omega

/-- The texts of the first items are no longer than those of all. -/
theorem utf8ByteSize_intercalate_prefix (separator : String) {texts texts' : List String} (h : texts <+: texts') :
    (separator.intercalate texts).utf8ByteSize ≤ (separator.intercalate texts').utf8ByteSize := by
  obtain ⟨rest, rfl⟩ := h
  induction rest using List.reverseRecOn with
  | nil => rw [List.append_nil]
  | append_singleton rest text ih =>
    rw [← List.append_assoc, utf8ByteSize_intercalate_concat]
    omega

end Py
