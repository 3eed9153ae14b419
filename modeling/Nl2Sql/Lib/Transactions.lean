import Mathlib.Logic.Function.Basic
import Mathlib.Logic.Relation

/-!
# Interleaved transactions

Transactions over one committed state. A step lets one transaction go on: it moves to its next local state, and may change the committed
one. What a transaction may do depends on the committed state and on the others, whose locks it waits for; everything else is left to the
order of the steps.
-/

namespace Py

universe u v

/-- The committed state and the local state of each transaction. -/
structure World (D : Type u) (T : Type v) where
  shared : D
  txns : Nat → T

namespace World

variable {D : Type u} {T : Type v}

/-- The world after transaction `i` went on. -/
def move (w : World D T) (i : Nat) (d : D) (t : T) : World D T := ⟨d, Function.update w.txns i t⟩

@[simp] theorem move_shared (w : World D T) (i : Nat) (d : D) (t : T) : (w.move i d t).shared = d := rfl

@[simp] theorem move_txns_self (w : World D T) (i : Nat) (d : D) (t : T) : (w.move i d t).txns i = t := by
  unfold move
  exact Function.update_self i t w.txns

/-- The others stay where they are. -/
theorem move_txns_of_ne (w : World D T) {i j : Nat} (d : D) (t : T) (h : j ≠ i) : (w.move i d t).txns j = w.txns j := by
  unfold move
  exact Function.update_of_ne h t w.txns

/-- What holds of the transaction that went on and of the others holds of all. -/
theorem forall_move {P : Nat → T → Prop} {w : World D T} {i : Nat} {d : D} {t : T} (hi : P i t) (h : ∀ j, j ≠ i → P j (w.txns j)) :
    ∀ j, P j ((w.move i d t).txns j) := by
  intro j
  by_cases hj : j = i
  · subst hj
    rw [move_txns_self]
    exact hi
  · rw [move_txns_of_ne w d t hj]
    exact h j hj

variable (advance : World D T → Nat → D → T → Prop)

/-- Some transaction goes on. -/
def Step (w w' : World D T) : Prop := ∃ i d t, advance w i d t ∧ w' = w.move i d t

/-- Steps one after another. -/
def Runs : World D T → World D T → Prop := Relation.ReflTransGen (Step advance)

variable {advance}

theorem Runs.refl (w : World D T) : Runs advance w w := Relation.ReflTransGen.refl

theorem Runs.next {w w' : World D T} {i : Nat} {d : D} {t : T} (h : Runs advance w w') (hstep : advance w' i d t) :
    Runs advance w (w'.move i d t) := Relation.ReflTransGen.tail h ⟨i, d, t, hstep, rfl⟩

/-- What every step keeps holds after a run. -/
theorem Runs.invariant {Inv : World D T → Prop} (hstep : ∀ w i d t, Inv w → advance w i d t → Inv (w.move i d t)) {w w' : World D T}
    (h : Runs advance w w') (hw : Inv w) : Inv w' := by
  induction h with
  | refl => exact hw
  | tail _ hnext ih =>
    obtain ⟨i, d, t, hadvance, rfl⟩ := hnext
    exact hstep _ i d t ih hadvance

/-- An order that every step of an invariant goes up in is gone up in by a run. -/
theorem Runs.ascends {Inv : World D T → Prop} (hstep : ∀ w i d t, Inv w → advance w i d t → Inv (w.move i d t))
    {R : World D T → World D T → Prop} (hrefl : ∀ w, R w w) (htrans : ∀ a b c, R a b → R b c → R a c)
    (hup : ∀ w i d t, Inv w → advance w i d t → R w (w.move i d t)) {w w' : World D T} (h : Runs advance w w') (hw : Inv w) : R w w' := by
  induction h with
  | refl => exact hrefl w
  | tail hrun hnext ih =>
    obtain ⟨i, d, t, hadvance, rfl⟩ := hnext
    exact htrans _ _ _ ih (hup _ i d t (Runs.invariant hstep hrun hw) hadvance)

/-! ## Locks -/

/-- No other transaction holds the lock. -/
def Free {K : Type*} (holds : T → K → Prop) (w : World D T) (i : Nat) (k : K) : Prop := ∀ j, j ≠ i → ¬holds (w.txns j) k

/-- At most one transaction holds a lock. -/
def Exclusive {K : Type*} (holds : T → K → Prop) (w : World D T) : Prop :=
  ∀ i j k, holds (w.txns i) k → holds (w.txns j) k → i = j

/-- A step keeps a lock to one transaction, where a lock that is taken was free. -/
theorem Exclusive.move {K : Type*} {holds : T → K → Prop} {w : World D T} (h : Exclusive holds w) {i : Nat} {d : D} {t : T}
    (htake : ∀ k, holds t k → holds (w.txns i) k ∨ Free holds w i k) : Exclusive holds (w.move i d t) := by
  have hone : ∀ j k, j ≠ i → holds t k → ¬holds (w.txns j) k := by
    intro j k hj ht hother
    rcases htake k ht with hheld | hfree
    · exact hj (h j i k hother hheld)
    · exact hfree j hj hother
  intro a b k ha hb
  by_cases hai : a = i
  · by_cases hbi : b = i
    · rw [hai, hbi]
    · rw [hai, move_txns_self] at ha
      rw [move_txns_of_ne w d t hbi] at hb
      exact absurd hb (hone b k hbi ha)
  · rw [move_txns_of_ne w d t hai] at ha
    by_cases hbi : b = i
    · rw [hbi, move_txns_self] at hb
      exact absurd ha (hone a k hai hb)
    · rw [move_txns_of_ne w d t hbi] at hb
      exact h a b k ha hb

end World

end Py
