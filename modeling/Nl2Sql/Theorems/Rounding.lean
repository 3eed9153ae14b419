import Nl2Sql.Lib.DecimalRound
import Nl2Sql.Lemmas.Evaluate

namespace Nl2Sql

open Py

/-! ## Underflow and the declared rounding -/

/-- The exact result of a product or a quotient of two numbers that are not zero. -/
def DecimalOp.exactProduct? : DecimalOp → Option ℚ
  | .mul a b => if a.coeff ≠ 0 ∧ b.coeff ≠ 0 then some (a.toRat * b.toRat) else none
  | .div a b => if a.coeff ≠ 0 ∧ b.coeff ≠ 0 then some (a.toRat / b.toRat) else none
  | _ => none

/-- A product or a quotient of two numbers that are not zero, whose result is zero. -/
def DecimalOp.ProducesZero (op : DecimalOp) : Prop := op.exactProduct?.isSome = true ∧ ∃ d, op.result = .ok d ∧ d.coeff = 0

namespace RoundingAux

/-- An operation produces zero exactly where its exact result is flushed. -/
theorem producesZero_iff (op : DecimalOp) : op.ProducesZero ↔ ∃ x, op.exactProduct? = some x ∧ Decimal.Flushes exactContext x := by
  unfold DecimalOp.ProducesZero
  cases op with
  | add a b => simp [DecimalOp.exactProduct?]
  | sub a b => simp [DecimalOp.exactProduct?]
  | quantize mode d places => simp [DecimalOp.exactProduct?]
  | mul a b =>
    simp only [DecimalOp.exactProduct?]
    by_cases h : a.coeff ≠ 0 ∧ b.coeff ≠ 0
    · rw [if_pos h, DecimalOp.result, Decimal.mul_zero_iff h.1 h.2]
      simp
    · rw [if_neg h]
      simp
  | div a b =>
    simp only [DecimalOp.exactProduct?]
    by_cases h : a.coeff ≠ 0 ∧ b.coeff ≠ 0
    · rw [if_pos h, DecimalOp.result, Decimal.div_zero_iff h.1 h.2]
      simp
    · rw [if_neg h]
      simp

end RoundingAux

/-- The product of a number near the least exponent and a small one. -/
def tinyProduct : Expression := .binary .multiply (.literal ⟨false, 1, -999999⟩) (.literal ⟨false, 1, -70⟩)

namespace RoundingAux

theorem outcome_applyPrecision (v : Decimal) (p : Precision) (mode : Rounding) (ops : List DecimalOp) :
    outcome ((applyPrecision v p mode).run ops) =
      if Decimal.numDigits (Decimal.rescale mode v (-(p : Int))).coeff ≤ 64 then .ok (Decimal.rescale mode v (-(p : Int)))
      else .error (.decimal .invalidOperation) := by
  have hp := p.isLt
  have htiny : exactContext.etiny ≤ -(p : Int) := by
    simp only [exactContext, DecimalContext.etiny]
    omega
  have hresult : (DecimalOp.quantize mode v p).result =
      if Decimal.numDigits (Decimal.rescale mode v (-(p : Int))).coeff ≤ 64 then .ok (Decimal.rescale mode v (-(p : Int)))
      else .error .invalidOperation := Decimal.quantize_eq (by decide) htiny (by omega)
  rw [applyPrecision, EvaluateAux.outcome_perform, hresult]
  by_cases hdigits : Decimal.numDigits (Decimal.rescale mode v (-(p : Int))).coeff ≤ 64
  · rw [if_pos hdigits, if_pos hdigits]
  · rw [if_neg hdigits, if_neg hdigits]

end RoundingAux

open RoundingAux in
/-- Applying a declared precision: the mode selects one integer of the exact number at that many places. Where it has at most 64 digits
the result has that exponent and is that multiple, and applying the precision again gives the same; where it has more, the operation is
invalid. -/
theorem declared_rounding (v : Decimal) (p : Precision) (mode : Rounding) :
    ∃ n : ℤ, mode.Selects (v.toRat * 10 ^ (p : Nat)) n ∧ (∀ m, mode.Selects (v.toRat * 10 ^ (p : Nat)) m → m = n) ∧
      (n.natAbs < 10 ^ 64 → ∃ d : Decimal, d.exp = -(p : Int) ∧ d.toRat = n * (10 : ℚ) ^ (-(p : Int)) ∧
        ∀ ops, outcome ((applyPrecision v p mode).run ops) = .ok d ∧ outcome ((applyPrecision d p mode).run ops) = .ok d) ∧
      (10 ^ 64 ≤ n.natAbs → ∀ ops, outcome ((applyPrecision v p mode).run ops) = .error (.decimal .invalidOperation)) := by
  obtain ⟨hexp, hselects⟩ := Decimal.rescale_selects mode v (-(p : Int))
  rw [neg_neg, zpow_natCast] at hselects
  have hself := Decimal.rescale_self mode hexp
  have hcoeff := Decimal.natAbs_signed (Decimal.rescale mode v (-(p : Int)))
  have hrat : (Decimal.rescale mode v (-(p : Int))).toRat =
      ((Decimal.rescale mode v (-(p : Int))).signed : ℚ) * (10 : ℚ) ^ (-(p : Int)) := by
    rw [Decimal.toRat, hexp]
  revert hexp hselects hself hcoeff hrat
  generalize hd : Decimal.rescale mode v (-(p : Int)) = d
  intro hexp hselects hself hcoeff hrat
  refine ⟨d.signed, hselects, fun m hm => hm.unique hselects, fun hshort => ?_, fun hlong ops => ?_⟩
  · rw [hcoeff] at hshort
    have hdigits : Decimal.numDigits d.coeff ≤ 64 := Decimal.numDigits_le_of_lt (by omega) hshort
    refine ⟨d, hexp, hrat, fun ops => ⟨?_, ?_⟩⟩
    · rw [outcome_applyPrecision, hd, if_pos hdigits]
    · rw [outcome_applyPrecision, hself, if_pos hdigits]
  · rw [hcoeff] at hlong
    have hdigits : ¬ Decimal.numDigits d.coeff ≤ 64 := not_le.mpr (Decimal.lt_numDigits hlong)
    rw [outcome_applyPrecision, hd, if_neg hdigits]

end Nl2Sql
