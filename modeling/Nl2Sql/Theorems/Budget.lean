import Nl2Sql.Lemmas.Budget

/-!
# Runs of a ledger

What holds of every ledger reached from a fresh one by calls in any order, those that raise and checkpoint round trips among
them. A run is a fold of calls, so each statement is what one call does (`BudgetAux.after_cases`) carried along the run.
-/

namespace Nl2Sql

open Py BudgetAux

namespace BudgetAux

theorem Within.run (checksum : RoutingBudgetPolicy → Sha256) (calls : List LedgerCall) :
    ∀ l : RouteBudgetLedger, Within l → Within (l.runCalls checksum calls) := by
  induction calls with
  | nil => intro l h; exact h
  | cons call calls ih =>
    intro l h
    exact ih _ (h.after checksum call)

theorem run_limits (checksum : RoutingBudgetPolicy → Sha256) (calls : List LedgerCall) :
    ∀ l : RouteBudgetLedger, (l.runCalls checksum calls).limits = l.limits := by
  induction calls with
  | nil => intro l; rfl
  | cons call calls ih =>
    intro l
    exact (ih _).trans (after_limits checksum l call)

/-- A run of calls on a stopped ledger leaves it as it is. -/
theorem run_stopped {l : RouteBudgetLedger} {r : String} (h : l.stopReason = some r)
    (checksum : RoutingBudgetPolicy → Sha256) (calls : List LedgerCall) : l.runCalls checksum calls = l := by
  induction calls with
  | nil => rfl
  | cons call calls ih =>
    rw [RouteBudgetLedger.runCalls, List.foldl_cons, after_stopped h checksum call]
    exact ih

end BudgetAux

/-- The law of the ledger, over every run from a fresh one: its counters stay within the limits of its route, the fingerprint
counts add up to the candidates, a stopped ledger is never changed again, and a call that raises has written at most a first
stop reason. -/
theorem ledger_law (checksum : RoutingBudgetPolicy → Sha256) (route : RouteName) (policy : RoutingBudgetPolicy)
    (calls : List LedgerCall) :
    let l := RouteBudgetLedger.runCalls checksum { route := route, policy := policy } calls
    (l.modelCalls ≤ (policy.routes route).maxModelCalls ∧ l.sqlCandidates ≤ (policy.routes route).maxSqlCandidates ∧
      l.sqlExecutions ≤ (policy.routes route).maxSqlExecutions ∧ l.joinHops ≤ (policy.routes route).maxJoinHops ∧
      l.repairs ≤ (policy.routes route).maxRepairs) ∧
    l.sqlFingerprintCounts.values.sum = l.sqlCandidates ∧
    (∀ reason, l.stopReason = some reason → ∀ later, l.runCalls checksum later = l) ∧
    (∀ call e l', (LedgerCall.exec checksum call).run l = .error e l' →
      l' = l ∨ (l.stopReason = none ∧ ∃ reason, l' = { l with stopReason := some reason })) := by
  intro l
  have hw : Within l := Within.run checksum calls _ (Within.fresh route policy)
  have hlim : l.limits = policy.routes route := run_limits checksum calls { route := route, policy := policy }
  refine ⟨?_, hw.fingerprints, ?_, ?_⟩
  · rw [← hlim]
    exact ⟨hw.modelCalls, hw.sqlCandidates, hw.sqlExecutions, hw.joinHops, hw.repairs⟩
  · intro reason hs later
    exact run_stopped hs checksum later
  · intro call e l' hrun
    have h := exec_spec checksum l call
    unfold Ends at h
    rw [hrun] at h
    exact h

/-- The second candidate with the same fingerprint is counted and stops the request. -/
example :
    let l := RouteBudgetLedger.runCalls (fun _ => ⟨"0000000000000000000000000000000000000000000000000000000000000000", isSha256_ofList rfl⟩)
      { route := .standard, policy := bootstrapRoutingBudgetPolicy }
      [.recordSqlCandidate "a", .recordSqlCandidate " a ", .recordSqlCandidate "b"]
    l.sqlCandidates = 2 ∧ l.sqlFingerprintCounts.entries = [("a", 2)] ∧ l.stopReason = some "repeated_sql" := by
  decide

end Nl2Sql
