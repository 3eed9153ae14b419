import Nl2Sql.Budget
import Nl2Sql.Lib.Method

/-!
# What one call does to a ledger

`LedgerEffect l l'` lists everything a call that returns may do to the ledger `l`, with the guard under which it does it;
`LedgerRaised l l'` is what a call that raises may have written. `exec_spec` says that every call does one of the two, and the
statements about runs of a ledger use nothing else of the methods.
-/

namespace Nl2Sql

open Py

namespace RouteBudgetLedger

/-- The limit `_increment` is given for a counter. -/
def limitOf (l : RouteBudgetLedger) : LedgerCounter → Nat
  | .modelCalls => l.limits.maxModelCalls
  | .sqlCandidates => l.limits.maxSqlCandidates
  | .sqlExecutions => l.limits.maxSqlExecutions
  | .repairs => l.limits.maxRepairs

end RouteBudgetLedger

/-- What a call that returns may do to a ledger. Everything but leaving it alone needs a ledger that was not stopped. -/
inductive LedgerEffect (l : RouteBudgetLedger) : RouteBudgetLedger → Prop where
  | kept : LedgerEffect l l
  | halted (hl : l.stopReason = none) (reason : String) : LedgerEffect l { l with stopReason := some reason }
  | counted (hl : l.stopReason = none) (c : LedgerCounter) (hc : c ≠ .sqlCandidates) (hlim : l.counter c < l.limitOf c) :
      LedgerEffect l (l.setCounter c (l.counter c + 1))
  | candidate (hl : l.stopReason = none) (hlim : l.sqlCandidates < l.limits.maxSqlCandidates) (fingerprint : String)
      (stop : Option String) :
      LedgerEffect l
        { l with
          sqlCandidates := l.sqlCandidates + 1
          sqlFingerprintCounts :=
            l.sqlFingerprintCounts.set fingerprint ((l.sqlFingerprintCounts.get? fingerprint).getD 0 + 1)
          stopReason := stop }
  | hops (hl : l.stopReason = none) (n : Nat) (hn : n ≤ l.limits.maxJoinHops) :
      LedgerEffect l { l with joinHops := max l.joinHops n }
  | errors (hl : l.stopReason = none) (counts : Dict String Nat) (retries : Nat) (stop : Option String) :
      LedgerEffect l { l with errorCounts := counts, retryableProviderErrors := retries, stopReason := stop }

/-- What a call that raises may have written: nothing, or a first stop reason. -/
def LedgerRaised (l l' : RouteBudgetLedger) : Prop :=
  l' = l ∨ (l.stopReason = none ∧ ∃ reason, l' = { l with stopReason := some reason })

namespace BudgetAux

open RouteBudgetLedger

/-! ## The methods that others call -/

variable {l : RouteBudgetLedger}

theorem ensureActive_stopped {r : String} (h : l.stopReason = some r) :
    ensureActive.run l = .error (.budgetExceeded r) l := by
  simp [ensureActive, h]

theorem ensureActive_active (h : l.stopReason = none) : ensureActive.run l = .ok () l := by
  simp [ensureActive, h]

theorem halt_blank (l : RouteBudgetLedger) {reason : String} (h : strip reason = "") :
    (halt reason).run l = .error (.valueError "stop reason must be non-empty") l := by
  simp [halt, h]

theorem halt_stopped {reason r : String} (h : strip reason ≠ "") (hl : l.stopReason = some r) :
    (halt reason).run l = .ok r l := by
  simp [halt, h, hl]

theorem halt_active {reason : String} (h : strip reason ≠ "") (hl : l.stopReason = none) :
    (halt reason).run l = .ok (strip reason) { l with stopReason := some (strip reason) } := by
  simp [halt, h, hl]

theorem increment_stopped {r : String} (h : l.stopReason = some r) (c : LedgerCounter) (n : Nat)
    (reason : String) : (increment c n reason).run l = .error (.budgetExceeded r) l := by
  simp [increment, ensureActive_stopped h]

/-- A counter at its limit halts an active ledger and raises. -/
theorem increment_exhausted (hl : l.stopReason = none) {c : LedgerCounter} {n : Nat}
    (reason : String) (hr : strip reason ≠ "") (hn : n ≤ l.counter c) :
    (increment c n reason).run l = .error (.budgetExceeded reason) { l with stopReason := some (strip reason) } := by
  simp [increment, ensureActive_active hl, hn, halt_active hr hl]

theorem increment_below (hl : l.stopReason = none) {c : LedgerCounter} {n : Nat} (reason : String)
    (hn : l.counter c < n) : (increment c n reason).run l = .ok () (l.setCounter c (l.counter c + 1)) := by
  have hn' : ¬ n ≤ l.counter c := by omega
  simp [increment, ensureActive_active hl, hn']

/-! ## What a call does, method by method -/

/-- The two ways a method may end on the ledger `l`. -/
@[irreducible] def Ends {α : Type} (l : RouteBudgetLedger) (m : LedgerM α) : Prop :=
  match m.run l with
  | .ok _ l' => LedgerEffect l l'
  | .error _ l' => LedgerRaised l l'

theorem Ends.of_ok {α : Type} {l l' : RouteBudgetLedger} {m : LedgerM α} {a : α} (h : m.run l = .ok a l')
    (he : LedgerEffect l l') : Ends l m := by
  unfold Ends
  rw [h]
  exact he

theorem Ends.of_error {α : Type} {l l' : RouteBudgetLedger} {m : LedgerM α} {e : LedgerError} (h : m.run l = .error e l')
    (hr : LedgerRaised l l') : Ends l m := by
  unfold Ends
  rw [h]
  exact hr

theorem Ends.of_run {α : Type} {l : RouteBudgetLedger} {m m' : LedgerM α} (h : Ends l m') (hrun : m.run l = m'.run l) : Ends l m := by
  unfold Ends at h ⊢
  rwa [hrun]

theorem Ends.discard {α : Type} {l : RouteBudgetLedger} {m : LedgerM α} (h : Ends l m) : Ends l (discard m) := by
  unfold Ends at h ⊢
  rw [run_discard]
  cases hm : m.run l <;> rw [hm] at h <;> exact h

/-- The three ways of `_increment`: the ledger is stopped, the counter is at its limit, or it is counted. -/
theorem increment_cases (l : RouteBudgetLedger) (c : LedgerCounter) (n : Nat) {reason : String} (hr : strip reason ≠ "") :
    (∃ r, l.stopReason = some r ∧ (increment c n reason).run l = .error (.budgetExceeded r) l) ∨
    (l.stopReason = none ∧
      (increment c n reason).run l = .error (.budgetExceeded reason) { l with stopReason := some (strip reason) }) ∨
    (l.stopReason = none ∧ l.counter c < n ∧ (increment c n reason).run l = .ok () (l.setCounter c (l.counter c + 1))) := by
  cases hl : l.stopReason with
  | some r => exact .inl ⟨r, rfl, increment_stopped hl c n reason⟩
  | none =>
    by_cases hn : n ≤ l.counter c
    · exact .inr (.inl ⟨rfl, increment_exhausted hl reason hr hn⟩)
    · exact .inr (.inr ⟨rfl, by omega, increment_below hl reason (by omega)⟩)

theorem ends_increment (l : RouteBudgetLedger) (c : LedgerCounter) (hc : c ≠ .sqlCandidates) {reason : String}
    (hr : strip reason ≠ "") : Ends l (increment c (l.limitOf c) reason) := by
  rcases increment_cases l c (l.limitOf c) hr with ⟨r, hl, hrun⟩ | ⟨hl, hrun⟩ | ⟨hl, hn, hrun⟩
  · exact Ends.of_error hrun (Or.inl rfl)
  · exact Ends.of_error hrun (Or.inr ⟨hl, _, rfl⟩)
  · exact Ends.of_ok hrun (.counted hl c hc hn)

theorem ends_halt (l : RouteBudgetLedger) (reason : String) : Ends l (halt reason) := by
  by_cases hr : strip reason = ""
  · exact Ends.of_error (halt_blank l hr) (Or.inl rfl)
  · cases hl : l.stopReason with
    | some r => exact Ends.of_ok (halt_stopped hr hl) .kept
    | none => exact Ends.of_ok (halt_active hr hl) (.halted hl _)

/-- A candidate on an active ledger below its limit: one more candidate, one more of its fingerprint, and a halt when the
fingerprint has been seen `max_same_sql` times. -/
theorem recordSqlCandidate_below (hl : l.stopReason = none) {fingerprint : String}
    (hf : strip fingerprint ≠ "") (hn : l.sqlCandidates < l.limits.maxSqlCandidates) :
    ∃ stop, (recordSqlCandidate fingerprint).run l = .ok stop
      { l with
        sqlCandidates := l.sqlCandidates + 1
        sqlFingerprintCounts :=
          l.sqlFingerprintCounts.set (strip fingerprint) ((l.sqlFingerprintCounts.get? (strip fingerprint)).getD 0 + 1)
        stopReason := stop } ∧
      (stop = none ↔ (l.sqlFingerprintCounts.get? (strip fingerprint)).getD 0 + 1 < l.policy.maxSameSql) ∧
      ∀ r ∈ stop, r = "repeated_sql" := by
  have hi := increment_below hl (c := .sqlCandidates) "sql_candidate_budget_exhausted" hn
  have hr : strip "repeated_sql" = "repeated_sql" := (written_ofList rfl).1
  by_cases hs : l.policy.maxSameSql ≤ (l.sqlFingerprintCounts.get? (strip fingerprint)).getD 0 + 1
  · refine ⟨some "repeated_sql", ?_, by simp; omega, by simp⟩
    simp [recordSqlCandidate, hf, hi, setCounter, counter, hs, halt, hr, hl]
  · refine ⟨none, ?_, by simp; omega, (by rintro _ ⟨⟩)⟩
    simp [recordSqlCandidate, hf, hi, setCounter, counter, hs, hl]

/-- The four ways of `record_sql_candidate`: a blank fingerprint, a stopped ledger, candidates at their limit, or one more. -/
theorem recordSqlCandidate_cases (l : RouteBudgetLedger) (fingerprint : String) :
    (∃ message, (recordSqlCandidate fingerprint).run l = .error (.valueError message) l) ∨
    (∃ r, l.stopReason = some r ∧ (recordSqlCandidate fingerprint).run l = .error (.budgetExceeded r) l) ∨
    (l.stopReason = none ∧ (recordSqlCandidate fingerprint).run l = .error (.budgetExceeded "sql_candidate_budget_exhausted")
      { l with stopReason := some (strip "sql_candidate_budget_exhausted") }) ∨
    (l.stopReason = none ∧ strip fingerprint ≠ "" ∧ l.sqlCandidates < l.limits.maxSqlCandidates) := by
  by_cases hf : strip fingerprint = ""
  · exact .inl ⟨"SQL fingerprint must be non-empty", by simp [recordSqlCandidate, hf]⟩
  rcases increment_cases l .sqlCandidates l.limits.maxSqlCandidates (strip_ofList_ne rfl : strip "sql_candidate_budget_exhausted" ≠ "") with
    ⟨r, hl, hrun⟩ | ⟨hl, hrun⟩ | ⟨hl, hn, -⟩
  · exact .inr (.inl ⟨r, hl, by simp [recordSqlCandidate, hf, hrun]⟩)
  · exact .inr (.inr (.inl ⟨hl, by simp [recordSqlCandidate, hf, hrun]⟩))
  · exact .inr (.inr (.inr ⟨hl, hf, hn⟩))

theorem ends_recordSqlCandidate (l : RouteBudgetLedger) (fingerprint : String) :
    Ends l (recordSqlCandidate fingerprint) := by
  rcases recordSqlCandidate_cases l fingerprint with ⟨message, h⟩ | ⟨r, hl, h⟩ | ⟨hl, h⟩ | ⟨hl, hf, hn⟩
  · exact Ends.of_error h (Or.inl rfl)
  · exact Ends.of_error h (Or.inl rfl)
  · exact Ends.of_error h (Or.inr ⟨hl, _, rfl⟩)
  · obtain ⟨stop, h, -⟩ := recordSqlCandidate_below hl hf hn
    exact Ends.of_ok h (.candidate hl hn _ stop)

/-- The four ways of `observe_join_hops`. -/
theorem observeJoinHops_cases (l : RouteBudgetLedger) (hops : Int) :
    (∃ r, l.stopReason = some r ∧ (observeJoinHops hops).run l = .error (.budgetExceeded r) l) ∨
    (∃ message, (observeJoinHops hops).run l = .error (.valueError message) l) ∨
    (l.stopReason = none ∧ (observeJoinHops hops).run l = .error (.budgetExceeded "join_hop_budget_exhausted")
      { l with stopReason := some (strip "join_hop_budget_exhausted") }) ∨
    (l.stopReason = none ∧ hops ≤ l.limits.maxJoinHops ∧
      (observeJoinHops hops).run l = .ok () { l with joinHops := max l.joinHops hops.toNat }) := by
  cases hl : l.stopReason with
  | some r => exact .inl ⟨r, rfl, by simp [observeJoinHops, ensureActive_stopped hl]⟩
  | none =>
    by_cases hneg : hops < 0
    · exact .inr (.inl ⟨"join hops cannot be negative", by simp [observeJoinHops, ensureActive_active hl, hneg]⟩)
    by_cases hlim : (l.limits.maxJoinHops : Int) < hops
    · have hr : strip "join_hop_budget_exhausted" ≠ "" := strip_ofList_ne rfl
      exact .inr (.inr (.inl ⟨rfl, by simp [observeJoinHops, ensureActive_active hl, hneg, hlim, halt_active hr hl]⟩))
    · exact .inr (.inr (.inr ⟨rfl, by omega, by simp [observeJoinHops, ensureActive_active hl, hneg, hlim, hl]⟩))

theorem ends_observeJoinHops (l : RouteBudgetLedger) (hops : Int) : Ends l (observeJoinHops hops) := by
  rcases observeJoinHops_cases l hops with ⟨r, hl, h⟩ | ⟨message, h⟩ | ⟨hl, h⟩ | ⟨hl, hlim, h⟩
  · exact Ends.of_error h (Or.inl rfl)
  · exact Ends.of_error h (Or.inl rfl)
  · exact Ends.of_error h (Or.inr ⟨hl, _, rfl⟩)
  · exact Ends.of_ok h (.hops hl _ (by omega))

/-- Retries on an active ledger are added up, and one too many halts it. -/
theorem recordProviderRetries_active (hl : l.stopReason = none) {retries : Int} (hn : 0 ≤ retries) :
    ∃ stop, (recordProviderRetries retries).run l = .ok stop
      { l with retryableProviderErrors := l.retryableProviderErrors + retries.toNat, stopReason := stop } := by
  have hneg : ¬ retries < 0 := by omega
  have hr : strip "retryable_provider_error_budget_exhausted" = "retryable_provider_error_budget_exhausted" := (written_ofList rfl).1
  by_cases hs : l.policy.maxRetryableProviderErrors < l.retryableProviderErrors + retries.toNat
  · refine ⟨some "retryable_provider_error_budget_exhausted", ?_⟩
    simp [recordProviderRetries, ensureActive_active hl, hneg, hs, halt, hr, hl]
  · refine ⟨none, ?_⟩
    simp [recordProviderRetries, ensureActive_active hl, hneg, hs, hl]

theorem ends_recordProviderRetries (l : RouteBudgetLedger) (retries : Int) : Ends l (recordProviderRetries retries) := by
  cases hl : l.stopReason with
  | some r =>
    have h : (recordProviderRetries retries).run l = .error (.budgetExceeded r) l := by
      simp [recordProviderRetries, ensureActive_stopped hl]
    exact Ends.of_error h (Or.inl rfl)
  | none =>
    by_cases hneg : retries < 0
    · have h : (recordProviderRetries retries).run l = .error (.valueError "provider retries cannot be negative") l := by
        simp [recordProviderRetries, ensureActive_active hl, hneg]
      exact Ends.of_error h (Or.inl rfl)
    · obtain ⟨stop, h⟩ := recordProviderRetries_active hl (by omega : 0 ≤ retries)
      exact Ends.of_ok h (.errors hl l.errorCounts _ stop)

/-- A halt with a reason that is not blank returns, and touches the stop reason alone. -/
theorem halt_run (reason : String) (h : strip reason ≠ "") (l : RouteBudgetLedger) :
    ∃ stop, (halt reason).run l = .ok stop { l with stopReason := some stop } := by
  cases hl : l.stopReason with
  | some r => exact ⟨r, by rw [halt_stopped h hl, ← hl]⟩
  | none => exact ⟨strip reason, halt_active h hl⟩

/-- The end of `record_error`, after the error was counted: the halts and the reason returned. -/
def errorTail (policyDenied : Bool) (count : Nat) : LedgerM (Option String) := do
  if policyDenied then
    let _ ← halt "policy_denied"
  else if (← get).policy.maxSameError ≤ count then
    let _ ← halt "repeated_error"
  return (← get).stopReason

theorem errorTail_run (policyDenied : Bool) (count : Nat) (l : RouteBudgetLedger) :
    ∃ stop, (errorTail policyDenied count).run l = .ok stop { l with stopReason := stop } := by
  cases policyDenied with
  | true =>
    obtain ⟨stop, h⟩ := halt_run "policy_denied" (by decide) l
    exact ⟨some stop, by simp [errorTail, h]⟩
  | false =>
    by_cases hs : l.policy.maxSameError ≤ count
    · obtain ⟨stop, h⟩ := halt_run "repeated_error" (by decide) l
      exact ⟨some stop, by simp [errorTail, h, hs]⟩
    · exact ⟨l.stopReason, by simp [errorTail, hs]⟩

/-- An error on an active ledger is counted; whatever halts follow, nothing else of the ledger changes. -/
theorem recordError_active (hl : l.stopReason = none) {taxonomy : String}
    (ht : strip taxonomy ≠ "") (policyDenied retryableProvider : Bool) :
    ∃ counts retries stop, (recordError taxonomy policyDenied retryableProvider).run l = .ok stop
      { l with errorCounts := counts, retryableProviderErrors := retries, stopReason := stop } := by
  let count := (l.errorCounts.get? (strip taxonomy)).getD 0 + 1
  let counts := l.errorCounts.set (strip taxonomy) count
  cases retryableProvider with
  | false =>
    obtain ⟨stop, h⟩ := errorTail_run policyDenied count { l with errorCounts := counts }
    refine ⟨counts, l.retryableProviderErrors, stop, ?_⟩
    rw [← h]
    simp only [recordError, ht, if_false, EStateM.run_bind, ensureActive_active hl, EStateM.run_get, EStateM.run_modify,
      Bool.false_eq_true]
    rfl
  | true =>
    obtain ⟨stop₁, h₁⟩ := recordProviderRetries_active (l := { l with errorCounts := counts }) hl (by omega : (0 : Int) ≤ 1)
    obtain ⟨stop, h⟩ := errorTail_run policyDenied count
      { l with errorCounts := counts, retryableProviderErrors := l.retryableProviderErrors + 1, stopReason := stop₁ }
    refine ⟨counts, l.retryableProviderErrors + 1, stop, ?_⟩
    rw [← h]
    simp only [counts, count] at h₁
    simp only [recordError, ht, if_false, EStateM.run_bind, ensureActive_active hl, EStateM.run_get, EStateM.run_modify,
      if_true, h₁]
    rfl

theorem ends_recordError (l : RouteBudgetLedger) (taxonomy : String) (policyDenied retryableProvider : Bool) :
    Ends l (recordError taxonomy policyDenied retryableProvider) := by
  by_cases ht : strip taxonomy = ""
  · have h : (recordError taxonomy policyDenied retryableProvider).run l =
        .error (.valueError "error taxonomy must be non-empty") l := by
      simp [recordError, ht]
    exact Ends.of_error h (Or.inl rfl)
  cases hl : l.stopReason with
  | some r =>
    have h : (recordError taxonomy policyDenied retryableProvider).run l = .error (.budgetExceeded r) l := by
      simp [recordError, ht, ensureActive_stopped hl]
    exact Ends.of_error h (Or.inl rfl)
  | none =>
    obtain ⟨counts, retries, stop, h⟩ := recordError_active hl ht policyDenied retryableProvider
    exact Ends.of_ok h (.errors hl counts retries stop)

/-- A checkpoint round trip gives back the ledger it was written from. -/
theorem fromRecord_checkpointRecord {checksum : RoutingBudgetPolicy → Sha256} {l : RouteBudgetLedger}
    {record : RouteBudgetRecord} (h : l.checkpointRecord checksum = .ok record) :
    fromRecord checksum l.policy record = .ok l := by
  unfold checkpointRecord at h
  split at h
  · cases h
    simp [fromRecord, limits]
  · cases h

theorem ends_restore (checksum : RoutingBudgetPolicy → Sha256) (l : RouteBudgetLedger) :
    Ends l (RouteBudgetLedger.restore checksum) := by
  cases hr : l.checkpointRecord checksum with
  | error e =>
    have h : (RouteBudgetLedger.restore checksum).run l = .error e l := by
      simp [RouteBudgetLedger.restore, hr]
    exact Ends.of_error h (Or.inl rfl)
  | ok record =>
    have h : (RouteBudgetLedger.restore checksum).run l = .ok () l := by
      simp [RouteBudgetLedger.restore, hr, fromRecord_checkpointRecord hr]
    exact Ends.of_ok h .kept

/-- What every call does: it returns with one of the effects listed, or raises having written at most a first stop reason. -/
theorem exec_spec (checksum : RoutingBudgetPolicy → Sha256) (l : RouteBudgetLedger) (call : LedgerCall) :
    Ends l (call.exec checksum) := by
  cases call with
  | beginModelCall => exact .of_run (ends_increment l .modelCalls (by decide) (by exact strip_ofList_ne rfl)) rfl
  | recordSqlCandidate fingerprint => exact (ends_recordSqlCandidate l fingerprint).discard
  | beginSqlExecution => exact .of_run (ends_increment l .sqlExecutions (by decide) (by exact strip_ofList_ne rfl)) rfl
  | observeJoinHops hops => exact ends_observeJoinHops l hops
  | beginRepair => exact .of_run (ends_increment l .repairs (by decide) (by exact strip_ofList_ne rfl)) rfl
  | recordProviderRetries retries => exact (ends_recordProviderRetries l retries).discard
  | recordError taxonomy policyDenied retryableProvider =>
    exact (ends_recordError l taxonomy policyDenied retryableProvider).discard
  | halt reason => exact (ends_halt l reason).discard
  | restore => exact ends_restore checksum l

/-- The ledger after a call, by what the call did. -/
theorem after_cases (checksum : RoutingBudgetPolicy → Sha256) (l : RouteBudgetLedger) (call : LedgerCall) :
    LedgerEffect l (l.after checksum call) ∨ LedgerRaised l (l.after checksum call) := by
  have h := exec_spec checksum l call
  unfold Ends at h
  unfold RouteBudgetLedger.after
  cases hrun : (call.exec checksum).run l <;> rw [hrun] at h
  · exact Or.inl h
  · exact Or.inr h

/-! ## The invariant of a ledger -/

/-- Within the limits: no counter is over its route's limit, and the fingerprint counts add up to the candidates. -/
structure Within (l : RouteBudgetLedger) : Prop where
  modelCalls : l.modelCalls ≤ l.limits.maxModelCalls
  sqlCandidates : l.sqlCandidates ≤ l.limits.maxSqlCandidates
  sqlExecutions : l.sqlExecutions ≤ l.limits.maxSqlExecutions
  joinHops : l.joinHops ≤ l.limits.maxJoinHops
  repairs : l.repairs ≤ l.limits.maxRepairs
  fingerprints : l.sqlFingerprintCounts.values.sum = l.sqlCandidates

theorem Within.fresh (route : RouteName) (policy : RoutingBudgetPolicy) :
    Within { route := route, policy := policy } :=
  ⟨Nat.zero_le _, Nat.zero_le _, Nat.zero_le _, Nat.zero_le _, Nat.zero_le _, rfl⟩

theorem Within.effect {l l' : RouteBudgetLedger} (h : Within l) (he : LedgerEffect l l') : Within l' := by
  cases he with
  | kept => exact h
  | halted => exact ⟨h.1, h.2, h.3, h.4, h.5, h.6⟩
  | counted _ c hc hlim =>
    cases c with
    | modelCalls => exact ⟨hlim, h.2, h.3, h.4, h.5, h.6⟩
    | sqlCandidates => exact absurd rfl hc
    | sqlExecutions => exact ⟨h.1, h.2, hlim, h.4, h.5, h.6⟩
    | repairs => exact ⟨h.1, h.2, h.3, h.4, hlim, h.6⟩
  | candidate _ hlim fingerprint =>
    refine ⟨h.1, hlim, h.3, h.4, h.5, ?_⟩
    have hsum := l.sqlFingerprintCounts.sum_values_set fingerprint ((l.sqlFingerprintCounts.get? fingerprint).getD 0 + 1)
    have hold := h.fingerprints
    simp only
    omega
  | hops _ n hn => exact ⟨h.1, h.2, h.3, max_le h.4 hn, h.5, h.6⟩
  | errors => exact ⟨h.1, h.2, h.3, h.4, h.5, h.6⟩

theorem Within.raised {l l' : RouteBudgetLedger} (h : Within l) (hr : LedgerRaised l l') : Within l' := by
  rcases hr with rfl | ⟨_, reason, rfl⟩
  · exact h
  · exact ⟨h.1, h.2, h.3, h.4, h.5, h.6⟩

theorem Within.after (h : Within l) (checksum : RoutingBudgetPolicy → Sha256) (call : LedgerCall) :
    Within (l.after checksum call) := by
  rcases after_cases checksum l call with he | hr
  · exact h.effect he
  · exact h.raised hr

/-- A call on a stopped ledger changes nothing: every effect but leaving it alone needs a ledger that is not stopped. -/
theorem after_stopped {r : String} (h : l.stopReason = some r)
    (checksum : RoutingBudgetPolicy → Sha256) (call : LedgerCall) : l.after checksum call = l := by
  have hn : ¬ l.stopReason = none := by simp [h]
  rcases after_cases checksum l call with he | hr
  · revert he
    generalize l.after checksum call = l'
    intro he
    cases he with
    | kept => rfl
    | halted hl => exact absurd hl hn
    | counted hl => exact absurd hl hn
    | candidate hl => exact absurd hl hn
    | hops hl => exact absurd hl hn
    | errors hl => exact absurd hl hn
  · rcases hr with hr | ⟨hl, _⟩
    · exact hr
    · exact absurd hl hn

/-- No call changes the route or the policy, so the limits stay. -/
theorem after_limits (checksum : RoutingBudgetPolicy → Sha256) (l : RouteBudgetLedger) (call : LedgerCall) :
    (l.after checksum call).limits = l.limits := by
  rcases after_cases checksum l call with he | hr
  · revert he
    generalize l.after checksum call = l'
    intro he
    cases he with
    | counted _ c => cases c <;> rfl
    | _ => rfl
  · rcases hr with hr | ⟨_, reason, hr⟩
    · rw [hr]
    · rw [hr]
      rfl

end BudgetAux

end Nl2Sql
