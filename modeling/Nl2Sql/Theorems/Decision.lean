import Nl2Sql.Lemmas.Clarify
import Mathlib.Data.List.Chain

/-!
# The protocol of the decision ledger

A run may suspend for a decision any number of times: the validation asks first, and every replan may ask again. What holds across the
payloads it is resumed with: the ledger only grows, each request has a higher version than the one before it, the lineage leads from the
plan of the first request to the plan of the pending one, and a replan follows a resolve decision that is in the ledger.
-/

namespace Nl2Sql

open Py Engine

namespace DecisionAux

variable {D : EngineDigests} {E : Engine D}

/-! ## What a run wrote -/

/-- The channels a step wrote. -/
def written : StepOutcome D → List (V2EngineState D.toCalculationDigests)
  | .moved s _ _ => [s]
  | _ => []

/-- The channels the steps of a run wrote, in their order. -/
def writes (records : List (Record D)) : List (V2EngineState D.toCalculationDigests) :=
  records.flatMap fun record => written record.step.outcome

/-- The channels of the clarification a step leaves where it leads to the decision node. -/
def asks : StepOutcome D → List DecisionChannels
  | .moved s _ next => if next = some .decision then [s.decision] else []
  | _ => []

/-- The channels of the clarification at each new suspension of a run, in their order. -/
def suspensions (records : List (Record D)) : List DecisionChannels := records.flatMap fun record => asks record.step.outcome

/-- Every entry of a ledger is in another. -/
def Within (ledger ledger' : Dict IdempotencyKey DecisionEntry) : Prop :=
  ∀ key entry, ledger.get? key = some entry → ledger'.get? key = some entry

/-- The hash of the plan that the first request of a run is about. -/
def firstPlan (asked : List DecisionChannels) : Option Sha256 := asked.head?.bind fun d => d.pendingDecision.map (·.planSha256)

/-- The lineage is a chain, and begins at the plan of the first request. -/
def Linked (asked : List DecisionChannels) (lineage : List PlanLineage) : Prop :=
  lineage.IsChain (fun l l' => l.newPlanSha256 = l'.oldPlanSha256) ∧
    ∀ l ∈ lineage.head?, firstPlan asked = some l.oldPlanSha256

/-- The decision that is resolved is a resolve decision that satisfies the pending request, and is in the ledger. -/
def RecordedResolve (d : DecisionChannels) : Prop :=
  ∃ request decision entry, d.pendingDecision = some request ∧ d.resolvedDecision = some decision ∧ decision.action = .resolve ∧
    decision.validateAgainst request = [] ∧ d.decisionLedger.get? decision.idempotencyKey = some entry ∧
    entry.request = request ∧ entry.decision = decision

/-- What the steps of a run keep. -/
structure Protocol (records : List (Record D)) : Prop where
  ledger : (writes records).Pairwise fun s s' => Within s.decision.decisionLedger s'.decision.decisionLedger
  versions : (suspensions records).Pairwise fun d d' => d.decisionVersion < d'.decisionVersion
  lineage : ∀ s ∈ writes records, Linked (suspensions records) s.decision.planLineage
  replans : ∀ record ∈ records, record.cursor.node = .replan → RecordedResolve record.cursor.values.decision

theorem within_trans {l l' l'' : Dict IdempotencyKey DecisionEntry} (h : Within l l') (h' : Within l' l'') : Within l l'' :=
  fun key entry hentry => h' key entry (h key entry hentry)

/-- A new key leaves the entries of a ledger in it. -/
theorem within_set {ledger : Dict IdempotencyKey DecisionEntry} {key : IdempotencyKey} (entry : DecisionEntry)
    (h : ledger.get? key = none) : Within ledger (ledger.set key entry) := by
  intro key' entry' hentry
  by_cases hkey : key = key'
  · rw [← hkey, h] at hentry
    cases hentry
  · rwa [Dict.get?_set_of_ne _ _ hkey]

/-! ## Lineage -/

/-- The first request stays the first one. -/
theorem firstPlan_append {asked : List DecisionChannels} {plan : Sha256} (h : firstPlan asked = some plan)
    (more : List DecisionChannels) : firstPlan (asked ++ more) = some plan := by
  cases asked with
  | nil => cases h
  | cons d rest => exact h

theorem linked_nil (asked : List DecisionChannels) : Linked asked [] := ⟨List.isChain_nil, by simp⟩

theorem Linked.append {asked : List DecisionChannels} {lineage : List PlanLineage} (h : Linked asked lineage)
    (more : List DecisionChannels) : Linked (asked ++ more) lineage :=
  ⟨h.1, fun l hl => firstPlan_append (h.2 l hl) more⟩

/-- The lineage leads from the plan of the first request to a plan. -/
structure Reaches (asked : List DecisionChannels) (lineage : List PlanLineage) (plan : Sha256) : Prop where
  chain : lineage.IsChain fun l l' => l.newPlanSha256 = l'.oldPlanSha256
  last : ∀ l ∈ lineage.getLast?, l.newPlanSha256 = plan
  first : firstPlan asked = some ((lineage.head?.map (·.oldPlanSha256)).getD plan)

namespace Reaches

variable {asked : List DecisionChannels} {lineage : List PlanLineage} {plan : Sha256}

theorem linked (h : Reaches asked lineage plan) : Linked asked lineage := by
  refine ⟨h.chain, fun l hl => ?_⟩
  have hhead : lineage.head? = some l := hl
  simpa [hhead] using h.first

theorem append (h : Reaches asked lineage plan) (more : List DecisionChannels) : Reaches (asked ++ more) lineage plan :=
  ⟨h.chain, h.last, firstPlan_append h.first more⟩

/-- An entry from the plan the lineage leads to leads on to the plan of the entry. -/
theorem snoc (h : Reaches asked lineage plan) (entry : PlanLineage) (hentry : entry.oldPlanSha256 = plan) :
    Reaches asked (lineage ++ [entry]) entry.newPlanSha256 where
  chain := by
    refine List.isChain_append.mpr ⟨h.chain, List.isChain_singleton _, fun l hl l' hl' => ?_⟩
    cases Option.some.inj hl'
    exact (h.last l hl).trans hentry.symm
  last l hl := by
    rw [List.getLast?_concat] at hl
    cases hl
    rfl
  first := by
    cases lineage with
    | nil => simpa [hentry] using h.first
    | cons l rest => exact h.first

end Reaches

/-! ## Where a run stands -/

/-- A request is pending: the ledger answers older ones, and the lineage leads to its plan. -/
structure Asked (asked : List DecisionChannels) (d : DecisionChannels) : Prop where
  awaiting : d.decisionStatus = some .awaitingDecision
  not_ready : d.continuationReady = false
  older : Older d.decisionLedger d.decisionVersion
  highest : ∀ e ∈ asked, e.decisionVersion ≤ d.decisionVersion
  pending : ∃ request, d.pendingDecision = some request ∧ request.version = d.decisionVersion ∧
    Reaches asked d.planLineage request.planSha256

/-- The pending request was resolved: the ledger has its decision. -/
structure Resolved (asked : List DecisionChannels) (d : DecisionChannels) : Prop where
  not_ready : d.continuationReady = false
  older : Older d.decisionLedger (d.decisionVersion + 1)
  highest : ∀ e ∈ asked, e.decisionVersion ≤ d.decisionVersion
  resolve : RecordedResolve d
  reaches : ∀ request ∈ d.pendingDecision, Reaches asked d.planLineage request.planSha256

/-- The channels of the clarification where a run stands behind the receiving node: they are the defaults until it asks. -/
def Phase (asked : List DecisionChannels) (d : DecisionChannels) : Node → Prop
  | .receive => False
  | .decision => Asked asked d
  | .replan => Resolved asked d
  | _ => asked = [] ∧ d = {}

/-- What one step does to the channels of the clarification, where the requests so far were `asked`. -/
structure Follows (asked : List DecisionChannels) (d d' : DecisionChannels) (next : Option Node) : Prop where
  kept : Within d.decisionLedger d'.decisionLedger
  linked : Linked asked d'.planLineage
  asks : next = some .decision → (∀ e ∈ asked, e.decisionVersion < d'.decisionVersion) ∧ Asked (asked ++ [d']) d'
  goes : ∀ node, next = some node → node ≠ .decision → Phase asked d' node

/-- A step that leaves the defaults and goes on to a node that does work. -/
theorem follows_initial {next : Option Node} (h : ∀ node, next = some node → node ≠ .receive ∧ node ≠ .decision ∧ node ≠ .replan) :
    Follows [] {} {} next where
  kept _ _ h := h
  linked := linked_nil []
  asks hnext := absurd rfl (h _ hnext).2.1
  goes node hnext _ := by
    obtain ⟨hreceive, hdecision, hreplan⟩ := h node hnext
    cases node <;> first | exact ⟨rfl, rfl⟩ | contradiction

/-- The first request of a run. -/
theorem follows_first (request : HITLRequest) {next : Option Node}
    (h : ∀ node, next = some node → node = .decision) : Follows [] {} (await {} request) next where
  kept _ _ h := h
  linked := linked_nil []
  asks _ :=
    { left := by simp
      right :=
        { awaiting := rfl
          not_ready := rfl
          older := by simp [Older, await]
          highest := by simp
          pending := ⟨request, rfl, rfl, List.isChain_nil, by simp [await], rfl⟩ } }
  goes node hnext hne := absurd (h node hnext) hne

/-- A pending request was decided. -/
theorem follows_decision {asked : List DecisionChannels} {d d' : DecisionChannels} {w w' : WorkChannels D.toCalculationDigests}
    {received : List Json} {next : Option Node} (h : Asked asked d) (hd : decision received d w = .returned (d', w'))
    (hnext : ∀ node, next = some node → node = .replan ∧ d'.decisionStatus = some .resolvedPendingRevalidation) :
    Follows asked d d' next := by
  obtain ⟨request, hpending, hversion, hreaches⟩ := h.pending
  obtain ⟨payload, -, decided, token, hread, hnone, heq⟩ := decision_returned hpending (hversion ▸ h.older) hd
  have hd' : d' = (recordTypedDecision request decided token d w).1 := congrArg Prod.fst heq
  subst hd'
  refine ⟨within_set _ hnone, hreaches.linked, fun hask => (nomatch (hnext _ hask).1), fun node hnode _ => ?_⟩
  obtain ⟨rfl, hstatus⟩ := hnext node hnode
  have hresolve : decided.action = .resolve := by
    cases haction : decided.action <;> simp [recordTypedDecision, recordedStatus, haction] at hstatus ⊢
  have hkept : (if decided.action = .reject ∨ decided.action = .cancel then none else d.pendingDecision) = some request := by
    simp [hresolve, hpending]
  exact
    { not_ready := h.not_ready
      older := by
        intro key entry hentry
        by_cases hkey : decided.idempotencyKey = key
        · subst hkey
          rw [recordTypedDecision, Dict.get?_set_self] at hentry
          cases hentry
          exact Nat.lt_succ_of_le (Nat.le_of_eq hversion)
        · rw [recordTypedDecision, Dict.get?_set_of_ne _ _ hkey] at hentry
          exact Nat.lt_succ_of_lt (h.older key entry hentry)
      highest := h.highest
      resolve := ⟨request, decided, _, hkept, rfl, hresolve, validateAgainst_of_payload hread, Dict.get?_set_self _ _ _, rfl, rfl⟩
      reaches := by
        intro r hr
        have hr' : some request = some r := hkept.symm.trans hr
        cases hr'
        exact hreaches }

/-- A resolved request was replanned. -/
theorem follows_replan {asked : List DecisionChannels} {d d' : DecisionChannels} (h : Resolved asked d) (hd : Replanned D d d')
    {next : Option Node} (hnext : ∀ node, next = some node →
      (node = .decision ∧ awaitingDecision d' = true) ∨ (node = .execute ∧ d'.continuationReady = true)) :
    Follows asked d d' next := by
  -- the continuation is never ready, so the run goes on only where it asks again
  have ends (hp : awaitingDecision d' = false) (hr : d'.continuationReady = d.continuationReady) : next = none := by
    cases next with
    | none => rfl
    | some node =>
      rcases hnext node rfl with ⟨-, hawaiting⟩ | ⟨-, hready⟩
      · rw [hp] at hawaiting
        cases hawaiting
      · rw [hr, h.not_ready] at hready
        cases hready
  cases hd with
  | stopped =>
    obtain ⟨request, -, -, hpending, -⟩ := h.resolve
    rw [ends (by simp [awaitingDecision]) rfl]
    exact ⟨fun _ _ h => h, (h.reaches request hpending).linked, by simp, by simp⟩
  | @ended stored decision newPlan validation status hpending hresolved hstatus =>
    have hreaches := (h.reaches stored hpending).snoc (planLineage D stored decision newPlan validation) rfl
    rw [ends (by simp [awaitingDecision]) rfl]
    exact ⟨fun _ _ h => h, hreaches.linked, by simp, by simp⟩
  | @asked stored decision newPlan validation request hpending hresolved hversion hplan =>
    have hreaches := (h.reaches stored hpending).snoc (planLineage D stored decision newPlan validation) rfl
    have hhigher : ∀ e ∈ asked, e.decisionVersion < request.version := by
      intro e he
      exact hversion ▸ Nat.lt_succ_of_le (h.highest e he)
    refine ⟨fun _ _ h => h, hreaches.linked, fun _ => ⟨hhigher, ?_⟩, fun node hnode hne => ?_⟩
    · exact
        { awaiting := rfl
          not_ready := h.not_ready
          older := by
            intro key entry hentry
            have := h.older key entry hentry
            show entry.requestVersion < request.version
            omega
          highest := by
            intro e he
            rcases List.mem_append.mp he with he | he
            · exact Nat.le_of_lt (hhigher e he)
            · cases List.mem_singleton.mp he
              exact Nat.le_refl _
          pending := ⟨request, rfl, rfl, hplan ▸ hreaches.append _⟩ }
    · rcases hnext node hnode with ⟨rfl, -⟩ | ⟨-, hready⟩
      · exact absurd rfl hne
      · rw [show (await (replanned (D := D) stored decision newPlan validation d) request).continuationReady = d.continuationReady
          from rfl, h.not_ready] at hready
        cases hready

/-- What a step behind the receiving node does to the channels of the clarification. -/
theorem follows_moves {config a s received runtime node s' runtime' next} {asked : List DecisionChannels}
    (h : Phase asked s.decision node) (hm : Moves E config a s received runtime node s' runtime' next) :
    Follows asked s.decision s'.decision next := by
  -- the nodes that do work leave the channels alone, and no edge leads from them into the clarification
  have quiet (hphase : asked = [] ∧ s.decision = {}) (hkept : s'.decision = s.decision)
      (hout : ∀ target ∈ successors node, target ≠ .receive ∧ target ≠ .decision ∧ target ≠ .replan) :
      Follows asked s.decision s'.decision next := by
    rw [hkept, hphase.1, hphase.2]
    refine follows_initial fun target htarget => ?_
    subst htarget
    exact hout target (next_mem_successors hm)
  cases hm with
  | receive => exact h.elim
  | validate hv hnext =>
    obtain ⟨rfl, hd⟩ := h
    rcases validate_decision hv with rfl | ⟨request, rfl, -⟩
    · rw [hd] at hnext ⊢
      refine follows_initial fun target htarget => ?_
      subst htarget
      unfold afterValidation at hnext
      split at hnext
      · cases hnext
      split at hnext
      · rename_i hawaiting
        cases hawaiting
      · cases hnext
        exact ⟨nofun, nofun, nofun⟩
    · rw [hd] at hnext ⊢
      refine follows_first request fun target htarget => ?_
      subst htarget
      unfold afterValidation at hnext
      split at hnext
      · cases hnext
      split at hnext
      · exact (Option.some.inj hnext).symm
      · rename_i hawaiting
        exact absurd rfl hawaiting
  | decision hd hnext => exact follows_decision h hd fun node hnode => afterDecision_eq_some (hnext.trans hnode)
  | replan hr hnext => exact follows_replan h (replan_eq_ok hr) fun node hnode => afterReplan_eq_some (hnext.trans hnode)
  | _ => exact quiet h rfl (by decide)

/-! ## Runs -/

theorem writes_append_singleton (past : List (Record D)) (record : Record D) :
    writes (past ++ [record]) = writes past ++ written record.step.outcome := by
  simp [writes]

theorem suspensions_append_singleton (past : List (Record D)) (record : Record D) :
    suspensions (past ++ [record]) = suspensions past ++ asks record.step.outcome := by
  simp [suspensions]

/-- A step that wrote nothing keeps the protocol. -/
theorem Protocol.silent {past : List (Record D)} {record : Record D} (h : Protocol past) (hwritten : written record.step.outcome = [])
    (hasks : asks record.step.outcome = []) (hreplan : record.cursor.node = .replan → RecordedResolve record.cursor.values.decision) :
    Protocol (past ++ [record]) := by
  have hwrites : writes (past ++ [record]) = writes past := by rw [writes_append_singleton, hwritten, List.append_nil]
  have hsuspensions : suspensions (past ++ [record]) = suspensions past := by rw [suspensions_append_singleton, hasks, List.append_nil]
  refine ⟨hwrites ▸ h.ledger, hsuspensions ▸ h.versions, ?_, ?_⟩
  · rw [hwrites, hsuspensions]
    exact h.lineage
  · intro r hr
    rcases List.mem_append.mp hr with hr | hr
    · exact h.replans r hr
    · cases List.mem_singleton.mp hr
      exact hreplan

/-- A step that wrote keeps the protocol. -/
theorem Protocol.moved {past : List (Record D)} {record : Record D} {s : V2EngineState D.toCalculationDigests} {runtime next}
    (h : Protocol past) (ho : record.step.outcome = .moved s runtime next)
    (hkept : ∀ e ∈ writes past, Within e.decision.decisionLedger record.cursor.values.decision.decisionLedger)
    (hfollows : Follows (suspensions past) record.cursor.values.decision s.decision next)
    (hreplan : record.cursor.node = .replan → RecordedResolve record.cursor.values.decision) : Protocol (past ++ [record]) := by
  have hwrites : writes (past ++ [record]) = writes past ++ [s] := by rw [writes_append_singleton, ho, written]
  have hsuspensions := suspensions_append_singleton past record
  refine ⟨?_, ?_, ?_, ?_⟩
  · rw [hwrites]
    refine List.pairwise_append.mpr ⟨h.ledger, List.pairwise_singleton _ _, fun e he e' he' => ?_⟩
    cases List.mem_singleton.mp he'
    exact within_trans (hkept e he) hfollows.kept
  · rw [hsuspensions, ho]
    by_cases hnext : next = some .decision
    · rw [asks, if_pos hnext]
      refine List.pairwise_append.mpr ⟨h.versions, List.pairwise_singleton _ _, fun e he e' he' => ?_⟩
      cases List.mem_singleton.mp he'
      exact (hfollows.asks hnext).1 e he
    · rw [asks, if_neg hnext, List.append_nil]
      exact h.versions
  · rw [hwrites, hsuspensions]
    intro e he
    rcases List.mem_append.mp he with he | he
    · exact (h.lineage e he).append _
    · cases List.mem_singleton.mp he
      exact hfollows.linked.append _
  · intro r hr
    rcases List.mem_append.mp hr with hr | hr
    · exact h.replans r hr
    · cases List.mem_singleton.mp hr
      exact hreplan

/-- Where a run stands in the clarification. -/
def Stands (past : List (Record D)) (node : Node) (s : V2EngineState D.toCalculationDigests) : Prop :=
  (node = .receive ∧ past = []) ∨
    (Protocol past ∧ (∀ e ∈ writes past, Within e.decision.decisionLedger s.decision.decisionLedger) ∧
      Phase (suspensions past) s.decision node)

theorem protocol_nil : Protocol ([] : List (Record D)) := ⟨List.Pairwise.nil, List.Pairwise.nil, by simp [writes], by simp⟩

theorem resolve_of_phase {asked : List DecisionChannels} {d : DecisionChannels} {node : Node} (h : Phase asked d node) :
    node = .replan → RecordedResolve d := by
  rintro rfl
  exact h.resolve

/-- The receiving node begins with the defaults. -/
theorem receive_moved {config a} {c : Cursor D} {s runtime next} (hnode : c.node = .receive)
    (ho : (E.step config a c).outcome = .moved s runtime next) :
    s.decision = {} ∧ ∃ node ∈ successors .receive, next = some node := by
  have hm := moves_of_step ho
  rw [hnode] at hm
  cases hm with
  | receive hnext =>
    refine ⟨rfl, _, ?_, hnext.symm⟩
    split <;> simp [successors]

theorem protocol_receive {config a} {c : Cursor D} (hnode : c.node = .receive) : Protocol [⟨c, E.step config a c⟩] := by
  cases ho : (E.step config a c).outcome with
  | suspended prompt =>
    rcases suspends_of_step ho with ⟨h, -⟩ | ⟨h, -⟩ <;> rw [hnode] at h <;> cases h
  | failed e => exact protocol_nil.silent (by simp [ho, written]) (by simp [ho, asks]) (by simp [hnode])
  | moved s runtime next =>
    obtain ⟨hs, node, hmem, rfl⟩ := receive_moved hnode ho
    have hasks : asks (StepOutcome.moved s runtime (some node)) = [] := by
      rw [asks, if_neg]
      rintro ⟨⟩
      simp [successors] at hmem
    refine ⟨?_, ?_, ?_, ?_⟩
    · simp [writes, ho, written]
    · simp [suspensions, ho, hasks]
    · intro e he
      simp only [writes, List.flatMap_cons, List.flatMap_nil, ho, written, List.append_nil, List.mem_singleton] at he
      rw [he, hs]
      exact linked_nil _
    · simp [hnode]

theorem rule (E : Engine D) : RunRule E Stands Protocol where
  holds past node s h := by
    rcases h with ⟨-, rfl⟩ | ⟨h, -⟩
    · exact protocol_nil
    · exact h
  moves config a past c s runtime node h ho := by
    rcases h with ⟨hnode, rfl⟩ | ⟨hprotocol, hkept, hphase⟩
    · obtain ⟨hs, target, hmem, htarget⟩ := receive_moved hnode ho
      cases htarget
      refine .inr ⟨protocol_receive hnode, ?_, ?_⟩
      · intro e he
        simp only [List.nil_append, writes, List.flatMap_cons, List.flatMap_nil, ho, written, List.append_nil,
          List.mem_singleton] at he
        rw [he]
        exact fun _ _ h => h
      · simp only [successors, List.mem_cons, List.not_mem_nil, or_false] at hmem
        rcases hmem with rfl | rfl <;> exact ⟨by simp [suspensions, ho, asks], hs⟩
    · have hfollows := follows_moves hphase (moves_of_step ho)
      refine .inr ⟨hprotocol.moved ho hkept hfollows (resolve_of_phase hphase), ?_, ?_⟩
      · intro e he
        rw [writes_append_singleton, ho, written] at he
        rcases List.mem_append.mp he with he | he
        · exact within_trans (hkept e he) hfollows.kept
        · cases List.mem_singleton.mp he
          exact fun _ _ h => h
      · rw [suspensions_append_singleton, ho]
        by_cases hnode : node = .decision
        · subst hnode
          exact (hfollows.asks rfl).2
        · rw [asks, if_neg (by simpa using hnode), List.append_nil]
          exact hfollows.goes node rfl hnode
  suspends config a past c prompt h ho := by
    rcases h with ⟨hnode, rfl⟩ | ⟨hprotocol, hkept, hphase⟩
    · rcases suspends_of_step ho with ⟨h, -⟩ | ⟨h, -⟩ <;> rw [hnode] at h <;> cases h
    · refine .inr ⟨hprotocol.silent (by simp [ho, written]) (by simp [ho, asks]) (resolve_of_phase hphase), ?_, ?_⟩
      · simpa [writes_append_singleton, ho, written] using hkept
      · simpa [suspensions_append_singleton, ho, asks] using hphase
  steps config a past c h := by
    rcases h with ⟨hnode, rfl⟩ | ⟨hprotocol, hkept, hphase⟩
    · exact protocol_receive hnode
    · cases ho : (E.step config a c).outcome with
      | suspended prompt => exact hprotocol.silent (by simp [ho, written]) (by simp [ho, asks]) (resolve_of_phase hphase)
      | failed e => exact hprotocol.silent (by simp [ho, written]) (by simp [ho, asks]) (resolve_of_phase hphase)
      | moved s runtime next => exact hprotocol.moved ho hkept (follows_moves hphase (moves_of_step ho)) (resolve_of_phase hphase)

/-- A run that waits for a decision has a pending request that the ledger does not answer. -/
theorem asked_of_suspended (thread : Thread D) (run : Run D) {received prompt}
    (hs : (E.runOn thread run).2.status = .suspended .decision received prompt) :
    Asked (suspensions (E.runOn thread run).1) (E.runOn thread run).2.values.decision := by
  rcases ((rule E).runOn thread run (.inl ⟨rfl, rfl⟩)).2 _ _ _ hs with ⟨hnode, -⟩ | ⟨-, -, hasked⟩
  · cases hnode
  · exact hasked

/-- Ledgers of which one is in the other agree. -/
theorem agree_of_pairwise {l : List (V2EngineState D.toCalculationDigests)}
    (h : l.Pairwise fun s s' => Within s.decision.decisionLedger s'.decision.decisionLedger) :
    ∀ s ∈ l, ∀ s' ∈ l, ∀ key entry entry', s.decision.decisionLedger.get? key = some entry →
      s'.decision.decisionLedger.get? key = some entry' → entry = entry' := by
  induction h with
  | nil => simp
  | @cons first rest hfirst _ ih =>
    have hagree : ∀ s ∈ rest, ∀ key entry entry', first.decision.decisionLedger.get? key = some entry →
        s.decision.decisionLedger.get? key = some entry' → entry = entry' := by
      intro s hs key entry entry' he he'
      exact Option.some.inj ((hfirst s hs key entry he).symm.trans he')
    intro s hs s' hs' key entry entry' he he'
    rcases List.mem_cons.mp hs with rfl | hrest <;> rcases List.mem_cons.mp hs' with rfl | hrest'
    · exact Option.some.inj (he.symm.trans he')
    · exact hagree s' hrest' key entry entry' he he'
    · exact (hagree s hrest key entry' entry he' he).symm
    · exact ih s hrest s' hrest' key entry entry' he he'

end DecisionAux

open DecisionAux

/-- Over every run on every thread, with any answers of the injected code and any payloads it is resumed with. An entry of the ledger is
never changed, and no key is bound to two decisions. Each new suspension has a higher version than those before it. The lineage is a
chain that begins at the plan of the first pending request. A replan happens where the ledger holds a resolve decision that satisfies
the pending request. And a run that waits for a decision is awaiting it: a payload that is no decision over the pending request, or whose
key the ledger binds, leaves every channel as it was, and the run waiting as before. -/
theorem decision_ledger_law {D : EngineDigests} (E : Engine D) (thread : Thread D) (run : Run D) :
    ((writes (E.runOn thread run).1).Pairwise fun s s' => Within s.decision.decisionLedger s'.decision.decisionLedger) ∧
    (∀ s ∈ writes (E.runOn thread run).1, ∀ s' ∈ writes (E.runOn thread run).1, ∀ key entry entry',
      s.decision.decisionLedger.get? key = some entry → s'.decision.decisionLedger.get? key = some entry' →
        entry.decision = entry'.decision) ∧
    ((suspensions (E.runOn thread run).1).Pairwise fun d d' => d.decisionVersion < d'.decisionVersion) ∧
    (∀ s ∈ writes (E.runOn thread run).1, Linked (suspensions (E.runOn thread run).1) s.decision.planLineage) ∧
    (∀ record ∈ (E.runOn thread run).1, record.cursor.node = .replan → RecordedResolve record.cursor.values.decision) ∧
    (∀ received prompt, (E.runOn thread run).2.status = .suspended .decision received prompt →
      ∃ request, (E.runOn thread run).2.values.decision.pendingDecision = some request ∧
        (E.runOn thread run).2.values.decision.decisionStatus = some .awaitingDecision ∧
        ∀ payload,
          (∀ decision, typedDecisionFromPayload request payload = .ok decision →
            (E.runOn thread run).2.values.decision.decisionLedger.get? decision.idempotencyKey ≠ none) →
          ∀ invocation : Invocation D,
            (E.resume (E.runOn thread run).2 payload invocation).2.values = (E.runOn thread run).2.values ∧
            (invocation.answers ≠ [] → ∃ prompt,
              (E.resume (E.runOn thread run).2 payload invocation).2.status = .suspended .decision (received ++ [payload]) prompt)) := by
  have hprotocol := ((rule E).runOn thread run (.inl ⟨rfl, rfl⟩)).1
  refine ⟨hprotocol.ledger, ?_, hprotocol.versions, hprotocol.lineage, hprotocol.replans, ?_⟩
  · intro s hs s' hs' key entry entry' he he'
    rw [agree_of_pairwise hprotocol.ledger s hs s' hs' key entry entry' he he']
  · intro received prompt hs
    have hasked := asked_of_suspended thread run hs
    obtain ⟨request, hpending, hversion, -⟩ := hasked.pending
    refine ⟨request, hpending, hasked.awaiting, fun payload hrefused invocation => ?_⟩
    obtain ⟨failure, hfailure⟩ := receivePayload_refused (w := (E.runOn thread run).2.values.work) (hversion ▸ hasked.older) hrefused
    exact resume_refused (waits_runOn thread run) hs hpending hfailure invocation

end Nl2Sql
