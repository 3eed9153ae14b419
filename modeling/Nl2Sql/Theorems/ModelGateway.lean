import Nl2Sql.Lemmas.ModelGateway

/-!
# The fallback discipline of the model gateway

Invocations one after another, on any budgets and with providers that end their calls in any way. Each tries the primary and, where the
primary is unavailable in a retryable way, the fallback; it calls only providers it may, while their circuits are closed and within
the attempts of its budget. An answer is charged once, with its usage, exactly where its counts are ones a float can hold: `_cost`
raises on a larger one, after the answer and before the charge.
-/

namespace Nl2Sql

open Py Llm

namespace ModelGatewayAux

variable {G : ModelGateway} {E : Environment} {maxAttempts : Nat → Nat}

/-- A charge for an answer: its usage, at the prices of the target that answered. -/
def IsCharge (budget : Nat) (answer : Answer) (charge : Charge) : Prop :=
  charge.budget = budget ∧ charge.inputTokens = answer.response.inputTokens ∧ charge.outputTokens = answer.response.outputTokens ∧
    cost answer.target answer.response.inputTokens answer.response.outputTokens = .ok charge.cost

/-- The counts of an answer are ones a float can hold. -/
def Answer.Fits (answer : Answer) : Prop := FitsFloat answer.response.inputTokens ∧ FitsFloat answer.response.outputTokens

/-- What an invocation does but for its charge. -/
structure Disciplined (G : ModelGateway) (E : Environment) (call : InvokeCall) (log : List GatewayEvent) : Prop where
  atMostTwo : (providerCalls log).length ≤ 2
  second : ∀ first second, providerCalls log = [first, second] → ∃ profile failure time rest,
    G.profiles.get? call.request.modelAlias = some profile ∧ first.target = profile.primary ∧
      profile.fallback = some second.target ∧ failure.retryable = true ∧
      log = .complete first :: .failed first.target.provider failure time :: .fallback second.target :: .complete second :: rest
  permitted : ∀ made ∈ providerCalls log, made.budget = call.budget ∧ Permitted G E made.target call.request
  /-- a request that the primary may not be sent turns to no fallback either -/
  denied : ∀ profile, G.profiles.get? call.request.modelAlias = some profile → ¬Permitted G E profile.primary call.request → log = []
  answered : (answers log).length ≤ 1

/-- An answer is charged once, and nothing else is. -/
def ChargedOnce (call : InvokeCall) (log : List GatewayEvent) : Prop := List.Forall₂ (IsCharge call.budget) (answers log) (charges log)

/-- A run that keeps the discipline. -/
structure Discipline (G : ModelGateway) (E : Environment) (budgets : Nat → Llm.CallBudget) (calls : List InvokeCall)
    (run : GatewayState × List Invocation) : Prop where
  made : run.2.map Invocation.call = calls
  log_eq : run.1.log = run.2.flatMap Invocation.log
  each : ∀ invocation ∈ run.2, Disciplined G E invocation.call invocation.log
  charged : ∀ invocation ∈ run.2, ChargedOnce invocation.call invocation.log
  /-- no call while the circuit of its provider is open, and each within the attempts of its budget -/
  lawful : LawfulCalls (fun b => (budgets b).maxAttempts) run.1.log
  within : ∀ b, callsOn b run.1.log ≤ (run.1.budgets b).attempts ∧ callsOn b run.1.log ≤ (budgets b).maxAttempts

/-! ## One invocation -/

variable {call : InvokeCall} {profile : ModelProfile} {log events turned : List GatewayEvent} {target : ModelTarget} {e : GatewayError}

theorem forall_of_nil {P : ProviderCall → Prop} (h : providerCalls events = []) : ∀ made ∈ providerCalls events, P made := by
  intro made hmade
  rw [h] at hmade
  exact absurd hmade List.not_mem_nil

theorem forall_of_singleton {P : ProviderCall → Prop} {made : ProviderCall} (h : providerCalls events = [made]) (hP : P made) :
    ∀ made ∈ providerCalls events, P made := by
  intro other hother
  rw [h] at hother
  rw [List.mem_singleton.mp hother]
  exact hP

/-- A target that failed made at most one call, on its budget and permitted, and got no answer. -/
theorem targetFailed_calls (h : TargetFailed G E call.budget target call.request events e) :
    (providerCalls events).length ≤ 1 ∧ answers events = [] ∧ charges events = [] ∧
      ∀ made ∈ providerCalls events, made.budget = call.budget ∧ Permitted G E made.target call.request := by
  cases h with
  | refused _ => exact ⟨Nat.zero_le _, rfl, rfl, forall_of_nil rfl⟩
  | «open» _ => exact ⟨Nat.zero_le _, rfl, rfl, forall_of_nil rfl⟩
  | unconfigured _ _ => exact ⟨Nat.zero_le _, rfl, rfl, forall_of_nil rfl⟩
  | unavailable hp hon => exact ⟨le_rfl, rfl, rfl, forall_of_singleton rfl ⟨hon.1, hon.2 ▸ hp⟩⟩
  | raised hp hon => exact ⟨le_rfl, rfl, rfl, forall_of_singleton rfl ⟨hon.1, hon.2 ▸ hp⟩⟩

/-- A call of an unavailable target is all it did before its failure. -/
theorem targetFailed_of_call {failure : ModelFailure} {made : ProviderCall}
    (h : TargetFailed G E call.budget target call.request events (.providerUnavailable failure)) (hmade : made ∈ providerCalls events) :
    made.target = target ∧ ∃ time, events = [GatewayEvent.complete made, .failed target.provider failure time] := by
  cases h with
  | refused hother => exact absurd rfl (hother failure)
  | «open» _ => exact absurd hmade List.not_mem_nil
  | unconfigured _ _ => exact absurd hmade List.not_mem_nil
  | unavailable hp hon =>
    cases List.mem_singleton.mp hmade
    exact ⟨hon.2, _, rfl⟩

/-- Before a target is tried there is no answer and no charge, at most one call, and the primary is permitted. -/
theorem turned_calls (h : Turned G E call.budget profile call.request turned target) :
    answers turned = [] ∧ charges turned = [] ∧ (providerCalls turned).length ≤ 1 ∧
      (∀ made ∈ providerCalls turned, made.budget = call.budget ∧ Permitted G E made.target call.request) ∧
      (turned = [] ∧ target = profile.primary ∨ Permitted G E profile.primary call.request) := by
  cases h with
  | primary => exact ⟨rfl, rfl, Nat.zero_le _, forall_of_nil rfl, .inl ⟨rfl, rfl⟩⟩
  | @fallback _ failure failed hfallback hretry hfailed =>
    obtain ⟨hlen, hanswers, hcharges, hmade⟩ := targetFailed_calls hfailed
    have hcalls : providerCalls (failed ++ [GatewayEvent.fallback target]) = providerCalls failed := by
      rw [providerCalls_append]
      exact List.append_nil _
    refine ⟨?_, ?_, by rw [hcalls]; exact hlen, by rw [hcalls]; exact hmade, .inr ?_⟩
    · rw [answers_append, hanswers]
      rfl
    · rw [charges_append, hcharges]
      rfl
    · cases hfailed with
      | refused hother => exact absurd rfl (hother failure)
      | «open» hp => exact hp
      | unconfigured hp _ => exact hp
      | unavailable hp _ => exact hp

/-- Two calls are one of the primary, that failed in a retryable way, and one of the fallback. -/
theorem turned_two (h : Turned G E call.budget profile call.request turned target) {first : ProviderCall}
    (hfirst : providerCalls turned = [first]) :
    first.target = profile.primary ∧ profile.fallback = some target ∧ ∃ failure time, failure.retryable = true ∧
      turned = [GatewayEvent.complete first, .failed first.target.provider failure time, .fallback target] := by
  cases h with
  | primary => exact absurd hfirst (List.cons_ne_nil _ _).symm
  | @fallback _ failure failed hfallback hretry hfailed =>
    have hmem : first ∈ providerCalls failed := by
      rw [providerCalls_append] at hfirst
      have hmem : first ∈ providerCalls failed ++ providerCalls [.fallback target] := hfirst ▸ List.mem_singleton_self first
      exact (List.mem_append.mp hmem).resolve_right List.not_mem_nil
    obtain ⟨htarget, time, rfl⟩ := targetFailed_of_call hfailed hmem
    exact ⟨htarget, hfallback, failure, time, hretry, by rw [htarget]; rfl⟩

/-- An answer has a cost exactly where its counts fit a float. -/
theorem fits_iff_cost {answer : Answer} : Answer.Fits answer ↔
    ∃ price, cost answer.target answer.response.inputTokens answer.response.outputTokens = .ok price := by
  unfold cost
  constructor
  · intro hfits
    exact ⟨_, if_pos hfits⟩
  · rintro ⟨price, hprice⟩
    split at hprice
    · assumption
    · nomatch hprice

/-- What follows an answer is its charge exactly where its counts fit a float. -/
theorem isCharge_of_charged {answer : Answer} {charged : List GatewayEvent} (h : Charged call.budget answer charged) :
    providerCalls charged = [] ∧ answers charged = [] ∧
      (List.Forall₂ (IsCharge call.budget) [answer] (charges charged) ↔ Answer.Fits answer) := by
  rcases h with ⟨price, hprice, rfl⟩ | ⟨herror, rfl⟩
  · refine ⟨rfl, rfl, iff_of_true ?_ (fits_iff_cost.mpr ⟨price, hprice⟩)⟩
    exact .cons ⟨rfl, rfl, rfl, hprice⟩ .nil
  · refine ⟨rfl, rfl, iff_of_false (fun hall => ?_) fun hfits => ?_⟩
    · nomatch hall.length_eq
    · obtain ⟨price, hprice⟩ := fits_iff_cost.mp hfits
      rw [herror] at hprice
      nomatch hprice

/-- An invocation that did nothing. -/
theorem disciplined_nil : Disciplined G E call [] ∧ (ChargedOnce call [] ↔ ∀ answer ∈ answers [], Answer.Fits answer) := by
  refine ⟨⟨Nat.zero_le _, fun first second h => ?_, forall_of_nil rfl, fun _ _ _ => rfl, Nat.zero_le _⟩, ?_⟩
  · exact absurd h (List.cons_ne_nil _ _).symm
  · exact iff_of_true .nil fun _ h => absurd h List.not_mem_nil

/-- A target that failed after a call did the call first. -/
theorem targetFailed_head {made : ProviderCall} (h : TargetFailed G E call.budget target call.request events e)
    (hmade : providerCalls events = [made]) : made.target = target ∧ ∃ rest, events = .complete made :: rest := by
  cases h with
  | refused _ => exact absurd hmade (List.cons_ne_nil _ _).symm
  | «open» _ => exact absurd hmade (List.cons_ne_nil _ _).symm
  | unconfigured _ _ => exact absurd hmade (List.cons_ne_nil _ _).symm
  | unavailable _ hon =>
    obtain rfl := (List.cons.inj hmade).1
    exact ⟨hon.2, _, rfl⟩
  | raised _ hon =>
    obtain rfl := (List.cons.inj hmade).1
    exact ⟨hon.2, _, rfl⟩

/-- The second call is on the fallback, after the primary was unavailable. -/
theorem second_of_turned (hprofile : G.profiles.get? call.request.modelAlias = some profile)
    (hturned : Turned G E call.budget profile call.request turned target) (hlen : (providerCalls events).length ≤ 1)
    (hhead : ∀ made, providerCalls events = [made] → made.target = target ∧ ∃ rest, events = .complete made :: rest)
    {first second : ProviderCall} (h : providerCalls (turned ++ events) = [first, second]) :
    ∃ profile failure time rest, G.profiles.get? call.request.modelAlias = some profile ∧ first.target = profile.primary ∧
      profile.fallback = some second.target ∧ failure.retryable = true ∧
      turned ++ events = .complete first :: .failed first.target.provider failure time :: .fallback second.target :: .complete second :: rest := by
  have hturnedLen := (turned_calls hturned).2.2.1
  rw [providerCalls_append] at h
  have hsum := congrArg List.length h
  rw [List.length_append, List.length_cons, List.length_singleton] at hsum
  obtain ⟨a, ha⟩ := List.length_eq_one_iff.mp (show (providerCalls turned).length = 1 by omega)
  obtain ⟨b, hb⟩ := List.length_eq_one_iff.mp (show (providerCalls events).length = 1 by omega)
  rw [ha, hb] at h
  obtain ⟨rfl, hrest⟩ := List.cons.inj h
  obtain ⟨rfl, -⟩ := List.cons.inj hrest
  obtain ⟨hprimary, hfallback, failure, time, hretry, hlog⟩ := turned_two hturned ha
  obtain ⟨htarget, rest, hevents⟩ := hhead b hb
  refine ⟨profile, failure, time, rest, hprofile, hprimary, htarget ▸ hfallback, hretry, ?_⟩
  rw [hlog, hevents, htarget]
  rfl

theorem disciplined_failed (hprofile : G.profiles.get? call.request.modelAlias = some profile)
    (hturned : Turned G E call.budget profile call.request turned target)
    (hfailed : TargetFailed G E call.budget target call.request events e) :
    Disciplined G E call (turned ++ events) ∧
      (ChargedOnce call (turned ++ events) ↔ ∀ answer ∈ answers (turned ++ events), Answer.Fits answer) := by
  obtain ⟨hanswers, hcharges, hlen, hmade, hdenied⟩ := turned_calls hturned
  obtain ⟨hlen', hanswers', hcharges', hmade'⟩ := targetFailed_calls hfailed
  have hno : answers (turned ++ events) = [] := by rw [answers_append, hanswers, hanswers', List.append_nil]
  refine ⟨⟨?_, fun first second h => ?_, fun made h => ?_, fun other hother hp => ?_, ?_⟩, ?_⟩
  · rw [providerCalls_append, List.length_append]
    omega
  · exact second_of_turned hprofile hturned hlen' (fun made => targetFailed_head hfailed) h
  · rw [providerCalls_append] at h
    rcases List.mem_append.mp h with h | h
    · exact hmade made h
    · exact hmade' made h
  · obtain rfl : profile = other := Option.some.inj (hprofile.symm.trans hother)
    rcases hdenied with ⟨rfl, rfl⟩ | hp'
    · cases hfailed with
      | refused _ => rfl
      | «open» hp' => exact absurd hp' hp
      | unconfigured hp' _ => exact absurd hp' hp
      | unavailable hp' _ => exact absurd hp' hp
      | raised hp' _ => exact absurd hp' hp
    · exact absurd hp' hp
  · rw [hno]
    exact Nat.zero_le _
  · unfold ChargedOnce
    rw [hno, charges_append, hcharges, hcharges']
    exact iff_of_true .nil fun _ h => absurd h List.not_mem_nil

theorem disciplined_answered {charged : List GatewayEvent} {made : ProviderCall} {response : ProviderResponse}
    (hprofile : G.profiles.get? call.request.modelAlias = some profile)
    (hturned : Turned G E call.budget profile call.request turned target) (hp : Permitted G E target call.request)
    (hon : made.On call.budget target) (hcharged : Charged call.budget ⟨target, response⟩ charged) :
    Disciplined G E call (turned ++ [GatewayEvent.complete made, .answered ⟨target, response⟩] ++ charged) ∧
      (ChargedOnce call (turned ++ [GatewayEvent.complete made, .answered ⟨target, response⟩] ++ charged) ↔
        ∀ answer ∈ answers (turned ++ [GatewayEvent.complete made, .answered ⟨target, response⟩] ++ charged), Answer.Fits answer) := by
  obtain ⟨hanswers, hcharges, hlen, hmade, hdenied⟩ := turned_calls hturned
  obtain ⟨hnone, hnone', hiff⟩ := isCharge_of_charged hcharged
  have hcalls : providerCalls ([GatewayEvent.complete made, .answered ⟨target, response⟩] ++ charged) = [made] := by
    rw [providerCalls_append, hnone]
    rfl
  have hone : answers ([GatewayEvent.complete made, .answered ⟨target, response⟩] ++ charged) = [⟨target, response⟩] := by
    rw [answers_append, hnone']
    rfl
  have hcharge : charges ([GatewayEvent.complete made, .answered ⟨target, response⟩] ++ charged) = charges charged := by
    rw [charges_append]
    rfl
  rw [List.append_assoc]
  refine ⟨⟨?_, fun first second h => ?_, fun other h => ?_, fun other hother hp' => ?_, ?_⟩, ?_⟩
  · rw [providerCalls_append, hcalls, List.length_append, List.length_singleton]
    omega
  · refine second_of_turned hprofile hturned (le_of_eq (by rw [hcalls]; rfl)) (fun other hother => ?_) h
    rw [hcalls] at hother
    obtain rfl := (List.cons.inj hother).1
    exact ⟨hon.2, _, rfl⟩
  · rw [providerCalls_append, hcalls] at h
    rcases List.mem_append.mp h with h | h
    · exact hmade other h
    · rw [List.mem_singleton.mp h]
      exact ⟨hon.1, hon.2 ▸ hp⟩
  · obtain rfl : profile = other := Option.some.inj (hprofile.symm.trans hother)
    rcases hdenied with ⟨-, rfl⟩ | hp''
    · exact absurd hp hp'
    · exact absurd hp'' hp'
  · rw [answers_append, hanswers, hone]
    exact le_rfl
  · unfold ChargedOnce
    rw [answers_append, charges_append, hanswers, hcharges, hone, hcharge, List.nil_append, List.nil_append, hiff]
    exact ⟨fun h answer hmem => List.mem_singleton.mp hmem ▸ h, fun h => h _ (List.mem_singleton_self _)⟩

theorem disciplined_of_shape (hprofile : G.profiles.get? call.request.modelAlias = some profile)
    (h : Shape G E call.budget profile call.request log) :
    Disciplined G E call log ∧ (ChargedOnce call log ↔ ∀ answer ∈ answers log, Answer.Fits answer) := by
  cases h with
  | refused => exact disciplined_nil
  | failed hturned hfailed => exact disciplined_failed hprofile hturned hfailed
  | answered hturned hp hon hcharged => exact disciplined_answered hprofile hturned hp hon hcharged

/-! ## Runs -/

/-- What a run leaves: every invocation disciplined, and the invariant. -/
theorem runCalls_done {s : GatewayState} (hcore : Core maxAttempts s) (htold : Told s) (calls : List InvokeCall) :
    (runCalls G E s calls).2.map Invocation.call = calls ∧
      (runCalls G E s calls).1.log = s.log ++ (runCalls G E s calls).2.flatMap Invocation.log ∧
      Core maxAttempts (runCalls G E s calls).1 ∧
      ∀ invocation ∈ (runCalls G E s calls).2, Disciplined G E invocation.call invocation.log ∧
        (ChargedOnce invocation.call invocation.log ↔ ∀ answer ∈ answers invocation.log, Answer.Fits answer) := by
  induction calls generalizing s with
  | nil => exact ⟨rfl, (List.append_nil _).symm, hcore, fun _ h => absurd h List.not_mem_nil⟩
  | cons call calls ih =>
    obtain ⟨hcall, hlog, hcore', htold', hshape⟩ := invoked_done hcore htold call
    obtain ⟨hcalls, hlogs, hfinal, heach⟩ := ih hcore' htold'
    refine ⟨?_, ?_, hfinal, ?_⟩
    · exact congrArg₂ List.cons hcall hcalls
    · exact hlogs.trans (by rw [hlog, List.append_assoc]; rfl)
    · intro invocation hmem
      have hcases : invocation = (invoked G E s call).2 ∨ invocation ∈ (runCalls G E (invoked G E s call).1 calls).2 :=
        List.mem_cons.mp hmem
      rcases hcases with heq | hmem
      · rw [heq, hcall]
        rcases hshape with hnil | ⟨profile, hprofile, hshape⟩
        · rw [hnil]
          exact disciplined_nil
        · exact disciplined_of_shape hprofile hshape
      · exact heach invocation hmem

end ModelGatewayAux

open ModelGatewayAux

/-- In every run of invocations of a gateway, on any budgets and whatever its providers do, each invocation makes at most two calls to a
provider, the second to the fallback after the primary was unavailable in a retryable way; each call is permitted, made while the
circuit of its provider is closed and within the attempts of its budget, and a primary that is denied is followed by nothing. An answer
is charged once, with its usage, and nothing else is: exactly where the counts of every answer of the run fit a float. -/
theorem fallback_discipline (G : ModelGateway) (E : Environment) (budgets : Nat → Llm.CallBudget) (calls : List InvokeCall) :
    Discipline G E budgets calls (runCalls G E (.initial budgets) calls) ↔
      ∀ invocation ∈ (runCalls G E (.initial budgets) calls).2, ∀ answer ∈ answers invocation.log, Answer.Fits answer := by
  have hstart := reached_initial budgets
  obtain ⟨hcalls, hlog, hcore, heach⟩ := runCalls_done (G := G) (E := E) hstart.core hstart.told calls
  constructor
  · intro h invocation hmem
    exact (heach invocation hmem).2.mp (h.charged invocation hmem)
  · intro hfits
    exact
      { made := hcalls
        log_eq := hlog
        each := fun invocation hmem => (heach invocation hmem).1
        charged := fun invocation hmem => (heach invocation hmem).2.mpr (hfits invocation hmem)
        lawful := hcore.lawful
        within := fun b => ⟨hcore.counted b, hcore.within b⟩ }

/-! ## An answer with a count beyond a float -/

/-- A profile of one target. -/
def wideProfile : ModelProfile where
  modelAlias := "fast.default"
  version := "1"
  allowedStages := [.answer]
  primary := ⟨"deepseek", "flash", .small, 0, 0, [.publicData], by decide +kernel, by decide +kernel, by decide, by decide⟩
  fallback := none
  version_bounds := by decide +kernel
  stages_nonempty := by decide
  pro_plans := fun h => h.elim nofun fun ⟨_, h, _⟩ => nomatch h
  fallback_tier := fun _ h => nomatch h
  fallback_data := fun _ h => nomatch h

def wideGateway : ModelGateway where
  providers := ["deepseek"]
  profiles := Dict.ofList [("fast.default", wideProfile)]
  inputPolicy := ⟨"1", .bootstrap, [⟨"deepseek", "flash"⟩], []⟩
  profiles_keyed modelAlias profile h := by
    by_cases heq : "fast.default" = modelAlias
    · subst heq
      obtain rfl : wideProfile = profile := Option.some.inj h
      rfl
    · rw [show Dict.ofList [("fast.default", wideProfile)] = (Dict.empty : Dict String ModelProfile).set "fast.default" wideProfile from rfl,
        Dict.get?_set_of_ne _ _ heq] at h
      nomatch h
  profiles_nonempty := by decide +kernel

/-- A provider that answers with a count of `10 ^ 400` tokens. -/
def wideEnvironment : Environment where
  clock := ⟨fun _ => 1, fun _ _ _ => le_rfl⟩
  complete _ _ := .answered ⟨"", "flash", Dict.ofList [("input_tokens", 10 ^ 400), ("output_tokens", 0)], "stop"⟩
  str _ := ""
  deploymentSecrets := []
  scan _ _ := []
  contentSha256 _ := ""
  policyChecksum _ := ""
  profileChecksum _ := ""
  promptHash _ := ""
  schemaChecksum _ := ""

theorem wide_prompt : 1 ≤ "1".length ∧ "1".length ≤ 128 := by decide +kernel

def wideCall : InvokeCall where
  budget := 0
  request :=
    { stage := .answer
      modelAlias := "fast.default"
      messages := [Dict.empty]
      toolSchema := none
      deadlineMs := 4000
      tokenBudget := 1000
      costBudget := 1
      dataClassification := .publicData
      promptVersion := "1"
      planReason := none
      messages_bounds := by decide
      deadline_bounds := by decide
      token_bounds := by decide
      cost_nonneg := by decide
      prompt_bounds := wide_prompt }

def wideBudget : Llm.CallBudget where
  deadlineMs := 4000
  tokenBudget := 1000
  costBudget := 1
  maxAttempts := 1
  startedAt := 1

/-- The provider answers and the budget is not charged: `_cost` raises before the charge. -/
theorem fallback_discipline_overflow :
    ¬Discipline wideGateway wideEnvironment (fun _ => wideBudget) [wideCall]
      (runCalls wideGateway wideEnvironment (.initial fun _ => wideBudget) [wideCall]) := by
  have hrun : ((runCalls wideGateway wideEnvironment (.initial fun _ => wideBudget) [wideCall]).2.any fun invocation =>
      (answers invocation.log).length = 1 && (charges invocation.log).length = 0) = true := by decide +kernel
  intro h
  obtain ⟨invocation, hmem, hlengths⟩ := List.any_eq_true.mp hrun
  simp only [Bool.and_eq_true, decide_eq_true_eq] at hlengths
  have hsame := (h.charged invocation hmem).length_eq
  omega

end Nl2Sql
