import Nl2Sql.Engine.Ownership

/-!
# What a request is keyed, authorized and routed by

No two users reach one thread of the checkpoint store. The authorization that a request carries into its run decides as it was given. And a
request that is riskier than another is never routed cheaper.
-/

namespace Nl2Sql

open Py Engine

namespace RequestsAux

/-! ## Keys -/

theorem byte_inj {a b : UInt8} (h : Char.ofNat a.toNat = Char.ofNat b.toNat) : a = b := by
  have hbyte (c : UInt8) : (Char.ofNat c.toNat).toNat = c.toNat := by
    have hvalid : c.toNat.isValidChar := .inl (c.toNat_lt.trans (by decide))
    rw [Char.ofNat, dif_pos hvalid]
    rfl
  exact UInt8.toNat_inj.mp ((hbyte a).symm.trans ((congrArg Char.toNat h).trans (hbyte b)))

theorem hexDigit_inj : ∀ m n : Fin 16, hexDigit m.val = hexDigit n.val → m = n := by decide

theorem ne_of_unreserved {byte : UInt8} (h : isUnreserved byte = true) : Char.ofNat byte.toNat ≠ '%' := by
  intro hchar
  rw [isUnreserved, hchar] at h
  exact absurd h (by decide)

/-- The codes of the bytes are a prefix code: what starts two equal texts is one byte. -/
theorem quoteByte_append_inj {a b : UInt8} {x y : List Char} (h : quoteByte a ++ x = quoteByte b ++ y) : a = b ∧ x = y := by
  unfold quoteByte at h
  split_ifs at h with ha hb hb
  · obtain ⟨hchar, hrest⟩ := List.cons.inj h
    exact ⟨byte_inj hchar, hrest⟩
  · exact absurd (List.cons.inj h).1 (ne_of_unreserved ha)
  · exact absurd (List.cons.inj h).1.symm (ne_of_unreserved hb)
  · obtain ⟨-, hrest⟩ := List.cons.inj h
    obtain ⟨hhigh, hrest⟩ := List.cons.inj hrest
    obtain ⟨hlow, hrest⟩ := List.cons.inj hrest
    have hhigh := hexDigit_inj ⟨a.toNat / 16, by have := a.toNat_lt; omega⟩ ⟨b.toNat / 16, by have := b.toNat_lt; omega⟩ hhigh
    have hlow := hexDigit_inj ⟨a.toNat % 16, by omega⟩ ⟨b.toNat % 16, by omega⟩ hlow
    rw [Fin.mk.injEq] at hhigh hlow
    exact ⟨UInt8.toNat_inj.mp (by omega), hrest⟩

theorem flatMap_quoteByte_inj : ∀ {s t : List UInt8}, s.flatMap quoteByte = t.flatMap quoteByte → s = t := by
  have hne (byte : UInt8) (rest : List Char) : quoteByte byte ++ rest ≠ [] := by
    unfold quoteByte
    split_ifs <;> simp
  intro s
  induction s with
  | nil =>
    rintro (_ | ⟨b, t⟩) h
    · rfl
    · exact absurd h.symm (hne b _)
  | cons a s ih =>
    rintro (_ | ⟨b, t⟩) h
    · exact absurd h (hne a _)
    · obtain ⟨rfl, hrest⟩ := quoteByte_append_inj h
      rw [ih hrest]

theorem quote_inj {s t : String} (h : quote s = quote t) : s = t := by
  have hbytes := flatMap_quoteByte_inj (String.ofList_injective h)
  exact String.toByteArray_inj.mp (ByteArray.ext (Array.toList_inj.mp hbytes))

theorem length_uuid (u : Uuid) : u.val.toList.length = 36 := by
  have h := u.property
  rw [isUuidText, Bool.and_eq_true, decide_eq_true_eq] at h
  exact String.length_toList.trans h.1

/-! ## The carrier -/

theorem mapM_str {read : Json → Option String} (hread : ∀ text, read (.str text) = some text) (texts : List String) :
    (texts.map Json.str).mapM read = some texts := by
  induction texts with
  | nil => rfl
  | cons text texts ih => simp [hread, ih]

/-- An authorization is read back from its payload as it was. -/
theorem read_toJson (a : AuthorizationContext) : authorizationFromPayload (some a.toJson) = some a := by
  obtain ⟨members, hpayload, hnames, hversion, hrevision, henabled, hlevel, hids⟩ : ∃ members, a.toJson = .obj members ∧
      members.map Prod.fst = ["schema_version", "authorization_revision", "agent_enabled", "scope_level", "allowed_scope_ids"] ∧
      Json.member? "schema_version" members = some (.str "1.0") ∧
      Json.member? "authorization_revision" members = some (.str a.authorizationRevision.val) ∧
      Json.member? "agent_enabled" members = some (.bool a.agentEnabled) ∧
      Json.member? "scope_level" members = some (.str a.scopeLevel.text) ∧
      Json.member? "allowed_scope_ids" members = some (.arr (a.allowedScopeIds.map .str)) := ⟨_, rfl, rfl, rfl, rfl, rfl, rfl, rfl⟩
  have hknown : ScopeLevel.of? a.scopeLevel.text = some a.scopeLevel := by cases a.scopeLevel <;> rfl
  rw [hpayload, authorizationFromPayload, ← hnames, if_neg]
  · simp only [hversion, hrevision, henabled, hlevel, hids, hknown, Option.bind_eq_bind, Option.bind_some]
    rw [mapM_str fun _ => rfl, Option.bind_some, dif_pos ⟨a.authorizationRevision.property, a.revision_non_blank, a.ids_valid⟩]
  · rintro ⟨m, hm, hnot⟩
    exact hnot (List.mem_map_of_mem hm)

theorem carried (context : RequestContext) : authorizationContextFromConfig (runtimeConfig context) = context.authorization := by
  unfold authorizationContextFromConfig runtimeConfig
  cases context.authorization with
  | none => rfl
  | some a => exact read_toJson a

/-! ## Routes -/

/-- What a route costs, from the cheapest. -/
def cost : RouteName → Nat
  | .fast => 0
  | .standard => 1
  | .deep => 2

/-- Signals that report no more than others, with no smaller fast budget. -/
structure Calmer (s t : RiskSignals) : Prop where
  restricted : s.restrictedData → t.restrictedData
  tables : s.tableCount ≤ t.tableCount
  ambiguous : s.ambiguousMetricOrFilter → t.ambiguousMetricOrFilter
  dynamic : s.dynamicCalculation → t.dynamicCalculation
  unknown : s.unknownExplainCost → t.unknownExplainCost
  model : s.requiresModel → t.requiresModel
  budget : t.fastBudgetAvailable → s.fastBudgetAvailable

theorem toNat_mono {b c : Bool} (h : b → c) : b.toNat ≤ c.toNat := by
  cases b <;> cases c <;> simp_all

theorem Calmer.score_le {s t : RiskSignals} (h : Calmer s t) : s.score ≤ t.score := by
  have hrestricted := toNat_mono h.restricted
  have hambiguous := toNat_mono h.ambiguous
  have hdynamic := toNat_mono h.dynamic
  have hunknown := toNat_mono h.unknown
  have htables : (decide (3 ≤ s.tableCount)).toNat ≤ (decide (3 ≤ t.tableCount)).toNat :=
    toNat_mono fun hmany => decide_eq_true ((of_decide_eq_true hmany).trans h.tables)
  unfold RiskSignals.score
  omega

/-- What the fast route asks for. -/
abbrev Fast (policy : RoutePolicy) (s : RiskSignals) (confidence : ℚ) : Prop :=
  (s.score ≤ policy.fastMaxRisk ∧ policy.fastMinConfidence ≤ confidence ∧ s.tableCount ≤ policy.fastMaxTables) ∧
    s.requiresModel = false ∧ s.fastBudgetAvailable = true

/-- What the standard route asks for. -/
abbrev Standard (policy : RoutePolicy) (s : RiskSignals) (confidence : ℚ) : Prop :=
  s.score ≤ policy.standardMaxRisk ∧ policy.standardMinConfidence ≤ confidence

theorem cost_chooseRoute (checksum : RoutePolicy → Sha256) (policy : RoutePolicy) (s : RiskSignals) (confidence : ℚ) :
    cost (chooseRoute checksum s confidence policy).route =
      if Fast policy s confidence then 0 else if Standard policy s confidence then 1 else 2 := by
  unfold chooseRoute
  by_cases hfast : Fast policy s confidence
  · simp [hfast, cost]
  · by_cases hstandard : Standard policy s confidence
    · simp only [if_neg hfast, if_pos hstandard]
      rfl
    · simp only [if_neg hfast, if_neg hstandard]
      rfl

theorem Calmer.fast {policy : RoutePolicy} {s t : RiskSignals} (h : Calmer s t) {high low : ℚ} (hconfidence : low ≤ high)
    (hfast : Fast policy t low) : Fast policy s high := by
  obtain ⟨⟨hrisk, hsure, htables⟩, hmodel, hbudget⟩ := hfast
  refine ⟨⟨h.score_le.trans hrisk, hsure.trans hconfidence, h.tables.trans htables⟩, ?_, h.budget hbudget⟩
  by_contra hneeds
  exact absurd ((h.model (Bool.eq_true_of_not_eq_false hneeds)).symm.trans hmodel) (by decide)

theorem Calmer.standard {policy : RoutePolicy} {s t : RiskSignals} (h : Calmer s t) {high low : ℚ} (hconfidence : low ≤ high)
    (hstandard : Standard policy t low) : Standard policy s high :=
  ⟨h.score_le.trans hstandard.1, hstandard.2.trans hconfidence⟩

end RequestsAux

open RequestsAux

/-- The key of a thread in the checkpoint store says whose thread it is, and which: no user's requests reach the threads of another. -/
theorem internalThreadId_inj (context other : RequestContext) :
    internalThreadId context = internalThreadId other ↔ context.userId = other.userId ∧ context.threadId = other.threadId := by
  constructor
  · intro h
    have hlist := congrArg String.toList h
    simp only [internalThreadId, String.toList_append] at hlist
    -- the thread is the last 36 characters
    obtain ⟨howner, hthread⟩ := List.append_inj' hlist (by rw [length_uuid, length_uuid])
    have howner := List.append_cancel_left (List.append_cancel_right howner)
    exact ⟨Subtype.ext (quote_inj (String.toList_injective howner)), Subtype.ext (String.toList_injective hthread)⟩
  · rintro ⟨howner, hthread⟩
    rw [internalThreadId, howner, hthread, internalThreadId]

/-- The authorization of a request decides behind the configuration of its run as it was given, and a run that is bound to one takes it back from
the payload of a resume, and no other. -/
theorem carried_authorization (context : RequestContext) (required : Bool) (revision : Option String) (level : Option ScopeLevel)
    (scope : Option String) {D : EngineDigests} (w : WorkChannels D.toCalculationDigests) (bound : AuthorizationContext) :
    evaluateConfigAuthorization (runtimeConfig context) required revision level scope =
        context.authorization.elim (if required then some .deny else none) (fun a => some (evaluateAuthorization a revision level scope)) ∧
      ∀ supplied : AuthorizationContext, authorizationRunBindingFailure { w with authorizationContext := some bound }
        (authorizationFromPayload (some supplied.toJson)) = false ↔ supplied = bound := by
  refine ⟨?_, fun supplied => ?_⟩
  · rw [evaluateConfigAuthorization, carried]
    cases context.authorization <;> rfl
  · rw [read_toJson]
    change (!sameAuthorization supplied bound) = false ↔ _
    rw [Bool.not_eq_false', sameAuthorization, decide_eq_true_eq]
    obtain ⟨⟩ := supplied
    obtain ⟨⟩ := bound
    simp

/-- More risk, less confidence, a model that is needed or a fast budget that is spent never lead to a cheaper route: under any policy. -/
theorem chooseRoute_mono (checksum : RoutePolicy → Sha256) (policy : RoutePolicy) {s t : RiskSignals} (h : Calmer s t) {high low : ℚ}
    (hconfidence : low ≤ high) :
    cost (chooseRoute checksum s high policy).route ≤ cost (chooseRoute checksum t low policy).route := by
  rw [cost_chooseRoute, cost_chooseRoute]
  by_cases hfast : Fast policy t low
  · rw [if_pos (h.fast hconfidence hfast)]
    exact Nat.zero_le _
  · by_cases hstandard : Standard policy t low
    · rw [if_neg hfast, if_pos hstandard, if_pos (h.standard hconfidence hstandard)]
      split <;> simp
    · rw [if_neg hfast, if_neg hstandard]
      split_ifs <;> simp

/-- A checksum of a policy. -/
def bootstrapChecksum : Sha256 := ⟨"83d515de564bde29265f84d482a888b0cb14ed29b62cbc1b8b0a6a4a500ca48e", Eq.refl true⟩

/-- A table more, a model that is needed and less confidence, under the bootstrap policy. -/
theorem chooseRoute_mono_bootstrap :
    cost (chooseRoute (fun _ => bootstrapChecksum) ⟨false, 1, false, false, false, false, true, by decide⟩ (9 / 10) bootstrapRoutePolicy).route ≤
      cost (chooseRoute (fun _ => bootstrapChecksum) ⟨false, 2, false, false, false, true, true, by decide⟩ (3 / 5) bootstrapRoutePolicy).route :=
  chooseRoute_mono _ _ ⟨by decide, by decide, by decide, by decide, by decide, by decide, by decide⟩ (by norm_num)

end Nl2Sql
