import Nl2Sql.Planner.Provider

/-!
# Lemmas about the planner

What the steps of the provider return, one lemma for each: a guard that passes, a plan that its model accepts, a binding that is read, a
time that only the server knows. Then the slots of a plan in terms of the proposal it was built from, and how a binding moves them.
-/

namespace Nl2Sql

open Py

namespace PlannerAux

theorem refuseIf_eq_ok {c : Prop} [Decidable c] {e : ProposalError} {u : Unit} : refuseIf c e = .ok u ↔ ¬ c := by
  unfold refuseIf
  split <;> simp_all

theorem orRefuse_eq_ok {α : Type} {e : ProposalError} {o : Option α} {a : α} : orRefuse e o = .ok a ↔ o = some a := by
  cases o <;> simp [orRefuse]

/-! ## Plans of their parts -/

/-- A plan is what its parts give, and parts that give a plan are its parts. -/
theorem of?_eq_some {intent : QueryIntent} {domain : BoundedText 1 128} {keys dims : List String} {filters : List BoundFilter}
    {time : TimeRange} {dates : List Date} {grain : QueryGrain} {strategy : SourceStrategy} {limit : Option Nat}
    {permissions slots : List String} {plan : QueryPlan} :
    QueryPlan.of? intent domain keys dims filters time dates grain strategy limit permissions slots = some plan ↔
      plan.intent = intent ∧ plan.domain = domain ∧ plan.metricKeys = keys ∧ plan.dimensions = dims ∧ plan.filters = filters ∧
        plan.timeRange = time ∧ plan.availableDates = dates ∧ plan.grain = grain ∧ plan.sourceStrategy = strategy ∧
        plan.resultLimit = limit ∧ plan.requiredPermissions = permissions ∧ plan.unresolvedSlots = slots := by
  unfold QueryPlan.of?
  constructor
  · intro h
    split at h
    · cases h
      exact ⟨rfl, rfl, rfl, rfl, rfl, rfl, rfl, rfl, rfl, rfl, rfl, rfl⟩
    · nomatch h
  · rintro ⟨rfl, rfl, rfl, rfl, rfl, rfl, rfl, rfl, rfl, rfl, rfl, rfl⟩
    rw [dif_pos ⟨⟨plan.metricKeys_length, plan.metricKeys_valid, plan.dimensions_length, plan.dimensions_valid, plan.filters_length,
      plan.permissions_length, plan.permissions_valid, plan.slots_length, plan.slots_valid⟩, plan.limit_bounds, plan.limit_ranking,
      plan.dates_length, plan.dates_trend, plan.dates_ordered, plan.dates_inside⟩]

/-- A plan with another grain and other open slots is a plan. -/
theorem exists_withSlots (plan : QueryPlan) (grain : QueryGrain) {slots : List String} (hlength : slots.length ≤ 16)
    (hvalid : validIdentifiers slots) :
    ∃ next, QueryPlan.of? plan.intent plan.domain plan.metricKeys plan.dimensions plan.filters plan.timeRange plan.availableDates grain
      plan.sourceStrategy plan.resultLimit plan.requiredPermissions slots = some next :=
  ⟨{ plan with grain := grain, unresolvedSlots := slots, slots_length := hlength, slots_valid := hvalid },
    of?_eq_some.mpr ⟨rfl, rfl, rfl, rfl, rfl, rfl, rfl, rfl, rfl, rfl, rfl, rfl⟩⟩

/-! ## The slots of a proposal -/

section Slots

variable (contract : MetricContract) (proposal : ProposalIntent)

/-- The slots of the plan that `build_plan` makes of a proposal and its time. -/
def planSlots (resolved : ResolvedTime) : PlanSlots :=
  ⟨resolved.planRange, proposal.grain,
    unresolvedSlotsOf proposal.timeConflict resolved.isUnresolved proposal.grain proposal.dimension contract⟩

/-- The open slots come in one order. -/
theorem unresolvedSlotsOf_sublist (conflict unresolved : Bool) (grain : QueryGrain) (dimension : Option String) :
    (unresolvedSlotsOf conflict unresolved grain dimension contract).Sublist ["time", "grain", "dimension"] := by
  unfold unresolvedSlotsOf failIf
  split <;> split <;> split <;> decide

theorem unresolvedSlotsOf_valid (conflict unresolved : Bool) (grain : QueryGrain) (dimension : Option String) :
    (unresolvedSlotsOf conflict unresolved grain dimension contract).length ≤ 16 ∧
      validIdentifiers (unresolvedSlotsOf conflict unresolved grain dimension contract) := by
  have hsub := unresolvedSlotsOf_sublist contract conflict unresolved grain dimension
  have hlength := hsub.length_le
  have hblank : ∀ v ∈ ["time", "grain", "dimension"], isBlank v = false := by decide
  refine ⟨Nat.le_trans hlength (by decide), fun v hv => hblank v (hsub.subset hv), List.Nodup.sublist hsub (by decide)⟩

theorem fromKeys_unresolvedSlotsOf (conflict unresolved : Bool) (grain : QueryGrain) (dimension : Option String) :
    fromKeys (unresolvedSlotsOf conflict unresolved grain dimension contract) =
      unresolvedSlotsOf conflict unresolved grain dimension contract :=
  fromKeys_of_nodup (unresolvedSlotsOf_valid contract conflict unresolved grain dimension).2.2

theorem time_mem_unresolvedSlotsOf {conflict unresolved : Bool} {grain : QueryGrain} {dimension : Option String} :
    "time" ∈ unresolvedSlotsOf conflict unresolved grain dimension contract ↔ conflict = true ∨ unresolved = true := by
  unfold unresolvedSlotsOf failIf
  split <;> split <;> split <;> simp_all

theorem grain_mem_unresolvedSlotsOf {conflict unresolved : Bool} {grain : QueryGrain} {dimension : Option String} :
    "grain" ∈ unresolvedSlotsOf conflict unresolved grain dimension contract ↔ grain ∉ contract.supportedGrains := by
  unfold unresolvedSlotsOf failIf
  split <;> split <;> split <;> simp_all

/-- A grain binding moves the slots of a plan whose grain is open as it moves the proposal. -/
theorem bindGrain_planSlots {resolved : ResolvedTime} {grain : QueryGrain} (hopen : proposal.grain ∉ contract.supportedGrains) :
    (planSlots contract proposal resolved).bindGrain contract grain = planSlots contract { proposal with grain := grain } resolved := by
  unfold PlanSlots.bindGrain planSlots unresolvedSlotsOf failIf
  simp only [hopen, not_false_eq_true, if_true]
  split <;> split <;> split <;> simp_all

/-- A time binding moves the slots of a plan whose time is open as it moves the proposal. -/
theorem bindTime_planSlots {resolved next : ResolvedTime} (text : String) (hopen : resolved.isUnresolved = true)
    (hnext : next ≠ .range carrierRange) :
    (planSlots contract proposal resolved).bindTime next =
      .ok (planSlots contract { proposal with timeText := some text, timeConflict := false } next) := by
  cases resolved with
  | range timeRange => nomatch hopen
  | unresolved reason =>
    cases next with
    | unresolved other => simp [PlanSlots.bindTime, planSlots, ResolvedTime.planRange, ResolvedTime.isUnresolved, unresolvedSlotsOf, failIf]
    | range timeRange =>
      have hne : timeRange ≠ carrierRange := fun heq => hnext (by rw [heq])
      unfold PlanSlots.bindTime planSlots unresolvedSlotsOf failIf
      simp only [hne, if_false, ResolvedTime.planRange, ResolvedTime.isUnresolved]
      split <;> split <;> simp_all

theorem bindTime_carrier (s : PlanSlots) : s.bindTime (.range carrierRange) = .error .slotBindingTimeCarrierRejected := by
  rw [PlanSlots.bindTime, if_pos rfl]

end Slots

end PlannerAux

/-! ## Bindings -/

/-- The text a binding carries. -/
def SlotBinding.text? (binding : SlotBinding) : Option String :=
  match binding.value with
  | .scalar (.str text) => some text
  | _ => none

/-- A binding whose value its slot accepts: a text, and for the grain a grain of the planner. -/
def SlotBinding.Readable (binding : SlotBinding) : Prop :=
  ∃ text, binding.text? = some text ∧ (binding.slot.val = "grain" → (grainOf? text).isSome)

/-- The text bound to the slot of the time. -/
def boundTime? (bindings : List SlotBinding) : Option String :=
  (bindings.find? fun binding => binding.slot.val = "time").bind SlotBinding.text?

/-- The grain bound to the slot of the grain. -/
def boundGrain? (bindings : List SlotBinding) : Option QueryGrain :=
  ((bindings.find? fun binding => binding.slot.val = "grain").bind SlotBinding.text?).bind grainOf?

namespace PlannerAux

/-- A proposal with the bindings in place of its clauses. -/
def withTime (proposal : ProposalIntent) : Option String → ProposalIntent
  | none => proposal
  | some text => { proposal with timeText := some text, timeConflict := false }

@[inherit_doc withTime]
def withGrain (proposal : ProposalIntent) : Option QueryGrain → ProposalIntent
  | none => proposal
  | some grain => { proposal with grain := grain }

theorem bindingText_eq_ok {seen : List String} {binding : SlotBinding} {text : String} :
    bindingText seen binding = .ok text ↔
      binding.slot.val ∉ seen ∧ (binding.slot.val = "time" ∨ binding.slot.val = "grain") ∧ binding.source = .user ∧
        binding.text? = some text := by
  unfold bindingText
  simp only [bind_eq_ok, refuseIf_eq_ok]
  constructor
  · rintro ⟨_, hseen, _, hslot, _, hsource, hvalue⟩
    refine ⟨hseen, by tauto, by simpa using hsource, ?_⟩
    unfold SlotBinding.text?
    split at hvalue
    · rename_i heq
      cases hvalue
      simp only [heq]
    · cases hvalue
  · rintro ⟨hseen, hslot, hsource, htext⟩
    refine ⟨(), hseen, (), by tauto, (), by simpa using hsource, ?_⟩
    unfold SlotBinding.text? at htext
    split at htext
    · rename_i heq
      cases htext
      simp only [heq]
    · cases htext

/-- Bindings of distinct slots among the time and the grain, by the user. -/
structure UserBindings (bindings : List SlotBinding) : Prop where
  user : ∀ binding ∈ bindings, binding.source = .user
  slots : ∀ binding ∈ bindings, binding.slot.val = "time" ∨ binding.slot.val = "grain"
  distinct : (bindings.map (·.slot.val)).Nodup

theorem UserBindings.tail {binding : SlotBinding} {rest : List SlotBinding} (h : UserBindings (binding :: rest)) : UserBindings rest :=
  ⟨fun b hb => h.user b (List.mem_cons_of_mem _ hb), fun b hb => h.slots b (List.mem_cons_of_mem _ hb),
    (List.nodup_cons.mp (by simpa using h.distinct)).2⟩

/-- The slot of the first binding is not bound again. -/
theorem UserBindings.slot_ne {binding : SlotBinding} {rest : List SlotBinding} (h : UserBindings (binding :: rest)) :
    ∀ b ∈ rest, b.slot.val ≠ binding.slot.val := by
  intro b hb heq
  have hnodup := h.distinct
  rw [List.map_cons, List.nodup_cons] at hnodup
  exact hnodup.1 (List.mem_map.mpr ⟨b, hb, heq⟩)

theorem boundTime?_eq_none {bindings : List SlotBinding} (h : ∀ b ∈ bindings, b.slot.val ≠ "time") : boundTime? bindings = none := by
  rw [boundTime?, List.find?_eq_none.mpr fun b hb => by simpa using h b hb]
  rfl

theorem boundGrain?_eq_none {bindings : List SlotBinding} (h : ∀ b ∈ bindings, b.slot.val ≠ "grain") :
    boundGrain? bindings = none := by
  rw [boundGrain?, List.find?_eq_none.mpr fun b hb => by simpa using h b hb]
  rfl

section Cons

variable {binding : SlotBinding} {rest : List SlotBinding}

theorem boundTime?_cons_time (h : binding.slot.val = "time") : boundTime? (binding :: rest) = binding.text? := by
  simp [boundTime?, h]

theorem boundGrain?_cons_time (h : binding.slot.val = "time") : boundGrain? (binding :: rest) = boundGrain? rest := by
  simp [boundGrain?, h]

theorem boundTime?_cons_grain (h : binding.slot.val = "grain") : boundTime? (binding :: rest) = boundTime? rest := by
  simp [boundTime?, h]

theorem boundGrain?_cons_grain (h : binding.slot.val = "grain") : boundGrain? (binding :: rest) = binding.text?.bind grainOf? := by
  simp [boundGrain?, h]

theorem readable_time (h : binding.slot.val = "time") : binding.Readable ↔ ∃ text, binding.text? = some text := by
  simp [SlotBinding.Readable, h]

theorem readable_grain (h : binding.slot.val = "grain") :
    binding.Readable ↔ ∃ text grain, binding.text? = some text ∧ grainOf? text = some grain := by
  simp only [SlotBinding.Readable, h, forall_const, Option.isSome_iff_exists]
  exact ⟨fun ⟨text, htext, grain, hgrain⟩ => ⟨text, grain, htext, hgrain⟩, fun ⟨text, grain, htext, hgrain⟩ => ⟨text, htext, grain, hgrain⟩⟩

end Cons

/-- The proposal with its bindings: the values take the place of its clauses, if every value is one its slot accepts. -/
theorem applySlotBindingsFrom_iff {bindings : List SlotBinding} (hb : UserBindings bindings) {seen : List String}
    (hseen : ∀ b ∈ bindings, b.slot.val ∉ seen) (proposal next : ProposalIntent) :
    applySlotBindingsFrom seen bindings proposal = .ok next ↔
      (∀ b ∈ bindings, b.Readable) ∧ next = withGrain (withTime proposal (boundTime? bindings)) (boundGrain? bindings) := by
  induction bindings generalizing seen proposal with
  | nil => simp [applySlotBindingsFrom, boundTime?, boundGrain?, withTime, withGrain, eq_comm]
  | cons binding rest ih =>
    have hrest : ∀ b ∈ rest, b.slot.val ∉ binding.slot.val :: seen := by
      intro b hmem
      simp only [List.mem_cons, not_or]
      exact ⟨hb.slot_ne b hmem, hseen b (List.mem_cons_of_mem _ hmem)⟩
    have ih := ih hb.tail hrest
    rw [applySlotBindingsFrom]
    simp only [bind_eq_ok, bindingText_eq_ok, List.forall_mem_cons]
    rcases hb.slots binding List.mem_cons_self with hslot | hslot
    · rw [boundTime?_cons_time hslot, boundGrain?_cons_time hslot, readable_time hslot]
      have hnone : boundTime? rest = none := boundTime?_eq_none fun b hmem => hslot ▸ hb.slot_ne b hmem
      constructor
      · rintro ⟨text, ⟨-, -, -, htext⟩, hnext⟩
        rw [if_pos hslot, ih, hnone] at hnext
        rw [htext]
        exact ⟨⟨⟨text, rfl⟩, hnext.1⟩, hnext.2⟩
      · rintro ⟨⟨⟨text, htext⟩, hreadable⟩, hnext⟩
        refine ⟨text, ⟨hseen _ List.mem_cons_self, Or.inl hslot, hb.user _ List.mem_cons_self, htext⟩, ?_⟩
        rw [if_pos hslot, ih, hnone]
        rw [htext] at hnext
        exact ⟨hreadable, hnext⟩
    · have htime : binding.slot.val ≠ "time" := by rw [hslot]; decide
      rw [boundTime?_cons_grain hslot, boundGrain?_cons_grain hslot, readable_grain hslot]
      have hnone : boundGrain? rest = none := boundGrain?_eq_none fun b hmem => hslot ▸ hb.slot_ne b hmem
      have hswap (grain : QueryGrain) : withGrain (withTime { proposal with grain := grain } (boundTime? rest)) none =
          withGrain (withTime proposal (boundTime? rest)) (some grain) := by
        cases boundTime? rest <;> rfl
      constructor
      · rintro ⟨text, ⟨-, -, -, htext⟩, hnext⟩
        rw [if_neg htime, bind_eq_ok] at hnext
        obtain ⟨grain, hgrain, hnext⟩ := hnext
        rw [orRefuse_eq_ok] at hgrain
        rw [ih, hnone, hswap] at hnext
        rw [htext, Option.bind_some, hgrain]
        exact ⟨⟨⟨text, grain, rfl, hgrain⟩, hnext.1⟩, hnext.2⟩
      · rintro ⟨⟨⟨text, grain, htext, hgrain⟩, hreadable⟩, hnext⟩
        refine ⟨text, ⟨hseen _ List.mem_cons_self, Or.inr hslot, hb.user _ List.mem_cons_self, htext⟩, ?_⟩
        rw [if_neg htime, bind_eq_ok]
        refine ⟨grain, orRefuse_eq_ok.mpr hgrain, ?_⟩
        rw [ih, hnone, hswap]
        rw [htext, Option.bind_some, hgrain] at hnext
        exact ⟨hreadable, hnext⟩

/-- The time a replan resolves: of the binding if there is one, else the time the plan has. -/
def replanTime (U : UnicodeForms) (clock : ClockReading) (resolved : ResolvedTime) : Option String → Option ResolvedTime
  | none => some resolved
  | some text => resolveTimeExpression U text clock

/-- The slots of a plan with its bindings are the slots of the proposal with the same bindings, at the time a replan resolves. -/
theorem bindPlanSlotsFrom_iff {U : UnicodeForms} {clock : ClockReading} {contract : MetricContract} {bindings : List SlotBinding}
    (hb : UserBindings bindings) {seen : List String} (hseen : ∀ b ∈ bindings, b.slot.val ∉ seen) (proposal : ProposalIntent)
    (resolved : ResolvedTime) (htime : (∃ b ∈ bindings, b.slot.val = "time") → resolved.isUnresolved = true)
    (hgrain : (∃ b ∈ bindings, b.slot.val = "grain") → proposal.grain ∉ contract.supportedGrains) (s : PlanSlots) :
    bindPlanSlotsFrom U clock contract seen bindings (planSlots contract proposal resolved) = .ok s ↔
      (∀ b ∈ bindings, b.Readable) ∧ ∃ next, replanTime U clock resolved (boundTime? bindings) = some next ∧
        (boundTime? bindings ≠ none → next ≠ .range carrierRange) ∧
        s = planSlots contract (withGrain (withTime proposal (boundTime? bindings)) (boundGrain? bindings)) next := by
  induction bindings generalizing seen proposal resolved with
  | nil => simp [bindPlanSlotsFrom, boundTime?, boundGrain?, withTime, withGrain, replanTime, eq_comm]
  | cons binding rest ih =>
    have hrest : ∀ b ∈ rest, b.slot.val ∉ binding.slot.val :: seen := by
      intro b hmem
      simp only [List.mem_cons, not_or]
      exact ⟨hb.slot_ne b hmem, hseen b (List.mem_cons_of_mem _ hmem)⟩
    have ih := ih hb.tail hrest
    rw [bindPlanSlotsFrom]
    simp only [bind_eq_ok, bindingText_eq_ok, List.forall_mem_cons]
    rcases hb.slots binding List.mem_cons_self with hslot | hslot
    · have hopen := htime ⟨binding, List.mem_cons_self, hslot⟩
      have hother : ∀ b ∈ rest, b.slot.val ≠ "time" := fun b hmem => hslot ▸ hb.slot_ne b hmem
      have hnone : boundTime? rest = none := boundTime?_eq_none hother
      rw [boundTime?_cons_time hslot, boundGrain?_cons_time hslot, readable_time hslot]
      have ih (text : String) (next : ResolvedTime) := ih (withTime proposal (some text)) next
        (fun ⟨b, hmem, heq⟩ => absurd heq (hother b hmem)) fun ⟨b, hmem, heq⟩ => hgrain ⟨b, List.mem_cons_of_mem _ hmem, heq⟩
      constructor
      · rintro ⟨text, ⟨-, -, -, htext⟩, hs⟩
        rw [if_pos hslot] at hs
        simp only [bind_eq_ok, orRefuse_eq_ok] at hs
        obtain ⟨next, hnext, s', hs', hs⟩ := hs
        have hne : next ≠ .range carrierRange := by
          rintro rfl
          rw [bindTime_carrier] at hs'
          nomatch hs'
        rw [bindTime_planSlots contract proposal text hopen hne] at hs'
        cases hs'
        obtain ⟨hreadable, next', hnext', -, hs⟩ := (ih text next).mp hs
        rw [hnone] at hnext' hs
        cases hnext'
        rw [htext]
        exact ⟨⟨⟨text, rfl⟩, hreadable⟩, next, hnext, fun _ => hne, hs⟩
      · rintro ⟨⟨⟨text, htext⟩, hreadable⟩, next, hnext, hne, hs⟩
        rw [htext] at hnext hne hs
        have hne := hne (by simp)
        refine ⟨text, ⟨hseen _ List.mem_cons_self, Or.inl hslot, hb.user _ List.mem_cons_self, htext⟩, ?_⟩
        rw [if_pos hslot]
        simp only [bind_eq_ok, orRefuse_eq_ok]
        refine ⟨next, hnext, _, bindTime_planSlots contract proposal text hopen hne, (ih text next).mpr ?_⟩
        rw [hnone]
        exact ⟨hreadable, next, rfl, fun h => absurd rfl h, hs⟩
    · have hopen := hgrain ⟨binding, List.mem_cons_self, hslot⟩
      have hother : ∀ b ∈ rest, b.slot.val ≠ "grain" := fun b hmem => hslot ▸ hb.slot_ne b hmem
      have hnone : boundGrain? rest = none := boundGrain?_eq_none hother
      have hslot' : binding.slot.val ≠ "time" := by rw [hslot]; decide
      rw [boundTime?_cons_grain hslot, boundGrain?_cons_grain hslot, readable_grain hslot]
      have hswap (grain : QueryGrain) : withGrain (withTime { proposal with grain := grain } (boundTime? rest)) none =
          withGrain (withTime proposal (boundTime? rest)) (some grain) := by
        cases boundTime? rest <;> rfl
      have ih (grain : QueryGrain) := ih { proposal with grain := grain } resolved
        (fun ⟨b, hmem, heq⟩ => htime ⟨b, List.mem_cons_of_mem _ hmem, heq⟩) (fun ⟨b, hmem, heq⟩ => absurd heq (hother b hmem))
      simp only [hnone, hswap] at ih
      constructor
      · rintro ⟨text, ⟨-, -, -, htext⟩, hs⟩
        rw [if_neg hslot'] at hs
        simp only [bind_eq_ok, orRefuse_eq_ok] at hs
        obtain ⟨grain, hgrain', hs⟩ := hs
        rw [bindGrain_planSlots contract proposal hopen, ih] at hs
        rw [htext, Option.bind_some, hgrain']
        exact ⟨⟨⟨text, grain, rfl, hgrain'⟩, hs.1⟩, hs.2⟩
      · rintro ⟨⟨⟨text, grain, htext, hgrain'⟩, hreadable⟩, hs⟩
        refine ⟨text, ⟨hseen _ List.mem_cons_self, Or.inr hslot, hb.user _ List.mem_cons_self, htext⟩, ?_⟩
        rw [if_neg hslot']
        simp only [bind_eq_ok, orRefuse_eq_ok]
        refine ⟨grain, hgrain', ?_⟩
        rw [bindGrain_planSlots contract proposal hopen, ih]
        rw [htext, Option.bind_some, hgrain'] at hs
        exact ⟨hreadable, hs⟩

end PlannerAux

/-! ## What the provider reads from the server -/

/-- A time that only the server knows, and knows now: the authoritative date, or the window of available dates. -/
def DeterministicQueryPlanProvider.ServerTime (p : DeterministicQueryPlanProvider) (text : String) : Prop :=
  (p.forms.clause text = "latest authoritative" ∧ p.authoritativeDate ≠ none) ∨
    (p.forms.clause text = "recent 7 available" ∧ p.availableDates ≠ [])

instance (p : DeterministicQueryPlanProvider) (text : String) : Decidable (p.ServerTime text) :=
  inferInstanceAs (Decidable (_ ∨ _))

namespace PlannerAux

variable {p : DeterministicQueryPlanProvider}

/-- The closed grammar has no word for the times of the server. -/
theorem resolveTimeExpression_server {U : UnicodeForms} {text : String} (clock : ClockReading)
    (h : U.clause text = "latest authoritative" ∨ U.clause text = "recent 7 available") :
    ∃ reason, resolveTimeExpression U text clock = some (.unresolved reason) := by
  have hperiod (current : Date) : periodFor ((relativeAliases.get? (U.clause text)).getD (U.clause text)) current = none := by
    rcases h with h | h <;> rw [h] <;> rfl
  have hne : U.clause text ≠ "" := by rcases h with h | h <;> rw [h] <;> decide
  cases clock with
  | invalidClock => exact ⟨_, rfl⟩
  | invalidTimezone => exact ⟨_, rfl⟩
  | date current =>
    refine ⟨.unparseableTimeExpression, ?_⟩
    rw [resolveTimeExpression, resolveExpression]
    simp only [hne, if_false, hperiod]

/-- The dates that `_resolve_time` reads are those of the window, whether the proposal carries them or not. -/
theorem carries_dates {dates : List Date} (h : dates = [] ∨ dates = p.availableDates) :
    (if dates = [] then p.availableDates else dates) = p.availableDates := by
  rcases h with h | h
  · rw [if_pos h]
  · rw [h]
    split <;> simp_all

/-- A time of the server is resolved, or its model raises. -/
theorem resolveClause_server {dates : List Date} (hdates : dates = [] ∨ dates = p.availableDates) {text : String}
    (h : p.ServerTime text) {resolved : ResolvedTime} (hresolved : p.resolveClause dates text = some resolved) :
    resolved.isUnresolved = false := by
  have hrange {start stop : Date} (heq : (TimeRange.of? start stop).map ResolvedTime.range = some resolved) :
      resolved.isUnresolved = false := by
    obtain ⟨timeRange, -, rfl⟩ := Option.map_eq_some_iff.mp heq
    rfl
  rw [DeterministicQueryPlanProvider.resolveClause, carries_dates hdates] at hresolved
  rcases h with ⟨hclause, hdate⟩ | ⟨hclause, hwindow⟩
  · rw [if_pos hclause] at hresolved
    obtain ⟨date, hdate⟩ := Option.ne_none_iff_exists'.mp hdate
    simp only [hdate] at hresolved
    exact hrange hresolved
  · rw [if_neg (by rw [hclause]; decide), if_pos hclause] at hresolved
    obtain ⟨first, rest, heq⟩ := List.exists_cons_of_ne_nil hwindow
    simp only [heq, List.head?_cons, List.getLast?_cons] at hresolved
    exact hrange hresolved

/-- Any other time is what the closed grammar gives, up to the reason it is open for. -/
theorem resolveClause_grammar {dates : List Date} (hdates : dates = [] ∨ dates = p.availableDates) {text : String}
    (h : ¬ p.ServerTime text) :
    p.resolveClause dates text = resolveTimeExpression p.forms text p.clock ∨
      ∃ a b, p.resolveClause dates text = some (.unresolved a) ∧
        resolveTimeExpression p.forms text p.clock = some (.unresolved b) := by
  unfold DeterministicQueryPlanProvider.ServerTime at h
  push Not at h
  rw [DeterministicQueryPlanProvider.resolveClause, carries_dates hdates]
  by_cases hlatest : p.forms.clause text = "latest authoritative"
  · obtain ⟨reason, hreason⟩ := resolveTimeExpression_server p.clock (Or.inl hlatest)
    rw [if_pos hlatest, h.1 hlatest]
    exact Or.inr ⟨_, reason, rfl, hreason⟩
  · rw [if_neg hlatest]
    by_cases hrecent : p.forms.clause text = "recent 7 available"
    · obtain ⟨reason, hreason⟩ := resolveTimeExpression_server p.clock (Or.inr hrecent)
      rw [if_pos hrecent, h.2 hrecent]
      exact Or.inr ⟨_, reason, rfl, hreason⟩
    · rw [if_neg hrecent]
      exact Or.inl rfl

/-! ## Proposals that become plans -/

/-- A proposal is of the candidate it was parsed for. -/
theorem parseProposal_candidate {U : UnicodeForms} {question : String} {candidate : MetricCandidate} {proposal : ProposalIntent}
    (h : parseProposal U question candidate = .ok proposal) : proposal.candidate = candidate := by
  unfold parseProposal at h
  split at h
  · nomatch h
  · simp only [bind_eq_ok] at h
    obtain ⟨-, -, s, -, h⟩ := h
    unfold Clauses.finish at h
    simp only [bind_eq_ok] at h
    obtain ⟨_, -, _, -, _, -, _, -, _, -, h⟩ := h
    cases h
    rfl

/-- A question is parsed without dates. -/
theorem parseQuestion_availableDates {question : String} {context : ContextBundle} {proposal : ProposalIntent}
    (h : p.parseQuestion question context = .ok proposal) : proposal.availableDates = [] := by
  unfold DeterministicQueryPlanProvider.parseQuestion at h
  split at h
  · nomatch h
  · nomatch h
  · split at h
    · nomatch h
    · simp only at h
      split at h
      · nomatch h
      · unfold parseProposal at h
        split at h
        · nomatch h
        · simp only [bind_eq_ok] at h
          obtain ⟨-, -, s, -, h⟩ := h
          unfold Clauses.finish at h
          simp only [bind_eq_ok] at h
          obtain ⟨_, -, _, -, _, -, _, -, _, -, h⟩ := h
          cases h
          rfl
      · nomatch h

theorem bindAvailableDates_carries {proposal : ProposalIntent} (h : proposal.availableDates = []) :
    (p.bindAvailableDates proposal).availableDates = [] ∨ (p.bindAvailableDates proposal).availableDates = p.availableDates := by
  unfold DeterministicQueryPlanProvider.bindAvailableDates
  split
  · exact Or.inr rfl
  · exact Or.inl h

@[simp] theorem bindAvailableDates_candidate (proposal : ProposalIntent) :
    (p.bindAvailableDates proposal).candidate = proposal.candidate := by
  unfold DeterministicQueryPlanProvider.bindAvailableDates
  split <;> rfl

/-- A conflict of time clauses leaves the time open. -/
theorem resolveTime_conflict {proposal : ProposalIntent} {resolved : ResolvedTime} (h : p.resolveTime proposal = some resolved)
    (hconflict : proposal.timeConflict = true) : resolved.isUnresolved = true := by
  unfold DeterministicQueryPlanProvider.resolveTime at h
  split at h
  · cases h
    rfl
  · rw [if_pos hconflict] at h
    cases h
    rfl

/-- A time that is resolved is the time of a clause, and of only one. -/
theorem resolveTime_range {proposal : ProposalIntent} {timeRange : TimeRange} (h : p.resolveTime proposal = some (.range timeRange)) :
    proposal.timeText ≠ none ∧ proposal.timeConflict = false := by
  unfold DeterministicQueryPlanProvider.resolveTime at h
  split at h
  · nomatch h
  · rename_i text htext
    split at h
    · nomatch h
    · rename_i hconflict
      exact ⟨by simp [htext], by simpa using hconflict⟩

/-- A plan is built of a proposal that names no organization, and its parts are those of the proposal. -/
theorem buildPlan_eq_ok {proposal : ProposalIntent} {resolved : ResolvedTime} {contract : MetricContract} {plan : QueryPlan} :
    buildPlan proposal resolved contract = .ok plan ↔
      requireNoOrganizationScope proposal = .ok () ∧
        QueryPlan.of? proposal.intent contract.planDomain [proposal.candidate.assetId]
          (if proposal.intent.grouped then proposal.dimension.toList.filter (· ≠ "") else []) proposal.filters resolved.planRange
          proposal.availableDates proposal.grain .aggregateFirst proposal.resultLimit contract.requiredPermissions
          (planSlots contract proposal resolved).unresolved = some plan := by
  unfold buildPlan
  simp only [bind_eq_ok, orRefuse_eq_ok, fromKeys_unresolvedSlotsOf]
  exact ⟨fun ⟨_, h, h'⟩ => ⟨h, h'⟩, fun ⟨h, h'⟩ => ⟨(), h, h'⟩⟩

/-- The slots of a plan are those of the proposal it was built from. -/
theorem planSlots_of_buildPlan {proposal : ProposalIntent} {resolved : ResolvedTime} {contract : MetricContract} {plan : QueryPlan}
    (h : buildPlan proposal resolved contract = .ok plan) :
    planSlots contract proposal resolved = ⟨plan.timeRange, plan.grain, plan.unresolvedSlots⟩ := by
  obtain ⟨-, h⟩ := buildPlan_eq_ok.mp h
  obtain ⟨-, -, -, -, -, htime, -, hgrain, -, -, -, hslots⟩ := of?_eq_some.mp h
  rw [htime, hgrain, hslots]
  rfl

/-- With a plan of the proposal at hand, a plan of the proposal with bindings is that plan with other slots. -/
theorem buildPlan_bound {proposal : ProposalIntent} {resolved next : ResolvedTime} {contract : MetricContract} {base plan : QueryPlan}
    (hbase : buildPlan proposal resolved contract = .ok base) (text : Option String) (grain : Option QueryGrain) :
    buildPlan (withGrain (withTime proposal text) grain) next contract = .ok plan ↔
      QueryPlan.of? base.intent base.domain base.metricKeys base.dimensions base.filters
        (planSlots contract (withGrain (withTime proposal text) grain) next).timeRange base.availableDates
        (planSlots contract (withGrain (withTime proposal text) grain) next).grain base.sourceStrategy base.resultLimit
        base.requiredPermissions (planSlots contract (withGrain (withTime proposal text) grain) next).unresolved = some plan := by
  obtain ⟨horg, hparts⟩ := buildPlan_eq_ok.mp hbase
  obtain ⟨hintent, hdomain, hkeys, hdims, hfilters, -, hdates, -, hstrategy, hlimit, hpermissions, -⟩ := of?_eq_some.mp hparts
  rw [buildPlan_eq_ok, hintent, hdomain, hkeys, hdims, hfilters, hdates, hstrategy, hlimit, hpermissions]
  have horg' : requireNoOrganizationScope (withGrain (withTime proposal text) grain) = .ok () := by
    cases text <;> cases grain <;> exact horg
  rw [and_iff_right horg']
  cases text <;> cases grain <;> rfl

end PlannerAux

end Nl2Sql
