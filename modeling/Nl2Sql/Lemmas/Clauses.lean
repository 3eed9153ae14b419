import Nl2Sql.Lemmas.Planner

/-!
# The clauses of a question, one by one

`parse_proposal` reads the clauses of a question in one loop that remembers what was claimed. Here each clause is read on its own: what
its text means does not depend on the others, and the loop adds to it only that no name but the time is claimed twice. What the loop ends
with is then known from the list of clauses, and what becomes of it is known clause by clause: no clause that names an organization, a
group or a limit is left in an accepted question.
-/

namespace Nl2Sql

open Py

/-- A clause of a question. -/
inductive Clause where
  | time (value : String)
  | grain (grain : QueryGrain)
  | dim (value : String)
  | intent (intent : QueryIntent)
  | top (limit : Nat)
  | filter (filter : BoundFilter)

namespace Clause

/-- The name a clause claims. -/
def name : Clause → String
  | time _ => "time"
  | grain _ => "grain"
  | dim _ => "dim"
  | intent _ => "intent"
  | top _ => "top"
  | filter item => "filter." ++ item.fieldRef.val

def time? : Clause → Option String
  | time value => some value
  | _ => none

def grain? : Clause → Option QueryGrain
  | grain value => some value
  | _ => none

def dim? : Clause → Option String
  | dim value => some value
  | _ => none

def intent? : Clause → Option QueryIntent
  | intent value => some value
  | _ => none

def top? : Clause → Option Nat
  | top limit => some limit
  | _ => none

def filter? : Clause → Option BoundFilter
  | filter item => some item
  | _ => none

/-- A clause that an accepted question may have: it names no dimension but the city company, and asks for no groups and no limit. -/
def Plain : Clause → Prop
  | dim value => value = "city_company"
  | intent value => value.grouped = false
  | top _ => False
  | _ => True

/-- A clause that names no organization: no dimension of an organization, and no filter but of the user. -/
def NoOrganization : Clause → Prop
  | dim value => value ∉ scopeNames
  | filter item => item.source = .user
  | _ => True

end Clause

/-! ## The text of a clause -/

/-- The key of a clause `key=value`. -/
def clauseKey (token : String) : String := strip (partition '=' token).1

/-- The value of a clause `key=value`. -/
def clauseValue? (token : String) : Option String := (partition '=' token).2.map strip

/-- The field of a filter clause. -/
def filterField (key : String) : String := strip (String.ofList (key.toList.drop 7))

/-- The name that the clause of a token claims. -/
def clauseName (token : String) : String :=
  if startsWith "filter." (clauseKey token) then "filter." ++ filterField (clauseKey token) else clauseKey token

/-- A clause `key=value` on its own. -/
def readKeyed (contract : MetricContract) (key value : String) : Except ProposalError Clause :=
  if key = "time" then if value = "" then .error .emptyTimeClause else .ok (.time value)
  else if key = "grain" then (orRefuse (.unknownGrain value) (grainOf? value)).map .grain
  else if key = "dim" then (requireOrganizationScopeAuthorized value).map fun _ => .dim value
  else if key = "intent" then (orRefuse (.unknownIntent value) (intentOf? value)).map .intent
  else if key = "top" then (topValue value).map .top
  else if startsWith "filter." key then
    if filterField key = "" then .error .missingFilterField else (filterClause (filterField key) value contract).map .filter
  else .error (.unknownClause key)

/-- The clause of a token, on its own. -/
def readClause (contract : MetricContract) (token : String) : Except ProposalError Clause := do
  match ← parseScopeClause token with
  | some _ => .error .orgScopeRequiresAuthorizationSeam
  | none =>
    match clauseValue? token with
    | none => if token ∈ scopeNames then .error .orgScopeRequiresAuthorizationSeam else .error (.unknownClause token)
    | some value => readKeyed contract (clauseKey token) value

/-- What a clause adds to the clauses before it. -/
def Clauses.add (s : Clauses) (clause : Clause) : Clauses :=
  match clause with
  | .time value =>
    if "time" ∈ s.claimed then { s with timeConflict := true, timeText := some value }
    else { s with claimed := "time" :: s.claimed, timeText := some value }
  | .grain grain => { s with claimed := "grain" :: s.claimed, grain := grain }
  | .dim value => { s with claimed := "dim" :: s.claimed, dimensionValue := some value }
  | .intent intent => { s with claimed := "intent" :: s.claimed, intent := intent }
  | .top limit => { s with claimed := "top" :: s.claimed, resultLimit := some limit }
  | .filter item => { s with claimed := ("filter." ++ item.fieldRef.val) :: s.claimed, filters := s.filters ++ [item] }

/-- No name but the time is claimed twice. -/
def DistinctClauses (clauses : List Clause) : Prop := clauses.Pairwise fun a b => a.name = b.name → a.name = "time"

/-- What the clauses of an accepted question ask for. -/
def proposalOf (candidate : MetricCandidate) (clauses : List Clause) : ProposalIntent where
  candidate := candidate
  timeText := (clauses.filterMap Clause.time?).getLast?
  timeConflict := decide (1 < (clauses.filterMap Clause.time?).length)
  grain := (clauses.filterMap Clause.grain?).getLast?.getD .day
  dimension := (clauses.filterMap Clause.dim?).getLast?
  intent := (clauses.filterMap Clause.intent?).getLast?.getD .metric
  resultLimit := none
  filters := clauses.filterMap Clause.filter?
  availableDates := []

/-- A clause whose number has more digits than `int` reads. -/
def Overlong (contract : MetricContract) (key value : String) : Prop :=
  (key = "top" ∧ (positiveNumber? value.toList).isSome = true ∧ maxIntDigits < value.length) ∨
    (startsWith "filter." key = true ∧ ∃ item, contract.filters.find? (fun item => item.field.val = filterField key) = some item ∧
      item.valueType = .integer ∧ (plainInteger? value).isSome = true ∧ maxIntDigits < (value.toList.filter (· ≠ '-')).length)

/-- A token whose clause is overlong. -/
def OverlongToken (contract : MetricContract) (token : String) : Prop :=
  parseScopeClause token = .ok none ∧ ∃ value, clauseValue? token = some value ∧ Overlong contract (clauseKey token) value

namespace ClauseAux

open PlannerAux

/-! ## One token -/

theorem scope_of_parse {token : String} {clause : String × String} (h : parseScopeClause token = .ok (some clause)) :
    clause.1 ∈ scopeNames := by
  unfold parseScopeClause at h
  split at h
  · nomatch h
  · split at h
    · rename_i name hfind
      cases h
      exact List.mem_of_find?_eq_some hfind
    · split at h
      · split at h
        · rename_i hname
          cases h
          exact hname
        · nomatch h
      · nomatch h

theorem requireOrganizationScopeAuthorized_scope {name : String} (h : name ∈ scopeNames) :
    requireOrganizationScopeAuthorized name = .error .orgScopeRequiresAuthorizationSeam := if_pos h

/-- A filter of a declared field is one the model accepts. -/
theorem isFieldRef_of_isIdentifier {s : String} (h : isIdentifier s = true) : isFieldRef s = true := by
  unfold isIdentifier matchesName at h
  unfold isFieldRef matchesName
  split at h
  · cases h
  · simp only [Bool.and_eq_true, decide_eq_true_eq, List.all_eq_true, Bool.or_eq_true] at h ⊢
    refine ⟨⟨Or.inl (Or.inl h.1.1), fun c hc => ?_⟩, by omega⟩
    rcases h.1.2 c hc with (hc | hc) | hc
    · exact Or.inl (Or.inl (Or.inl (Or.inl (Or.inl hc))))
    · exact Or.inl (Or.inl (Or.inl (Or.inr hc)))
    · exact Or.inl (Or.inl (Or.inr hc))

/-- A claim of a name that is new. -/
theorem claim_eq_ok {name : String} {s next : Clauses} :
    s.claim name = .ok next ↔ name ∉ s.claimed ∧ next = { s with claimed := name :: s.claimed } := by
  unfold Clauses.claim
  by_cases h : name ∈ s.claimed
  · rw [if_pos h]
    exact iff_of_false (fun h => nomatch h) fun h' => h'.1 h
  · rw [if_neg h]
    exact ⟨fun h' => ⟨h, (Except.ok.inj h').symm⟩, fun h' => congrArg Except.ok h'.2.symm⟩

theorem map_eq_ok {ε α β : Type} {f : α → β} {m : Except ε α} {b : β} : m.map f = .ok b ↔ ∃ a, m = .ok a ∧ f a = b := by
  cases m with
  | error e => exact iff_of_false (fun h => nomatch h) fun ⟨_, h, _⟩ => nomatch h
  | ok a => exact ⟨fun h => ⟨a, rfl, Except.ok.inj h⟩, fun ⟨_, h, h'⟩ => Except.ok.inj h ▸ congrArg Except.ok h'⟩

theorem map_eq_error {ε α β : Type} {f : α → β} {m : Except ε α} {e : ε} : m.map f = .error e ↔ m = .error e := by
  cases m with
  | error e' => exact ⟨fun h => congrArg Except.error (Except.error.inj h), fun h => congrArg Except.error (Except.error.inj h)⟩
  | ok a => exact iff_of_false (fun h => nomatch h) fun h => nomatch h

/-- A filter of a question is of the field it names, and of the user. -/
theorem filterClause_eq_ok {field value : String} {contract : MetricContract} {item : BoundFilter}
    (h : filterClause field value contract = .ok item) : item.fieldRef.val = field ∧ item.source = .user := by
  unfold filterClause at h
  have hmade {typed : Json} (h : orRefuse .validationError (BoundFilter.of? field .eq typed .user ⟨_, rfl⟩) = .ok item) :
      item.fieldRef.val = field ∧ item.source = .user := by
    rw [orRefuse_eq_ok] at h
    unfold BoundFilter.of? at h
    split at h
    · cases h
      exact ⟨rfl, rfl⟩
    · nomatch h
  simp only [bind_eq_ok] at h
  obtain ⟨declared, -, _, -, h⟩ := h
  split at h
  · simp only [bind_eq_ok] at h
    obtain ⟨_, -, _, -, _, -, h⟩ := h
    exact hmade h
  · simp only [bind_eq_ok] at h
    obtain ⟨_, -, h⟩ := h
    exact hmade h

theorem filter_ne_time (field : String) : "filter." ++ field ≠ "time" := by
  intro h
  have hhead := congrArg (fun s : String => s.toList.head?) h
  simp at hhead

/-- A clause other than the time: its name is claimed, and then its value is read. -/
theorem claim_bind_eq_ok {α : Type} {name : String} (s next : Clauses) {m : Except ProposalError α} (make : α → Clause)
    {f : Clauses → α → Clauses} (htime : name ≠ "time") (hname : ∀ a, m = .ok a → (make a).name = name)
    (hadd : ∀ a, s.add (make a) = f { s with claimed := (make a).name :: s.claimed } a) :
    (s.claim name >>= fun s => m >>= fun a => .ok (f s a)) = .ok next ↔
      ∃ clause, m.map make = .ok clause ∧ (clause.name ∈ s.claimed → clause.name = "time") ∧ next = s.add clause := by
  simp only [bind_eq_ok, claim_eq_ok, map_eq_ok, Except.ok.injEq]
  constructor
  · rintro ⟨_, ⟨hnew, rfl⟩, a, ha, rfl⟩
    exact ⟨_, ⟨a, ha, rfl⟩, fun h => absurd (hname a ha ▸ h) hnew, by rw [hadd, hname a ha]⟩
  · rintro ⟨_, ⟨a, ha, rfl⟩, hnew, rfl⟩
    rw [hname a ha] at hnew
    exact ⟨_, ⟨fun h => htime (hnew h), rfl⟩, a, ha, by rw [hadd, hname a ha]⟩

variable {contract : MetricContract}

/-- A clause `key=value` is added where its name is new, or is the time. -/
theorem keyed_eq_ok {key value : String} {s next : Clauses} :
    s.keyed contract key value = .ok next ↔
      ∃ clause, readKeyed contract key value = .ok clause ∧ (clause.name ∈ s.claimed → clause.name = "time") ∧ next = s.add clause := by
  unfold Clauses.keyed readKeyed
  split
  · unfold Clauses.time
    split
    · exact iff_of_false (fun h => by cases h) (by rintro ⟨_, h, _⟩; cases h)
    · simp only [Except.ok.injEq, exists_eq_left', Clause.name, implies_true, true_and, Clauses.add]
      split <;> simp only [Except.ok.injEq, eq_comm]
  split
  · exact claim_bind_eq_ok s next .grain (by decide) (fun _ _ => rfl) fun _ => rfl
  split
  · -- The value of a dimension is refused before its name is claimed.
    simp only [bind_eq_ok, claim_eq_ok, map_eq_ok, Except.ok.injEq]
    have htime : "dim" ≠ "time" := by decide
    constructor
    · rintro ⟨_, hscope, _, ⟨hnew, rfl⟩, rfl⟩
      exact ⟨_, ⟨_, hscope, rfl⟩, fun h => absurd h hnew, rfl⟩
    · rintro ⟨_, ⟨_, hscope, rfl⟩, hnew, rfl⟩
      exact ⟨_, hscope, _, ⟨fun h => htime (hnew h), rfl⟩, rfl⟩
  split
  · exact claim_bind_eq_ok s next .intent (by decide) (fun _ _ => rfl) fun _ => rfl
  split
  · exact claim_bind_eq_ok s next .top (by decide) (fun _ _ => rfl) fun _ => rfl
  split
  · by_cases hfield : filterField key = ""
    · rw [if_pos hfield]
      refine iff_of_false (fun h => ?_) (by rintro ⟨_, h, _⟩; cases h)
      obtain ⟨_, hsome, -⟩ := bind_eq_ok.mp h
      exact refuseIf_eq_ok.mp hsome hfield
    · have hadd := claim_bind_eq_ok s next (m := filterClause (filterField key) value contract) .filter
        (f := fun s item => { s with filters := s.filters ++ [item] }) (filter_ne_time (filterField key))
        (fun item hitem => congrArg ("filter." ++ ·) (filterClause_eq_ok hitem).1) fun _ => rfl
      rw [if_neg hfield, ← hadd]
      simp only [bind_eq_ok]
      exact ⟨(by rintro ⟨_, _, h⟩; exact h), fun h => ⟨(), refuseIf_eq_ok.mpr hfield, h⟩⟩
  · exact iff_of_false (fun h => by cases h) (by rintro ⟨_, h, _⟩; cases h)

/-- A token is added where its name is new, or is the time. -/
theorem token_eq_ok {token : String} {s next : Clauses} :
    Clauses.token contract s token = .ok next ↔
      ∃ clause, readClause contract token = .ok clause ∧ (clause.name ∈ s.claimed → clause.name = "time") ∧ next = s.add clause := by
  unfold Clauses.token readClause
  cases hscope : parseScopeClause token with
  | error e => exact iff_of_false (fun h => nomatch h) fun ⟨_, h, _⟩ => nomatch h
  | ok scope =>
    cases scope with
    | some clause =>
      have hname := requireOrganizationScopeAuthorized_scope (scope_of_parse hscope)
      refine iff_of_false (fun h => ?_) fun ⟨_, h, _⟩ => nomatch h
      change (requireOrganizationScopeAuthorized clause.1 >>= _) = _ at h
      rw [hname] at h
      nomatch h
    | none =>
      unfold clauseKey clauseValue?
      obtain ⟨key, value?⟩ := partition '=' token
      cases value? with
      | none =>
        refine iff_of_false (fun h => ?_) fun ⟨clause, h, _⟩ => ?_
        · change (if token ∈ scopeNames then requireOrganizationScopeAuthorized token >>= _ else _) = _ at h
          by_cases hmem : token ∈ scopeNames
          · rw [if_pos hmem, requireOrganizationScopeAuthorized_scope hmem] at h
            nomatch h
          · rw [if_neg hmem] at h
            nomatch h
        · change (if token ∈ scopeNames then _ else _) = Except.ok clause at h
          split at h <;> nomatch h
      | some value =>
        simp only [bind, Except.bind]
        exact keyed_eq_ok

/-! ## All clauses -/

theorem mem_claimed_add {s : Clauses} {clause : Clause} {n : String} :
    n ∈ (s.add clause).claimed ↔ n = clause.name ∨ n ∈ s.claimed := by
  cases clause with
  | time value =>
    unfold Clauses.add
    by_cases h : "time" ∈ s.claimed
    · simp only [if_pos h, Clause.name]
      exact ⟨Or.inr, fun h' => h'.elim (fun h' => h' ▸ h) id⟩
    · simp only [if_neg h, Clause.name, List.mem_cons]
  | grain => exact List.mem_cons
  | dim => exact List.mem_cons
  | intent => exact List.mem_cons
  | top => exact List.mem_cons
  | filter => exact List.mem_cons

theorem mem_claimed_foldl {clauses : List Clause} {s : Clauses} {n : String} :
    n ∈ (clauses.foldl Clauses.add s).claimed ↔ n ∈ clauses.map Clause.name ∨ n ∈ s.claimed := by
  induction clauses generalizing s with
  | nil => simp
  | cons clause clauses ih =>
    rw [List.foldl_cons, ih, mem_claimed_add, List.map_cons, List.mem_cons]
    tauto

/-- The loop over the clauses goes through where each clause is read and no name is claimed twice, and ends with the clauses added. -/
theorem foldlM_token_eq_ok {tokens : List String} {s last : Clauses} :
    tokens.foldlM (Clauses.token contract) s = .ok last ↔
      ∃ clauses, tokens.mapM (readClause contract) = .ok clauses ∧ DistinctClauses clauses ∧
        (∀ clause ∈ clauses, clause.name ∈ s.claimed → clause.name = "time") ∧ last = clauses.foldl Clauses.add s := by
  induction tokens generalizing s with
  | nil =>
    constructor
    · intro h
      cases h
      exact ⟨[], rfl, List.Pairwise.nil, fun _ h => absurd h List.not_mem_nil, rfl⟩
    · rintro ⟨clauses, h, -, -, rfl⟩
      cases h
      rfl
  | cons token tokens ih =>
    simp only [List.foldlM_cons, bind_eq_ok, token_eq_ok, ih, List.mapM_cons]
    constructor
    · rintro ⟨_, ⟨clause, hclause, hnew, rfl⟩, clauses, hclauses, hdistinct, hseen, rfl⟩
      have hother (other) (hmem : other ∈ clauses) := hseen other hmem
      simp only [mem_claimed_add] at hother
      refine ⟨clause :: clauses, ⟨clause, hclause, clauses, hclauses, rfl⟩, List.pairwise_cons.mpr ⟨?_, hdistinct⟩, ?_, rfl⟩
      · exact fun other hmem heq => heq.trans (hother other hmem (Or.inl heq.symm))
      · exact List.forall_mem_cons.mpr ⟨hnew, fun other hmem h => hother other hmem (Or.inr h)⟩
    · rintro ⟨_, ⟨clause, hclause, clauses, hclauses, hmade⟩, hdistinct, hseen, rfl⟩
      cases hmade
      obtain ⟨hfirst, hdistinct⟩ := List.pairwise_cons.mp hdistinct
      obtain ⟨hnew, hseen⟩ := List.forall_mem_cons.mp hseen
      refine ⟨_, ⟨clause, hclause, hnew, rfl⟩, clauses, hclauses, hdistinct, fun other hmem h => ?_, rfl⟩
      rcases mem_claimed_add.mp h with h | h
      · exact h.trans (hfirst other hmem h.symm)
      · exact hseen other hmem h

/-! ## What the loop ends with -/

/-- A clause named after the time is a time. -/
theorem name_eq_time_iff {clause : Clause} : clause.name = "time" ↔ clause.time?.isSome = true := by
  cases clause with
  | filter item => exact iff_of_false (filter_ne_time _) (by simp [Clause.time?])
  | _ => simp [Clause.name, Clause.time?]

theorem time_mem_names_iff {clauses : List Clause} : "time" ∈ clauses.map Clause.name ↔ clauses.filterMap Clause.time? ≠ [] := by
  rw [List.mem_map, ne_eq, List.filterMap_eq_nil_iff]
  push Not
  refine exists_congr fun clause => and_congr_right fun _ => ?_
  rw [name_eq_time_iff, Option.isSome_iff_ne_none]

/-- Each field of the state is known from the clauses of its kind. -/
theorem foldl_add (clauses : List Clause) :
    clauses.foldl Clauses.add {} =
      { claimed := (clauses.foldl Clauses.add {}).claimed
        timeText := (clauses.filterMap Clause.time?).getLast?
        timeConflict := decide (1 < (clauses.filterMap Clause.time?).length)
        grain := (clauses.filterMap Clause.grain?).getLast?.getD .day
        dimensionValue := (clauses.filterMap Clause.dim?).getLast?
        intent := (clauses.filterMap Clause.intent?).getLast?.getD .metric
        resultLimit := (clauses.filterMap Clause.top?).getLast?
        filters := clauses.filterMap Clause.filter?
        scopeClauses := [] } := by
  induction clauses using List.reverseRecOn with
  | nil => rfl
  | append_singleton clauses clause ih =>
    rw [List.foldl_append, List.foldl_cons, List.foldl_nil]
    have hclaimed : "time" ∈ (clauses.foldl Clauses.add {}).claimed ↔ clauses.filterMap Clause.time? ≠ [] := by
      rw [mem_claimed_foldl, time_mem_names_iff]
      exact or_iff_left List.not_mem_nil
    revert hclaimed
    generalize clauses.foldl Clauses.add {} = s at ih ⊢
    intro hclaimed
    cases clause with
    | time value =>
      by_cases hnil : clauses.filterMap Clause.time? = []
      · have hadd : s.add (.time value) = { s with claimed := "time" :: s.claimed, timeText := some value } :=
          if_neg (mt hclaimed.mp (not_not.mpr hnil))
        rw [hadd, ih]
        simp [Clause.time?, Clause.grain?, Clause.dim?, Clause.intent?, Clause.top?, Clause.filter?, hnil]
      · have hadd : s.add (.time value) = { s with timeConflict := true, timeText := some value } := if_pos (hclaimed.mpr hnil)
        rw [hadd, ih]
        simp [Clause.time?, Clause.grain?, Clause.dim?, Clause.intent?, Clause.top?, Clause.filter?, List.length_pos_iff.mpr hnil]
    | _ =>
      rw [ih]
      simp [Clauses.add, Clause.time?, Clause.grain?, Clause.dim?, Clause.intent?, Clause.top?, Clause.filter?, List.filterMap_cons]

/-- A kind of clause: what it is made from, and the name it claims, which is not the time. -/
structure ClauseKind {α : Type} (kind : Clause → Option α) (make : α → Clause) : Prop where
  iff : ∀ clause a, kind clause = some a ↔ clause = make a
  name : ∃ n, n ≠ "time" ∧ ∀ a, (make a).name = n

theorem grain_kind : ClauseKind Clause.grain? .grain :=
  ⟨fun clause _ => by cases clause <;> simp [Clause.grain?], "grain", by decide, fun _ => rfl⟩

theorem dim_kind : ClauseKind Clause.dim? .dim :=
  ⟨fun clause _ => by cases clause <;> simp [Clause.dim?], "dim", by decide, fun _ => rfl⟩

theorem intent_kind : ClauseKind Clause.intent? .intent :=
  ⟨fun clause _ => by cases clause <;> simp [Clause.intent?], "intent", by decide, fun _ => rfl⟩

theorem top_kind : ClauseKind Clause.top? .top :=
  ⟨fun clause _ => by cases clause <;> simp [Clause.top?], "top", by decide, fun _ => rfl⟩

section Kind

variable {α : Type} {kind : Clause → Option α} {make : α → Clause}

theorem ClauseKind.mem_filterMap (hkind : ClauseKind kind make) {clauses : List Clause} {a : α} :
    a ∈ clauses.filterMap kind ↔ make a ∈ clauses := by
  rw [List.mem_filterMap]
  exact ⟨fun ⟨_, hmem, h⟩ => (hkind.iff _ _).mp h ▸ hmem, fun hmem => ⟨_, hmem, (hkind.iff _ _).mpr rfl⟩⟩

/-- Clauses of one kind claim one name, so there is at most one of them. -/
theorem ClauseKind.filterMap_eq_singleton (hkind : ClauseKind kind make) {clauses : List Clause} (h : DistinctClauses clauses) {a : α}
    (ha : a ∈ clauses.filterMap kind) : clauses.filterMap kind = [a] := by
  obtain ⟨n, htime, hname⟩ := hkind.name
  induction clauses with
  | nil => exact absurd ha List.not_mem_nil
  | cons clause clauses ih =>
    obtain ⟨hfirst, hrest⟩ := List.pairwise_cons.mp h
    cases hsome : kind clause with
    | none =>
      rw [List.filterMap_cons_none hsome] at ha ⊢
      exact ih hrest ha
    | some b =>
      obtain rfl := (hkind.iff clause b).mp hsome
      have hnil : clauses.filterMap kind = [] := by
        by_contra hne
        obtain ⟨c, hc⟩ := List.exists_mem_of_ne_nil _ hne
        exact htime ((hname b).symm.trans (hfirst _ (hkind.mem_filterMap.mp hc) ((hname b).trans (hname c).symm)))
      rw [List.filterMap_cons_some hsome, hnil] at ha ⊢
      rw [List.mem_singleton.mp ha]

theorem ClauseKind.getLast?_eq_some (hkind : ClauseKind kind make) {clauses : List Clause} (h : DistinctClauses clauses) {a : α} :
    (clauses.filterMap kind).getLast? = some a ↔ make a ∈ clauses := by
  rw [← hkind.mem_filterMap]
  refine ⟨List.mem_of_getLast?, fun ha => ?_⟩
  rw [hkind.filterMap_eq_singleton h ha]
  rfl

end Kind

/-! ## Accepted questions -/

variable {contract : MetricContract}

/-- No clause that is read names an organization. -/
theorem noOrganization_of_readClause {token : String} {clause : Clause}
    (h : readClause contract token = .ok clause) : clause.NoOrganization := by
  unfold readClause at h
  obtain ⟨scope, -, h⟩ := bind_eq_ok.mp h
  split at h
  · nomatch h
  · split at h
    · split at h <;> nomatch h
    · unfold readKeyed at h
      split at h
      · split at h <;> cases h
        trivial
      split at h
      · obtain ⟨_, -, rfl⟩ := map_eq_ok.mp h
        trivial
      split at h
      · obtain ⟨_, hscope, rfl⟩ := map_eq_ok.mp h
        exact refuseIf_eq_ok.mp hscope
      split at h
      · obtain ⟨_, -, rfl⟩ := map_eq_ok.mp h
        trivial
      split at h
      · obtain ⟨_, -, rfl⟩ := map_eq_ok.mp h
        trivial
      split at h
      · split at h
        · nomatch h
        · obtain ⟨_, hitem, rfl⟩ := map_eq_ok.mp h
          exact (filterClause_eq_ok hitem).2
      · nomatch h

theorem noOrganization_of_mapM {tokens : List String} {clauses : List Clause}
    (h : tokens.mapM (readClause contract) = .ok clauses) {clause : Clause} (hclause : clause ∈ clauses) : clause.NoOrganization := by
  obtain ⟨token, -, htoken⟩ := exists_of_mem_mapM h hclause
  exact noOrganization_of_readClause htoken

theorem dimensionOf_eq_ok {value dimension : String} {grouped : Bool} (h : value ∉ scopeNames) :
    dimensionOf value grouped = .ok dimension ↔ value = "city_company" ∧ grouped = false ∧ dimension = value := by
  unfold dimensionOf
  by_cases hcity : value = "city_company"
  · rw [if_pos hcity]
    cases grouped with
    | true => exact iff_of_false (fun h => by cases h) fun h => by cases h.2.1
    | false => exact ⟨fun h => ⟨hcity, rfl, (Except.ok.inj h).symm⟩, fun h => congrArg Except.ok h.2.2.symm⟩
  · rw [if_neg hcity, if_pos h]
    exact iff_of_false (fun h => by cases h) fun h => hcity h.1

/-- Clauses are plain in terms of the last of each kind. -/
theorem plain_iff {clauses : List Clause} {dims : Option String} {intents : Option QueryIntent} {tops : Option Nat}
    (hdim : ∀ value, dims = some value ↔ Clause.dim value ∈ clauses) (hintent : ∀ value, intents = some value ↔ Clause.intent value ∈ clauses)
    (htop : ∀ limit, tops = some limit ↔ Clause.top limit ∈ clauses) :
    (∀ clause ∈ clauses, clause.Plain) ↔
      (∀ value, dims = some value → value = "city_company") ∧ (intents.getD .metric).grouped = false ∧ tops = none := by
  constructor
  · intro h
    refine ⟨fun value hvalue => h _ ((hdim value).mp hvalue), ?_, ?_⟩
    · cases intents with
      | none => rfl
      | some intent => exact h _ ((hintent intent).mp rfl)
    · exact Option.eq_none_iff_forall_ne_some.mpr fun limit hlimit => h _ ((htop limit).mp hlimit)
  · rintro ⟨hcity, hungrouped, hunlimited⟩ clause hclause
    cases clause with
    | dim value => exact hcity value ((hdim value).mpr hclause)
    | intent intent =>
      rw [(hintent intent).mpr hclause] at hungrouped
      exact hungrouped
    | top limit =>
      rw [(htop limit).mpr hclause] at hunlimited
      nomatch hunlimited
    | _ => trivial

theorem ne_ranking_of_ungrouped {intent : QueryIntent} (h : intent.grouped = false) : intent ≠ .ranking := by
  rintro rfl
  nomatch h

/-- The checks after the loop pass where every clause is plain. -/
theorem finish_eq_ok {candidate : MetricCandidate} {clauses : List Clause} (hdims : ∀ clause ∈ clauses, clause.NoOrganization)
    (h : DistinctClauses clauses) {proposal : ProposalIntent} :
    (clauses.foldl Clauses.add {}).finish candidate = .ok proposal ↔
      (∀ clause ∈ clauses, clause.Plain) ∧ proposal = proposalOf candidate clauses := by
  have hdim (value : String) := dim_kind.getLast?_eq_some h (a := value)
  have hintent (value : QueryIntent) := intent_kind.getLast?_eq_some h (a := value)
  have htop (limit : Nat) := top_kind.getLast?_eq_some h (a := limit)
  rw [foldl_add, plain_iff hdim hintent htop]
  unfold Clauses.finish Clauses.namedDimension addScopes proposalOf
  simp only [bind_eq_ok, refuseIf_eq_ok, Except.ok.injEq, exists_eq_left']
  generalize (clauses.filterMap Clause.dim?).getLast? = dims at hdim ⊢
  generalize (clauses.filterMap Clause.intent?).getLast?.getD .metric = intent
  generalize (clauses.filterMap Clause.top?).getLast? = tops
  cases dims with
  | none =>
    constructor
    · rintro ⟨_, hnamed, _, hdimension, _, -, _, hlimit, rfl⟩
      obtain rfl := Except.ok.inj hnamed
      have hungrouped : intent.grouped = false := by simpa using hdimension
      have hunlimited : tops = none := by simpa [hungrouped] using hlimit
      rw [hunlimited, if_neg (ne_ranking_of_ungrouped hungrouped)]
      exact ⟨⟨fun _ h => (nomatch h), hungrouped, rfl⟩, rfl⟩
    · rintro ⟨⟨-, hungrouped, rfl⟩, rfl⟩
      refine ⟨none, rfl, (), by simp [hungrouped], (), by simp, (), by simp, ?_⟩
      rw [if_neg (ne_ranking_of_ungrouped hungrouped)]
  | some value =>
    have hscope : value ∉ scopeNames := hdims _ ((hdim value).mp rfl)
    simp only [map_eq_ok, dimensionOf_eq_ok hscope]
    constructor
    · rintro ⟨_, ⟨_, ⟨hcity, hungrouped, rfl⟩, rfl⟩, _, -, _, -, _, hlimit, rfl⟩
      have hunlimited : tops = none := by simpa [hungrouped] using hlimit
      rw [hunlimited, if_neg (ne_ranking_of_ungrouped hungrouped)]
      exact ⟨⟨fun _ h => Option.some.inj h ▸ hcity, hungrouped, rfl⟩, rfl⟩
    · rintro ⟨⟨hcity, hungrouped, rfl⟩, rfl⟩
      refine ⟨some value, ⟨value, ⟨hcity value rfl, hungrouped, rfl⟩, rfl⟩, (), by simp, (), by simpa [hungrouped] using hscope, (), by simp, ?_⟩
      rw [if_neg (ne_ranking_of_ungrouped hungrouped)]

/-- A question is parsed where its clauses are read, none is claimed twice and all are plain; they say what it asks for. -/
theorem parseProposal_eq_ok {U : UnicodeForms} {question : String} {candidate : MetricCandidate} {proposal : ProposalIntent} :
    parseProposal U question candidate = .ok proposal ↔
      ∃ selector tokens clauses, words (U.normalize question) = selector :: tokens ∧ checkSelector U candidate selector = .ok () ∧
        tokens.mapM (readClause candidate.contract) = .ok clauses ∧ DistinctClauses clauses ∧ (∀ clause ∈ clauses, clause.Plain) ∧
        proposal = proposalOf candidate clauses := by
  unfold parseProposal
  cases hwords : words (U.normalize question) with
  | nil => exact iff_of_false (fun h => nomatch h) fun ⟨_, _, _, h, _⟩ => nomatch h
  | cons selector tokens =>
    simp only [bind_eq_ok, foldlM_token_eq_ok]
    constructor
    · rintro ⟨_, hselector, _, ⟨clauses, hread, hdistinct, -, rfl⟩, hfinish⟩
      have hdims : ∀ clause ∈ clauses, clause.NoOrganization := fun _ => noOrganization_of_mapM hread
      obtain ⟨hplain, rfl⟩ := (finish_eq_ok hdims hdistinct).mp hfinish
      exact ⟨selector, tokens, clauses, rfl, hselector, hread, hdistinct, hplain, rfl⟩
    · rintro ⟨_, _, clauses, heq, hselector, hread, hdistinct, hplain, rfl⟩
      cases heq
      have hdims : ∀ clause ∈ clauses, clause.NoOrganization := fun _ => noOrganization_of_mapM hread
      exact ⟨(), hselector, _, ⟨clauses, hread, hdistinct, fun _ _ h => absurd h List.not_mem_nil, rfl⟩,
        (finish_eq_ok hdims hdistinct).mpr ⟨hplain, rfl⟩⟩

/-! ## What the loop raises -/

theorem refuseIf_eq_error {c : Prop} [Decidable c] {e e' : ProposalError} : refuseIf c e = .error e' ↔ c ∧ e = e' := by
  unfold refuseIf
  split <;> simp_all

theorem orRefuse_eq_error {α : Type} {e e' : ProposalError} {o : Option α} : orRefuse e o = .error e' ↔ o = none ∧ e = e' := by
  cases o <;> simp [orRefuse]

theorem claim_eq_error {name : String} {s : Clauses} {e : ProposalError} :
    s.claim name = .error e ↔ name ∈ s.claimed ∧ .duplicateClause name = e := by
  unfold Clauses.claim
  split <;> simp_all

theorem topValue_eq_error {value : String} {e : ProposalError} (he : e.isRefusal = false) :
    topValue value = .error e ↔ e = .tooManyDigits ∧ (positiveNumber? value.toList).isSome = true ∧ maxIntDigits < value.length := by
  unfold topValue
  cases positiveNumber? value.toList with
  | none =>
    refine iff_of_false (fun h => ?_) fun h => by cases h.2.1
    cases h
    cases he
  | some number =>
    simp only [bind_eq_error, refuseIf_eq_error, refuseIf_eq_ok, Option.isSome_some, true_and]
    constructor
    · rintro (⟨hlong, rfl⟩ | ⟨_, -, h⟩)
      · exact ⟨rfl, hlong⟩
      · split at h
        · cases h
        · cases h
          cases he
    · rintro ⟨rfl, hlong⟩
      exact Or.inl ⟨hlong, rfl⟩

theorem plainInteger?_empty : plainInteger? "" = none := by decide

theorem filterClause_eq_error {field value : String} {contract : MetricContract} {e : ProposalError} (he : e.isRefusal = false) :
    filterClause field value contract = .error e ↔
      e = .tooManyDigits ∧ ∃ item, contract.filters.find? (fun item => item.field.val = field) = some item ∧
        item.valueType = .integer ∧ (plainInteger? value).isSome = true ∧ maxIntDigits < (value.toList.filter (· ≠ '-')).length := by
  have hmade (typed : Json) {item : FilterField} (hitem : contract.filters.find? (fun item => item.field.val = field) = some item) :
      orRefuse .validationError (BoundFilter.of? field .eq typed .user ⟨_, rfl⟩) ≠ .error e := by
    have hfield : item.field.val = field := by simpa using List.find?_some hitem
    unfold BoundFilter.of?
    rw [dif_pos (hfield ▸ isFieldRef_of_isIdentifier item.field.property)]
    exact fun h => by cases h
  unfold filterClause
  cases hfind : contract.filters.find? (fun item => item.field.val = field) with
  | none =>
    refine iff_of_false (fun h => ?_) (by rintro ⟨_, _, h, _⟩; cases h)
    cases h
    cases he
  | some item =>
    simp only [orRefuse, bind_eq_error, refuseIf_eq_error, refuseIf_eq_ok, Option.some.injEq, exists_eq_left', reduceCtorEq, false_or,
      Except.ok.injEq]
    by_cases hempty : value = ""
    · refine iff_of_false ?_ fun h => ?_
      · rintro (⟨-, rfl⟩ | ⟨_, hne, -⟩)
        · cases he
        · exact hne hempty
      · rw [hempty, plainInteger?_empty] at h
        cases h.2.2.1
    · simp only [hempty, false_and, not_false_eq_true, true_and, false_or, exists_const]
      cases htype : item.valueType with
      | text => exact iff_of_false (hmade (.str value) hfind) fun h => by cases h.2.1
      | integer =>
        cases plainInteger? value with
        | none =>
          refine iff_of_false (fun h => ?_) fun h => by cases h.2.2.1
          cases h
          cases he
        | some number =>
          change (refuseIf _ _ >>= fun _ => orRefuse .validationError (BoundFilter.of? field .eq (.int number) .user ⟨_, rfl⟩)) = _ ↔ _
          simp only [bind_eq_error, refuseIf_eq_error, hmade (.int number) hfind, and_false, exists_false, or_false, Option.isSome_some,
            true_and]
          exact ⟨fun h => ⟨h.2.symm, h.1⟩, fun h => ⟨h.2, h.1.symm⟩⟩

theorem not_overlong {key value : String} (htop : key ≠ "top") (hfilter : startsWith "filter." key = false) :
    ¬ Overlong contract key value := by
  rintro (⟨h, -⟩ | ⟨h, -⟩)
  · exact htop h
  · rw [h] at hfilter
    cases hfilter

/-- What is raised beside a refusal: a name that is not claimed yet has a number of too many digits. -/
theorem keyed_eq_error {key value : String} {s : Clauses} {e : ProposalError} (he : e.isRefusal = false) :
    s.keyed contract key value = .error e ↔
      e = .tooManyDigits ∧ Overlong contract key value ∧
        (if startsWith "filter." key then "filter." ++ filterField key else key) ∉ s.claimed := by
  have hnever {c : Prop} {refusal : ProposalError} (h : c ∧ refusal = e) (hrefusal : refusal.isRefusal = true) : False := by
    rw [h.2, he] at hrefusal
    cases hrefusal
  unfold Clauses.keyed
  split
  · subst key
    refine iff_of_false (fun h => ?_) fun h => not_overlong (by decide) (by decide) h.2.1
    unfold Clauses.time at h
    split at h
    · cases h
      cases he
    · split at h <;> cases h
  split
  · subst key
    refine iff_of_false (fun h => ?_) fun h => not_overlong (by decide) (by decide) h.2.1
    simp only [bind_eq_error, claim_eq_error, orRefuse_eq_error, reduceCtorEq, and_false, exists_false, or_false] at h
    rcases h with h | ⟨_, -, h⟩ <;> exact hnever h rfl
  split
  · subst key
    refine iff_of_false (fun h => ?_) fun h => not_overlong (by decide) (by decide) h.2.1
    simp only [bind_eq_error, claim_eq_error, requireOrganizationScopeAuthorized, refuseIf_eq_error, reduceCtorEq, and_false, exists_false,
      or_false] at h
    rcases h with h | ⟨_, -, h⟩ <;> exact hnever h rfl
  split
  · subst key
    refine iff_of_false (fun h => ?_) fun h => not_overlong (by decide) (by decide) h.2.1
    simp only [bind_eq_error, claim_eq_error, orRefuse_eq_error, reduceCtorEq, and_false, exists_false, or_false] at h
    rcases h with h | ⟨_, -, h⟩ <;> exact hnever h rfl
  split
  · subst key
    simp only [bind_eq_error, claim_eq_error, claim_eq_ok, topValue_eq_error he, reduceCtorEq, and_false, exists_false, or_false]
    have hoverlong : Overlong contract "top" value ↔ (positiveNumber? value.toList).isSome = true ∧ maxIntDigits < value.length :=
      ⟨fun h => h.elim And.right fun h => absurd h.1 (by decide), fun h => Or.inl ⟨rfl, h⟩⟩
    rw [hoverlong, if_neg (by decide)]
    constructor
    · rintro (h | ⟨_, ⟨hnew, -⟩, rfl, hlong⟩)
      · exact (hnever h rfl).elim
      · exact ⟨rfl, hlong, hnew⟩
    · rintro ⟨rfl, hlong, hnew⟩
      exact Or.inr ⟨_, ⟨hnew, rfl⟩, rfl, hlong⟩
  split
  · rename_i htop hfilter
    have hoverlong : Overlong contract key value ↔ ∃ item, contract.filters.find? (fun item => item.field.val = filterField key) = some item ∧
        item.valueType = .integer ∧ (plainInteger? value).isSome = true ∧ maxIntDigits < (value.toList.filter (· ≠ '-')).length :=
      ⟨fun h => h.elim (fun h => absurd h.1 htop) And.right, fun h => Or.inr ⟨hfilter, h⟩⟩
    unfold filterField at hoverlong ⊢
    simp only [hoverlong, bind_eq_error, refuseIf_eq_error, refuseIf_eq_ok, claim_eq_error, claim_eq_ok, filterClause_eq_error he,
      reduceCtorEq, and_false, exists_false, or_false]
    generalize strip (String.ofList (key.toList.drop 7)) = field
    constructor
    · rintro (h | ⟨_, -, h | ⟨_, ⟨hnew, -⟩, rfl, hlong⟩⟩)
      · exact (hnever h rfl).elim
      · exact (hnever h rfl).elim
      · exact ⟨rfl, hlong, hnew⟩
    · rintro ⟨rfl, ⟨item, hitem, hlong⟩, hnew⟩
      have hfield : item.field.val = field := by simpa using List.find?_some hitem
      have hempty : field ≠ "" := by
        intro h
        have hidentifier := item.field.property
        rw [hfield, h] at hidentifier
        cases hidentifier
      exact Or.inr ⟨(), hempty, Or.inr ⟨_, ⟨hnew, rfl⟩, rfl, item, hitem, hlong⟩⟩
  · rename_i htop hfilter
    refine iff_of_false (fun h => ?_) fun h => not_overlong htop (by simpa using hfilter) h.2.1
    cases h
    cases he

theorem parseScopeClause_eq_error {token : String} {e : ProposalError} (he : e.isRefusal = false) : parseScopeClause token ≠ .error e := by
  intro h
  unfold parseScopeClause at h
  split at h
  · cases h
    nomatch he
  · split at h
    · nomatch h
    · split at h <;> nomatch h

theorem token_eq_error {token : String} {s : Clauses} {e : ProposalError} (he : e.isRefusal = false) :
    Clauses.token contract s token = .error e ↔
      e = .tooManyDigits ∧ OverlongToken contract token ∧ clauseName token ∉ s.claimed := by
  unfold Clauses.token OverlongToken
  cases hscope : parseScopeClause token with
  | error e' =>
    refine iff_of_false (fun h => ?_) fun h => nomatch h.2.1.1
    cases h
    exact parseScopeClause_eq_error he hscope
  | ok scope =>
    cases scope with
    | some clause =>
      refine iff_of_false (fun h => ?_) fun h => nomatch h.2.1.1
      change (requireOrganizationScopeAuthorized clause.1 >>= _) = _ at h
      rw [requireOrganizationScopeAuthorized_scope (scope_of_parse hscope)] at h
      cases h
      nomatch he
    | none =>
      unfold clauseName clauseKey clauseValue?
      obtain ⟨key, value?⟩ := partition '=' token
      cases value? with
      | none =>
        refine iff_of_false (fun h => ?_) fun ⟨_, ⟨_, _, h, _⟩, _⟩ => nomatch h
        change (if token ∈ scopeNames then requireOrganizationScopeAuthorized token >>= _ else _) = _ at h
        by_cases hmem : token ∈ scopeNames
        · rw [if_pos hmem, requireOrganizationScopeAuthorized_scope hmem] at h
          cases h
          nomatch he
        · rw [if_neg hmem] at h
          cases h
          nomatch he
      | some value =>
        simp only [Option.map_some, Option.some.injEq, exists_eq_left', true_and, bind, Except.bind]
        exact keyed_eq_error he

/-- The loop raises something else than a refusal where it comes to an overlong clause whose name is new. -/
theorem foldlM_token_eq_error {tokens : List String} {e : ProposalError} (he : e.isRefusal = false) :
    tokens.foldlM (Clauses.token contract) {} = .error e ↔
      e = .tooManyDigits ∧ ∃ before token after clauses, tokens = before ++ token :: after ∧
        before.mapM (readClause contract) = .ok clauses ∧ DistinctClauses clauses ∧ OverlongToken contract token ∧
        clauseName token ∉ clauses.map Clause.name := by
  simp only [foldlM_eq_error, foldlM_token_eq_ok, token_eq_error he]
  constructor
  · rintro ⟨before, token, after, _, heq, ⟨clauses, hread, hdistinct, -, rfl⟩, rfl, hlong, hnew⟩
    exact ⟨rfl, before, token, after, clauses, heq, hread, hdistinct, hlong, fun h => hnew (mem_claimed_foldl.mpr (Or.inl h))⟩
  · rintro ⟨rfl, before, token, after, clauses, heq, hread, hdistinct, hlong, hnew⟩
    refine ⟨before, token, after, _, heq, ⟨clauses, hread, hdistinct, fun _ _ h => absurd h List.not_mem_nil, rfl⟩, rfl, hlong, fun h => ?_⟩
    exact (mem_claimed_foldl.mp h).elim hnew List.not_mem_nil

/-- What stands after the loop raises refusals only. -/
theorem finish_eq_error {candidate : MetricCandidate} {s : Clauses} {e : ProposalError} (hscope : s.scopeClauses = [])
    (h : s.finish candidate = .error e) : e.isRefusal = true := by
  unfold Clauses.finish Clauses.namedDimension at h
  rw [hscope] at h
  simp only [addScopes, bind_eq_error, refuseIf_eq_error, reduceCtorEq, and_false, exists_false, or_false, false_or] at h
  rcases h with h | ⟨_, -, _, -, ⟨-, rfl⟩ | ⟨_, -, ⟨-, rfl⟩ | ⟨_, -, ⟨-, rfl⟩⟩⟩⟩
  · split at h
    · nomatch h
    · obtain h := map_eq_error.mp h
      unfold dimensionOf at h
      split at h
      · split at h <;> cases h
        rfl
      · split at h <;> cases h
        rfl
  · rfl
  · rfl
  · rfl

theorem checkSelector_eq_error {U : UnicodeForms} {candidate : MetricCandidate} {selector : String} {e : ProposalError}
    (h : checkSelector U candidate selector = .error e) : e.isRefusal = true := by
  unfold checkSelector at h
  split at h <;> obtain ⟨-, rfl⟩ := refuseIf_eq_error.mp h <;> rfl

/-- A question raises something else than a refusal where its loop does. -/
theorem parseProposal_eq_error {U : UnicodeForms} {question : String} {candidate : MetricCandidate} {e : ProposalError}
    (he : e.isRefusal = false) :
    parseProposal U question candidate = .error e ↔
      e = .tooManyDigits ∧ ∃ selector tokens, words (U.normalize question) = selector :: tokens ∧
        checkSelector U candidate selector = .ok () ∧ ∃ before token after clauses, tokens = before ++ token :: after ∧
          before.mapM (readClause candidate.contract) = .ok clauses ∧ DistinctClauses clauses ∧ OverlongToken candidate.contract token ∧
          clauseName token ∉ clauses.map Clause.name := by
  have hnever {refusal : ProposalError} (heq : e = refusal) (hrefusal : refusal.isRefusal = true) : False := by
    rw [← heq, he] at hrefusal
    cases hrefusal
  unfold parseProposal
  cases hwords : words (U.normalize question) with
  | nil =>
    refine iff_of_false (fun h => ?_) (by rintro ⟨_, _, _, h, _⟩; cases h)
    cases h
    cases he
  | cons selector tokens =>
    simp only [bind_eq_error, foldlM_token_eq_error he]
    constructor
    · rintro (h | ⟨_, hselector, ⟨rfl, hlong⟩ | ⟨s, hs, h⟩⟩)
      · exact (hnever rfl (checkSelector_eq_error h)).elim
      · exact ⟨rfl, selector, tokens, rfl, hselector, hlong⟩
      · obtain ⟨clauses, -, -, -, rfl⟩ := foldlM_token_eq_ok.mp hs
        exact (hnever rfl (finish_eq_error (by rw [foldl_add]) h)).elim
    · rintro ⟨rfl, _, _, heq, hselector, hlong⟩
      cases heq
      exact Or.inr ⟨(), hselector, Or.inl ⟨rfl, hlong⟩⟩

end ClauseAux

end Nl2Sql
