import Nl2Sql.Lib.Lists
import Nl2Sql.Semantic.Validate

/-!
# Names in one pass

What `_duplicate_metric_issues` finds in one order of the metrics, and which metrics it judges alike in every order. An alias is compared
with what came before it, so a key that is somebody's alias is found where its metric comes first. Metrics whose orders all agree share no
names, or share an alias, or each of some of them holds as its key an alias that only the others could have claimed before.
-/

namespace Nl2Sql.Authoring

open Py

variable (T : AuthoringTools)

/-- The normalized key of a metric. -/
def keyToken (metric : MetricAsset) : String := T.forms.normalize metric.metricKey

/-- Of some aliases of a metric the normalized ones that are looked up: all that have words, but for its own key. -/
def tokensOf (metric : MetricAsset) (names : List String) : List String :=
  (names.map T.forms.normalize).filter fun token => ¬(token = "" ∨ token = keyToken T metric)

/-- The aliases of a metric that are looked up. -/
def aliasTokens (metric : MetricAsset) : List String := tokensOf T metric metric.aliases

/-- The first metric with an alias. -/
def aliasOwner (metrics : List MetricAsset) (token : String) : Option MetricAsset :=
  metrics.find? fun metric => token ∈ aliasTokens T metric

/-- The first metric with a key. -/
def keyOwner (metrics : List MetricAsset) (token : String) : Option MetricAsset :=
  metrics.find? fun metric => keyToken T metric = token

/-- A name belongs to a metric: to the first that claimed it, or else to the first that has it as a key, if there is one. -/
def BelongsTo (assetId : String) (claimed held : Option MetricAsset) : Prop := ∀ owner, claimed.or held = some owner → owner.assetId = assetId

/-- No alias of a metric belongs to another before it. -/
def Admits (before : List MetricAsset) (metric : MetricAsset) : Prop :=
  ∀ token ∈ aliasTokens T metric, BelongsTo metric.assetId (aliasOwner T before token) (keyOwner T before token)

/-- In an order, no alias belongs to another metric before. -/
def Quiet : List MetricAsset → Prop := EachAfter (Admits T)

section Pass

variable {T}

theorem mem_aliasTokens {metric : MetricAsset} {token : String} :
    token ∈ aliasTokens T metric ↔ (∃ name ∈ metric.aliases, T.forms.normalize name = token) ∧ token ≠ "" ∧ token ≠ keyToken T metric := by
  rw [aliasTokens, tokensOf, List.mem_filter, List.mem_map, decide_eq_true_iff, not_or]

/-- What an alias is compared with: who claimed it, or else who has it as a key. -/
def previous (s : SeenNames) (token : String) : String :=
  if (s.aliases.get? token).getD "" = "" then (s.keys.get? token).getD "" else (s.aliases.get? token).getD ""

/-- An alias belongs to another metric. -/
def Clashes (metric : MetricAsset) (s : SeenNames) (token : String) : Prop := previous s token ≠ "" ∧ previous s token ≠ metric.assetId

/-- The issue of an alias that belongs to another metric. -/
def aliasIssue (metric : MetricAsset) (s : SeenNames) (token : String) : AuthoringIssue :=
  { code := "duplicate_metric_alias", message := "metric alias duplicates " ++ previous s token, assetId := metric.assetId, path := "aliases" }

/-- What checking one alias does. -/
theorem checkAlias_cases (metric : MetricAsset) (s : SeenNames) (name : String) :
    ((T.forms.normalize name = "" ∨ T.forms.normalize name = keyToken T metric) ∧ checkAlias T metric (keyToken T metric) s name = s) ∨
    (¬(T.forms.normalize name = "" ∨ T.forms.normalize name = keyToken T metric) ∧ Clashes metric s (T.forms.normalize name) ∧
      checkAlias T metric (keyToken T metric) s name = { s with issues := s.issues ++ [aliasIssue metric s (T.forms.normalize name)] }) ∨
    (¬(T.forms.normalize name = "" ∨ T.forms.normalize name = keyToken T metric) ∧ ¬Clashes metric s (T.forms.normalize name) ∧
      checkAlias T metric (keyToken T metric) s name = { s with aliases := s.aliases.set (T.forms.normalize name) metric.assetId }) := by
  by_cases hskip : T.forms.normalize name = "" ∨ T.forms.normalize name = keyToken T metric
  · exact .inl ⟨hskip, if_pos hskip⟩
  · refine .inr ?_
    by_cases hclash : Clashes metric s (T.forms.normalize name)
    · exact .inl ⟨hskip, hclash, (if_neg hskip).trans (if_pos hclash)⟩
    · exact .inr ⟨hskip, hclash, (if_neg hskip).trans (if_neg hclash)⟩

/-- What checking aliases one after another does: the keys stay; where one clashes there is an issue; otherwise they are all claimed. -/
theorem foldl_checkAlias {metric : MetricAsset} (hid : metric.assetId ≠ "") (names : List String) (s : SeenNames) :
    ∃ s', names.foldl (checkAlias T metric (keyToken T metric)) s = s' ∧ s'.keys = s.keys ∧
      (∃ more, s'.issues = s.issues ++ more ∧ (∀ issue ∈ more, issue.code = "duplicate_metric_alias") ∧
        (more ≠ [] ↔ ∃ token ∈ tokensOf T metric names, Clashes metric s token)) ∧
      ((∀ token ∈ tokensOf T metric names, ¬Clashes metric s token) →
        ∀ token, s'.aliases.get? token = if token ∈ tokensOf T metric names then some metric.assetId else s.aliases.get? token) := by
  induction names generalizing s with
  | nil =>
    refine ⟨s, rfl, rfl, ⟨[], (List.append_nil _).symm, fun _ h => absurd h List.not_mem_nil, ?_⟩, fun _ token => ?_⟩
    · exact iff_of_false (fun h => h rfl) fun ⟨_, h, _⟩ => absurd h List.not_mem_nil
    · exact (if_neg List.not_mem_nil).symm
  | cons name names ih =>
    have htokens : tokensOf T metric (name :: names) =
        if T.forms.normalize name = "" ∨ T.forms.normalize name = keyToken T metric then tokensOf T metric names
        else T.forms.normalize name :: tokensOf T metric names := by
      rw [tokensOf, List.map_cons, List.filter_cons]
      by_cases hskip : T.forms.normalize name = "" ∨ T.forms.normalize name = keyToken T metric
      · rw [if_pos hskip, if_neg (by rw [decide_eq_true_iff]; exact not_not_intro hskip), tokensOf]
      · rw [if_neg hskip, if_pos (by simpa using hskip), tokensOf]
    rcases checkAlias_cases (T := T) metric s name with ⟨hskip, hstep⟩ | ⟨hskip, hclash, hstep⟩ | ⟨hskip, hfree, hstep⟩
    · rw [htokens, if_pos hskip, List.foldl_cons, hstep]
      exact ih s
    · rw [htokens, if_neg hskip, List.foldl_cons, hstep]
      obtain ⟨s', hfold, hkeys, ⟨more, hmore, hcodes, -⟩, -⟩ :=
        ih { s with issues := s.issues ++ [aliasIssue metric s (T.forms.normalize name)] }
      refine ⟨s', hfold, hkeys, ⟨aliasIssue metric s (T.forms.normalize name) :: more, ?_, ?_, ?_⟩, fun hnone => ?_⟩
      · rw [hmore, List.append_assoc, List.singleton_append]
      · exact List.forall_mem_cons.mpr ⟨rfl, hcodes⟩
      · exact iff_of_true (List.cons_ne_nil _ _) ⟨_, List.mem_cons_self, hclash⟩
      · exact absurd hclash (hnone _ List.mem_cons_self)
    · rw [htokens, if_neg hskip, List.foldl_cons, hstep]
      obtain ⟨s', hfold, hkeys, ⟨more, hmore, hcodes, hiff⟩, hclaims⟩ :=
        ih { s with aliases := s.aliases.set (T.forms.normalize name) metric.assetId }
      -- the alias that was claimed clashes no more, and the others clash as before
      have hclash : ∀ token, Clashes metric { s with aliases := s.aliases.set (T.forms.normalize name) metric.assetId } token ↔
          T.forms.normalize name ≠ token ∧ Clashes metric s token := by
        intro token
        by_cases heq : T.forms.normalize name = token
        · have hprevious : previous { s with aliases := s.aliases.set (T.forms.normalize name) metric.assetId } token = metric.assetId := by
            rw [previous, Dict.get?_set, if_pos heq]
            exact if_neg hid
          exact iff_of_false (fun h => h.2 hprevious) fun h => h.1 heq
        · have hprevious : previous { s with aliases := s.aliases.set (T.forms.normalize name) metric.assetId } token = previous s token := by
            rw [previous, Dict.get?_set, if_neg heq, previous]
          rw [Clashes, hprevious]
          exact (and_iff_right heq).symm
      refine ⟨s', hfold, hkeys, ⟨more, hmore, hcodes, hiff.trans ?_⟩, fun hnone token => ?_⟩
      · constructor
        · rintro ⟨token, htoken, h⟩
          exact ⟨token, List.mem_cons_of_mem _ htoken, ((hclash token).mp h).2⟩
        · rintro ⟨token, htoken, h⟩
          have hne : T.forms.normalize name ≠ token := fun heq => hfree (heq ▸ h)
          exact ⟨token, (List.mem_cons.mp htoken).resolve_left (Ne.symm hne), (hclash token).mpr ⟨hne, h⟩⟩
      · rw [hclaims (fun token htoken h => hnone token (List.mem_cons_of_mem _ htoken) ((hclash token).mp h).2), Dict.get?_set]
        by_cases hrest : token ∈ tokensOf T metric names
        · rw [if_pos hrest, if_pos (List.mem_cons_of_mem _ hrest)]
        · by_cases heq : T.forms.normalize name = token
          · rw [if_neg hrest, if_pos heq, if_pos (heq ▸ List.mem_cons_self)]
          · rw [if_neg hrest, if_neg heq, if_neg fun h => (List.mem_cons.mp h).elim (fun h => heq h.symm) hrest]

/-- The normalized keys that have words. -/
def keyTokens (T : AuthoringTools) (metrics : List MetricAsset) : List String := (metrics.map (keyToken T)).filter (· ≠ "")

/-- What checking a key does. -/
theorem checkKey_spec (metric : MetricAsset) (s : SeenNames) :
    ∃ s', checkKey metric (keyToken T metric) s = s' ∧ s'.aliases = s.aliases ∧
      (∀ token, s'.keys.get? token =
        if s.keys.get? token = none ∧ token = keyToken T metric ∧ token ≠ "" then some metric.assetId else s.keys.get? token) ∧
      ∃ more, s'.issues = s.issues ++ more ∧ (∀ issue ∈ more, issue.code = "duplicate_metric_key") ∧
        (more ≠ [] ↔ keyToken T metric ≠ "" ∧ s.keys.get? (keyToken T metric) ≠ none) := by
  unfold checkKey
  by_cases hempty : keyToken T metric = ""
  · refine ⟨s, if_pos hempty, rfl, fun token => ?_, [], (List.append_nil _).symm, fun _ h => absurd h List.not_mem_nil, ?_⟩
    · exact (if_neg fun h => h.2.2 (h.2.1.trans hempty)).symm
    · exact iff_of_false (fun h => h rfl) fun h => h.1 hempty
  · rw [if_neg hempty]
    cases hget : s.keys.get? (keyToken T metric) with
    | some first =>
      refine ⟨_, rfl, rfl, fun token => ?_, _, rfl, fun issue hissue => ?_, ?_⟩
      · refine (if_neg fun h => ?_).symm
        rw [h.2.1, hget] at h
        nomatch h.1
      · rw [List.mem_singleton.mp hissue]
      · exact iff_of_true (List.cons_ne_nil _ _) ⟨hempty, Option.some_ne_none _⟩
    | none =>
      refine ⟨_, rfl, rfl, fun token => ?_, [], (List.append_nil _).symm, fun _ h => absurd h List.not_mem_nil, ?_⟩
      · rw [Dict.get?_set]
        by_cases heq : keyToken T metric = token
        · rw [if_pos heq, if_pos ⟨heq ▸ hget, heq.symm, heq ▸ hempty⟩]
        · rw [if_neg heq, if_neg fun h => heq h.2.1.symm]
      · exact iff_of_false (fun h => h rfl) fun h => h.2 rfl

/-- What the names seen so far say of the metrics they are of. -/
structure Seen (T : AuthoringTools) (metrics : List MetricAsset) (s : SeenNames) : Prop where
  keys : ∀ token ≠ "", s.keys.get? token = (keyOwner T metrics token).map MetricAsset.assetId
  aliases : Quiet T metrics → ∀ token, s.aliases.get? token = (aliasOwner T metrics token).map MetricAsset.assetId
  codes : ∀ issue ∈ s.issues, issue.code = "duplicate_metric_key" ∨ issue.code = "duplicate_metric_alias"
  duplicateKey : (∃ issue ∈ s.issues, issue.code = "duplicate_metric_key") ↔ ¬(keyTokens T metrics).Nodup
  duplicateAlias : (∃ issue ∈ s.issues, issue.code = "duplicate_metric_alias") ↔ ¬Quiet T metrics

theorem mem_keyTokens {metrics : List MetricAsset} {token : String} :
    token ∈ keyTokens T metrics ↔ token ≠ "" ∧ keyOwner T metrics token ≠ none := by
  rw [keyTokens, List.mem_filter, decide_eq_true_iff, and_comm, List.mem_map, keyOwner, ← Option.isSome_iff_ne_none, List.find?_isSome]
  refine and_congr_right fun _ => exists_congr fun metric => and_congr_right fun _ => ?_
  rw [decide_eq_true_iff]

/-- An alias clashes unless it belongs to the metric itself: to the first one that claimed it, or else to the first one with it as a key. -/
theorem not_clashes_iff {metric : MetricAsset} {s : SeenNames} {token : String} {claimed held : Option MetricAsset}
    (hclaimed : s.aliases.get? token = claimed.map MetricAsset.assetId) (hheld : s.keys.get? token = held.map MetricAsset.assetId)
    (hclaimed' : ∀ owner, claimed = some owner → owner.assetId ≠ "") (hheld' : ∀ owner, held = some owner → owner.assetId ≠ "") :
    ¬Clashes metric s token ↔ BelongsTo metric.assetId claimed held := by
  rw [Clashes, previous, hclaimed, hheld, not_and, not_not, BelongsTo]
  cases claimed with
  | some owner =>
    have hne := hclaimed' owner rfl
    simp only [Option.map_some, Option.getD_some, if_neg hne, Option.some_or, Option.some.injEq, forall_eq']
    exact ⟨fun h => h hne, fun h _ => h⟩
  | none =>
    simp only [Option.map_none, Option.getD_none, if_true, Option.none_or]
    cases held with
    | none => simp
    | some holder =>
      have hne := hheld' holder rfl
      simp only [Option.map_some, Option.getD_some, Option.some.injEq, forall_eq']
      exact ⟨fun h => h hne, fun h _ => h⟩

/-- A metric more. -/
theorem Seen.snoc {metrics : List MetricAsset} {s : SeenNames} (h : Seen T metrics s) (hids : ∀ metric ∈ metrics, metric.assetId ≠ "")
    {metric : MetricAsset} (hid : metric.assetId ≠ "") : Seen T (metrics ++ [metric]) (checkNames T s metric) := by
  obtain ⟨s₁, hs₁, haliases₁, hkeys₁, more₁, hmore₁, hcodes₁, hiff₁⟩ := checkKey_spec (T := T) metric s
  obtain ⟨s₂, hs₂, hkeys₂, ⟨more₂, hmore₂, hcodes₂, hiff₂⟩, hclaims₂⟩ := foldl_checkAlias (T := T) hid metric.aliases s₁
  have hcheck : checkNames T s metric = s₂ := by
    rw [← hs₂, ← hs₁]
    rfl
  rw [hcheck]
  have hissues : s₂.issues = s.issues ++ more₁ ++ more₂ := by rw [hmore₂, hmore₁]
  have hquiet : Quiet T (metrics ++ [metric]) ↔ Quiet T metrics ∧ Admits T metrics metric := eachAfter_snoc
  have hkeyOwner : ∀ token, keyOwner T (metrics ++ [metric]) token =
      (keyOwner T metrics token).or (if keyToken T metric = token then some metric else none) := by
    intro token
    rw [keyOwner, List.find?_append, keyOwner, List.find?_singleton]
    simp only [decide_eq_true_iff]
  have haliasOwner : ∀ token, aliasOwner T (metrics ++ [metric]) token =
      (aliasOwner T metrics token).or (if token ∈ aliasTokens T metric then some metric else none) := by
    intro token
    rw [aliasOwner, List.find?_append, aliasOwner, List.find?_singleton]
    simp only [decide_eq_true_iff]
  have hnonempty : ∀ token owner, aliasOwner T metrics token = some owner → owner.assetId ≠ "" :=
    fun token owner howner => hids owner (List.mem_of_find?_eq_some howner)
  have hnonempty' : ∀ token owner, keyOwner T metrics token = some owner → owner.assetId ≠ "" :=
    fun token owner howner => hids owner (List.mem_of_find?_eq_some howner)
  -- an alias clashes where it belongs to another metric before
  have hclash : Quiet T metrics → ((∃ token ∈ aliasTokens T metric, Clashes metric s₁ token) ↔ ¬Admits T metrics metric) := by
    intro hbefore
    have htoken : ∀ token ∈ aliasTokens T metric,
        ¬Clashes metric s₁ token ↔ BelongsTo metric.assetId (aliasOwner T metrics token) (keyOwner T metrics token) := by
      intro token htoken
      obtain ⟨-, hword, hown⟩ := mem_aliasTokens.mp htoken
      refine not_clashes_iff ?_ ?_ (hnonempty token) (hnonempty' token)
      · rw [haliases₁, h.aliases hbefore]
      · rw [hkeys₁, if_neg fun h => hown h.2.1, h.keys token hword]
    rw [Admits, not_forall]
    constructor
    · rintro ⟨token, hmem, hclashes⟩
      exact ⟨token, fun hall => (htoken token hmem).mpr (hall hmem) hclashes⟩
    · rintro ⟨token, hnot⟩
      by_contra hnone
      exact hnot fun hmem => (htoken token hmem).mp fun hclashes => hnone ⟨token, hmem, hclashes⟩
  have hex : ∀ code, (∃ issue ∈ s₂.issues, issue.code = code) ↔
      (∃ issue ∈ s.issues, issue.code = code) ∨ (more₁ ≠ [] ∧ code = "duplicate_metric_key") ∨
        (more₂ ≠ [] ∧ code = "duplicate_metric_alias") := by
    intro code
    rw [hissues]
    constructor
    · rintro ⟨issue, hissue, rfl⟩
      rcases List.mem_append.mp hissue with hissue | hissue
      · rcases List.mem_append.mp hissue with hissue | hissue
        · exact .inl ⟨issue, hissue, rfl⟩
        · exact .inr (.inl ⟨List.ne_nil_of_mem hissue, hcodes₁ issue hissue⟩)
      · exact .inr (.inr ⟨List.ne_nil_of_mem hissue, hcodes₂ issue hissue⟩)
    · rintro (⟨issue, hissue, rfl⟩ | ⟨hne, rfl⟩ | ⟨hne, rfl⟩)
      · exact ⟨issue, List.mem_append_left _ (List.mem_append_left _ hissue), rfl⟩
      · obtain ⟨issue, hissue⟩ := List.exists_mem_of_ne_nil _ hne
        exact ⟨issue, List.mem_append_left _ (List.mem_append_right _ hissue), hcodes₁ issue hissue⟩
      · obtain ⟨issue, hissue⟩ := List.exists_mem_of_ne_nil _ hne
        exact ⟨issue, List.mem_append_right _ hissue, hcodes₂ issue hissue⟩
  refine ⟨fun token hword => ?_, fun hall token => ?_, fun issue hissue => ?_, ?_, ?_⟩
  · rw [hkeys₂, hkeys₁, h.keys token hword, hkeyOwner]
    cases keyOwner T metrics token with
    | some owner => rfl
    | none =>
      by_cases heq : keyToken T metric = token
      · rw [if_pos ⟨rfl, heq.symm, hword⟩, if_pos heq]
        rfl
      · rw [if_neg fun h => heq h.2.1.symm, if_neg heq]
        rfl
  · obtain ⟨hbefore, hadmits⟩ := hquiet.mp hall
    have hnone : ∀ token ∈ aliasTokens T metric, ¬Clashes metric s₁ token := fun token hmem hclashes =>
      (hclash hbefore).mp ⟨token, hmem, hclashes⟩ hadmits
    have hclaims : s₂.aliases.get? token = if token ∈ aliasTokens T metric then some metric.assetId else s₁.aliases.get? token :=
      hclaims₂ hnone token
    rw [hclaims, haliases₁, h.aliases hbefore, haliasOwner]
    by_cases hmem : token ∈ aliasTokens T metric
    · have hbelongs := hadmits token hmem
      rw [if_pos hmem, if_pos hmem]
      cases howner : aliasOwner T metrics token with
      | none => rfl
      | some owner => exact congrArg some (hbelongs owner (by rw [howner]; rfl)).symm
    · rw [if_neg hmem, if_neg hmem, Option.or_none]
  · rw [hissues] at hissue
    rcases List.mem_append.mp hissue with hissue | hissue
    · rcases List.mem_append.mp hissue with hissue | hissue
      · exact h.codes issue hissue
      · exact .inl (hcodes₁ issue hissue)
    · exact .inr (hcodes₂ issue hissue)
  · have hkeys : keyTokens T (metrics ++ [metric]) = keyTokens T metrics ++ if keyToken T metric ≠ "" then [keyToken T metric] else [] := by
      rw [keyTokens, List.map_append, List.filter_append, keyTokens]
      by_cases hword : keyToken T metric = "" <;> simp [hword]
    rw [hex, h.duplicateKey, hkeys]
    have hmore : more₁ ≠ [] ↔ keyToken T metric ≠ "" ∧ keyToken T metric ∈ keyTokens T metrics := by
      rw [hiff₁]
      refine and_congr_right fun hword => ?_
      rw [mem_keyTokens, h.keys _ hword, ne_eq, Option.map_eq_none_iff]
      exact (and_iff_right hword).symm
    have hnodup : (keyTokens T metrics ++ if keyToken T metric ≠ "" then [keyToken T metric] else []).Nodup ↔
        (keyTokens T metrics).Nodup ∧ ¬(keyToken T metric ≠ "" ∧ keyToken T metric ∈ keyTokens T metrics) := by
      by_cases hword : keyToken T metric ≠ ""
      · rw [if_pos hword, List.nodup_append_comm, List.singleton_append, List.nodup_cons, and_comm, not_and]
        exact and_congr_right fun _ => ⟨fun h _ => h, fun h => h hword⟩
      · rw [if_neg hword, List.append_nil]
        exact (and_iff_left fun h => hword h.1).symm
    rw [hnodup, ← hmore, not_and_or, not_not]
    exact or_congr_right ⟨fun h => h.elim And.left fun h => absurd h.2 (by decide), fun h => .inl ⟨h, rfl⟩⟩
  · rw [hex, h.duplicateAlias, hquiet, not_and_or]
    by_cases hbefore : Quiet T metrics
    · have hmore : more₂ ≠ [] ↔ ¬Admits T metrics metric := hiff₂.trans (hclash hbefore)
      rw [← hmore]
      exact or_congr_right ⟨fun h => h.elim (fun h => absurd h.2 (by decide)) And.left, fun h => .inr ⟨h, rfl⟩⟩
    · exact iff_of_true (.inl hbefore) (.inl hbefore)

/-- What the pass finds. -/
theorem seen (metrics : List MetricAsset) (hids : ∀ metric ∈ metrics, metric.assetId ≠ "") : Seen T metrics (metrics.foldl (checkNames T) {}) := by
  induction metrics using List.reverseRecOn with
  | nil =>
    refine ⟨fun _ _ => rfl, fun _ _ => rfl, fun _ h => absurd h List.not_mem_nil, ?_, ?_⟩
    · exact iff_of_false (fun ⟨_, h, _⟩ => absurd h List.not_mem_nil) fun h => h .nil
    · exact iff_of_false (fun ⟨_, h, _⟩ => absurd h List.not_mem_nil) fun h => h (eachAfter_nil _)
  | append_singleton metrics metric ih =>
    rw [List.foldl_append]
    have hbefore := fun m hm => hids m (List.mem_append_left _ hm)
    exact (ih hbefore).snoc hbefore (hids metric (List.mem_append_right _ (List.mem_singleton_self _)))

end Pass

/-! ## Orders -/

/-- A metric goes by a name: it is its key or one of its aliases. -/
def GoesBy (token : String) (metric : MetricAsset) : Prop := keyToken T metric = token ∨ token ∈ aliasTokens T metric

/-- No alias of a metric is a name another goes by. -/
def NamesApart (metrics : List MetricAsset) : Prop :=
  ∀ metric ∈ metrics, ∀ token ∈ aliasTokens T metric, ∀ other ∈ metrics, GoesBy T token other → other.assetId = metric.assetId

/-- Two metrics share an alias. -/
def AliasShared (metrics : List MetricAsset) : Prop :=
  ∃ metric ∈ metrics, ∃ other ∈ metrics, ∃ token ∈ aliasTokens T metric, token ∈ aliasTokens T other ∧ other.assetId ≠ metric.assetId

/-- The key of a metric is an alias of another, and all that go by it with the other's identity are among some. -/
def HeldUp (metrics circle : List MetricAsset) (metric : MetricAsset) : Prop :=
  ∃ user ∈ metrics, keyToken T metric ∈ aliasTokens T user ∧ user.assetId ≠ metric.assetId ∧
    ∀ other ∈ metrics, GoesBy T (keyToken T metric) other → other.assetId = user.assetId → other ∈ circle

/-- Keys and aliases go round: the key of each of some metrics is an alias that only the others among them claim. -/
def NamesGoRound (metrics : List MetricAsset) : Prop :=
  ∃ circle, circle ≠ [] ∧ circle ⊆ metrics ∧ ∀ metric ∈ circle, HeldUp T metrics circle metric

section Orders

variable {T} {metrics order : List MetricAsset}

theorem aliasOwner_spec {token : String} {owner : MetricAsset} (h : aliasOwner T metrics token = some owner) :
    owner ∈ metrics ∧ token ∈ aliasTokens T owner := by
  have htrue := List.find?_some h
  exact ⟨List.mem_of_find?_eq_some h, of_decide_eq_true htrue⟩

theorem keyOwner_spec {token : String} {owner : MetricAsset} (h : keyOwner T metrics token = some owner) :
    keyToken T owner = token ∧ ∃ before after, metrics = before ++ owner :: after ∧ ∀ metric ∈ before, keyToken T metric ≠ token := by
  obtain ⟨hkey, before, after, heq, hbefore⟩ := List.find?_eq_some_iff_append.mp h
  exact ⟨of_decide_eq_true hkey, before, after, heq, fun metric hmetric => by simpa using hbefore metric hmetric⟩

theorem aliasOwner_eq_none {token : String} : aliasOwner T metrics token = none ↔ ∀ metric ∈ metrics, token ∉ aliasTokens T metric := by
  rw [aliasOwner, List.find?_eq_none]
  simp only [decide_eq_true_iff]

/-- Where names stand apart, every order is quiet. -/
theorem NamesApart.quiet (h : NamesApart T metrics) (horder : order.Perm metrics) : Quiet T order := by
  rintro before metric after rfl token htoken owner howner
  have hmem : ∀ m ∈ before ++ metric :: after, m ∈ metrics := fun m hm => horder.mem_iff.mp hm
  have hbefore : ∀ m ∈ before, m ∈ metrics := fun m hm => hmem m (List.mem_append_left _ hm)
  have hmetric := hmem metric (List.mem_append_right _ List.mem_cons_self)
  rcases Option.or_eq_some_iff.mp howner with hclaimed | ⟨-, hheld⟩
  · obtain ⟨hin, halias⟩ := aliasOwner_spec hclaimed
    exact h metric hmetric token htoken owner (hbefore owner hin) (.inr halias)
  · obtain ⟨hkey, first, rest, rfl, -⟩ := keyOwner_spec hheld
    exact h metric hmetric token htoken owner (hbefore owner (List.mem_append_right _ List.mem_cons_self)) (.inl hkey)

/-- Where they do not, the one that goes by an alias of another may come first. -/
theorem exists_not_quiet (h : ¬NamesApart T metrics) : ∃ order, order.Perm metrics ∧ ¬Quiet T order := by
  unfold NamesApart at h
  push Not at h
  obtain ⟨metric, hmetric, token, htoken, other, hother, hgoes, hne⟩ := h
  obtain ⟨rest, hrest⟩ := exists_perm_cons hother
  have hmem : metric ∈ rest := (List.mem_cons.mp (hrest.mem_iff.mp hmetric)).resolve_left fun heq => hne (by rw [heq])
  obtain ⟨rest', hrest'⟩ := exists_perm_cons hmem
  refine ⟨other :: metric :: rest', (hrest.trans (hrest'.cons other)).symm, fun hquiet => ?_⟩
  have hadmits := hquiet [other] metric rest' rfl token htoken
  refine hne (hadmits other ?_)
  by_cases halias : token ∈ aliasTokens T other
  · simp [aliasOwner, halias]
  · simp [aliasOwner, keyOwner, halias, hgoes.resolve_right halias]

/-- Where two share an alias, no order is quiet. -/
theorem AliasShared.not_quiet (h : AliasShared T metrics) (horder : order.Perm metrics) : ¬Quiet T order := by
  intro hquiet
  obtain ⟨metric, hmetric, other, hother, token, htoken, htoken', hne⟩ := h
  -- all with the alias have the identity of the first
  have hsame : ∀ m ∈ order, token ∈ aliasTokens T m → ∃ first, aliasOwner T order token = some first ∧ m.assetId = first.assetId := by
    intro m hm hmem
    obtain ⟨before, after, rfl⟩ := List.append_of_mem hm
    have hadmits := hquiet before m after rfl token hmem
    rw [aliasOwner, List.find?_append]
    cases hbefore : aliasOwner T before token with
    | some first =>
      refine ⟨first, ?_, (hadmits first (by rw [hbefore]; rfl)).symm⟩
      rw [aliasOwner] at hbefore
      rw [hbefore]
      rfl
    | none =>
      rw [aliasOwner] at hbefore
      refine ⟨m, ?_, rfl⟩
      rw [hbefore, Option.none_or]
      exact List.find?_cons_of_pos (decide_eq_true hmem)
  obtain ⟨first, hfirst, heq⟩ := hsame metric (horder.mem_iff.mpr hmetric) htoken
  obtain ⟨first', hfirst', heq'⟩ := hsame other (horder.mem_iff.mpr hother) htoken'
  obtain rfl := Option.some.inj (hfirst.symm.trans hfirst')
  exact hne (heq'.trans heq.symm)

/-- Where keys and aliases go round, no order is quiet: of those in the circle one comes first. -/
theorem NamesGoRound.not_quiet (h : NamesGoRound T metrics) (horder : order.Perm metrics) : ¬Quiet T order := by
  by_cases hshared : AliasShared T metrics
  · exact hshared.not_quiet horder
  intro hquiet
  obtain ⟨circle, hne, hsub, hcircle⟩ := h
  obtain ⟨some_, hsome⟩ := List.exists_mem_of_ne_nil circle hne
  obtain ⟨before, metric, after, heq, hmetric, hbefore⟩ :=
    exists_first (P := (· ∈ circle)) ⟨some_, horder.mem_iff.mpr (hsub hsome), hsome⟩
  obtain ⟨user, huser, halias, hid, hall⟩ := hcircle metric hmetric
  have hmem : ∀ m, m ∈ order ↔ m ∈ metrics := fun m => horder.mem_iff
  have hsame : ∀ m ∈ metrics, keyToken T metric ∈ aliasTokens T m → m.assetId = user.assetId := by
    intro m hm hmem'
    by_contra hdiff
    exact hshared ⟨user, huser, m, hm, keyToken T metric, halias, hmem', hdiff⟩
  -- the first that claims the key comes after the metric
  obtain ⟨before', first, after', heq', hfirst, hbefore'⟩ :=
    exists_first (P := fun m => keyToken T metric ∈ aliasTokens T m) ⟨user, (hmem user).mpr huser, halias⟩
  have hfirst_mem : first ∈ metrics := (hmem first).mp (heq' ▸ List.mem_append_right _ List.mem_cons_self)
  have hfirst_id := hsame first hfirst_mem hfirst
  have hlater : metric ∈ before' := by
    rcases place_cases (heq.symm.trans heq') with hin | hin | ⟨-, rfl⟩
    · exact absurd (hall first hfirst_mem (.inr hfirst) hfirst_id) (hbefore first hin)
    · exact hin
    · exact absurd hfirst_id.symm hid
  have hnone : aliasOwner T before' (keyToken T metric) = none := aliasOwner_eq_none.mpr hbefore'
  have hadmits := hquiet before' first after' heq' _ hfirst
  cases hheld : keyOwner T before' (keyToken T metric) with
  | none => exact absurd (decide_eq_true rfl) (List.find?_eq_none.mp hheld metric hlater)
  | some holder =>
    -- the first with the key has the identity of those that claim it, so it is in the circle, and before the metric
    obtain ⟨hkey, front, rest, hsplit, hfront⟩ := keyOwner_spec hheld
    have hholder_id := hadmits holder (by rw [hnone, hheld]; rfl)
    have hholder_mem : holder ∈ metrics := by
      refine (hmem holder).mp (heq' ▸ List.mem_append_left _ (hsplit ▸ ?_))
      exact List.mem_append_right _ List.mem_cons_self
    have hin_circle := hall holder hholder_mem (.inl hkey) (hholder_id.trans hfirst_id)
    have horder' : before ++ metric :: after = front ++ holder :: (rest ++ first :: after') := by
      rw [← heq, heq', hsplit, List.append_assoc, List.cons_append]
    rcases place_cases horder' with hin | hin | ⟨-, rfl⟩
    · exact hbefore holder hin hin_circle
    · exact hfront metric hin rfl
    · exact hid (hholder_id.trans hfirst_id).symm

/-- In an order, before a metric whose key is an alias of another there is one with the other's identity that goes by it. -/
def Served (T : AuthoringTools) (metrics : List MetricAsset) : List MetricAsset → Prop :=
  EachAfter fun before metric => ∀ user ∈ metrics, keyToken T metric ∈ aliasTokens T user → user.assetId ≠ metric.assetId →
    ∃ other ∈ before, GoesBy T (keyToken T metric) other ∧ other.assetId = user.assetId

/-- Where nothing goes round, an order that is served may be completed. -/
theorem exists_served (h : ¬NamesGoRound T metrics) {before rest : List MetricAsset} (hperm : (before ++ rest).Perm metrics)
    (hserved : Served T metrics before) : ∃ order, order.Perm metrics ∧ Served T metrics order := by
  induction hn : rest.length generalizing before rest with
  | zero =>
    obtain rfl := List.eq_nil_of_length_eq_zero hn
    rw [List.append_nil] at hperm
    exact ⟨before, hperm, hserved⟩
  | succ n ih =>
    have hrest : rest ≠ [] := by
      rintro rfl
      nomatch hn
    have hmem : ∀ m ∈ rest, m ∈ metrics := fun m hm => hperm.mem_iff.mp (List.mem_append_right _ hm)
    have hfree : ∃ metric ∈ rest, ¬HeldUp T metrics rest metric := by
      by_contra hnone
      push Not at hnone
      exact h ⟨rest, hrest, hmem, hnone⟩
    obtain ⟨metric, hmetric, hfree⟩ := hfree
    obtain ⟨rest', hrest'⟩ := exists_perm_cons hmetric
    have hperm' : (before ++ [metric] ++ rest').Perm metrics := by
      rw [List.append_assoc, List.singleton_append]
      exact (hrest'.symm.append_left before).trans hperm
    refine ih hperm' (eachAfter_snoc.mpr ⟨hserved, fun user huser halias hne => ?_⟩) ?_
    · by_contra hnone
      refine hfree ⟨user, huser, halias, hne, fun other hother hgoes hid => ?_⟩
      refine (List.mem_append.mp (hperm.mem_iff.mpr hother)).resolve_left fun hbefore => ?_
      exact hnone ⟨other, hbefore, hgoes, hid⟩
    · have hlength := hrest'.length_eq
      rw [List.length_cons] at hlength
      omega

/-- An order that is served is quiet, where no two share an alias. -/
theorem Served.quiet (hshared : ¬AliasShared T metrics) (horder : order.Perm metrics) (h : Served T metrics order) : Quiet T order := by
  rintro before metric after rfl token htoken owner howner
  have hmem : ∀ m ∈ before ++ metric :: after, m ∈ metrics := fun m hm => horder.mem_iff.mp hm
  have hmetric := hmem metric (List.mem_append_right _ List.mem_cons_self)
  by_contra hne
  rcases Option.or_eq_some_iff.mp howner with hclaimed | ⟨hnone, hheld⟩
  · obtain ⟨hin, halias⟩ := aliasOwner_spec hclaimed
    exact hshared ⟨metric, hmetric, owner, hmem owner (List.mem_append_left _ hin), token, htoken, halias, hne⟩
  · obtain ⟨rfl, front, rest, rfl, hfront⟩ := keyOwner_spec hheld
    have hplace : front ++ owner :: rest ++ metric :: after = front ++ owner :: (rest ++ metric :: after) := by
      rw [List.append_assoc, List.cons_append]
    obtain ⟨other, hother, hgoes, -⟩ := h front owner _ hplace metric hmetric htoken (Ne.symm hne)
    rcases hgoes with hkey | halias
    · exact hfront other hother hkey
    · exact aliasOwner_eq_none.mp hnone other (List.mem_append_left _ hother) halias

/-- The orders of some metrics are all quiet or all not, exactly where their names stand apart, they share an alias or their names go round. -/
theorem quiet_settled_iff :
    (∀ order, order.Perm metrics → (Quiet T order ↔ Quiet T metrics)) ↔
      NamesApart T metrics ∨ AliasShared T metrics ∨ NamesGoRound T metrics := by
  constructor
  · intro h
    by_contra hnone
    obtain ⟨hmixed, hnone⟩ := not_or.mp hnone
    obtain ⟨hshared, hround⟩ := not_or.mp hnone
    obtain ⟨loud, hloud, hnot⟩ := exists_not_quiet hmixed
    have hstart : ([] ++ metrics).Perm metrics := .refl metrics
    obtain ⟨order, horder, hserved⟩ := exists_served hround hstart (eachAfter_nil _)
    exact hnot ((h loud hloud).mpr ((h order horder).mp (hserved.quiet hshared horder)))
  · rintro (h | h | h) order horder
    · exact iff_of_true (h.quiet horder) (h.quiet (.refl metrics))
    · exact iff_of_false (h.not_quiet horder) (h.not_quiet (.refl metrics))
    · exact iff_of_false (h.not_quiet horder) (h.not_quiet (.refl metrics))

end Orders

end Nl2Sql.Authoring
