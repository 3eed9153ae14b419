import Nl2Sql.Lib.Method
import Nl2Sql.Metric.Compiler

/-!
# What a compiled metric query looks like

A draft is scoped once the condition of the authorization is in it, and stays scoped while the compiler goes on collecting: the
parameters that come after it have other names. What a compiled query is made of is then read off the program, one bind at a time.
-/

namespace Nl2Sql

open Py Sql

/-- A value is one of the authorized ids, read as the type of the column has them. -/
def AuthorizationContext.Covers (authorization : AuthorizationContext) (valueType : String) (value : Value) : Prop :=
  if valueType = "text" then ∃ id ∈ authorization.allowedScopeIds, value = .text id
  else ∃ id ∈ authorization.allowedScopeIds, (canonicalInteger? id).map .int = some value

instance (authorization : AuthorizationContext) (valueType : String) (value : Value) :
    Decidable (authorization.Covers valueType value) :=
  inferInstanceAs (Decidable (ite _ _ _))

namespace MetricAux

/-! ## Programs that return -/

theorem rejectIf_eq_ok {c : Prop} [Decidable c] {code : MetricCode} {u : Unit} : rejectIf c code = .ok u ↔ ¬ c := by
  unfold rejectIf
  split <;> simp_all

theorem orReject_eq_ok {α : Type} {code : MetricCode} {o : Option α} {a : α} : orReject code o = .ok a ↔ o = some a := by
  cases o <;> simp [orReject]

/-- The ids of an authorization, as values of a column, are what it covers. -/
theorem covers_of_scopeValues {authorization : AuthorizationContext} {valueType columnType : String} {ids : List Value}
    (h : authorizationScopeValues authorization.allowedScopeIds valueType columnType = .ok ids) :
    ∀ v ∈ ids, authorization.Covers valueType v := by
  unfold authorizationScopeValues at h
  unfold AuthorizationContext.Covers
  intro v hv
  split at h
  · rename_i htext
    cases h
    obtain ⟨id, hid, rfl⟩ := List.mem_map.mp hv
    rw [if_pos htext]
    exact ⟨id, hid, rfl⟩
  · rename_i htext
    rw [if_neg htext]
    have hread : ∀ id v, strictIntegerScopeId columnType id = .ok v → ((canonicalInteger? id).map Value.int).getD .null = v := by
      intro id v hid
      obtain ⟨n, hn, hid⟩ := bind_eq_ok.mp hid
      obtain ⟨-, -, hid⟩ := bind_eq_ok.mp hid
      obtain ⟨-, -, hid⟩ := bind_eq_ok.mp hid
      cases hid
      rw [orReject_eq_ok.mp hn]
      rfl
    obtain ⟨rfl, hall⟩ := mapM_eq_ok hread h
    obtain ⟨id, hid, rfl⟩ := List.mem_map.mp hv
    obtain ⟨n, hn, -⟩ := bind_eq_ok.mp (hall id hid)
    refine ⟨id, hid, ?_⟩
    rw [orReject_eq_ok.mp hn]
    rfl

/-! ## Coverage -/

/-- A coverage without a defect names each level once. -/
theorem levels_nodup {types : Dict String String} {levels fields : List String} {coverage : List OrganizationCoverageBinding}
    (h : coverageProblems types levels fields coverage = []) :
    (coverage.map (·.scopeLevel)).Nodup ∧ ∀ binding ∈ coverage, binding.scopeLevel ∉ levels := by
  induction coverage generalizing levels fields with
  | nil => exact ⟨List.nodup_nil, nofun⟩
  | cons binding rest ih =>
    unfold coverageProblems at h
    split at h
    · nomatch h
    · split at h
      · nomatch h
      · rename_i hnew
        obtain ⟨hnodup, hrest⟩ := ih (List.append_eq_nil_iff.mp h).2
        refine ⟨List.nodup_cons.mpr ⟨fun hmem => ?_, hnodup⟩, List.forall_mem_cons.mpr ⟨hnew, fun b hb hl => ?_⟩⟩
        · obtain ⟨b, hb, hlevel⟩ := List.mem_map.mp hmem
          exact hrest b hb (List.mem_append_right _ (List.mem_singleton.mpr hlevel))
        · exact hrest b hb (List.mem_append_left _ hl)

/-- The coverage of the caller's level is the only one of that level. -/
theorem authorizationCoverage_eq {relation : RelationSnapshot} (hvalid : validateOrganizationCoverage relation = [])
    {level : ScopeLevel} {found coverage : OrganizationCoverageBinding}
    (h : authorizationCoverage relation.organizationCoverage level = .ok found) (hmem : coverage ∈ relation.organizationCoverage)
    (hlevel : coverage.scopeLevel = level.text) : coverage = found := by
  have hfound := orReject_eq_ok.mp h
  have hsame : found.scopeLevel = level.text := by simpa using List.find?_some hfound
  exact List.inj_on_of_nodup_map (levels_nodup hvalid).1 hmem (List.mem_of_find?_eq_some hfound) (hlevel.trans hsame.symm)

/-! ## Scoped drafts -/

/-- The letter that the parameters of the authorization start with, and no parameter that is set after them. -/
def isScopeKey (name : String) : Prop := name.toList.head? = some 'a'

instance (name : String) : Decidable (isScopeKey name) := inferInstanceAs (Decidable (_ = _))

theorem head?_append {s : String} (h : s.toList ≠ []) (t : String) : (s ++ t).toList.head? = s.toList.head? := by
  rw [String.toList_append, List.head?_append_of_ne_nil _ h]

/-- A draft that restricts a column to some ids. -/
def Scoped (field : String) (ids : List Value) (draft : Draft) : Prop :=
  ∃ names, Cond.isIn (.column field) names ∈ draft.conditions ∧
    ∀ name ∈ names, isScopeKey name ∧ ∃ v ∈ ids, draft.params.get? name = some v

variable {field : String} {ids : List Value} {draft : Draft}

/-- A condition under parameters of another letter keeps a draft scoped. -/
theorem Scoped.add (h : Scoped field ids draft) (condition : Cond) {values : List (String × Value)}
    (hkeys : ∀ kv ∈ values, ¬ isScopeKey kv.1) : Scoped field ids (draft.add condition values) := by
  obtain ⟨names, hcond, hnames⟩ := h
  refine ⟨names, List.mem_append_left _ hcond, fun name hname => ?_⟩
  obtain ⟨hkey, v, hv, hget⟩ := hnames name hname
  refine ⟨hkey, v, hv, (Dict.get?_update_of_not_mem ?_ _).trans hget⟩
  intro hmem
  obtain ⟨kv, hkv, rfl⟩ := List.mem_map.mp hmem
  exact hkeys kv hkv hkey

/-- A numbered parameter starts with the letter of its name. -/
theorem head?_numbered {name key : String} {count : Nat} (hname : name.toList ≠ []) (h : key ∈ numbered name count) :
    key.toList.head? = name.toList.head? := by
  obtain ⟨position, -, rfl⟩ := List.mem_map.mp h
  have hne : (name ++ "_").toList ≠ [] := by simp
  rw [head?_append hne, head?_append hname]

theorem length_numbered (name : String) (count : Nat) : (numbered name count).length = count := by
  simp [numbered]

theorem Scoped.addIn (h : Scoped field ids draft) (e : Scalar) {name : String} (hname : name.toList ≠ [])
    (hkey : ¬ isScopeKey name) (values : List Value) : Scoped field ids (draft.addIn e name values) := by
  refine h.add _ fun kv hkv hscope => hkey ?_
  unfold isScopeKey at hscope ⊢
  rw [← head?_numbered hname (List.of_mem_zip hkv).1]
  exact hscope

/-- The condition of the authorization makes a draft scoped. -/
theorem scoped_addIn (field : String) (ids : List Value) (draft : Draft) :
    Scoped field ids (draft.addIn (.column field) "auth_scope" ids) := by
  refine ⟨numbered "auth_scope" ids.length, List.mem_append_right _ (List.mem_singleton.mpr rfl), fun name hname => ⟨?_, ?_⟩⟩
  · exact head?_numbered (by decide) hname
  · have hmem : name ∈ ((numbered "auth_scope" ids.length).zip ids).map Prod.fst := by
      rw [List.map_fst_zip (by rw [length_numbered])]
      exact hname
    obtain ⟨v, hv, hget⟩ := Dict.get?_update_of_mem hmem draft.params
    exact ⟨v, (List.of_mem_zip hv).2, hget⟩

/-- A loop keeps a draft scoped when each round does. -/
theorem Scoped.foldl {α : Type} {f : Draft → α → Draft} {items : List α}
    (hstep : ∀ item ∈ items, ∀ draft, Scoped field ids draft → Scoped field ids (f draft item)) (h : Scoped field ids draft) :
    Scoped field ids (items.foldl f draft) := by
  induction items generalizing draft with
  | nil => exact h
  | cons item rest ih =>
    exact ih (fun i hi => hstep i (List.mem_cons_of_mem item hi)) (hstep item List.mem_cons_self draft h)

theorem Scoped.source (r : SourceRequest) (scope : String) (h : Scoped field ids draft) :
    Scoped field ids (r.sourceDraft scope draft) := by
  unfold SourceRequest.sourceDraft
  cases r.binding.aggregate with
  | none => exact Scoped.foldl (fun item _ draft hd => hd.add (predicateSql item) nofun) h
  | some aggregate =>
    refine Scoped.foldl (fun item hitem draft hd => hd.add _ fun kv hkv => ?_) h
    rw [List.mem_singleton.mp hkv]
    simp only [List.mem_cons, List.not_mem_nil, or_false] at hitem
    rcases hitem with rfl | rfl | rfl | rfl | rfl | rfl | rfl | rfl <;> dsimp only <;> decide

theorem Scoped.dimension (dimension : Option (OrganizationCoverageBinding × String)) (h : Scoped field ids draft) :
    Scoped field ids (SourceRequest.dimensionDraft dimension draft) := by
  cases dimension with
  | none => exact h
  | some pair => exact h.add _ nofun

/-- A filter keeps a draft scoped. -/
theorem Scoped.filterStep {r : SourceRequest} {relation : RelationSnapshot} {authorization : Option AuthorizationContext}
    {filters : Dict String OrganizationCoverageBinding} {index : Nat} {item : BoundFilter} {draft' : Draft}
    (hstep : r.filterStep relation authorization filters index item draft = .ok draft') (h : Scoped field ids draft) :
    Scoped field ids draft' := by
  have hne : ("filter_" ++ toString index).toList ≠ [] := by simp
  have hkey : ¬ isScopeKey ("filter_" ++ toString index) := by
    unfold isScopeKey
    rw [head?_append (by decide)]
    decide
  obtain ⟨⟨target, valueType⟩, -, hstep⟩ := bind_eq_ok.mp hstep
  obtain ⟨jsons, -, hstep⟩ := bind_eq_ok.mp hstep
  obtain ⟨type, -, hstep⟩ := bind_eq_ok.mp hstep
  obtain ⟨values, -, hstep⟩ := bind_eq_ok.mp hstep
  obtain ⟨-, -, hstep⟩ := bind_eq_ok.mp hstep
  split at hstep
  · obtain ⟨-, -, hstep⟩ := bind_eq_ok.mp hstep
    cases hstep
    exact h.addIn _ hne hkey values
  · cases hstep
    refine h.add _ fun kv hkv => ?_
    obtain ⟨v, -, rfl⟩ := List.mem_map.mp hkv
    exact hkey

/-- The loop over the filters keeps a draft scoped. -/
theorem Scoped.filterDraft {r : SourceRequest} {relation : RelationSnapshot} {authorization : Option AuthorizationContext}
    {filters : Dict String OrganizationCoverageBinding} {items : List BoundFilter} {index : Nat} {seen : List String}
    {draft' : Draft} (hrun : r.filterDraft relation authorization filters index seen items draft = .ok draft')
    (h : Scoped field ids draft) : Scoped field ids draft' := by
  induction items generalizing index seen draft with
  | nil =>
    cases hrun
    exact h
  | cons item rest ih =>
    obtain ⟨-, -, hrun⟩ := bind_eq_ok.mp hrun
    obtain ⟨next, hnext, hrun⟩ := bind_eq_ok.mp hrun
    exact ih hrun (h.filterStep hnext)

/-- The condition of the authorization, for a coverage that names a column. -/
theorem authorizationDraft_scoped {relation : RelationSnapshot} {authorization : AuthorizationContext}
    {coverage : OrganizationCoverageBinding} (hfield : coverage.field = some field) {draft' : Draft}
    (h : SourceRequest.authorizationDraft relation (some authorization) (some coverage) draft = .ok draft') :
    ∃ valueType ids, coverage.valueType = some valueType ∧ (∀ v ∈ ids, authorization.Covers valueType v) ∧
      Scoped field ids draft' := by
  unfold SourceRequest.authorizationDraft at h
  simp only [Option.bind_some, hfield] at h
  cases htype : coverage.valueType with
  | none =>
    rw [htype] at h
    nomatch h
  | some valueType =>
    rw [htype] at h
    obtain ⟨type, -, h⟩ := bind_eq_ok.mp h
    obtain ⟨ids, hids, h⟩ := bind_eq_ok.mp h
    cases h
    exact ⟨valueType, ids, rfl, covers_of_scopeValues hids, scoped_addIn field ids draft⟩

section Source

open MetricQueryCompiler

variable {D : MetricDigests} {c : MetricQueryCompiler} {q : CompiledMetricQuery}

/-! ## The source of a compiled query -/

/-- The query that the loop over the aggregates returns is the query of one of them. -/
theorem tryAggregates_eq_ok {s : Selection} {sources : List RelationBinding} {state : Rejections}
    (h : c.tryAggregates D s sources state = .ok (.inl q)) :
    ∃ source ∈ sources, ∃ reason degradation, c.compileWithFreshness D s source reason degradation = .ok q := by
  induction sources generalizing state with
  | nil => nomatch h
  | cons source rest ih =>
    have hrest : ∀ state', c.tryAggregates D s rest state' = .ok (.inl q) →
        ∃ source' ∈ source :: rest, ∃ reason degradation, c.compileWithFreshness D s source' reason degradation = .ok q := by
      intro state' h'
      obtain ⟨source', hmem, hcompiled⟩ := ih h'
      exact ⟨source', List.mem_cons_of_mem source hmem, hcompiled⟩
    unfold tryAggregates at h
    split at h
    · exact hrest _ h
    · split at h
      · exact hrest _ h
      · split at h
        · rename_i query hquery
          split at h
          · cases h
            exact ⟨source, List.mem_cons_self, _, _, hquery⟩
          · exact hrest _ h
          · exact hrest _ h
        · split at h
          · exact hrest _ h
          · nomatch h
        · nomatch h

/-- The query that the loop over the detail sources returns is the query of one of them. -/
theorem tryDetails_eq_ok {s : Selection} {degradation : List SourceDegradation} {sources : List RelationBinding}
    {rejected : List MetricCode} (h : c.tryDetails D s degradation sources rejected = .ok q) :
    ∃ source ∈ sources, ∃ reason degradation, c.compileWithFreshness D s source reason degradation = .ok q := by
  induction sources generalizing rejected with
  | nil => nomatch h
  | cons source rest ih =>
    have hrest : ∀ rejected', c.tryDetails D s degradation rest rejected' = .ok q →
        ∃ source' ∈ source :: rest, ∃ reason degradation, c.compileWithFreshness D s source' reason degradation = .ok q := by
      intro rejected' h'
      obtain ⟨source', hmem, hcompiled⟩ := ih h'
      exact ⟨source', List.mem_cons_of_mem source hmem, hcompiled⟩
    unfold tryDetails at h
    split at h
    · exact hrest _ h
    · split at h
      · nomatch h
      · split at h
        · rename_i query hquery
          cases h
          exact ⟨source, List.mem_cons_self, _, _, hquery⟩
        · split at h
          · exact hrest _ h
          · nomatch h
        · nomatch h

theorem selectSource_eq_ok {s : Selection} (h : c.selectSource D s = .ok q) :
    ∃ source ∈ c.bindings, ∃ reason degradation, c.compileWithFreshness D s source reason degradation = .ok q := by
  have hmem : ∀ source, source ∈ ((c.bindings.filter fun item => item.sourceRef = s.metric.sourceRef).insertionSort
      fun a b => a.deploymentSourceId.val ≤ b.deploymentSourceId.val) → source ∈ c.bindings :=
    fun source hs => (List.mem_filter.mp ((List.mem_insertionSort _).mp hs)).1
  obtain ⟨selected, hselected, h⟩ := bind_eq_ok.mp h
  cases selected with
  | inl query =>
    cases h
    obtain ⟨source, hs, hcompiled⟩ := tryAggregates_eq_ok hselected
    exact ⟨source, hmem source hs, hcompiled⟩
  | inr state =>
    dsimp only at h
    split at h
    · nomatch h
    · obtain ⟨source, hs, hcompiled⟩ := tryDetails_eq_ok h
      exact ⟨source, hmem source hs, hcompiled⟩

/-- A compiled query is the query of a source of the deployment, over the schema of the request. -/
theorem compile_eq_ok {plan : QueryPlan} {context : ContextBundle} (h : c.compile D plan context = .ok q) :
    ∃ r : SourceRequest, r.plan = plan ∧ r.binding ∈ c.bindings ∧ c.snapshots context.schemaSnapshotId.val = some r.snapshot ∧
      ∃ reason degradation, c.compileSource D r reason degradation = .ok q := by
  obtain ⟨-, -, h⟩ := bind_eq_ok.mp h
  obtain ⟨validation, -, h⟩ := bind_eq_ok.mp h
  obtain ⟨-, -, h⟩ := bind_eq_ok.mp h
  obtain ⟨-, -, h⟩ := bind_eq_ok.mp h
  obtain ⟨release, -, h⟩ := bind_eq_ok.mp h
  obtain ⟨snapshot, hsnapshot, h⟩ := bind_eq_ok.mp h
  obtain ⟨metric, -, h⟩ := bind_eq_ok.mp h
  obtain ⟨policy, -, h⟩ := bind_eq_ok.mp h
  obtain ⟨-, -, h⟩ := bind_eq_ok.mp h
  obtain ⟨evaluatedAt, -, h⟩ := bind_eq_ok.mp h
  obtain ⟨source, hsource, reason, degradation, h⟩ := selectSource_eq_ok h
  obtain ⟨freshness, -, h⟩ := bind_eq_ok.mp h
  obtain ⟨snapshot', hread, hsnapshot⟩ := bind_eq_ok.mp hsnapshot
  obtain ⟨-, -, hsnapshot⟩ := bind_eq_ok.mp hsnapshot
  cases hsnapshot
  exact ⟨_, rfl, hsource, orReject_eq_ok.mp hread, reason, degradation, h⟩

end Source

end MetricAux

end Nl2Sql
