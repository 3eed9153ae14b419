import Mathlib.Data.List.ReduceOption
import Mathlib.Data.List.Sort
import Nl2Sql.Lib.Sql

/-!
# The answers of a grouped query

A query whose order names its grouping column has exactly one answer, whatever order the database has its rows in; and the answer
is a function of the rows that the conditions keep.
-/

namespace Sql

open Py

variable {D : Dialect} {params : Params}

/-! ## The order of result rows -/

theorem OrderKey.before_trans {k : OrderKey} {a b c : Value} (hab : k.before a b) (hbc : k.before b c) : k.before a c := by
  cases k with
  | asc => exact lt_trans hab hbc
  | descNullsLast =>
    obtain ⟨ha, hb⟩ := hab
    obtain ⟨hb', hc⟩ := hbc
    have hba : b < a := hb.resolve_left hb'
    exact ⟨ha, hc.imp_right fun hcb => lt_trans hcb hba⟩

theorem OrderKey.before_asymm {k : OrderKey} {a b : Value} (hab : k.before a b) : ¬ k.before b a := by
  intro hba
  cases k with
  | asc => exact lt_asymm hab hba
  | descNullsLast => exact lt_asymm (hab.2.resolve_left hba.1) (hba.2.resolve_left hab.1)

theorem OrderKey.before_or_before {k : OrderKey} {a b : Value} (h : a ≠ b) : k.before a b ∨ k.before b a := by
  cases k with
  | asc => exact lt_or_gt_of_ne h
  | descNullsLast =>
    by_cases ha : a = .null
    · exact .inr ⟨fun hb => h (ha.trans hb.symm), .inl ha⟩
    · by_cases hb : b = .null
      · exact .inl ⟨ha, .inl hb⟩
      · exact (lt_or_gt_of_ne h).symm.imp (fun hlt => ⟨ha, .inr hlt⟩) fun hlt => ⟨hb, .inr hlt⟩

theorem orderLe_total (ks : List OrderKey) (a b : OutRow) : orderLe ks a b ∨ orderLe ks b a := by
  induction ks with
  | nil => exact .inl trivial
  | cons k ks ih =>
    by_cases h : a.get k.name = b.get k.name
    · exact ih.imp (fun hab => .inr ⟨h, hab⟩) fun hba => .inr ⟨h.symm, hba⟩
    · exact (OrderKey.before_or_before h).imp .inl .inl

theorem orderLe_trans {ks : List OrderKey} {a b c : OutRow} (hab : orderLe ks a b) (hbc : orderLe ks b c) : orderLe ks a c := by
  induction ks with
  | nil => trivial
  | cons k ks ih =>
    rcases hab with hab | ⟨heq, hab⟩
    · rcases hbc with hbc | ⟨heq', -⟩
      · exact .inl (OrderKey.before_trans hab hbc)
      · exact .inl (heq' ▸ hab)
    · rcases hbc with hbc | ⟨heq', hbc⟩
      · exact .inl (heq ▸ hbc)
      · exact .inr ⟨heq.trans heq', ih hab hbc⟩

/-- Rows that may stand on either side of each other agree on the columns of the order. -/
theorem get_eq_of_orderLe {ks : List OrderKey} {a b : OutRow} (hab : orderLe ks a b) (hba : orderLe ks b a) :
    ∀ k ∈ ks, a.get k.name = b.get k.name := by
  induction ks with
  | nil => exact nofun
  | cons k ks ih =>
    have heq : a.get k.name = b.get k.name ∧ orderLe ks a b ∧ orderLe ks b a := by
      rcases hab with hab | ⟨heq, hab⟩ <;> rcases hba with hba | ⟨heq', hba⟩
      · exact absurd hba (OrderKey.before_asymm hab)
      · rw [heq'] at hab
        exact absurd hab (OrderKey.before_asymm hab)
      · rw [heq] at hba
        exact absurd hba (OrderKey.before_asymm hba)
      · exact ⟨heq, hab, hba⟩
    exact List.forall_mem_cons.mpr ⟨heq.1, ih heq.2.1 heq.2.2⟩

/-- Rows can be put in an order that a query admits. -/
theorem exists_ordered (ks : List OrderKey) (l : List OutRow) : ∃ rows : List OutRow, rows.Perm l ∧ rows.Pairwise (orderLe ks) := by
  classical
  have htotal : Std.Total (orderLe ks) := ⟨orderLe_total ks⟩
  have htrans : IsTrans OutRow (orderLe ks) := ⟨fun _ _ _ => orderLe_trans⟩
  exact ⟨l.insertionSort (orderLe ks), List.perm_insertionSort _ l, List.pairwise_insertionSort _ l⟩

/-! ## Results as a function of the rows kept -/

/-- The order of the rows of a group does not change an aggregate. -/
theorem Aggregate.eval_perm {l l' : List Row} (h : l.Perm l') (a : Aggregate) : a.eval D params l = a.eval D params l' := by
  cases a with
  | count column filter =>
    cases column with
    | none => simp only [Aggregate.eval, h.countP_eq]
    | some column => simp only [Aggregate.eval, h.countP_eq]
  | sum column => simp only [Aggregate.eval, (h.filterMap _).sum_eq]

theorem Grouped.outRow_perm {l l' : List Row} (h : l.Perm l') (g : Grouped) (keys : OutRow) :
    g.outRow D params keys l = g.outRow D params keys l' := by
  simp only [Grouped.outRow, Aggregate.eval_perm h]

theorem Grouped.results_perm {l l' : List Row} (h : l.Perm l') (g : Grouped) :
    (g.results D params l).Perm (g.results D params l') := by
  unfold Grouped.results
  cases g.key with
  | none => rw [Grouped.outRow_perm h]
  | some key =>
    have hrow : ∀ v, g.outRow D params [(key.2, v)] (l.filter fun row => Scalar.eval D row key.1 = v) =
        g.outRow D params [(key.2, v)] (l'.filter fun row => Scalar.eval D row key.1 = v) :=
      fun v => Grouped.outRow_perm (h.filter _) g _
    simp only [hrow]
    exact (h.map _).dedup.map _

/-- A query that keeps the same rows in two states has the same answers in them. -/
theorem Query.answers_congr {q : Query} {db db' : Database} (h : (q.grouped.kept D params db).Perm (q.grouped.kept D params db'))
    (out : Option (List OutRow)) : q.Answers D params db out ↔ q.Answers D params db' out := by
  have hresults : (q.results D params db).Perm (q.results D params db') := (Grouped.results_perm h q.grouped).map _
  have hreduced : (q.results D params db).reduceOption.Perm (q.results D params db').reduceOption := hresults.filterMap id
  cases out with
  | none => exact hresults.mem_iff
  | some out =>
    simp only [Query.Answers, hresults.mem_iff]
    exact and_congr_right fun _ => exists_congr fun rows =>
      and_congr_left fun _ => ⟨fun hp => hp.trans hreduced, fun hp => hp.trans hreduced.symm⟩

/-! ## One answer -/

/-- The order of a query names its grouping column, and its projection keeps it. -/
def Query.Determined (D : Dialect) (q : Query) : Prop :=
  ∀ key ∈ q.grouped.key, key.2 ∈ q.orderBy.map OrderKey.name ∧ ∀ row, (q.project D row).get key.2 = row.get key.2

/-- A result row of a group starts with the value of the group. -/
theorem Grouped.get_of_outRow {g : Grouped} {name : String} {v : Value} {rows : List Row} {row : OutRow}
    (h : g.outRow D params [(name, v)] rows = some row) : row.get name = v := by
  obtain ⟨values, -, rfl⟩ := Option.map_eq_some_iff.mp h
  simp [OutRow.get]

/-- Result rows that agree on the columns of the order are the same row. -/
theorem Query.result_eq_of_order {q : Query} (hq : q.Determined D) {db : Database} {a b : OutRow}
    (ha : a ∈ (q.results D params db).reduceOption) (hb : b ∈ (q.results D params db).reduceOption)
    (h : ∀ k ∈ q.orderBy, a.get k.name = b.get k.name) : a = b := by
  rw [List.reduceOption_mem_iff, Query.results, List.mem_map] at ha hb
  obtain ⟨ra, hra, ha⟩ := ha
  obtain ⟨rb, hrb, hb⟩ := hb
  obtain ⟨ra, rfl, rfl⟩ := Option.map_eq_some_iff.mp ha
  obtain ⟨rb, rfl, rfl⟩ := Option.map_eq_some_iff.mp hb
  unfold Grouped.results at hra hrb
  cases hkey : q.grouped.key with
  | none =>
    simp only [hkey, List.mem_singleton] at hra hrb
    rw [Option.some.inj (hra.trans hrb.symm)]
  | some key =>
    obtain ⟨hname, hkeep⟩ := hq key hkey
    simp only [hkey, List.mem_map] at hra hrb
    obtain ⟨va, -, hra⟩ := hra
    obtain ⟨vb, -, hrb⟩ := hrb
    obtain ⟨k, hk, hkname⟩ := List.mem_map.mp hname
    have hsame := h k hk
    rw [hkname, hkeep, hkeep, Grouped.get_of_outRow hra, Grouped.get_of_outRow hrb] at hsame
    subst hsame
    rw [Option.some.inj (hra.symm.trans hrb)]

/-- A query whose order names its grouping column has exactly one answer. -/
theorem Query.exists_answer_iff {q : Query} (hq : q.Determined D) (db : Database) :
    ∃ out, ∀ o, q.Answers D params db o ↔ o = out := by
  by_cases herror : none ∈ q.results D params db
  · refine ⟨none, fun o => ?_⟩
    cases o with
    | none => exact ⟨fun _ => rfl, fun _ => herror⟩
    | some out => exact ⟨fun h => absurd herror h.1, nofun⟩
  · obtain ⟨rows, hperm, hordered⟩ := exists_ordered q.orderBy (q.results D params db).reduceOption
    refine ⟨some (q.cut rows), fun o => ?_⟩
    cases o with
    | none => exact ⟨fun h => absurd h herror, nofun⟩
    | some out =>
      constructor
      · rintro ⟨-, rows', hperm', hordered', rfl⟩
        have heq : rows' = rows := by
          refine List.Perm.eq_of_pairwise (fun a b ha hb hab hba => ?_) hordered' hordered (hperm'.trans hperm.symm)
          exact Query.result_eq_of_order hq (hperm'.subset ha) (hperm.subset hb) (get_eq_of_orderLe hab hba)
        rw [heq]
      · intro h
        cases h
        exact ⟨herror, rows, hperm, hordered, rfl⟩

/-- An answer has each group once, in an order that the query admits. -/
theorem Query.answer_ordered {q : Query} (hq : q.Determined D) {db : Database} {out : List OutRow}
    (h : q.Answers D params db (some out)) :
    (∀ key ∈ q.grouped.key, (out.map (OutRow.get · key.2)).Nodup) ∧ out.Pairwise (orderLe q.orderBy) := by
  obtain ⟨-, rows, hperm, hordered, rfl⟩ := h
  have hcut : (q.cut rows).Sublist rows := by
    unfold Query.cut
    split
    · exact List.Sublist.refl rows
    · exact List.take_sublist _ rows
  refine ⟨fun key hkey => ?_, hordered.sublist hcut⟩
  refine List.Nodup.sublist (hcut.map _) ((hperm.map _).nodup_iff.mpr ?_)
  have hkeep := (hq key hkey).2
  have hkey : q.grouped.key = some (key.1, key.2) := hkey
  unfold List.reduceOption Query.results Grouped.results
  rw [hkey]
  dsimp only
  rw [List.map_map, List.filterMap_map, List.map_filterMap]
  have hsource : ∀ {v : Value} {group : List Row} {row : OutRow},
      Option.map (q.project D) (q.grouped.outRow D params [(key.2, v)] group) = some row → row.get key.2 = v := by
    intro v group row hrow
    obtain ⟨source, houtRow, rfl⟩ := Option.map_eq_some_iff.mp hrow
    rw [hkeep]
    exact Grouped.get_of_outRow houtRow
  refine (List.nodup_dedup _).filterMap fun v v' value hv hv' => ?_
  obtain ⟨row, hrow, rfl⟩ := Option.map_eq_some_iff.mp hv
  obtain ⟨row', hrow', heq⟩ := Option.map_eq_some_iff.mp hv'
  rw [← hsource hrow, ← hsource hrow', heq]

/-! ## Conditions that hide rows -/

/-- A row that an `IN` list keeps has the value of one of its parameters. -/
theorem Cond.isIn_eval {e : Scalar} {names : List String} {row : Row} (h : (Cond.isIn e names).eval D params row = .true) :
    ∃ name ∈ names, e.eval D row = paramValue params name ∧ e.eval D row ≠ .null := by
  rw [Cond.eval, Kleene.any_eq] at h
  split at h
  · rename_i hmem
    obtain ⟨name, hname, htrue⟩ := List.mem_map.mp hmem
    refine ⟨name, hname, ?_⟩
    unfold compare at htrue
    split at htrue
    · nomatch htrue
    · rename_i hnull
      rw [not_or] at hnull
      by_cases heq : e.eval D row = paramValue params name
      · exact ⟨heq, hnull.1⟩
      · simp [Kleene.ofBool, heq] at htrue
  · split at h <;> nomatch h

/-- When a condition only keeps visible rows, two states that agree on the visible rows keep the same rows. -/
theorem Grouped.kept_perm {g : Grouped} {visible : Row → Bool} {cond : Cond} (hcond : cond ∈ g.conditions)
    (hvisible : ∀ row, cond.eval D params row = .true → visible row = true) {db db' : Database}
    (h : ((db g.schema g.relation).filter visible).Perm ((db' g.schema g.relation).filter visible)) :
    (g.kept D params db).Perm (g.kept D params db') := by
  have hkeeps : ∀ l : List Row, l.filter (keeps D params g.conditions) = (l.filter visible).filter (keeps D params g.conditions) := by
    intro l
    rw [List.filter_filter]
    refine List.filter_congr fun row _ => ?_
    cases hkeep : keeps D params g.conditions row with
    | false => rfl
    | true =>
      rw [keeps, decide_eq_true_eq, Kleene.all_eq_true_iff] at hkeep
      rw [hvisible row (hkeep _ (List.mem_map_of_mem hcond)), Bool.and_true]
  unfold Grouped.kept
  rw [hkeeps (db g.schema g.relation), hkeeps (db' g.schema g.relation)]
  exact h.filter _

end Sql
