import Mathlib.Data.List.Nodup

/-!
# Serial explanations

An object whose calls run one at a time is a function from a state and a call to a state and a result. A concurrent run of numbered calls
is explained by a serial order when the object, run in that order, ends in the same state and gives every answered call its answer. An
explanation grows with the run: a call that takes effect now is appended, and a call that changes nothing may stand wherever it saw the
state.
-/

namespace Py

variable {σ γ ρ : Type}

section Run

variable (apply : σ → γ → σ × ρ)

/-- The state and the results, with their numbers, of calls one after another. -/
def serialRun (s : σ) : List (γ × Nat) → σ × List (ρ × Nat)
  | [] => (s, [])
  | (call, i) :: rest =>
    let next := serialRun (apply s call).1 rest
    (next.1, ((apply s call).2, i) :: next.2)

theorem serialRun_append (s : σ) (before after : List (γ × Nat)) :
    serialRun apply s (before ++ after) =
      ((serialRun apply (serialRun apply s before).1 after).1,
        (serialRun apply s before).2 ++ (serialRun apply (serialRun apply s before).1 after).2) := by
  induction before generalizing s with
  | nil => rfl
  | cons p rest ih =>
    obtain ⟨call, i⟩ := p
    simp only [List.cons_append, serialRun, ih]

/-- The results carry the numbers of the calls. -/
theorem map_snd_serialRun (s : σ) (order : List (γ × Nat)) : (serialRun apply s order).2.map Prod.snd = order.map Prod.snd := by
  induction order generalizing s with
  | nil => rfl
  | cons p rest ih =>
    obtain ⟨call, i⟩ := p
    simp only [serialRun, List.map_cons, ih]

/-- A call that changes nothing may stand in between. -/
theorem serialRun_insert {s t : σ} {before after : List (γ × Nat)} {call : γ} {r : ρ} (i : Nat)
    (hbefore : (serialRun apply s before).1 = t) (hquiet : apply t call = (t, r)) :
    serialRun apply s (before ++ (call, i) :: after) =
      ((serialRun apply s (before ++ after)).1,
        (serialRun apply s before).2 ++ (r, i) :: (serialRun apply t after).2) := by
  rw [serialRun_append, serialRun_append, serialRun, hbefore]
  simp only [hquiet]

end Run

/-! ## Calls one after another -/

section Calls

variable {τ ε α ρ' : Type}

/-- A call that raises leaves the state as it was. -/
def attempt (step : σ → γ → Except ε (σ × α)) (s : σ) (call : γ) : σ × Except ε α :=
  match step s call with
  | .ok (s', a) => (s', .ok a)
  | .error e => (s, .error e)

theorem attempt_ok {step : σ → γ → Except ε (σ × α)} {s s' : σ} {call : γ} {a : α} (h : step s call = .ok (s', a)) :
    attempt step s call = (s', .ok a) := by
  rw [attempt, h]

theorem attempt_error {step : σ → γ → Except ε (σ × α)} {s : σ} {call : γ} {e : ε} (h : step s call = .error e) :
    attempt step s call = (s, .error e) := by
  rw [attempt, h]

/-- The state after calls, and the result of each. -/
def runCalls (apply : σ → γ → σ × ρ) (s : σ) : List γ → σ × List ρ
  | [] => (s, [])
  | call :: rest =>
    let next := runCalls apply (apply s call).1 rest
    (next.1, (apply s call).2 :: next.2)

theorem runCalls_concat (apply : σ → γ → σ × ρ) (s : σ) (calls : List γ) (call : γ) :
    (runCalls apply s (calls ++ [call])).2 = (runCalls apply s calls).2 ++ [(apply (runCalls apply s calls).1 call).2] := by
  induction calls generalizing s with
  | nil => rfl
  | cons first rest ih => simp only [List.cons_append, runCalls, ih]

/-- A relation that every call keeps, between the calls that are left and the states of two objects, holds at the end, and the results are
related. -/
theorem runCalls_simulates {apply : σ → γ → σ × ρ} {apply' : τ → γ → τ × ρ'} {R : List γ → σ → τ → Prop} {S : ρ → ρ' → Prop}
    (hstep : ∀ call rest s t, R (call :: rest) s t →
      S (apply s call).2 (apply' t call).2 ∧ R rest (apply s call).1 (apply' t call).1)
    (calls : List γ) {s : σ} {t : τ} (h : R calls s t) :
    List.Forall₂ S (runCalls apply s calls).2 (runCalls apply' t calls).2 ∧
      R [] (runCalls apply s calls).1 (runCalls apply' t calls).1 := by
  induction calls generalizing s t with
  | nil => exact ⟨.nil, h⟩
  | cons call rest ih =>
    obtain ⟨hsame, hrest⟩ := hstep call rest s t h
    obtain ⟨hresults, hend⟩ := ih hrest
    exact ⟨.cons hsame hresults, hend⟩

end Calls

/-- A serial order explains a run of numbered calls that is in a state, has answered some calls, and whose other calls have seen some
states. -/
structure Explains (apply : σ → γ → σ × ρ) (s₀ : σ) (calls : List γ) (order : List (γ × Nat)) (s : σ) (answered : Nat → Option ρ)
    (seen : Nat → List σ) : Prop where
  calls : ∀ p ∈ order, calls[p.2]? = some p.1
  nodup : (order.map Prod.snd).Nodup
  state : (serialRun apply s₀ order).1 = s
  results : ∀ r i, (r, i) ∈ (serialRun apply s₀ order).2 ↔ answered i = some r
  seen : ∀ i, answered i = none → ∀ t ∈ seen i, ∃ before after, order = before ++ after ∧ (serialRun apply s₀ before).1 = t

namespace Explains

variable {apply : σ → γ → σ × ρ} {s₀ s : σ} {calls : List γ} {order : List (γ × Nat)} {answered : Nat → Option ρ}
  {seen : Nat → List σ}

/-- Nothing has run. -/
theorem start (apply : σ → γ → σ × ρ) (s₀ : σ) (calls : List γ) : Explains apply s₀ calls [] s₀ (fun _ => none) fun _ => [] :=
  ⟨nofun, List.nodup_nil, rfl, fun r i => by simp [serialRun], nofun⟩

section

variable (h : Explains apply s₀ calls order s answered seen)
include h

/-- A call looks at the state. -/
theorem look (i : Nat) :
    Explains apply s₀ calls order s answered (Function.update seen i (seen i ++ [s])) := by
  refine ⟨h.calls, h.nodup, h.state, h.results, fun j hj t ht => ?_⟩
  by_cases hij : j = i
  · subst hij
    rw [Function.update_self, List.mem_append, List.mem_singleton] at ht
    rcases ht with ht | rfl
    · exact h.seen j hj t ht
    · exact ⟨order, [], (List.append_nil _).symm, h.state⟩
  · rw [Function.update_of_ne hij] at ht
    exact h.seen j hj t ht

/-- A call without an answer is not in the order. -/
theorem not_mem {i : Nat} (hi : answered i = none) : i ∉ order.map Prod.snd := by
  intro hmem
  rw [← map_snd_serialRun apply s₀, List.mem_map] at hmem
  obtain ⟨⟨r, j⟩, hr, rfl⟩ := hmem
  rw [h.results] at hr
  rw [hi] at hr
  nomatch hr

/-- A call that changes nothing is answered as in a state it has seen. -/
theorem quiet {i : Nat} {call : γ} {t : σ} {r : ρ} (hcall : calls[i]? = some call)
    (hi : answered i = none) (ht : t ∈ seen i) (hquiet : apply t call = (t, r)) :
    ∃ order', Explains apply s₀ calls order' s (Function.update answered i (some r)) seen := by
  obtain ⟨before, after, rfl, hbefore⟩ := h.seen i hi t ht
  have hnot := h.not_mem hi
  have hrun : serialRun apply s₀ (before ++ (call, i) :: after) = _ := serialRun_insert apply i hbefore hquiet
  refine ⟨before ++ (call, i) :: after, ?_, ?_, ?_, ?_, ?_⟩
  · intro p hp
    rw [List.mem_append, List.mem_cons] at hp
    rcases hp with hp | rfl | hp
    · exact h.calls p (List.mem_append_left _ hp)
    · exact hcall
    · exact h.calls p (List.mem_append_right _ hp)
  · rw [List.map_append, List.map_cons]
    refine (List.perm_middle.nodup_iff).mpr (List.nodup_cons.mpr ⟨?_, ?_⟩)
    · rw [← List.map_append]
      exact hnot
    · rw [← List.map_append]
      exact h.nodup
  · rw [hrun]
    exact h.state
  · intro r' j
    have hold := h.results r' j
    rw [serialRun_append, hbefore, List.mem_append] at hold
    rw [hrun, List.mem_append, List.mem_cons, Prod.mk.injEq]
    by_cases hj : j = i
    · subst hj
      rw [Function.update_self, Option.some.injEq]
      rw [hi] at hold
      constructor
      · rintro (hr | ⟨rfl, -⟩ | hr)
        · nomatch hold.mp (Or.inl hr)
        · rfl
        · nomatch hold.mp (Or.inr hr)
      · rintro rfl
        exact Or.inr (Or.inl ⟨rfl, rfl⟩)
    · rw [Function.update_of_ne hj, ← hold]
      constructor
      · rintro (hr | ⟨-, hji⟩ | hr)
        · exact Or.inl hr
        · exact absurd hji hj
        · exact Or.inr hr
      · rintro (hr | hr)
        · exact Or.inl hr
        · exact Or.inr (Or.inr hr)
  · intro j hj u hu
    have hj' : j ≠ i := by
      rintro rfl
      rw [Function.update_self] at hj
      nomatch hj
    rw [Function.update_of_ne hj'] at hj
    obtain ⟨P, Q, hsplit, hP⟩ := h.seen j hj u hu
    -- A state seen before or after the place of the call is still seen there.
    rcases List.append_eq_append_iff.mp hsplit with ⟨rest, hP', hafter⟩ | ⟨rest, hbefore', hQ⟩
    · refine ⟨before ++ (call, i) :: rest, Q, by rw [hafter, List.append_assoc, List.cons_append], ?_⟩
      rw [serialRun_insert apply i hbefore hquiet, ← hP']
      exact hP
    · exact ⟨P, rest ++ (call, i) :: after, by rw [hbefore', List.append_assoc], hP⟩

/-- A call takes effect now. -/
theorem effect {i : Nat} {call : γ} {s' : σ} {r : ρ} (hcall : calls[i]? = some call)
    (hi : answered i = none) (happly : apply s call = (s', r)) :
    Explains apply s₀ calls (order ++ [(call, i)]) s' (Function.update answered i (some r)) seen := by
  have hrun : serialRun apply s₀ (order ++ [(call, i)]) = (s', (serialRun apply s₀ order).2 ++ [(r, i)]) := by
    rw [serialRun_append, h.state, serialRun, serialRun]
    simp only [happly]
  refine ⟨?_, ?_, by rw [hrun], ?_, ?_⟩
  · intro p hp
    rw [List.mem_append, List.mem_singleton] at hp
    rcases hp with hp | rfl
    · exact h.calls p hp
    · exact hcall
  · rw [List.map_append]
    refine List.nodup_append.mpr ⟨h.nodup, by simp, ?_⟩
    rintro j hj k hk rfl
    rw [List.map_singleton, List.mem_singleton] at hk
    rw [hk] at hj
    exact h.not_mem hi hj
  · intro r' j
    rw [hrun, List.mem_append, List.mem_singleton, Prod.mk.injEq, h.results]
    by_cases hj : j = i
    · subst hj
      rw [Function.update_self, hi, Option.some.injEq]
      constructor
      · rintro (h | ⟨rfl, -⟩)
        · nomatch h
        · rfl
      · rintro rfl
        exact Or.inr ⟨rfl, rfl⟩
    · rw [Function.update_of_ne hj]
      exact ⟨fun h => h.resolve_right fun h => hj h.2, Or.inl⟩
  · intro j hj u hu
    have hj' : j ≠ i := by
      rintro rfl
      rw [Function.update_self] at hj
      nomatch hj
    rw [Function.update_of_ne hj'] at hj
    obtain ⟨P, Q, rfl, hP⟩ := h.seen j hj u hu
    exact ⟨P, Q ++ [(call, i)], by rw [List.append_assoc], hP⟩

/-- The order of a run whose calls are all answered has every call once. -/
theorem perm (hall : ∀ i < calls.length, answered i ≠ none) :
    order.Perm calls.zipIdx := by
  have hzip : calls.zipIdx.Nodup := by
    refine List.Nodup.of_map Prod.snd ?_
    rw [List.zipIdx_map_snd]
    exact List.nodup_range'
  refine (List.perm_ext_iff_of_nodup (List.Nodup.of_map Prod.snd h.nodup) hzip).mpr ?_
  rintro ⟨call, i⟩
  rw [List.mk_mem_zipIdx_iff_getElem?]
  constructor
  · exact h.calls (call, i)
  · intro hcall
    obtain ⟨hi, -⟩ := List.getElem?_eq_some_iff.mp hcall
    obtain ⟨r, hr⟩ := Option.ne_none_iff_exists'.mp (hall i hi)
    have hmem := List.mem_map_of_mem (f := Prod.snd) ((h.results r i).mpr hr)
    rw [map_snd_serialRun, List.mem_map] at hmem
    obtain ⟨⟨call', j⟩, hp, hj⟩ := hmem
    obtain rfl : j = i := hj
    have hcall' := h.calls _ hp
    rw [hcall, Option.some.injEq] at hcall'
    rw [hcall']
    exact hp

end

end Explains

end Py
