/-!
# Methods: programs with a state that may raise

A method of a mutable object is a program in `EStateM ε σ`: it reads and writes the state `σ` and may raise an `ε`, and what it
wrote before raising stays written. Lean's library evaluates `pure`, `get`, `set`, `modify`, `throw` and `>>=`; here, mapping
the value a method returns and catching what it raises. A function without a state is a program in `Except ε`: what it means that
such a program returns is read off one bind at a time.
-/

namespace Py

variable {ε σ α β : Type}

@[simp] theorem run_map (f : α → β) (m : EStateM ε σ α) (s : σ) :
    (f <$> m).run s =
      match m.run s with
      | .ok a s' => .ok (f a) s'
      | .error e s' => .error e s' := by
  change (EStateM.map f m) s = _
  unfold EStateM.map EStateM.run
  cases m s <;> rfl

@[simp] theorem run_discard (m : EStateM ε σ α) (s : σ) :
    (discard m).run s =
      match m.run s with
      | .ok _ s' => .ok ⟨⟩ s'
      | .error e s' => .error e s' :=
  run_map (fun _ => PUnit.unit) m s

@[simp] theorem run_tryCatch (m : EStateM ε σ α) (handler : ε → EStateM ε σ α) (s : σ) :
    (tryCatch m handler).run s =
      match m.run s with
      | .ok a s' => .ok a s'
      | .error e s' => (handler e).run s' := by
  change EStateM.tryCatch m handler s = _
  unfold EStateM.tryCatch EStateM.run
  cases m s <;> rfl

/-- The state a method leaves, whether it returned or raised. -/
def finalState : EStateM.Result ε σ α → σ
  | .ok _ s => s
  | .error _ s => s

/-! ## Pre- and postconditions

A triple says what a method that starts in a state with `P` ends with: `Q`, of what it returns, or `E`, of what it raises. -/

/-- A method that starts with `P` returns with `Q` or raises with `E`. -/
def Triple (P : σ → Prop) (m : EStateM ε σ α) (Q : α → σ → Prop) (E : ε → σ → Prop) : Prop :=
  ∀ s, P s →
    match m.run s with
    | .ok a s' => Q a s'
    | .error e s' => E e s'

namespace Triple

variable {P : σ → Prop} {Q : α → σ → Prop} {E : ε → σ → Prop} {m : EStateM ε σ α}

theorem pure {a : α} (h : ∀ s, P s → Q a s) : Triple P (Pure.pure a : EStateM ε σ α) Q E := fun s hs => h s hs

theorem throw {e : ε} (h : ∀ s, P s → E e s) : Triple P (MonadExcept.throw e : EStateM ε σ α) Q E := fun s hs => h s hs

/-- One method after another. -/
theorem bind {R : β → σ → Prop} {f : α → EStateM ε σ β} (hm : Triple P m Q E) (hf : ∀ a, Triple (Q a) (f a) R E) :
    Triple P (m >>= f) R E := by
  intro s hs
  have h := hm s hs
  change match EStateM.bind m f s with
    | .ok a s' => R a s'
    | .error e s' => E e s'
  unfold EStateM.bind
  unfold EStateM.run at h
  cases hr : m s with
  | ok a s' =>
    rw [hr] at h
    exact hf a s' h
  | error e s' =>
    rw [hr] at h
    exact h

/-- A precondition that does not speak of the state is assumed. -/
theorem of_fact {F : Prop} (h : F → Triple P m Q E) : Triple (fun s => F ∧ P s) m Q E := fun s hs => h hs.1 s hs.2

/-- A handler starts where the body raised. -/
theorem tryCatch {R : ε → σ → Prop} {handler : ε → EStateM ε σ α} (hm : Triple P m Q R) (hh : ∀ e, Triple (R e) (handler e) Q E) :
    Triple P (MonadExcept.tryCatch m handler) Q E := by
  intro s hs
  have h := hm s hs
  rw [run_tryCatch]
  revert h
  cases m.run s with
  | ok a s' => exact id
  | error e s' => exact hh e s'

/-- A stronger precondition and weaker postconditions. -/
theorem weaken {P' : σ → Prop} {Q' : α → σ → Prop} {E' : ε → σ → Prop} (h : Triple P m Q E) (hp : ∀ s, P' s → P s)
    (hq : ∀ a s, Q a s → Q' a s) (he : ∀ e s, E e s → E' e s) : Triple P' m Q' E' := by
  intro s hs
  have hm := h s (hp s hs)
  revert hm
  cases m.run s with
  | ok a s' => exact hq a s'
  | error e s' => exact he e s'

/-- A condition that holds however the method ends holds of the state it leaves. -/
theorem finalState {S : σ → Prop} (h : Triple P m (fun _ => S) (fun _ => S)) {s : σ} (hs : P s) : S (finalState (m.run s)) := by
  have hm := h s hs
  revert hm
  cases m.run s with
  | ok a s' => exact id
  | error e s' => exact id

end Triple

/-- A method that leaves the state as it was, however it ends: it keeps every condition. -/
def Still (m : EStateM ε σ α) : Prop := ∀ P : σ → Prop, Triple P m (fun _ => P) (fun _ => P)

namespace Still

theorem pure (a : α) : Still (Pure.pure a : EStateM ε σ α) := fun _ => Triple.pure fun _ hs => hs

theorem throw (e : ε) : Still (MonadExcept.throw e : EStateM ε σ α) := fun _ => Triple.throw fun _ hs => hs

theorem bind {m : EStateM ε σ α} {f : α → EStateM ε σ β} (hm : Still m) (hf : ∀ a, Still (f a)) : Still (m >>= f) :=
  fun P => Triple.bind (hm P) fun a => hf a P

end Still

/-! ## Methods whose end does not depend on the state -/

/-- How a run ends, without the state it leaves. -/
def outcome : EStateM.Result ε σ α → Except ε α
  | .ok a _ => .ok a
  | .error e _ => .error e

/-- A method that ends the same in every state. -/
def Uniform (m : EStateM ε σ α) : Prop := ∀ s s', outcome (m.run s) = outcome (m.run s')

/-- A sequence ends as its second part does on what the first part returns; the second part may be run in any state. -/
theorem outcome_bind {m : EStateM ε σ α} {f : α → EStateM ε σ β} (hf : ∀ a, Uniform (f a)) (s t : σ) :
    outcome ((m >>= f).run s) = (outcome (m.run s)).bind fun a => outcome ((f a).run t) := by
  rw [EStateM.run_bind]
  cases m.run s with
  | ok a s' => exact hf a s' t
  | error e s' => rfl

namespace Uniform

theorem pure (a : α) : Uniform (Pure.pure a : EStateM ε σ α) := fun _ _ => rfl

theorem throw (e : ε) : Uniform (MonadExcept.throw e : EStateM ε σ α) := fun _ _ => rfl

theorem bind {m : EStateM ε σ α} {f : α → EStateM ε σ β} (hm : Uniform m) (hf : ∀ a, Uniform (f a)) : Uniform (m >>= f) := by
  intro s s'
  rw [outcome_bind hf s s, outcome_bind hf s' s, hm s s']

theorem tryCatch {m : EStateM ε σ α} {handler : ε → EStateM ε σ α} (hm : Uniform m) (hh : ∀ e, Uniform (handler e)) :
    Uniform (MonadExcept.tryCatch m handler) := by
  intro s s'
  have h := hm s s'
  rw [run_tryCatch, run_tryCatch]
  revert h
  cases m.run s with
  | ok a t =>
    cases m.run s' with
    | ok a' t' => exact id
    | error e' t' => exact fun h => nomatch h
  | error e t =>
    cases m.run s' with
    | ok a' t' => exact fun h => nomatch h
    | error e' t' =>
      intro h
      obtain rfl : e = e' := Except.error.inj h
      exact hh e t t'

end Uniform

/-! ## Functions that may raise -/

/-- A sequence returns exactly when its first part does and the rest does on what it returned. -/
theorem bind_eq_ok {m : Except ε α} {f : α → Except ε β} {b : β} : (m >>= f) = .ok b ↔ ∃ a, m = .ok a ∧ f a = .ok b := by
  cases m with
  | error e => exact ⟨nofun, fun ⟨_, h, _⟩ => nomatch h⟩
  | ok a => exact ⟨fun h => ⟨a, rfl, h⟩, fun ⟨_, h, hf⟩ => by cases h; exact hf⟩

/-- A sequence returns where its first part does, and the rest on what it returned. -/
theorem bind_isOk {m : Except ε α} {f : α → Except ε β} (hm : ∃ a, m = .ok a) (hf : ∀ a, m = .ok a → ∃ b, f a = .ok b) :
    ∃ b, (m >>= f) = .ok b := by
  obtain ⟨a, ha⟩ := hm
  obtain ⟨b, hb⟩ := hf a ha
  exact ⟨b, bind_eq_ok.mpr ⟨a, ha, hb⟩⟩

/-- A loop that returns has returned at every element. -/
theorem mapM_eq_ok {f : α → Except ε β} {g : α → β} (hg : ∀ x y, f x = .ok y → g x = y) {xs : List α} {ys : List β}
    (h : xs.mapM f = .ok ys) : ys = xs.map g ∧ ∀ x ∈ xs, f x = .ok (g x) := by
  induction xs generalizing ys with
  | nil =>
    rw [List.mapM_nil] at h
    cases h
    exact ⟨rfl, nofun⟩
  | cons x xs ih =>
    rw [List.mapM_cons] at h
    obtain ⟨y, hy, h⟩ := bind_eq_ok.mp h
    obtain ⟨zs, hzs, h⟩ := bind_eq_ok.mp h
    cases h
    obtain ⟨rfl, hall⟩ := ih hzs
    have hxy := hg x y hy
    subst hxy
    refine ⟨rfl, fun x' hx' => ?_⟩
    rcases List.mem_cons.mp hx' with rfl | hmem
    · exact hy
    · exact hall x' hmem

/-- What a loop makes has at each place what its elements have. -/
theorem map_of_mapM {γ : Type} {f : α → Except ε β} {g : β → γ} {g' : α → γ} {xs : List α} {ys : List β} (h : xs.mapM f = .ok ys)
    (hg : ∀ x ∈ xs, ∀ y, f x = .ok y → g y = g' x) : ys.map g = xs.map g' := by
  induction xs generalizing ys with
  | nil =>
    rw [List.mapM_nil] at h
    cases h
    rfl
  | cons x xs ih =>
    rw [List.mapM_cons] at h
    obtain ⟨y, hy, h⟩ := bind_eq_ok.mp h
    obtain ⟨zs, hzs, h⟩ := bind_eq_ok.mp h
    cases h
    rw [List.map_cons, List.map_cons, hg x List.mem_cons_self y hy, ih hzs fun x' hx' => hg x' (List.mem_cons_of_mem _ hx')]

/-- A sequence raises where its first part does, or the rest does on what it returned. -/
theorem bind_eq_error {m : Except ε α} {f : α → Except ε β} {e : ε} :
    (m >>= f) = .error e ↔ m = .error e ∨ ∃ a, m = .ok a ∧ f a = .error e := by
  cases m with
  | error e' =>
    constructor
    · intro h
      cases h
      exact .inl rfl
    · rintro (h | ⟨a, ha, -⟩)
      · cases h
        rfl
      · nomatch ha
  | ok a =>
    constructor
    · exact fun h => .inr ⟨a, rfl, h⟩
    · rintro (h | ⟨a', ha, h⟩)
      · nomatch h
      · cases ha
        exact h

/-- A loop raises what one of its elements raises. -/
theorem mapM_eq_error {f : α → Except ε β} {xs : List α} {e : ε} (h : xs.mapM f = .error e) :
    ∃ x ∈ xs, f x = .error e := by
  induction xs with
  | nil => nomatch h
  | cons x xs ih =>
    rw [List.mapM_cons] at h
    rcases bind_eq_error.mp h with hx | ⟨y, -, h⟩
    · exact ⟨x, List.mem_cons_self, hx⟩
    · rcases bind_eq_error.mp h with hxs | ⟨ys, -, h⟩
      · obtain ⟨x', hx', hfx⟩ := ih hxs
        exact ⟨x', List.mem_cons_of_mem _ hx', hfx⟩
      · nomatch h

/-- A loop returns where each of its elements does. -/
theorem mapM_ok {f : α → Except ε β} {g : α → β} {xs : List α} (h : ∀ x ∈ xs, f x = .ok (g x)) :
    xs.mapM f = .ok (xs.map g) := by
  induction xs with
  | nil => rfl
  | cons x xs ih =>
    rw [List.mapM_cons, h x List.mem_cons_self, ih fun x hx => h x (List.mem_cons_of_mem _ hx)]
    rfl

/-- A loop goes through where each of its elements does. -/
theorem mapM_isOk {f : α → Except ε β} {values : List α} :
    (∃ made, values.mapM f = .ok made) ↔ ∀ a ∈ values, ∃ b, f a = .ok b := by
  induction values with
  | nil => exact iff_of_true ⟨[], rfl⟩ fun _ h => absurd h List.not_mem_nil
  | cons a values ih =>
    simp only [List.mapM_cons, bind_eq_ok, List.forall_mem_cons, ← ih]
    constructor
    · rintro ⟨_, b, hb, made, hmade, -⟩
      exact ⟨⟨b, hb⟩, made, hmade⟩
    · rintro ⟨⟨b, hb⟩, made, hmade⟩
      exact ⟨_, b, hb, made, hmade, rfl⟩

theorem exists_of_mem_mapM {f : α → Except ε β} {values : List α} {made : List β} (h : values.mapM f = .ok made) {b : β}
    (hb : b ∈ made) : ∃ a ∈ values, f a = .ok b := by
  induction values generalizing made with
  | nil =>
    cases h
    exact absurd hb List.not_mem_nil
  | cons a values ih =>
    simp only [List.mapM_cons, bind_eq_ok] at h
    obtain ⟨first, hfirst, rest, hrest, hmade⟩ := h
    cases hmade
    rcases List.mem_cons.mp hb with rfl | hb
    · exact ⟨a, List.mem_cons_self, hfirst⟩
    · exact (ih hrest hb).imp fun a' h => ⟨List.mem_cons_of_mem _ h.1, h.2⟩

theorem forM_eq_ok {f : α → Except ε Unit} {values : List α} : values.forM f = .ok () ↔ ∀ a ∈ values, f a = .ok () := by
  induction values with
  | nil => exact iff_of_true rfl fun _ h => absurd h List.not_mem_nil
  | cons a values ih =>
    change (f a >>= fun _ => values.forM f) = .ok () ↔ _
    rw [bind_eq_ok, List.forall_mem_cons, ← ih]
    exact ⟨fun ⟨_, h, h'⟩ => ⟨h, h'⟩, fun ⟨h, h'⟩ => ⟨(), h, h'⟩⟩

/-- A loop that keeps the keys it has seen goes through where each element passes on its own and no key comes twice. -/
theorem foldlM_seen {κ : Type} {f : List κ → α → Except ε (List κ)} {key : α → κ} {Passes : α → Prop}
    (hf : ∀ seen a next, f seen a = .ok next ↔ Passes a ∧ key a ∉ seen ∧ key a :: seen = next) (values : List α) (seen : List κ) :
    (∃ last, values.foldlM f seen = .ok last) ↔
      (∀ a ∈ values, Passes a) ∧ (values.map key).Nodup ∧ ∀ a ∈ values, key a ∉ seen := by
  induction values generalizing seen with
  | nil => exact iff_of_true ⟨seen, rfl⟩ ⟨fun _ h => absurd h List.not_mem_nil, List.nodup_nil, fun _ h => absurd h List.not_mem_nil⟩
  | cons a values ih =>
    have hstep : (∃ last, (a :: values).foldlM f seen = .ok last) ↔
        Passes a ∧ key a ∉ seen ∧ ∃ last, values.foldlM f (key a :: seen) = .ok last := by
      simp only [List.foldlM_cons, bind_eq_ok, hf]
      exact ⟨fun ⟨last, _, ⟨ha, hnew, h⟩, hlast⟩ => ⟨ha, hnew, last, h ▸ hlast⟩,
        fun ⟨ha, hnew, last, hlast⟩ => ⟨last, _, ⟨ha, hnew, rfl⟩, hlast⟩⟩
    rw [hstep, ih, List.forall_mem_cons, List.map_cons, List.nodup_cons, List.forall_mem_cons]
    simp only [List.mem_cons, not_or, List.mem_map, not_exists, not_and]
    constructor
    · rintro ⟨ha, hnew, hall, hnodup, hseen⟩
      exact ⟨⟨ha, hall⟩, ⟨fun b hb hkey => (hseen b hb).1 hkey, hnodup⟩, hnew, fun b hb => (hseen b hb).2⟩
    · rintro ⟨⟨ha, hall⟩, ⟨hother, hnodup⟩, hnew, hseen⟩
      exact ⟨ha, hnew, hall, hnodup, fun b hb => ⟨hother b hb, hseen b hb⟩⟩

/-- A loop whose steps do not depend on what came before goes through where each of them does. -/
theorem foldlM_isOk {f : σ → α → Except ε σ} {Passes : α → Prop} (hf : ∀ s a, (∃ next, f s a = .ok next) ↔ Passes a)
    (values : List α) (s : σ) : (∃ last, values.foldlM f s = .ok last) ↔ ∀ a ∈ values, Passes a := by
  induction values generalizing s with
  | nil => exact iff_of_true ⟨s, rfl⟩ fun _ h => absurd h List.not_mem_nil
  | cons a values ih =>
    simp only [List.foldlM_cons, bind_eq_ok, List.forall_mem_cons]
    constructor
    · rintro ⟨last, next, hnext, hlast⟩
      exact ⟨(hf s a).mp ⟨next, hnext⟩, (ih next).mp ⟨last, hlast⟩⟩
    · rintro ⟨ha, hall⟩
      obtain ⟨next, hnext⟩ := (hf s a).mpr ha
      obtain ⟨last, hlast⟩ := (ih next).mpr hall
      exact ⟨last, next, hnext, hlast⟩

/-- A loop over the same elements in another order makes the same in another order. -/
theorem mapM_perm {f : α → Except ε β} {values others : List α} (h : values.Perm others) {made : List β} (hmade : values.mapM f = .ok made) :
    ∃ made', others.mapM f = .ok made' ∧ made.Perm made' := by
  induction h generalizing made with
  | nil => exact ⟨made, hmade, .refl made⟩
  | cons a _ ih =>
    simp only [List.mapM_cons, bind_eq_ok] at hmade ⊢
    obtain ⟨b, hb, rest, hrest, heq⟩ := hmade
    obtain ⟨rest', hrest', hperm⟩ := ih hrest
    cases heq
    exact ⟨b :: rest', ⟨b, hb, rest', hrest', rfl⟩, hperm.cons b⟩
  | swap a a' values =>
    simp only [List.mapM_cons, bind_eq_ok] at hmade ⊢
    obtain ⟨b', hb', _, ⟨b, hb, rest, hrest, hmade⟩, heq⟩ := hmade
    cases hmade
    cases heq
    exact ⟨b :: b' :: rest, ⟨b, hb, b' :: rest, ⟨b', hb', rest, hrest, rfl⟩, rfl⟩, .swap b b' rest⟩
  | trans _ _ ih ih' =>
    obtain ⟨between, hbetween, hperm⟩ := ih hmade
    obtain ⟨made', hmade', hperm'⟩ := ih' hbetween
    exact ⟨made', hmade', hperm.trans hperm'⟩

/-- What holds of pairs of elements of a loop holds of what is made of them. -/
theorem pairwise_mapM {f : α → Except ε β} {S : α → α → Prop} {T : β → β → Prop} (hf : ∀ a a' b b', S a a' → f a = .ok b → f a' = .ok b' → T b b')
    {values : List α} (hpairs : values.Pairwise S) {made : List β} (h : values.mapM f = .ok made) : made.Pairwise T := by
  induction values generalizing made with
  | nil =>
    cases h
    exact List.Pairwise.nil
  | cons a values ih =>
    simp only [List.mapM_cons, bind_eq_ok] at h
    obtain ⟨b, hb, rest, hrest, hmade⟩ := h
    cases hmade
    obtain ⟨hhead, htail⟩ := List.pairwise_cons.mp hpairs
    refine List.pairwise_cons.mpr ⟨fun b' hb' => ?_, ih htail hrest⟩
    obtain ⟨a', ha', hfa'⟩ := exists_of_mem_mapM hrest hb'
    exact hf a a' b b' (hhead a' ha') hb hfa'

/-- A loop that reads its elements one by one and turns some away for what was read before: it returns what the elements are read as, where none
of them is turned away. -/
theorem foldlM_read {f : List β → α → Except ε (List β)} {read : α → Except ε β} {Passes : List β → β → Prop}
    (hf : ∀ kept a next, f kept a = .ok next ↔ ∃ b, read a = .ok b ∧ Passes kept b ∧ next = kept ++ [b]) (values : List α) (kept last : List β) :
    values.foldlM f kept = .ok last ↔ ∃ made, values.mapM read = .ok made ∧ last = kept ++ made ∧
      ∀ before b after, made = before ++ b :: after → Passes (kept ++ before) b := by
  induction values generalizing kept with
  | nil =>
    constructor
    · intro h
      cases h
      exact ⟨[], rfl, (List.append_nil _).symm, fun _ _ _ heq => absurd heq.symm (List.append_ne_nil_of_right_ne_nil _ (List.cons_ne_nil _ _))⟩
    · rintro ⟨made, hmade, rfl, -⟩
      rw [List.mapM_nil] at hmade
      cases hmade
      rw [List.append_nil]
      rfl
  | cons a values ih =>
    simp only [List.foldlM_cons, List.mapM_cons, bind_eq_ok, hf, ih]
    constructor
    · rintro ⟨_, ⟨b, hb, hpasses, rfl⟩, made, hmade, rfl, hall⟩
      refine ⟨b :: made, ⟨b, hb, made, hmade, rfl⟩, by rw [List.append_assoc, List.singleton_append], fun before c after heq => ?_⟩
      cases before with
      | nil =>
        obtain ⟨rfl, -⟩ := List.cons.inj heq
        rwa [List.append_nil]
      | cons first before =>
        obtain ⟨rfl, hmade⟩ := List.cons.inj heq
        have hpass := hall before c after hmade
        rwa [List.append_assoc, List.singleton_append] at hpass
    · rintro ⟨_, ⟨b, hb, made, hmade, hcons⟩, rfl, hall⟩
      cases hcons
      have hfirst := hall [] b made rfl
      rw [List.append_nil] at hfirst
      refine ⟨_, ⟨b, hb, hfirst, rfl⟩, made, hmade, by rw [List.append_assoc, List.singleton_append], fun before c after heq => ?_⟩
      rw [List.append_assoc, List.singleton_append]
      exact hall (b :: before) c after (by rw [heq, List.cons_append])

/-- A loop raises at the first element whose step raises. -/
theorem foldlM_eq_error {f : σ → α → Except ε σ} {values : List α} {s : σ} {e : ε} :
    values.foldlM f s = .error e ↔
      ∃ before a after last, values = before ++ a :: after ∧ before.foldlM f s = .ok last ∧ f last a = .error e := by
  induction values generalizing s with
  | nil => exact iff_of_false (fun h => nomatch h) fun ⟨_, _, _, _, h, _⟩ => List.append_ne_nil_of_right_ne_nil _ (List.cons_ne_nil _ _) h.symm
  | cons a values ih =>
    rw [List.foldlM_cons, bind_eq_error]
    constructor
    · rintro (h | ⟨next, hnext, h⟩)
      · exact ⟨[], a, values, s, rfl, rfl, h⟩
      · obtain ⟨before, b, after, last, rfl, hbefore, hb⟩ := ih.mp h
        exact ⟨a :: before, b, after, last, rfl, bind_eq_ok.mpr ⟨next, hnext, hbefore⟩, hb⟩
    · rintro ⟨before, b, after, last, heq, hbefore, hb⟩
      cases before with
      | nil =>
        cases heq
        cases hbefore
        exact Or.inl hb
      | cons c before =>
        cases heq
        obtain ⟨next, hnext, hbefore⟩ := bind_eq_ok.mp hbefore
        exact Or.inr ⟨next, hnext, ih.mpr ⟨before, b, after, last, rfl, hbefore, hb⟩⟩

/-- A loop of partial functions has a result exactly when every element has one, and the result is that of the elements. -/
theorem mapM_eq_some_iff {f : α → Option β} {d : β} {xs : List α} {ys : List β} :
    xs.mapM f = some ys ↔ (∀ x ∈ xs, (f x).isSome = true) ∧ ys = xs.map fun x => (f x).getD d := by
  induction xs generalizing ys with
  | nil =>
    rw [List.mapM_nil]
    exact ⟨fun h => ⟨nofun, (Option.some.inj h).symm⟩, fun h => congrArg some h.2.symm⟩
  | cons x xs ih =>
    simp only [List.mapM_cons, Option.bind_eq_bind, Option.pure_def, Option.bind_eq_some_iff, List.forall_mem_cons, List.map_cons]
    constructor
    · rintro ⟨y, hy, zs, hzs, h⟩
      obtain ⟨hall, rfl⟩ := ih.mp hzs
      cases h
      rw [hy]
      exact ⟨⟨rfl, hall⟩, rfl⟩
    · rintro ⟨⟨hx, hall⟩, rfl⟩
      obtain ⟨y, hy⟩ := Option.isSome_iff_exists.mp hx
      exact ⟨y, hy, _, ih.mpr ⟨hall, rfl⟩, by rw [hy]; rfl⟩

end Py
