/-!
# Kleene's three-valued logic

The truth values of SQL conditions: a conjunction is the least of its values and a disjunction the greatest, in the order
`false < unknown < true`.
-/

/-- A truth value of Kleene's strong logic. -/
inductive Kleene where
  | false | unknown | true
  deriving DecidableEq, Repr

namespace Kleene

/-- The truth value of a decided proposition. -/
def ofBool (b : Bool) : Kleene := if b then .true else .false

/-- Conjunction: the lesser of the two. -/
def and : Kleene → Kleene → Kleene
  | .false, _ => .false
  | _, .false => .false
  | .unknown, _ => .unknown
  | _, .unknown => .unknown
  | .true, .true => .true

/-- Disjunction: the greater of the two. -/
def or : Kleene → Kleene → Kleene
  | .true, _ => .true
  | _, .true => .true
  | .unknown, _ => .unknown
  | _, .unknown => .unknown
  | .false, .false => .false

/-- The conjunction of a list. -/
def all (ks : List Kleene) : Kleene := ks.foldr and .true

/-- The disjunction of a list. -/
def any (ks : List Kleene) : Kleene := ks.foldr or .false

/-- A conjunction, by which values occur in it. -/
theorem all_eq (ks : List Kleene) :
    all ks = if .false ∈ ks then .false else if .unknown ∈ ks then .unknown else .true := by
  induction ks with
  | nil => rfl
  | cons k ks ih =>
    have hcons : all (k :: ks) = and k (all ks) := rfl
    rw [hcons, ih]
    cases k <;> by_cases hf : Kleene.false ∈ ks <;> by_cases hu : Kleene.unknown ∈ ks <;> simp [and, hf, hu]

/-- A disjunction, by which values occur in it. -/
theorem any_eq (ks : List Kleene) :
    any ks = if .true ∈ ks then .true else if .unknown ∈ ks then .unknown else .false := by
  induction ks with
  | nil => rfl
  | cons k ks ih =>
    have hcons : any (k :: ks) = or k (any ks) := rfl
    rw [hcons, ih]
    cases k <;> by_cases ht : Kleene.true ∈ ks <;> by_cases hu : Kleene.unknown ∈ ks <;> simp [or, ht, hu]

/-- A conjunction is true exactly when all its values are. -/
theorem all_eq_true_iff (ks : List Kleene) : all ks = .true ↔ ∀ k ∈ ks, k = .true := by
  induction ks with
  | nil => simp [all]
  | cons k ks ih =>
    have hcons : all (k :: ks) = and k (all ks) := rfl
    rw [hcons, List.forall_mem_cons, ← ih]
    cases k <;> cases all ks <;> simp [and]

end Kleene
