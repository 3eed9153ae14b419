import Nl2Sql.Semantic.Fingerprint

/-!
# The fingerprint of a definition is canonical

Two definitions are hashed as one text exactly when they are the same up to the order of their mappings and their lists. By induction on
the definition: canonical values are known by their texts, and sorted lists of them by their items.
-/

namespace Nl2Sql.Inventory

open Py Json

theorem canonicalizeItems_eq_map (items : List Json) : canonicalizeItems items = items.map canonicalize := by
  induction items with
  | nil => rfl
  | cons v items ih => rw [canonicalizeItems, ih, List.map_cons]

/-- A member with its value canonicalized. -/
def canonicalMember (member : String × Json) : String × Json := (member.1, canonicalize member.2)

theorem canonicalizeMembers_eq_map (members : List (String × Json)) : canonicalizeMembers members = members.map canonicalMember := by
  induction members with
  | nil => rfl
  | cons m members ih => rw [canonicalizeMembers, ih, List.map_cons, canonicalMember]

theorem map_fst_canonicalMember (members : List (String × Json)) : (members.map canonicalMember).map Prod.fst = members.map Prod.fst := by
  rw [List.map_map]
  rfl

mutual

/-- What is canonicalized has one text. -/
theorem canonical_canonicalize : ∀ v : Json, v.Plain → (canonicalize v).Canonical
  | .null, _ => trivial
  | .bool _, _ => trivial
  | .int _, _ => trivial
  | .float _, h => h.elim
  | .str _, _ => trivial
  | .arr items, h => by
    rw [canonicalize, Canonical, canonicalItems_iff]
    exact fun v hv => canonical_canonicalizeItems items h v (mem_sortBy.mp hv)
  | .obj members, h => by
    rw [canonicalize, Canonical, canonicalMembers_iff]
    refine ⟨pairwise_lt_sortBy ?_, fun m hm => canonical_canonicalizeMembers members h.2 m (mem_sortBy.mp hm)⟩
    rw [canonicalizeMembers_eq_map, map_fst_canonicalMember]
    exact h.1

theorem canonical_canonicalizeItems : ∀ items : List Json, PlainItems items → ∀ v ∈ canonicalizeItems items, v.Canonical
  | [], _ => fun _ hv => absurd hv List.not_mem_nil
  | value :: rest, h => List.forall_mem_cons.mpr ⟨canonical_canonicalize value h.1, canonical_canonicalizeItems rest h.2⟩

theorem canonical_canonicalizeMembers : ∀ members : List (String × Json), PlainMembers members →
    ∀ m ∈ canonicalizeMembers members, m.2.Canonical
  | [], _ => fun _ hm => absurd hm List.not_mem_nil
  | (_, value) :: rest, h => List.forall_mem_cons.mpr ⟨canonical_canonicalize value h.1, canonical_canonicalizeMembers rest h.2⟩

end

/-- Lists of one image up to order are images of the same, in some order. -/
theorem perm_map_iff {α β : Type} {f : α → β} {values values' : List α} :
    (values.map f).Perm (values'.map f) ↔ ∃ order : List α, order.Perm values' ∧ values.map f = order.map f := by
  constructor
  · intro h
    have hcomp : Relation.Comp (fun l l' => l = l'.map f) List.Perm (values.map f) values' := by
      rw [List.eq_map_comp_perm]
      exact h
    obtain ⟨order, heq, hperm⟩ := hcomp
    exact ⟨order, hperm, heq⟩
  · rintro ⟨order, hperm, heq⟩
    rw [heq]
    exact hperm.map f

mutual

/-- Plain values are canonicalized alike exactly when they are the same up to order. -/
theorem canonicalize_eq_iff : ∀ v w : Json, v.Plain → w.Plain → (canonicalize v = canonicalize w ↔ SameUpToOrder v w)
  | .arr items, w, hv, hw => by
    rw [SameUpToOrder]
    cases w with
    | arr items' =>
      have hinj : ∀ a ∈ canonicalizeItems items, ∀ b ∈ canonicalizeItems items, a.dumps = b.dumps → a = b := fun a ha b hb =>
        dumps_injective (canonical_canonicalizeItems items hv a ha) (canonical_canonicalizeItems items hv b hb)
      rw [canonicalize, canonicalize, Json.arr.injEq, sortBy_eq_iff hinj, canonicalizeItems_eq_map, canonicalizeItems_eq_map, perm_map_iff]
      constructor
      · rintro ⟨order, hperm, heq⟩
        refine ⟨items', order, rfl, hperm, ?_⟩
        rw [← canonicalizeItems_eq_map, ← canonicalizeItems_eq_map] at heq
        exact (canonicalizeItems_eq_iff items order hv (plainItems_perm hperm hw)).mp heq
      · rintro ⟨_, order, heq, hperm, hsame⟩
        obtain rfl := Json.arr.inj heq
        refine ⟨order, hperm, ?_⟩
        rw [← canonicalizeItems_eq_map, ← canonicalizeItems_eq_map]
        exact (canonicalizeItems_eq_iff items order hv (plainItems_perm hperm hw)).mpr hsame
    | _ => exact iff_of_false (by rw [canonicalize]; simp [canonicalize]) (by simp)
  | .obj members, w, hv, hw => by
    rw [SameUpToOrder]
    cases w with
    | obj members' =>
      have hnodup : ((canonicalizeMembers members).map Prod.fst).Nodup := by
        rw [canonicalizeMembers_eq_map, map_fst_canonicalMember]
        exact hv.1
      rw [canonicalize, canonicalize, Json.obj.injEq, sortBy_eq_iff fun a ha b hb => List.inj_on_of_nodup_map hnodup ha hb,
        canonicalizeMembers_eq_map, canonicalizeMembers_eq_map, perm_map_iff]
      constructor
      · rintro ⟨order, hperm, heq⟩
        refine ⟨members', order, rfl, hperm, ?_⟩
        rw [← canonicalizeMembers_eq_map, ← canonicalizeMembers_eq_map] at heq
        exact (canonicalizeMembers_eq_iff members order hv.2 (plainMembers_perm hperm hw.2)).mp heq
      · rintro ⟨_, order, heq, hperm, hsame⟩
        obtain rfl := Json.obj.inj heq
        refine ⟨order, hperm, ?_⟩
        rw [← canonicalizeMembers_eq_map, ← canonicalizeMembers_eq_map]
        exact (canonicalizeMembers_eq_iff members order hv.2 (plainMembers_perm hperm hw.2)).mpr hsame
    | _ => exact iff_of_false (by rw [canonicalize]; simp [canonicalize]) (by simp)
  | .null, w, _, _ => by cases w <;> simp [canonicalize, SameUpToOrder]
  | .bool _, w, _, _ => by cases w <;> simp [canonicalize, SameUpToOrder]
  | .int _, w, _, _ => by cases w <;> simp [canonicalize, SameUpToOrder]
  | .float _, _, hv, _ => hv.elim
  | .str _, w, _, _ => by cases w <;> simp [canonicalize, SameUpToOrder]

theorem canonicalizeItems_eq_iff : ∀ items order : List Json, PlainItems items → PlainItems order →
    (canonicalizeItems items = canonicalizeItems order ↔ SameItems items order)
  | [], order, _, _ => by cases order <;> simp [canonicalizeItems, SameItems]
  | v :: rest, order, hv, hw => by
    rw [SameItems]
    cases order with
    | nil => simp [canonicalizeItems]
    | cons w rest' =>
      rw [canonicalizeItems, canonicalizeItems, List.cons.injEq, canonicalize_eq_iff v w hv.1 hw.1,
        canonicalizeItems_eq_iff rest rest' hv.2 hw.2]
      exact ⟨fun h => ⟨w, rest', rfl, h⟩, fun ⟨_, _, heq, h⟩ => by obtain ⟨rfl, rfl⟩ := List.cons.inj heq; exact h⟩

theorem canonicalizeMembers_eq_iff : ∀ members order : List (String × Json), PlainMembers members → PlainMembers order →
    (canonicalizeMembers members = canonicalizeMembers order ↔ SameMembers members order)
  | [], order, _, _ => by cases order <;> simp [canonicalizeMembers, SameMembers]
  | (name, v) :: rest, order, hv, hw => by
    rw [SameMembers]
    cases order with
    | nil => simp [canonicalizeMembers]
    | cons m rest' =>
      obtain ⟨name', w⟩ := m
      rw [canonicalizeMembers, canonicalizeMembers, List.cons.injEq, Prod.mk.injEq, canonicalize_eq_iff v w hv.1 hw.1,
        canonicalizeMembers_eq_iff rest rest' hv.2 hw.2]
      constructor
      · rintro ⟨⟨rfl, hvalue⟩, hrest⟩
        exact ⟨w, rest', rfl, hvalue, hrest⟩
      · rintro ⟨_, _, heq, hvalue, hrest⟩
        obtain ⟨hmember, rfl⟩ := List.cons.inj heq
        obtain ⟨rfl, rfl⟩ := Prod.mk.inj hmember
        exact ⟨⟨rfl, hvalue⟩, hrest⟩

end

/-- Two definitions are hashed as one text exactly when they are the same up to the order of mappings and lists, at every depth. -/
theorem fingerprint_text_iff (d d' : MetricDefinition) :
    canonicalJson d.value = canonicalJson d'.value ↔ SameUpToOrder d.value d'.value := by
  rw [← canonicalize_eq_iff d.value d'.value d.plain d'.plain]
  exact ⟨dumps_injective (canonical_canonicalize d.value d.plain) (canonical_canonicalize d'.value d'.plain), congrArg dumps⟩

end Nl2Sql.Inventory
