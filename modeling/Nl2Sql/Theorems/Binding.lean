import Nl2Sql.Calculation.Spec

/-!
# Bindings across a JSON snapshot

A binding is snapshotted through JSON before it is compiled and before it is executed. A decimal is written as text and read back as
text, so a snapshot keeps exactly the bindings that bind no decimal.
-/

namespace Nl2Sql

open Py

namespace BindingAux

/-- A value that is no decimal is read back as it is. -/
theorem reread_eq_self_iff (v : ParameterValue) : v.reread = v ↔ ∀ d, v ≠ .decimal d := by
  cases v <;> simp [ParameterValue.reread]

theorem reread_binding_eq_self_iff (p : ParameterBinding) :
    ({ p with value := p.value.reread } : ParameterBinding) = p ↔ ∀ d, p.value ≠ .decimal d := by
  rw [← reread_eq_self_iff, ParameterBinding.ext_iff]
  simp

/-- A snapshot keeps the parameters exactly when no value is a decimal. -/
theorem snapshot_parameters_iff (b : CalculationExecutionBinding) :
    b.snapshot.parameters = b.parameters ↔ ∀ p ∈ b.parameters, ∀ d, p.value ≠ .decimal d := by
  change b.parameters.map _ = b.parameters ↔ _
  nth_rewrite 2 [← List.map_id b.parameters]
  rw [List.map_inj_left]
  constructor
  · exact fun h p hp => (reread_binding_eq_self_iff p).mp (h p hp)
  · exact fun h p hp => (reread_binding_eq_self_iff p).mpr (h p hp)

theorem snapshot_eq_self {b : CalculationExecutionBinding} (h : b.snapshot.parameters = b.parameters) : b.snapshot = b := by
  obtain ⟨id, checksum, parameters, hlen, hnodup⟩ := b
  simp only [CalculationExecutionBinding.snapshot] at h ⊢
  congr

/-- What a binding gives to a name after a snapshot. -/
theorem bound?_snapshot (b : CalculationExecutionBinding) (name : ParameterName) :
    b.snapshot.bound? name = (b.bound? name).map ParameterValue.reread := by
  simp only [CalculationExecutionBinding.bound?, CalculationExecutionBinding.snapshot, List.find?_map, Option.map_map]
  rfl

/-- A binding is what it gives to the names it binds. -/
theorem bound?_of_mem {b : CalculationExecutionBinding} {p : ParameterBinding} (hp : p ∈ b.parameters) :
    b.bound? p.name = some p.value := by
  have hfind : b.parameters.find? (fun q => q.name = p.name) = some p := by
    have hnodup := b.parameters_unique
    revert hp hnodup
    generalize b.parameters = ps
    intro hp hnodup
    induction ps with
    | nil => nomatch hp
    | cons q qs ih =>
      rw [List.map_cons, List.nodup_cons] at hnodup
      by_cases hq : q.name = p.name
      · rcases List.mem_cons.mp hp with rfl | hmem
        · simp
        · exact absurd (List.mem_map_of_mem hmem) (hq ▸ hnodup.1)
      · rw [List.find?_cons_of_neg (by simpa using hq)]
        rcases List.mem_cons.mp hp with rfl | hmem
        · exact absurd rfl hq
        · exact ih hmem hnodup.2
  rw [CalculationExecutionBinding.bound?, hfind]
  rfl

variable {D : CalculationDigests}

/-- What it means that a binding has no failure. -/
theorem bindingFailures_eq_nil_iff (b : CalculationExecutionBinding) (spec : CalculationSpec) :
    b.bindingFailures D spec = [] ↔ (spec.calculationId = b.calculationId ∧ spec.checksum D = b.specChecksum) ∧
      (∀ p ∈ b.parameters, p.name ∈ spec.parameters.map (·.name)) ∧ ∀ p ∈ spec.parameters, b.parameterFailures p = [] := by
  simp only [CalculationExecutionBinding.bindingFailures, fromKeys_eq_nil_iff, List.append_eq_nil_iff, List.map_eq_nil_iff,
    List.filter_eq_nil_iff, List.flatMap_eq_nil_iff, decide_not, Bool.not_eq_true', decide_eq_false_iff_not, not_not]
  rw [and_assoc]
  refine and_congr_left fun _ => ?_
  split
  · rename_i hne
    simp only [List.cons_ne_nil, false_iff]
    rintro ⟨h1, h2⟩
    rcases hne with hne | hne
    · exact hne h1
    · exact hne h2
  · rename_i heq
    simp only [true_iff]
    constructor
    · by_contra h1
      exact heq (.inl h1)
    · by_contra h2
      exact heq (.inr h2)

/-- A decimal bound to a declared parameter is not of its type once it has been snapshotted. -/
theorem snapshot_failures_of_decimal {b : CalculationExecutionBinding} {spec : CalculationSpec} (h : b.bindingFailures D spec = [])
    {p : ParameterBinding} {d : Decimal} (hp : p ∈ b.parameters) (hd : p.value = .decimal d) :
    b.snapshot.bindingFailures D spec ≠ [] := by
  rw [bindingFailures_eq_nil_iff] at h
  obtain ⟨-, hdeclared, hfailures⟩ := h
  obtain ⟨parameter, hmem, hname⟩ := List.mem_map.mp (hdeclared p hp)
  have hbound := bound?_of_mem hp
  have hbefore := hfailures parameter hmem
  intro hafter
  rw [bindingFailures_eq_nil_iff] at hafter
  have hafter' := hafter.2.2 parameter hmem
  rw [← hname] at hbound
  simp only [CalculationExecutionBinding.parameterFailures, bound?_snapshot, hbound, hd, Option.map_some,
    ParameterValue.reread] at hbefore hafter'
  -- the only type a decimal has is `decimal`, and no text has it
  cases hty : parameter.valueType <;> rw [hty] at hbefore hafter' <;> simp [valueMatchesType] at hbefore hafter'

end BindingAux

open BindingAux

def revenueKey : BoundedText 1 256 := ⟨"revenue", by decide⟩

def revenueInput : CalculationInputSpec := ⟨⟨"revenue", by decide⟩, .publishedGold, some revenueKey, true, by decide⟩

/-- `revenue * rate`, with a decimal rate. -/
def discountedRevenue : CalculationSpec where
  calculationId := ⟨"discounted_revenue", by decide⟩
  expression := .binary .multiply (.input ⟨"revenue", by decide⟩) (.parameter ⟨"rate", by decide⟩)
  inputs := [revenueInput]
  parameters := [⟨⟨"rate", by decide⟩, .decimal, true, [], none, by decide, by decide, by decide⟩]
  unit := .currencyCny
  customUnitId := none
  precision := none
  rounding := none
  inputs_length := by decide
  inputs_unique := by decide
  parameters_length := by decide
  parameters_unique := by decide
  depth_bounded := ⟨2, by decide, by decide⟩
  nodes_bounded := ⟨3, by decide, by decide⟩
  roles_declared := by
    intro roles h
    have hroles : roles = ["revenue"] := by
      have heval : Expression.referencedInputRoles
          (.binary .multiply (.input ⟨"revenue", by decide⟩) (.parameter ⟨"rate", by decide⟩)) = some ["revenue"] := by decide
      rw [heval] at h
      exact (Option.some.inj h).symm
    rw [hroles]
    decide
  parameters_declared := by
    intro names h
    have hnames : names = ["rate"] := by
      have heval : Expression.referencedParameterNames
          (.binary .multiply (.input ⟨"revenue", by decide⟩) (.parameter ⟨"rate", by decide⟩)) = some ["rate"] := by decide
      rw [heval] at h
      exact (Option.some.inj h).symm
    rw [hnames]
    decide
  rounding_precision := by decide
  custom_unit := by decide
  custom_unit_fresh := by decide

/-- The checksum of `discountedRevenue`. -/
def discountedRevenueChecksum : Sha256 := ⟨"504e9d2f4a81dff3021f5c4889fa29be53f3c0e0ff801508607cfebcb88f6a3d", isSha256_ofList rfl⟩

/-- The digests at `discountedRevenue` and its bindings to 2. -/
def discountedRevenueDigests : CalculationDigests where
  spec _ := discountedRevenueChecksum
  binding _ := ⟨"01d1180ea08bee14e768fcabc7924522310dbcec57f7f9541f15f91fc7c2f6e7", isSha256_ofList rfl⟩
  derived _ _ := ⟨"67a8765ad21b931fbae6a6c463603ab088a66b41e23618728d9af4980c457e3e", isSha256_ofList rfl⟩

/-- The binding of the rate of `discountedRevenue` to a value. -/
def rateBinding (value : ParameterValue) : CalculationExecutionBinding where
  calculationId := ⟨"discounted_revenue", by decide⟩
  specChecksum := discountedRevenueChecksum
  parameters := [⟨⟨"rate", by decide⟩, value⟩]
  parameters_length := Nat.le_of_ble_eq_true rfl
  parameters_unique := List.nodup_singleton _

end Nl2Sql
