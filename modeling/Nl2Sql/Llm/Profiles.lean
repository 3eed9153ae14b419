import Nl2Sql.Lib.Str
import Mathlib.Data.Rat.Defs

/-!
# Model targets and profiles

`infra/llm/profiles.py`. A target is a model of a provider, with its prices and the data it may be sent. A profile names the target a
stage uses and the one it falls back to. What `__post_init__` checks of either is a field of the structure, but the shape of a
profile's alias, which nothing here reads.
-/

namespace Nl2Sql.Llm

open Py

/-- The stages a model may be asked for. -/
inductive ModelStage where
  | classify | retrieve | plan | generateSql | verify | answer
  deriving DecidableEq, Repr

/-- The classifications of the data a model may be sent. -/
inductive ModelDataClassification where
  | publicData | internal | confidential | restricted
  deriving DecidableEq, Repr

/-- The tiers of a model, and `_TIER_ORDER`. -/
inductive ModelTier where
  | small | pro
  deriving DecidableEq, Repr

def ModelTier.order : ModelTier → Nat
  | .small => 0
  | .pro => 1

/-- A model of a provider. -/
structure ModelTarget where
  provider : String
  model : String
  tier : ModelTier
  inputCostPerMillion : ℚ
  outputCostPerMillion : ℚ
  allowedDataClassifications : List ModelDataClassification
  provider_bounds : strip provider = provider ∧ 1 ≤ provider.length ∧ provider.length ≤ 128
  model_bounds : strip model = model ∧ 1 ≤ model.length ∧ model.length ≤ 256
  costs_nonneg : 0 ≤ inputCostPerMillion ∧ 0 ≤ outputCostPerMillion
  classifications_nonempty : allowedDataClassifications ≠ []
  deriving DecidableEq

/-- The target of a stage and the one it falls back to. -/
structure ModelProfile where
  modelAlias : String
  version : String
  allowedStages : List ModelStage
  primary : ModelTarget
  fallback : Option ModelTarget
  version_bounds : strip version = version ∧ 1 ≤ version.length ∧ version.length ≤ 128
  stages_nonempty : allowedStages ≠ []
  pro_plans : (primary.tier = .pro ∨ ∃ target ∈ fallback, target.tier = .pro) → ∀ stage, stage ∈ allowedStages ↔ stage = .plan
  fallback_tier : ∀ target ∈ fallback, target.tier.order ≤ primary.tier.order
  fallback_data : ∀ target ∈ fallback, target.allowedDataClassifications ⊆ primary.allowedDataClassifications

end Nl2Sql.Llm
