import Nl2Sql.Plan.Validator

/-!
# The validator of query plans

`validate_query_plan` of `orchestration/planning.py`: what a proposal must satisfy before anything is compiled from it. An issue that
denies hides those that ask for clarification.
-/

namespace Nl2Sql

open Py

/-- The identity of a request: what the checks read of it. -/
structure RequestIdentity where
  permissions : List String

/-- `"*" in permissions or required <= permissions`. -/
def RequestIdentity.holds (identity : RequestIdentity) (required : List String) : Prop :=
  "*" ∈ identity.permissions ∨ ∀ permission ∈ required, permission ∈ identity.permissions

instance (identity : RequestIdentity) (required : List String) : Decidable (identity.holds required) :=
  inferInstanceAs (Decidable (_ ∨ _))

namespace PlanValidator

variable (D : PlanDigests) (v : PlanValidator)

/-- The issues that deny a query plan. -/
def denyQueryIssues (plan : QueryPlan) (context : ContextBundle) (identity : RequestIdentity) : List PlanValidationIssue :=
  failIf (context.resolutionStatus = .conflict ∨ context.conflictIds ≠ [])
    ⟨"semantic_context_conflict", "context.resolution_status", "Semantic context contains unresolved conflicts."⟩ ++
  failIf (plan.domain.val ∉ context.domains)
    ⟨"query_plan_domain_not_permitted", "query_plan.domain",
      "The requested semantic domain is not available to this request."⟩ ++
  failIf (∃ key ∈ plan.metricKeys, key ∉ context.assetIds)
    ⟨"query_plan_metric_not_resolved", "query_plan.metric_keys",
      "One or more requested metrics are not present in the resolved context."⟩ ++
  failIf (¬ identity.holds plan.requiredPermissions)
    ⟨"query_plan_permission_denied", "query_plan.required_permissions",
      "The request identity does not have all permissions required by the plan."⟩ ++
  failIf (plan.sourceStrategy = .detailRequired ∧ context.approvedRelationIds = [])
    ⟨"query_plan_detail_source_unapproved", "query_plan.source_strategy",
      "Detail execution requires an approved relation in the active release."⟩ ++
  failIf (plan.intent = .detail ∧ plan.sourceStrategy ≠ .detailRequired)
    ⟨"query_plan_detail_strategy_mismatch", "query_plan.source_strategy",
      "A detail request must use the governed detail-source strategy."⟩

/-- The issues that ask for clarification. -/
def clarifyQueryIssues (plan : QueryPlan) (context : ContextBundle) : List PlanValidationIssue :=
  failIf (¬ (context.resolutionStatus = .conflict ∨ context.conflictIds ≠ []) ∧ context.resolutionStatus ≠ .resolved)
    ⟨"semantic_context_incomplete", "context.resolution_status", "Semantic context is not complete enough to execute."⟩ ++
  failIf (context.unresolvedSlots ++ plan.unresolvedSlots ≠ [])
    ⟨"query_plan_unresolved_slots", "query_plan.unresolved_slots", "The query requires clarification before execution."⟩

/-- `validate_query_plan`: none where the record is rejected. -/
def validateQueryPlan (plan : QueryPlan) (context : ContextBundle) (identity : RequestIdentity) : Option PlanValidationRecord :=
  let deny := denyQueryIssues plan context identity
  let clarify := clarifyQueryIssues plan context
  let issues := if deny ≠ [] then deny else clarify
  let outcome : ValidationOutcome := if deny ≠ [] then .deny else if clarify ≠ [] then .clarify else .allow
  if h : (1 ≤ v.policyVersion.length ∧ v.policyVersion.length ≤ 128) ∧ issues.length ≤ 32 ∧ (outcome = .allow ↔ issues = []) then
    some
      { policyVersion := ⟨v.policyVersion, h.1⟩
        policyChecksum := v.policyChecksum D
        outcome := outcome
        queryPlanSha256 := D.queryPlan plan
        contextChecksum := D.context context
        executionPlanSha256 := none
        issues := issues
        issues_length := h.2.1
        outcome_issues := h.2.2 }
  else
    none

/-- `PlanValidator()`: the policy without a template and without a catalog. -/
def bootstrap : PlanValidator :=
  ⟨"plan-validation.bootstrap.v1", [], ["typed_result_present"], none, by decide⟩

end PlanValidator

end Nl2Sql
