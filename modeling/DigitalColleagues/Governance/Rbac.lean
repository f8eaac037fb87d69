import DigitalColleagues.Core.Governance

/-!
# Role and namespace authorization

The fail-closed matrix of roles and actions, evaluated on durable records.
-/

namespace DigitalColleagues

/-- `ROLE_ACTIONS`. -/
def roleAllows : HumanRole → AuthorizationAction → Bool
  | .tenantAdmin, _ => true
  | .colleagueUser, action =>
    action ∈ [.readSessionSecurity, .readColleague, .assignWork, .submitTrigger, .processRuntime,
      .decideEffect, .readAgentPackages, .readDeployments, .selectDeployment]
  | .auditor, action =>
    action ∈ [.readSessionSecurity, .readColleague, .readGovernance, .exportAudit,
      .readAgentPackages, .readDeployments, .readDeploymentAudit]

/-- `authorize_action`: one exact action, by current durable records only. -/
def authorizeAction (principal : Principal) (membership : MembershipFields)
    (action : AuthorizationAction) (ns : Namespace) : Outcome Unit := do
  require (principal.kind = .human)
    (.authorization "a human governance action requires a durable human")
  require (principal.principalId = membership.principalId)
    (.namespaceMismatch "namespace mismatch")
  require (membership.status = .active) (.authorization "membership is not active")
  require (membership.roles = principal.roles ∧ membership.roleRevision = principal.revision)
    (.authorization "principal role binding is stale")
  require (membership.allowsNamespace ns = true)
    (.authorization "membership does not include the requested namespace")
  require (∃ role ∈ membership.roles, roleAllows role action = true)
    (.authorization "role does not allow the requested action")

theorem authorizeAction_eq_ok {principal : Principal} {membership : MembershipFields}
    {action : AuthorizationAction} {ns : Namespace} {u : Unit} :
    authorizeAction principal membership action ns = .ok u ↔
      principal.kind = .human ∧ principal.principalId = membership.principalId ∧
      membership.status = .active ∧
      (membership.roles = principal.roles ∧ membership.roleRevision = principal.revision) ∧
      membership.allowsNamespace ns = true ∧
      ∃ role ∈ membership.roles, roleAllows role action = true := by
  simp only [authorizeAction, bind_eq_ok, require_eq_ok, exists_const]

end DigitalColleagues
