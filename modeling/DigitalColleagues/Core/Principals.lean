import DigitalColleagues.Core.Common

/-!
# Principals

Durable and disjoint human, model and service principals of one tenant, and the
namespaces that records and scopes refer to.
-/

namespace DigitalColleagues

/-- A namespace of the tenant: its own, a colleague's or a principal's. -/
inductive Namespace
  | tenant
  | colleague (scopeId : StableId)
  | principal (scopeId : StableId)
deriving DecidableEq

def Namespace.isColleague : Namespace → Bool
  | .colleague _ => true
  | _ => false

inductive PrincipalKind
  | human
  | model
  | service
deriving DecidableEq, Repr

inductive HumanRole
  | tenantAdmin
  | colleagueUser
  | auditor
deriving DecidableEq, Repr

/-- A principal; only humans carry roles, and none of them twice. -/
structure Principal where
  principalId : StableId
  kind : PrincipalKind
  roles : List HumanRole
  revision : ℕ
  roles_nodup : roles.Nodup := by decide
  human_of_roles : kind ≠ .human → roles = [] := by decide
deriving DecidableEq

/-- Only humans have roles. -/
theorem no_roles (kind : PrincipalKind) (_ : kind ≠ .human) : ([] : List HumanRole) = [] := rfl

/-- A new human with one role. -/
def Principal.human (principalId : StableId) (role : HumanRole) : Principal where
  principalId := principalId
  kind := .human
  roles := [role]
  revision := 1
  roles_nodup := by simp
  human_of_roles := fun h => absurd rfl h

/-- A new principal of the runtime, which has no roles. -/
def Principal.runtime (kind : PrincipalKind) (principalId : StableId) : Principal where
  principalId := principalId
  kind := kind
  roles := []
  revision := 1
  roles_nodup := List.nodup_nil
  human_of_roles := fun _ => rfl

def Principal.model (principalId : StableId) : Principal := .runtime .model principalId

def Principal.service (principalId : StableId) : Principal := .runtime .service principalId

end DigitalColleagues
