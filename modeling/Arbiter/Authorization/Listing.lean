/-
# Listings

Which policies may concern a principal: those of which the principal constraint admits it.  A
listing tells how the constraint admits the principal and whether the policy leaves the action or
the resource unconstrained.
-/
import Arbiter.Authorization.Scope
import Arbiter.Policy.Set

namespace Arbiter

/-- Which policies are to be listed. -/
inductive EffectFilter where
  | any
  | permit
  | forbid
  deriving DecidableEq, Repr, Inhabited

namespace EffectFilter

/-- The filter of a name. -/
def ofName? (name : String) : Option EffectFilter :=
  match name with
  | "any" => some .any
  | "permit" => some .permit
  | "forbid" => some .forbid
  | _ => none

/-- The filter of a document. -/
def ofJson? (j : Json) : Option EffectFilter := j.choice?.bind ofName?

/-- Whether policies of an effect are to be listed. -/
def admits : EffectFilter → Effect → Bool
  | .any, _ => true
  | .permit, e => e == .permit
  | .forbid, e => e == .forbid

end EffectFilter

/-- Why a policy is listed. -/
inductive MatchReason where
  | principal (way : ScopeMatch)
  | actionAny
  | resourceAny
  deriving DecidableEq, Repr

/-- The name of a reason. -/
def MatchReason.name : MatchReason → String
  | .principal .any => "PrincipalAny"
  | .principal .eq => "PrincipalEq"
  | .principal .isIn => "PrincipalIn"
  | .principal .isType => "PrincipalIs"
  | .principal .isTypeIn => "PrincipalIsIn"
  | .actionAny => "ActionAny"
  | .resourceAny => "ResourceAny"

/-- A listed policy. -/
structure PolicyMatch where
  policy : PolicyId
  effect : Effect
  reasons : List MatchReason
  deriving DecidableEq, Repr

namespace PolicyMatch

/-- The document of a listed policy. -/
def toJson (m : PolicyMatch) : Json :=
  .object [("policy_id", .string m.policy.name), ("effect", .string m.effect.name),
    ("reasons", .array (m.reasons.map fun r => .string r.name))]

/-- The listing of a policy, if its constraint admits the principal.  A policy of which a slot has
no value is not listed. -/
def ofPolicy? (store : EntityStore) (principal : EntityUid) (p : Policy) : Option PolicyMatch :=
  match p.principalMatch store principal with
  | .ok (some way) =>
    some {
      policy := p.id
      effect := p.template.effect
      reasons := .principal way ::
        (matched MatchReason.actionAny (p.template.action = .any)).toList
        ++ (matched MatchReason.resourceAny (p.template.resource = .any)).toList }
  | _ => none

end PolicyMatch

/-- The policies of an effect that may concern a principal, in the order of their ids. -/
def PolicySet.matchesFor (ps : PolicySet) (store : EntityStore) (principal : EntityUid)
    (filter : EffectFilter) : List PolicyMatch :=
  (ps.policies.filter fun p => filter.admits p.template.effect).filterMap
    (PolicyMatch.ofPolicy? store principal)

end Arbiter
