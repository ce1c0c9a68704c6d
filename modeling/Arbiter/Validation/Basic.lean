/-
# Validation

A policy set is valid for a schema when no policy has a fault: its scope mentions declared types
and actions only, and its conditions have no fault in any environment that the scope admits.  The
environments of a template are those of all its links, because a slot admits every type.
-/
import Arbiter.Policy.Set
import Arbiter.Validation.Checker

namespace Arbiter

namespace ScopeConstraint

/-- The entity types that a constraint mentions. -/
def types : ScopeConstraint → List EntityType
  | .any => []
  | .eq r | .isIn r => r.type?.toList
  | .isType t => [t]
  | .isTypeIn t r => t :: r.type?.toList

/-- Whether an entity of a type can be in the entity of a reference. -/
def canBeIn (s : Schema) (t : EntityType) (r : EntityRef) : Bool :=
  r.type?.all fun ancestor => s.canDescend t ancestor

/-- Whether a constraint admits some entity of a type. -/
def admits (s : Schema) (t : EntityType) : ScopeConstraint → Bool
  | .any => true
  | .eq r => r.type?.all fun u => u == t
  | .isIn r => canBeIn s t r
  | .isType u => u == t
  | .isTypeIn u r => u == t && canBeIn s t r

end ScopeConstraint

namespace Template

/-! ## 1. Environments -/

/-- The declared actions that the scope admits, each once. -/
def admittedActions (s : Schema) (t : Template) : List ActionDecl :=
  match t.action with
  | .any => s.actionDecls
  | .eq u => (s.action? u).toList
  | .isIn groups =>
    (groups.flatMap fun g => (s.actionsIn g).map ActionDecl.uid).eraseDups.filterMap s.action?

/-- The environments that the scope admits for an action. -/
def environmentsOf (s : Schema) (t : Template) (a : ActionDecl) : List RequestEnv :=
  (a.principals.toList.filter fun p => t.principal.admits s p).flatMap fun principal =>
    (a.resources.toList.filter fun r => t.resource.admits s r).map fun resource =>
      { principal, action := a.uid, resource, context := .record (Ty.shapeOf a.context) }

/-- The environments that the scope admits. -/
def environments (s : Schema) (t : Template) : List RequestEnv :=
  (t.admittedActions s).flatMap (t.environmentsOf s)

/-! ## 2. Faults -/

/-- The faults of the scope. -/
def scopeFaults (s : Schema) (t : Template) : List PolicyFault :=
  (t.principal.types ++ t.resource.types).flatMap (Checker.requireType s)
    ++ t.action.actions.flatMap fun uid =>
      if (s.action? uid).isSome then [] else [.unrecognizedAction uid.render]

/-- The faults of conditions in an environment: a condition that has to be true makes its facts
known to those behind it. -/
def conditionFaults (s : Schema) (env : RequestEnv) (known : Facts) :
    List Condition → List PolicyFault
  | [] => []
  | c :: rest =>
    let r := c.body.check s env known
    let known := if c.kind = .when then known ++ r.facts else known
    r.faults ++ Checker.expectBool r.type ++ conditionFaults s env known rest

/-- The faults of the template: of its scope, then of its conditions in each environment. -/
def faults (s : Schema) (t : Template) : List PolicyFault :=
  t.scopeFaults s
    ++ (t.environments s).flatMap fun env => conditionFaults s env [] t.conditions

/-- The faults of the template, with its id, each once. -/
def validate (s : Schema) (t : Template) : List ValidationError :=
  ((t.faults s).map (ValidationError.mk t.id)).eraseDups

end Template

namespace Policy

/-- The faults of the values of the slots. -/
def valueFaults (s : Schema) (p : Policy) : List PolicyFault :=
  p.values.values.flatMap fun uid => Checker.requireType s uid.type

end Policy

/-- The faults of a policy set, each once: those of the templates, then those of the links. -/
def PolicySet.validate (ps : PolicySet) (s : Schema) : List ValidationError :=
  (ps.allTemplates.flatMap (fun t => (t.faults s).map (ValidationError.mk t.id))
    ++ ps.linkedPolicies.flatMap fun p =>
      (p.valueFaults s).map (ValidationError.mk p.id)).eraseDups

end Arbiter
