/-
# Matching of scopes

Whether the scope of a policy admits a request, and which form of constraint admits it.
-/
import Arbiter.Policy.Basic
import Arbiter.Store.Basic

namespace Arbiter

/-- How a constraint on principal or resource admits an entity. -/
inductive ScopeMatch where
  | any
  | eq
  | isIn
  | isType
  | isTypeIn
  deriving DecidableEq, Repr

/-- How a constraint on the action admits an action. -/
inductive ActionMatch where
  | any
  | eq
  | isIn
  deriving DecidableEq, Repr

/-- What matched in a way, if it did. -/
def matched {α : Type} (way : α) (b : Bool) : Option α := if b then some way else none

namespace Policy

/-- How a constraint on principal or resource of the policy admits an entity. -/
def scopeMatch (p : Policy) (store : EntityStore) (uid : EntityUid) :
    ScopeConstraint → Except EvalError (Option ScopeMatch)
  | .any => .ok (some .any)
  | .eq r => do return matched .eq ((← p.resolve r) == uid)
  | .isIn r => do return matched .isIn (store.isDescendant uid (← p.resolve r))
  | .isType t => .ok (matched .isType (uid.type == t))
  | .isTypeIn t r =>
    if uid.type = t then do return matched .isTypeIn (store.isDescendant uid (← p.resolve r))
    else .ok none

/-- How the policy admits a principal. -/
def principalMatch (p : Policy) (store : EntityStore) (principal : EntityUid) :
    Except EvalError (Option ScopeMatch) :=
  p.scopeMatch store principal p.template.principal

/-- How the policy admits a resource. -/
def resourceMatch (p : Policy) (store : EntityStore) (resource : EntityUid) :
    Except EvalError (Option ScopeMatch) :=
  p.scopeMatch store resource p.template.resource

/-- How the policy admits an action. -/
def actionMatch (p : Policy) (store : EntityStore) (action : EntityUid) : Option ActionMatch :=
  match p.template.action with
  | .any => some .any
  | .eq u => matched .eq (u == action)
  | .isIn us => matched .isIn (us.any fun u => store.isDescendant action u)

/-- Whether the scope admits a request: principal first, then action, then resource. -/
def scopeMatches (p : Policy) (request : Request) (store : EntityStore) :
    Except EvalError Bool := do
  if (← p.principalMatch store request.principal).isNone then return false
  if (p.actionMatch store request.action).isNone then return false
  return (← p.resourceMatch store request.resource).isSome

end Policy

end Arbiter
