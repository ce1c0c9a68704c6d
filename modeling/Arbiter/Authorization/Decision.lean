/-
# Decisions

A policy is satisfied by a request when its scope admits the request and its conditions hold.  A
satisfied forbid denies; otherwise a satisfied permit allows; otherwise the request is denied.
The policies that decided are the reasons.  A policy that cannot be evaluated is not satisfied and
is reported beside the decision.
-/
import Arbiter.Authorization.Scope
import Arbiter.Evaluation
import Arbiter.Policy.Set

namespace Arbiter

/-- Allow or deny. -/
inductive Decision where
  | allow
  | deny
  deriving DecidableEq, Repr

/-- The name of a decision. -/
def Decision.name : Decision → String
  | .allow => "Allow"
  | .deny => "Deny"

/-- An error of evaluation with the policy that it concerns. -/
structure PolicyFailure where
  policy : PolicyId
  error : EvalError
  deriving DecidableEq, Repr

/-- A failure as text. -/
def PolicyFailure.render (f : PolicyFailure) : String :=
  "while evaluating policy `" ++ f.policy.name ++ "`: " ++ f.error.message

/-- The answer to a request. -/
structure Response where
  decision : Decision
  /-- The policies that decided, in the order of their ids. -/
  reasons : List PolicyId
  /-- The policies that could not be evaluated, in the order of their ids. -/
  errors : List PolicyFailure
  deriving DecidableEq, Repr

namespace Response

/-- Whether the request is allowed. -/
def isAllowed (r : Response) : Bool := r.decision == .allow

/-- A response as text. -/
def render (r : Response) : String :=
  r.decision.name ++ "[" ++ ", ".intercalate (r.reasons.map PolicyId.name) ++ "]" ++
    if r.errors.isEmpty then ""
    else " errors=[" ++ "; ".intercalate (r.errors.map PolicyFailure.render) ++ "]"

end Response

namespace Policy

/-- Whether a request satisfies the policy. -/
def isSatisfied (p : Policy) (request : Request) (store : EntityStore) : Except EvalError Bool := do
  if ← p.scopeMatches request store then conditionsHold request store p.template.conditions
  else return false

/-- Whether a request satisfies the policy, which has the given effect. -/
def isSatisfiedWith (effect : Effect) (request : Request) (store : EntityStore) (p : Policy) :
    Bool :=
  p.template.effect == effect && p.isSatisfied request store matches .ok true

/-- The failure of the policy on a request, if it fails. -/
def failure? (request : Request) (store : EntityStore) (p : Policy) : Option PolicyFailure :=
  match p.isSatisfied request store with
  | .ok _ => none
  | .error error => some ⟨p.id, error⟩

end Policy

/-- The entities of a request that have to be stored: principal and resource, and the action when
the store holds all declared actions. -/
def Request.required (r : Request) (store : EntityStore) : List EntityUid :=
  [r.principal, r.resource] ++ if store.declaresActions then [r.action] else []

/-- The response of the satisfied permits and forbids. -/
def combine (permits forbids : List PolicyId) (errors : List PolicyFailure) : Response :=
  if !forbids.isEmpty then ⟨.deny, forbids, errors⟩
  else if !permits.isEmpty then ⟨.allow, permits, errors⟩
  else ⟨.deny, [], errors⟩

/-- Decides a request. -/
def authorize (request : Request) (policies : PolicySet) (store : EntityStore) :
    Except UnknownEntity Response :=
  match (request.required store).find? fun uid => !store.contains uid with
  | some uid => .error ⟨uid⟩
  | none =>
    let satisfied (effect : Effect) :=
      (policies.policies.filter (Policy.isSatisfiedWith effect request store)).map Policy.id
    .ok (combine (satisfied .permit) (satisfied .forbid)
      (policies.policies.filterMap (Policy.failure? request store)))

end Arbiter
