/-
# Scopes of policies

The scope of a policy constrains the principal, the action and the resource.  Where principal and
resource are constrained by an entity, a template may leave the entity open by a slot.
-/
import Arbiter.Entity.Uid
import Arbiter.Scope.Slot

namespace Arbiter

/-- An entity, or a slot that is filled in when a template is linked. -/
inductive EntityRef where
  | uid (u : EntityUid)
  | slot (s : Slot)
  deriving DecidableEq, Repr

namespace EntityRef

/-- A reference as text. -/
def render : EntityRef → String
  | .uid u => u.render
  | .slot s => s.name

instance : ToString EntityRef := ⟨render⟩

/-- The slot of a reference. -/
def slot? : EntityRef → Option Slot
  | .uid _ => none
  | .slot s => some s

/-- The type of the entity of a reference; a slot has none. -/
def type? : EntityRef → Option EntityType
  | .uid u => some u.type
  | .slot _ => none

end EntityRef

/-- What is asked of the principal or of the resource. -/
inductive ScopeConstraint where
  /-- Nothing. -/
  | any
  /-- To be this entity. -/
  | eq (r : EntityRef)
  /-- To be in this entity. -/
  | isIn (r : EntityRef)
  /-- To be of this type. -/
  | isType (t : EntityType)
  /-- To be of this type and in this entity. -/
  | isTypeIn (t : EntityType) (r : EntityRef)
  deriving DecidableEq, Repr, Inhabited

namespace ScopeConstraint

/-- The slot of a constraint. -/
def slot? : ScopeConstraint → Option Slot
  | .eq r | .isIn r | .isTypeIn _ r => r.slot?
  | .any | .isType _ => none

/-- The type that a constraint fixes. -/
def type? : ScopeConstraint → Option EntityType
  | .isType t | .isTypeIn t _ => some t
  | .eq r => r.type?
  | .any | .isIn _ => none

/-- A constraint as policies write it, `var` being the name of what is constrained. -/
def render (var : String) : ScopeConstraint → String
  | .any => var
  | .eq r => s!"{var} == {r}"
  | .isIn r => s!"{var} in {r}"
  | .isType t => s!"{var} is {t}"
  | .isTypeIn t r => s!"{var} is {t} in {r}"

end ScopeConstraint

/-- What is asked of the action. -/
inductive ActionConstraint where
  /-- Nothing. -/
  | any
  /-- To be this action. -/
  | eq (u : EntityUid)
  /-- To be one of these actions or in one of these groups. -/
  | isIn (us : List EntityUid)
  deriving DecidableEq, Repr, Inhabited

namespace ActionConstraint

/-- The actions that a constraint names. -/
def actions : ActionConstraint → List EntityUid
  | .any => []
  | .eq u => [u]
  | .isIn us => us

/-- A constraint as policies write it. -/
def render : ActionConstraint → String
  | .any => "action"
  | .eq u => s!"action == {u}"
  | .isIn us => "action in [" ++ ", ".intercalate (us.map EntityUid.render) ++ "]"

end ActionConstraint

end Arbiter
