/-
# Templates

A template is the body of policies: an effect, a scope, conditions and annotations.  Without slots
it is the body of one policy; with slots it takes effect through its links.
-/
import Arbiter.Expr.Basic
import Arbiter.Scope.Basic
import Arbiter.SortedMap
import Arbiter.SortedSet

namespace Arbiter

/-- The id of a policy or of a template. -/
structure PolicyId where
  name : String
  deriving DecidableEq, Repr, Inhabited

namespace PolicyId

/-- Ids are ordered by name. -/
instance : Ord PolicyId := ⟨compareOn name⟩

instance : Std.TransOrd PolicyId := inferInstanceAs (Std.TransCmp (compareOn name))

instance : Std.LawfulEqOrd PolicyId where
  compare_self {a} := show compare a.name a.name = .eq from Std.ReflCmp.compare_self
  eq_of_compare {a b} h := by
    have h : compare a.name b.name = .eq := h
    cases a; cases b
    exact congrArg _ (Std.LawfulEqCmp.eq_of_compare h)

instance : ToString PolicyId := ⟨name⟩

end PolicyId

/-- What a satisfied policy does. -/
inductive Effect where
  | permit
  | forbid
  deriving DecidableEq, Repr, Inhabited

namespace Effect

/-- The name of an effect. -/
def name : Effect → String
  | .permit => "permit"
  | .forbid => "forbid"

/-- The effect with a given name. -/
def ofName? (name : String) : Option Effect :=
  if name = "permit" then some .permit else if name = "forbid" then some .forbid else none

theorem ofName?_name (e : Effect) : ofName? e.name = some e := by cases e <;> rfl

end Effect

/-- Whether a condition has to be true or false. -/
inductive ConditionKind where
  | when
  | unless
  deriving DecidableEq, Repr, Inhabited

namespace ConditionKind

/-- The name of a kind of condition. -/
def name : ConditionKind → String
  | .when => "when"
  | .unless => "unless"

/-- The kind of condition with a given name. -/
def ofName? (name : String) : Option ConditionKind :=
  if name = "when" then some .when else if name = "unless" then some .unless else none

theorem ofName?_name (k : ConditionKind) : ofName? k.name = some k := by cases k <;> rfl

end ConditionKind

/-- A condition of a policy. -/
structure Condition where
  kind : ConditionKind
  body : Expr
  deriving DecidableEq

/-- The body of policies. -/
structure Template where
  id : PolicyId
  effect : Effect
  principal : ScopeConstraint := .any
  action : ActionConstraint := .any
  resource : ScopeConstraint := .any
  conditions : List Condition := []
  annotations : SortedMap String String := .empty
  deriving DecidableEq

namespace Template

/-- The template under another id. -/
def withId (t : Template) (id : PolicyId) : Template := { t with id }

/-- The template with one more condition. -/
def addCondition (t : Template) (c : Condition) : Template :=
  { t with conditions := t.conditions ++ [c] }

/-- The template with an annotation in place of what was there. -/
def annotate (t : Template) (key value : String) : Template :=
  { t with annotations := t.annotations.insert key value }

/-- The slots of the scope. -/
def slots (t : Template) : SortedSet Slot :=
  .ofList (t.principal.slot?.toList ++ t.resource.slot?.toList)

/-- Whether the scope has slots. -/
def hasSlots (t : Template) : Bool := !t.slots.isEmpty

/-- An annotation as policies write it. -/
def renderAnnotation (a : String × String) : String :=
  "@" ++ a.1 ++ "(" ++ Text.quote a.2 ++ ")\n"

/-- A condition as policies write it. -/
def renderCondition (c : Condition) : String :=
  " " ++ c.kind.name ++ " \x7b " ++ c.body.render ++ " \x7d"

/-- The template as policies write it. -/
def render (t : Template) : String :=
  String.join (t.annotations.entries.map renderAnnotation) ++ t.effect.name
    ++ "(\n    " ++ t.principal.render "principal" ++ ",\n    " ++ t.action.render
    ++ ",\n    " ++ t.resource.render "resource" ++ "\n)"
    ++ String.join (t.conditions.map renderCondition) ++ ";"

end Template

end Arbiter
