/-
# Documents of policies

The document of a template gives its effect, its scope, its conditions and its annotations; all
but the effect may be missing.  Its fields are looked at in the order of their names, and of two
faults the first one is reported; a template given as an array is looked at in the order of the
array.
-/
import Arbiter.Expr.Json
import Arbiter.Policy.Basic
import Arbiter.Scope.Json

namespace Arbiter

/-- Why the document of a template was refused. -/
abbrev TemplateError := DocumentError (ScopeError ⊕ ExprError)

/-- A refused constraint in the document of a template. -/
def TemplateError.ofScope : DocumentError ScopeError → TemplateError
  | .malformed => .malformed
  | .refused cause => .refused (.inl cause)

namespace Condition

/-- The kind of a condition of a document. -/
def kindOfJson? (j : Json) : Option ConditionKind := j.choice?.bind ConditionKind.ofName?

/-- The body of a condition of a document. -/
def bodyOfJson (j : Json) : Except TemplateError Expr :=
  refusing ((Expr.ofJson j).mapError .inr)

/-- The condition of a document.  An object is looked at body first, an array kind first. -/
def ofJson (j : Json) : Except TemplateError Condition :=
  match j with
  | .array [kind, body] => do
    let kind ← wellFormed (kindOfJson? kind)
    return ⟨kind, ← bodyOfJson body⟩
  | .array (kind :: body :: _) => do
    let _ ← wellFormed (kindOfJson? kind)
    let _ ← bodyOfJson body
    .error .malformed
  | .object fields => do
    let body ← (fields.lookup "body").mapM bodyOfJson
    let kind ← (fields.lookup "kind").mapM fun k => wellFormed (kindOfJson? k)
    return ⟨← wellFormed kind, ← wellFormed body⟩
  | _ => .error .malformed

/-- The document of a condition. -/
def toJson (c : Condition) : Json :=
  .object [("kind", .string c.kind.name), ("body", c.body.toJson)]

/-- The conditions of a document. -/
def listOfJson (j : Json) : Except TemplateError (List Condition) := do
  (← wellFormed j.array?).mapM ofJson

end Condition

namespace Template

/-! ## 1. Reading -/

/-- The annotations of a document. -/
def annotationsOfJson? (j : Json) : Option (SortedMap String String) :=
  (Json.mapOf? Json.string? j).map .ofList

/-- The effect of a document. -/
def effectOfJson? (j : Json) : Option Effect := j.choice?.bind Effect.ofName?

/-- What has been read of a template. -/
structure Parts where
  effect : Option Effect := none
  principal : ScopeConstraint := .any
  action : ActionConstraint := .any
  resource : ScopeConstraint := .any
  conditions : List Condition := []
  annotations : SortedMap String String := .empty

/-- Reads one more field; fields of other names are passed over. -/
def Parts.read (p : Parts) (field : String × Json) : Except TemplateError Parts :=
  match field with
  | ("effect", j) => do return { p with effect := some (← wellFormed (effectOfJson? j)) }
  | ("principal", j) => do
    return { p with principal := ← (ScopeConstraint.ofJson j).mapError .ofScope }
  | ("action", j) => do
    return { p with action := ← (ActionConstraint.ofJson j).mapError .ofScope }
  | ("resource", j) => do
    return { p with resource := ← (ScopeConstraint.ofJson j).mapError .ofScope }
  | ("conditions", j) => do return { p with conditions := ← Condition.listOfJson j }
  | ("annotations", j) => do
    return { p with annotations := ← wellFormed (annotationsOfJson? j) }
  | _ => .ok p

/-- The fields in the order in which an array gives them. -/
def fieldNames : List String :=
  ["effect", "principal", "action", "resource", "conditions", "annotations"]

/-- The template of the parts: the effect has to be among them. -/
def Parts.finish (id : PolicyId) (p : Parts) : Except TemplateError Template := do
  let effect ← wellFormed p.effect
  return {
    id, effect, principal := p.principal, action := p.action, resource := p.resource
    conditions := p.conditions, annotations := p.annotations }

/-- The template of a document in canonical form, under a given id. -/
def ofJson (id : PolicyId) (j : Json) : Except TemplateError Template :=
  match j with
  | .object fields => do (← fields.foldlM Parts.read {}).finish id
  | .array items => do
    let p ← (fieldNames.zip items).foldlM Parts.read {}
    if items.length ≤ fieldNames.length then p.finish id else .error .malformed
  | _ => .error .malformed

/-! ## 2. Writing -/

/-- The fields of the document of a template, in the order of its parts. -/
def jsonFields (t : Template) : List (String × Json) :=
  [("effect", .string t.effect.name), ("principal", t.principal.toJson),
    ("action", t.action.toJson), ("resource", t.resource.toJson),
    ("conditions", .array (t.conditions.map Condition.toJson))]
  ++ Json.optionalField "annotations"
    (if t.annotations.isEmpty then none
    else some (.object (t.annotations.entries.map fun (k, v) => (k, .string v))))

/-- The document of a template, which does not give its id. -/
def toJson (t : Template) : Json := .object t.jsonFields

end Template

/-! ## 3. Policies -/

namespace SlotValues

/-- The document of values for slots. -/
def toJson (values : SlotValues) : Json :=
  .object (values.entries.map fun (s, u) => (s.name, u.toJson))

/-- A slot with its value, of the field of a document. -/
def entryOfJson? (field : String × Json) : Option (Slot × EntityUid) := do
  return (← Slot.ofName? field.1, ← EntityUid.ofJson? field.2)

/-- The values for slots of a document. -/
def ofJson? (j : Json) : Option SlotValues := do
  return .ofList (← (← j.object?).mapM entryOfJson?)

end SlotValues

/-- The document of a policy: that of its template with the id, and for a linked one with the
template's id and the values of the slots. -/
def Policy.toJson (p : Policy) : Json :=
  .object (("id", .string p.id.name)
    :: Json.optionalField "template" (p.link.map fun _ => .string p.template.id.name)
    ++ Json.optionalField "values"
      (if p.values.isEmpty then none else some (SlotValues.toJson p.values))
    ++ p.template.jsonFields)

end Arbiter
