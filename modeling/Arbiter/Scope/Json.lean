/-
# Documents of scopes

The three constraints of a scope have documents of one form: an operator, and the references that
it needs.  A constraint on principal or resource looks at the references of its operator only; a
constraint on the action has no slot and no reference to spare.
-/
import Arbiter.Json.Basic
import Arbiter.Report
import Arbiter.Scope.Basic

namespace Arbiter

/-- Why a document of the right form is not the document of a constraint. -/
inductive ScopeError where
  /-- The operator needs an entity or a slot, and not both. -/
  | notOneReference (op : String)
  /-- A type test has no type. -/
  | missingType
  /-- There is no such operator. -/
  | unknownOperator (op : String)
  /-- The action is constrained by a slot. -/
  | actionSlot
  /-- The operator and the references of the action do not go together. -/
  | malformedAction (op : String)
  deriving DecidableEq, Repr

/-- A document that is not the document of a constraint is of the wrong form. -/
instance : Reported ScopeError where
  kind _ := .format
  detail
    | .notOneReference op => s!"`{op}` constraint needs exactly one of `entity` or `slot`"
    | .missingType => "`is` constraint needs `entity_type`"
    | .unknownOperator op => s!"unknown scope operator `{op}`"
    | .actionSlot => "the action constraint cannot use a slot"
    | .malformedAction op => s!"malformed action constraint with operator `{op}`"

/-- A reference as documents give it: an entity, a slot, both or neither. -/
structure RefDocument where
  entity : Option EntityUid := none
  slot : Option Slot := none
  deriving DecidableEq, Repr

/-- A constraint as documents give it. -/
structure ScopeDocument where
  op : String
  ref : RefDocument := {}
  entities : Option (List EntityUid) := none
  entityType : Option EntityType := none
  inRef : Option RefDocument := none
  deriving DecidableEq, Repr

/-! ## 1. Reading the form -/

/-- The slot of a document. -/
def Slot.ofJson? (j : Json) : Option Slot := j.choice?.bind Slot.ofName?

/-- The type of a document; any text is one. -/
def EntityType.ofJson? (j : Json) : Option EntityType := j.string?.map EntityType.mk

/-- The reference of a document. -/
def RefDocument.ofJson? (j : Json) : Option RefDocument := do
  match ← j.fields? ["entity", "slot"] with
  | [entity, slot] =>
    return {
      entity := ← Json.optional? EntityUid.ofJson? entity
      slot := ← Json.optional? Slot.ofJson? slot }
  | _ => none

/-- The constraint as a document gives it. -/
def ScopeDocument.ofJson? (j : Json) : Option ScopeDocument := do
  match ← j.fields? ["op", "entity", "slot", "entities", "entity_type", "in"] with
  | [some (.string op), entity, slot, entities, entityType, inRef] =>
    return {
      op
      ref := {
        entity := ← Json.optional? EntityUid.ofJson? entity
        slot := ← Json.optional? Slot.ofJson? slot }
      entities := ← Json.optional? (Json.listOf? EntityUid.ofJson?) entities
      entityType := ← Json.optional? EntityType.ofJson? entityType
      inRef := ← Json.optional? RefDocument.ofJson? inRef }
  | _ => none

/-! ## 2. From the form to the constraint -/

/-- The one reference that a document gives. -/
def RefDocument.toRef (op : String) : RefDocument → Except ScopeError EntityRef
  | ⟨some u, none⟩ => .ok (.uid u)
  | ⟨none, some s⟩ => .ok (.slot s)
  | _ => .error (.notOneReference op)

/-- The document of a reference. -/
def RefDocument.ofRef : EntityRef → RefDocument
  | .uid u => { entity := some u }
  | .slot s => { slot := some s }

/-- The constraint on principal or resource that a document gives. -/
def ScopeDocument.toScope (d : ScopeDocument) : Except ScopeError ScopeConstraint :=
  match d.op with
  | "All" => .ok .any
  | "==" => (d.ref.toRef d.op).map .eq
  | "in" => (d.ref.toRef d.op).map .isIn
  | "is" =>
    match d.entityType, d.inRef with
    | none, _ => .error .missingType
    | some t, none => .ok (.isType t)
    | some t, some r => (r.toRef "in").map (.isTypeIn t)
  | op => .error (.unknownOperator op)

/-- The constraint on the action that a document gives. -/
def ScopeDocument.toAction (d : ScopeDocument) : Except ScopeError ActionConstraint :=
  if d.ref.slot.isSome then .error .actionSlot
  else
    match d.op, d.ref.entity, d.entities with
    | "All", none, none => .ok .any
    | "==", some u, none => .ok (.eq u)
    | "in", some u, none => .ok (.isIn [u])
    | "in", none, some us => .ok (.isIn us)
    | op, _, _ => .error (.malformedAction op)

/-- The document of a constraint on principal or resource. -/
def ScopeConstraint.toDocument : ScopeConstraint → ScopeDocument
  | .any => { op := "All" }
  | .eq r => { op := "==", ref := .ofRef r }
  | .isIn r => { op := "in", ref := .ofRef r }
  | .isType t => { op := "is", entityType := some t }
  | .isTypeIn t r => { op := "is", entityType := some t, inRef := some (.ofRef r) }

/-- The document of a constraint on the action. -/
def ActionConstraint.toDocument : ActionConstraint → ScopeDocument
  | .any => { op := "All" }
  | .eq u => { op := "==", ref := { entity := some u } }
  | .isIn us => { op := "in", entities := some us }

/-! ## 3. Reading and writing -/

/-- The fields of a reference. -/
def RefDocument.fields (d : RefDocument) : List (String × Json) :=
  Json.optionalField "entity" (d.entity.map EntityUid.toJson)
    ++ Json.optionalField "slot" (d.slot.map fun s => .string s.name)

/-- The document as JSON. -/
def ScopeDocument.toJson (d : ScopeDocument) : Json :=
  .object (("op", .string d.op) :: d.ref.fields
    ++ Json.optionalField "entities" (d.entities.map fun us => .array (us.map EntityUid.toJson))
    ++ Json.optionalField "entity_type" (d.entityType.map fun t => .string t.name)
    ++ Json.optionalField "in" (d.inRef.map fun r => .object r.fields))

/-- The constraint on principal or resource of a document. -/
def ScopeConstraint.ofJson (j : Json) : Except (DocumentError ScopeError) ScopeConstraint := do
  refusing (← wellFormed (ScopeDocument.ofJson? j)).toScope

/-- The constraint on the action of a document. -/
def ActionConstraint.ofJson (j : Json) : Except (DocumentError ScopeError) ActionConstraint := do
  refusing (← wellFormed (ScopeDocument.ofJson? j)).toAction

/-- The document of a constraint on principal or resource, as JSON. -/
def ScopeConstraint.toJson (c : ScopeConstraint) : Json := c.toDocument.toJson

/-- The document of a constraint on the action, as JSON. -/
def ActionConstraint.toJson (c : ActionConstraint) : Json := c.toDocument.toJson

end Arbiter
