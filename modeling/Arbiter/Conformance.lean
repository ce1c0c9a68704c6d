/-
# Conformance of data

Whether entities and requests are as a schema declares them.  Values are compared with declared
types part by part; the first part that does not fit is reported with the way to it.
-/
import Arbiter.Request.Basic
import Arbiter.Schema.Basic

namespace Arbiter

/-! ## 1. Records -/

/-- A part of a record that is not as declared; `path` tells where it is. -/
inductive RecordError where
  /-- A value is not of its declared type. -/
  | mismatch (path : String) (expected : SchemaType) (actual : Value)
  /-- An attribute that has to be there is not. -/
  | missing (path attr : String)
  /-- An attribute is not declared. -/
  | undeclared (path attr : String)

/-- A part that is not as declared, as text. -/
def RecordError.message : RecordError → String
  | .mismatch path expected actual =>
    path ++ ": expected " ++ expected.render ++ ", got " ++ actual.typeName
  | .missing path attr => s!"{path}: missing required attribute `{attr}`"
  | .undeclared path attr => s!"{path}: attribute `{attr}` is not declared"

/-- Refuses the attributes that are not declared, unless the shape is open. -/
def conformNames (shape : RecordType) (path : String) (attrs : List (String × Value)) :
    Except RecordError Unit :=
  if shape.isOpen then .ok ()
  else
    match attrs.find? fun a => (shape.get? a.1).isNone with
    | some a => .error (.undeclared path a.1)
    | none => .ok ()

mutual

/-- Requires a value to be of a declared type. -/
def conformValue (path : String) : SchemaType → Value → Except RecordError Unit
  | .bool, .bool _ => .ok ()
  | .long, .long _ => .ok ()
  | .string, .string _ => .ok ()
  | .set elem, .set values => values.forM fun v => conformValue (path ++ "[..]") elem v
  | .record ⟨declared, isOpen⟩, .record attrs => do
    conformAttrs path attrs declared
    conformNames ⟨declared, isOpen⟩ path attrs
  | .entity t, .entity uid =>
    if uid.type = t then .ok () else .error (.mismatch path (.entity t) (.entity uid))
  | .extension kind, .ext v =>
    if v.kind = kind then .ok () else .error (.mismatch path (.extension kind) (.ext v))
  | expected, actual => .error (.mismatch path expected actual)
termination_by structural t => t

/-- Requires the declared attributes to be of their types, and there if they have to be. -/
def conformAttrs (path : String) (attrs : List (String × Value)) :
    List (String × Attr SchemaType) → Except RecordError Unit
  | [] => .ok ()
  | (name, ⟨type, required⟩) :: rest => do
    match SortedList.find? name attrs with
    | some v => conformValue (path ++ "." ++ name) type v
    | none => if required then .error (.missing path name) else .ok ()
    conformAttrs path attrs rest
termination_by structural l => l

end

/-- Requires attributes to be as a shape declares them. -/
def conformRecord (shape : RecordType) (path : String) (attrs : List (String × Value)) :
    Except RecordError Unit := do
  conformAttrs path attrs shape.attrs
  conformNames shape path attrs

/-! ## 2. Entities -/

/-- Why an entity is not as declared. -/
inductive EntityFault where
  /-- An action is not declared. -/
  | undeclaredAction (uid : EntityUid)
  /-- An action has an attribute. -/
  | actionAttribute (uid : EntityUid) (attr : String)
  /-- An action has a parent that is no action. -/
  | actionParent (uid parent : EntityUid)
  /-- The type of an entity is not declared. -/
  | undeclaredType (uid : EntityUid)
  /-- An attribute is not as declared. -/
  | record (cause : RecordError)
  /-- A parent is of a type of which it may not be. -/
  | parentType (uid : EntityUid) (type : EntityType)

/-- What is wrong with an entity. -/
def EntityFault.detail : EntityFault → String
  | .undeclaredAction uid =>
    s!"found action entity `{uid}`, but it was not declared as an action in the schema"
  | .actionAttribute uid attr =>
    s!"attribute `{attr}` on `{uid}` should not exist according to the schema"
  | .actionParent uid parent => s!"action `{uid}` has a non-action parent `{parent}`"
  | .undeclaredType uid =>
    let type := uid.type
    s!"entity `{uid}` has type `{type}` which is not declared in the schema"
  | .record cause => cause.message
  | .parentType uid type =>
    s!"`{uid}` is not allowed to have a parent of type `{type}` according to the schema"

/-- What is wrong with an entity is reported as such. -/
instance : Reported EntityFault where
  kind _ := .entity
  detail := EntityFault.detail

namespace Schema

/-- Requires an action to be declared, to have no attributes and only actions as parents. -/
def conformAction (s : Schema) (e : Entity) : Except EntityFault Unit := do
  if (s.action? e.uid).isNone then .error (.undeclaredAction e.uid)
  match e.attrs.keys with
  | attr :: _ => .error (.actionAttribute e.uid attr)
  | [] => .ok ()
  match e.parents.toList.find? fun p => !p.isAction with
  | some parent => .error (.actionParent e.uid parent)
  | none => .ok ()

/-- Requires an entity to be as its type is declared. -/
def conformTyped (s : Schema) (e : Entity) : Except EntityFault Unit :=
  match s.entityType? e.uid.type with
  | none => .error (.undeclaredType e.uid)
  | some decl => do
    (conformRecord decl.shape e.uid.render e.attrs.entries).mapError .record
    match e.parents.toList.find? fun p => !decl.memberOf.contains p.type with
    | some parent => .error (.parentType e.uid parent.type)
    | none => .ok ()

/-- Requires an entity to be as it is declared. -/
def conformEntity (s : Schema) (e : Entity) : Except EntityFault Unit :=
  if e.uid.isAction then s.conformAction e else s.conformTyped e

end Schema

/-! ## 3. Requests -/

/-- Why a request is not one that its action admits. -/
inductive RequestError where
  /-- The action is not declared. -/
  | undeclaredAction (action : EntityUid)
  /-- The action does not apply to principals of the type. -/
  | principalType (type : EntityType) (action : EntityUid)
  /-- The action does not apply to resources of the type. -/
  | resourceType (type : EntityType) (action : EntityUid)
  /-- The context is not as declared. -/
  | context (cause : RecordError)

/-- A request that its action does not admit is reported as such. -/
instance : Reported RequestError where
  kind _ := .request
  detail
    | .undeclaredAction action => s!"action `{action}` is not declared in the schema"
    | .principalType type action => s!"principal type `{type}` is not valid for `{action}`"
    | .resourceType type action => s!"resource type `{type}` is not valid for `{action}`"
    | .context cause => cause.message

/-- Requires a request to be one that its action admits. -/
def Schema.validateRequest (s : Schema) (r : Request) : Except RequestError Unit :=
  match s.action? r.action with
  | none => .error (.undeclaredAction r.action)
  | some decl =>
    if !decl.principals.contains r.principal.type then
      .error (.principalType r.principal.type r.action)
    else if !decl.resources.contains r.resource.type then
      .error (.resourceType r.resource.type r.action)
    else (conformRecord decl.context "context" r.context.attrs.entries).mapError .context

end Arbiter
