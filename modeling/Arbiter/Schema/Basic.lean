/-
# Schemas

A schema declares entity types, with the shape of their attributes and the types of which their
parents may be, and actions, with the groups they are in, the types of principals and resources
they apply to and the shape of their contexts.  What is not declared does not exist for a schema;
`Schema.checkReferences` refuses a schema that mentions such a thing.
-/
import Arbiter.Entity.Basic
import Arbiter.Reach
import Arbiter.Shape

namespace Arbiter

/-! ## 1. Types -/

/-- A declared type. -/
inductive SchemaType where
  | bool
  | long
  | string
  | set (elem : SchemaType)
  | record (shape : Shape SchemaType)
  | entity (t : EntityType)
  | extension (kind : ExtensionKind)

/-- The declared shape of a record. -/
abbrev RecordType := Shape SchemaType

namespace SchemaType

instance : Inhabited SchemaType := ⟨.bool⟩

mutual

/-- A type as text. -/
def render : SchemaType → String
  | .bool => "Bool"
  | .long => "Long"
  | .string => "String"
  | .set elem => "Set<" ++ elem.render ++ ">"
  | .record ⟨attrs, _⟩ => Shape.renderAttrs (renderAttrList attrs)
  | .entity t => "Entity<" ++ t.name ++ ">"
  | .extension kind => kind.name
termination_by structural t => t

/-- The texts of the attributes of a record. -/
def renderAttrList : List (String × Attr SchemaType) → List String
  | [] => []
  | (name, ⟨type, required⟩) :: r =>
    Shape.renderAttr name required type.render :: renderAttrList r
termination_by structural l => l

end

instance : ToString SchemaType := ⟨render⟩

end SchemaType

/-- A record shape as text. -/
def RecordType.render (r : RecordType) : String := (SchemaType.record r).render

/-! ## 2. Declarations -/

/-- The declaration of an entity type. -/
structure EntityDecl where
  /-- The types of which its entities may have parents. -/
  memberOf : SortedSet EntityType := .empty
  shape : RecordType := .empty

/-- The declaration of an action. -/
structure ActionDecl where
  uid : EntityUid
  /-- The groups it is in. -/
  memberOf : SortedSet EntityUid := .empty
  principals : SortedSet EntityType := .empty
  resources : SortedSet EntityType := .empty
  context : RecordType := .empty

/-- Declared entity types and actions. -/
structure Schema where
  entityTypes : SortedMap EntityType EntityDecl := .empty
  actions : SortedMap EntityUid ActionDecl := .empty

/-- Where a declaration mentions an entity type. -/
inductive TypeUse where
  /-- Among the types of the parents of a type. -/
  | memberOf (t : EntityType)
  /-- In the type of an attribute of a type. -/
  | attr (name : String) (t : EntityType)
  /-- Among the types that an action applies to. -/
  | appliesTo (action : EntityUid)
  /-- In the type of a context attribute of an action. -/
  | contextAttr (name : String) (action : EntityUid)
  deriving DecidableEq, Repr

/-- A place in a declaration as text. -/
def TypeUse.render : TypeUse → String
  | .memberOf t => s!"memberOfTypes of `{t}`"
  | .attr name t => s!"attribute `{name}` of `{t}`"
  | .appliesTo action => s!"appliesTo of `{action}`"
  | .contextAttr name action => s!"context attribute `{name}` of `{action}`"

/-- Why a schema was refused. -/
inductive SchemaError where
  /-- The document does not have the form of a schema. -/
  | malformed
  /-- An entity type is declared twice. -/
  | duplicateType (t : EntityType)
  /-- An action is declared twice. -/
  | duplicateAction (uid : EntityUid)
  /-- An entity type is mentioned and not declared. -/
  | undeclaredType (t : EntityType) (use : TypeUse)
  /-- A group is mentioned and not declared. -/
  | undeclaredGroup (action group : EntityUid)
  /-- A name is no name of a type. -/
  | typeName (name : String)
  /-- Types contain each other too deeply, or a type contains itself. -/
  | tooDeep (name : String)
  /-- The elements of a set have no type. -/
  | missingElement
  /-- An entity or extension type has no name. -/
  | missingName (type : String)
  /-- There is no such kind of extension values. -/
  | unknownExtension (name : String)
  /-- There is no such type. -/
  | unknownType (name : String)
  /-- The attributes of entities or of contexts are not given by a record type. -/
  | notRecord (t : SchemaType)

/-- A schema that was refused is reported as such. -/
instance : Reported SchemaError where
  kind _ := .schema
  detail
    | .malformed => "<json>"
    | .duplicateType t => s!"entity type `{t}` is declared twice"
    | .duplicateAction uid => s!"action `{uid}` is declared twice"
    | .undeclaredType t use => s!"undeclared entity type `{t}` in " ++ use.render
    | .undeclaredGroup action group =>
      s!"action `{action}` is a member of undeclared action `{group}`"
    | .typeName name => s!"`{name}` is not a valid type name"
    | .tooDeep name => s!"common type `{name}` is nested too deeply or is recursive"
    | .missingElement => "`Set` type without `element`"
    | .missingName type => s!"`{type}` type without `name`"
    | .unknownExtension name => s!"unknown extension type `{name}`"
    | .unknownType name => s!"unknown type `{name}`"
    | .notRecord t => s!"shapes and contexts must be records, got {t}"

namespace Schema

/-- The schema that declares nothing. -/
def empty : Schema := {}

/-- The schema with one more entity type. -/
def addEntityType (s : Schema) (t : EntityType) (decl : EntityDecl) : Except SchemaError Schema :=
  if s.entityTypes.contains t then .error (.duplicateType t)
  else .ok { s with entityTypes := s.entityTypes.insert t decl }

/-- The schema with one more action. -/
def addAction (s : Schema) (decl : ActionDecl) : Except SchemaError Schema :=
  if s.actions.contains decl.uid then .error (.duplicateAction decl.uid)
  else .ok { s with actions := s.actions.insert decl.uid decl }

/-- The declaration of an entity type. -/
def entityType? (s : Schema) (t : EntityType) : Option EntityDecl := s.entityTypes.find? t

/-- The declaration of an action. -/
def action? (s : Schema) (uid : EntityUid) : Option ActionDecl := s.actions.find? uid

/-- The declarations of the actions, in the order of their uids. -/
def actionDecls (s : Schema) : List ActionDecl := s.actions.values

/-- Whether entities of a type may be mentioned: it is declared, or an action is of it. -/
def isKnownType (s : Schema) (t : EntityType) : Bool :=
  s.entityTypes.contains t || s.actions.keys.any fun uid => uid.type == t

/-! ## 3. References -/

/-- Requires an entity type to be declared. -/
def requireType (s : Schema) (use : TypeUse) (t : EntityType) : Except SchemaError Unit :=
  if s.entityTypes.contains t then .ok () else .error (.undeclaredType t use)

/-- Requires a group to be declared. -/
def requireGroup (s : Schema) (action group : EntityUid) : Except SchemaError Unit :=
  if s.actions.contains group then .ok () else .error (.undeclaredGroup action group)

mutual

/-- Requires the entity types in a type to be declared. -/
def checkType (s : Schema) (use : TypeUse) : SchemaType → Except SchemaError Unit
  | .entity t => s.requireType use t
  | .set elem => s.checkType use elem
  | .record ⟨attrs, _⟩ => s.checkAttrTypes use attrs
  | _ => .ok ()
termination_by structural t => t

/-- Requires the entity types in the types of attributes to be declared. -/
def checkAttrTypes (s : Schema) (use : TypeUse) :
    List (String × Attr SchemaType) → Except SchemaError Unit
  | [] => .ok ()
  | (_, ⟨type, _⟩) :: r => do
    s.checkType use type
    s.checkAttrTypes use r
termination_by structural l => l

end

/-- Requires the entity types in a shape to be declared; `use` tells where an attribute is. -/
def checkShape (s : Schema) (use : String → TypeUse) (r : RecordType) : Except SchemaError Unit :=
  r.attrs.forM fun (name, attr) => s.checkType (use name) attr.type

/-- Requires what an entity type mentions to be declared. -/
def checkEntityDecl (s : Schema) (t : EntityType) (decl : EntityDecl) : Except SchemaError Unit := do
  decl.memberOf.toList.forM (s.requireType (.memberOf t))
  s.checkShape (.attr · t) decl.shape

/-- Requires what an action mentions to be declared. -/
def checkActionDecl (s : Schema) (uid : EntityUid) (decl : ActionDecl) :
    Except SchemaError Unit := do
  decl.memberOf.toList.forM (s.requireGroup uid)
  (decl.principals.toList ++ decl.resources.toList).forM (s.requireType (.appliesTo uid))
  s.checkShape (.contextAttr · uid) decl.context

/-- Requires all that is mentioned to be declared. -/
def checkReferences (s : Schema) : Except SchemaError Unit := do
  s.entityTypes.entries.forM fun (t, decl) => s.checkEntityDecl t decl
  s.actions.entries.forM fun (uid, decl) => s.checkActionDecl uid decl

/-! ## 4. Hierarchies -/

/-- The groups that an action is in by declaration. -/
def groupsOf (s : Schema) (uid : EntityUid) : List EntityUid :=
  match s.action? uid with
  | some decl => decl.memberOf.toList
  | none => []

/-- The groups that an action is in, directly or through other groups. -/
def actionAncestors (s : Schema) (uid : EntityUid) : SortedSet EntityUid :=
  .ofList (reachable s.groupsOf s.actions.keys (s.groupsOf uid))

/-- The declared actions that are a given one or in it. -/
def actionsIn (s : Schema) (group : EntityUid) : List ActionDecl :=
  s.actionDecls.filter fun decl =>
    decl.uid == group || (s.actionAncestors decl.uid).contains group

/-- The types of which entities of a type may have parents. -/
def parentTypes (s : Schema) (t : EntityType) : List EntityType :=
  match s.entityType? t with
  | some decl => decl.memberOf.toList
  | none => []

/-- Whether an entity of type `t` may be one of type `ancestor`, or in one. -/
def canDescend (s : Schema) (t ancestor : EntityType) : Bool :=
  (reachable s.parentTypes s.entityTypes.keys [t]).contains ancestor

/-- The declared actions as entities, with their groups as parents. -/
def actionEntities (s : Schema) : List Entity :=
  s.actionDecls.map fun decl => { uid := decl.uid, parents := decl.memberOf }

end Schema

end Arbiter
