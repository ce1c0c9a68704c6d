/-
# Documents of schemas

A schema document is an object of namespaces; a namespace has `entityTypes`, `actions` and
`commonTypes`, the last being names for types.  A name of an entity type without a namespace means
one in the namespace where it stands, and an action of the namespace `App` is `App::Action::"id"`.

A document is first taken into its form (`NamespaceDocument`) and then resolved: the names of
types are replaced by what they stand for, to a depth of `maxTypeDepth`.
-/
import Arbiter.Json.Parser
import Arbiter.Schema.Basic

namespace Arbiter

/-! ## 1. The form -/

/-- A type as documents give it. -/
structure TypeDocument where
  type : String
  element : Option TypeDocument
  attributes : List (String × TypeDocument)
  additionalAttributes : Bool
  name : Option String
  required : Bool

/-- An entity type as documents give it. -/
structure EntityTypeDocument where
  memberOfTypes : List String
  shape : Option TypeDocument

/-- An action mentioned in a document: its id and maybe its type. -/
structure ActionRefDocument where
  id : String
  type : Option String

/-- What an action applies to as documents give it. -/
structure AppliesToDocument where
  principalTypes : List String
  resourceTypes : List String
  context : Option TypeDocument

/-- An action as documents give it. -/
structure ActionDocument where
  memberOf : List ActionRefDocument
  appliesTo : Option AppliesToDocument

/-- A namespace as documents give it. -/
structure NamespaceDocument where
  entityTypes : List (String × EntityTypeDocument)
  actions : List (String × ActionDocument)
  commonTypes : List (String × TypeDocument)

/-- The type of a document of at most `depth` levels. -/
def TypeDocument.ofJson? : (depth : Nat) → Json → Option TypeDocument
  | 0, _ => none
  | depth + 1, j => do
    match ← j.fields? ["type", "element", "attributes", "additionalAttributes", "name",
      "required"] with
    | [some (.string type), element, attributes, additional, name, required] =>
      return {
        type
        element := ← Json.optional? (ofJson? depth) element
        attributes := ← Json.withDefault? (Json.mapOf? (ofJson? depth)) [] attributes
        additionalAttributes := ← Json.withDefault? Json.bool? false additional
        name := ← Json.optional? Json.string? name
        required := ← Json.withDefault? Json.bool? true required }
    | _ => none

/-- The type of a document. -/
def TypeDocument.read? (j : Json) : Option TypeDocument := ofJson? (j.depth + 1) j

/-- The list of names of a document. -/
def namesOfJson? (j : Json) : Option (List String) := Json.listOf? Json.string? j

/-- The entity type of a document. -/
def EntityTypeDocument.ofJson? (j : Json) : Option EntityTypeDocument := do
  match ← j.fields? ["memberOfTypes", "shape"] with
  | [memberOfTypes, shape] =>
    return {
      memberOfTypes := ← Json.withDefault? namesOfJson? [] memberOfTypes
      shape := ← Json.optional? TypeDocument.read? shape }
  | _ => none

/-- The mentioned action of a document. -/
def ActionRefDocument.ofJson? (j : Json) : Option ActionRefDocument := do
  match ← j.fields? ["id", "type"] with
  | [some (.string id), type] => return { id, type := ← Json.optional? Json.string? type }
  | _ => none

/-- What an action applies to, of a document. -/
def AppliesToDocument.ofJson? (j : Json) : Option AppliesToDocument := do
  match ← j.fields? ["principalTypes", "resourceTypes", "context"] with
  | [principalTypes, resourceTypes, context] =>
    return {
      principalTypes := ← Json.withDefault? namesOfJson? [] principalTypes
      resourceTypes := ← Json.withDefault? namesOfJson? [] resourceTypes
      context := ← Json.optional? TypeDocument.read? context }
  | _ => none

/-- The action of a document. -/
def ActionDocument.ofJson? (j : Json) : Option ActionDocument := do
  match ← j.fields? ["memberOf", "appliesTo"] with
  | [memberOf, appliesTo] =>
    return {
      memberOf := ← Json.withDefault? (Json.listOf? ActionRefDocument.ofJson?) [] memberOf
      appliesTo := ← Json.optional? AppliesToDocument.ofJson? appliesTo }
  | _ => none

namespace NamespaceDocument

/-- The sections of a namespace. -/
def sections : List String := ["entityTypes", "actions", "commonTypes"]

/-- Whether a document has no other fields than the sections of a namespace. -/
def onlySections : Json → Bool
  | .object fields => fields.all fun f => sections.contains f.1
  | _ => true

/-- The namespace of a document. -/
def ofJson? (j : Json) : Option NamespaceDocument := do
  if !onlySections j then none
  match ← j.fields? sections with
  | [entityTypes, actions, commonTypes] =>
    return {
      entityTypes :=
        ← Json.withDefault? (Json.mapOf? EntityTypeDocument.ofJson?) [] entityTypes
      actions := ← Json.withDefault? (Json.mapOf? ActionDocument.ofJson?) [] actions
      commonTypes := ← Json.withDefault? (Json.mapOf? TypeDocument.read?) [] commonTypes }
  | _ => none

end NamespaceDocument

/-! ## 2. Names -/

/-- What names mean in a namespace. -/
structure Scoping where
  /-- The name of the namespace. -/
  space : String
  /-- The named types of the namespace. -/
  commonTypes : List (String × TypeDocument)

namespace Scoping

/-- The entity type of a name. -/
def entityType (r : Scoping) (name : String) : Except SchemaError EntityType :=
  match EntityType.parse? (EntityType.qualified r.space name).name with
  | some t => .ok t
  | none => .error (.typeName name)

/-- The set of the entity types of names. -/
def entityTypes (r : Scoping) (names : List String) : Except SchemaError (SortedSet EntityType) := do
  return .ofList (← names.mapM r.entityType)

/-- The action of an id, of the type of the actions of the namespace if none is given. -/
def action (r : Scoping) (id : String) (type : Option String) : EntityUid :=
  match type with
  | some type => ⟨EntityType.qualified r.space type, id⟩
  | none => ⟨EntityType.actionIn r.space, id⟩

/-! ## 3. Types -/

/-- The deepest level at which a part of a type may stand: a level for each element, attribute and
name on the way to it. -/
def maxTypeDepth : Nat := 32

/-- The name in a type that needs one. -/
def nameOf (d : TypeDocument) : Except SchemaError String :=
  match d.name with
  | some name => .ok name
  | none => .error (.missingName d.type)

/-- The type of a document, if it has at most `levels` levels. -/
def resolve (r : Scoping) : (levels : Nat) → TypeDocument → Except SchemaError SchemaType
  | 0, d => .error (.tooDeep d.type)
  | levels + 1, d =>
    match d.type with
    | "Boolean" | "Bool" => .ok .bool
    | "Long" => .ok .long
    | "String" => .ok .string
    | "Set" =>
      match d.element with
      | some element => (r.resolve levels element).map .set
      | none => .error .missingElement
    | "Record" => do
      let attrs ← d.attributes.mapM fun (name, attr) => do
        let type ← r.resolve levels attr
        return (name, (⟨type, attr.required⟩ : Attr SchemaType))
      return .record ⟨SortedList.ofPairs attrs, d.additionalAttributes⟩
    | "Entity" => do return .entity (← r.entityType (← nameOf d))
    | "Extension" => do
      let name ← nameOf d
      match ExtensionKind.ofName? name with
      | some kind => return .extension kind
      | none => .error (.unknownExtension name)
    | name =>
      match r.commonTypes.lookup name with
      | some common => r.resolve levels common
      | none => .error (.unknownType name)

/-- The type of a document. -/
def type (r : Scoping) (d : TypeDocument) : Except SchemaError SchemaType :=
  r.resolve (maxTypeDepth + 1) d

/-- The shape of a document; without a document there are no attributes. -/
def shape (r : Scoping) : Option TypeDocument → Except SchemaError RecordType
  | none => .ok .empty
  | some d => do
    match ← r.type d with
    | .record shape => return shape
    | t => .error (.notRecord t)

/-! ## 4. Declarations -/

/-- The declaration of an entity type. -/
def entityDecl (r : Scoping) (d : EntityTypeDocument) : Except SchemaError EntityDecl := do
  return { memberOf := ← r.entityTypes d.memberOfTypes, shape := ← r.shape d.shape }

/-- The declaration of an action. -/
def actionDecl (r : Scoping) (id : String) (d : ActionDocument) :
    Except SchemaError ActionDecl := do
  let uid := r.action id none
  let memberOf := .ofList (d.memberOf.map fun g => r.action g.id g.type)
  match d.appliesTo with
  | none => return { uid, memberOf }
  | some applies =>
    return {
      uid, memberOf
      principals := ← r.entityTypes applies.principalTypes
      resources := ← r.entityTypes applies.resourceTypes
      context := ← r.shape applies.context }

/-- The schema with one more entity type. -/
def declareType (r : Scoping) (s : Schema) (d : String × EntityTypeDocument) :
    Except SchemaError Schema := do
  let t ← r.entityType d.1
  s.addEntityType t (← r.entityDecl d.2)

/-- The schema with one more action. -/
def declareAction (r : Scoping) (s : Schema) (d : String × ActionDocument) :
    Except SchemaError Schema := do
  s.addAction (← r.actionDecl d.1 d.2)

end Scoping

namespace Schema

/-- The schema with what a namespace declares: its entity types, then its actions. -/
def declareNamespace (s : Schema) (d : String × NamespaceDocument) : Except SchemaError Schema := do
  let r : Scoping := ⟨d.1, d.2.commonTypes⟩
  let s ← d.2.entityTypes.foldlM r.declareType s
  d.2.actions.foldlM r.declareAction s

/-- The schema of a document in canonical form. -/
def ofJson (j : Json) : Except SchemaError Schema :=
  match Json.mapOf? NamespaceDocument.ofJson? j with
  | none => .error .malformed
  | some namespaces => do
    let s ← namespaces.foldlM declareNamespace .empty
    s.checkReferences
    return s

/-- The schema of the document in a text. -/
def parse (text : String) : Except SchemaError Schema :=
  match Json.parse? text with
  | some j => ofJson j
  | none => .error .malformed

end Schema

end Arbiter
