/-
# Types of expressions

What the checker knows about the values of an expression.  Besides the declared types there are
`any`, about whose values nothing is known, and `never`, which has none; an entity is known to be
of one of several types.  The join of two types is the least type of the values of both.
-/
import Arbiter.Schema.Basic

namespace Arbiter

/-- What is known about the values of an expression. -/
inductive Ty where
  /-- Nothing has this type; the elements of an empty set do. -/
  | never
  /-- Anything may have this type. -/
  | any
  | bool
  | long
  | string
  | set (elem : Ty)
  | record (shape : Shape Ty)
  /-- An entity of one of these types. -/
  | entity (types : SortedSet EntityType)
  | extension (kind : ExtensionKind)

namespace Ty

instance : Inhabited Ty := ⟨.any⟩

/-- An entity of just one type. -/
def ofEntityType (t : EntityType) : Ty := .entity (.singleton t)

mutual

/-- A declared type. -/
def ofSchema : SchemaType → Ty
  | .bool => .bool
  | .long => .long
  | .string => .string
  | .set elem => .set (ofSchema elem)
  | .record ⟨attrs, isOpen⟩ => .record ⟨ofSchemaAttrs attrs, isOpen⟩
  | .entity t => ofEntityType t
  | .extension kind => .extension kind
termination_by structural t => t

/-- The attributes of a declared shape. -/
def ofSchemaAttrs : List (String × Attr SchemaType) → List (String × Attr Ty)
  | [] => []
  | (name, ⟨type, required⟩) :: r => (name, ⟨ofSchema type, required⟩) :: ofSchemaAttrs r
termination_by structural l => l

end

/-- A declared shape. -/
def shapeOf (r : RecordType) : Shape Ty := ⟨ofSchemaAttrs r.attrs, r.isOpen⟩

/-! ## 1. Joins -/

mutual

/-- The least type of the values of two types; there is none for types of different sorts.  The
join of two records has the attributes that both have. -/
def join? : Ty → Ty → Option Ty
  | .any, _ => some .any
  | _, .any => some .any
  | .never, t => some t
  | t, .never => some t
  | .entity a, .entity b => some (.entity (a.union b))
  | .set a, .set b => (join? a b).map .set
  | .record ⟨a, aOpen⟩, .record ⟨b, bOpen⟩ => do
    let attrs ← joinAttrs? a b
    return .record ⟨attrs,
      aOpen || bOpen || attrs.length != a.length || attrs.length != b.length⟩
  | .bool, .bool => some .bool
  | .long, .long => some .long
  | .string, .string => some .string
  | .extension k, .extension j => if k = j then some (.extension k) else none
  | _, _ => none
termination_by structural t => t

/-- The attributes that both lists have, with the joins of their types. -/
def joinAttrs? : List (String × Attr Ty) → List (String × Attr Ty) →
    Option (List (String × Attr Ty))
  | [], _ => some []
  | (name, ⟨type, required⟩) :: r, b => do
    match SortedList.find? name b with
    | some other =>
      let type ← join? type other.type
      return (name, ⟨type, required && other.required⟩) :: (← joinAttrs? r b)
    | none => joinAttrs? r b
termination_by structural l => l

end

/-! ## 2. Text -/

mutual

/-- A type as text. -/
def render : Ty → String
  | .never => "Never"
  | .any => "Any"
  | .bool => "Bool"
  | .long => "Long"
  | .string => "String"
  | .set elem => "Set<" ++ elem.render ++ ">"
  | .record ⟨attrs, _⟩ => Shape.renderAttrs (renderAttrList attrs)
  | .entity types => "Entity<" ++ " | ".intercalate (types.toList.map EntityType.name) ++ ">"
  | .extension kind => kind.name
termination_by structural t => t

/-- The texts of the attributes of a record. -/
def renderAttrList : List (String × Attr Ty) → List String
  | [] => []
  | (name, ⟨type, required⟩) :: r =>
    Shape.renderAttr name required type.render :: renderAttrList r
termination_by structural l => l

end

/-! ## 3. Tests -/

/-- Whether the values are booleans. -/
def isBool : Ty → Bool
  | .bool => true
  | _ => false

/-- Whether the values are integers. -/
def isLong : Ty → Bool
  | .long => true
  | _ => false

/-- Whether the values are strings. -/
def isString : Ty → Bool
  | .string => true
  | _ => false

/-- Whether the values are sets. -/
def isSet : Ty → Bool
  | .set _ => true
  | _ => false

/-- Whether the values are entities. -/
def isEntity : Ty → Bool
  | .entity _ => true
  | _ => false

/-- Whether the values have attributes. -/
def hasAttrs : Ty → Bool
  | .entity _ | .record _ => true
  | _ => false

/-- Whether the values can be elements of a set of entities. -/
def isEntityLike : Ty → Bool
  | .entity _ | .any | .never => true
  | _ => false

/-- Whether the values are entities or sets of entities. -/
def isInTarget : Ty → Bool
  | .entity _ => true
  | .set elem => elem.isEntityLike
  | _ => false

/-- Whether the values are extension values of a kind. -/
def isExtension (kind : ExtensionKind) : Ty → Bool
  | .extension k => k == kind
  | _ => false

end Ty

end Arbiter
