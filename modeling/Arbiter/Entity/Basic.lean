/-
# Entities

An entity has a name, attributes and parents: the entities that it is a member of.
-/
import Arbiter.SortedMap
import Arbiter.SortedSet
import Arbiter.Value.Json

namespace Arbiter

/-- An entity with its attributes and its parents. -/
structure Entity where
  uid : EntityUid
  attrs : SortedMap String Value := .empty
  parents : SortedSet EntityUid := .empty
  deriving DecidableEq

namespace Entity

/-- The value of an attribute. -/
def attr? (e : Entity) (name : String) : Option Value := e.attrs.find? name

/-- The document of an entity. -/
def toJson (e : Entity) : Json :=
  .object [("uid", e.uid.toJson), ("attrs", .object (Value.fieldsToJson e.attrs.entries)),
    ("parents", .array (e.parents.toList.map EntityUid.toJson))]

end Entity

end Arbiter
