/-
# Entity stores

A store holds entities with distinct uids, in the order in which they came.  An entity is in
another one when the latter is among its ancestors: what can be reached from it over parents.  A
parent that is not stored is an ancestor, but leads nowhere.

A store that is built with a schema holds only entities that are as declared, and also all
declared actions.
-/
import Arbiter.Conformance
import Arbiter.Entity.Document

namespace Arbiter

/-- Entities with distinct uids. -/
structure EntityStore where
  entities : List Entity
  /-- Whether the store was built with a schema, and so holds all declared actions. -/
  declaresActions : Bool
  /-- No two entities have one uid. -/
  distinct : (entities.map Entity.uid).Nodup

/-- Why entities make no store. -/
inductive StoreError where
  /-- The document is not the document of a list of entities. -/
  | document (cause : DocumentError ValueError)
  /-- Two entities have one uid. -/
  | duplicate (uid : EntityUid)
  /-- An entity is not as declared. -/
  | fault (cause : EntityFault)

/-- Entities that make no store are reported as such. -/
instance : Reported StoreError where
  kind _ := .entity
  detail
    | .document cause => Reported.detail cause
    | .duplicate uid => s!"duplicate entity `{uid}`"
    | .fault cause => Reported.detail cause

/-- An entity that is needed and not stored. -/
structure UnknownEntity where
  uid : EntityUid
  deriving DecidableEq, Repr

/-- An entity that is not stored is reported as such. -/
instance : Reported UnknownEntity where
  kind _ := .unknownEntity
  detail e := e.uid.render

namespace EntityStore

/-- The store of no entity. -/
def empty : EntityStore := ⟨[], false, List.nodup_nil⟩

instance : Inhabited EntityStore := ⟨empty⟩

/-- The uids of the entities. -/
def uids (s : EntityStore) : List EntityUid := s.entities.map Entity.uid

/-- The entity of a uid. -/
def get? (s : EntityStore) (uid : EntityUid) : Option Entity :=
  s.entities.find? fun e => e.uid == uid

/-- Whether there is an entity of a uid. -/
def contains (s : EntityStore) (uid : EntityUid) : Bool := s.uids.contains uid

/-- The number of entities. -/
def size (s : EntityStore) : Nat := s.entities.length

/-! ## 1. Building -/

/-- The store with one more entity behind the others. -/
def insert (s : EntityStore) (e : Entity) : Except StoreError EntityStore :=
  if h : e.uid ∈ s.uids then .error (.duplicate e.uid)
  else
    .ok ⟨s.entities ++ [e], s.declaresActions, by
      rw [List.map_append, List.nodup_append]
      exact ⟨s.distinct, List.nodup_cons.2 ⟨List.not_mem_nil, List.nodup_nil⟩,
        fun a ha b hb hab => h (by
          simp only [List.map_cons, List.map_nil, List.mem_singleton] at hb
          exact hb ▸ hab ▸ ha)⟩⟩

/-- The store of entities. -/
def ofEntities (es : List Entity) : Except StoreError EntityStore := es.foldlM insert .empty

/-- The store with one more entity, which has to be as declared. -/
def insertConforming (schema : Schema) (s : EntityStore) (e : Entity) :
    Except StoreError EntityStore := do
  (schema.conformEntity e).mapError .fault
  s.insert e

/-- The store with one more entity, unless there is one of its uid. -/
def insertMissing (s : EntityStore) (e : Entity) : EntityStore :=
  match s.insert e with
  | .ok s => s
  | .error _ => s

/-- The store of entities that are as declared, and of the declared actions. -/
def withSchema (schema : Schema) (es : List Entity) : Except StoreError EntityStore := do
  let s ← es.foldlM (insertConforming schema) .empty
  return { schema.actionEntities.foldl insertMissing s with declaresActions := true }

/-- The store of entities, with or without a schema. -/
def build (schema : Option Schema) (es : List Entity) : Except StoreError EntityStore :=
  match schema with
  | some schema => withSchema schema es
  | none => ofEntities es

/-- The store of the entities in a text. -/
def parse (schema : Option Schema) (text : String) : Except StoreError EntityStore := do
  build schema (← (Entity.parseList text).mapError .document)

/-! ## 2. Hierarchy -/

/-- The parents of an entity; one that is not stored has none. -/
def parentsOf (s : EntityStore) (uid : EntityUid) : List EntityUid :=
  match s.get? uid with
  | some e => e.parents.toList
  | none => []

/-- What can be reached from an entity over parents; itself only if it lies on a cycle. -/
def closure (s : EntityStore) (e : Entity) : SortedSet EntityUid :=
  .ofList (reachable s.parentsOf s.uids e.parents.toList)

/-- The ancestors of an entity, which has to be stored. -/
def ancestors (s : EntityStore) (uid : EntityUid) : Except UnknownEntity (SortedSet EntityUid) :=
  match s.get? uid with
  | some e => .ok (s.closure e)
  | none => .error ⟨uid⟩

/-- Whether `a` is `b` or has it as an ancestor. -/
def isDescendant (s : EntityStore) (a b : EntityUid) : Bool :=
  a == b ||
    match s.ancestors a with
    | .ok as => as.contains b
    | .error _ => false

end EntityStore

end Arbiter
