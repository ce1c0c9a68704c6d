/-
# Documents of entities

An entity is read from an object with `uid`, `attrs` and `parents`, or from an array of these in
that order; all but the first may be missing.  The text is followed from left to right, so of two
faults the first one is reported: a field that stands twice, an attribute that is no value.
-/
import Arbiter.Entity.Basic

namespace Arbiter

/-- Named values as they stand in a draft, from left to right. -/
def Value.fieldsOfDraft (depth : Nat) :
    List (Option String × Draft) → Except (DocumentError ValueError) (List (String × Value))
  | [] => .ok []
  | (name, d) :: r => do
    let name ← wellFormed name
    let v ← Value.ofDraft depth d
    return (name, v) :: (← fieldsOfDraft depth r)

/-- The map in a draft of an object: of two fields with one name the later one stays. -/
def Value.mapOfDraft (depth : Nat) : Draft → Except (DocumentError ValueError) (SortedMap String Value)
  | .object fields closed => do
    if depth = 0 then .error .malformed
    let fields ← fieldsOfDraft (depth - 1) fields
    if closed then return .ofList fields else .error .malformed
  | _ => .error .malformed

namespace EntityUid

/-- The uid in a draft. -/
def ofDraft? (depth : Nat) (d : Draft) : Option EntityUid := (d.value? depth).bind ofJson?

/-- The set of uids in a draft of an array. -/
def setOfDraft? (depth : Nat) : Draft → Option (SortedSet EntityUid)
  | .array items closed =>
    if depth = 0 ∨ !closed then none
    else (items.mapM (ofDraft? (depth - 1))).map SortedSet.ofList
  | _ => none

end EntityUid

namespace Entity

/-- What has been read of an entity. -/
structure Parts where
  uid : Option EntityUid := none
  attrs : Option (SortedMap String Value) := none
  parents : Option (SortedSet EntityUid) := none

/-- Reads one more field; one that has been read already must not come again, and fields of other
names are passed over. -/
def Parts.read (depth : Nat) (p : Parts) (field : Option String × Draft) :
    Except (DocumentError ValueError) Parts :=
  match field with
  | (none, _) => .error .malformed
  | (some "uid", d) => do
    if p.uid.isSome then .error .malformed
    return { p with uid := some (← wellFormed (EntityUid.ofDraft? depth d)) }
  | (some "attrs", d) => do
    if p.attrs.isSome then .error .malformed
    return { p with attrs := some (← Value.mapOfDraft depth d) }
  | (some "parents", d) => do
    if p.parents.isSome then .error .malformed
    return { p with parents := some (← wellFormed (EntityUid.setOfDraft? depth d)) }
  | (some _, d) => if d.passable then .ok p else .error .malformed

/-- The fields in the order in which an array gives them. -/
def fieldNames : List String := ["uid", "attrs", "parents"]

/-- The entity of the parts: the uid has to be among them. -/
def Parts.finish (p : Parts) : Except (DocumentError ValueError) Entity := do
  let uid ← wellFormed p.uid
  return { uid, attrs := p.attrs.getD .empty, parents := p.parents.getD .empty }

/-- The entity in a draft. -/
def ofDraft (depth : Nat) : Draft → Except (DocumentError ValueError) Entity
  | .object fields closed => do
    if depth = 0 then .error .malformed
    let p ← fields.foldlM (Parts.read (depth - 1)) {}
    if closed then p.finish else .error .malformed
  | .array items closed => do
    if depth = 0 then .error .malformed
    let p ← ((fieldNames.map some).zip items).foldlM (Parts.read (depth - 1)) {}
    if closed ∧ items.length ≤ fieldNames.length then p.finish else .error .malformed
  | _ => .error .malformed

/-- The entities in a text that holds an array of them. -/
def parseList (text : String) : Except (DocumentError ValueError) (List Entity) :=
  let r := Json.read text
  match r.draft with
  | .array items closed => do
    let entities ← items.mapM (ofDraft (Draft.maxDepth - 1))
    if closed ∧ r.ended then return entities else .error .malformed
  | _ => .error .malformed

end Entity

end Arbiter
