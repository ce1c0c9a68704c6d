/-
# Documents of requests

A request is read from an object with `principal`, `action`, `resource` and `context`, or from an
array of these in that order; the context may be missing.  The three entities may be given as
documents or as text.  Of two faults the one that stands first in the text is reported.
-/
import Arbiter.Entity.Document
import Arbiter.Request.Basic

namespace Arbiter

/-- Why the document of a request was refused. -/
abbrev RequestDocumentError := DocumentError (UidError ⊕ ValueError)

/-- A refused value in the document of a request. -/
def RequestDocumentError.ofValue : DocumentError ValueError → RequestDocumentError
  | .malformed => .malformed
  | .refused cause => .refused (.inr cause)

namespace Request

/-- The uid in a draft, given as a document or as text. -/
def uidOfDraft (depth : Nat) (d : Draft) : Except RequestDocumentError EntityUid := do
  match ← wellFormed (d.value? depth) with
  | .string text => refusing ((EntityUid.parse text).mapError .inl)
  | j => wellFormed (EntityUid.ofJson? j)

/-- What has been read of a request. -/
structure Parts where
  principal : Option EntityUid := none
  action : Option EntityUid := none
  resource : Option EntityUid := none
  context : Option Context := none

/-- Reads one more field; one that has been read already must not come again, and fields of other
names are passed over. -/
def Parts.read (depth : Nat) (p : Parts) (field : Option String × Draft) :
    Except RequestDocumentError Parts :=
  match field with
  | (none, _) => .error .malformed
  | (some "principal", d) => do
    if p.principal.isSome then .error .malformed
    return { p with principal := some (← uidOfDraft depth d) }
  | (some "action", d) => do
    if p.action.isSome then .error .malformed
    return { p with action := some (← uidOfDraft depth d) }
  | (some "resource", d) => do
    if p.resource.isSome then .error .malformed
    return { p with resource := some (← uidOfDraft depth d) }
  | (some "context", d) => do
    if p.context.isSome then .error .malformed
    let attrs ← (Value.mapOfDraft depth d).mapError RequestDocumentError.ofValue
    return { p with context := some ⟨attrs⟩ }
  | (some _, d) => if d.passable then .ok p else .error .malformed

/-- The fields in the order in which an array gives them. -/
def fieldNames : List String := ["principal", "action", "resource", "context"]

/-- The request of the parts: all but the context have to be among them. -/
def Parts.finish (p : Parts) : Except RequestDocumentError Request := do
  return {
    principal := ← wellFormed p.principal
    action := ← wellFormed p.action
    resource := ← wellFormed p.resource
    context := p.context.getD .empty }

/-- The request in a draft. -/
def ofDraft (depth : Nat) : Draft → Except RequestDocumentError Request
  | .object fields closed => do
    if depth = 0 then .error .malformed
    let p ← fields.foldlM (Parts.read (depth - 1)) {}
    if closed then p.finish else .error .malformed
  | .array items closed => do
    if depth = 0 then .error .malformed
    let p ← ((fieldNames.map some).zip items).foldlM (Parts.read (depth - 1)) {}
    if closed ∧ items.length ≤ fieldNames.length then p.finish else .error .malformed
  | _ => .error .malformed

/-- The request in a text. -/
def parse (text : String) : Except RequestDocumentError Request := do
  let r := Json.read text
  let request ← ofDraft Draft.maxDepth r.draft
  if r.ended then return request else .error .malformed

end Request

end Arbiter
