/-
# Documents of policy sets

A policy set is read from a list of templates, which give their ids themselves or go by their
places, or from an object with the sections `templates`, `staticPolicies` (or `policies`) and
`templateLinks` (or `links`).  A template without slots becomes a static policy wherever it stands.

A policy set is written as such an object.  Its compact text is the canonical text of the set.
-/
import Arbiter.Json.Parser
import Arbiter.Policy.Json
import Arbiter.Policy.Set

namespace Arbiter

/-- Why a document is not the document of a policy set. -/
inductive LoadError where
  /-- The text is not JSON. -/
  | malformed
  /-- A template was refused. -/
  | policy (id : PolicyId) (cause : TemplateError)
  /-- The policies do not go together. -/
  | set (cause : PolicySetError)
  /-- The links do not have the expected form. -/
  | malformedLinks
  /-- A section is neither an object nor a list. -/
  | badSection (doc : Json)
  /-- There is no such section. -/
  | unexpectedKey (key : String)
  /-- The document is neither an object nor a list. -/
  | notPolicySet (doc : Json)

/-- A text or a template that cannot be read is a parse failure, links of the wrong form a failed
link, and any other document is of the wrong form. -/
instance : Reported LoadError where
  kind
    | .malformed | .policy .. => .parse
    | .set cause => Reported.kind cause
    | .malformedLinks => .linking
    | .badSection _ | .unexpectedKey _ | .notPolicySet _ => .format
  detail
    | .malformed | .malformedLinks => "<json>"
    | .policy id cause => "policy `" ++ id.name ++ "`: " ++ Reported.detail cause
    | .set cause => Reported.detail cause
    | .badSection doc => "expected an object or a list of policies, got `" ++ doc.compact ++ "`"
    | .unexpectedKey key => s!"unexpected key `{key}` in policy set"
    | .notPolicySet doc =>
      "a policy set must be a list or an object, got `" ++ doc.compact ++ "`"

namespace PolicySet

/-! ## 1. Reading -/

/-- Adds the template of a document: as a static policy when it has no slots. -/
def addBody (s : PolicySet) (id : PolicyId) (body : Json) : Except LoadError PolicySet := do
  let t ← (Template.ofJson id body).mapError (.policy id)
  (if t.hasSlots then s.addTemplate t else s.addStatic t).mapError .set

/-- The id of the template at a place of a list: the one it gives, or one made of its place. -/
def bodyId (index : Nat) (body : Json) : PolicyId :=
  ⟨((body.get? "id").bind Json.string?).getD s!"policy{index}"⟩

/-- Adds the templates of a list; `index` is the place of the first. -/
def addList (s : PolicySet) (index : Nat) : List Json → Except LoadError PolicySet
  | [] => .ok s
  | body :: rest => do (← s.addBody (bodyId index body) body).addList (index + 1) rest

/-- Adds the templates of the fields of an object, under their names. -/
def addFields (s : PolicySet) : List (String × Json) → Except LoadError PolicySet
  | [] => .ok s
  | (id, body) :: rest => do (← s.addBody ⟨id⟩ body).addFields rest

/-- Adds the templates of a section, if there is one. -/
def addSection (s : PolicySet) : Option Json → Except LoadError PolicySet
  | none => .ok s
  | some (.object fields) => s.addFields fields
  | some (.array items) => s.addList 0 items
  | some doc => .error (.badSection doc)

/-- A link as documents give it. -/
structure LinkDocument where
  template : PolicyId
  id : PolicyId
  values : SlotValues

/-- The link of a document. -/
def LinkDocument.ofJson? (j : Json) : Option LinkDocument := do
  match ← j.fields? ["templateId", "newId", "values"] with
  | [some (.string template), some (.string id), values] =>
    return ⟨⟨template⟩, ⟨id⟩, ← Json.withDefault? SlotValues.ofJson? .empty values⟩
  | _ => none

/-- Adds links. -/
def addLinks (s : PolicySet) : List LinkDocument → Except LoadError PolicySet
  | [] => .ok s
  | l :: rest =>
    match s.link l.template l.id l.values with
    | .ok (_, s) => s.addLinks rest
    | .error cause => .error (.set cause)

/-- Adds the links of a section, if there is one. -/
def addLinkSection (s : PolicySet) : Option Json → Except LoadError PolicySet
  | none => .ok s
  | some doc =>
    match Json.listOf? LinkDocument.ofJson? doc with
    | some links => s.addLinks links
    | none => .error .malformedLinks

/-- The value under the first of the names that is there, and the fields without it. -/
def takeFirst (names : List String) (fields : List (String × Json)) :
    Option Json × List (String × Json) :=
  match names with
  | [] => (none, fields)
  | name :: rest =>
    match fields.lookup name with
    | some j => (some j, fields.filter fun f => f.1 != name)
    | none => takeFirst rest fields

/-- The policy set of a document in canonical form. -/
def ofJson (j : Json) : Except LoadError PolicySet :=
  match j with
  | .array items => empty.addList 0 items
  | .object fields => do
    let (templates, fields) := takeFirst ["templates"] fields
    let (policies, fields) := takeFirst ["staticPolicies", "policies"] fields
    let (links, fields) := takeFirst ["templateLinks", "links"] fields
    let s ← empty.addSection templates
    let s ← s.addSection policies
    let s ← s.addLinkSection links
    match fields with
    | [] => return s
    | (key, _) :: _ => .error (.unexpectedKey key)
  | doc => .error (.notPolicySet doc)

/-- The policy set of the document in a text. -/
def parse (text : String) : Except LoadError PolicySet :=
  match Json.parse? text with
  | some j => ofJson j
  | none => .error .malformed

/-! ## 2. Writing -/

/-- The document of a linked policy. -/
def linkJson (p : Policy) : Json :=
  .object [("templateId", .string p.template.id.name), ("newId", .string p.id.name),
    ("values", SlotValues.toJson p.values)]

/-- The document of a policy set. -/
def toJson (s : PolicySet) : Json :=
  .object [
    ("staticPolicies", .object (s.staticPolicies.map fun p => (p.id.name, p.template.toJson))),
    ("templates", .object (s.slotTemplates.map fun t => (t.id.name, t.toJson))),
    ("templateLinks", .array (s.linkedPolicies.map linkJson))]

/-- The canonical text of a policy set. -/
def canonical (s : PolicySet) : String := s.toJson.compact

end PolicySet

end Arbiter
