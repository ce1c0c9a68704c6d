/-
# Policy sets

A policy set holds templates and the policies made of them.  A static policy stands in both, under
one id.  Operations that fail leave the set as it is, since they yield no set.

Ids of templates and of policies that are added one by one are compared with what they would
replace; `link` and `addStatic` look at both maps.
-/
import Arbiter.Policy.Basic

namespace Arbiter

/-- Templates and the policies made of them, each in the order of the ids. -/
structure PolicySet where
  templates : SortedMap PolicyId Template := .empty
  links : SortedMap PolicyId Policy := .empty
  deriving DecidableEq

/-- Why something could not be added to a policy set. -/
inductive PolicySetError where
  /-- The id is that of another template or policy. -/
  | duplicateId (id : PolicyId)
  /-- The policy could not be made. -/
  | linking (cause : LinkingError)
  deriving DecidableEq, Repr

/-- An id that is taken is reported as such, a policy that could not be made as a failed link. -/
instance : Reported PolicySetError where
  kind
    | .duplicateId _ => .duplicateId
    | .linking cause => Reported.kind cause
  detail
    | .duplicateId id => id.name
    | .linking cause => Reported.detail cause

namespace PolicySet

/-- The set of nothing. -/
def empty : PolicySet := {}

/-- Adds a policy, and its template unless that is there already. -/
def add (s : PolicySet) (p : Policy) : Except PolicySetError PolicySet :=
  let t := p.template
  match s.templates.find? t.id with
  | some existing =>
    if existing ≠ t then .error (.duplicateId t.id)
    else if s.links.contains p.id then .error (.duplicateId p.id)
    else .ok { s with links := s.links.insert p.id p }
  | none =>
    if s.links.contains p.id then .error (.duplicateId p.id)
    else .ok { templates := s.templates.insert t.id t, links := s.links.insert p.id p }

/-- Adds a template without slots as a static policy. -/
def addStatic (s : PolicySet) (t : Template) : Except PolicySetError PolicySet := do
  if s.templates.contains t.id ∨ s.links.contains t.id then .error (.duplicateId t.id)
  let p ← (Policy.newStatic t).mapError .linking
  return { templates := s.templates.insert t.id t, links := s.links.insert t.id p }

/-- Adds a template, which takes effect only through links. -/
def addTemplate (s : PolicySet) (t : Template) : Except PolicySetError PolicySet :=
  if s.templates.contains t.id then .error (.duplicateId t.id)
  else .ok { s with templates := s.templates.insert t.id t }

/-- Links a template of the set; yields the policy and the set with it. -/
def link (s : PolicySet) (template id : PolicyId) (values : SlotValues) :
    Except PolicySetError (Policy × PolicySet) :=
  match s.templates.find? template with
  | none => .error (.linking (.noTemplate template))
  | some t =>
    if s.links.contains id ∨ s.templates.contains id then .error (.linking (.idTaken id))
    else
      match Policy.ofLink t id values with
      | .ok p => .ok (p, { s with links := s.links.insert id p })
      | .error cause => .error (.linking cause)

/-- The set of the given policies, added one after the other. -/
def ofPolicies (ps : List Policy) : Except PolicySetError PolicySet := ps.foldlM add .empty

/-- The policies, static and linked, in the order of their ids. -/
def policies (s : PolicySet) : List Policy := s.links.values

/-- The templates, also those of static policies, in the order of their ids. -/
def allTemplates (s : PolicySet) : List Template := s.templates.values

/-- The templates with slots. -/
def slotTemplates (s : PolicySet) : List Template := s.allTemplates.filter Template.hasSlots

/-- The static policies. -/
def staticPolicies (s : PolicySet) : List Policy := s.policies.filter Policy.isStatic

/-- The linked policies. -/
def linkedPolicies (s : PolicySet) : List Policy := s.policies.filter fun p => !p.isStatic

/-- The policy of an id. -/
def get? (s : PolicySet) (id : PolicyId) : Option Policy := s.links.find? id

/-- The template of an id. -/
def getTemplate? (s : PolicySet) (id : PolicyId) : Option Template := s.templates.find? id

/-- Whether there is neither a template nor a policy. -/
def isEmpty (s : PolicySet) : Bool := s.templates.isEmpty && s.links.isEmpty

/-- The number of policies. -/
def size (s : PolicySet) : Nat := s.links.size

/-- The policies as text, one after the other. -/
def render (s : PolicySet) : String :=
  if s.isEmpty then "<empty policy set>" else "\n".intercalate (s.policies.map Policy.render)

end PolicySet

end Arbiter
