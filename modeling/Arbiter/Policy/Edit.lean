/-
# Editing a policy set in place

The operations on policy sets as edits of one set.  An edit looks at the maps and changes them step
by step, so it could fail when it has changed one of them already.  A history is a list of calls,
each of which goes on from the set that the one before left behind, whether that one failed or not.
-/
import Arbiter.Policy.Set

namespace Arbiter

/-- An edit of a policy set: what has been changed before a failure stays changed. -/
abbrev Edit := ExceptT PolicySetError (StateM PolicySet)

namespace Edit

/-- The outcome of an edit of a set, and the set that it leaves behind. -/
def on {α : Type} (e : Edit α) (s : PolicySet) : Except PolicySetError α × PolicySet :=
  (ExceptT.run e).run s

/-- Goes on only if an id is not taken. -/
def refuseIf (taken : Bool) (cause : PolicySetError) : Edit Unit :=
  if taken then throw cause else return

/-- Goes on with a policy if it could be made. -/
def made (p : Except LinkingError Policy) : Edit Policy :=
  match p with
  | .ok p => return p
  | .error cause => throw (.linking cause)

/-- Writes a template under an id. -/
def putTemplate (id : PolicyId) (t : Template) : Edit Unit :=
  modify fun s => { s with templates := s.templates.insert id t }

/-- Writes a policy under an id. -/
def putPolicy (id : PolicyId) (p : Policy) : Edit Unit :=
  modify fun s => { s with links := s.links.insert id p }

/-- Whether a template is not there yet; another one under its id is a failure. -/
def isNew (t : Template) : Edit Bool := do
  match (← get).templates.find? t.id with
  | some existing => do
    refuseIf (existing != t) (.duplicateId t.id)
    return false
  | none => return true

/-- Adds a policy, and its template unless that is there already.  Both maps are looked at before
one of them changes. -/
def add (p : Policy) : Edit Unit := do
  let newTemplate ← isNew p.template
  let s ← get
  refuseIf (s.links.contains p.id) (.duplicateId p.id)
  if newTemplate then putTemplate p.template.id p.template
  putPolicy p.id p

/-- Adds a template without slots as a static policy. -/
def addStatic (t : Template) : Edit Unit := do
  let s ← get
  refuseIf (s.templates.contains t.id || s.links.contains t.id) (.duplicateId t.id)
  let p ← made (Policy.newStatic t)
  putTemplate t.id p.template
  putPolicy t.id p

/-- Adds a template. -/
def addTemplate (t : Template) : Edit Unit := do
  let s ← get
  refuseIf (s.templates.contains t.id) (.duplicateId t.id)
  putTemplate t.id t

/-- Links a template of the set; yields the policy. -/
def link (template id : PolicyId) (values : SlotValues) : Edit Policy := do
  match (← get).templates.find? template with
  | none => throw (.linking (.noTemplate template))
  | some t => do
    let s ← get
    refuseIf (s.links.contains id || s.templates.contains id) (.linking (.idTaken id))
    let p ← made (Policy.ofLink t id values)
    putPolicy id p
    return p

/-- Puts the set of the given policies in place.  That set is filled apart, so the first policy that
cannot be added to it leaves the old one as it is. -/
def replace (ps : List Policy) : Edit Unit := do
  match on (ps.forM add) .empty with
  | (.ok _, s) => set s
  | (.error cause, _) => throw cause

end Edit

/-- A call of an operation on a policy set. -/
inductive Call where
  | add (p : Policy)
  | addStatic (t : Template)
  | addTemplate (t : Template)
  | link (template id : PolicyId) (values : SlotValues)
  /-- The set is made anew of policies. -/
  | ofPolicies (ps : List Policy)

namespace Call

/-- What a call does to the set. -/
def edit : Call → Edit Unit
  | .add p => Edit.add p
  | .addStatic t => Edit.addStatic t
  | .addTemplate t => Edit.addTemplate t
  | .link template id values => do
    let _ ← Edit.link template id values
    return
  | .ofPolicies ps => Edit.replace ps

/-- The set that a call makes of another one. -/
def result (s : PolicySet) : Call → Except PolicySetError PolicySet
  | .add p => s.add p
  | .addStatic t => s.addStatic t
  | .addTemplate t => s.addTemplate t
  | .link template id values => (s.link template id values).map Prod.snd
  | .ofPolicies ps => PolicySet.ofPolicies ps

end Call

/-- What a history of calls leaves behind, starting with the set of nothing. -/
def PolicySet.after (calls : List Call) : PolicySet :=
  calls.foldl (fun s c => (c.edit.on s).2) .empty

end Arbiter
