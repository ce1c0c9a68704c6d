/-
# Policies

A policy is a template with values for its slots.  A static policy is a template without slots and
goes by its id; a linked one has an id of its own.
-/
import Arbiter.EvalError
import Arbiter.Policy.Template

namespace Arbiter

/-- Values for slots. -/
abbrev SlotValues := SortedMap Slot EntityUid

/-- A policy that can take effect. -/
structure Policy where
  template : Template
  /-- The id of a linked policy. -/
  link : Option PolicyId
  values : SlotValues
  deriving DecidableEq

/-- Why a policy could not be made of a template, or could not be added to others. -/
inductive LinkingError where
  /-- A template with slots is no static policy. -/
  | notStatic (template : PolicyId)
  /-- The values are not values for just the slots of the template. -/
  | slotMismatch (template link : PolicyId) (unbound extra : List Slot)
  /-- There is no template of the id. -/
  | noTemplate (template : PolicyId)
  /-- The id of the link is taken. -/
  | idTaken (link : PolicyId)
  deriving DecidableEq, Repr

namespace LinkingError

/-- The names of slots with commas between them. -/
def slotNames (slots : List Slot) : String := ", ".intercalate (slots.map Slot.name)

/-- What is wrong with a link. -/
def detail : LinkingError → String
  | .notStatic template => s!"`{template}` has slots and cannot be used as a static policy"
  | .slotMismatch template link unbound extra =>
    let names := slotNames unbound
    let others := slotNames extra
    s!"linking `{template}` into `{link}`: unbound slots [{names}], extra values [{others}]"
  | .noTemplate template => s!"no template with id `{template}`"
  | .idTaken link => s!"policy id `{link}` conflicts with an existing policy or template"

end LinkingError

/-- What is wrong with a link is reported as such. -/
instance : Reported LinkingError where
  kind _ := .linking
  detail := LinkingError.detail

namespace Policy

/-- The policy of a template without slots. -/
def newStatic (t : Template) : Except LinkingError Policy :=
  if t.hasSlots then .error (.notStatic t.id) else .ok ⟨t, none, .empty⟩

/-- The policy of a template with values for just its slots. -/
def ofLink (t : Template) (id : PolicyId) (values : SlotValues) : Except LinkingError Policy :=
  let expected := t.slots.toList
  if expected = values.keys then .ok ⟨t, some id, values⟩
  else
    .error (.slotMismatch t.id id (expected.filter fun s => !values.contains s)
      (values.keys.filter fun s => !t.slots.contains s))

/-- The id: its own for a linked policy, that of its template for a static one. -/
def id (p : Policy) : PolicyId := p.link.getD p.template.id

/-- Whether the policy is its template. -/
def isStatic (p : Policy) : Bool := p.link.isNone

/-- The entity of a reference in the scope. -/
def resolve (p : Policy) : EntityRef → Except EvalError EntityUid
  | .uid u => .ok u
  | .slot s =>
    match p.values.find? s with
    | some u => .ok u
    | none => .error (.unlinkedSlot s)

/-- A slot with its value, as text. -/
def renderValue (v : Slot × EntityUid) : String := s!"{v.1} = {v.2}"

/-- The policy as policies write it; the values of its slots follow as a comment. -/
def render (p : Policy) : String :=
  p.template.render ++
    if p.values.isEmpty then ""
    else " // " ++ ", ".intercalate (p.values.entries.map renderValue)

end Policy

end Arbiter
