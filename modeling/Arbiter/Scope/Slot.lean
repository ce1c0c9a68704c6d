/-
# Slots of templates

A template may leave open who its principal or its resource is; the open place is a slot.
-/

namespace Arbiter

/-- The open places of a template. -/
inductive Slot where
  | principal
  | resource
  deriving DecidableEq, Repr, Inhabited

namespace Slot

/-- The name of a slot. -/
def name : Slot → String
  | .principal => "?principal"
  | .resource => "?resource"

instance : ToString Slot := ⟨name⟩

/-- The slot with a given name. -/
def ofName? (name : String) : Option Slot :=
  if name = "?principal" then some .principal
  else if name = "?resource" then some .resource
  else none

/-- The place of a slot in the order. -/
def index : Slot → Nat
  | .principal => 0
  | .resource => 1

/-- The principal comes first. -/
instance : Ord Slot := ⟨compareOn index⟩

instance : Std.TransOrd Slot := inferInstanceAs (Std.TransCmp (compareOn index))

instance : Std.LawfulEqOrd Slot where
  compare_self {a} := show compare a.index a.index = .eq from Std.ReflCmp.compare_self
  eq_of_compare {a b} h := by cases a <;> cases b <;> first | rfl | exact absurd h (by decide)

theorem ofName?_name (s : Slot) : ofName? s.name = some s := by cases s <;> rfl

end Slot

end Arbiter
