/-
# Shapes of records

Which attributes a record has, of which types, and whether it may have others.  Declared types and
types of expressions both have records, so a shape is defined over any sort of types.
-/
import Arbiter.SortedList

namespace Arbiter

/-- The type of an attribute, and whether the attribute has to be there. -/
structure Attr (τ : Type) where
  type : τ
  required : Bool
  deriving DecidableEq, Repr

/-- The attributes of a record, in the order of their names, and whether it may have others. -/
structure Shape (τ : Type) where
  attrs : List (String × Attr τ)
  isOpen : Bool
  deriving DecidableEq, Repr

namespace Shape

variable {τ : Type}

/-- The shape of the record without attributes. -/
def empty : Shape τ := ⟨[], false⟩

instance : Inhabited (Shape τ) := ⟨empty⟩

/-- The shape with the given attributes and no others: of two with one name the later one stays. -/
def closed (attrs : List (String × Attr τ)) : Shape τ := ⟨SortedList.ofPairs attrs, false⟩

/-- The attribute of a name. -/
def get? (s : Shape τ) (name : String) : Option (Attr τ) := SortedList.find? name s.attrs

/-- An attribute as text: its name, with a mark when it may be missing, and the text of its
type. -/
def renderAttr (name : String) (required : Bool) (type : String) : String :=
  name ++ (if required then "" else "?") ++ ": " ++ type

/-- The texts of attributes in braces. -/
def renderAttrs (attrs : List String) : String := "\x7b" ++ ", ".intercalate attrs ++ "\x7d"

end Shape

end Arbiter
