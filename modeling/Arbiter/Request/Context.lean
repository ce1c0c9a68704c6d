/-
# Contexts

The context of a request: named values that conditions see as a record.  A context can be read
from a document of its own, which is read as a value first; so an object that stands for another
value than a record is no context.
-/
import Arbiter.SortedMap
import Arbiter.Value.Json

namespace Arbiter

/-- The named values that a request brings along. -/
structure Context where
  attrs : SortedMap String Value := .empty
  deriving DecidableEq

/-- Why a document is not the document of a context. -/
inductive ContextError where
  /-- The text is not JSON. -/
  | malformed
  /-- The document is not an object. -/
  | notObject (doc : Json)
  /-- The document is not the document of a value. -/
  | value (cause : ValueError)
  /-- The document stands for another value than a record. -/
  | notRecord (v : Value)

/-- A document that is not the document of a context is reported as such. -/
instance : Reported ContextError where
  kind _ := .context
  detail
    | .malformed => "<json>"
    | .notObject doc => "expected `context` to be a record, but got `" ++ doc.compact ++ "`"
    | .value cause => Reported.message cause
    | .notRecord v => "expected `context` to be a record, but got " ++ v.typeName

namespace Context

/-- The context without attributes. -/
def empty : Context := {}

/-- The value of an attribute. -/
def get? (c : Context) (name : String) : Option Value := c.attrs.find? name

/-- The context with an attribute in place of what was there. -/
def insert (c : Context) (name : String) (v : Value) : Context := ⟨c.attrs.insert name v⟩

/-- The number of attributes. -/
def size (c : Context) : Nat := c.attrs.size

/-- Whether there are no attributes. -/
def isEmpty (c : Context) : Bool := c.attrs.isEmpty

/-- The context as conditions see it. -/
def toValue (c : Context) : Value := .record c.attrs.entries

/-- The document of a context. -/
def toJson (c : Context) : Json := .object (Value.fieldsToJson c.attrs.entries)

/-- The context of a document in canonical form. -/
def ofJson (j : Json) : Except ContextError Context :=
  match j with
  | .object _ =>
    match Value.ofJson j with
    | .error cause => .error (.value cause)
    | .ok (.record attrs) => .ok ⟨.ofList attrs⟩
    | .ok v => .error (.notRecord v)
  | j => .error (.notObject j)

/-- The context of the document in a text. -/
def parse (text : String) : Except ContextError Context :=
  match Json.parse? text with
  | some j => ofJson j
  | none => .error .malformed

end Context

end Arbiter
