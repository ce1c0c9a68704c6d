/-
# Errors of evaluation

What can go wrong when a condition is evaluated.  Such an error concerns one policy; it is
reported beside the decision and does not prevent it.
-/
import Arbiter.Entity.Uid
import Arbiter.Extension.Basic
import Arbiter.Scope.Slot

namespace Arbiter

/-- Why an expression has no value. -/
inductive EvalError where
  /-- A value is not of the type that is needed there. -/
  | typeError (expected actual : String)
  /-- An attribute of an entity is needed that is not stored. -/
  | entityDoesNotExist (uid : EntityUid)
  /-- An entity or a record does not have an attribute. -/
  | attributeNotFound (owner attr : String)
  /-- The result of an operator does not fit 64 bits. -/
  | integerOverflow (op : String)
  /-- A text is not the text of an extension value. -/
  | extensionParse (cause : ExtensionError)
  /-- There is no extension function of the name. -/
  | unknownFunction (name : String)
  /-- A function has another number of arguments than it takes. -/
  | wrongArity (name : String) (expected actual : Nat)
  /-- A slot of the scope has no value. -/
  | unlinkedSlot (slot : Slot)
  deriving DecidableEq, Repr

namespace EvalError

/-- The error as told to a caller. -/
def message : EvalError → String
  | .typeError expected actual => s!"type error: expected {expected}, got {actual}"
  | .entityDoesNotExist uid => s!"entity `{uid}` does not exist"
  | .attributeNotFound owner attr => s!"`{owner}` does not have the attribute `{attr}`"
  | .integerOverflow op => s!"integer overflow while evaluating `{op}`"
  | .extensionParse cause =>
    "failed to construct " ++ cause.kind.name ++ " value: " ++ cause.message
  | .unknownFunction name => s!"extension function `{name}` does not exist"
  | .wrongArity name expected actual =>
    s!"wrong number of arguments to `{name}`: expected {expected}, got {actual}"
  | .unlinkedSlot slot => s!"slot `{slot}` is not linked"

/-- The name of the kind of error. -/
def kindName : EvalError → String
  | .typeError .. => "type_error"
  | .entityDoesNotExist .. => "entity_does_not_exist"
  | .attributeNotFound .. => "attribute_not_found"
  | .integerOverflow .. => "integer_overflow"
  | .extensionParse .. => "extension_parse"
  | .unknownFunction .. => "unknown_function"
  | .wrongArity .. => "wrong_arity"
  | .unlinkedSlot .. => "unlinked_slot"

/-- What the error is about, field by field. -/
def particulars : EvalError → List (String × Json)
  | .typeError expected actual => [("expected", .string expected), ("actual", .string actual)]
  | .entityDoesNotExist uid => [("uid", uid.toJson)]
  | .attributeNotFound owner attr => [("on", .string owner), ("attr", .string attr)]
  | .integerOverflow op => [("op", .string op)]
  | .extensionParse cause =>
    [("extension", .string cause.kind.name), ("message", .string cause.message)]
  | .unknownFunction name => [("name", .string name)]
  | .wrongArity name expected actual =>
    [("name", .string name), ("expected", .int expected), ("actual", .int actual)]
  | .unlinkedSlot slot => [("slot", .string slot.name)]

/-- The document of an error. -/
def toJson (e : EvalError) : Json := .object (("kind", .string e.kindName) :: e.particulars)

end EvalError

end Arbiter
