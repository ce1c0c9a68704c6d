/-
# Faults of policies

What validation finds wrong with a policy.
-/
import Arbiter.Policy.Template

namespace Arbiter

/-- Something wrong with a policy. -/
inductive PolicyFault where
  /-- An entity type is not declared. -/
  | unrecognizedEntityType (name : String)
  /-- An action is not declared. -/
  | unrecognizedAction (uid : String)
  /-- An expression is not of the type that is needed there. -/
  | unexpectedType (expected actual : String)
  /-- Two expressions cannot have a value in common. -/
  | incompatibleTypes (left right : String)
  /-- An attribute is not declared. -/
  | unsafeAttribute (owner attr : String)
  /-- An attribute may be missing and has not been tested for. -/
  | unsafeOptionalAttribute (owner attr : String)
  /-- There is no extension function of the name. -/
  | undefinedFunction (name : String)
  /-- A function has another number of arguments than it takes. -/
  | wrongArity (name : String) (expected actual : Nat)
  /-- The argument of a constructor is not a literal. -/
  | nonLiteralArgument (name : String)
  /-- The argument of a constructor is not the text of a value. -/
  | badLiteral (message : String)
  deriving DecidableEq, Repr

namespace PolicyFault

/-- A fault as told to a caller. -/
def message : PolicyFault → String
  | .unrecognizedEntityType name => s!"unrecognized entity type `{name}`"
  | .unrecognizedAction uid => s!"unrecognized action `{uid}`"
  | .unexpectedType expected actual => s!"unexpected type: expected {expected}, got {actual}"
  | .incompatibleTypes left right => s!"incompatible types {left} and {right}"
  | .unsafeAttribute owner attr => s!"attribute `{attr}` is not declared on {owner}"
  | .unsafeOptionalAttribute owner attr =>
    s!"attribute `{attr}` of `{owner}` is optional and must be guarded with `has`"
  | .undefinedFunction name => s!"undefined extension function `{name}`"
  | .wrongArity name expected actual =>
    s!"wrong number of arguments to `{name}`: expected {expected}, got {actual}"
  | .nonLiteralArgument name => s!"extension constructor `{name}` takes a string literal"
  | .badLiteral message => s!"invalid extension literal: {message}"

/-- The name of the kind of fault. -/
def kindName : PolicyFault → String
  | .unrecognizedEntityType .. => "unrecognized_entity_type"
  | .unrecognizedAction .. => "unrecognized_action_id"
  | .unexpectedType .. => "unexpected_type"
  | .incompatibleTypes .. => "incompatible_types"
  | .unsafeAttribute .. => "unsafe_attribute_access"
  | .unsafeOptionalAttribute .. => "unsafe_optional_attribute_access"
  | .undefinedFunction .. => "undefined_function"
  | .wrongArity .. => "wrong_number_arguments"
  | .nonLiteralArgument .. => "non_literal_extension_constructor"
  | .badLiteral .. => "extension_literal"

/-- What the fault is about, field by field. -/
def particulars : PolicyFault → List (String × Json)
  | .unrecognizedEntityType name => [("name", .string name)]
  | .unrecognizedAction uid => [("uid", .string uid)]
  | .unexpectedType expected actual => [("expected", .string expected), ("actual", .string actual)]
  | .incompatibleTypes left right => [("left", .string left), ("right", .string right)]
  | .unsafeAttribute owner attr => [("on", .string owner), ("attr", .string attr)]
  | .unsafeOptionalAttribute owner attr => [("on", .string owner), ("attr", .string attr)]
  | .undefinedFunction name => [("name", .string name)]
  | .wrongArity name expected actual =>
    [("name", .string name), ("expected", .int expected), ("actual", .int actual)]
  | .nonLiteralArgument name => [("name", .string name)]
  | .badLiteral message => [("message", .string message)]

/-- The document of a fault. -/
def toJson (f : PolicyFault) : Json := .object (("kind", .string f.kindName) :: f.particulars)

end PolicyFault

/-- A fault with the policy or template that it concerns. -/
structure ValidationError where
  policy : PolicyId
  fault : PolicyFault
  deriving DecidableEq, Repr

namespace ValidationError

/-- A fault of a policy as text. -/
def render (e : ValidationError) : String :=
  "policy `" ++ e.policy.name ++ "`: " ++ e.fault.message

/-- The document of a fault of a policy. -/
def toJson (e : ValidationError) : Json :=
  .object [("policy_id", .string e.policy.name), ("kind", e.fault.toJson)]

/-- Faults as text. -/
def renderList (es : List ValidationError) : String :=
  if es.isEmpty then "validation passed" else "; ".intercalate (es.map render)

end ValidationError

end Arbiter
