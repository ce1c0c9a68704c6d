/-
# The catalogue of extension functions

The functions on extension values, by name: one constructor for each kind, comparisons of
decimals and of 256-bit numbers, and predicates on IP networks.  A signature says what a function
takes and yields; the checker goes by it, and calls agree with it.
-/
import Arbiter.Extension.Basic

namespace Arbiter

/-- The extension functions. -/
inductive ExtensionFunction where
  /-- The function that makes a value of a kind from its text. -/
  | make (kind : ExtensionKind)
  | lessThan
  | lessThanOrEqual
  | greaterThan
  | greaterThanOrEqual
  | isIpv4
  | isIpv6
  | isLoopback
  | isMulticast
  | isInRange
  deriving DecidableEq, Repr

/-- What a parameter takes. -/
inductive ParamType where
  /-- A string. -/
  | string
  /-- A value of a kind. -/
  | extension (kind : ExtensionKind)
  /-- A decimal or a 256-bit number; those of one call are of one kind. -/
  | comparable
  deriving DecidableEq, Repr

/-- What a function yields. -/
inductive ReturnType where
  | bool
  | extension (kind : ExtensionKind)
  deriving DecidableEq, Repr

/-- What a function takes and yields. -/
structure Signature where
  params : List ParamType
  returns : ReturnType
  deriving DecidableEq, Repr

namespace ExtensionFunction

/-- The name of the constructor function of a kind. -/
def makeName : ExtensionKind → String
  | .decimal => "decimal"
  | .ipaddr => "ip"
  | .u256 => "u256"

/-- The name of a function. -/
def name : ExtensionFunction → String
  | .make kind => makeName kind
  | .lessThan => "lessThan"
  | .lessThanOrEqual => "lessThanOrEqual"
  | .greaterThan => "greaterThan"
  | .greaterThanOrEqual => "greaterThanOrEqual"
  | .isIpv4 => "isIpv4"
  | .isIpv6 => "isIpv6"
  | .isLoopback => "isLoopback"
  | .isMulticast => "isMulticast"
  | .isInRange => "isInRange"

instance : ToString ExtensionFunction := ⟨name⟩

/-- All functions. -/
def all : List ExtensionFunction :=
  [.make .decimal, .make .ipaddr, .make .u256, .lessThan, .lessThanOrEqual, .greaterThan,
    .greaterThanOrEqual, .isIpv4, .isIpv6, .isLoopback, .isMulticast, .isInRange]

/-- The function with a given name. -/
def ofName? (name : String) : Option ExtensionFunction :=
  all.find? fun f => f.name == name

/-- Looking a function up by its name finds it. -/
theorem ofName?_name (f : ExtensionFunction) : ofName? f.name = some f := by
  cases f with
  | make kind => cases kind <;> decide
  | _ => decide

/-- Whether a function makes values from texts. -/
def isConstructor : ExtensionFunction → Bool
  | .make _ => true
  | _ => false

/-- The signature of a function. -/
def signature : ExtensionFunction → Signature
  | .make kind => ⟨[.string], .extension kind⟩
  | .lessThan | .lessThanOrEqual | .greaterThan | .greaterThanOrEqual =>
    ⟨[.comparable, .comparable], .bool⟩
  | .isIpv4 | .isIpv6 | .isLoopback | .isMulticast => ⟨[.extension .ipaddr], .bool⟩
  | .isInRange => ⟨[.extension .ipaddr, .extension .ipaddr], .bool⟩

end ExtensionFunction

/-- A value as the call that makes it. -/
def ExtensionValue.render (v : ExtensionValue) : String :=
  ExtensionFunction.makeName v.kind ++ "(\"" ++ v.argument ++ "\")"

end Arbiter
