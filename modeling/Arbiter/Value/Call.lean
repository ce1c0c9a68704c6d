/-
# Calls of extension functions

What an extension function yields on given values.  A call has an outcome of its own for a wrong
number of arguments, so the arguments are taken apart by their number.
-/
import Arbiter.EvalError
import Arbiter.Value.Basic

namespace Arbiter

namespace ExtensionFunction

/-- The text of a string. -/
def stringArg : Value → Except EvalError String
  | .string s => .ok s
  | v => .error (.typeError "string" v.typeName)

/-- The network of an IP value. -/
def ipArg : Value → Except EvalError IpAddress
  | .ext (.ipaddr a) => .ok a
  | v => .error (.typeError ExtensionKind.ipaddr.name v.typeName)

/-- Compares two decimals or two 256-bit numbers.  The first one decides of which kind the second
one has to be. -/
def compareArgs : Value → Value → Except EvalError Ordering
  | .ext (.decimal a), .ext (.decimal b) => .ok (compare a b)
  | .ext (.u256 a), .ext (.u256 b) => .ok (compare a b)
  | .ext (.decimal _), v => .error (.typeError ExtensionKind.decimal.name v.typeName)
  | .ext (.u256 _), v => .error (.typeError ExtensionKind.u256.name v.typeName)
  | v, _ => .error (.typeError "decimal or u256" v.typeName)

/-- Makes a value of a kind from its text. -/
def construct (kind : ExtensionKind) (text : String) : Except EvalError ExtensionValue :=
  (ExtensionValue.ofArgument kind text).mapError .extensionParse

/-- What a function yields on given arguments. -/
def call (f : ExtensionFunction) (args : List Value) : Except EvalError Value :=
  match f, args with
  | .make kind, [v] => do return .ext (← construct kind (← stringArg v))
  | .lessThan, [a, b] => do return .bool (← compareArgs a b).isLT
  | .lessThanOrEqual, [a, b] => do return .bool (← compareArgs a b).isLE
  | .greaterThan, [a, b] => do return .bool (← compareArgs a b).isGT
  | .greaterThanOrEqual, [a, b] => do return .bool (← compareArgs a b).isGE
  | .isIpv4, [v] => do return .bool (← ipArg v).isV4
  | .isIpv6, [v] => do return .bool (← ipArg v).isV6
  | .isLoopback, [v] => do return .bool (← ipArg v).isLoopback
  | .isMulticast, [v] => do return .bool (← ipArg v).isMulticast
  | .isInRange, [a, b] => do
    let addr ← ipArg a
    let range ← ipArg b
    return .bool (addr.isInRange range)
  | f, args => .error (.wrongArity f.name f.signature.params.length args.length)

/-! The same with the arguments counted first and then looked up by their positions. -/

/-- The argument at a position; where there is none, the whole call has no outcome. -/
def argAt (args : List Value) (i : Nat) : ExceptT EvalError Option Value := ExceptT.lift args[i]?

/-- A step on arguments that are there. -/
def given {α : Type} (x : Except EvalError α) : ExceptT EvalError Option α := ExceptT.mk (some x)

/-- What a function yields, with each argument looked up at its position when it is needed. -/
def applyAt (f : ExtensionFunction) (args : List Value) : ExceptT EvalError Option Value :=
  match f with
  | .make kind => do return .ext (← given (construct kind (← given (stringArg (← argAt args 0)))))
  | .lessThan => do
    return .bool (← given (compareArgs (← argAt args 0) (← argAt args 1))).isLT
  | .lessThanOrEqual => do
    return .bool (← given (compareArgs (← argAt args 0) (← argAt args 1))).isLE
  | .greaterThan => do
    return .bool (← given (compareArgs (← argAt args 0) (← argAt args 1))).isGT
  | .greaterThanOrEqual => do
    return .bool (← given (compareArgs (← argAt args 0) (← argAt args 1))).isGE
  | .isIpv4 => do return .bool (← given (ipArg (← argAt args 0))).isV4
  | .isIpv6 => do return .bool (← given (ipArg (← argAt args 0))).isV6
  | .isLoopback => do return .bool (← given (ipArg (← argAt args 0))).isLoopback
  | .isMulticast => do return .bool (← given (ipArg (← argAt args 0))).isMulticast
  | .isInRange => do
    let addr ← given (ipArg (← argAt args 0))
    let range ← given (ipArg (← argAt args 1))
    return .bool (addr.isInRange range)

/-- The call with its arguments looked up by position, after they were counted. -/
def callIndexed (f : ExtensionFunction) (args : List Value) : ExceptT EvalError Option Value :=
  if args.length ≠ f.signature.params.length then
    throw (.wrongArity f.name f.signature.params.length args.length)
  else f.applyAt args

/-- The function with a given name, or the report that there is none. -/
def named (name : String) : Except EvalError ExtensionFunction :=
  match ofName? name with
  | some f => .ok f
  | none => .error (.unknownFunction name)

end ExtensionFunction

/-- Makes an extension value from the name of a constructor and a text. -/
def ExtensionValue.construct (name text : String) : Except EvalError ExtensionValue := do
  match ← (← ExtensionFunction.named name).call [.string text] with
  | .ext v => return v
  | v => .error (.typeError "extension value" v.typeName)

end Arbiter
