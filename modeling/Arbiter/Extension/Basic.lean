/-
# Extension values

Decimals, IP networks and 256-bit numbers are the kinds of extension values.  Each kind has a
constructor function that takes the text of a value.
-/
import Arbiter.Extension.Decimal
import Arbiter.Extension.IpAddress.Text
import Arbiter.Extension.U256.Text
import Arbiter.Order

namespace Arbiter

/-- The kinds of extension values. -/
inductive ExtensionKind where
  | decimal
  | ipaddr
  | u256
  deriving DecidableEq, Repr, Inhabited

/-- The name of a kind. -/
def ExtensionKind.name : ExtensionKind → String
  | .decimal => "decimal"
  | .ipaddr => "ipaddr"
  | .u256 => "u256"

instance : ToString ExtensionKind := ⟨ExtensionKind.name⟩

/-- The kind with a given name. -/
def ExtensionKind.ofName? (name : String) : Option ExtensionKind :=
  [.decimal, .ipaddr, .u256].find? fun k => k.name == name

/-- Why a text is not the text of a value of a kind. -/
inductive ExtensionError where
  | decimal (cause : Decimal.ParseError) (text : String)
  | ipaddr (text : String)
  | u256 (cause : U256.ParseError) (text : String)
  deriving DecidableEq, Repr

namespace ExtensionError

/-- The kind of which there was to be a value. -/
def kind : ExtensionError → ExtensionKind
  | .decimal .. => .decimal
  | .ipaddr .. => .ipaddr
  | .u256 .. => .u256

/-- What is wrong with the text. -/
def message : ExtensionError → String
  | .decimal .badFormat text => s!"`{text}` is not a well-formed decimal literal"
  | .decimal .tooManyDigits text =>
    s!"`{text}` has more than {Decimal.places} digits after the decimal point"
  | .decimal .outOfRange text => s!"`{text}` is out of range for a decimal"
  | .ipaddr text => s!"`{text}` is not a valid IP address or network: invalid IP address syntax"
  | .u256 .empty _ => "u256 literal is empty"
  | .u256 .badCharacter text => s!"`{text}` contains characters other than decimal digits"
  | .u256 .outOfRange text => s!"`{text}` is out of range for a u256"

end ExtensionError

/-- An extension value. -/
inductive ExtensionValue where
  | decimal (d : Decimal)
  | ipaddr (a : IpAddress)
  | u256 (n : U256)
  deriving DecidableEq

namespace ExtensionValue

/-- The kind of a value. -/
def kind : ExtensionValue → ExtensionKind
  | .decimal _ => .decimal
  | .ipaddr _ => .ipaddr
  | .u256 _ => .u256

/-- The text from which the constructor of its kind makes a value. -/
def argument : ExtensionValue → String
  | .decimal d => d.render
  | .ipaddr a => a.render
  | .u256 n => n.render

/-- Makes a value of a kind from its text. -/
def ofArgument (kind : ExtensionKind) (text : String) : Except ExtensionError ExtensionValue :=
  match kind with
  | .decimal =>
    match Decimal.parse text with
    | .ok d => .ok (.decimal d)
    | .error cause => .error (.decimal cause text)
  | .ipaddr =>
    match IpAddress.parse? text with
    | some a => .ok (.ipaddr a)
    | none => .error (.ipaddr text)
  | .u256 =>
    match U256.parse text with
    | .ok n => .ok (.u256 n)
    | .error cause => .error (.u256 cause text)

/-- The order: by kind, then within the kind. -/
def cmp : ExtensionValue → ExtensionValue → Ordering
  | .decimal a, .decimal b => compare a b
  | .decimal _, _ => .lt
  | _, .decimal _ => .gt
  | .ipaddr a, .ipaddr b => compare a b
  | .ipaddr _, _ => .lt
  | _, .ipaddr _ => .gt
  | .u256 a, .u256 b => compare a b

instance : Ord ExtensionValue := ⟨cmp⟩

theorem cmp_self : ∀ a : ExtensionValue, cmp a a = .eq
  | .decimal a => Order.self a
  | .ipaddr a => Order.self a
  | .u256 a => Order.self a

theorem eq_of_cmp : ∀ {a b : ExtensionValue}, cmp a b = .eq → a = b
  | .decimal a, .decimal b, h => congrArg _ (Order.eq_of_eq a b h)
  | .ipaddr a, .ipaddr b, h => congrArg _ (Order.eq_of_eq a b h)
  | .u256 a, .u256 b, h => congrArg _ (Order.eq_of_eq a b h)

theorem cmp_swap : ∀ a b : ExtensionValue, cmp a b = (cmp b a).swap
  | .decimal a, .decimal b => Order.swap a b
  | .ipaddr a, .ipaddr b => Order.swap a b
  | .u256 a, .u256 b => Order.swap a b
  | .decimal _, .ipaddr _ | .decimal _, .u256 _ | .ipaddr _, .u256 _ => rfl
  | .ipaddr _, .decimal _ | .u256 _, .decimal _ | .u256 _, .ipaddr _ => rfl

theorem cmp_trans : ∀ {a b c : ExtensionValue},
    (cmp a b).isLE → (cmp b c).isLE → (cmp a c).isLE
  | .decimal a, .decimal b, .decimal c, hab, hbc => Order.le_trans a b c hab hbc
  | .ipaddr a, .ipaddr b, .ipaddr c, hab, hbc => Order.le_trans a b c hab hbc
  | .u256 a, .u256 b, .u256 c, hab, hbc => Order.le_trans a b c hab hbc
  | .decimal _, _, .ipaddr _, _, _ | .decimal _, _, .u256 _, _, _ => rfl
  | .ipaddr _, _, .u256 _, _, _ => rfl

instance : Std.LawfulEqOrd ExtensionValue where
  compare_self {a} := cmp_self a
  eq_of_compare h := eq_of_cmp h

instance : Std.TransOrd ExtensionValue where
  eq_swap {a b} := cmp_swap a b
  isLE_trans hab hbc := cmp_trans hab hbc

end ExtensionValue

end Arbiter
