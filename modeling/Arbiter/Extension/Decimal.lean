/-
# Decimals with four places

A decimal is a 64-bit integer counted in ten-thousandths.  It is written as `-?[0-9]+.[0-9]+`
with at most four digits behind the point, and shown without the zeros at the end, but with one
digit behind the point at least.
-/
import Arbiter.Long

namespace Arbiter

/-- A decimal number, counted in ten-thousandths. -/
structure Decimal where
  scaled : Int64
  deriving DecidableEq, Repr, Inhabited

namespace Decimal

/-- The number of digits kept behind the point. -/
def places : Nat := 4

/-- How many of its units make one. -/
def unitsPerOne : Int64 := 10 ^ places

/-- Decimals are ordered as their counts. -/
instance : Ord Decimal := ⟨compareOn scaled⟩

instance : Std.TransOrd Decimal := inferInstanceAs (Std.TransCmp (compareOn scaled))

instance : Std.LawfulEqOrd Decimal where
  compare_self {a} := show compare a.scaled a.scaled = .eq from Std.ReflCmp.compare_self
  eq_of_compare {a b} h := by
    have h : compare a.scaled b.scaled = .eq := h
    cases a; cases b
    exact congrArg _ (Std.LawfulEqCmp.eq_of_compare h)

/-! ## 1. Reading -/

/-- A literal taken apart: its sign and the digits before and behind the point. -/
structure Literal where
  negative : Bool
  whole : List Char
  fraction : List Char
  deriving DecidableEq, Repr

/-- The sign in front of a literal, and the rest. -/
def splitSign : List Char → Bool × List Char
  | '-' :: r => (true, r)
  | cs => (false, cs)

/-- Takes a literal apart: a sign if there is one, digits, a point, digits. -/
def Literal.ofChars? (cs : List Char) : Option Literal :=
  let (negative, cs) := splitSign cs
  let whole := cs.takeWhile Char.isDigit
  match cs.dropWhile Char.isDigit with
  | '.' :: fraction =>
    if whole.isEmpty || fraction.isEmpty || !fraction.all Char.isDigit then none
    else some { negative, whole, fraction }
  | _ => none

/-- The number that digits denote. -/
def digitsValue (cs : List Char) : Nat :=
  cs.foldl (fun n c => n * 10 + (c.toNat - '0'.toNat)) 0

/-- The number in front of the point, with the sign of the literal. -/
def Literal.signedWhole (l : Literal) : Int :=
  if l.negative then -(digitsValue l.whole : Int) else digitsValue l.whole

/-- How many digits are missing behind the point. -/
def Literal.padding (l : Literal) : UInt32 := UInt32.ofNat places - UInt32.ofNat l.fraction.length

/-- The units of a number behind the point. -/
def Literal.fractionUnits (l : Literal) (fraction : Int64) : Int64 :=
  fraction * 10 ^ l.padding.toNat

/-- The units of a literal, put together from both sides of the point.  The sign is that of the
literal: when the number in front of the point is zero, it has none of its own. -/
def Literal.scaled? (l : Literal) : Option Int64 := do
  let whole ← Long.ofInt? l.signedWhole
  let wholeUnits ← Long.mul? whole unitsPerOne
  let fraction ← Long.ofInt? (digitsValue l.fraction)
  if l.negative then Long.sub? wholeUnits (l.fractionUnits fraction)
  else Long.add? wholeUnits (l.fractionUnits fraction)

/-- Why a text is not a decimal. -/
inductive ParseError where
  | badFormat
  | tooManyDigits
  | outOfRange
  deriving DecidableEq, Repr

/-- Reads a literal. -/
def parse (text : String) : Except ParseError Decimal :=
  match Literal.ofChars? text.toList with
  | none => .error .badFormat
  | some l =>
    if places < l.fraction.length then .error .tooManyDigits
    else
      match l.scaled? with
      | some scaled => .ok ⟨scaled⟩
      | none => .error .outOfRange

/-! ## 2. Writing -/

/-- The digits of a number, with zeros in front up to `places`. -/
def paddedDigits (n : Nat) : List Char := (Nat.toDigits 10 n).leftpad places '0'

/-- Digits without the zeros at the end, one digit at least. -/
def trimZeros (cs : List Char) : List Char :=
  match (cs.reverse.dropWhile (· == '0')).reverse with
  | [] => ['0']
  | ds => ds

/-- A word as it is shown. -/
def wordChars (n : Int64) : List Char :=
  (if n < 0 then ['-'] else []) ++ Nat.toDigits 10 n.toInt.natAbs

/-- The characters of a decimal as it is shown.  Division cuts off behind the point, so that the
sign of a number between minus one and zero is not that of its whole part. -/
def chars (d : Decimal) : List Char :=
  let whole := d.scaled / unitsPerOne
  let fraction := (d.scaled % unitsPerOne).toInt.natAbs
  let sign := if d.scaled < 0 ∧ whole = 0 then ['-'] else []
  sign ++ wordChars whole ++ ['.'] ++ trimZeros (paddedDigits fraction)

/-- A decimal as text. -/
def render (d : Decimal) : String := String.ofList d.chars

end Decimal

end Arbiter
