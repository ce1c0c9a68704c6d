/-
# Numerals of JSON

What number a numeral of a JSON text denotes.  A numeral without fraction and exponent that fits
64 bits is an integer.  Any other is a double, found in two roundings: the digits are gathered
into a 64-bit significand for as long as it holds them, and this is multiplied or divided by a
power of ten.  The value can therefore differ in its last bit from the nearest double, and a
numeral beyond the doubles denotes nothing.
-/
import Arbiter.Json.Basic
import Arbiter.Long

namespace Arbiter.Json

/-- A numeral as it is written, digit by digit. -/
structure Numeral where
  negative : Bool
  whole : List Nat
  fraction : Option (List Nat)
  /-- Whether the exponent is negative, and its digits. -/
  exponent : Option (Bool × List Nat)

/-- The least power of two that a significand cannot reach. -/
def significandLimit : Nat := 0x10000000000000000

/-- The largest exponent that is told apart. -/
def exponentMax : Nat := 0x7fffffff

/-- Appends digits to a number for as long as the result stays below `limit`; the digits left over
come back too. -/
def gatherDigits (limit : Nat) : Nat → List Nat → Nat × List Nat
  | n, [] => (n, [])
  | n, d :: ds => if n * 10 + d < limit then gatherDigits limit (n * 10 + d) ds else (n, d :: ds)

/-- Keeps an exponent between the least and the largest that are told apart. -/
def clampExponent (e : Int) : Int :=
  max (-(exponentMax : Int) - 1) (min exponentMax e)

/-- The largest power of ten that a double holds exactly enough to scale by. -/
def scaleMax : Nat := 308

/-- `x * 10^e`, by one multiplication for a positive and by divisions by at most `10^308` for a
negative `e`; nothing when the result is no finite double.  `steps` bounds the divisions. -/
def scale? (x : Float) (e : Int) : Nat → Option Float
  | 0 => some x
  | steps + 1 =>
    if e.natAbs ≤ scaleMax then
      let power := Float.ofScientific 1 false e.natAbs
      if 0 ≤ e then
        let y := x * power
        if y.isInf then none else some y
      else some (x / power)
    else if x == 0.0 then some x
    else if 0 ≤ e then none
    else scale? (x / Float.ofScientific 1 false scaleMax) (e + scaleMax) steps

/-- The double `± significand * 10^e`. -/
def double? (negative : Bool) (significand : Nat) (e : Int) : Option JsonNumber :=
  (scale? significand.toUInt64.toFloat e 8).map fun x => .real (if negative then -x else x)

/-- The number that a numeral denotes. -/
def Numeral.value? (l : Numeral) : Option JsonNumber :=
  let (s, left) := gatherDigits significandLimit 0 l.whole
  match l.fraction, l.exponent, left with
  | none, none, [] =>
    if !l.negative then some (.int s)
    else if s ≠ 0 ∧ (Long.ofInt? (-(s : Int))).isSome then some (.int (-(s : Int)))
    else some (.real (-s.toUInt64.toFloat))
  | fraction, exponent, left =>
    let digits := fraction.getD []
    let (s, rest) := gatherDigits significandLimit s digits
    let start := (left.length : Int) - ((digits.length - rest.length : Nat) : Int)
    match exponent with
    | none => double? l.negative s start
    | some (down, eds) =>
      let (e, tooLarge) := gatherDigits (exponentMax + 1) 0 eds
      if tooLarge.isEmpty then
        double? l.negative s (clampExponent (if down then start - e else start + e))
      else if s ≠ 0 ∧ !down then none
      else some (.real (if l.negative then -0.0 else 0.0))

end Arbiter.Json
