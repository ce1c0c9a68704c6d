/-
# 256-bit numbers as text

A number is written as its decimal numeral, and read from any row of decimal digits.  Writing
divides by ten until nothing is left, which makes the number smaller each time (`toNat_tenth_lt`).
-/
import Arbiter.Extension.U256

namespace Arbiter.U256

/-! ## 1. Reading -/

/-- Why a text is not a number of 256 bits. -/
inductive ParseError where
  | empty
  | badCharacter
  | outOfRange
  deriving DecidableEq, Repr

/-- What a decimal digit denotes. -/
def digit? (c : Char) : Option UInt64 :=
  if c.isDigit then some (UInt64.ofNat (c.toNat - '0'.toNat)) else none

/-- Appends decimal digits to a number; the first character that is no digit, or that leads out of
the range, is reported. -/
def appendDigits (n : U256) : List Char → Except ParseError U256
  | [] => .ok n
  | c :: r =>
    match digit? c with
    | some digit =>
      match n.timesTenPlus? digit with
      | some n => appendDigits n r
      | none => .error .outOfRange
    | none => .error .badCharacter

/-- Reads a decimal numeral; zeros in front are allowed. -/
def parse (text : String) : Except ParseError U256 :=
  match text.toList with
  | [] => .error .empty
  | cs => zero.appendDigits cs

/-! ## 2. Writing -/

/-- The character of a decimal digit. -/
def digitChar (digit : UInt64) : Char := Char.ofUInt8 ('0'.toUInt8 + digit.toUInt8)

/-- The number without its last digit. -/
def tenth (n : U256) : U256 := (n.divRem 10).1

/-- The last digit of a number. -/
def lastDigit (n : U256) : UInt64 := (n.divRem 10).2

theorem toNat_tenth (n : U256) : n.tenth.toNat = n.toNat / 10 := n.toNat_fst_divRem (by decide)

theorem toNat_lastDigit (n : U256) : n.lastDigit.toNat = n.toNat % 10 :=
  n.toNat_snd_divRem (by decide)

theorem toNat_tenth_lt {n : U256} (h : ¬ n.isZero) : n.tenth.toNat < n.toNat := by
  rw [isZero_iff] at h
  rw [toNat_tenth]
  omega

/-- Puts the digits of a number in front of `acc`; zero has none. -/
def prependDigits (n : U256) (acc : List Char) : List Char :=
  if n.isZero then acc else prependDigits n.tenth (digitChar n.lastDigit :: acc)
termination_by n.toNat
decreasing_by exact toNat_tenth_lt ‹_›

/-- The decimal digits of a number, no zero in front. -/
def chars (n : U256) : List Char := if n.isZero then ['0'] else prependDigits n []

/-- A number as text. -/
def render (n : U256) : String := String.ofList n.chars

end Arbiter.U256
