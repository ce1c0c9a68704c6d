/-
# Texts in quotes

How a text is shown inside a value, an annotation or a record key: in double quotes, with the
quote, the backslash and the usual blanks behind a backslash, and every hidden character as its
number in braces.
-/
import Arbiter.Text.Hidden

namespace Arbiter.Text

/-- A number in hexadecimal, in lower case. -/
def hexDigits (n : Nat) : List Char := Nat.toDigits 16 n

/-- One character of a quoted text. -/
def quoteChar (c : Char) : List Char :=
  match c with
  | '"' => ['\\', '"']
  | '\\' => ['\\', '\\']
  | '\n' => ['\\', 'n']
  | '\r' => ['\\', 'r']
  | '\t' => ['\\', 't']
  | '\x00' => ['\\', '0']
  | c => if isHidden c then ['\\', 'u', '{'] ++ hexDigits c.toNat ++ ['}'] else [c]

/-- A text in quotes. -/
def quote (s : String) : String :=
  String.ofList ('"' :: s.toList.flatMap quoteChar ++ ['"'])

end Arbiter.Text
