/-
# JSON as text

The compact text of a JSON value: no blanks, the fields of an object in the order in which they
stand.  In strings only the quote, the backslash and the characters below U+0020 are escaped, the
latter by their short escape where there is one.
-/
import Arbiter.Json.Basic
import Arbiter.Double.Text

namespace Arbiter

/-- A number as text. -/
def JsonNumber.render : JsonNumber → String
  | .int n => toString n
  | .real x => Double.render x

namespace Json

/-- A digit of a hexadecimal numeral, in lower case. -/
def hexDigit (n : Nat) : Char := Nat.digitChar (n % 16)

/-- One character of a JSON string. -/
def escapeChar (c : Char) : List Char :=
  match c with
  | '"' => ['\\', '"']
  | '\\' => ['\\', '\\']
  | '\n' => ['\\', 'n']
  | '\r' => ['\\', 'r']
  | '\t' => ['\\', 't']
  | '\x08' => ['\\', 'b']
  | '\x0c' => ['\\', 'f']
  | c =>
    if c.toNat < 0x20 then ['\\', 'u', '0', '0', hexDigit (c.toNat / 16), hexDigit c.toNat]
    else [c]

/-- A string as JSON text. -/
def renderString (s : String) : String :=
  String.ofList ('"' :: s.toList.flatMap escapeChar ++ ['"'])

mutual

/-- The compact text of a value. -/
def compact : Json → String
  | .null => "null"
  | .bool b => if b then "true" else "false"
  | .number n => n.render
  | .string s => renderString s
  | .array items => "[" ++ ",".intercalate (compactItems items) ++ "]"
  | .object fields => "\x7b" ++ ",".intercalate (compactFields fields) ++ "\x7d"
termination_by structural j => j

/-- The texts of the items of an array. -/
def compactItems : List Json → List String
  | [] => []
  | j :: r => j.compact :: compactItems r
termination_by structural l => l

/-- The texts of the fields of an object. -/
def compactFields : List (String × Json) → List String
  | [] => []
  | (name, j) :: r => (renderString name ++ ":" ++ j.compact) :: compactFields r
termination_by structural l => l

end

end Json

end Arbiter
