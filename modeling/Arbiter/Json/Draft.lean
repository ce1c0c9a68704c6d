/-
# Drafts: JSON texts as far as they can be read

Reading a text gives a draft: the value that stands there, up to the first place where the text
is not JSON.  What is well formed but denotes nothing (a numeral beyond the doubles, half a
surrogate pair) is kept as an unreadable part, because such a part only matters to whom it is of
use.  A reader of documents walks the draft in the order of the text, so of two faults the one
that stands first in the text is reported.
-/
import Arbiter.Json.Basic

namespace Arbiter

/-- What reading a JSON text yields. -/
inductive Draft where
  | null
  | bool (b : Bool)
  /-- A numeral with what it denotes. -/
  | number (n : Option JsonNumber)
  /-- A string with its text, if all its escapes are readable. -/
  | string (s : Option String)
  /-- The items of an array, and whether the text goes on after it. -/
  | array (items : List Draft) (closed : Bool)
  /-- The fields of an object, and whether the text goes on after it. -/
  | object (fields : List (Option String × Draft)) (closed : Bool)
  /-- No JSON value stands here. -/
  | broken

instance : Inhabited Draft := ⟨.broken⟩

namespace Draft

/-- The number of levels of arrays and objects that a document may have. -/
def maxDepth : Nat := 127

mutual

/-- The value of a draft that can be read to its end and has at most `depth` levels. -/
def value? (depth : Nat) : Draft → Option Json
  | .null => some .null
  | .bool b => some (.bool b)
  | .number n => n.map .number
  | .string s => s.map .string
  | .array items closed =>
    if depth = 0 ∨ !closed then none else (values? (depth - 1) items).map .array
  | .object fields closed =>
    if depth = 0 ∨ !closed then none else (fieldValues? (depth - 1) fields).map .object
  | .broken => none
termination_by structural d => d

/-- `value?` on the items of an array. -/
def values? (depth : Nat) : List Draft → Option (List Json)
  | [] => some []
  | d :: r => do return (← d.value? depth) :: (← values? depth r)
termination_by structural l => l

/-- `value?` on the fields of an object. -/
def fieldValues? (depth : Nat) : List (Option String × Draft) → Option (List (String × Json))
  | [] => some []
  | (name, d) :: r => do return (← name, ← d.value? depth) :: (← fieldValues? depth r)
termination_by structural l => l

end

mutual

/-- Whether the text goes on after this value, which is all that is asked of a value that is
passed over. -/
def passable : Draft → Bool
  | .array items closed => passables items && closed
  | .object fields closed => passableFields fields && closed
  | .broken => false
  | _ => true
termination_by structural d => d

/-- `passable` on the items of an array. -/
def passables : List Draft → Bool
  | [] => true
  | d :: r => d.passable && passables r
termination_by structural l => l

/-- `passable` on the fields of an object. -/
def passableFields : List (Option String × Draft) → Bool
  | [] => true
  | (_, d) :: r => d.passable && passableFields r
termination_by structural l => l

end

end Draft

end Arbiter
