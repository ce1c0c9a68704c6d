/-
# JSON values

An object is the list of its fields in the order in which they stand, so that a document can be
looked at as it was written and a serialised form keeps the order that it prescribes.  `Json.sorted`
is the canonical form in which generic documents are handled: fields in the order of their names,
and of two fields with one name the later one.
-/
import Arbiter.SortedList

namespace Arbiter

/-- A JSON number: a numeral without fraction and exponent that fits 64 bits, or a double. -/
inductive JsonNumber where
  /-- An integer. -/
  | int (n : Int)
  /-- A double. -/
  | real (x : Float)

/-- A JSON value. -/
inductive Json where
  | null
  | bool (b : Bool)
  | number (n : JsonNumber)
  | string (s : String)
  | array (items : List Json)
  | object (fields : List (String × Json))

instance : Inhabited Json := ⟨.null⟩

namespace Json

/-- The integer as a JSON value. -/
def int (n : Int) : Json := .number (.int n)

/-- The object with one field. -/
def single (name : String) (value : Json) : Json := .object [(name, value)]

/-- The field of something that may be missing. -/
def optionalField (name : String) : Option Json → List (String × Json)
  | none => []
  | some j => [(name, j)]

mutual

/-- The same value with the fields of every object in the order of their names, each once: of two
fields with one name the later one stays. -/
def sorted : Json → Json
  | .array items => .array (sortedItems items)
  | .object fields => .object (SortedList.ofPairs (sortedFields fields))
  | j => j
termination_by structural j => j

/-- `sorted` on the items of an array. -/
def sortedItems : List Json → List Json
  | [] => []
  | j :: r => j.sorted :: sortedItems r
termination_by structural l => l

/-- `sorted` on the values of the fields of an object. -/
def sortedFields : List (String × Json) → List (String × Json)
  | [] => []
  | (k, j) :: r => (k, j.sorted) :: sortedFields r
termination_by structural l => l

end

mutual

/-- The number of levels of arrays and objects. -/
def depth : Json → Nat
  | .array items => depthItems items + 1
  | .object fields => depthFields fields + 1
  | _ => 0
termination_by structural j => j

/-- The largest depth of the items of an array. -/
def depthItems : List Json → Nat
  | [] => 0
  | j :: r => max j.depth (depthItems r)
termination_by structural l => l

/-- The largest depth of the values of the fields of an object. -/
def depthFields : List (String × Json) → Nat
  | [] => 0
  | (_, j) :: r => max j.depth (depthFields r)
termination_by structural l => l

end

/-! ## 1. Looking into a value -/

/-- The first field of an object with the given name. -/
def get? (name : String) : Json → Option Json
  | .object fields => fields.lookup name
  | _ => none

/-- The text of a string. -/
def string? : Json → Option String
  | .string s => some s
  | _ => none

/-- The truth value of a boolean. -/
def bool? : Json → Option Bool
  | .bool b => some b
  | _ => none

/-- The items of an array. -/
def array? : Json → Option (List Json)
  | .array items => some items
  | _ => none

/-- The fields of an object. -/
def object? : Json → Option (List (String × Json))
  | .object fields => some fields
  | _ => none

/-! ## 2. Documents of fixed shape -/

/-- The one value written under a name, `none` inside when there is none; nothing when the name
is repeated. -/
def field? (name : String) (fields : List (String × Json)) : Option (Option Json) :=
  match fields.filter (·.1 == name) with
  | [] => some none
  | [e] => some (some e.2)
  | _ => none

/-- The values of a document with the given fields, in that order, `none` for a missing one.  Such
a document is an object, which may hold other fields too but none of these twice, or an array of
the values in order, where values at the end may be missing. -/
def fields? (names : List String) : Json → Option (List (Option Json))
  | .object fields => names.mapM fun name => field? name fields
  | .array items =>
    if items.length ≤ names.length then
      some (items.map some ++ List.replicate (names.length - items.length) none)
    else none
  | _ => none

/-- The choice among named alternatives without content: the name as a string, or as the one field
of an object with the value `null`. -/
def choice? : Json → Option String
  | .string s => some s
  | .object [(name, .null)] => some name
  | _ => none

/-- Reads what may be left out or `null`. -/
def optional? {α : Type} (read? : Json → Option α) : Option Json → Option (Option α)
  | none | some .null => some none
  | some j => (read? j).map some

/-- Reads what may be left out, but not `null`, with a value for what is left out. -/
def withDefault? {α : Type} (read? : Json → Option α) (default : α) : Option Json → Option α
  | none => some default
  | some j => read? j

/-- Reads a list. -/
def listOf? {α : Type} (read? : Json → Option α) (j : Json) : Option (List α) := do
  (← j.array?).mapM read?

/-- Reads an object as a map from names. -/
def mapOf? {α : Type} (read? : Json → Option α) (j : Json) : Option (List (String × α)) := do
  (← j.object?).mapM fun (name, value) => do return (name, ← read? value)

end Json

end Arbiter
