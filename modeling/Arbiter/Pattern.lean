/-
# Glob patterns

A pattern is a list of characters and wildcards.  As text a wildcard is `*`, and a backslash takes
from the character behind it what is special about it.
-/
import Arbiter.Json.Basic
import Arbiter.Report

namespace Arbiter

/-- An element of a pattern. -/
inductive PatternElem where
  /-- Just this character. -/
  | char (c : Char)
  /-- Any piece of text, also the empty one. -/
  | wildcard
  deriving DecidableEq, Repr

/-- A glob pattern. -/
structure Pattern where
  elems : List PatternElem
  deriving DecidableEq, Repr, Inhabited

/-- A text that is no pattern: its last backslash has nothing behind it. -/
structure DanglingEscape where
  text : String
  deriving DecidableEq, Repr

/-- A text that is no pattern is a literal that cannot be read. -/
instance : Reported DanglingEscape where
  kind _ := .parse
  detail e := s!"pattern `{e.text}` ends with a dangling escape"

namespace Pattern

/-! ## 1. Text -/

/-- Reads the elements of a pattern; nothing when a backslash is left alone at the end. -/
def elemsOfChars? : List Char → Option (List PatternElem)
  | [] => some []
  | '*' :: r => (elemsOfChars? r).map (.wildcard :: ·)
  | '\\' :: c :: r => (elemsOfChars? r).map (.char c :: ·)
  | ['\\'] => none
  | c :: r => (elemsOfChars? r).map (.char c :: ·)

/-- Reads a pattern. -/
def parse (text : String) : Except DanglingEscape Pattern :=
  match elemsOfChars? text.toList with
  | some elems => .ok ⟨elems⟩
  | none => .error ⟨text⟩

/-- An element as text. -/
def elemChars : PatternElem → List Char
  | .wildcard => ['*']
  | .char c => if c = '*' ∨ c = '\\' then ['\\', c] else [c]

/-- A pattern as text. -/
def render (p : Pattern) : String := String.ofList (p.elems.flatMap elemChars)

instance : ToString Pattern := ⟨render⟩

/-! ## 2. Documents -/

/-- The document of an element. -/
def elemJson : PatternElem → Json
  | .char c => .single "Literal" (.string (String.singleton c))
  | .wildcard => .string "Wildcard"

/-- The document of a pattern: the list of its elements. -/
def toJson (p : Pattern) : Json := .array (p.elems.map elemJson)

/-- The elements of a document: a wildcard, or the characters of a text. -/
def elemsOfJson? (j : Json) : Option (List PatternElem) :=
  match j with
  | .object [("Literal", .string s)] => some (s.toList.map .char)
  | j => if j.choice? = some "Wildcard" then some [.wildcard] else none

/-- Reads a pattern from its text or from the list of its elements. -/
def ofJson (j : Json) : Except (DocumentError DanglingEscape) Pattern :=
  match j with
  | .string text => refusing (parse text)
  | .array items => do
    return ⟨(← wellFormed (items.mapM elemsOfJson?)).flatten⟩
  | _ => .error .malformed

end Pattern

end Arbiter
