/-
# Names of entities

An entity is named by its type and an id within the type.  Types may stand in namespaces,
`Photos::Album`.  As text an entity is written `Photos::Album::"holiday"`, with an escape for the
quote, the backslash, the line feed and the tab.

Main definitions: `EntityType.parse?` and `EntityUid.parse` read texts, `EntityUid.render` writes
them, `EntityUid.ofJson?` and `EntityUid.toJson` do the same for documents.
-/
import Arbiter.Json.Basic
import Arbiter.Report
import Arbiter.Text.Blank

namespace Arbiter

/-! ## 1. Types -/

/-- The name of an entity type, which may stand in a namespace. -/
structure EntityType where
  name : String
  deriving DecidableEq, Repr, Inhabited

namespace EntityType

/-- Types are ordered by name. -/
instance : Ord EntityType := ⟨compareOn name⟩

instance : Std.TransOrd EntityType := inferInstanceAs (Std.TransCmp (compareOn name))

instance : Std.LawfulEqOrd EntityType where
  compare_self {a} := show compare a.name a.name = .eq from Std.ReflCmp.compare_self
  eq_of_compare {a b} h := by
    have h : compare a.name b.name = .eq := h
    cases a; cases b
    exact congrArg _ (Std.LawfulEqCmp.eq_of_compare h)

instance : ToString EntityType := ⟨name⟩

/-- The segments of a name between its double colons. -/
def splitSegments : List Char → List (List Char)
  | ':' :: ':' :: r => [] :: splitSegments r
  | c :: r =>
    match splitSegments r with
    | s :: ss => (c :: s) :: ss
    | [] => [[c]]
  | [] => [[]]

/-- Whether a character can start an identifier. -/
def isIdentifierStart (c : Char) : Bool := c.isAlpha || c == '_'

/-- Whether a character can continue an identifier. -/
def isIdentifierRest (c : Char) : Bool := c.isAlphanum || c == '_'

/-- An identifier: ASCII letters, digits and underscores, no digit in front. -/
def isIdentifier : List Char → Bool
  | [] => false
  | c :: r => isIdentifierStart c && r.all isIdentifierRest

/-- Whether a name is made of identifiers with double colons between them. -/
def isValidName (name : String) : Bool := (splitSegments name.toList).all isIdentifier

/-- Whether the name of a type is valid. -/
def IsValid (t : EntityType) : Prop := isValidName t.name = true

instance (t : EntityType) : Decidable t.IsValid := inferInstanceAs (Decidable (_ = true))

/-- The type with a given name, if the name is valid. -/
def parse? (name : String) : Option EntityType :=
  if isValidName name then some ⟨name⟩ else none

/-- Cuts a name at its last double colon, the colons left out. -/
def cutLast? : List Char → Option (List Char × List Char)
  | [] => none
  | c :: r =>
    match cutLast? r with
    | some (before, after) => some (c :: before, after)
    | none =>
      match c, r with
      | ':', ':' :: after => some ([], after)
      | _, _ => none

/-- The last segment of the name. -/
def basename (t : EntityType) : String :=
  match cutLast? t.name.toList with
  | some (_, after) => String.ofList after
  | none => t.name

/-- All before the last segment of the name; empty without a namespace. -/
def namespaceName (t : EntityType) : String :=
  match cutLast? t.name.toList with
  | some (before, _) => String.ofList before
  | none => ""

/-- The name within a namespace, unless it is in one already. -/
def qualified (space name : String) : EntityType :=
  if space.isEmpty || (cutLast? name.toList).isSome then ⟨name⟩ else ⟨space ++ "::" ++ name⟩

/-- The basename of all types of actions. -/
def actionBasename : String := "Action"

/-- The type of the actions of a namespace. -/
def actionIn (space : String) : EntityType := qualified space actionBasename

/-- Whether the entities of the type are actions. -/
def isAction (t : EntityType) : Bool := t.basename == actionBasename

end EntityType

/-! ## 2. Uids -/

/-- The name of an entity: its type and its id within the type. -/
structure EntityUid where
  type : EntityType
  id : String
  deriving DecidableEq, Repr, Inhabited

namespace EntityUid

/-- Uids are ordered by type, then by id. -/
instance : Ord EntityUid := ⟨compareLex (compareOn type) (compareOn id)⟩

instance : Std.TransOrd EntityUid :=
  inferInstanceAs (Std.TransCmp (compareLex (compareOn type) (compareOn id)))

theorem compare_def (a b : EntityUid) :
    compare a b = (compare a.type b.type).then (compare a.id b.id) := rfl

instance : Std.LawfulEqOrd EntityUid where
  compare_self {a} := by simp [Std.ReflCmp.compare_self]
  eq_of_compare {a b} h := by
    obtain ⟨ht, hi⟩ := Ordering.then_eq_eq.1 ((compare_def a b).symm.trans h)
    cases a; cases b
    cases Std.LawfulEqCmp.eq_of_compare ht
    cases Std.LawfulEqCmp.eq_of_compare hi
    rfl

/-- Whether the entity is an action. -/
def isAction (u : EntityUid) : Bool := u.type.isAction

/-- One character of an id as it is written. -/
def escapeChar : Char → List Char
  | '"' => ['\\', '"']
  | '\\' => ['\\', '\\']
  | '\n' => ['\\', 'n']
  | '\t' => ['\\', 't']
  | c => [c]

/-- The characters of a uid as it is written. -/
def chars (u : EntityUid) : List Char :=
  u.type.name.toList ++ [':', ':', '"'] ++ u.id.toList.flatMap escapeChar ++ ['"']

/-- A uid as text, `Type::"id"`. -/
def render (u : EntityUid) : String := String.ofList u.chars

instance : ToString EntityUid := ⟨render⟩

end EntityUid

/-- Why a text names no entity or no type. -/
inductive UidError where
  /-- The text is not a name of a type. -/
  | typeName (name : String)
  /-- No id in quotes stands in the text. -/
  | noReference (text : String)
  /-- The text does not end in a quote. -/
  | unterminated (text : String)
  /-- A quote inside the id has no backslash. -/
  | bareQuote (id : String)
  /-- A backslash stands before a character that has no escape, or at the end. -/
  | badEscape (id : String) (escaped : Option Char)
  deriving DecidableEq, Repr

/-- A text that names nothing is a literal that cannot be read. -/
instance : Reported UidError where
  kind _ := .parse
  detail
    | .typeName name => s!"`{name}` is not a valid entity type name"
    | .noReference text => s!"`{text}` is not an entity reference"
    | .unterminated text => s!"unterminated entity id in `{text}`"
    | .bareQuote id => s!"unescaped quote in entity id `{id}`"
    | .badEscape id escaped =>
      let shown := String.ofList ('\\' :: escaped.toList)
      s!"invalid escape `{shown}` in entity id `{id}`"

/-- The type with a given name. -/
def EntityType.parse (name : String) : Except UidError EntityType :=
  match EntityType.parse? name with
  | some t => .ok t
  | none => .error (.typeName name)

namespace EntityUid

/-- What a character behind a backslash stands for. -/
def unescape? : Char → Option Char
  | '"' => some '"'
  | '\'' => some '\''
  | '\\' => some '\\'
  | 'n' => some '\n'
  | 't' => some '\t'
  | 'r' => some '\r'
  | '0' => some '\x00'
  | _ => none

/-- Reads the escapes of an id; `raw` is the whole id, for the report. -/
def unescape (raw : String) : List Char → Except UidError (List Char)
  | [] => .ok []
  | '\\' :: c :: r =>
    match unescape? c with
    | some d => (unescape raw r).map (d :: ·)
    | none => .error (.badEscape raw (some c))
  | ['\\'] => .error (.badEscape raw none)
  | c :: r => if c = '"' then .error (.bareQuote raw) else (unescape raw r).map (c :: ·)

/-- Cuts a text at the first `::"`, which is left out. -/
def cutReference? : List Char → Option (List Char × List Char)
  | [] => none
  | ':' :: ':' :: '"' :: r => some ([], r)
  | c :: r => (cutReference? r).map fun (before, after) => (c :: before, after)

/-- A text without the quote at its end. -/
def dropLastQuote? (cs : List Char) : Option (List Char) :=
  match cs.reverse with
  | '"' :: r => some r.reverse
  | _ => none

/-- Reads `Type::"id"`, blanks around it aside.  The type is looked at before the escapes. -/
def parse (text : String) : Except UidError EntityUid := do
  let text := Text.trim text
  match cutReference? text.toList with
  | none => .error (.noReference text)
  | some (type, rest) =>
    match dropLastQuote? rest with
    | none => .error (.unterminated text)
    | some raw =>
      let type ← EntityType.parse (String.ofList type)
      let id ← unescape (String.ofList raw) raw
      return ⟨type, String.ofList id⟩

/-! ## 3. Documents -/

/-- The document of a uid. -/
def toJson (u : EntityUid) : Json :=
  .object [("type", .string u.type.name), ("id", .string u.id)]

/-- The name of the field that marks a reference to an entity among other values. -/
def escapeKey : String := "__entity"

/-- Reads type and id. -/
def ofPlainJson? (j : Json) : Option EntityUid :=
  match j.fields? ["type", "id"] with
  | some [some (.string type), some (.string id)] => some ⟨⟨type⟩, id⟩
  | _ => none

/-- Reads type and id from inside the field that marks a reference. -/
def ofEscapedJson? : Json → Option EntityUid
  | .object fields =>
    match Json.field? escapeKey fields with
    | some (some inner) => ofPlainJson? inner
    | _ => none
  | _ => none

/-- Reads a uid with or without its mark.  The name of the type may be any text. -/
def ofJson? (j : Json) : Option EntityUid :=
  (ofEscapedJson? j).or (ofPlainJson? j)

end EntityUid

end Arbiter
