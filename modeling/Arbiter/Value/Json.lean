/-
# Documents of values

Booleans, integers and strings are themselves, arrays are sets and objects are records.  An object
with a single field of one of three names stands for something else:

* `__entity` holds an entity, by type and id;
* `__extn` holds an extension value, by constructor and argument, the argument being a document of
  a string or of an extension value;
* `__expr` holds the text of a constructor call, `decimal("0.5")`, or of an entity, `User::"ann"`.

Values are written with the first two.
-/
import Arbiter.Json.Parser
import Arbiter.Json.Printer
import Arbiter.Value.Call

namespace Arbiter

/-- Why a document is not the document of a value. -/
inductive ValueError where
  /-- `null` is no value. -/
  | null
  /-- A number is not a 64-bit integer. -/
  | notLong (n : JsonNumber)
  /-- `__entity` does not hold an entity. -/
  | badEntity
  /-- `__extn` does not hold a constructor and an argument. -/
  | badExtension (doc : Json)
  /-- The argument in `__extn` is no text. -/
  | badArgument (v : Value)
  /-- `__expr` does not hold a string. -/
  | exprNotString
  /-- `__expr` holds neither a constructor call nor an entity. -/
  | badExpr (text : String)
  /-- There is no such extension value. -/
  | construct (cause : EvalError)

namespace Value

/-- The field that marks an extension value. -/
def extensionKey : String := "__extn"

/-- The field that marks a value given as text. -/
def exprKey : String := "__expr"

end Value

/-- A document that is not the document of a value is of the wrong form. -/
instance : Reported ValueError where
  kind _ := .format
  detail
    | .null => "null is not a valid value"
    | .notLong n => "`" ++ n.render ++ "` is not a 64-bit integer"
    | .badEntity => "<json>"
    | .badExtension doc => "`" ++ Value.extensionKey ++ "` needs `fn` and `arg`, got " ++ doc.compact
    | .badArgument v => s!"`{Value.extensionKey}` argument must be a string, got {v}"
    | .exprNotString => s!"`{Value.exprKey}` must hold a string"
    | .badExpr text =>
      s!"`{Value.exprKey}` must be an extension call or an entity literal, got `{text}`"
    | .construct cause => cause.message

/-- The 64-bit integer that a number is. -/
def JsonNumber.long? : JsonNumber → Option Int64
  | .int n => Long.ofInt? n
  | .real _ => none

namespace Value

/-! ## 1. Calls as text -/

/-- A constructor call as it stands in a text: the name, and what stands between the quotes. -/
structure CallText where
  name : List Char
  argument : List Char

/-- What stands before the closing quote, and what comes behind it.  A backslash goes with the
character behind it, which is not a line feed. -/
def untilQuote? : List Char → Option (List Char × List Char)
  | [] => none
  | '"' :: r => some ([], r)
  | '\\' :: c :: r =>
    if c = '\n' then none else (untilQuote? r).map fun (cs, rest) => ('\\' :: c :: cs, rest)
  | ['\\'] => none
  | c :: r => (untilQuote? r).map fun (cs, rest) => (c :: cs, rest)

/-- What comes behind a character, blanks before it aside. -/
def afterMark? (mark : Char) (cs : List Char) : Option (List Char) :=
  match cs.dropWhile Text.isBlank with
  | c :: r => if c = mark then some r else none
  | [] => none

/-- Reads an identifier with one string in quotes and parentheses behind it; blanks may stand
between the parts and around them. -/
def CallText.ofChars? (cs : List Char) : Option CallText := do
  let cs := cs.dropWhile Text.isBlank
  let name := cs.takeWhile EntityType.isIdentifierRest
  if !EntityType.isIdentifier name then none
  let cs ← afterMark? '(' (cs.dropWhile EntityType.isIdentifierRest)
  let cs ← afterMark? '"' cs
  let (argument, cs) ← untilQuote? cs
  let cs ← afterMark? ')' cs
  if cs.all Text.isBlank then some { name, argument } else none

/-- The characters with a backslash and `c` replaced by `c` alone, from left to right. -/
def dropBackslash (c : Char) : List Char → List Char
  | '\\' :: d :: r => if d = c then c :: dropBackslash c r else '\\' :: dropBackslash c (d :: r)
  | d :: r => d :: dropBackslash c r
  | [] => []

/-- The argument of a call: the backslashes before quotes are dropped, then those before
backslashes. -/
def CallText.text (t : CallText) : String :=
  String.ofList (dropBackslash '\\' (dropBackslash '"' t.argument))

/-- The extension value of a constructor and an argument. -/
def ofCall (name text : String) : Except ValueError Value :=
  match ExtensionValue.construct name text with
  | .ok v => .ok (.ext v)
  | .error cause => .error (.construct cause)

/-- The value that a text stands for: a constructor call or an entity. -/
def ofExprText (text : String) : Except ValueError Value :=
  match CallText.ofChars? text.toList with
  | some t => ofCall (String.ofList t.name) t.text
  | none =>
    match EntityUid.parse text with
    | .ok uid => .ok (.entity uid)
    | .error _ => .error (.badExpr text)

/-- The text that the argument of an extension value stands for. -/
def argumentText : Value → Except ValueError String
  | .string s => .ok s
  | .ext v => .ok v.argument
  | v => .error (.badArgument v)

/-! ## 2. Reading -/

mutual

/-- The value of a document. -/
def ofJson : Json → Except ValueError Value
  | .null => .error .null
  | .bool b => .ok (.bool b)
  | .number n =>
    match n.long? with
    | some k => .ok (.long k)
    | none => .error (.notLong n)
  | .string s => .ok (.string s)
  | .array items => (listOfJson items).map setOf
  | .object [(key, inner)] =>
    if key = EntityUid.escapeKey then
      match EntityUid.ofJson? inner with
      | some uid => .ok (.entity uid)
      | none => .error .badEntity
    else if key = extensionKey then
      match inner with
      | .object fields =>
        match fields.lookup "fn", (fields.lookup "arg").isSome with
        | some (.string name), true => do
          ofCall name (← argumentText (← argumentOfJson fields))
        | _, _ => .error (.badExtension (.object fields))
      | other => .error (.badExtension other)
    else if key = exprKey then
      match inner with
      | .string text => ofExprText text
      | _ => .error .exprNotString
    else do
      return recordOf [(key, ← ofJson inner)]
  | .object fields => (fieldsOfJson fields).map recordOf
termination_by structural j => j

/-- The values of the items of an array. -/
def listOfJson : List Json → Except ValueError (List Value)
  | [] => .ok []
  | j :: r => do return (← ofJson j) :: (← listOfJson r)
termination_by structural l => l

/-- The values of the fields of an object. -/
def fieldsOfJson : List (String × Json) → Except ValueError (List (String × Value))
  | [] => .ok []
  | (name, j) :: r => do return (name, ← ofJson j) :: (← fieldsOfJson r)
termination_by structural l => l

/-- The value of the first field named `arg`. -/
def argumentOfJson : List (String × Json) → Except ValueError Value
  | [] => .error .null
  | (name, j) :: r => if "arg" == name then ofJson j else argumentOfJson r
termination_by structural l => l

end

/-- The value of the document in a draft. -/
def ofDraft (depth : Nat) (d : Draft) : Except (DocumentError ValueError) Value := do
  let j ← wellFormed (d.value? depth)
  refusing (ofJson j.sorted)

/-- The value of the document in a text. -/
def parse (text : String) : Except (DocumentError ValueError) Value := do
  let r := Json.read text
  let v ← ofDraft Draft.maxDepth r.draft
  if r.ended then return v else .error .malformed

/-! ## 3. Writing -/

/-- The document of an entity among other values. -/
def entityJson (uid : EntityUid) : Json :=
  .single EntityUid.escapeKey
    (.object [("id", .string uid.id), ("type", .string uid.type.name)])

/-- The document of an extension value. -/
def extensionJson (v : ExtensionValue) : Json :=
  .single extensionKey
    (.object [("arg", .string v.argument),
      ("fn", .string (ExtensionFunction.makeName v.kind))])

mutual

/-- The document of a value. -/
def toJson : Value → Json
  | .bool b => .bool b
  | .long n => .int n.toInt
  | .string s => .string s
  | .entity uid => entityJson uid
  | .set elems => .array (listToJson elems)
  | .record attrs => .object (fieldsToJson attrs)
  | .ext v => extensionJson v
termination_by structural v => v

/-- The documents of the elements of a set. -/
def listToJson : List Value → List Json
  | [] => []
  | v :: r => v.toJson :: listToJson r
termination_by structural l => l

/-- The documents of the attributes of a record. -/
def fieldsToJson : List (String × Value) → List (String × Json)
  | [] => []
  | (name, v) :: r => (name, v.toJson) :: fieldsToJson r
termination_by structural l => l

end

end Value

end Arbiter
