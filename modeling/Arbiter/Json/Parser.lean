/-
# Reading JSON texts

From text to draft and from text to value.  `Json.parse?` accepts one value with blanks around it;
the grammar is that of JSON, without extensions.  The functions that follow the nesting of a text
have as much fuel as the text has characters, and every step takes at least one of them.
-/
import Arbiter.Json.Draft
import Arbiter.Json.Numeral

namespace Arbiter.Json

/-- The four blanks of JSON. -/
def isBlank (c : Char) : Bool := c == ' ' || c == '\n' || c == '\t' || c == '\r'

/-- The text from its first character that is no blank. -/
def skipBlanks (cs : List Char) : List Char := cs.dropWhile isBlank

/-! ## 1. Strings -/

/-- The value of a hexadecimal digit. -/
def hexValue? (c : Char) : Option Nat :=
  if '0' ≤ c ∧ c ≤ '9' then some (c.toNat - '0'.toNat)
  else if 'a' ≤ c ∧ c ≤ 'f' then some (c.toNat - 'a'.toNat + 10)
  else if 'A' ≤ c ∧ c ≤ 'F' then some (c.toNat - 'A'.toNat + 10)
  else none

/-- The value of four hexadecimal digits. -/
def hexValue4? (a b c d : Char) : Option Nat := do
  return (((← hexValue? a) * 16 + (← hexValue? b)) * 16 + (← hexValue? c)) * 16 + (← hexValue? d)

/-- What a character behind a backslash stands for, `u` apart. -/
def unescape? : Char → Option Char
  | '"' => some '"'
  | '\\' => some '\\'
  | '/' => some '/'
  | 'b' => some '\x08'
  | 'f' => some '\x0c'
  | 'n' => some '\n'
  | 'r' => some '\r'
  | 't' => some '\t'
  | _ => none

/-- Whether a code unit opens a surrogate pair. -/
def isHighSurrogate (u : Nat) : Bool := 0xd800 ≤ u && u < 0xdc00

/-- Whether a code unit closes a surrogate pair. -/
def isLowSurrogate (u : Nat) : Bool := 0xdc00 ≤ u && u < 0xe000

/-- The characters of a string so far, last one first; `none` once one of them is unreadable. -/
abbrev Gathered := Option (List Char)

/-- Adds a character; behind an open surrogate pair nothing is readable any more. -/
def Gathered.push (acc : Gathered) (opened : Option Nat) (c : Char) : Gathered :=
  if opened.isSome then none else acc.map (c :: ·)

/-- Reads a string from behind its opening quote.  `opened` is the first half of a surrogate pair
that stands right before.  Yields the text, if it is readable, and what comes behind the closing
quote; nothing when the text is not JSON. -/
def scanString (acc : Gathered) (opened : Option Nat) :
    List Char → Option (Option String × List Char)
  | [] => none
  | '"' :: r =>
    some (if opened.isSome then none else acc.map fun cs => String.ofList cs.reverse, r)
  | '\\' :: 'u' :: a :: b :: c :: d :: r =>
    match hexValue4? a b c d, opened with
    | none, _ => none
    | some u, some high =>
      if isLowSurrogate u then
        scanString (acc.map (Char.ofNat (0x10000 + (high - 0xd800) * 0x400 + (u - 0xdc00)) :: ·))
          none r
      else scanString none none r
    | some u, none =>
      if isHighSurrogate u then scanString acc (some u) r
      else if isLowSurrogate u then scanString none none r
      else scanString (acc.map (Char.ofNat u :: ·)) none r
  | '\\' :: e :: r =>
    match unescape? e with
    | some c => scanString (acc.push opened c) none r
    | none => none
  | ['\\'] => none
  | c :: r => if c.toNat < 0x20 then none else scanString (acc.push opened c) none r

/-! ## 2. Numerals -/

/-- The value of a decimal digit. -/
def digit? (c : Char) : Option Nat :=
  if '0' ≤ c ∧ c ≤ '9' then some (c.toNat - '0'.toNat) else none

/-- The digits at the start of a text, and the rest. -/
def scanDigits : List Char → List Nat × List Char
  | [] => ([], [])
  | c :: r =>
    match digit? c with
    | some d => let (ds, rest) := scanDigits r; (d :: ds, rest)
    | none => ([], c :: r)

/-- The digits before the point: one zero, or digits that start with another one. -/
def scanWhole? (cs : List Char) : Option (List Nat × List Char) :=
  match scanDigits cs with
  | ([], _) => none
  | (0 :: _ :: _, _) => none
  | p => some p

/-- The digits behind the point, if there is one. -/
def scanFraction? : List Char → Option (Option (List Nat) × List Char)
  | '.' :: r =>
    match scanDigits r with
    | ([], _) => none
    | (ds, rest) => some (some ds, rest)
  | cs => some (none, cs)

/-- The exponent, if there is one. -/
def scanExponent? (cs : List Char) : Option (Option (Bool × List Nat) × List Char) :=
  let digits (down : Bool) (r : List Char) :=
    match scanDigits r with
    | ([], _) => none
    | (ds, rest) => some (some (down, ds), rest)
  let signed : List Char → Option (Option (Bool × List Nat) × List Char)
    | '-' :: r => digits true r
    | '+' :: r => digits false r
    | r => digits false r
  match cs with
  | 'e' :: r => signed r
  | 'E' :: r => signed r
  | r => some (none, r)

/-- Reads a numeral. -/
def scanNumeral? (cs : List Char) : Option (Numeral × List Char) := do
  let (negative, cs) := match cs with
    | '-' :: r => (true, r)
    | r => (false, r)
  let (whole, cs) ← scanWhole? cs
  let (fraction, cs) ← scanFraction? cs
  let (exponent, cs) ← scanExponent? cs
  return ({ negative, whole, fraction, exponent }, cs)

/-! ## 3. Values -/

/-- What comes behind a given word. -/
def afterWord? : List Char → List Char → Option (List Char)
  | [], cs => some cs
  | w :: ws, c :: cs => if w == c then afterWord? ws cs else none
  | _ :: _, [] => none

/-- A draft with the text behind it; no text when it cannot be read to its end. -/
abbrev Scanned := Draft × Option (List Char)

/-- Reads a word that stands for a value. -/
def scanWord (word : List Char) (value : Draft) (cs : List Char) : Scanned :=
  match afterWord? word cs with
  | some rest => (value, some rest)
  | none => (.broken, none)

mutual

/-- Reads a value, blanks before it included. -/
def scanValue : Nat → List Char → Scanned
  | 0, _ => (.broken, none)
  | fuel + 1, cs =>
    match skipBlanks cs with
    | 'n' :: r => scanWord ['u', 'l', 'l'] .null r
    | 't' :: r => scanWord ['r', 'u', 'e'] (.bool true) r
    | 'f' :: r => scanWord ['a', 'l', 's', 'e'] (.bool false) r
    | '"' :: r =>
      match scanString (some []) none r with
      | some (s, rest) => (.string s, some rest)
      | none => (.broken, none)
    | '[' :: r =>
      match skipBlanks r with
      | ']' :: rest => (.array [] true, some rest)
      | rest =>
        let (items, after) := scanItems fuel rest
        (.array items after.isSome, after)
    | '{' :: r =>
      match skipBlanks r with
      | '}' :: rest => (.object [] true, some rest)
      | rest =>
        let (fields, after) := scanFields fuel rest
        (.object fields after.isSome, after)
    | c :: r =>
      if c == '-' || (digit? c).isSome then
        match scanNumeral? (c :: r) with
        | some (n, rest) => (.number n.value?, some rest)
        | none => (.broken, none)
      else (.broken, none)
    | [] => (.broken, none)
termination_by structural fuel => fuel

/-- Reads the items of an array up to its closing bracket; there is at least one. -/
def scanItems : Nat → List Char → List Draft × Option (List Char)
  | 0, _ => ([], none)
  | fuel + 1, cs =>
    match scanValue fuel cs with
    | (d, none) => ([d], none)
    | (d, some rest) =>
      match skipBlanks rest with
      | ']' :: rest => ([d], some rest)
      | ',' :: rest => let (ds, after) := scanItems fuel rest; (d :: ds, after)
      | _ => ([d], none)
termination_by structural fuel => fuel

/-- Reads the fields of an object up to its closing brace; there is at least one. -/
def scanFields : Nat → List Char → List (Option String × Draft) × Option (List Char)
  | 0, _ => ([], none)
  | fuel + 1, cs =>
    match skipBlanks cs with
    | '"' :: r =>
      match scanString (some []) none r with
      | none => ([], none)
      | some (name, r) =>
        match skipBlanks r with
        | ':' :: r =>
          match scanValue fuel r with
          | (d, none) => ([(name, d)], none)
          | (d, some rest) =>
            match skipBlanks rest with
            | '}' :: rest => ([(name, d)], some rest)
            | ',' :: rest => let (fs, after) := scanFields fuel rest; ((name, d) :: fs, after)
            | _ => ([(name, d)], none)
        | _ => ([(name, .broken)], none)
    | _ => ([], none)
termination_by structural fuel => fuel

end

/-- What reading a text yields: the draft of the value in it, and whether only blanks follow. -/
structure Reading where
  draft : Draft
  ended : Bool

/-- Reads a text. -/
def read (text : String) : Reading :=
  let cs := text.toList
  let (draft, after) := scanValue (2 * cs.length + 2) cs
  { draft, ended := after.any fun rest => (skipBlanks rest).isEmpty }

/-- The value that stands in a text, fields as they are written. -/
def parseRaw? (depth : Nat) (text : String) : Option Json :=
  let r := read text
  if r.ended then r.draft.value? depth else none

/-- The value that stands in a text, in canonical form. -/
def parse? (text : String) : Option Json :=
  (parseRaw? Draft.maxDepth text).map sorted

end Arbiter.Json
