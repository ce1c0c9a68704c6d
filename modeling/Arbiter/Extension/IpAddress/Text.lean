/-
# IP addresses as text

Four octets in decimal, or eight groups in hexadecimal of which the longest run of zeros may be
left out as `::` and the last two may be written as octets; behind a slash the length of the
network part.  The two forms, with and without a slash, are read by slightly different rules: an
address by itself takes no octet with a zero in front and lets `::` stand for one group at least;
a network takes such octets and lets `::` stand for nothing.
-/
import Arbiter.Extension.IpAddress

namespace Arbiter.IpAddress

/-! ## 1. Reading -/

/-- The rules in which addresses and networks differ. -/
structure Rules where
  /-- Whether an octet may start with a zero that is not its only digit. -/
  leadingZeros : Bool
  /-- The least number of groups that `::` stands for. -/
  leastRun : Nat

/-- The rules for an address by itself. -/
def addressRules : Rules := ⟨false, 1⟩

/-- The rules for a network. -/
def networkRules : Rules := ⟨true, 0⟩

/-- The value of a digit to a base of at most 16. -/
def digitValue? (base : Nat) (c : Char) : Option Nat :=
  let v :=
    if '0' ≤ c ∧ c ≤ '9' then c.toNat - '0'.toNat
    else if 'a' ≤ c ∧ c ≤ 'f' then c.toNat - 'a'.toNat + 10
    else if 'A' ≤ c ∧ c ≤ 'F' then c.toNat - 'A'.toNat + 10
    else base
  if v < base then some v else none

/-- The digits at the start of a text, and the rest. -/
def takeDigits (base : Nat) : List Char → List Nat × List Char
  | [] => ([], [])
  | c :: r =>
    match digitValue? base c with
    | some d => let (ds, rest) := takeDigits base r; (d :: ds, rest)
    | none => ([], c :: r)

/-- Reads a number below `limit` of at most `width` digits. -/
def readNumber? (base width limit : Nat) (leadingZeros : Bool) (cs : List Char) :
    Option (Nat × List Char) :=
  match takeDigits base cs with
  | ([], _) => none
  | (ds, rest) =>
    let n := ds.foldl (fun n d => n * base + d) 0
    if width < ds.length || limit ≤ n then none
    else if !leadingZeros && ds.head? == some 0 && 1 < ds.length then none
    else some (n, rest)

/-- Reads a given character. -/
def readChar? (c : Char) : List Char → Option (List Char)
  | d :: r => if c = d then some r else none
  | [] => none

/-- Reads an octet. -/
def readOctet? (rules : Rules) (cs : List Char) : Option (Nat × List Char) :=
  readNumber? 10 3 256 rules.leadingZeros cs

/-- Reads four octets with points between them, as one number. -/
def readV4? (rules : Rules) (cs : List Char) : Option (Nat × List Char) := do
  let (a, cs) ← readOctet? rules cs
  let (b, cs) ← readOctet? rules (← readChar? '.' cs)
  let (c, cs) ← readOctet? rules (← readChar? '.' cs)
  let (d, cs) ← readOctet? rules (← readChar? '.' cs)
  return (((a * 256 + b) * 256 + c) * 256 + d, cs)

/-- The groups read from the start of a text: their values, whether the last two were written as
octets, and the rest. -/
structure Groups where
  values : List Nat
  octets : Bool
  rest : List Char

/-- Steps over the colon in front of a group; there is none in front of the first. -/
def beforeGroup? (isFirst : Bool) (cs : List Char) : Option (List Char) :=
  if isFirst then some cs else readChar? ':' cs

/-- Reads at most `room` groups with colons between them. -/
def readGroups (rules : Rules) : (room : Nat) → (isFirst : Bool) → List Char → Groups
  | 0, _, cs => ⟨[], false, cs⟩
  | room + 1, isFirst, cs =>
    let v4 := if room = 0 then none else do readV4? rules (← beforeGroup? isFirst cs)
    match v4 with
    | some (n, rest) => ⟨[n / 65536, n % 65536], true, rest⟩
    | none =>
      match do readNumber? 16 4 65536 true (← beforeGroup? isFirst cs) with
      | some (g, rest) =>
        let gs := readGroups rules room false rest
        ⟨g :: gs.values, gs.octets, gs.rest⟩
      | none => ⟨[], false, cs⟩

/-- The number of groups of a long address. -/
def groupCount : Nat := 8

/-- The number that groups denote. -/
def ofGroups (gs : List Nat) : Nat := gs.foldl (fun n g => n * 65536 + g) 0

/-- Reads eight groups, of which `::` may stand for a run of zeros. -/
def readV6? (rules : Rules) (cs : List Char) : Option (Nat × List Char) :=
  let head := readGroups rules groupCount true cs
  if head.values.length = groupCount then some (ofGroups head.values, head.rest)
  else if head.octets then none
  else do
    let rest ← readChar? ':' (← readChar? ':' head.rest)
    let tail := readGroups rules (groupCount - head.values.length - rules.leastRun) true rest
    let zeros := groupCount - head.values.length - tail.values.length
    return (ofGroups (head.values ++ List.replicate zeros 0 ++ tail.values), tail.rest)

/-- Reads the length of the network part behind its slash. -/
def readLength? (digits width : Nat) (cs : List Char) : Option (Nat × List Char) := do
  readNumber? 10 digits (width + 1) true (← readChar? '/' cs)

/-- What was read, if it is the whole text. -/
def atEnd? {α : Type} : α × List Char → Option α
  | (a, []) => some a
  | _ => none

/-- Reads an address by itself. -/
def parseAddress? (cs : List Char) : Option IpAddress :=
  match readV4? addressRules cs with
  | some r => (atEnd? r).map fun n => ofV4 (BitVec.ofNat 32 n)
  | none => (readV6? addressRules cs).bind fun r => (atEnd? r).map fun n => ofV6 (BitVec.ofNat 128 n)

/-- Reads four octets and a length. -/
def readNetwork4? (cs : List Char) : Option (IpAddress × List Char) := do
  let (n, cs) ← readV4? networkRules cs
  let (len, cs) ← readLength? 2 32 cs
  if h : len ≤ 32 then return (.v4 ⟨BitVec.ofNat 32 n, len, h⟩, cs) else none

/-- Reads eight groups and a length. -/
def readNetwork6? (cs : List Char) : Option (IpAddress × List Char) := do
  let (n, cs) ← readV6? networkRules cs
  let (len, cs) ← readLength? 3 128 cs
  if h : len ≤ 128 then return (.v6 ⟨BitVec.ofNat 128 n, len, h⟩, cs) else none

/-- Reads a network. -/
def parseNetwork? (cs : List Char) : Option IpAddress :=
  ((readNetwork4? cs).or (readNetwork6? cs)).bind atEnd?

/-- Reads an address or a network, which has a slash. -/
def parse? (text : String) : Option IpAddress :=
  let cs := text.toList
  if cs.contains '/' then parseNetwork? cs else parseAddress? cs

/-! ## 2. Writing -/

/-- A number in decimal. -/
def decimal (n : Nat) : List Char := Nat.toDigits 10 n

/-- The octets of an address with points between them. -/
def charsV4 (n : Nat) : List Char :=
  decimal (n / 0x1000000 % 256) ++ '.' :: decimal (n / 0x10000 % 256)
    ++ '.' :: decimal (n / 256 % 256) ++ '.' :: decimal (n % 256)

/-- The last groups of a number, as many as asked for. -/
def groupsOf : (count : Nat) → Nat → List Nat
  | 0, _ => []
  | count + 1, n => groupsOf count (n / 65536) ++ [n % 65536]

/-- The groups in hexadecimal with colons between them. -/
def charsGroups (gs : List Nat) : List Char :=
  [':'].intercalate (gs.map (Nat.toDigits 16))

/-- The length of the run of zeros at the start. -/
def zeroRun (gs : List Nat) : Nat := (gs.takeWhile (· == 0)).length

/-- Start and length of the first of the longest runs of zeros in groups of which the first has
the given index. -/
def longestRun : (index : Nat) → List Nat → Nat × Nat
  | _, [] => (0, 0)
  | index, g :: gs =>
    let here := zeroRun (g :: gs)
    let later := longestRun (index + 1) gs
    if later.2 ≤ here then (index, here) else later

/-- An address of eight groups: one that carries four octets shows them, and the longest run of
two or more zeros is left out. -/
def charsV6 (n : Nat) : List Char :=
  let gs := groupsOf groupCount n
  if n / 0x100000000 = 0xffff then "::ffff:".toList ++ charsV4 (n % 0x100000000)
  else
    let (start, length) := longestRun 0 gs
    if 1 < length then
      charsGroups (gs.take start) ++ [':', ':'] ++ charsGroups (gs.drop (start + length))
    else charsGroups gs

/-- The characters of an address without its length. -/
def addrChars : IpAddress → List Char
  | .v4 n => charsV4 n.addr.toNat
  | .v6 n => charsV6 n.addr.toNat

/-- An address without its length. -/
def renderAddr (a : IpAddress) : String := String.ofList a.addrChars

/-- An address with the length of its network part. -/
def render (a : IpAddress) : String :=
  String.ofList (a.addrChars ++ '/' :: decimal a.len)

end Arbiter.IpAddress
