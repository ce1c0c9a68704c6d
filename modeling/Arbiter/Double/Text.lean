/-
# Doubles as text

Doubles are written with the fewest digits that read back: positionally, with at least one digit
after the point, while the decimal exponent is at least -5 and below 16, and with an exponent
that carries its sign otherwise.
-/
import Arbiter.Double.Shortest

namespace Arbiter.Double

/-- Where positional notation ends. -/
structure TextFormat where
  /-- The least decimal exponent that is written positionally. -/
  lowest : Int
  /-- The first decimal exponent above those written positionally. -/
  limit : Int

/-- Exponents from -5 to 15 are written positionally. -/
def textFormat : TextFormat := ⟨-5, 16⟩

/-- The digits of a numeral without the zeros at its end, and the exponent of the first one. -/
def Decimal.scientific (d : Decimal) : List Char × Int :=
  let ds := Nat.toDigits 10 d.digits
  ((ds.reverse.dropWhile (· == '0')).reverse, d.exponent + (ds.length : Int) - 1)

/-- A numeral in the notation that `f` prescribes. -/
def Decimal.render (f : TextFormat) (d : Decimal) : List Char :=
  let (ds, e) := d.scientific
  if f.lowest ≤ e && e < f.limit then
    if e < 0 then ['0', '.'] ++ List.replicate ((-e).toNat - 1) '0' ++ ds
    else
      let whole := ds.take (e.toNat + 1)
      let zeros := List.replicate (e.toNat + 1 - ds.length) '0'
      let rest := ds.drop (e.toNat + 1)
      whole ++ zeros ++ ['.'] ++ (if rest.isEmpty then ['0'] else rest)
  else
    let tail := ds.drop 1
    ds.take 1 ++ (if tail.isEmpty then [] else '.' :: tail)
      ++ ['e', if e < 0 then '-' else '+'] ++ Nat.toDigits 10 e.natAbs

/-- A double as text; what is no number has none. -/
def render (x : Float) : String :=
  let bits := x.toBits
  let sign := if bits < 0x8000000000000000 then [] else ['-']
  match Binary.ofBits bits with
  | some b => String.ofList (sign ++ b.shortest.render textFormat)
  | none => if bits <<< 1 = 0 then String.ofList (sign ++ ['0', '.', '0']) else "null"

end Arbiter.Double
