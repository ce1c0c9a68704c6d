/-
# The shortest decimal of a double

The decimal numeral with the fewest digits that reads back as a given finite double, and of those
the nearest.  A double is `m * 2^q`; the reals that round to it are an interval around it, with
its ends when `m` is even.  On the grid of the numerals with `n` digits the candidates are the
two neighbours of the double, so it is enough to test them for `n = 1, 2, …`.
-/

namespace Arbiter.Double

/-- A finite positive double `mantissa * 2^exponent` with the width of the gap below it: half of
the gap above it when `mantissa` is the least of its binade. -/
structure Binary where
  mantissa : Nat
  exponent : Int
  halfGapBelow : Bool
  deriving Repr, DecidableEq

/-- The number of mantissas of a binade, and the least of them. -/
def binade : Nat := 0x10000000000000

/-- The magnitude of a finite double; `none` for zero, infinity and what is not a number. -/
def Binary.ofBits (bits : UInt64) : Option Binary :=
  let biased := (bits >>> 52).toNat % 2048
  let fraction := bits.toNat % binade
  if biased = 2047 then none
  else if biased = 0 then
    if fraction = 0 then none else some ⟨fraction, -1074, false⟩
  else some ⟨binade + fraction, (biased : Int) - 1075, fraction = 0 && biased > 1⟩

/-- The numbers `low ≤ value ≤ high`, over one denominator, between which all reals round to the
double; `closed` tells whether the ends do. -/
structure Interval where
  low : Nat
  value : Nat
  high : Nat
  den : Nat
  closed : Bool

/-- The interval of the reals that round to a double, in quarters of its unit in the last place. -/
def Binary.interval (b : Binary) : Interval :=
  let up := Nat.pow 2 b.exponent.toNat
  let down := Nat.pow 2 (-b.exponent).toNat
  { low := (4 * b.mantissa - (if b.halfGapBelow then 1 else 2)) * up
    value := 4 * b.mantissa * up
    high := (4 * b.mantissa + 2) * up
    den := 4 * down
    closed := b.mantissa % 2 = 0 }

/-- A decimal numeral `digits * 10^exponent`. -/
structure Decimal where
  digits : Nat
  exponent : Int
  deriving Repr, DecidableEq

/-- The numerator and the denominator of `10^e`. -/
def tenPower (e : Int) : Nat × Nat := (Nat.pow 10 e.toNat, Nat.pow 10 (-e).toNat)

/-- Whether a decimal lies in the interval. -/
def Interval.contains (i : Interval) (d : Decimal) : Bool :=
  let (t, u) := tenPower d.exponent
  let x := d.digits * t * i.den
  let lo := i.low * u
  let hi := i.high * u
  if i.closed then lo ≤ x && x ≤ hi else lo < x && x < hi

/-- The exponent `e` with `10^e ≤ value < 10^(e+1)`. -/
def Interval.magnitude (i : Interval) : Int :=
  if i.den ≤ i.value then ((Nat.toDigits 10 (i.value / i.den)).length : Int) - 1
  else
    let l := (Nat.toDigits 10 (i.den / i.value)).length
    if i.den ≤ i.value * Nat.pow 10 (l - 1) then 1 - (l : Int) else -(l : Int)

/-- The best numeral on the grid `10^e`: the nearer of the two neighbours that lie in the
interval, the even one when both are as near. -/
def Interval.onGrid? (i : Interval) (e : Int) : Option Decimal :=
  let (t, u) := tenPower e
  let d := i.value * u / (i.den * t)
  let below : Decimal := ⟨d, e⟩
  let above : Decimal := ⟨d + 1, e⟩
  let twiceBelow := 2 * (i.value * u - d * t * i.den)
  let step := t * i.den
  match i.contains below, i.contains above with
  | true, true =>
    if twiceBelow < step || (twiceBelow == step && d % 2 == 0) then some below else some above
  | true, false => some below
  | false, true => some above
  | false, false => none

/-- The best numeral with the fewest digits; seventeen always suffice. -/
def Binary.shortest (b : Binary) : Decimal :=
  let i := b.interval
  let e := i.magnitude
  ((List.range 17).findSome? fun n : Nat => i.onGrid? (e - (n : Int))).getD ⟨b.mantissa, 0⟩

end Arbiter.Double
