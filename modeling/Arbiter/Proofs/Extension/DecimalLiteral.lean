/-
# The number that a decimal literal denotes

A literal is a sign if there is one, digits, a point, and one to four digits.  It denotes a
rational number (`Denotes`), and the decimal that is read from it counts that number in
ten-thousandths exactly (`parse_eq_ok_iff_denotes`).  The only literals that are not read are those
whose count is out of the range of 64 bits (`exists_parse_eq_ok_iff`).
-/
import Mathlib.Algebra.Order.Field.Rat
import Mathlib.Tactic.FieldSimp
import Arbiter.Proofs.Extension.Comparison
import Arbiter.Proofs.Extension.Decimal

namespace Arbiter.Decimal

/-! ## 1. The number of a text -/

/-- The number that a literal denotes. -/
def Literal.value (l : Literal) : ℚ :=
  l.sign * (Nat.ofDigitChars 10 l.whole 0
    + Nat.ofDigitChars 10 l.fraction 0 / 10 ^ l.fraction.length)

/-- The text is a literal with four digits behind the point at most, and denotes the number. -/
def Denotes (text : String) (q : ℚ) : Prop :=
  ∃ l : Literal, l.WellFormed ∧ l.fraction.length ≤ places ∧ l.chars = text.toList ∧ l.value = q

/-- A text denotes one number at most. -/
theorem Denotes.unique {text : String} {q r : ℚ} (hq : Denotes text q) (hr : Denotes text r) :
    q = r := by
  obtain ⟨l, hl, -, hchars, rfl⟩ := hq
  obtain ⟨m, hm, -, hchars', rfl⟩ := hr
  have hlm := (ofChars?_eq_some_iff.mpr ⟨hl, hchars⟩).symm.trans
    (ofChars?_eq_some_iff.mpr ⟨hm, hchars'⟩)
  cases hlm
  rfl

/-! ## 2. The count of units -/

/-- A literal counts its number in units. -/
theorem Literal.cast_units {l : Literal} (h : l.fraction.length ≤ places) :
    (l.units : ℚ) = l.value * 10 ^ places := by
  have hplaces : (10 : ℚ) ^ places
      = 10 ^ (places - l.fraction.length) * 10 ^ l.fraction.length := by
    rw [← pow_add, Nat.sub_add_cancel h]
  rw [units, value, ← digitsValue_eq_ofDigitChars, ← digitsValue_eq_ofDigitChars]
  push_cast
  rw [hplaces]
  field_simp

/-- A text is read when it denotes a number whose count of units is that of a decimal. -/
theorem parse_eq_ok_iff_denotes {text : String} {d : Decimal} : parse text = .ok d ↔
    ∃ q, Denotes text q ∧ (d.scaled.toInt : ℚ) = q * 10 ^ places := by
  rw [parse_eq_ok_iff]
  constructor
  · rintro ⟨l, hform, hlen, hchars, hunits⟩
    refine ⟨l.value, ⟨l, hform, hlen, hchars, rfl⟩, ?_⟩
    rw [← hunits, Literal.cast_units hlen]
  · rintro ⟨_, ⟨l, hform, hlen, hchars, rfl⟩, hunits⟩
    rw [← Literal.cast_units hlen] at hunits
    exact ⟨l, hform, hlen, hchars, (Int.cast_injective hunits).symm⟩

/-- A literal is read unless its count of units is out of the range. -/
theorem exists_parse_eq_ok_iff {text : String} : (∃ d, parse text = .ok d) ↔
    ∃ q, Denotes text q ∧ -2 ^ 63 ≤ q * 10 ^ places ∧ q * 10 ^ places ≤ 2 ^ 63 - 1 := by
  simp only [parse_eq_ok_iff_denotes]
  constructor
  · rintro ⟨d, q, hq, hunits⟩
    have hmin := Int64.minValue_le_toInt d.scaled
    have hmax := Int64.toInt_le d.scaled
    rw [Int64.toInt_minValue] at hmin
    rw [Int64.toInt_maxValue] at hmax
    refine ⟨q, hq, ?_⟩
    rw [← hunits]
    exact ⟨by exact_mod_cast hmin, by exact_mod_cast hmax⟩
  · rintro ⟨_, ⟨l, hform, hlen, hchars, rfl⟩, hmin, hmax⟩
    rw [← Literal.cast_units hlen] at hmin hmax
    have hrange : Int64.minValue.toInt ≤ l.units ∧ l.units ≤ Int64.maxValue.toInt := by
      rw [Int64.toInt_minValue, Int64.toInt_maxValue]
      exact ⟨by exact_mod_cast hmin, by exact_mod_cast hmax⟩
    obtain ⟨scaled, hscaled⟩ := Long.exists_toInt_eq_iff.mpr hrange
    refine ⟨⟨scaled⟩, l.value, ⟨l, hform, hlen, hchars, rfl⟩, ?_⟩
    rw [← Literal.cast_units hlen, hscaled]

/-! ## 3. The order -/

/-- Decimals compare like the numbers that they count. -/
theorem compare_eq {a b : Decimal} {q r : ℚ} (hq : (a.scaled.toInt : ℚ) = q * 10 ^ places)
    (hr : (b.scaled.toInt : ℚ) = r * 10 ^ places) : compare a b = compare q r := by
  have hpos : (0 : ℚ) < 10 ^ places := by positivity
  calc compare a b = compare a.scaled.toInt b.scaled.toInt := compare_toInt a.scaled b.scaled
    _ = compare (a.scaled.toInt : ℚ) b.scaled.toInt :=
      compare_eq_of_lt_iff ((↑) : ℤ → ℚ) (fun _ _ => Int.cast_lt.symm) _ _
    _ = compare (q * 10 ^ places) (r * 10 ^ places) := by rw [hq, hr]
    _ = compare q r := by
      rw [← cmp_eq_compare, ← cmp_eq_compare, cmp_mul_pos_right hpos]

/-! ## 4. Exactness -/

/-- The steps on words that are not checked do not leave their range. -/
structure Literal.Unwrapped (l : Literal) : Prop where
  padding : l.padding.toNat + l.fraction.length = places
  power : ((10 : Int64) ^ l.padding.toNat).toInt = 10 ^ l.padding.toNat
  fraction : ∃ fraction, Long.ofInt? (digitsValue l.fraction) = some fraction ∧
    (l.fractionUnits fraction).toInt = fraction.toInt * 10 ^ l.padding.toNat

theorem Literal.WellFormed.unwrapped {l : Literal} (h : l.WellFormed)
    (hlen : l.fraction.length ≤ places) : l.Unwrapped := by
  have hpadding := Literal.toNat_padding hlen
  obtain ⟨fraction, hfraction⟩ := Literal.exists_fraction h hlen
  have hvalue := Long.ofInt?_eq_some_iff.mp hfraction
  refine ⟨by omega, toInt_ten_pow (by omega), fraction, hfraction, ?_⟩
  rw [Literal.toInt_fractionUnits h hlen hvalue, hvalue, hpadding]

/-- **Decimals are read and shown exactly.**  A text is read when it is a literal whose number has
its count of units in the range of 64 bits, and the decimal counts that number.  On the way nothing
wraps around: neither the steps of reading that are not checked, for any literal that gets to them,
nor the division that cuts a decimal for showing.  What is shown of a decimal is read as that
decimal; and decimals that have been read are equal, or in an order, when the numbers are. -/
theorem parse_exact :
    (∀ text, (∃ d, parse text = .ok d) ↔
      ∃ q, Denotes text q ∧ -2 ^ 63 ≤ q * 10 ^ 4 ∧ q * 10 ^ 4 ≤ 2 ^ 63 - 1) ∧
    (∀ text d q, parse text = .ok d → Denotes text q → (d.scaled.toInt : ℚ) = q * 10 ^ 4) ∧
    (∀ text l, Literal.ofChars? (String.toList text) = some l → l.fraction.length ≤ places →
      l.Unwrapped) ∧
    (∀ n : Int64, (n / unitsPerOne).toInt = n.toInt.tdiv (10 ^ 4) ∧
      (n % unitsPerOne).toInt = n.toInt.tmod (10 ^ 4)) ∧
    (∀ n : Int64, parse (render ⟨n⟩) = .ok ⟨n⟩) ∧
    (∀ s t a b q r, parse s = .ok a → parse t = .ok b → Denotes s q → Denotes t r →
      (a = b ↔ q = r) ∧
        ExtensionFunction.Compares (.ext (.decimal a)) (.ext (.decimal b)) q r) := by
  have hexact {text : String} {d : Decimal} {q : ℚ} (hd : parse text = .ok d)
      (hq : Denotes text q) : (d.scaled.toInt : ℚ) = q * 10 ^ places := by
    obtain ⟨r, hr, hunits⟩ := parse_eq_ok_iff_denotes.mp hd
    rw [hunits, hr.unique hq]
  refine ⟨fun _ => exists_parse_eq_ok_iff, fun _ _ _ => hexact, fun text l hl hlen => ?_,
    fun n => ⟨toInt_div_unitsPerOne n, toInt_mod_unitsPerOne n⟩, fun n => parse_render ⟨n⟩, ?_⟩
  · exact (ofChars?_eq_some_iff.mp hl).1.unwrapped hlen
  · intro s t a b q r ha hb hq hr
    have hcompare := compare_eq (hexact ha hq) (hexact hb hr)
    refine ⟨?_, ExtensionFunction.compares_of_compareArgs (congrArg Except.ok hcompare)⟩
    rw [← Std.LawfulEqOrd.compare_eq_iff_eq, hcompare, compare_eq_iff_eq]

/-- A half and its negative. -/
theorem parse_exact_half :
    ((⟨5000⟩ : Decimal).scaled.toInt : ℚ) = 1 / 2 * 10 ^ 4 ∧
    (⟨true, ['0'], ['5']⟩ : Literal).Unwrapped ∧
    ((⟨-5000⟩ : Decimal) = ⟨5000⟩ ↔ (-1 / 2 : ℚ) = 1 / 2) ∧
    ExtensionFunction.Compares (.ext (.decimal ⟨-5000⟩)) (.ext (.decimal ⟨5000⟩))
      (-1 / 2 : ℚ) (1 / 2) := by
  have hneg : parse "-0.5" = .ok ⟨-5000⟩ := by decide +kernel
  have hpos : parse "0.50" = .ok ⟨5000⟩ := by decide +kernel
  have hfive : '5'.toNat - '0'.toNat = 5 := rfl
  have hnegHalf : Denotes "-0.5" (-1 / 2) :=
    ⟨⟨true, ['0'], ['5']⟩, ⟨by decide, List.all_eq_true.mp rfl, by decide, List.all_eq_true.mp rfl⟩,
      by decide, by decide, by norm_num [Literal.value, Literal.sign, Nat.ofDigitChars, hfive]⟩
  have hhalf : Denotes "0.50" (1 / 2) :=
    ⟨⟨false, ['0'], ['5', '0']⟩,
      ⟨by decide, List.all_eq_true.mp rfl, by decide, List.all_eq_true.mp rfl⟩,
      by decide, by decide, by norm_num [Literal.value, Literal.sign, Nat.ofDigitChars, hfive]⟩
  obtain ⟨-, hscaled, hunwrapped, -, -, horder⟩ := parse_exact
  exact ⟨hscaled "0.50" _ _ hpos hhalf, hunwrapped "-0.5" _ (by decide +kernel) (by decide),
    horder "-0.5" "0.50" _ _ _ _ hneg hpos hnegHalf hhalf⟩

end Arbiter.Decimal
