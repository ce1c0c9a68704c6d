/-
# Decimals are read back as they are shown

A decimal is shown with its sign, the digits of its whole part and at least one of the four digits
behind the point.  Zeros at the end are left out, and a reader puts them back by its power of ten
(`digitsValue_trimZeros`); so what is shown denotes the count of units exactly
(`units_literal`), and reading it gives the decimal again (`parse_render`).

Words are used on both ways, and never beyond their range.  The digits behind the point are less
than one whole, so that their units are exact (`Literal.toInt_fractionUnits`), and the checks of the
other steps fail exactly when the literal as a whole is out of range (`Literal.scaled?_eq`).
-/
import Arbiter.Extension.Decimal
import Arbiter.Proofs.Digits
import Mathlib.Data.List.DropRight
import Mathlib.Data.Nat.Digits.Defs
import Mathlib.Tactic.IntervalCases

namespace Arbiter.Decimal

/-! ## 1. Digits -/

theorem digitsValue_eq_ofDigitChars (cs : List Char) :
    digitsValue cs = Nat.ofDigitChars 10 cs 0 := by
  unfold digitsValue
  rw [Nat.ofDigitChars_eq_foldl]
  congr 1
  funext n c
  rw [Nat.mul_comm]

/-- Zeros at the end only shift the number. -/
theorem digitsValue_append_zeros (cs : List Char) (k : Nat) :
    digitsValue (cs ++ List.replicate k '0') = digitsValue cs * 10 ^ k := by
  simp only [digitsValue_eq_ofDigitChars, Nat.ofDigitChars_append,
    Nat.ofDigitChars_replicate_zero]
  rw [Nat.mul_comm]

theorem digitsValue_toDigits (n : Nat) : digitsValue (Nat.toDigits 10 n) = n := by
  rw [digitsValue_eq_ofDigitChars, Nat.ofDigitChars_ten_toDigits]

theorem isDigit_of_mem_paddedDigits {n : Nat} {c : Char} (h : c ∈ paddedDigits n) :
    c.isDigit = true := by
  rcases List.mem_append.mp h with h | h
  · rw [List.eq_of_mem_replicate h]
    rfl
  · exact Nat.isDigit_of_mem_toDigits (by decide) (by decide) h

theorem length_paddedDigits {n : Nat} (h : n < 10 ^ places) : (paddedDigits n).length = places := by
  have hlen := (Nat.length_toDigits_le_iff (by decide) (by decide)).mpr h
  rw [paddedDigits, List.leftpad, List.length_append, List.length_replicate]
  exact Nat.sub_add_cancel hlen

theorem digitsValue_paddedDigits (n : Nat) : digitsValue (paddedDigits n) = n := by
  rw [paddedDigits, List.leftpad, digitsValue_eq_ofDigitChars, Nat.ofDigitChars_append,
    Nat.ofDigitChars_replicate_zero, Nat.mul_zero, Nat.ofDigitChars_ten_toDigits]

theorem digitsValue_lt {cs : List Char} (h : ∀ c ∈ cs, c.isDigit = true) :
    digitsValue cs < 10 ^ cs.length := by
  rw [digitsValue_eq_ofDigitChars]
  exact Digits.ofDigitChars_lt h

/-! ## 2. Zeros at the end -/

/-- What is trimmed are zeros; when nothing else is there, one of them stays. -/
theorem exists_trimZeros (cs : List Char) (hcs : cs ≠ []) :
    ∃ k, cs = trimZeros cs ++ List.replicate k '0' := by
  have hzeros : cs.reverse.takeWhile (· == '0')
      = List.replicate (cs.reverse.takeWhile (· == '0')).length '0' := by
    refine List.eq_replicate_iff.mpr ⟨rfl, fun c hc => ?_⟩
    have hc := List.mem_takeWhile_imp (p := (· == '0')) hc
    exact beq_iff_eq.mp hc
  have hsplit : cs = (cs.reverse.dropWhile (· == '0')).reverse
      ++ List.replicate (cs.reverse.takeWhile (· == '0')).length '0' := by
    calc cs = (cs.reverse.takeWhile (· == '0') ++ cs.reverse.dropWhile (· == '0')).reverse := by
          rw [List.takeWhile_append_dropWhile, List.reverse_reverse]
      _ = (cs.reverse.dropWhile (· == '0')).reverse
          ++ (cs.reverse.takeWhile (· == '0')).reverse := List.reverse_append
      _ = _ := congrArg _ (by conv_lhs => rw [hzeros, List.reverse_replicate])
  unfold trimZeros
  split
  · rename_i hnil
    rw [hnil, List.nil_append] at hsplit
    obtain ⟨k, hk⟩ := Nat.exists_eq_succ_of_ne_zero
      (n := (cs.reverse.takeWhile (· == '0')).length) (by
        intro hzero
        rw [hzero] at hsplit
        exact hcs hsplit)
    rw [hk] at hsplit
    exact ⟨k, hsplit⟩
  · exact ⟨_, hsplit⟩

theorem trimZeros_ne_nil (cs : List Char) : trimZeros cs ≠ [] := by
  unfold trimZeros
  split
  · exact List.cons_ne_nil _ _
  · assumption

/-- The digits left over denote the same fraction. -/
theorem digitsValue_trimZeros (cs : List Char) (h : cs.length = places) :
    (trimZeros cs).length ≤ places ∧
      digitsValue (trimZeros cs) * Nat.pow 10 (places - (trimZeros cs).length)
        = digitsValue cs := by
  obtain ⟨k, hk⟩ := exists_trimZeros cs (by rintro rfl; cases h)
  have hlen : (trimZeros cs).length + k = places := by
    rw [← h]
    conv => rhs; rw [hk]
    rw [List.length_append, List.length_replicate]
  refine ⟨Nat.le.intro hlen, ?_⟩
  have hk' : places - (trimZeros cs).length = k := by omega
  conv => rhs; rw [hk]
  rw [digitsValue_append_zeros, hk']
  rfl

/-! ## 3. Whole part and fraction of a word -/

theorem toInt_unitsPerOne : unitsPerOne.toInt = 10 ^ places := by decide

theorem toInt_div_unitsPerOne (n : Int64) :
    (n / unitsPerOne).toInt = n.toInt.tdiv (10 ^ places) := by
  rw [Int64.toInt_div_of_ne_right _ _ (by decide), toInt_unitsPerOne]

theorem toInt_mod_unitsPerOne (n : Int64) :
    (n % unitsPerOne).toInt = n.toInt.tmod (10 ^ places) := by
  rw [Int64.toInt_mod, toInt_unitsPerOne]

theorem natAbs_div_unitsPerOne (n : Int64) :
    (n / unitsPerOne).toInt.natAbs = n.toInt.natAbs / 10 ^ places := by
  rw [toInt_div_unitsPerOne, Int.natAbs_tdiv]
  rfl

theorem natAbs_mod_unitsPerOne (n : Int64) :
    (n % unitsPerOne).toInt.natAbs = n.toInt.natAbs % 10 ^ places := by
  rw [toInt_mod_unitsPerOne, Int.natAbs_tmod]
  rfl

/-- **The sign of a number between minus one and zero is shown**, though its whole part has none. -/
theorem sign_append_wordChars (n : Int64) :
    (if n < 0 ∧ n / unitsPerOne = 0 then ['-'] else []) ++ wordChars (n / unitsPerOne)
      = (if n.toInt < 0 then ['-'] else []) ++ Nat.toDigits 10 (n.toInt.natAbs / 10 ^ places) := by
  have hneg : n < 0 ↔ n.toInt < 0 := Int64.lt_iff_toInt_lt
  have hwhole : n / unitsPerOne = 0 ↔ n.toInt.tdiv (10 ^ places) = 0 := by
    rw [← toInt_div_unitsPerOne]
    exact Int64.toInt_inj.symm
  have hnegWhole : n / unitsPerOne < 0 ↔ n.toInt.tdiv (10 ^ places) < 0 := by
    rw [← toInt_div_unitsPerOne]
    exact Int64.lt_iff_toInt_lt
  have hcut : n.toInt.tdiv (10 ^ places) < 0 → n.toInt < 0 := fun h =>
    Int.lt_of_not_ge fun hle => absurd h (Int.not_lt.mpr (Int.tdiv_nonneg hle (by decide)))
  have hcut' : n.toInt < 0 → n.toInt.tdiv (10 ^ places) ≤ 0 := by
    intro h
    have hneg := Int.tdiv_nonneg (a := -n.toInt) (by omega) (by decide : (0 : Int) ≤ 10 ^ places)
    rw [Int.neg_tdiv] at hneg
    omega
  rw [wordChars, natAbs_div_unitsPerOne, ← List.append_assoc]
  congr 1
  simp only [hneg, hwhole, hnegWhole]
  generalize n.toInt.tdiv (10 ^ places) = whole at hcut hcut'
  by_cases hn : n.toInt < 0
  · rcases Int.lt_or_eq_of_le (hcut' hn) with h | h
    · simp [hn, h, Int.ne_of_lt h]
    · simp [hn, h]
  · simp [hn, mt hcut hn]

/-! ## 4. Literals -/

/-- The form of a literal. -/
structure Literal.WellFormed (l : Literal) : Prop where
  whole_ne_nil : l.whole ≠ []
  whole_digits : ∀ c ∈ l.whole, c.isDigit = true
  fraction_ne_nil : l.fraction ≠ []
  fraction_digits : ∀ c ∈ l.fraction, c.isDigit = true

/-- A literal put together. -/
def Literal.chars (l : Literal) : List Char :=
  (if l.negative then ['-'] else []) ++ l.whole ++ '.' :: l.fraction

/-- A literal is taken apart at its point. -/
theorem ofChars?_chars {l : Literal} (h : l.WellFormed) : Literal.ofChars? l.chars = some l := by
  obtain ⟨negative, whole, fraction⟩ := l
  obtain ⟨hne, hwhole, hne', hfraction⟩ := h
  simp only at hne hwhole hne' hfraction
  have hsign : splitSign ((if negative then ['-'] else []) ++ whole ++ '.' :: fraction)
      = (negative, whole ++ '.' :: fraction) := by
    cases negative with
    | true => rfl
    | false =>
      obtain ⟨c, cs, rfl⟩ := List.exists_cons_of_ne_nil hne
      have hc : c ≠ '-' := by
        rintro rfl
        cases hwhole '-' List.mem_cons_self
      simp [splitSign, hc]
  have htake : (whole ++ '.' :: fraction).takeWhile Char.isDigit = whole := by
    rw [List.takeWhile_append_of_pos hwhole]
    exact List.append_nil whole
  have hdrop : (whole ++ '.' :: fraction).dropWhile Char.isDigit = '.' :: fraction := by
    rw [List.dropWhile_append_of_pos hwhole]
    rfl
  have hall : fraction.all Char.isDigit = true := List.all_eq_true.mpr hfraction
  have hwhole' : whole.isEmpty = false := List.isEmpty_eq_false_iff.mpr hne
  have hfraction' : fraction.isEmpty = false := List.isEmpty_eq_false_iff.mpr hne'
  simp only [Literal.ofChars?, Literal.chars, hsign, htake, hdrop, hall, hwhole', hfraction']
  rfl

theorem splitSign_eq {cs rest : List Char} {negative : Bool}
    (h : splitSign cs = (negative, rest)) : (if negative then ['-'] else []) ++ rest = cs := by
  unfold splitSign at h
  split at h <;> cases h <;> rfl

/-- Taking apart undoes putting together, and nothing else can be taken apart. -/
theorem ofChars?_eq_some_iff {cs : List Char} {l : Literal} :
    Literal.ofChars? cs = some l ↔ l.WellFormed ∧ l.chars = cs := by
  constructor
  · intro h
    rcases hsign : splitSign cs with ⟨negative, rest⟩
    rw [Literal.ofChars?, hsign] at h
    simp only at h
    split at h
    · rename_i fraction hrest
      split at h
      · cases h
      · rename_i hdigits
        cases h
        simp only [Bool.or_eq_true, List.isEmpty_iff, Bool.not_eq_true', not_or,
          Bool.not_eq_false, List.all_eq_true] at hdigits
        obtain ⟨⟨hwhole, hfraction⟩, hall⟩ := hdigits
        refine ⟨⟨hwhole, fun c hc => List.mem_takeWhile_imp hc, hfraction, hall⟩, ?_⟩
        rw [Literal.chars, List.append_assoc, ← hrest, List.takeWhile_append_dropWhile]
        exact splitSign_eq hsign
    · cases h
  · rintro ⟨h, rfl⟩
    exact ofChars?_chars h

/-- The sign of a literal. -/
def Literal.sign (l : Literal) : Int := if l.negative then -1 else 1

/-- The number of units that a literal with at most four digits behind the point denotes. -/
def Literal.units (l : Literal) : Int :=
  l.sign * (digitsValue l.whole * 10 ^ places
    + digitsValue l.fraction * 10 ^ (places - l.fraction.length) : Nat)

/-! ## 5. Words -/

section

variable {l : Literal}

/-- No more digits than `places` are missing. -/
theorem Literal.toNat_padding (h : l.fraction.length ≤ places) :
    l.padding.toNat = places - l.fraction.length := by
  have hlt : l.fraction.length < 2 ^ 32 := Nat.lt_of_le_of_lt h (by decide)
  have hlen : (UInt32.ofNat l.fraction.length).toNat = l.fraction.length :=
    UInt32.toNat_ofNat_of_lt' hlt
  have hplaces : (UInt32.ofNat places).toNat = places := rfl
  have hle : UInt32.ofNat l.fraction.length ≤ UInt32.ofNat places := by
    rw [UInt32.le_iff_toNat_le, hlen, hplaces]
    exact h
  rw [padding, UInt32.toNat_sub_of_le _ _ hle, hlen, hplaces]

theorem toInt_ten_pow {k : Nat} (h : k ≤ places) : ((10 : Int64) ^ k).toInt = 10 ^ k := by
  unfold places at h
  interval_cases k <;> decide

/-- The units of the digits behind the point are less than one whole. -/
theorem Literal.fractionUnits_lt (hform : l.WellFormed)
    (h : l.fraction.length ≤ places) :
    digitsValue l.fraction * 10 ^ (places - l.fraction.length) < 10 ^ places := by
  calc digitsValue l.fraction * 10 ^ (places - l.fraction.length)
      < 10 ^ l.fraction.length * 10 ^ (places - l.fraction.length) :=
        Nat.mul_lt_mul_of_pos_right (digitsValue_lt hform.fraction_digits) (Nat.pow_pos (by decide))
    _ = 10 ^ places := by rw [← Nat.pow_add, Nat.add_sub_cancel' h]

/-- **Multiplying the digits behind the point does not overflow.** -/
theorem Literal.toInt_fractionUnits (hform : l.WellFormed)
    (h : l.fraction.length ≤ places) {fraction : Int64}
    (hfraction : fraction.toInt = digitsValue l.fraction) :
    (l.fractionUnits fraction).toInt
      = digitsValue l.fraction * 10 ^ (places - l.fraction.length) := by
  have hlt := fractionUnits_lt hform h
  rw [fractionUnits, Int64.toInt_mul, toNat_padding h, toInt_ten_pow (Nat.sub_le _ _), hfraction]
  generalize hn : digitsValue l.fraction * 10 ^ (places - l.fraction.length) = n at hlt
  have hcast : (digitsValue l.fraction : Int) * 10 ^ (places - l.fraction.length) = n := by
    rw [← hn]
    push_cast
    rfl
  unfold places at hlt
  rw [hcast]
  exact Int.bmod_eq_of_le (by omega) (by omega)

/-- The digits behind the point are in the range. -/
theorem Literal.exists_fraction (hform : l.WellFormed)
    (h : l.fraction.length ≤ places) :
    ∃ fraction, Long.ofInt? (digitsValue l.fraction) = some fraction := by
  have hlt : digitsValue l.fraction < 10 ^ places :=
    Nat.lt_of_lt_of_le (digitsValue_lt hform.fraction_digits) (Nat.pow_le_pow_right (by decide) h)
  simp only [Long.ofInt?_eq_some_iff, Long.exists_toInt_eq_iff, Int64.toInt_minValue,
    Int64.toInt_maxValue]
  unfold places at hlt
  omega

/-- The fraction is added with the sign of the literal, not with that of the whole part. -/
theorem Literal.scaled?_eq_bind {fraction : Int64}
    (hfraction : Long.ofInt? (digitsValue l.fraction) = some fraction) :
    l.scaled? = (Long.ofInt? (l.sign * digitsValue l.whole)).bind fun whole =>
      (Long.mul? whole unitsPerOne).bind fun wholeUnits =>
        Long.ofInt? (wholeUnits.toInt + l.sign * (l.fractionUnits fraction).toInt) := by
  rw [scaled?, hfraction, signedWhole, sign]
  cases l.negative with
  | true =>
    simp only [if_true, Int.neg_one_mul, ← Int.sub_eq_add_neg]
    rfl
  | false =>
    simp only [Bool.false_eq_true, if_false, Int.one_mul]
    rfl

/-- A number in the range is so in front of the point, too, since the fraction has its sign. -/
theorem Literal.exists_whole (hform : l.WellFormed) (h : l.fraction.length ≤ places) {n : Int64}
    (hn : n.toInt = l.units) :
    (∃ whole : Int64, whole.toInt = l.sign * digitsValue l.whole) ∧
      ∃ wholeUnits : Int64, wholeUnits.toInt = l.sign * digitsValue l.whole * 10 ^ places := by
  have hlt := fractionUnits_lt hform h
  have hmin := Int64.minValue_le_toInt n
  have hmax := Int64.toInt_le n
  have hsign : l.sign = 1 ∨ l.sign = -1 := by
    unfold sign
    cases l.negative <;> simp
  simp only [Long.exists_toInt_eq_iff, Int64.toInt_minValue, Int64.toInt_maxValue]
    at hmin hmax ⊢
  unfold units at hn
  generalize digitsValue l.fraction * 10 ^ (places - l.fraction.length) = u at hlt hn
  unfold places at hlt hn ⊢
  rcases hsign with h | h
  · rw [h] at hn ⊢
    omega
  · rw [h] at hn ⊢
    omega

/-- **The checks fail exactly when the literal is out of range**, at whatever step that shows. -/
theorem Literal.scaled?_eq (hform : l.WellFormed)
    (h : l.fraction.length ≤ places) : l.scaled? = Long.ofInt? l.units := by
  obtain ⟨fraction, hfraction⟩ := exists_fraction hform h
  have hunits := toInt_fractionUnits hform h (Long.ofInt?_eq_some_iff.mp hfraction)
  ext n
  rw [scaled?_eq_bind hfraction]
  simp only [Option.bind_eq_some_iff, Long.mul?, Long.ofInt?_eq_some_iff, hunits,
    toInt_unitsPerOne]
  constructor
  · rintro ⟨whole, hwhole, wholeUnits, hwholeUnits, hn⟩
    rw [hn, hwholeUnits, hwhole, units]
    push_cast
    ring
  · intro hn
    obtain ⟨⟨whole, hwhole⟩, wholeUnits, hwholeUnits⟩ := exists_whole hform h hn
    refine ⟨whole, hwhole, wholeUnits, by rw [hwholeUnits, hwhole], ?_⟩
    rw [hn, hwholeUnits, units]
    push_cast
    ring

end

/-- A text is read when it is a literal with four digits behind the point at most, whose count of
units is that of a decimal. -/
theorem parse_eq_ok_iff {text : String} {d : Decimal} : parse text = .ok d ↔
    ∃ l : Literal, l.WellFormed ∧ l.fraction.length ≤ places ∧ l.chars = text.toList ∧
      l.units = d.scaled.toInt := by
  unfold parse
  constructor
  · intro h
    split at h
    · cases h
    · rename_i l hl
      obtain ⟨hform, hchars⟩ := ofChars?_eq_some_iff.mp hl
      split at h
      · cases h
      · rename_i hlen
        have hlen := Nat.le_of_not_lt hlen
        rw [Literal.scaled?_eq hform hlen] at h
        split at h
        · rename_i scaled hscaled
          cases h
          exact ⟨l, hform, hlen, hchars, (Long.ofInt?_eq_some_iff.mp hscaled).symm⟩
        · cases h
  · rintro ⟨l, hform, hlen, hchars, hunits⟩
    rw [ofChars?_eq_some_iff.mpr ⟨hform, hchars⟩]
    simp only
    rw [if_neg (Nat.not_lt.mpr hlen), Literal.scaled?_eq hform hlen,
      Long.ofInt?_eq_some_iff.mpr hunits.symm]

/-! ## 6. Reading what is shown -/

/-- The literal that shows a decimal. -/
def literal (d : Decimal) : Literal where
  negative := d.scaled.toInt < 0
  whole := Nat.toDigits 10 (d.scaled.toInt.natAbs / 10 ^ places)
  fraction := trimZeros (paddedDigits (d.scaled.toInt.natAbs % 10 ^ places))

theorem paddedDigits_ne_nil (n : Nat) : paddedDigits n ≠ [] :=
  List.append_ne_nil_of_right_ne_nil _ Nat.toDigits_ne_nil

theorem wellFormed_literal (d : Decimal) : d.literal.WellFormed where
  whole_ne_nil := Nat.toDigits_ne_nil
  whole_digits _ hc := Nat.isDigit_of_mem_toDigits (by decide) (by decide) hc
  fraction_ne_nil := trimZeros_ne_nil _
  fraction_digits c hc := by
    have hpadded := paddedDigits_ne_nil (d.scaled.toInt.natAbs % 10 ^ places)
    obtain ⟨k, hk⟩ := exists_trimZeros _ hpadded
    refine isDigit_of_mem_paddedDigits (n := d.scaled.toInt.natAbs % 10 ^ places) ?_
    rw [hk]
    exact List.mem_append_left _ hc

/-- The fraction has four digits at most, which denote what division by `10 ^ places` leaves. -/
theorem fraction_literal (d : Decimal) : d.literal.fraction.length ≤ places ∧
    digitsValue d.literal.fraction * 10 ^ (places - d.literal.fraction.length)
      = d.scaled.toInt.natAbs % 10 ^ places := by
  have hlt := Nat.mod_lt d.scaled.toInt.natAbs (by decide : 0 < 10 ^ places)
  have h := digitsValue_trimZeros _ (length_paddedDigits hlt)
  rwa [digitsValue_paddedDigits] at h

/-- The literal denotes the count of units. -/
theorem units_literal (d : Decimal) : d.literal.units = d.scaled.toInt := by
  obtain ⟨-, hfraction⟩ := fraction_literal d
  have hn : digitsValue d.literal.whole * 10 ^ places
      + digitsValue d.literal.fraction * 10 ^ (places - d.literal.fraction.length)
      = d.scaled.toInt.natAbs := by
    rw [hfraction, literal, digitsValue_toDigits]
    exact Nat.div_add_mod' _ _
  unfold Literal.units Literal.sign
  rw [hn]
  simp only [literal, decide_eq_true_eq]
  split <;> omega

/-- What is shown of a decimal is its literal. -/
theorem chars_literal (d : Decimal) : d.literal.chars = d.render.toList := by
  rw [render, String.toList_ofList]
  simp only [Literal.chars, chars, sign_append_wordChars, natAbs_mod_unitsPerOne, literal,
    decide_eq_true_eq, List.append_assoc, List.singleton_append]

/-- **A decimal is read back as it is shown.** -/
theorem parse_render (d : Decimal) : parse d.render = .ok d := by
  obtain ⟨hlen, -⟩ := fraction_literal d
  exact parse_eq_ok_iff.mpr
    ⟨d.literal, wellFormed_literal d, hlen, chars_literal d, units_literal d⟩

end Arbiter.Decimal
