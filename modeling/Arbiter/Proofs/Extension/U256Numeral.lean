/-
# The numerals of 256-bit numbers

A text is a number of 256 bits when it is a row of digits that denotes a number below `2 ^ 256`, and
the number is shown as the numeral without zeros in front.  The limbs are in the order of the
numbers, since a limb is worth more than all the limbs behind it (`compare_digit`).
-/
import Mathlib.Logic.Function.Iterate
import Arbiter.Proofs.Extension.Comparison
import Arbiter.Proofs.Extension.U256

namespace Arbiter.U256

/-! ## 1. The order -/

/-- With a digit more, numbers are compared as before, and by the digit when they are equal. -/
theorem compare_digit {base x y l m : Nat} (hl : l < base) (hm : m < base) :
    compare (x * base + l) (y * base + m) = (compare x y).then (compare l m) := by
  have hlt {x y l m : Nat} (h : x < y) (hl : l < base) : x * base + l < y * base + m := by
    rw [Nat.mul_comm x]
    exact Nat.lt_add_right m (Nat.mul_add_lt_mul_of_lt_of_lt h hl)
  rcases lt_trichotomy x y with h | rfl | h
  · rw [compare_lt_iff_lt.mpr h, compare_lt_iff_lt.mpr (hlt h hl), Ordering.lt_then]
  · have hself : compare x x = .eq := compare_eq_iff_eq.mpr rfl
    have hadd (l m : Nat) : l < m ↔ x * base + l < x * base + m := Nat.add_lt_add_iff_left.symm
    rw [hself, Ordering.eq_then, compare_eq_of_lt_iff (x * base + ·) hadd l m]
  · rw [compare_gt_iff_gt.mpr h, compare_gt_iff_gt.mpr (hlt h hm), Ordering.gt_then]

/-- **The order of the limbs is that of the numbers.** -/
theorem compare_eq (a b : U256) : compare a b = compare a.toNat b.toNat := by
  have hlt (limb : UInt64) : limb.toNat < limbBase := limb.toNat_lt
  simp only [toNat, compare_def, compare_toNat, compare_digit (hlt _) (hlt _), Ordering.then_assoc]

/-! ## 2. Numerals -/

theorem toNat_iterate_tenth (n : U256) (k : Nat) : (tenth^[k] n).toNat = n.toNat / 10 ^ k := by
  induction k with
  | zero => simp
  | succ k ih =>
    rw [Function.iterate_succ_apply', toNat_tenth, ih, Nat.div_div_eq_div_mul, Nat.pow_succ]

/-- Nothing is left of a number when it has been divided by ten 78 times. -/
theorem iterate_tenth_eq_zero (n : U256) : tenth^[78] n = zero := by
  refine toNat_injective ?_
  rw [toNat_iterate_tenth]
  exact Nat.div_eq_of_lt (Nat.lt_trans n.toNat_lt (by decide))

/-- Only zero is shown with a zero in front. -/
theorem eq_zero_of_head?_render {n : U256} (h : n.render.toList.head? = some '0') : n = zero := by
  rw [render, String.toList_ofList, chars_eq_toDigits] at h
  obtain ⟨ds, hds, hlt, hvalue, hhead⟩ := Digits.exists_digits (by decide : 1 < 10) n.toNat
  rw [hds, List.head?_map] at h
  obtain ⟨d, hd, hchar⟩ := Option.map_eq_some_iff.mp h
  have hzero : ∀ d < 10, Nat.digitChar d = '0' → d = 0 := by decide
  rw [hzero d (hlt d (List.mem_of_head? hd)) hchar] at hd
  obtain ⟨d', rfl⟩ := List.length_eq_one_iff.mp (hhead hd)
  cases Option.some.inj hd
  exact toNat_injective hvalue.symm

/-- A row of digits is read unless the numeral is out of the range. -/
theorem exists_parse_eq_ok_iff {text : String} : (∃ n, parse text = .ok n) ↔
    text.toList ≠ [] ∧ (∀ c ∈ text.toList, c.isDigit = true) ∧
      Nat.ofDigitChars 10 text.toList 0 < bound := by
  simp only [parse_eq_ok_iff, exists_and_left, exists_toNat_eq_iff]

/-! ## 3. Exactness -/

/-- A step of multiplication: the wide word does not wrap around, and what the cast to a limb leaves
out is handed on to the next step. -/
structure TimesTenStep (limb : UInt64) (carry : BitVec 128) : Prop where
  wide : (wideTimesTen limb carry).toNat = limb.toNat * 10 + carry.toNat
  cast : (timesTenLimb limb carry).2.toNat * limbBase + (timesTenLimb limb carry).1.toNat
    = (wideTimesTen limb carry).toNat
  carry_lt : (timesTenLimb limb carry).2.toNat < limbBase

/-- A step of division: the wide word does not wrap around, and the cast to a limb leaves nothing of
the quotient out. -/
structure DivStep (divisor : UInt64) (rem : BitVec 128) (limb : UInt64) : Prop where
  wide : (wideRemainder rem limb).toNat = rem.toNat * limbBase + limb.toNat
  cast : (divLimb divisor rem limb).1.toNat = (wideRemainder rem limb / widen divisor).toNat
  rem_lt : (divLimb divisor rem limb).2.toNat < divisor.toNat

theorem timesTenStep_of_lt (limb : UInt64) {carry : BitVec 128} (h : carry.toNat < limbBase) :
    TimesTenStep limb carry := by
  have hwide := toNat_wideTimesTen limb h
  obtain ⟨hcast, hlt⟩ := timesTenLimb_spec limb h
  exact ⟨hwide, hcast.trans hwide.symm, hlt⟩

theorem divStep_of_lt {divisor : UInt64} {rem : BitVec 128} (h : rem.toNat < divisor.toNat)
    (limb : UInt64) : DivStep divisor rem limb := by
  have hwide := toNat_wideRemainder (Nat.lt_trans h divisor.toNat_lt) limb
  obtain ⟨hcast, hlt⟩ := divLimb_spec h limb
  have hquotient : (rem.toNat * limbBase + limb.toNat) / divisor.toNat
      = (divLimb divisor rem limb).1.toNat := by
    rw [Nat.add_comm (divisor.toNat * _)] at hcast
    exact ((Nat.div_mod_unique (Nat.zero_lt_of_lt h)).mpr ⟨hcast, hlt⟩).1
  rw [← hwide, ← toNat_widen, ← BitVec.toNat_udiv] at hquotient
  exact ⟨hwide, hquotient.symm, hlt⟩

/-- **256-bit numbers are read, shown and ordered exactly.**  A text is read when it is a row of
digits, not empty, whose numeral is below `2 ^ 256`, and the limbs denote that number.  Showing ends
after 78 divisions at most, yields the decimal numeral without zeros in front, and what is shown is
read as that number.  The order of the limbs is that of the numbers, and so is what the comparison
functions say.

The words of 128 bits do not wrap around.  A carry starts as a digit and stays below one limb, and
ten times a number and a digit is found exactly when it is in the range; a remainder stays below the
divisor, and division yields quotient and remainder. -/
theorem numeral_exact :
    (∀ text, (∃ n, parse text = .ok n) ↔ String.toList text ≠ [] ∧
      (∀ c ∈ text.toList, c.isDigit = true) ∧ Nat.ofDigitChars 10 text.toList 0 < 2 ^ 256) ∧
    (∀ text n, parse text = .ok n → n.toNat = Nat.ofDigitChars 10 text.toList 0) ∧
    (∀ n : U256, (∃ k ≤ 78, tenth^[k] n = zero) ∧ n.render.toList = Nat.toDigits 10 n.toNat ∧
      (n.render.toList.head? = some '0' → n = zero) ∧ parse n.render = .ok n) ∧
    (∀ a b : U256, compare a b = compare a.toNat b.toNat ∧
      ExtensionFunction.Compares (.ext (.u256 a)) (.ext (.u256 b)) a.toNat b.toNat) ∧
    (∀ digit, (widen digit).toNat < limbBase) ∧
    (∀ limb carry, BitVec.toNat carry < limbBase → TimesTenStep limb carry) ∧
    (∀ (n m : U256) (digit : UInt64),
      n.timesTenPlus? digit = some m ↔ m.toNat = n.toNat * 10 + digit.toNat) ∧
    (∀ divisor rem limb, BitVec.toNat rem < divisor.toNat → DivStep divisor rem limb) ∧
    (∀ (n : U256) (divisor : UInt64), 0 < divisor.toNat →
      (n.divRem divisor).1.toNat = n.toNat / divisor.toNat ∧
        (n.divRem divisor).2.toNat = n.toNat % divisor.toNat) := by
  refine ⟨fun text => exists_parse_eq_ok_iff, fun text n h => (parse_eq_ok_iff.mp h).2.2,
    fun n => ⟨⟨78, Nat.le_refl _, n.iterate_tenth_eq_zero⟩, ?_, eq_zero_of_head?_render,
      parse_render n⟩, fun a b => ⟨compare_eq a b, ?_⟩, toNat_widen_lt,
    fun limb _ h => timesTenStep_of_lt limb h, fun _ _ _ => timesTenPlus?_eq_some_iff,
    fun _ _ limb h => divStep_of_lt h limb,
    fun n _ h => ⟨n.toNat_fst_divRem h, n.toNat_snd_divRem h⟩⟩
  · rw [render, String.toList_ofList, chars_eq_toDigits]
  · exact ExtensionFunction.compares_of_compareArgs (congrArg Except.ok (compare_eq a b))

/-- Ten, with two zeros in front, and the last limbs that there are. -/
theorem numeral_exact_ten :
    (⟨0, 0, 0, 10⟩ : U256).toNat = 10 ∧ TimesTenStep (-1) 9 ∧ DivStep 10 9 (-1) ∧
      (max.divRem 10).2.toNat = 5 ∧ (render zero).toList.head? = some '0' ∧ zero = zero := by
  have hten : parse "0010" = .ok ⟨0, 0, 0, 10⟩ := by decide +kernel
  have hzero : (render zero).toList.head? = some '0' := by decide +kernel
  have hmax : max.toNat % 10 = 5 := by decide +kernel
  obtain ⟨-, hvalue, hshown, -, -, htimesTen, -, hdiv, hdivRem⟩ := numeral_exact
  have hdenoted : Nat.ofDigitChars 10 "0010".toList 0 = 10 := by decide +kernel
  refine ⟨(hvalue "0010" _ hten).trans hdenoted, htimesTen _ _ (by decide), hdiv _ _ _ (by decide),
    ?_, hzero, (hshown zero).2.2.1 hzero⟩
  rw [(hdivRem max 10 (by decide)).2]
  exact hmax

end Arbiter.U256
