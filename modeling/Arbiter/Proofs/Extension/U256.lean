/-
# 256-bit numbers are read back as they are shown

What is shown of a number is the decimal numeral of the number that its limbs denote
(`chars_eq_toDigits`), and appending digits goes on with a numeral as long as it stays in the range
(`appendDigits_eq_ok_iff`).  So reading what is shown gives the number again (`parse_render`).
-/
import Arbiter.Extension.U256.Text
import Arbiter.Proofs.Digits

namespace Arbiter.U256

/-! ## 1. The range -/

/-- The limbs denote the numbers below the bound, and only these. -/
theorem exists_toNat_eq_iff {k : Nat} : (∃ n : U256, n.toNat = k) ↔ k < bound := by
  constructor
  · rintro ⟨n, rfl⟩
    exact n.toNat_lt
  · intro h
    have hlimb (w : Nat) : (UInt64.ofNat w).toNat = w % limbBase := UInt64.toNat_ofNat'
    refine ⟨⟨.ofNat (k / limbBase / limbBase / limbBase), .ofNat (k / limbBase / limbBase),
      .ofNat (k / limbBase), .ofNat k⟩, ?_⟩
    simp only [toNat, hlimb]
    unfold bound limbBase at *
    omega

/-! ## 2. Writing -/

theorem digitChar_eq {digit : UInt64} (h : digit.toNat < 10) :
    digitChar digit = Nat.digitChar digit.toNat := by
  have hall : ∀ k < 10, digitChar (UInt64.ofNat k) = Nat.digitChar k := by decide
  rw [← hall digit.toNat h, UInt64.ofNat_toNat]

theorem digitChar_lastDigit (n : U256) :
    digitChar n.lastDigit = Nat.digitChar (n.toNat % 10) := by
  have hlt : n.toNat % 10 < 10 := Nat.mod_lt _ (by decide)
  rw [← toNat_lastDigit] at hlt ⊢
  exact digitChar_eq hlt

/-- The digits of a positive number are put in front. -/
theorem prependDigits_eq {n : U256} (h : 0 < n.toNat) (acc : List Char) :
    prependDigits n acc = Nat.toDigits 10 n.toNat ++ acc := by
  induction n, acc using prependDigits.induct with
  | case1 n acc hzero =>
    rw [isZero_iff] at hzero
    omega
  | case2 n acc hzero ih =>
    rw [prependDigits, if_neg hzero, digitChar_lastDigit]
    rw [digitChar_lastDigit] at ih
    have hdigits := Nat.toDigits_eq_if (b := 10) (n := n.toNat) (by decide)
    by_cases hsmall : n.toNat < 10
    · have htenth : n.tenth.isZero := by
        rw [isZero_iff, toNat_tenth]
        omega
      rw [if_pos hsmall] at hdigits
      rw [prependDigits, if_pos htenth, hdigits, Nat.mod_eq_of_lt hsmall]
      rfl
    · have htenth : 0 < n.tenth.toNat := by
        rw [toNat_tenth]
        omega
      rw [if_neg hsmall] at hdigits
      rw [ih htenth, hdigits, toNat_tenth, List.append_assoc]
      rfl

/-- What is shown of a number is its decimal numeral. -/
theorem chars_eq_toDigits (n : U256) : n.chars = Nat.toDigits 10 n.toNat := by
  unfold chars
  split
  · rename_i h
    rw [isZero_iff.mp h, Nat.toDigits_zero]
  · rename_i h
    rw [isZero_iff] at h
    rw [prependDigits_eq (Nat.pos_of_ne_zero h), List.append_nil]

/-! ## 3. Reading -/

theorem digit?_of_isDigit {c : Char} (h : c.isDigit = true) :
    ∃ digit, digit? c = some digit ∧ digit.toNat = c.toNat - '0'.toNat := by
  have hlt := Digits.digit_lt h
  refine ⟨_, if_pos h, ?_⟩
  exact UInt64.toNat_ofNat_of_lt' (Nat.lt_trans hlt (by decide))

/-- A numeral that goes on only gets larger. -/
theorem le_ofDigitChars (cs : List Char) (k : Nat) : k ≤ Nat.ofDigitChars 10 cs k := by
  rw [Nat.ofDigitChars_eq_ofDigitChars_zero]
  exact Nat.le_trans (Nat.le_mul_of_pos_left _ (Nat.pow_pos (by decide))) (Nat.le_add_right _ _)

/-- **Appended digits are read as a numeral that goes on**, exactly as long as it stays in the
range. -/
theorem appendDigits_eq_ok_iff {cs : List Char} {n m : U256} : n.appendDigits cs = .ok m ↔
    (∀ c ∈ cs, c.isDigit = true) ∧ m.toNat = Nat.ofDigitChars 10 cs n.toNat := by
  induction cs generalizing n with
  | nil =>
    simp only [appendDigits, Except.ok.injEq, List.not_mem_nil, false_implies, implies_true,
      true_and, Nat.ofDigitChars_nil]
    exact ⟨fun h => congrArg toNat h.symm, fun h => toNat_injective h.symm⟩
  | cons c cs ih =>
    rw [List.forall_mem_cons, Nat.ofDigitChars_cons, Nat.mul_comm, and_assoc]
    by_cases hc : c.isDigit = true
    · obtain ⟨digit, hdigit, hvalue⟩ := digit?_of_isDigit hc
      simp only [appendDigits, hdigit, hc, true_and, ← hvalue]
      cases hten : n.timesTenPlus? digit with
      | some k => simp only [ih, timesTenPlus?_eq_some_iff.mp hten]
      | none =>
        -- the number so far is out of the range, and what comes behind only makes it larger
        simp only [reduceCtorEq, false_iff, not_and]
        intro _ hm
        have hle := le_ofDigitChars cs (n.toNat * 10 + digit.toNat)
        rw [← hm] at hle
        obtain ⟨k, hk⟩ := exists_toNat_eq_iff.mpr (Nat.lt_of_le_of_lt hle m.toNat_lt)
        rw [timesTenPlus?_eq_some_iff.mpr hk] at hten
        cases hten
    · have hdigit : digit? c = none := if_neg hc
      simp only [appendDigits, hdigit, hc, reduceCtorEq, Bool.false_eq_true, false_and]

/-- A text is read when it is a row of digits, and the numeral is in the range. -/
theorem parse_eq_ok_iff {text : String} {n : U256} : parse text = .ok n ↔
    text.toList ≠ [] ∧ (∀ c ∈ text.toList, c.isDigit = true) ∧
      n.toNat = Nat.ofDigitChars 10 text.toList 0 := by
  unfold parse
  split
  · rename_i hnil
    simp [hnil]
  · rename_i hne
    rw [appendDigits_eq_ok_iff]
    exact (and_iff_right hne).symm

/-- **A number is read back as it is shown.** -/
theorem parse_render (n : U256) : parse n.render = .ok n := by
  rw [parse_eq_ok_iff, render, String.toList_ofList, chars_eq_toDigits,
    Nat.ofDigitChars_ten_toDigits]
  have hdigits : ∀ c ∈ Nat.toDigits 10 n.toNat, c.isDigit = true := fun _ hc =>
    Nat.isDigit_of_mem_toDigits (by decide) (by decide) hc
  exact ⟨Nat.toDigits_ne_nil, hdigits, rfl⟩

end Arbiter.U256
