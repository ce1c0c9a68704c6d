/-
# Digits

A numeral in any base up to sixteen is the list of its digits, most significant first, each written
as a character.  Readers gather the digits by one fold, which gives back the number.
-/
import Mathlib.Data.List.Induction
import Mathlib.Data.Nat.Digits.Defs

namespace Arbiter.Digits

/-- The digits of a numeral: they denote the number, and only that of zero starts with a zero. -/
theorem exists_digits {base : Nat} (hbase : 1 < base) (n : Nat) :
    ∃ ds : List Nat, Nat.toDigits base n = ds.map Nat.digitChar ∧ (∀ d ∈ ds, d < base) ∧
      ds.foldl (fun n d => n * base + d) 0 = n ∧ (ds.head? = some 0 → ds.length = 1) := by
  induction n using Nat.strong_induction_on with
  | _ n ih =>
    rw [Nat.toDigits_eq_if hbase]
    split
    · rename_i hn
      refine ⟨[n], rfl, ?_, ?_, fun _ => rfl⟩
      · rintro _ (_ | ⟨_, ⟨⟩⟩)
        exact hn
      · simp
    · rename_i hn
      have hpos : 0 < n / base := Nat.div_pos (Nat.le_of_not_lt hn) (Nat.lt_trans Nat.one_pos hbase)
      obtain ⟨ds, hds, hlt, hvalue, hhead⟩ :=
        ih (n / base) (Nat.div_lt_self (by omega) hbase)
      refine ⟨ds ++ [n % base], ?_, ?_, ?_, ?_⟩
      · rw [hds, List.map_append]
        rfl
      · intro d hd
        rcases List.mem_append.mp hd with hd | hd
        · exact hlt d hd
        · cases List.mem_singleton.mp hd
          exact Nat.mod_lt n (Nat.lt_trans Nat.one_pos hbase)
      · rw [List.foldl_append, hvalue]
        exact Nat.div_add_mod' n base
      · intro hzero
        cases ds with
        | nil => exact absurd hvalue (Nat.ne_of_lt hpos)
        | cons d ds =>
          rw [List.cons_append, List.head?_cons] at hzero
          obtain rfl : ds = [] := List.length_eq_zero_iff.mp (Nat.succ.inj (hhead hzero))
          obtain rfl : d = 0 := Option.some.inj hzero
          rw [List.foldl_cons, List.foldl_nil] at hvalue
          omega

/-- A digit denotes a number below ten. -/
theorem digit_lt {c : Char} (h : c.isDigit = true) : c.toNat - '0'.toNat < 10 := by
  have h := Char.isDigit_iff_toNat.mp h
  have h0 : '0'.toNat = 48 := rfl
  have h9 : '9'.toNat = 57 := rfl
  omega

/-- Digits denote less than the power of ten with as many zeros. -/
theorem ofDigitChars_lt {cs : List Char} (h : ∀ c ∈ cs, c.isDigit = true) :
    Nat.ofDigitChars 10 cs 0 < 10 ^ cs.length := by
  induction cs using List.reverseRecOn with
  | nil => decide
  | append_singleton cs c ih =>
    have hcs := ih fun d hd => h d (List.mem_append_left _ hd)
    have hc := digit_lt (h c (List.mem_append_right _ (List.mem_singleton_self c)))
    rw [Nat.ofDigitChars_append, Nat.ofDigitChars_cons, Nat.ofDigitChars_nil, List.length_append,
      List.length_singleton, Nat.pow_succ]
    omega

end Arbiter.Digits
