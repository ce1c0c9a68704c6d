/-
# Comparisons of extension values

What is less denotes a smaller number, for words as for decimals, so that values compare like the
numbers that they denote (`compare_eq_of_lt_iff`).  The four comparison functions differ only in how
they look at one comparison of their arguments, so all four of them say how the numbers are ordered
(`Compares`).
-/
import Mathlib.Data.Int.Order.Basic
import Mathlib.Data.Nat.Basic
import Mathlib.Order.Compare
import Mathlib.Order.Lattice
import Arbiter.Value.Call

namespace Arbiter

/-! ## 1. Comparison by what is denoted -/

/-- What is ordered like the numbers that it denotes compares like them. -/
theorem compare_eq_of_lt_iff {α β : Type} [LinearOrder α] [Ord β] [LT β] [LE β]
    [Std.LawfulOrderOrd β] [Std.LawfulOrderLT β] (f : β → α) (h : ∀ a b, a < b ↔ f a < f b)
    (a b : β) : compare a b = compare (f a) (f b) := by
  rcases lt_trichotomy (f a) (f b) with hlt | heq | hgt
  · rw [compare_lt_iff_lt.mpr hlt, Std.compare_eq_lt, h]
    exact hlt
  · have hlt : compare a b ≠ .lt := by
      rw [Ne, Std.compare_eq_lt, h]
      exact heq.not_lt
    have hgt : compare a b ≠ .gt := by
      rw [Ne, Std.compare_eq_gt, h]
      exact heq.symm.not_lt
    rw [compare_eq_iff_eq.mpr heq]
    cases hcompare : compare a b with
    | lt => exact absurd hcompare hlt
    | eq => rfl
    | gt => exact absurd hcompare hgt
  · rw [compare_gt_iff_gt.mpr hgt, Std.compare_eq_gt, h]
    exact hgt

theorem compare_toInt (a b : Int64) : compare a b = compare a.toInt b.toInt :=
  compare_eq_of_lt_iff Int64.toInt (fun _ _ => Int64.lt_iff_toInt_lt) a b

theorem compare_toNat (a b : UInt64) : compare a b = compare a.toNat b.toNat :=
  compare_eq_of_lt_iff UInt64.toNat (fun _ _ => UInt64.lt_iff_toNat_lt) a b

/-! ## 2. The comparison functions -/

namespace ExtensionFunction

variable {α : Type} [LinearOrder α] {a b : Value} {x y : α}

theorem isLT_compare : (compare x y).isLT = decide (x < y) := by
  rw [Bool.eq_iff_iff, Ordering.isLT_iff_eq_lt, compare_lt_iff_lt, decide_eq_true_iff]

theorem isLE_compare : (compare x y).isLE = decide (x ≤ y) := by
  rw [Bool.eq_iff_iff, Ordering.isLE_iff_ne_gt, ← ne_eq, compare_le_iff_le, decide_eq_true_iff]

theorem isGT_compare : (compare x y).isGT = decide (y < x) := by
  rw [Bool.eq_iff_iff, Ordering.isGT_iff_eq_gt, compare_gt_iff_gt, decide_eq_true_iff]

theorem isGE_compare : (compare x y).isGE = decide (y ≤ x) := by
  rw [Bool.eq_iff_iff, Ordering.isGE_iff_ne_lt, ← ne_eq, compare_ge_iff_ge, decide_eq_true_iff]

/-- The comparison functions order two values like two numbers. -/
structure Compares (a b : Value) (x y : α) : Prop where
  lessThan : call .lessThan [a, b] = .ok (.bool (decide (x < y)))
  lessThanOrEqual : call .lessThanOrEqual [a, b] = .ok (.bool (decide (x ≤ y)))
  greaterThan : call .greaterThan [a, b] = .ok (.bool (decide (y < x)))
  greaterThanOrEqual : call .greaterThanOrEqual [a, b] = .ok (.bool (decide (y ≤ x)))

/-- Values that compare like two numbers are ordered like them. -/
theorem compares_of_compareArgs (h : compareArgs a b = .ok (compare x y)) : Compares a b x y where
  lessThan := by
    rw [← isLT_compare, call, h]
    rfl
  lessThanOrEqual := by
    rw [← isLE_compare, call, h]
    rfl
  greaterThan := by
    rw [← isGT_compare, call, h]
    rfl
  greaterThanOrEqual := by
    rw [← isGE_compare, call, h]
    rfl

end ExtensionFunction

end Arbiter
