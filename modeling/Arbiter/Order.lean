/-
# Laws of comparisons

The laws of a lawful total order, stated for the elements that are compared.  An order on a type
with several constructors is given case by case, and in each case one of these closes the goal.
-/

namespace Arbiter.Order

universe u

variable {α : Type u} [Ord α]

theorem self [Std.LawfulEqOrd α] (a : α) : compare a a = .eq := Std.ReflCmp.compare_self

theorem eq_of_eq [Std.LawfulEqOrd α] (a b : α) (h : compare a b = .eq) : a = b :=
  Std.LawfulEqCmp.eq_of_compare h

theorem swap [Std.TransOrd α] (a b : α) : compare a b = (compare b a).swap :=
  Std.OrientedCmp.eq_swap

theorem lt_trans [Std.TransOrd α] (a b c : α) (hab : compare a b = .lt)
    (hbc : compare b c = .lt) : compare a c = .lt := Std.TransCmp.lt_trans hab hbc

theorem le_trans [Std.TransOrd α] (a b c : α) (hab : (compare a b).isLE)
    (hbc : (compare b c).isLE) : (compare a c).isLE := Std.TransCmp.isLE_trans hab hbc

/-- A comparison by two criteria is less when the first is, or when the first is equal and the
second is less. -/
theorem then_eq_lt_iff {o p : Ordering} : o.then p = .lt ↔ o = .lt ∨ o = .eq ∧ p = .lt := by
  cases o <;> simp

end Arbiter.Order
