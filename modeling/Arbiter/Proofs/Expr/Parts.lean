/-
# Parts of expressions

The parts of an expression are itself and the parts of its direct subexpressions (`Expr.Part`,
`Expr.AllParts`).  What holds of an expression whenever it holds of its direct subexpressions holds
of every expression (`Expr.induction_children`).
-/
import Arbiter.Expr.Basic
import Mathlib.Data.List.Basic

namespace Arbiter.Expr

/-- `x` is a part of `e`, maybe `e` itself. -/
inductive Part (x : Expr) : Expr → Prop
  | self : Part x x
  | child {c e : Expr} (hc : c ∈ e.children) (h : Part x c) : Part x e

/-- The predicate holds of every part. -/
def AllParts (P : Expr → Prop) (e : Expr) : Prop := ∀ x, Part x e → P x

theorem AllParts.self {P : Expr → Prop} {e : Expr} (h : e.AllParts P) : P e := h e .self

theorem AllParts.child {P : Expr → Prop} {c e : Expr} (h : e.AllParts P) (hc : c ∈ e.children) :
    c.AllParts P := fun x hx => h x (.child hc hx)

theorem allParts_iff {P : Expr → Prop} {e : Expr} :
    AllParts P e ↔ P e ∧ e.children.Forall (AllParts P) := by
  rw [List.forall_iff_forall_mem]
  refine ⟨fun h => ⟨h.self, fun c hc => h.child hc⟩, fun h x hx => ?_⟩
  cases hx with
  | self => exact h.1
  | child hc hx => exact h.2 _ hc x hx

theorem sizeOf_lt_of_mem_children {c e : Expr} (h : c ∈ e.children) : sizeOf c < sizeOf e := by
  cases e with
  | value _ => cases h
  | var _ => cases h
  | set items =>
    have hlt : sizeOf c < sizeOf items := List.sizeOf_lt_of_mem h
    rw [Expr.set.sizeOf_spec]
    omega
  | call name args =>
    have hlt : sizeOf c < sizeOf args := List.sizeOf_lt_of_mem h
    rw [Expr.call.sizeOf_spec]
    omega
  | record attrs =>
    obtain ⟨⟨name, e⟩, hmem, rfl⟩ := List.mem_map.mp h
    have hlt := List.sizeOf_lt_of_mem hmem
    simp only [Prod.mk.sizeOf_spec] at hlt ⊢
    rw [Expr.record.sizeOf_spec]
    omega
  | _ =>
    simp only [children, List.mem_cons, List.not_mem_nil, or_false] at h
    rcases h with rfl | rfl | rfl <;> simp <;> omega

/-- What holds of an expression when it holds of its direct subexpressions holds of all. -/
theorem induction_children {motive : Expr → Prop}
    (step : ∀ e, (∀ c ∈ e.children, motive c) → motive e) (e : Expr) : motive e :=
  step e fun c hc =>
    have _hlt : sizeOf c < sizeOf e := sizeOf_lt_of_mem_children hc
    induction_children step c
termination_by sizeOf e

end Arbiter.Expr
