/-
# Truth values of expressions

Operands that have to be true or false are evaluated to truth values (`Expr.evalBool`).  The
equations here say what the operators on truth values do with those of their operands; nothing else
looks at how such an operator is evaluated.  Membership is the other operator with an order of its
own: it has an answer when all elements of the set are entities (`isInAny_of_entities`).
-/
import Arbiter.Evaluation
import Arbiter.Proofs.Outcome

namespace Arbiter

open Outcome

variable {request : Request} {store : EntityStore}

theorem Value.asBool_eq_ok_iff {v : Value} {b : Bool} : v.asBool = .ok b ↔ v = .bool b := by
  cases v with
  | bool b' => simp [asBool]
  | _ => exact iff_of_false nofun nofun

namespace Expr

theorem evalBool_eq_ok_iff {e : Expr} {b : Bool} :
    e.evalBool request store = .ok b ↔ e.eval request store = .ok (.bool b) := by
  unfold evalBool
  rw [bind_eq_ok_iff]
  constructor
  · rintro ⟨v, hv, hb⟩
    rw [Value.asBool_eq_ok_iff.mp hb] at hv
    exact hv
  · intro h
    exact ⟨.bool b, h, rfl⟩

/-- What follows the truth value of an operand follows its value first. -/
theorem evalBool_bind {α : Type} {e : Expr} {f : Bool → Except EvalError α} :
    (e.evalBool request store >>= f)
      = e.eval request store >>= fun v => v.asBool >>= f := by
  unfold evalBool
  cases e.eval request store <;> rfl

theorem eval_not {e : Expr} : (Expr.not e).eval request store
    = e.evalBool request store >>= fun b => .ok (.bool !b) := by
  rw [evalBool_bind]
  rfl

theorem eval_and {l r : Expr} : (Expr.and l r).eval request store
    = l.evalBool request store >>= fun b =>
      if b = true then r.evalBool request store >>= fun c => .ok (.bool c)
      else .ok (.bool false) := by
  simp only [evalBool_bind]
  rfl

theorem eval_or {l r : Expr} : (Expr.or l r).eval request store
    = l.evalBool request store >>= fun b =>
      if b = true then .ok (.bool true)
      else r.evalBool request store >>= fun c => .ok (.bool c) := by
  simp only [evalBool_bind]
  rfl

theorem eval_ite {c y n : Expr} : (Expr.ite c y n).eval request store
    = c.evalBool request store >>= fun b =>
      if b = true then y.eval request store else n.eval request store := by
  rw [evalBool_bind]
  rfl

/-! Truth values of operators on truth values. -/

theorem evalBool_not {e : Expr} : (Expr.not e).evalBool request store
    = e.evalBool request store >>= fun b => .ok !b := by
  rw [evalBool, eval_not]
  cases e.evalBool request store <;> rfl

theorem evalBool_and {l r : Expr} : (Expr.and l r).evalBool request store
    = l.evalBool request store >>= fun b =>
      if b = true then r.evalBool request store else .ok false := by
  rw [evalBool, eval_and]
  cases l.evalBool request store with
  | error e => rfl
  | ok b =>
    cases b with
    | false => rfl
    | true => cases r.evalBool request store <;> rfl

/-! Operands of true expressions. -/

theorem eval_and_eq_true {l r : Expr} (h : (Expr.and l r).eval request store = .ok (.bool true)) :
    l.eval request store = .ok (.bool true) ∧ r.eval request store = .ok (.bool true) := by
  rw [eval_and] at h
  obtain ⟨b, hl, h⟩ := bind_eq_ok_iff.mp h
  cases b with
  | false => cases h
  | true =>
    obtain ⟨c, hr, h⟩ := bind_eq_ok_iff.mp h
    cases h
    exact ⟨evalBool_eq_ok_iff.mp hl, evalBool_eq_ok_iff.mp hr⟩

theorem eval_or_eq_true {l r : Expr} (h : (Expr.or l r).eval request store = .ok (.bool true)) :
    l.eval request store = .ok (.bool true) ∨ r.eval request store = .ok (.bool true) := by
  rw [eval_or] at h
  obtain ⟨b, hl, h⟩ := bind_eq_ok_iff.mp h
  cases b with
  | true => exact Or.inl (evalBool_eq_ok_iff.mp hl)
  | false =>
    obtain ⟨c, hr, h⟩ := bind_eq_ok_iff.mp h
    cases h
    exact Or.inr (evalBool_eq_ok_iff.mp hr)

theorem eval_ite_eq_true {c y n : Expr}
    (h : (Expr.ite c y n).eval request store = .ok (.bool true)) :
    c.eval request store = .ok (.bool true) ∧ y.eval request store = .ok (.bool true) ∨
      n.eval request store = .ok (.bool true) := by
  rw [eval_ite] at h
  obtain ⟨b, hc, h⟩ := bind_eq_ok_iff.mp h
  cases b with
  | true => exact Or.inl ⟨evalBool_eq_ok_iff.mp hc, h⟩
  | false => exact Or.inr h

end Expr

/-- In a set of entities every element can be looked at, so membership has an answer. -/
theorem Evaluation.isInAny_of_entities (store : EntityStore) (uid : EntityUid) :
    ∀ {vs : List Value}, (∀ v ∈ vs, ∃ u, v = .entity u) →
      ∃ b, isInAny store uid vs = .ok b ∧
        (b = true ↔ ∃ u, .entity u ∈ vs ∧ store.isDescendant uid u = true)
  | [], _ => ⟨false, rfl, iff_of_false nofun fun ⟨_, h, _⟩ => nomatch h⟩
  | v :: vs, h => by
    obtain ⟨⟨u, rfl⟩, hvs⟩ := List.forall_mem_cons.mp h
    simp only [isInAny]
    split
    · rename_i hin
      exact ⟨true, rfl, iff_of_true rfl ⟨u, List.mem_cons_self, hin⟩⟩
    · rename_i hin
      obtain ⟨b, hb, hiff⟩ := isInAny_of_entities store uid hvs
      refine ⟨b, hb, hiff.trans (exists_congr fun u' => ?_)⟩
      constructor
      · rintro ⟨hmem, hu'⟩
        exact ⟨List.mem_cons_of_mem _ hmem, hu'⟩
      · rintro ⟨hmem, hu'⟩
        rcases List.mem_cons.mp hmem with heq | hmem
        · cases heq
          exact absurd hu' hin
        · exact ⟨hmem, hu'⟩

end Arbiter
