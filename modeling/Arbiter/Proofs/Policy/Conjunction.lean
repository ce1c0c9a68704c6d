/-
# Conditions are a conjunction

The conditions of a template ask together what one `when` asks of the conjunction of their bodies,
those of `unless` negated (`conjunction`).  Two functions walk the list of conditions, each in its
own way, and both do what `&&` does.

* Evaluation stops at the first condition that does not hold, with its error if it has one.  So
  does `&&` at its left operand (`evalBool_conjunction`).
* Checking makes the facts of a `when` known to the conditions behind it.  So does `&&` with those
  of its left operand, and a negation, like an `unless`, has none (`boolFaults_conjunction`).

The conjunction is nested to the left and the list to the right, so both proofs are inductions on
the list with what is joined so far in front (`Expr.conjoin`).
-/
import Arbiter.Proofs.Authorization.Decision
import Arbiter.Validation.Basic

namespace Arbiter

open Outcome

/-! ## 1. The conjunction of conditions -/

/-- A condition as an expression that has to be true. -/
def Condition.toExpr (c : Condition) : Expr :=
  match c.kind with
  | .when => c.body
  | .unless => .not c.body

/-- An expression and the conditions behind it, joined from the left. -/
def Expr.conjoin (e : Expr) (cs : List Condition) : Expr := cs.foldl (fun l c => .and l c.toExpr) e

/-- The conditions as one expression; without conditions it is `true`. -/
def conjunction : List Condition → Expr
  | [] => .value (.bool true)
  | c :: cs => c.toExpr.conjoin cs

/-- The template with its conditions joined to one. -/
def Template.conjoined (t : Template) : Template :=
  { t with conditions := [⟨.when, conjunction t.conditions⟩] }

theorem Expr.conjoin_cons (e : Expr) (c : Condition) (cs : List Condition) :
    e.conjoin (c :: cs) = (Expr.and e c.toExpr).conjoin cs := rfl

/-! ## 2. Evaluation -/

section

variable {request : Request} {store : EntityStore}

theorem Condition.evalBool_toExpr (c : Condition) : c.toExpr.evalBool request store
    = c.body.evalBool request store >>= fun b => .ok (c.kind.admits b) := by
  obtain ⟨kind, body⟩ := c
  cases kind
  · exact (bind_pure _).symm
  · exact Expr.evalBool_not

/-- Evaluation goes on from an expression that is true to the conditions behind it. -/
theorem Expr.evalBool_conjoin (e : Expr) (cs : List Condition) :
    (e.conjoin cs).evalBool request store = e.evalBool request store >>= fun b =>
      if b = true then conditionsHold request store cs else .ok false := by
  induction cs generalizing e with
  | nil =>
    rw [conjoin, List.foldl_nil]
    cases e.evalBool request store with
    | error _ => rfl
    | ok b => cases b <;> rfl
  | cons c cs ih =>
    rw [conjoin_cons, ih, evalBool_and]
    cases e.evalBool request store with
    | error _ => rfl
    | ok b =>
      cases b with
      | false => rfl
      | true =>
        rw [ok_bind, if_pos rfl, ok_bind, if_pos rfl, c.evalBool_toExpr, conditionsHold_cons]
        cases c.body.evalBool request store <;> rfl

/-- **The conjunction evaluates to whether the conditions hold.** -/
theorem evalBool_conjunction (cs : List Condition) :
    (conjunction cs).evalBool request store = conditionsHold request store cs := by
  cases cs with
  | nil => rfl
  | cons c cs =>
    rw [conjunction, Expr.evalBool_conjoin, c.evalBool_toExpr, conditionsHold_cons]
    cases c.body.evalBool request store <;> rfl

theorem conditionsHold_singleton_when (e : Expr) :
    conditionsHold request store [⟨.when, e⟩] = e.evalBool request store := by
  rw [conditionsHold_cons]
  cases e.evalBool request store with
  | error _ => rfl
  | ok b => cases b <;> rfl

end

/-! ## 3. Checking -/

section

variable {s : Schema} {env : RequestEnv}

/-- What the checker tells of an expression that has to be a truth value. -/
def Expr.boolFaults (s : Schema) (env : RequestEnv) (e : Expr) (known : Facts) :
    List PolicyFault :=
  (e.check s env known).faults ++ Checker.expectBool (e.check s env known).type

/-- A negation is checked as its operand is. -/
theorem Condition.boolFaults_toExpr (c : Condition) (known : Facts) :
    c.toExpr.boolFaults s env known = c.body.boolFaults s env known := by
  obtain ⟨kind, body⟩ := c
  cases kind
  · rfl
  · exact List.append_nil _

theorem Condition.facts_toExpr (c : Condition) (known : Facts) :
    (c.toExpr.check s env known).facts
      = if c.kind = .when then (c.body.check s env known).facts else [] := by
  obtain ⟨kind, body⟩ := c
  cases kind <;> rfl

/-- A conjunction makes the facts of its left operand known to the right one. -/
theorem Expr.boolFaults_and (l r : Expr) (known : Facts) :
    (Expr.and l r).boolFaults s env known = l.boolFaults s env known
      ++ r.boolFaults s env (known ++ (l.check s env known).facts) := by
  have hbool : Checker.expectBool .bool = [] := rfl
  simp only [boolFaults, check, hbool, List.append_assoc, List.append_nil]

/-- A condition makes the facts of its expression known to those behind it. -/
theorem conditionFaults_cons (c : Condition) (cs : List Condition) (known : Facts) :
    Template.conditionFaults s env known (c :: cs) = c.toExpr.boolFaults s env known
      ++ Template.conditionFaults s env (known ++ (c.toExpr.check s env known).facts) cs := by
  rw [c.boolFaults_toExpr, c.facts_toExpr, Template.conditionFaults]
  split
  · rfl
  · rw [List.append_nil]
    rfl

theorem Expr.boolFaults_conjoin (e : Expr) (cs : List Condition) (known : Facts) :
    (e.conjoin cs).boolFaults s env known = e.boolFaults s env known
      ++ Template.conditionFaults s env (known ++ (e.check s env known).facts) cs := by
  induction cs generalizing e with
  | nil => exact (List.append_nil _).symm
  | cons c cs ih =>
    have hfacts : ((Expr.and e c.toExpr).check s env known).facts
        = (e.check s env known).facts
          ++ (c.toExpr.check s env (known ++ (e.check s env known).facts)).facts := rfl
    rw [conjoin_cons, ih, boolFaults_and, hfacts, conditionFaults_cons, List.append_assoc,
      List.append_assoc]

/-- **The conjunction has the faults of the conditions.** -/
theorem boolFaults_conjunction (cs : List Condition) (known : Facts) :
    (conjunction cs).boolFaults s env known = Template.conditionFaults s env known cs := by
  cases cs with
  | nil => rfl
  | cons c cs => rw [conjunction, Expr.boolFaults_conjoin, conditionFaults_cons]

theorem conditionFaults_singleton_when (e : Expr) (known : Facts) :
    Template.conditionFaults s env known [⟨.when, e⟩] = e.boolFaults s env known :=
  List.append_nil _

/-- The scope is left as it is, so the conditions are checked in the same environments. -/
theorem Template.faults_conjoined (s : Schema) (t : Template) :
    t.conjoined.faults s = t.faults s := by
  have hscope : t.conjoined.scopeFaults s = t.scopeFaults s := rfl
  have henvironments : t.conjoined.environments s = t.environments s := rfl
  have hconditions : ∀ env, conditionFaults s env [] t.conjoined.conditions
      = conditionFaults s env [] t.conditions := by
    intro env
    rw [conjoined, conditionFaults_singleton_when, boolFaults_conjunction]
  unfold faults
  rw [hscope, henvironments]
  simp only [hconditions]

end

/-- **Conditions are a conjunction.**  One `when` with the conjunction of the conditions holds on
the same requests, and fails with the same error, as the conditions do; and a template with that
one condition has the same faults in the same order, under the same id, as it has with its own. -/
theorem conditions_conjoined :
    (∀ (request : Request) (store : EntityStore) (cs : List Condition),
      conditionsHold request store [⟨.when, conjunction cs⟩] = conditionsHold request store cs) ∧
      ∀ (s : Schema) (t : Template),
        t.conjoined.faults s = t.faults s ∧ t.conjoined.validate s = t.validate s := by
  refine ⟨?_, ?_⟩
  · intro request store cs
    rw [conditionsHold_singleton_when, evalBool_conjunction]
  · intro s t
    have hfaults : t.conjoined.faults s = t.faults s := t.faults_conjoined s
    have hid : t.conjoined.id = t.id := rfl
    refine ⟨hfaults, ?_⟩
    unfold Template.validate
    rw [hfaults, hid]

end Arbiter
