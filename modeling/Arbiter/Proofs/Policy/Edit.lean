/-
# Edits are atomic

Every edit of a policy set has the outcome of the operation of its name, and leaves the set as it is
when that fails (`Call.on_edit`).
-/
import Arbiter.Policy.Edit
import Arbiter.Proofs.Policy.Reachable

namespace Arbiter

open Outcome

namespace Edit

variable {α β : Type} {s : PolicySet}

/-! ## 1. Steps of an edit -/

@[simp] theorem on_pure (a : α) : (pure a : Edit α).on s = (.ok a, s) := rfl

@[simp] theorem on_throw (e : PolicySetError) : (throw e : Edit α).on s = (.error e, s) := rfl

@[simp] theorem on_get : (get : Edit PolicySet).on s = (.ok s, s) := rfl

@[simp] theorem on_set (s' : PolicySet) : (set s' : Edit PUnit).on s = (.ok ⟨⟩, s') := rfl

theorem on_bind_of_ok {e : Edit α} {f : α → Edit β} {a : α} {s' : PolicySet}
    (h : e.on s = (.ok a, s')) : (e >>= f).on s = (f a).on s' :=
  run_bind_of_ok h

theorem on_bind_of_error {e : Edit α} {f : α → Edit β} {cause : PolicySetError} {s' : PolicySet}
    (h : e.on s = (.error cause, s')) : (e >>= f).on s = (.error cause, s') :=
  run_bind_of_error h

theorem on_bind (e : Edit α) (f : α → Edit β) : (e >>= f).on s
    = match e.on s with
      | (.ok a, s') => (f a).on s'
      | (.error cause, s') => (.error cause, s') := by
  rcases h : e.on s with ⟨_ | _, s'⟩
  · exact on_bind_of_error h
  · exact on_bind_of_ok h

@[simp] theorem on_putTemplate (id : PolicyId) (t : Template) : (putTemplate id t).on s
    = (.ok (), { s with templates := s.templates.insert id t }) := rfl

@[simp] theorem on_putPolicy (id : PolicyId) (p : Policy) : (putPolicy id p).on s
    = (.ok (), { s with links := s.links.insert id p }) := rfl

/-! ## 2. Edits and operations -/

/-- The outcome of an operation with the set that it is applied to: the new set if there is one, and
otherwise the old one. -/
def settle (s : PolicySet) : Except PolicySetError (α × PolicySet) →
    Except PolicySetError α × PolicySet
  | .ok (a, s') => (.ok a, s')
  | .error cause => (.error cause, s)

@[simp] theorem on_refuseIf (taken : Bool) (cause : PolicySetError) : (refuseIf taken cause).on s
    = (if taken then .error cause else .ok (), s) := by
  cases taken <;> rfl

@[simp] theorem on_made (p : Except LinkingError Policy) : (made p).on s
    = (p.mapError .linking, s) := by
  cases p <;> rfl

theorem on_addTemplate (t : Template) :
    (addTemplate t).on s = settle s ((s.addTemplate t).map fun s' => ((), s')) := by
  rw [addTemplate, on_bind_of_ok on_get, on_bind, on_refuseIf, PolicySet.addTemplate]
  cases s.templates.contains t.id <;> rfl

theorem on_addStatic (t : Template) :
    (addStatic t).on s = settle s ((s.addStatic t).map fun s' => ((), s')) := by
  rw [addStatic, on_bind_of_ok on_get, on_bind, on_refuseIf, PolicySet.addStatic]
  cases htaken : s.templates.contains t.id || s.links.contains t.id with
  | true =>
    rw [Bool.or_eq_true] at htaken
    rw [if_pos htaken]
    rfl
  | false =>
    rw [← Bool.not_eq_true, Bool.or_eq_true] at htaken
    rw [if_neg htaken]
    simp only [Bool.false_eq_true, if_false, on_bind, on_made]
    cases hp : Policy.newStatic t with
    | error cause => rfl
    | ok p =>
      obtain ⟨-, rfl⟩ := Policy.newStatic_eq_ok_iff.mp hp
      rfl

theorem on_link (template id : PolicyId) (values : SlotValues) :
    (link template id values).on s = settle s (s.link template id values) := by
  rw [link, on_bind_of_ok on_get, PolicySet.link]
  cases s.templates.find? template with
  | none => rfl
  | some t =>
    simp only [on_bind_of_ok on_get, on_bind, on_refuseIf]
    cases htaken : s.links.contains id || s.templates.contains id with
    | true =>
      rw [Bool.or_eq_true] at htaken
      rw [if_pos htaken]
      rfl
    | false =>
      rw [← Bool.not_eq_true, Bool.or_eq_true] at htaken
      rw [if_neg htaken]
      simp only [Bool.false_eq_true, if_false, on_made]
      cases Policy.ofLink t id values <;> rfl

theorem on_isNew (t : Template) : (isNew t).on s
    = match s.templates.find? t.id with
      | some existing =>
        (if existing ≠ t then .error (.duplicateId t.id) else .ok false, s)
      | none => (.ok true, s) := by
  rw [isNew, on_bind_of_ok on_get]
  cases s.templates.find? t.id with
  | none => rfl
  | some existing =>
    rw [on_bind, on_refuseIf]
    by_cases hsame : existing = t <;> simp [hsame]

theorem on_add (p : Policy) : (add p).on s = settle s ((s.add p).map fun s' => ((), s')) := by
  rw [add, on_bind, on_isNew, PolicySet.add]
  cases s.templates.find? p.template.id with
  | none =>
    simp only [on_bind_of_ok on_get, on_bind, on_refuseIf]
    cases s.links.contains p.id <;> rfl
  | some existing =>
    by_cases hsame : existing = p.template
    · simp only [hsame, ne_eq, not_true_eq_false, if_false, on_bind_of_ok on_get, on_bind,
        on_refuseIf]
      cases s.links.contains p.id <;> rfl
    · simp only [ne_eq, hsame, not_false_eq_true, if_true]
      rfl

/-- Policies are added one after the other, up to the first one that cannot be. -/
theorem on_forM_add : ∀ (ps : List Policy) (s : PolicySet),
    match ps.foldlM PolicySet.add s with
    | .ok s' => (ps.forM add).on s = (.ok (), s')
    | .error cause => ((ps.forM add).on s).1 = .error cause
  | [], s => rfl
  | p :: ps, s => by
    have hstep := on_add p (s := s)
    rw [List.foldlM_cons]
    cases hp : s.add p with
    | error cause =>
      rw [hp] at hstep
      exact congrArg Prod.fst (on_bind_of_error hstep)
    | ok s' =>
      rw [hp] at hstep
      have hrest := on_forM_add ps s'
      have hcons : ((p :: ps).forM add).on s = (ps.forM add).on s' := on_bind_of_ok hstep
      rw [ok_bind, hcons]
      exact hrest

theorem on_replace (ps : List Policy) : (replace ps).on s
    = settle s ((PolicySet.ofPolicies ps).map fun s' => ((), s')) := by
  have hadd := on_forM_add ps .empty
  rw [replace, PolicySet.ofPolicies]
  cases hps : ps.foldlM PolicySet.add .empty with
  | ok s' =>
    rw [hps] at hadd
    rw [hadd]
    rfl
  | error cause =>
    rw [hps] at hadd
    generalize (ps.forM add).on .empty = r at hadd
    obtain ⟨_, s'⟩ := r
    cases hadd
    rfl

end Edit

namespace Call

variable {c : Call} {s : PolicySet}

/-- **A call does what its operation does, and leaves the set as it is when that fails.** -/
theorem on_edit (c : Call) (s : PolicySet) :
    c.edit.on s = Edit.settle s ((c.result s).map fun s' => ((), s')) := by
  cases c with
  | add p => exact Edit.on_add p
  | addStatic t => exact Edit.on_addStatic t
  | addTemplate t => exact Edit.on_addTemplate t
  | ofPolicies ps => exact Edit.on_replace ps
  | link template id values =>
    rw [edit, Edit.on_bind, Edit.on_link, result]
    cases s.link template id values <;> rfl

end Call

end Arbiter
