/-
# Scopes as conditions

The scope of a policy says nothing that its conditions could not say.  Each constraint is written
as an expression, slots as their values (`Policy.constraintExpr`, `ActionConstraint.toExpr`), and
the three expressions stand as conditions before those of the policy (`Policy.Inlines`).

Scopes and expressions are evaluated by separate functions.  They agree constraint by constraint:
what evaluation makes of the expression of a constraint is whether the constraint admits the entity
(`eval_constraintExpr`, `eval_toExpr`).  The order is the same too, so a condition is looked at
just when the scope matches, and a policy and its rewriting have the same outcome
(`Inlines.isSatisfied_eq`), whatever that is.
-/
import Arbiter.Proofs.Authorization.Decision
import Arbiter.Proofs.Elementwise

namespace Arbiter

open Outcome

/-! ## 1. Constraints as expressions -/

namespace Policy

/-- A reference as an expression; a slot is written as its value. -/
def refExpr (p : Policy) (r : EntityRef) : Except EvalError Expr := do
  return .value (.entity (← p.resolve r))

/-- A constraint on the entity of a variable, as an expression. -/
def constraintExpr (p : Policy) (v : Var) : ScopeConstraint → Except EvalError Expr
  | .any => .ok (.value (.bool true))
  | .eq r => do return .binary .eq (.var v) (← p.refExpr r)
  | .isIn r => do return .binary .isIn (.var v) (← p.refExpr r)
  | .isType t => .ok (.isType (.var v) t)
  | .isTypeIn t r => do return .isTypeIn (.var v) t (← p.refExpr r)

end Policy

/-- A constraint on the action, as an expression. -/
def ActionConstraint.toExpr : ActionConstraint → Expr
  | .any => .value (.bool true)
  | .eq u => .binary .eq (.var .action) (.value (.entity u))
  | .isIn us => .binary .isIn (.var .action) (.set (us.map fun u => .value (.entity u)))

namespace Policy

/-- The scope as conditions: principal, action, resource. -/
def scopeConditions (p : Policy) : Except EvalError (List Condition) := do
  let principal ← p.constraintExpr .principal p.template.principal
  let resource ← p.constraintExpr .resource p.template.resource
  return [⟨.when, principal⟩, ⟨.when, p.template.action.toExpr⟩, ⟨.when, resource⟩]

/-- The template without slots that has the scope of the policy as conditions. -/
def inlinedTemplate (p : Policy) : Except EvalError Template := do
  let scope ← p.scopeConditions
  return { p.template with
    id := p.id
    principal := .any
    action := .any
    resource := .any
    conditions := scope ++ p.template.conditions }

/-- `q` is `p` with its scope moved to the front of its conditions. -/
structure Inlines (p q : Policy) : Prop where
  id : q.id = p.id
  effect : q.template.effect = p.template.effect
  principal : q.template.principal = .any
  action : q.template.action = .any
  resource : q.template.resource = .any
  conditions : ∃ scope, p.scopeConditions = .ok scope ∧
    q.template.conditions = scope ++ p.template.conditions

end Policy

/-! ## 2. Evaluation agrees with matching -/

section

variable {request : Request} {store : EntityStore} {p q : Policy}

theorem Expr.evalList_map_entity : ∀ us : List EntityUid,
    evalList request store (us.map fun u => .value (.entity u)) = .ok (us.map .entity)
  | [] => rfl
  | u :: us => by
    simp only [List.map_cons, evalList, eval, evalList_map_entity us, ok_bind, pure_eq_ok]

namespace Policy

/-- **Matching of a constraint is evaluation of its expression.** -/
theorem eval_constraintExpr {v : Var} {uid : EntityUid}
    (hv : Evaluation.var request v = .entity uid) {c : ScopeConstraint} {way : Option ScopeMatch}
    (hway : p.scopeMatch store uid c = .ok way) {e : Expr} (he : p.constraintExpr v c = .ok e) :
    e.eval request store = .ok (.bool way.isSome) := by
  cases c with
  | any =>
    cases hway
    cases he
    rfl
  | isType t =>
    cases hway
    cases he
    simp only [Expr.eval, hv, ok_bind, Value.asEntity, pure_eq_ok, isSome_matched]
  | eq r =>
    simp only [constraintExpr, refExpr] at he
    simp only [scopeMatch] at hway
    obtain ⟨u, hu, hway⟩ := bind_eq_ok_iff.mp hway
    rw [hu] at he
    cases he
    cases hway
    simp only [Expr.eval, Evaluation.binary, hv, ok_bind, pure_eq_ok, isSome_matched]
    congr 2
    rw [Bool.eq_iff_iff, beq_iff_eq, beq_iff_eq, Value.entity.injEq, eq_comm]
  | isIn r =>
    simp only [constraintExpr, refExpr] at he
    simp only [scopeMatch] at hway
    obtain ⟨u, hu, hway⟩ := bind_eq_ok_iff.mp hway
    rw [hu] at he
    cases he
    cases hway
    simp only [Expr.eval, Evaluation.binary, Value.asEntity, Evaluation.isIn, hv, ok_bind,
      pure_eq_ok, isSome_matched]
  | isTypeIn t r =>
    simp only [constraintExpr, refExpr] at he
    obtain ⟨_, hr, he⟩ := bind_eq_ok_iff.mp he
    obtain ⟨u, hu, hr⟩ := bind_eq_ok_iff.mp hr
    cases hr
    cases he
    simp only [scopeMatch, hu, ok_bind, pure_eq_ok] at hway
    simp only [Expr.eval, hv, ok_bind, Value.asEntity]
    split at hway
    · rename_i ht
      cases hway
      simp only [if_pos ht, Evaluation.isIn, ok_bind, pure_eq_ok, isSome_matched]
    · rename_i ht
      cases hway
      rw [if_neg ht]
      rfl

theorem eval_toExpr : p.template.action.toExpr.eval request store
    = .ok (.bool (p.actionMatch store request.action).isSome) := by
  unfold actionMatch
  cases p.template.action with
  | any => rfl
  | eq u =>
    simp only [ActionConstraint.toExpr, Expr.eval, Evaluation.binary, Evaluation.var, ok_bind,
      pure_eq_ok, isSome_matched]
    congr 2
    rw [Bool.eq_iff_iff, beq_iff_eq, beq_iff_eq, Value.entity.injEq, eq_comm]
  | isIn us =>
    have hentities : ∀ v ∈ SortedList.ofElems (us.map Value.entity), ∃ u, v = .entity u := by
      intro v hv
      obtain ⟨u, -, rfl⟩ := List.mem_map.mp (SortedList.mem_ofElems.mp hv)
      exact ⟨u, rfl⟩
    obtain ⟨b, hb, hiff⟩ :=
      Evaluation.isInAny_of_entities store request.action hentities
    simp only [ActionConstraint.toExpr, Expr.eval, Evaluation.binary, Evaluation.var, ok_bind,
      Expr.evalList_map_entity, Value.asEntity, Value.setOf, Evaluation.isIn, hb, pure_eq_ok,
      isSome_matched]
    congr 2
    rw [Bool.eq_iff_iff, hiff, List.any_eq_true]
    refine exists_congr fun u => and_congr_left fun _ => ?_
    rw [SortedList.mem_ofElems, List.mem_map]
    constructor
    · rintro ⟨u', hu', heq⟩
      cases heq
      exact hu'
    · intro hu
      exact ⟨u, hu, rfl⟩

/-! ## 3. Policies and sets -/

theorem exists_refExpr {r : EntityRef}
    (h : ∀ s, r.slot? = some s → ∃ u, p.values.find? s = some u) : ∃ e, p.refExpr r = .ok e := by
  obtain ⟨u, hu⟩ := exists_resolve h
  unfold refExpr
  rw [hu]
  exact ⟨_, rfl⟩

theorem Resolves.exists_constraintExpr {c : ScopeConstraint} (hc : p.Resolves c) (v : Var) :
    ∃ e, p.constraintExpr v c = .ok e := by
  cases c with
  | any => exact ⟨_, rfl⟩
  | isType t => exact ⟨_, rfl⟩
  | eq r =>
    obtain ⟨e, he⟩ := exists_refExpr hc
    simp only [constraintExpr, he]
    exact ⟨_, rfl⟩
  | isIn r =>
    obtain ⟨e, he⟩ := exists_refExpr hc
    simp only [constraintExpr, he]
    exact ⟨_, rfl⟩
  | isTypeIn t r =>
    obtain ⟨e, he⟩ := exists_refExpr hc
    simp only [constraintExpr, he]
    exact ⟨_, rfl⟩

/-- Every policy that is made of a template can be rewritten, as a static policy. -/
theorem Made.exists_inlines (hp : p.Made) :
    ∃ t q, p.inlinedTemplate = .ok t ∧ newStatic t = .ok q ∧ p.Inlines q := by
  obtain ⟨principal, hprincipal⟩ := hp.resolves_principal.exists_constraintExpr .principal
  obtain ⟨resource, hresource⟩ := hp.resolves_resource.exists_constraintExpr .resource
  have hscope : p.scopeConditions = .ok
      [⟨.when, principal⟩, ⟨.when, p.template.action.toExpr⟩, ⟨.when, resource⟩] := by
    unfold scopeConditions
    rw [hprincipal, hresource]
    rfl
  unfold inlinedTemplate
  rw [hscope]
  exact ⟨_, ⟨_, none, .empty⟩, rfl, newStatic_eq_ok_iff.mpr ⟨rfl, rfl⟩,
    { id := rfl, effect := rfl, principal := rfl, action := rfl, resource := rfl,
      conditions := ⟨_, hscope, rfl⟩ }⟩

theorem conditionsHold_when {e : Expr} {b : Bool} {cs : List Condition}
    (he : e.eval request store = .ok (.bool b)) :
    conditionsHold request store (⟨.when, e⟩ :: cs)
      = if b = true then conditionsHold request store cs else .ok false := by
  rw [conditionsHold_cons, Expr.evalBool_eq_ok_iff.mpr he]
  rfl

/-- **A policy and its rewriting have the same outcome on every request.** -/
theorem Inlines.isSatisfied_eq (h : p.Inlines q) (hp : p.Made) (request : Request)
    (store : EntityStore) : q.isSatisfied request store = p.isSatisfied request store := by
  obtain ⟨scope, hscope, hconditions⟩ := h.conditions
  obtain ⟨way, hprincipal⟩ :=
    hp.resolves_principal.exists_scopeMatch store request.principal
  obtain ⟨way', hresource⟩ :=
    hp.resolves_resource.exists_scopeMatch store request.resource
  obtain ⟨principal, he, hscope⟩ := bind_eq_ok_iff.mp hscope
  obtain ⟨resource, he', hscope⟩ := bind_eq_ok_iff.mp hscope
  cases hscope
  have hq : q.scopeMatches request store = .ok true := by
    rw [scopeMatches_eq_true_iff, h.principal, h.action, h.resource]
    exact ⟨trivial, trivial, trivial⟩
  unfold isSatisfied
  rw [hq, scopeMatches_eq_ok hprincipal hresource, ok_bind, ok_bind, if_pos rfl, hconditions,
    List.cons_append, List.cons_append, List.cons_append, List.nil_append,
    conditionsHold_when (eval_constraintExpr (v := .principal) rfl hprincipal he),
    conditionsHold_when eval_toExpr,
    conditionsHold_when (eval_constraintExpr (v := .resource) rfl hresource he')]
  -- the scope is a conjunction, the conditions are nested
  cases way.isSome <;> cases (p.actionMatch store request.action).isSome <;>
    cases way'.isSome <;> rfl

/-- What an answer depends on is the same for both policies. -/
def Alike (request : Request) (store : EntityStore) (p q : Policy) : Prop :=
  q.id = p.id ∧ q.template.effect = p.template.effect ∧
    q.isSatisfied request store = p.isSatisfied request store

end Policy

theorem Policy.forall₂_alike {ps qs : List Policy} (hmade : ∀ p ∈ ps, p.Made)
    (h : List.Forall₂ (fun p q => q = p ∨ p.Inlines q) ps qs) :
    List.Forall₂ (Alike request store) ps qs := by
  induction h with
  | nil => exact .nil
  | @cons p q ps qs hpq _ ih =>
    obtain ⟨hp, hrest⟩ := List.forall_mem_cons.mp hmade
    refine .cons ?_ (ih hrest)
    rcases hpq with rfl | hinlines
    · exact ⟨rfl, rfl, rfl⟩
    · exact ⟨hinlines.id, hinlines.effect, hinlines.isSatisfied_eq hp request store⟩

theorem satisfiedIds_congr {ps qs : List Policy} (effect : Effect)
    (h : List.Forall₂ (Policy.Alike request store) ps qs) :
    satisfiedIds effect request store qs = satisfiedIds effect request store ps := by
  unfold satisfiedIds
  rw [← List.filterMap_eq_map, List.filterMap_filter, List.filterMap_filter]
  refine filterMap_eq_of_forall₂ (h.imp ?_)
  rintro p q ⟨hid, heffect, hsat⟩
  have hwith : q.isSatisfiedWith effect request store
      = p.isSatisfiedWith effect request store := by
    unfold Policy.isSatisfiedWith
    rw [heffect, hsat]
  rw [hwith, Function.comp_apply, hid]
  rfl

theorem failures_congr {ps qs : List Policy}
    (h : List.Forall₂ (Policy.Alike request store) ps qs) :
    failures request store qs = failures request store ps := by
  refine filterMap_eq_of_forall₂ (h.imp ?_)
  rintro p q ⟨hid, -, hsat⟩
  unfold Policy.failure?
  rw [hid, hsat]

/-- Policies that are alike one by one give the same answer. -/
theorem authorize_congr {ps qs : PolicySet}
    (h : List.Forall₂ (Policy.Alike request store) ps.policies qs.policies) :
    authorize request qs store = authorize request ps store := by
  refine authorize_eq_of_respond_eq ?_
  unfold respond
  rw [satisfiedIds_congr .permit h, satisfiedIds_congr .forbid h, failures_congr h]

end

/-- **Scope matching agrees with evaluation.**  Every policy can be rewritten with its scope as
conditions, and the rewriting has the same outcome on every request: satisfied, not satisfied or
the same error.  A set of which any policies are rewritten gives the same answers. -/
theorem authorize_inlined :
    (∀ p : Policy, p.Made →
      (∃ t q, p.inlinedTemplate = .ok t ∧ Policy.newStatic t = .ok q ∧ p.Inlines q) ∧
        ∀ q, p.Inlines q → ∀ request store,
          q.isSatisfied request store = p.isSatisfied request store) ∧
      ∀ ps qs : PolicySet, ps.Reachable →
        List.Forall₂ (fun p q => q = p ∨ p.Inlines q) ps.policies qs.policies →
          ∀ request store, authorize request qs store = authorize request ps store := by
  refine ⟨?_, ?_⟩
  · intro p hp
    exact ⟨hp.exists_inlines, fun q h => h.isSatisfied_eq hp⟩
  · intro ps qs hps h request store
    exact authorize_congr
      (Policy.forall₂_alike (fun p hp => hps.wellFormed.made_of_mem hp) h)

/-! A link that may not be evaluated, and its rewriting. -/

namespace OneUser

def teamTemplate : Template where
  id := ⟨"team"⟩
  effect := .permit
  principal := .isTypeIn alice.type (.slot .principal)
  action := .isIn [request.action]
  conditions := brokenTemplate.conditions

def teamPolicy : Policy := ⟨teamTemplate, some ⟨"alice"⟩, .ofList [(.principal, alice)]⟩

def teamPolicies : PolicySet :=
  ⟨.ofList [(teamTemplate.id, teamTemplate)], .ofList [(⟨"alice"⟩, teamPolicy)]⟩

def inlinedTemplate : Template where
  id := ⟨"alice"⟩
  effect := .permit
  conditions := [
    ⟨.when, .isTypeIn (.var .principal) alice.type (.value (.entity alice))⟩,
    ⟨.when, .binary .isIn (.var .action) (.set [.value (.entity request.action)])⟩,
    ⟨.when, .value (.bool true)⟩] ++ brokenTemplate.conditions

def inlinedPolicy : Policy := ⟨inlinedTemplate, none, .empty⟩

def inlinedPolicies : PolicySet :=
  ⟨.ofList [(inlinedTemplate.id, inlinedTemplate)], .ofList [(inlinedTemplate.id, inlinedPolicy)]⟩

theorem authorize_inlined_oneUser :
    teamPolicies.Reachable ∧ teamPolicy.Made ∧ teamPolicy.Inlines inlinedPolicy ∧
      inlinedPolicy.isSatisfied request store = teamPolicy.isSatisfied request store ∧
        authorize request inlinedPolicies store = authorize request teamPolicies store := by
  have hmade : teamPolicy.Made := by
    have hlink : Policy.ofLink teamTemplate ⟨"alice"⟩ teamPolicy.values = .ok teamPolicy := by rfl
    exact .link hlink
  have hreachable : teamPolicies.Reachable := by
    have htemplate : PolicySet.empty.addTemplate teamTemplate
        = .ok ⟨teamPolicies.templates, .empty⟩ := by rfl
    have hlink : PolicySet.link ⟨teamPolicies.templates, .empty⟩ ⟨"team"⟩ ⟨"alice"⟩
        teamPolicy.values = .ok (teamPolicy, teamPolicies) := by rfl
    exact (PolicySet.reachable_empty.step (.template htemplate)).step (.policy (.link hlink))
  have hinlines : teamPolicy.Inlines inlinedPolicy :=
    { id := rfl, effect := rfl, principal := rfl, action := rfl, resource := rfl,
      conditions := ⟨_, rfl, rfl⟩ }
  exact ⟨hreachable, hmade, hinlines, (authorize_inlined.1 _ hmade).2 _ hinlines request store,
    authorize_inlined.2 _ inlinedPolicies hreachable (.cons (Or.inr hinlines) .nil) request store⟩

end OneUser

end Arbiter
