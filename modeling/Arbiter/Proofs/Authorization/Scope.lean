/-
# What a scope asks

What the three constraints of a scope ask of the entities of a request, as a proposition
(`ScopeConstraint.Meets`, `ActionConstraint.Meets`).  A scope matches exactly when all three are
met (`scopeMatches_eq_true_iff`); how a constraint admits an entity does not matter for that.  The
scope of a policy that is made of a template always has an answer (`Made.exists_scopeMatches`).
-/
import Arbiter.Authorization.Scope
import Arbiter.Proofs.Policy.Reachable

namespace Arbiter

open Outcome

/-- What a constraint on principal or resource asks of an entity; a slot stands for its value in
the policy. -/
def ScopeConstraint.Meets (p : Policy) (store : EntityStore) (uid : EntityUid) :
    ScopeConstraint → Prop
  | .any => True
  | .eq r => p.resolve r = .ok uid
  | .isIn r => ∃ u, p.resolve r = .ok u ∧ store.isDescendant uid u = true
  | .isType t => uid.type = t
  | .isTypeIn t r =>
    uid.type = t ∧ ∃ u, p.resolve r = .ok u ∧ store.isDescendant uid u = true

/-- What a constraint on the action asks of an action. -/
def ActionConstraint.Meets (store : EntityStore) (action : EntityUid) : ActionConstraint → Prop
  | .any => True
  | .eq u => u = action
  | .isIn us => ∃ u ∈ us, store.isDescendant action u = true

namespace Policy

variable {p : Policy} {store : EntityStore} {request : Request} {uid : EntityUid}

@[simp] theorem isSome_matched {α : Type} {way : α} {b : Bool} : (matched way b).isSome = b := by
  cases b <;> rfl

theorem matched_eq_some_iff {α : Type} {way w : α} {b : Bool} :
    matched way b = some w ↔ b = true ∧ w = way := by
  cases b <;> simp [matched, eq_comm]

theorem exists_scopeMatch_iff {c : ScopeConstraint} :
    (∃ way, p.scopeMatch store uid c = .ok (some way)) ↔ c.Meets p store uid := by
  cases c with
  | any => exact iff_of_true ⟨.any, rfl⟩ trivial
  | isType t => simp [scopeMatch, ScopeConstraint.Meets, matched_eq_some_iff]
  | eq r =>
    simp only [scopeMatch, ScopeConstraint.Meets, bind_eq_ok_iff, pure_eq_ok, Except.ok.injEq,
      matched_eq_some_iff, beq_iff_eq]
    constructor
    · rintro ⟨_, u, hu, rfl, -⟩
      exact hu
    · intro hu
      exact ⟨.eq, uid, hu, rfl, rfl⟩
  | isIn r =>
    simp only [scopeMatch, ScopeConstraint.Meets, bind_eq_ok_iff, pure_eq_ok, Except.ok.injEq,
      matched_eq_some_iff]
    constructor
    · rintro ⟨_, u, hu, hin, -⟩
      exact ⟨u, hu, hin⟩
    · rintro ⟨u, hu, hin⟩
      exact ⟨.isIn, u, hu, hin, rfl⟩
  | isTypeIn t r =>
    simp only [scopeMatch, ScopeConstraint.Meets]
    by_cases ht : uid.type = t
    · simp only [if_pos ht, bind_eq_ok_iff, pure_eq_ok, Except.ok.injEq, matched_eq_some_iff]
      constructor
      · rintro ⟨_, u, hu, hin, -⟩
        exact ⟨ht, u, hu, hin⟩
      · rintro ⟨-, u, hu, hin⟩
        exact ⟨.isTypeIn, u, hu, hin, rfl⟩
    · rw [if_neg ht]
      constructor
      · rintro ⟨_, h⟩
        cases h
      · rintro ⟨h, -⟩
        exact absurd h ht

theorem isSome_actionMatch_iff {action : EntityUid} :
    (p.actionMatch store action).isSome = true ↔ p.template.action.Meets store action := by
  unfold actionMatch
  cases p.template.action with
  | any => exact iff_of_true rfl trivial
  | eq u => rw [isSome_matched, beq_iff_eq, ActionConstraint.Meets]
  | isIn us => rw [isSome_matched, List.any_eq_true, ActionConstraint.Meets]

/-- **A scope matches exactly when its three constraints are met.** -/
theorem scopeMatches_eq_true_iff :
    p.scopeMatches request store = .ok true ↔
      p.template.principal.Meets p store request.principal ∧
        p.template.action.Meets store request.action ∧
          p.template.resource.Meets p store request.resource := by
  rw [← exists_scopeMatch_iff, ← exists_scopeMatch_iff, ← isSome_actionMatch_iff]
  unfold scopeMatches principalMatch resourceMatch
  rw [bind_eq_ok_iff]
  constructor
  · rintro ⟨way, hp, h⟩
    cases way with
    | none => cases h
    | some way =>
      cases haction : p.actionMatch store request.action with
      | none =>
        rw [haction] at h
        cases h
      | some _ =>
        rw [haction] at h
        obtain ⟨way', hr, h⟩ := bind_eq_ok_iff.mp h
        cases way' with
        | none => cases h
        | some way' => exact ⟨⟨way, hp⟩, rfl, way', hr⟩
  · rintro ⟨⟨way, hp⟩, haction, way', hr⟩
    obtain ⟨_, haction⟩ := Option.isSome_iff_exists.mp haction
    refine ⟨some way, hp, ?_⟩
    rw [haction, hr]
    rfl

/-- A constraint whose references have entities has an answer. -/
theorem Resolves.exists_scopeMatch {c : ScopeConstraint} (hc : p.Resolves c)
    (store : EntityStore) (uid : EntityUid) : ∃ way, p.scopeMatch store uid c = .ok way := by
  cases c with
  | any => exact ⟨_, rfl⟩
  | isType t => exact ⟨_, rfl⟩
  | eq r =>
    obtain ⟨u, hu⟩ := exists_resolve hc
    simp only [scopeMatch, hu]
    exact ⟨_, rfl⟩
  | isIn r =>
    obtain ⟨u, hu⟩ := exists_resolve hc
    simp only [scopeMatch, hu]
    exact ⟨_, rfl⟩
  | isTypeIn t r =>
    obtain ⟨u, hu⟩ := exists_resolve hc
    simp only [scopeMatch, hu]
    split
    · exact ⟨_, rfl⟩
    · exact ⟨_, rfl⟩

/-- The scope asks for the principal, then the action, then the resource; the answers of the three
decide. -/
theorem scopeMatches_eq_ok {principal resource : Option ScopeMatch}
    (hp : p.principalMatch store request.principal = .ok principal)
    (hr : p.resourceMatch store request.resource = .ok resource) :
    p.scopeMatches request store = .ok (principal.isSome &&
      (p.actionMatch store request.action).isSome && resource.isSome) := by
  unfold scopeMatches
  rw [hp, hr]
  cases principal with
  | none => rfl
  | some _ =>
    cases haction : p.actionMatch store request.action with
    | none => simp
    | some _ => simp

theorem Made.exists_scopeMatches (hp : p.Made) (request : Request) (store : EntityStore) :
    ∃ b, p.scopeMatches request store = .ok b := by
  obtain ⟨way, hprincipal⟩ := hp.resolves_principal.exists_scopeMatch store request.principal
  obtain ⟨way', hresource⟩ := hp.resolves_resource.exists_scopeMatch store request.resource
  exact ⟨_, scopeMatches_eq_ok hprincipal hresource⟩

end Policy

end Arbiter
