/-
# Decisions and the order of entities

An expression looks at a store only through look-ups and the hierarchy, so it has the same value over
stores that hold the same entities (`SameEntities.eval_eq`), and so have scopes, conditions and
policies.  A decision looks besides at whether the store holds the declared actions
(`SameEntities.authorize_eq`).  `build_of_perm` puts this together with the building of stores: the
order in which entities are listed shows in no answer.
-/
import Arbiter.Proofs.Authorization.Decision
import Arbiter.Proofs.Store.Agreement
import Arbiter.Proofs.Validation.Environments

namespace Arbiter

namespace EntityStore

variable {s s' : EntityStore}

namespace SameEntities

/-! ## 1. Operators -/

section

variable (h : s.SameEntities s')

include h

theorem isInAny_eq (uid : EntityUid) : ∀ vs : List Value,
    Evaluation.isInAny s uid vs = Evaluation.isInAny s' uid vs
  | [] => rfl
  | .entity u :: vs => by simp only [Evaluation.isInAny, h.isDescendant_eq, isInAny_eq uid vs]
  | .bool _ :: _ | .long _ :: _ | .string _ :: _ | .set _ :: _ | .record _ :: _ | .ext _ :: _ => rfl

theorem isIn_eq : Evaluation.isIn s = Evaluation.isIn s' := by
  funext uid v
  unfold Evaluation.isIn
  simp only [h.isDescendant_eq, h.isInAny_eq]

theorem getAttr_eq : Evaluation.getAttr s = Evaluation.getAttr s' := by
  funext attr v
  unfold Evaluation.getAttr
  simp only [h.get?_eq]

theorem hasAttr_eq : Evaluation.hasAttr s = Evaluation.hasAttr s' := by
  funext attr v
  unfold Evaluation.hasAttr
  simp only [h.get?_eq]

theorem binary_eq : Evaluation.binary s = Evaluation.binary s' := by
  funext op left right
  unfold Evaluation.binary
  rw [h.isIn_eq]

end

/-! ## 2. Expressions and conditions -/

mutual

/-- **An expression has the same value over stores that hold the same entities.** -/
theorem eval_eq (h : s.SameEntities s') (request : Request) :
    ∀ e : Expr, e.eval request s = e.eval request s'
  | .value _ | .var _ => rfl
  | .not e | .neg e | .isEmpty e | .like e _ | .isType e _ => by
    simp only [Expr.eval, h.eval_eq request e]
  | .and l r | .or l r => by simp only [Expr.eval, h.eval_eq request l, h.eval_eq request r]
  | .ite c y n => by
    simp only [Expr.eval, h.eval_eq request c, h.eval_eq request y, h.eval_eq request n]
  | .binary op l r => by
    simp only [Expr.eval, h.eval_eq request l, h.eval_eq request r, h.binary_eq]
  | .getAttr e attr => by simp only [Expr.eval, h.eval_eq request e, h.getAttr_eq]
  | .hasAttr e attr => by simp only [Expr.eval, h.eval_eq request e, h.hasAttr_eq]
  | .isTypeIn e t target => by
    simp only [Expr.eval, h.eval_eq request e, h.eval_eq request target, h.isIn_eq]
  | .set items => by simp only [Expr.eval, h.evalList_eq request items]
  | .record attrs => by simp only [Expr.eval, h.evalFields_eq request attrs]
  | .call name args => by simp only [Expr.eval, h.evalList_eq request args]

theorem evalList_eq (h : s.SameEntities s') (request : Request) :
    ∀ es : List Expr, Expr.evalList request s es = Expr.evalList request s' es
  | [] => rfl
  | e :: es => by simp only [Expr.evalList, h.eval_eq request e, h.evalList_eq request es]

theorem evalFields_eq (h : s.SameEntities s') (request : Request) :
    ∀ attrs : List (String × Expr),
      Expr.evalFields request s attrs = Expr.evalFields request s' attrs
  | [] => rfl
  | (_, e) :: attrs => by
    simp only [Expr.evalFields, h.eval_eq request e, h.evalFields_eq request attrs]

end

variable (h : s.SameEntities s') (request : Request)

include h

theorem conditionsHold_eq : ∀ cs : List Condition,
    conditionsHold request s cs = conditionsHold request s' cs
  | [] => rfl
  | c :: cs => by
    simp only [conditionsHold, Expr.evalBool, h.eval_eq request, conditionsHold_eq cs]

/-! ## 3. Policies -/

theorem scopeMatch_eq (p : Policy) (uid : EntityUid) (c : ScopeConstraint) :
    p.scopeMatch s uid c = p.scopeMatch s' uid c := by
  cases c <;> simp only [Policy.scopeMatch, h.isDescendant_eq]

theorem actionMatch_eq (p : Policy) (action : EntityUid) :
    p.actionMatch s action = p.actionMatch s' action := by
  unfold Policy.actionMatch
  simp only [h.isDescendant_eq]

theorem scopeMatches_eq (p : Policy) : p.scopeMatches request s = p.scopeMatches request s' := by
  simp only [Policy.scopeMatches, Policy.principalMatch, Policy.resourceMatch, h.scopeMatch_eq,
    h.actionMatch_eq]

theorem isSatisfied_eq (p : Policy) : p.isSatisfied request s = p.isSatisfied request s' := by
  simp only [Policy.isSatisfied, h.scopeMatches_eq, h.conditionsHold_eq]

/-! ## 4. Decisions -/

theorem respond_eq (ps : List Policy) : respond request s ps = respond request s' ps := by
  have hwith (effect : Effect) : Policy.isSatisfiedWith effect request s
      = Policy.isSatisfiedWith effect request s' := by
    funext p
    simp only [Policy.isSatisfiedWith, h.isSatisfied_eq]
  have hfailure : Policy.failure? request s = Policy.failure? request s' := by
    funext p
    simp only [Policy.failure?, h.isSatisfied_eq]
  simp only [respond, satisfiedIds, failures, hwith, hfailure]

/-- **Stores that hold the same entities, and the declared actions both or neither, decide alike**,
also on which missing entity they refuse a request for. -/
theorem authorize_eq (hactions : s.declaresActions = s'.declaresActions) (policies : PolicySet) :
    authorize request policies s = authorize request policies s' := by
  have hrequired : request.required s = request.required s' := by
    simp only [Request.required, hactions]
  have hrespond := h.respond_eq request policies.policies
  simp only [respond, satisfiedIds, failures] at hrespond
  simp only [authorize, hrequired, h.contains_eq, hrespond]

end SameEntities

/-! ## 5. Entities in another order -/

/-- **The order in which entities are listed shows in no answer.**  With or without a schema, the
entities of a list and of any permutation of it both make no store, or both make one; and then every
entity, its ancestors and what it is in are the same in both stores, and so is every decision. -/
theorem build_of_perm (schema : Option Schema) {es es' : List Entity} (h : es.Perm es') :
    (∃ cause cause', build schema es = .error cause ∧ build schema es' = .error cause') ∨
      ∃ s s', build schema es = .ok s ∧ build schema es' = .ok s' ∧
        (∀ u, s.get? u = s'.get? u ∧ s.contains u = s'.contains u ∧
          s.ancestors u = s'.ancestors u ∧ ∀ v, s.isDescendant u v = s'.isDescendant u v) ∧
        ∀ request policies, authorize request policies s = authorize request policies s' := by
  have hiff : (∃ s, build schema es = .ok s) ↔ ∃ s', build schema es' = .ok s' :=
    exists_build_iff_of_perm h
  cases hs : build schema es with
  | error cause =>
    cases hs' : build schema es' with
    | error cause' => exact Or.inl ⟨cause, cause', rfl, rfl⟩
    | ok s' =>
      obtain ⟨s, hs''⟩ := hiff.mpr ⟨s', hs'⟩
      rw [hs] at hs''
      cases hs''
  | ok s =>
    obtain ⟨s', hs'⟩ := hiff.mp ⟨s, hs⟩
    obtain ⟨hsame, hactions⟩ := sameEntities_of_perm h hs hs'
    refine Or.inr ⟨s, s', rfl, hs', fun u => ?_, fun request policies => ?_⟩
    · exact ⟨hsame.get?_eq u, hsame.contains_eq u, hsame.ancestors_eq u, hsame.isDescendant_eq u⟩
    · exact hsame.authorize_eq request hactions policies

end EntityStore

/-! The people and documents of an office, listed from the other end. -/

namespace Office

/-- The declared actions come behind the given entities, as before. -/
def reversedStore : EntityStore :=
  ⟨entities.reverse ++ schema.actionEntities, true, by decide⟩

theorem build_of_perm_office : entities.Perm entities.reverse ∧
    EntityStore.build (some schema) entities.reverse = .ok reversedStore ∧
      reversedStore.isDescendant alice acme = store.isDescendant alice acme ∧
        authorize request OneUser.bothPolicies reversedStore
          = .ok ⟨.allow, [⟨"open"⟩], [⟨⟨"broken"⟩, .integerOverflow "-"⟩]⟩ := by
  have hperm : entities.Perm entities.reverse := entities.reverse_perm.symm
  have hstore : EntityStore.build (some schema) entities = .ok store := store_withSchema
  have hreversed : EntityStore.build (some schema) entities.reverse = .ok reversedStore := by rfl
  have hanswer : authorize request OneUser.bothPolicies store
      = .ok ⟨.allow, [⟨"open"⟩], [⟨⟨"broken"⟩, .integerOverflow "-"⟩]⟩ := by rfl
  obtain ⟨_, _, hfails, -⟩ | ⟨s, s', hs, hs', huids, hdecisions⟩ :=
    EntityStore.build_of_perm (some schema) hperm
  · rw [hstore] at hfails
    cases hfails
  · cases hstore.symm.trans hs
    cases hreversed.symm.trans hs'
    obtain ⟨-, -, -, hdescendant⟩ := huids alice
    refine ⟨hperm, hreversed, (hdescendant acme).symm, ?_⟩
    rw [← hdecisions]
    exact hanswer

end Office

end Arbiter
