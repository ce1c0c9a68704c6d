/-
# A link behaves as its instance

A linked policy looks the values of its slots up whenever its scope is matched; the instance has
them written in its scope.  Nothing that is asked of a policy tells the two apart
(`Policy.BehavesAs`): how the constraints admit an entity, whether the scope matches, the outcome
with its error, and the listing with its reasons.

It comes down to references, where a slot with a value and the value have the same entity in their
policies (`Policy.resolve_fill`).  It does not matter which slot stands in which constraint.
Answers and listings are made policy by policy, so two sets of which the policies are the same or
instances one by one cannot be told apart either.
-/
import Arbiter.Authorization.Listing
import Arbiter.Proofs.Authorization.ScopeConditions
import Arbiter.Proofs.Policy.Instances
import Arbiter.Proofs.Store.Hierarchy

namespace Arbiter

open Outcome

namespace Policy

/-! ## 1. Policies -/

/-- Nothing that is asked of a policy tells `q` from `p`. -/
structure BehavesAs (q p : Policy) : Prop where
  id : q.id = p.id
  effect : q.template.effect = p.template.effect
  principalMatch : ∀ store uid, q.principalMatch store uid = p.principalMatch store uid
  actionMatch : ∀ store uid, q.actionMatch store uid = p.actionMatch store uid
  resourceMatch : ∀ store uid, q.resourceMatch store uid = p.resourceMatch store uid
  scopeMatches : ∀ request store, q.scopeMatches request store = p.scopeMatches request store
  conditions : ∀ request store, conditionsHold request store q.template.conditions
    = conditionsHold request store p.template.conditions
  isSatisfied : ∀ request store, q.isSatisfied request store = p.isSatisfied request store
  failure? : ∀ request store, q.failure? request store = p.failure? request store
  listing : ∀ store principal,
    PolicyMatch.ofPolicy? store principal q = PolicyMatch.ofPolicy? store principal p

variable {p q : Policy}

theorem BehavesAs.refl (p : Policy) : p.BehavesAs p := by
  constructor <;> intros <;> rfl

/-- Filled in, a constraint admits what it admits with the slots of the policy. -/
theorem scopeMatch_fill {c : ScopeConstraint} (hc : p.Resolves c) (store : EntityStore)
    (uid : EntityUid) : q.scopeMatch store uid (c.fill p.values) = p.scopeMatch store uid c := by
  cases c with
  | any | isType t => rfl
  | eq r | isIn r | isTypeIn t r =>
    simp only [ScopeConstraint.fill, scopeMatch, resolve_fill (exists_resolve hc)]

theorem fill_eq_any_iff {c : ScopeConstraint} {values : SlotValues} :
    c.fill values = .any ↔ c = .any := by
  cases c with
  | any => exact iff_of_true rfl rfl
  | _ => exact iff_of_false nofun nofun

/-- **The instance of a policy behaves as the policy.** -/
theorem Made.behavesAs_filled (hp : p.Made) :
    (⟨p.filled, none, .empty⟩ : Policy).BehavesAs p := by
  have hprincipal : ∀ store uid, (⟨p.filled, none, .empty⟩ : Policy).principalMatch store uid
      = p.principalMatch store uid := scopeMatch_fill hp.resolves_principal
  have haction : ∀ store uid, (⟨p.filled, none, .empty⟩ : Policy).actionMatch store uid
      = p.actionMatch store uid := fun _ _ => rfl
  have hresource : ∀ store uid, (⟨p.filled, none, .empty⟩ : Policy).resourceMatch store uid
      = p.resourceMatch store uid := scopeMatch_fill hp.resolves_resource
  have hscope : ∀ request store, (⟨p.filled, none, .empty⟩ : Policy).scopeMatches request store
      = p.scopeMatches request store := by
    intro request store
    unfold Policy.scopeMatches
    rw [hprincipal, haction, hresource]
  have hsatisfied : ∀ request store, (⟨p.filled, none, .empty⟩ : Policy).isSatisfied request store
      = p.isSatisfied request store := by
    intro request store
    unfold Policy.isSatisfied
    rw [hscope]
    rfl
  refine {
    id := rfl
    effect := rfl
    principalMatch := hprincipal
    actionMatch := haction
    resourceMatch := hresource
    scopeMatches := hscope
    conditions := fun _ _ => rfl
    isSatisfied := hsatisfied
    failure? := fun request store => ?_
    listing := fun store principal => ?_ }
  · unfold Policy.failure?
    rw [hsatisfied]
    rfl
  · have hany : decide (p.filled.resource = .any) = decide (p.template.resource = .any) :=
      decide_eq_decide.mpr fill_eq_any_iff
    unfold PolicyMatch.ofPolicy?
    rw [hprincipal]
    simp only [hany]
    rfl

theorem InstanceOf.behavesAs (h : q.InstanceOf p) : q.BehavesAs p := by
  obtain ⟨t, id, values, hlink, hstatic⟩ := h
  have hp : p.Made := .link hlink
  obtain ⟨-, rfl⟩ := ofLink_eq_ok_iff.mp hlink
  obtain ⟨-, rfl⟩ := newStatic_eq_ok_iff.mp hstatic
  exact hp.behavesAs_filled

theorem BehavesAs.alike (h : q.BehavesAs p) (request : Request) (store : EntityStore) :
    Alike request store p q := ⟨h.id, h.effect, h.isSatisfied request store⟩

end Policy

/-! ## 2. Sets -/

/-- Policies that behave alike one by one are listed alike. -/
theorem matchesFor_congr {ps qs : PolicySet}
    (h : List.Forall₂ (fun p q => q.BehavesAs p) ps.policies qs.policies) (store : EntityStore)
    (principal : EntityUid) (filter : EffectFilter) :
    qs.matchesFor store principal filter = ps.matchesFor store principal filter := by
  unfold PolicySet.matchesFor
  rw [List.filterMap_filter, List.filterMap_filter]
  refine filterMap_eq_of_forall₂ (h.imp fun p q hpq => ?_)
  rw [hpq.effect, hpq.listing]

theorem authorize_eq_of_behavesAs {ps qs : PolicySet}
    (h : List.Forall₂ (fun p q => q.BehavesAs p) ps.policies qs.policies) (request : Request)
    (store : EntityStore) : authorize request qs store = authorize request ps store :=
  authorize_congr (h.imp fun _ _ hpq => hpq.alike request store)

/-- **A set and what replacing its links leaves give the same answers and listings.** -/
theorem PolicySet.Reachable.answers_instantiated {ps : PolicySet} (hps : ps.Reachable) :
    (∀ request store, authorize request ps.instantiated store = authorize request ps store) ∧
      ∀ store principal filter, ps.instantiated.matchesFor store principal filter
        = ps.matchesFor store principal filter := by
  have hbehaves : List.Forall₂ (fun p q => q.BehavesAs p) ps.policies
      ps.instantiated.policies := by
    rw [PolicySet.policies_instantiated, List.forall₂_map_right_iff, List.forall₂_same]
    intro p hp
    cases hstatic : p.isStatic with
    | true =>
      rw [Policy.unlinked_of_static hstatic]
      exact .refl p
    | false => exact ((hps.wellFormed.made_of_mem hp).instanceOf_unlinked hstatic).behavesAs
  exact ⟨authorize_eq_of_behavesAs hbehaves, matchesFor_congr hbehaves⟩

/-- **A link behaves as its instance.**  Whenever values are values for the slots of a template,
the template with the values in the place of the slots is the body of a static policy, and that
policy behaves as the link.  Sets that have the same policies, some links replaced by their
instances, give the same answers and the same listings. -/
theorem link_behaves_as_instance :
    (∀ t id values p, Policy.ofLink t id values = .ok p →
      ∃ q, Policy.newStatic (t.instantiate id values) = .ok q ∧ q.BehavesAs p) ∧
      ∀ ps qs : PolicySet,
        List.Forall₂ (fun p q => q = p ∨ q.InstanceOf p) ps.policies qs.policies →
          (∀ request store, authorize request qs store = authorize request ps store) ∧
            ∀ store principal filter,
              qs.matchesFor store principal filter = ps.matchesFor store principal filter := by
  refine ⟨?_, ?_⟩
  · intro t id values p hlink
    have hp : p.Made := .link hlink
    obtain ⟨-, rfl⟩ := Policy.ofLink_eq_ok_iff.mp hlink
    exact ⟨_, hp.newStatic_filled, hp.behavesAs_filled⟩
  · intro ps qs h
    have hbehaves : List.Forall₂ (fun p q => q.BehavesAs p) ps.policies qs.policies := by
      refine h.imp fun p q hpq => ?_
      rcases hpq with rfl | hinstance
      · exact .refl _
      · exact hinstance.behavesAs
    exact ⟨authorize_eq_of_behavesAs hbehaves, matchesFor_congr hbehaves⟩

/-! A note for a team.  The slot of the principal stands in the constraint on the resource and the
other way round, and the condition overflows. -/

namespace Crosswise

def ann : EntityUid := ⟨⟨"User"⟩, "ann"⟩

def team : EntityUid := ⟨⟨"Team"⟩, "team"⟩

def note : EntityUid := ⟨⟨"Note"⟩, "note"⟩

def store : EntityStore :=
  ⟨[{ uid := ann, parents := .singleton team }, { uid := team }, { uid := note }], false,
    by decide⟩

def request : Request where
  principal := ann
  action := ⟨⟨"Action"⟩, "read"⟩
  resource := note

def share : Template where
  id := ⟨"share"⟩
  effect := .permit
  principal := .isTypeIn ann.type (.slot .resource)
  resource := .eq (.slot .principal)
  conditions := [⟨.when, .neg (.value (.long Int64.minValue))⟩]

def values : SlotValues := .ofList [(.principal, note), (.resource, team)]

def link : Policy := ⟨share, some ⟨"noteForTeam"⟩, values⟩

def noteForTeam : Template where
  id := ⟨"noteForTeam"⟩
  effect := .permit
  principal := .isTypeIn ann.type (.uid team)
  resource := .eq (.uid note)
  conditions := share.conditions

def static : Policy := ⟨noteForTeam, none, .empty⟩

def linked : PolicySet := ⟨.ofList [(share.id, share)], .ofList [(link.id, link)]⟩

def filled : PolicySet := ⟨.ofList [(noteForTeam.id, noteForTeam)], .ofList [(static.id, static)]⟩

theorem link_behaves_as_instance_crosswise :
    Policy.ofLink share link.id values = .ok link ∧
      Policy.newStatic (share.instantiate link.id values) = .ok static ∧ static.BehavesAs link ∧
        link.isSatisfied request store = .error (.integerOverflow "-") ∧
          authorize request filled store = authorize request linked store ∧
            filled.matchesFor store ann .any = linked.matchesFor store ann .any := by
  have hlink : Policy.ofLink share link.id values = .ok link := by rfl
  have hstatic : Policy.newStatic (share.instantiate link.id values) = .ok static := by rfl
  have hmember : store.isDescendant ann team = true :=
    EntityStore.isDescendant_of_parent (p := team) rfl rfl EntityStore.isDescendant_self
  have hscope : link.scopeMatches request store = .ok true :=
    Policy.scopeMatches_eq_true_iff.mpr ⟨⟨rfl, team, rfl, hmember⟩, trivial, rfl⟩
  have hfails : link.isSatisfied request store = .error (.integerOverflow "-") := by
    unfold Policy.isSatisfied
    rw [hscope]
    rfl
  obtain ⟨q, hq, hbehaves⟩ := link_behaves_as_instance.1 share link.id values link hlink
  obtain rfl : static = q := Except.ok.inj (hstatic.symm.trans hq)
  obtain ⟨hanswers, hlistings⟩ := link_behaves_as_instance.2 linked filled
    (.cons (Or.inr ⟨share, link.id, values, hlink, hstatic⟩) .nil)
  exact ⟨hlink, hstatic, hbehaves, hfails, hanswers request store, hlistings store ann .any⟩

end Crosswise

end Arbiter
