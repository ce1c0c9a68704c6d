/-
# Listings are slices

The listing of a principal names, in the order of their ids, just the policies whose principal
constraint admits it (`PolicySet.Lists`).  A policy that is not listed does not match any request of
the principal, whatever the action and the resource are, so it is neither satisfied nor does it fail
(`Policy.Made.isSatisfied_of_unlisted`), and a decision is the same without it.

Policies of a set go together, so the listed ones make a set by themselves
(`PolicySet.WellFormed.exists_ofPolicies`), and that set decides as the whole does
(`PolicySet.WellFormed.sliced`).
-/
import Arbiter.Proofs.Authorization.Linked
import Arbiter.Proofs.Policy.Assembly

namespace Arbiter

open Outcome

variable {store : EntityStore} {principal : EntityUid} {filter : EffectFilter} {request : Request}

/-! ## 1. One policy -/

namespace PolicyMatch

variable {p : Policy} {m : PolicyMatch}

theorem policy_of_ofPolicy? (h : ofPolicy? store principal p = some m) : m.policy = p.id := by
  unfold ofPolicy? at h
  split at h
  · cases h
    rfl
  · cases h

theorem effect_of_ofPolicy? (h : ofPolicy? store principal p = some m) :
    m.effect = p.template.effect := by
  unfold ofPolicy? at h
  split at h
  · cases h
    rfl
  · cases h

/-- A policy is listed exactly if its constraint admits the principal. -/
theorem isSome_ofPolicy?_iff : (ofPolicy? store principal p).isSome = true ↔
    p.template.principal.Meets p store principal := by
  rw [← Policy.exists_scopeMatch_iff, Option.isSome_iff_exists]
  constructor
  · rintro ⟨m, h⟩
    unfold ofPolicy? at h
    split at h
    · rename_i way hway
      exact ⟨way, hway⟩
    · cases h
  · rintro ⟨way, hway⟩
    have hmatch : p.principalMatch store principal = .ok (some way) := hway
    unfold ofPolicy?
    rw [hmatch]
    exact ⟨_, rfl⟩

end PolicyMatch

/-- A policy that is not listed does not match what the principal requests. -/
theorem Policy.Made.isSatisfied_of_unlisted {p : Policy} (hp : p.Made)
    (h : (PolicyMatch.ofPolicy? store request.principal p).isSome = false) :
    p.isSatisfied request store = .ok false := by
  have hnone : p.principalMatch store request.principal = .ok none := by
    rw [Option.isSome_eq_false_iff, Option.isNone_iff_eq_none] at h
    exact hp.ofPolicy?_eq_none_iff.mp h
  unfold isSatisfied scopeMatches
  rw [hnone]
  rfl

/-! ## 2. Listings -/

/-- A list of what is found for a principal: the policies of the effects that are asked for whose
constraint admits the principal, all of them, in the strict order of their ids. -/
structure PolicySet.Lists (ps : PolicySet) (store : EntityStore) (principal : EntityUid)
    (filter : EffectFilter) (found : List PolicyMatch) : Prop where
  strict : SortedList.Strict (found.map PolicyMatch.policy)
  mem_iff : ∀ id, id ∈ found.map PolicyMatch.policy ↔
    ∃ p, ps.get? id = some p ∧ filter.admits p.template.effect = true ∧
      p.template.principal.Meets p store principal
  effect : ∀ m ∈ found, ∃ p, ps.get? m.policy = some p ∧ m.effect = p.template.effect

namespace PolicySet

variable {s : PolicySet}

/-- Without a filter the principal constraint alone decides. -/
theorem matchesFor_any : s.matchesFor store principal .any
    = s.policies.filterMap (PolicyMatch.ofPolicy? store principal) := by
  unfold matchesFor
  rw [List.filter_eq_self.mpr]
  intro p _
  rfl

/-- A listing names a part of the policies. -/
theorem map_policy_matchesFor :
    (s.matchesFor store principal filter).map PolicyMatch.policy
      = ((s.policies.filter fun p => filter.admits p.template.effect).filter fun p =>
          (PolicyMatch.ofPolicy? store principal p).isSome).map Policy.id :=
  map_filterMap_eq_map_filter (fun _ _ h => PolicyMatch.policy_of_ofPolicy? h) _

namespace WellFormed

/-- **Listings are complete and in order.** -/
theorem lists_matchesFor (hs : s.WellFormed) :
    s.Lists store principal filter (s.matchesFor store principal filter) where
  strict := by
    rw [map_policy_matchesFor]
    refine hs.ascending_policies.sublist (List.Sublist.map Policy.id ?_)
    exact List.filter_sublist.trans List.filter_sublist
  mem_iff := by
    intro id
    rw [map_policy_matchesFor]
    simp only [List.mem_map, List.mem_filter, PolicyMatch.isSome_ofPolicy?_iff,
      hs.get?_eq_some_iff]
    constructor
    · rintro ⟨p, ⟨⟨hp, hadmits⟩, hmeets⟩, hid⟩
      exact ⟨p, ⟨hp, hid⟩, hadmits, hmeets⟩
    · rintro ⟨p, ⟨hp, hid⟩, hadmits, hmeets⟩
      exact ⟨p, ⟨⟨hp, hadmits⟩, hmeets⟩, hid⟩
  effect := by
    intro m hm
    obtain ⟨p, hp, hm⟩ := List.mem_filterMap.mp hm
    refine ⟨p, ?_, PolicyMatch.effect_of_ofPolicy? hm⟩
    exact hs.get?_eq_some_iff.mpr
      ⟨(List.mem_filter.mp hp).1, (PolicyMatch.policy_of_ofPolicy? hm).symm⟩

end WellFormed

/-! ## 3. Parts of a set -/

/-- Policies of a well-formed set go together. -/
theorem WellFormed.accepts_sublist (hs : s.WellFormed) {l : List Policy}
    (hl : l.Sublist s.policies) : Accepts .empty l where
  ids := nodup_section hs.ascending_policies hl
  fresh := by
    intro p _
    rfl
  known := by
    rintro p - t ⟨⟩
  shared := by
    intro p hp q hq hid
    obtain ⟨_, hfindp⟩ := mem_policies_iff.mp (hl.subset hp)
    obtain ⟨_, hfindq⟩ := mem_policies_iff.mp (hl.subset hq)
    have hp := hs.template hfindp
    rw [hid, hs.template hfindq] at hp
    exact (Option.some.inj hp).symm

/-- What is gained over nothing in the strict order of the ids is what there is. -/
theorem Gains.policies_eq {s' : PolicySet} {ts : List Template} {l : List Policy}
    (h : empty.Gains s' ts l) (hl : SortedList.Strict (l.map Policy.id)) : s'.policies = l := by
  have hascending : SortedList.Ascending (l.map fun p => (p.id, p)) := by
    rw [SortedList.Strict, List.pairwise_map] at hl
    exact List.Pairwise.map _ (fun _ _ hlt => hlt) hl
  have hlinks : s'.links = ⟨l.map fun p => (p.id, p), hascending⟩ := by
    refine SortedMap.eq_of_find?_eq fun id => Option.ext fun p => ?_
    refine h.links.trans (Iff.trans ?_ SortedMap.mem_entries_iff)
    simp only [List.mem_map, Prod.mk.injEq]
    constructor
    · rintro (⟨⟨⟩⟩ | ⟨hp, hid⟩)
      exact ⟨p, hp, hid, rfl⟩
    · rintro ⟨_, hp, hid, rfl⟩
      exact Or.inr ⟨hp, hid⟩
  rw [policies, hlinks, SortedMap.values, List.map_map]
  exact List.map_id' l

/-- **Some policies of a well-formed set make a set by themselves.** -/
theorem WellFormed.exists_ofPolicies (hs : s.WellFormed) {l : List Policy}
    (hl : l.Sublist s.policies) : ∃ slice, ofPolicies l = .ok slice ∧ slice.policies = l := by
  obtain ⟨slice, hslice⟩ := exists_foldlM_add_iff.mpr (hs.accepts_sublist hl)
  refine ⟨slice, hslice, (gains_foldlM_add hslice).policies_eq ?_⟩
  exact hs.ascending_policies.sublist (hl.map Policy.id)

end PolicySet

/-! ## 4. Answers -/

section

variable {keep : Policy → Bool} {l : List Policy}

theorem satisfiedIds_filter {effect : Effect}
    (h : ∀ p ∈ l, keep p = false → p.isSatisfied request store = .ok false) :
    satisfiedIds effect request store (l.filter keep) = satisfiedIds effect request store l := by
  unfold satisfiedIds
  rw [List.filter_filter]
  refine congrArg (List.map Policy.id) (List.filter_congr fun p hp => ?_)
  cases hkeep : keep p with
  | true => exact Bool.and_true _
  | false =>
    unfold Policy.isSatisfiedWith
    rw [h p hp hkeep]
    simp

theorem failures_filter (h : ∀ p ∈ l, keep p = false → p.isSatisfied request store = .ok false) :
    failures request store (l.filter keep) = failures request store l := by
  unfold failures
  rw [List.filterMap_filter]
  refine List.filterMap_congr fun p hp => ?_
  cases hkeep : keep p with
  | true => rfl
  | false =>
    unfold Policy.failure?
    rw [h p hp hkeep]
    rfl

/-- Policies that are not satisfied and do not fail have no part in the answer. -/
theorem respond_filter (h : ∀ p ∈ l, keep p = false → p.isSatisfied request store = .ok false) :
    respond request store (l.filter keep) = respond request store l := by
  unfold respond
  rw [satisfiedIds_filter h, satisfiedIds_filter h, failures_filter h]

/-- The reasons are policies that have been asked. -/
theorem mem_ids_of_mem_reasons {id : PolicyId} (h : id ∈ (respond request store l).reasons) :
    id ∈ l.map Policy.id := by
  have hsatisfied : ∀ effect, id ∈ satisfiedIds effect request store l → id ∈ l.map Policy.id := by
    intro effect hid
    exact (List.filter_sublist.map Policy.id).subset hid
  unfold respond combine at h
  split at h
  · exact hsatisfied .forbid h
  · split at h
    · exact hsatisfied .permit h
    · cases h

/-- The errors are those of policies that have been asked. -/
theorem mem_ids_of_mem_errors {f : PolicyFailure} (h : f ∈ (respond request store l).errors) :
    f.policy ∈ l.map Policy.id := by
  rw [respond, combine_errors] at h
  exact (PolicySet.failures_map_sublist l).subset (List.mem_map_of_mem h)

end

/-! ## 5. Slices -/

namespace PolicySet

/-- The policies that are listed for a principal. -/
def listed (s : PolicySet) (store : EntityStore) (principal : EntityUid) : List Policy :=
  (s.matchesFor store principal .any).filterMap fun m => s.get? m.policy

/-- What the policies listed for the principal of a request are good for: they make a set by
themselves, which decides as the whole does, and every reason and every error is listed. -/
structure Sliced (s : PolicySet) (request : Request) (store : EntityStore) : Prop where
  decides : ∃ slice, ofPolicies (s.listed store request.principal) = .ok slice ∧
    authorize request slice store = authorize request s store
  reasons : ∀ response, authorize request s store = .ok response → ∀ id ∈ response.reasons,
    id ∈ (s.matchesFor store request.principal .any).map PolicyMatch.policy
  errors : ∀ response, authorize request s store = .ok response → ∀ f ∈ response.errors,
    f.policy ∈ (s.matchesFor store request.principal .any).map PolicyMatch.policy

namespace WellFormed

variable {s : PolicySet}

theorem listed_eq (hs : s.WellFormed) : s.listed store principal
    = s.policies.filter fun p => (PolicyMatch.ofPolicy? store principal p).isSome := by
  rw [listed, matchesFor_any, List.filterMap_filterMap, ← List.filterMap_eq_filter]
  refine List.filterMap_congr fun p hp => ?_
  cases hlisted : PolicyMatch.ofPolicy? store principal p with
  | none => simp [Option.guard, hlisted]
  | some m =>
    have hget : s.get? m.policy = some p :=
      hs.get?_eq_some_iff.mpr ⟨hp, (PolicyMatch.policy_of_ofPolicy? hlisted).symm⟩
    simp [Option.guard, hlisted, hget]

/-- The listing names the policies that are listed. -/
theorem map_id_listed (hs : s.WellFormed) : (s.listed store principal).map Policy.id
    = (s.matchesFor store principal .any).map PolicyMatch.policy := by
  rw [hs.listed_eq, matchesFor_any,
    map_filterMap_eq_map_filter fun _ _ h => PolicyMatch.policy_of_ofPolicy? h]

theorem respond_listed (hs : s.WellFormed) :
    respond request store (s.listed store request.principal)
      = respond request store s.policies := by
  rw [hs.listed_eq]
  refine respond_filter fun p hp hunlisted => ?_
  exact (hs.made_of_mem hp).isSatisfied_of_unlisted hunlisted

/-- **The listed policies decide as the whole set does.** -/
theorem sliced (hs : s.WellFormed) (request : Request) (store : EntityStore) :
    s.Sliced request store where
  decides := by
    have hsublist : (s.listed store request.principal).Sublist s.policies := by
      rw [hs.listed_eq]
      exact List.filter_sublist
    obtain ⟨slice, hslice, hpolicies⟩ := hs.exists_ofPolicies hsublist
    refine ⟨slice, hslice, authorize_eq_of_respond_eq ?_⟩
    rw [hpolicies]
    exact hs.respond_listed
  reasons := by
    intro response h id hid
    obtain ⟨-, rfl⟩ := authorize_eq_ok_iff.mp h
    rw [← hs.respond_listed] at hid
    rw [← hs.map_id_listed]
    exact mem_ids_of_mem_reasons hid
  errors := by
    intro response h f hf
    obtain ⟨-, rfl⟩ := authorize_eq_ok_iff.mp h
    rw [← hs.respond_listed] at hf
    rw [← hs.map_id_listed]
    exact mem_ids_of_mem_errors hf

end WellFormed

end PolicySet

end Arbiter
