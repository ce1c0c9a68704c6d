/-
# Links as instances of their templates

A link is a template with values for its slots.  Its instance is the template with the values
written in the place of the slots, under the id of the link (`Template.instantiate`): a template
without slots, so the body of a static policy (`Policy.Made.newStatic_filled`).

Replacing all links of a set by their instances is a run of operations.  The links go, and so do
the templates that take effect only through them, and the instances are added as static policies
one after the other (`PolicySet.instantiate`).  The only thing in their way is a template without
slots that has the id of a link, since that template stays.  If there is none
(`PolicySet.Vacant`), the run succeeds, and what it leaves is said without it: the same policies
under the same ids, each link replaced (`PolicySet.WellFormed.instantiate_eq_ok_iff`).
-/
import Arbiter.Proofs.Policy.Namespace

namespace Arbiter

open Outcome

/-! ## 1. Slots replaced by values -/

/-- The reference with the value of its slot in the place of it. -/
def EntityRef.fill (values : SlotValues) : EntityRef → EntityRef
  | .uid u => .uid u
  | .slot s => (values.find? s).elim (.slot s) .uid

/-- The constraint with the value of its slot in the place of it. -/
def ScopeConstraint.fill (values : SlotValues) : ScopeConstraint → ScopeConstraint
  | .any => .any
  | .eq r => .eq (r.fill values)
  | .isIn r => .isIn (r.fill values)
  | .isType t => .isType t
  | .isTypeIn t r => .isTypeIn t (r.fill values)

/-- The template with values in the place of its slots, under an id. -/
def Template.instantiate (t : Template) (id : PolicyId) (values : SlotValues) : Template :=
  { t with id, principal := t.principal.fill values, resource := t.resource.fill values }

namespace Policy

/-- The template of the policy with the values of its slots, under the id of the policy. -/
def filled (p : Policy) : Template := p.template.instantiate p.id p.values

/-- A static policy is what a link makes of a template, with the values in the place of the
slots. -/
def InstanceOf (q p : Policy) : Prop :=
  ∃ t id values, ofLink t id values = .ok p ∧ newStatic (t.instantiate id values) = .ok q

variable {p q : Policy}

@[simp] theorem id_filled : p.filled.id = p.id := rfl

theorem fill_of_resolve {r : EntityRef} {u : EntityUid} (h : p.resolve r = .ok u) :
    r.fill p.values = .uid u := by
  cases r with
  | uid v =>
    cases h
    rfl
  | slot s =>
    cases hv : p.values.find? s with
    | none =>
      rw [resolve, hv] at h
      cases h
    | some v =>
      rw [resolve, hv] at h
      cases h
      rw [EntityRef.fill, hv]
      rfl

/-- Filled in, a reference has its entity in every policy. -/
theorem resolve_fill {r : EntityRef} (h : ∃ u, p.resolve r = .ok u) :
    q.resolve (r.fill p.values) = p.resolve r := by
  obtain ⟨u, hu⟩ := h
  rw [fill_of_resolve hu, hu]
  rfl

theorem slot?_fill_ref {r : EntityRef} (h : ∃ u, p.resolve r = .ok u) :
    (r.fill p.values).slot? = none := by
  obtain ⟨u, hu⟩ := h
  rw [fill_of_resolve hu]
  rfl

/-- Filled in, a constraint has no slot. -/
theorem Resolves.slot?_fill {c : ScopeConstraint} (hc : p.Resolves c) :
    (c.fill p.values).slot? = none := by
  cases c with
  | any | isType t => rfl
  | eq r | isIn r | isTypeIn t r => exact slot?_fill_ref (exists_resolve hc)

/-- **The instance of a policy is the body of a static policy.** -/
theorem Made.newStatic_filled (hp : p.Made) :
    newStatic p.filled = .ok ⟨p.filled, none, .empty⟩ := by
  have hprincipal : p.filled.principal.slot? = none := hp.resolves_principal.slot?_fill
  have hresource : p.filled.resource.slot? = none := hp.resolves_resource.slot?_fill
  refine newStatic_eq_ok_iff.mpr ⟨?_, rfl⟩
  unfold Template.hasSlots Template.slots
  rw [hprincipal, hresource]
  rfl

theorem Made.hasSlots_filled (hp : p.Made) : p.filled.hasSlots = false :=
  (newStatic_eq_ok_iff.mp hp.newStatic_filled).1

/-- The static policy of its instance for a linked policy, itself for a static one. -/
def unlinked (p : Policy) : Policy := if p.isStatic then p else ⟨p.filled, none, .empty⟩

theorem isStatic_unlinked : p.unlinked.isStatic = true := by
  unfold unlinked
  split
  · assumption
  · rfl

theorem unlinked_of_static (h : p.isStatic = true) : p.unlinked = p := if_pos h

theorem unlinked_of_linked (h : p.isStatic = false) : p.unlinked = ⟨p.filled, none, .empty⟩ := by
  unfold unlinked
  rw [h]
  rfl

theorem id_unlinked : p.unlinked.id = p.id := by
  unfold unlinked
  split
  · rfl
  · rfl

/-- A link is replaced by its instance. -/
theorem Made.instanceOf_unlinked (hp : p.Made) (h : p.isStatic = false) :
    p.unlinked.InstanceOf p := by
  rw [unlinked_of_linked h]
  exact ⟨p.template, p.id, p.values, hp.ofLink_template h, hp.newStatic_filled⟩

end Policy

/-! ## 2. Sets without links -/

namespace PolicySet

variable {s s' : PolicySet}

/-- The static policies, and the templates that they can be made of. -/
def withoutLinks (s : PolicySet) : PolicySet where
  templates := s.templates.filter fun t => !t.hasSlots
  links := s.links.filter Policy.isStatic

/-- The instances of the links. -/
def instances (s : PolicySet) : List Template := s.linkedPolicies.map Policy.filled

/-- Replaces every link by its instance, added as a static policy. -/
def instantiate (s : PolicySet) : Except PolicySetError PolicySet :=
  s.instances.foldlM addStatic s.withoutLinks

/-- What replacing the links by their instances leaves. -/
def instantiated (s : PolicySet) : PolicySet where
  templates := s.withoutLinks.templates.insertAll Template.id s.instances
  links := s.links.mapValues Policy.unlinked

/-- No link has the id of a template without slots. -/
def Vacant (s : PolicySet) : Prop :=
  ∀ p ∈ s.linkedPolicies, ∀ t, s.templates.find? p.id = some t → t.hasSlots = true

/-- Neither a template nor a policy has the id. -/
def Free (s : PolicySet) (id : PolicyId) : Prop :=
  s.templates.find? id = none ∧ s.links.find? id = none

/-- A template and a policy under one id take that id and no other. -/
theorem free_insert_iff {id id' : PolicyId} {t : Template} {p : Policy} :
    Free ⟨s.templates.insert id t, s.links.insert id p⟩ id' ↔ id' ≠ id ∧ s.Free id' := by
  constructor
  · rintro ⟨ht, hp⟩
    have hne : id' ≠ id := by
      rintro rfl
      rw [SortedMap.find?_insert_self] at ht
      cases ht
    rw [SortedMap.find?_insert_of_ne _ _ hne] at ht hp
    exact ⟨hne, ht, hp⟩
  · rintro ⟨hne, ht, hp⟩
    exact ⟨(SortedMap.find?_insert_of_ne _ _ hne).trans ht,
      (SortedMap.find?_insert_of_ne _ _ hne).trans hp⟩

theorem addStatic_eq_ok_iff {t : Template} : s.addStatic t = .ok s' ↔
    (t.hasSlots = false ∧ s.Free t.id) ∧
      s' = ⟨s.templates.insert t.id t, s.links.insert t.id ⟨t, none, .empty⟩⟩ := by
  constructor
  · intro h
    obtain ⟨p, hp, htemplates, hlinks, rfl⟩ := addStatic_eq_ok h
    obtain ⟨hslots, rfl⟩ := Policy.newStatic_eq_ok_iff.mp hp
    exact ⟨⟨hslots, htemplates, hlinks⟩, rfl⟩
  · rintro ⟨⟨hslots, htemplates, hlinks⟩, rfl⟩
    exact addStatic_of_fresh hslots htemplates hlinks

/-- Static policies are added one after the other, if their ids are free and each is another. -/
theorem foldlM_addStatic_eq_ok_iff {ts : List Template} : ts.foldlM addStatic s = .ok s' ↔
    (∀ t ∈ ts, t.hasSlots = false ∧ s.Free t.id) ∧ (ts.map Template.id).Nodup ∧
      s' = ⟨s.templates.insertAll Template.id ts,
        s.links.insertAll Policy.id (ts.map fun t => ⟨t, none, .empty⟩)⟩ := by
  induction ts generalizing s with
  | nil =>
    rw [List.foldlM_nil, pure_eq_ok, Except.ok.injEq, eq_comm]
    simp [SortedMap.insertAll]
  | cons t ts ih =>
    rw [List.foldlM_cons, bind_eq_ok_iff, List.forall_mem_cons, List.map_cons, List.nodup_cons]
    constructor
    · rintro ⟨s₁, h₁, h⟩
      obtain ⟨hfree, rfl⟩ := addStatic_eq_ok_iff.mp h₁
      obtain ⟨hrest, hnodup, rfl⟩ := ih.mp h
      -- the others meet the first one, so none of them has its id
      have hothers : ∀ t' ∈ ts, t'.id ≠ t.id ∧ s.Free t'.id :=
        fun t' ht' => free_insert_iff.mp (hrest t' ht').2
      refine ⟨⟨hfree, fun t' ht' => ⟨(hrest t' ht').1, (hothers t' ht').2⟩⟩, ⟨?_, hnodup⟩, rfl⟩
      intro hmem
      obtain ⟨t', ht', heq⟩ := List.mem_map.mp hmem
      exact (hothers t' ht').1 heq
    · rintro ⟨⟨hfree, hrest⟩, ⟨hnotMem, hnodup⟩, rfl⟩
      refine ⟨_, addStatic_eq_ok_iff.mpr ⟨hfree, rfl⟩, ih.mpr ⟨fun t' ht' => ?_, hnodup, rfl⟩⟩
      have hne : t'.id ≠ t.id := fun heq => hnotMem (heq ▸ List.mem_map_of_mem ht')
      exact ⟨(hrest t' ht').1, free_insert_iff.mpr ⟨hne, (hrest t' ht').2⟩⟩

namespace WellFormed

theorem nodup_linkedPolicies (hs : s.WellFormed) : (s.linkedPolicies.map Policy.id).Nodup :=
  nodup_section hs.ascending_policies List.filter_sublist

theorem nodup_instances (hs : s.WellFormed) : (s.instances.map Template.id).Nodup := by
  have hids : s.instances.map Template.id = s.linkedPolicies.map Policy.id := by
    unfold instances
    rw [List.map_map]
    rfl
  rw [hids]
  exact hs.nodup_linkedPolicies

/-- A link stands under its id in place of nothing else. -/
theorem find?_withoutLinks (hs : s.WellFormed) {p : Policy} (hp : p ∈ s.linkedPolicies) :
    s.withoutLinks.links.find? p.id = none := by
  obtain ⟨hfind, hlinked⟩ := hs.mem_linkedPolicies_iff.mp hp
  refine SortedMap.find?_filter_eq_none_iff.mpr fun q hq => ?_
  rw [hfind] at hq
  cases hq
  exact hlinked

/-- The static policies with the instances are the policies with each link replaced. -/
theorem insertAll_instances (hs : s.WellFormed) :
    s.withoutLinks.links.insertAll Policy.id (s.instances.map fun t => ⟨t, none, .empty⟩)
      = s.links.mapValues Policy.unlinked := by
  have hpolicies : (s.instances.map fun t => (⟨t, none, .empty⟩ : Policy))
      = s.linkedPolicies.map Policy.unlinked := by
    unfold instances
    rw [List.map_map]
    refine List.map_congr_left fun p hp => ?_
    exact (Policy.unlinked_of_linked (hs.mem_linkedPolicies_iff.mp hp).2).symm
  have hids : (s.linkedPolicies.map Policy.unlinked).map Policy.id
      = s.linkedPolicies.map Policy.id := by
    rw [List.map_map]
    exact List.map_congr_left fun _ _ => Policy.id_unlinked
  have hfresh : ∀ q ∈ s.linkedPolicies.map Policy.unlinked,
      s.withoutLinks.links.find? q.id = none := by
    intro q hq
    obtain ⟨p, hp, rfl⟩ := List.mem_map.mp hq
    rw [Policy.id_unlinked]
    exact hs.find?_withoutLinks hp
  have hnodup : ((s.linkedPolicies.map Policy.unlinked).map Policy.id).Nodup := by
    rw [hids]
    exact hs.nodup_linkedPolicies
  rw [hpolicies]
  refine SortedMap.eq_of_find?_eq fun id => Option.ext fun q => ?_
  rw [SortedMap.find?_insertAll_eq_some_iff hfresh hnodup, withoutLinks,
    SortedMap.find?_filter_eq_some_iff, SortedMap.find?_mapValues_eq_some_iff, List.mem_map]
  constructor
  · rintro (⟨hfind, hstatic⟩ | ⟨⟨p, hp, rfl⟩, rfl⟩)
    · exact ⟨q, hfind, Policy.unlinked_of_static hstatic⟩
    · rw [Policy.id_unlinked]
      exact ⟨p, (hs.mem_linkedPolicies_iff.mp hp).1, rfl⟩
  · rintro ⟨p, hfind, rfl⟩
    obtain rfl : p.id = id := hs.policy_id hfind
    cases hstatic : p.isStatic with
    | true =>
      rw [Policy.unlinked_of_static hstatic]
      exact Or.inl ⟨hfind, hstatic⟩
    | false =>
      have hp : p ∈ s.linkedPolicies := hs.mem_linkedPolicies_iff.mpr ⟨hfind, hstatic⟩
      exact Or.inr ⟨⟨p, hp, rfl⟩, Policy.id_unlinked⟩

/-- **The links are replaced, if no template without slots has the id of one.** -/
theorem instantiate_eq_ok_iff (hs : s.WellFormed) :
    s.instantiate = .ok s' ↔ s.Vacant ∧ s' = s.instantiated := by
  unfold instantiate
  rw [foldlM_addStatic_eq_ok_iff, hs.insertAll_instances, ← and_assoc]
  refine and_congr_left fun _ => ?_
  rw [and_iff_left hs.nodup_instances]
  unfold instances
  rw [List.forall_mem_map]
  refine forall₂_congr fun p hp => ?_
  have hmade : p.Made := hs.made (hs.mem_linkedPolicies_iff.mp hp).1
  rw [Policy.id_filled, and_iff_right hmade.hasSlots_filled, Free,
    and_iff_left (hs.find?_withoutLinks hp)]
  simp only [withoutLinks, SortedMap.find?_filter_eq_none_iff, Bool.not_eq_false']

/-- In one namespace nothing is in the way of the instances. -/
theorem vacant_of_oneNamespace (hs : s.WellFormed) (hone : s.OneNamespace) : s.Vacant := by
  intro p hp t ht
  obtain ⟨hfind, hlinked⟩ := hs.mem_linkedPolicies_iff.mp hp
  rw [hs.oneNamespace_iff.mp hone p.id p hfind hlinked] at ht
  cases ht

end WellFormed

theorem policies_instantiated (s : PolicySet) :
    s.instantiated.policies = s.policies.map Policy.unlinked :=
  SortedMap.values_mapValues _ _

/-- No link is left. -/
theorem linkedPolicies_instantiated (s : PolicySet) : s.instantiated.linkedPolicies = [] := by
  unfold linkedPolicies
  rw [policies_instantiated, List.filter_eq_nil_iff]
  intro q hq
  obtain ⟨p, -, rfl⟩ := List.mem_map.mp hq
  rw [Policy.isStatic_unlinked]
  exact Bool.false_ne_true

/-- A template that is left was there without slots, or is the instance of a link. -/
theorem of_mem_allTemplates_instantiated {t : Template}
    (ht : t ∈ s.instantiated.allTemplates) :
    (t ∈ s.allTemplates ∧ t.hasSlots = false) ∨ ∃ p ∈ s.linkedPolicies, p.filled = t := by
  obtain ⟨id, hfind⟩ := SortedMap.mem_values_iff.mp ht
  rcases SortedMap.of_find?_insertAll hfind with hfind | ⟨hmem, -⟩
  · obtain ⟨hfind, hslots⟩ := SortedMap.find?_filter_eq_some_iff.mp hfind
    rw [Bool.not_eq_true'] at hslots
    exact Or.inl ⟨SortedMap.mem_values_iff.mpr ⟨id, hfind⟩, hslots⟩
  · exact Or.inr (List.mem_map.mp hmem)

/-- No template with slots is left. -/
theorem WellFormed.slotTemplates_instantiated (hs : s.WellFormed) :
    s.instantiated.slotTemplates = [] := by
  unfold slotTemplates
  rw [List.filter_eq_nil_iff]
  intro t ht
  rw [Bool.not_eq_true]
  rcases of_mem_allTemplates_instantiated ht with ⟨-, hslots⟩ | ⟨p, hp, rfl⟩
  · exact hslots
  · exact (hs.made (hs.mem_linkedPolicies_iff.mp hp).1).hasSlots_filled

end PolicySet

end Arbiter
