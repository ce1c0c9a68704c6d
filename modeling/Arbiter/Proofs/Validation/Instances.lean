/-
# Validation of templates covers their links

A slot admits every type, so a template is checked in all environments in which one of its links
can be.  Writing values in the place of the slots only takes environments away
(`Template.environments_instantiate_subset`), and the only types that it adds to the scope are
those of the values.  So an instance has no fault that is neither one of its template nor one of
the values (`Policy.mem_faults_filled`), and these two are just what validation of a set with links
looks at (`PolicySet.validate_eq_nil_iff`).
-/
import Arbiter.Proofs.Engine.Soundness
import Arbiter.Proofs.Policy.Instances

namespace Arbiter

section

variable {s : Schema} {values : SlotValues}

/-! ## 1. Constraints -/

/-- A slot passes every test of types, so a reference that passes one with its value passes it
without. -/
theorem EntityRef.all_of_fill {ask : EntityType → Bool} {r : EntityRef}
    (h : (r.fill values).type?.all ask = true) : r.type?.all ask = true := by
  cases r with
  | uid u => exact h
  | slot s => rfl

/-- A reference that is filled in has the type that it had or that of a value. -/
theorem EntityRef.of_type?_fill {r : EntityRef} {t : EntityType}
    (h : (r.fill values).type? = some t) :
    r.type? = some t ∨ ∃ u ∈ values.values, u.type = t := by
  cases r with
  | uid u => exact Or.inl h
  | slot s =>
    cases hfind : values.find? s with
    | none =>
      rw [fill, hfind] at h
      cases h
    | some u =>
      rw [fill, hfind] at h
      cases h
      exact Or.inr ⟨u, SortedMap.mem_values_iff.mpr ⟨s, hfind⟩, rfl⟩

namespace ScopeConstraint

variable {c : ScopeConstraint} {t : EntityType}

/-- A constraint that is filled in admits no type that it did not admit before. -/
theorem admits_of_admits_fill (h : (c.fill values).admits s t = true) :
    c.admits s t = true := by
  cases c with
  | any => rfl
  | isType u => exact h
  | eq r | isIn r => exact EntityRef.all_of_fill h
  | isTypeIn u r =>
    obtain ⟨htype, hin⟩ := (Bool.and_eq_true _ _).mp h
    exact (Bool.and_eq_true _ _).mpr ⟨htype, EntityRef.all_of_fill hin⟩

/-- A constraint that is filled in mentions the types that it mentioned and those of values. -/
theorem of_mem_types_fill (h : t ∈ (c.fill values).types) :
    t ∈ c.types ∨ ∃ u ∈ values.values, u.type = t := by
  cases c with
  | any => cases h
  | isType u => exact Or.inl h
  | eq r | isIn r =>
    exact (EntityRef.of_type?_fill (Option.mem_toList.mp h)).imp_left Option.mem_toList.mpr
  | isTypeIn u r =>
    rcases List.mem_cons.mp h with rfl | h
    · exact Or.inl List.mem_cons_self
    · rcases EntityRef.of_type?_fill (Option.mem_toList.mp h) with h | h
      · exact Or.inl (List.mem_cons_of_mem _ (Option.mem_toList.mpr h))
      · exact Or.inr h

end ScopeConstraint

/-! ## 2. Templates -/

namespace Template

variable {t : Template} {id : PolicyId}

/-- **An instance is checked in environments of its template.** -/
theorem environments_instantiate_subset :
    (t.instantiate id values).environments s ⊆ t.environments s := by
  intro env henv
  obtain ⟨a, ha, henv⟩ := List.mem_flatMap.mp henv
  obtain ⟨principal, hprincipal, henv⟩ := List.mem_flatMap.mp henv
  obtain ⟨resource, hresource, rfl⟩ := List.mem_map.mp henv
  obtain ⟨hprincipal, hadmits⟩ := List.mem_filter.mp hprincipal
  obtain ⟨hresource, hadmits'⟩ := List.mem_filter.mp hresource
  exact List.mem_flatMap.mpr ⟨a, ha,
    mem_environmentsOf hprincipal (ScopeConstraint.admits_of_admits_fill hadmits) hresource
      (ScopeConstraint.admits_of_admits_fill hadmits')⟩

/-- The types in the scope of an instance are those of the template and of the values; the action
is the same. -/
theorem mem_scopeFaults_instantiate {f : PolicyFault}
    (h : f ∈ (t.instantiate id values).scopeFaults s) :
    f ∈ t.scopeFaults s ∨ ∃ u ∈ values.values, f ∈ Checker.requireType s u.type := by
  rcases List.mem_append.mp h with h | h
  · obtain ⟨type, htype, hf⟩ := List.mem_flatMap.mp h
    have htypes : type ∈ t.principal.types ++ t.resource.types ∨
        ∃ u ∈ values.values, u.type = type := by
      rw [List.mem_append]
      rcases List.mem_append.mp htype with htype | htype
      · exact (ScopeConstraint.of_mem_types_fill htype).imp_left Or.inl
      · exact (ScopeConstraint.of_mem_types_fill htype).imp_left Or.inr
    rcases htypes with htypes | ⟨u, hu, rfl⟩
    · exact Or.inl (List.mem_append_left _ (List.mem_flatMap.mpr ⟨type, htypes, hf⟩))
    · exact Or.inr ⟨u, hu, hf⟩
  · exact Or.inl (List.mem_append_right _ h)

end Template

/-- **An instance has the faults of its template and of the values only.** -/
theorem Policy.mem_faults_filled {p : Policy} {f : PolicyFault} (h : f ∈ p.filled.faults s) :
    f ∈ p.template.faults s ∨ f ∈ p.valueFaults s := by
  rcases List.mem_append.mp h with h | h
  · rcases Template.mem_scopeFaults_instantiate h with h | ⟨u, hu, hf⟩
    · exact Or.inl (List.mem_append_left _ h)
    · exact Or.inr (List.mem_flatMap.mpr ⟨u, hu, hf⟩)
  · obtain ⟨env, henv, hf⟩ := List.mem_flatMap.mp h
    exact Or.inl (List.mem_append_right _
      (List.mem_flatMap.mpr ⟨env, Template.environments_instantiate_subset henv, hf⟩))

theorem Policy.faults_filled_eq_nil {p : Policy} (ht : p.template.faults s = [])
    (hvalues : p.valueFaults s = []) : p.filled.faults s = [] := by
  refine List.eq_nil_iff_forall_not_mem.mpr fun f hf => ?_
  have hmem := Policy.mem_faults_filled hf
  rw [ht, hvalues] at hmem
  rcases hmem with hmem | hmem
  · cases hmem
  · cases hmem

end

/-! ## 3. Sets -/

/-- What replacing the links of valid policies leaves is valid. -/
theorem PolicySet.WellFormed.validate_instantiated {ps : PolicySet} {s : Schema}
    (hps : ps.WellFormed) (h : ps.validate s = []) : ps.instantiated.validate s = [] := by
  obtain ⟨htemplates, hvalues⟩ := validate_eq_nil_iff.mp h
  refine validate_eq_nil_iff.mpr ⟨fun t ht => ?_, fun p hp => ?_⟩
  · rcases of_mem_allTemplates_instantiated ht with ⟨ht, -⟩ | ⟨p, hp, rfl⟩
    · exact htemplates t ht
    · have hmem : p.template ∈ ps.allTemplates :=
        hps.mem_allTemplates (List.mem_of_mem_filter hp)
      exact Policy.faults_filled_eq_nil (htemplates _ hmem) (hvalues p hp)
  · rw [linkedPolicies_instantiated] at hp
    cases hp

/-- **Validating a template covers all its links.**  If a set is valid for a schema, so is what
replacing each link by its instance, and leaving out the templates with slots, makes of it.  That
is a run of operations, which succeeds unless a link has the id of a template without slots. -/
theorem PolicySet.validate_covers_links {ps : PolicySet} {s : Schema} (hps : ps.Reachable)
    (hvalid : ps.validate s = []) :
    ps.instantiated.validate s = [] ∧
      ∀ qs, ps.instantiate = .ok qs ↔ ps.Vacant ∧ qs = ps.instantiated :=
  ⟨hps.wellFormed.validate_instantiated hvalid, fun _ => hps.wellFormed.instantiate_eq_ok_iff⟩

namespace Office

/-- The link for the plan as a static policy. -/
def ownPlanTemplate : Template :=
  { ownTemplate with id := ownPolicy.id, resource := .eq (.uid plan) }

/-- The office with its link replaced. -/
def unlinkedPolicies : PolicySet where
  templates := .ofList [(levelTemplate.id, levelTemplate), (ownPlanTemplate.id, ownPlanTemplate)]
  links := .ofList [(levelPolicy.id, levelPolicy),
    (ownPlanTemplate.id, ⟨ownPlanTemplate, none, .empty⟩)]

/-- The policies of the office are valid without the link. -/
theorem validate_covers_links_office : policies.Reachable ∧ policies.validate schema = [] ∧
    policies.instantiate = .ok unlinkedPolicies ∧ unlinkedPolicies.validate schema = [] := by
  have hinstantiate : policies.instantiate = .ok unlinkedPolicies := by rfl
  obtain ⟨hvalid, hrun⟩ :=
    PolicySet.validate_covers_links reachable_policies validate_policies
  obtain ⟨-, hpolicies⟩ := (hrun unlinkedPolicies).mp hinstantiate
  refine ⟨reachable_policies, validate_policies, hinstantiate, ?_⟩
  rw [hpolicies]
  exact hvalid

end Office

end Arbiter
