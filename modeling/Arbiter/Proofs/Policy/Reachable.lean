/-
# Reachable policy sets

A policy is made of a template in two ways (`Policy.Made`), and a policy set is what operations
make of the empty one (`PolicySet.Reachable`).  Only successful operations are steps: an operation
that fails yields no set.

Two facts carry what is said about such sets elsewhere.

* A policy that is made has values for just the slots of its scope, so every reference of its
  scope has an entity (`Policy.Made.exists_resolve`).
* Templates and policies stand under their own ids (`PolicySet.WellFormed`), so the policies are
  in strictly ascending order of their ids (`WellFormed.ascending_policies`), and adding one puts
  it between two parts of the others (`Adds.exists_policies_eq_append`).
-/
import Arbiter.Policy.Set
import Arbiter.Proofs.Outcome
import Mathlib.Logic.Relation

namespace Arbiter

open Outcome

/-! ## 1. Policies -/

namespace Policy

/-- A policy that is made of a template: without slots, or with values for its slots. -/
inductive Made : Policy → Prop
  | static {t : Template} {p : Policy} (h : newStatic t = .ok p) : Made p
  | link {t : Template} {id : PolicyId} {values : SlotValues} {p : Policy}
      (h : ofLink t id values = .ok p) : Made p

theorem newStatic_eq_ok_iff {t : Template} {p : Policy} :
    newStatic t = .ok p ↔ t.hasSlots = false ∧ p = ⟨t, none, .empty⟩ := by
  unfold newStatic
  split
  · rename_i h
    rw [h]
    exact iff_of_false nofun nofun
  · rename_i h
    rw [Bool.not_eq_true] at h
    rw [Except.ok.injEq, eq_comm]
    exact (and_iff_right h).symm

theorem ofLink_eq_ok_iff {t : Template} {id : PolicyId} {values : SlotValues} {p : Policy} :
    ofLink t id values = .ok p ↔ t.slots.toList = values.keys ∧ p = ⟨t, some id, values⟩ := by
  unfold ofLink
  simp only
  split
  · rename_i h
    rw [Except.ok.injEq, eq_comm]
    exact (and_iff_right h).symm
  · rename_i h
    exact iff_of_false nofun fun hp => h hp.1

namespace Made

variable {p : Policy}

/-- The values are values for just the slots of the scope. -/
theorem keys_eq (hp : p.Made) : p.values.keys = p.template.slots.toList := by
  cases hp with
  | static h =>
    obtain ⟨hslots, rfl⟩ := newStatic_eq_ok_iff.mp h
    unfold Template.hasSlots SortedSet.isEmpty at hslots
    rw [Bool.not_eq_false', List.isEmpty_iff] at hslots
    exact hslots.symm
  | link h =>
    obtain ⟨hslots, rfl⟩ := ofLink_eq_ok_iff.mp h
    exact hslots.symm

/-- A static policy that is made is made of its template. -/
theorem newStatic_template (hp : p.Made) (h : p.isStatic = true) :
    newStatic p.template = .ok p := by
  cases hp with
  | static hp =>
    obtain ⟨-, rfl⟩ := newStatic_eq_ok_iff.mp hp
    exact hp
  | link hp =>
    obtain ⟨-, rfl⟩ := ofLink_eq_ok_iff.mp hp
    cases h

/-- A linked policy that is made is made of its template under its id. -/
theorem ofLink_template (hp : p.Made) (h : p.isStatic = false) :
    ofLink p.template p.id p.values = .ok p := by
  cases hp with
  | static hp =>
    obtain ⟨-, rfl⟩ := newStatic_eq_ok_iff.mp hp
    cases h
  | link hp =>
    obtain ⟨-, rfl⟩ := ofLink_eq_ok_iff.mp hp
    exact hp

theorem exists_value (hp : p.Made) {s : Slot}
    (hs : p.template.principal.slot? = some s ∨ p.template.resource.slot? = some s) :
    ∃ u, p.values.find? s = some u := by
  rw [← SortedMap.mem_keys_iff, hp.keys_eq]
  unfold Template.slots
  rw [← SortedSet.mem_def, SortedSet.mem_ofList, List.mem_append, Option.mem_toList,
    Option.mem_toList]
  exact hs

end Made

/-- Every reference of the constraint has an entity. -/
def Resolves (p : Policy) (c : ScopeConstraint) : Prop :=
  ∀ s, c.slot? = some s → ∃ u, p.values.find? s = some u

theorem Made.resolves_principal {p : Policy} (hp : p.Made) : p.Resolves p.template.principal :=
  fun _ hs => hp.exists_value (Or.inl hs)

theorem Made.resolves_resource {p : Policy} (hp : p.Made) : p.Resolves p.template.resource :=
  fun _ hs => hp.exists_value (Or.inr hs)

/-- A reference of which every slot has a value has an entity. -/
theorem exists_resolve {p : Policy} {r : EntityRef}
    (h : ∀ s, r.slot? = some s → ∃ u, p.values.find? s = some u) : ∃ u, p.resolve r = .ok u := by
  cases r with
  | uid u => exact ⟨u, rfl⟩
  | slot s =>
    obtain ⟨u, hu⟩ := h s rfl
    refine ⟨u, ?_⟩
    simp only [resolve, hu]

end Policy

/-! ## 2. Operations -/

namespace PolicySet

/-- A policy is added to a set: as it is, as a static policy of a template, or as a link. -/
inductive Adds (s : PolicySet) : Policy → PolicySet → Prop
  | add {p : Policy} {s' : PolicySet} (hp : p.Made) (h : s.add p = .ok s') : Adds s p s'
  | addStatic {t : Template} {p : Policy} {s' : PolicySet} (hp : Policy.newStatic t = .ok p)
      (h : s.addStatic t = .ok s') : Adds s p s'
  | link {template id : PolicyId} {values : SlotValues} {p : Policy} {s' : PolicySet}
      (h : s.link template id values = .ok (p, s')) : Adds s p s'

/-- One successful operation. -/
inductive Step (s : PolicySet) : PolicySet → Prop
  | policy {p : Policy} {s' : PolicySet} (h : s.Adds p s') : Step s s'
  | template {t : Template} {s' : PolicySet} (h : s.addTemplate t = .ok s') : Step s s'

/-- What operations make of the empty set. -/
def Reachable (s : PolicySet) : Prop := Relation.ReflTransGen Step .empty s

theorem reachable_empty : Reachable .empty := Relation.ReflTransGen.refl

theorem Reachable.step {s s' : PolicySet} (hs : s.Reachable) (h : s.Step s') : s'.Reachable :=
  Relation.ReflTransGen.tail hs h

variable {s s' : PolicySet} {p : Policy} {t : Template}

theorem add_eq_ok (h : s.add p = .ok s') :
    s.links.find? p.id = none ∧ s'.links = s.links.insert p.id p ∧
      (s.templates.find? p.template.id = some p.template ∧ s'.templates = s.templates ∨
        s.templates.find? p.template.id = none ∧
          s'.templates = s.templates.insert p.template.id p.template) := by
  unfold add at h
  simp only at h
  split at h
  · rename_i existing hfound
    split at h
    · cases h
    · rename_i hsame
      split at h
      · cases h
      · rename_i hfresh
        cases h
        rw [Decidable.not_not.mp hsame] at hfound
        exact ⟨SortedMap.contains_eq_false_iff.mp (Bool.not_eq_true _ ▸ hfresh), rfl,
          Or.inl ⟨hfound, rfl⟩⟩
  · rename_i hnone
    split at h
    · cases h
    · rename_i hfresh
      cases h
      exact ⟨SortedMap.contains_eq_false_iff.mp (Bool.not_eq_true _ ▸ hfresh), rfl,
        Or.inr ⟨hnone, rfl⟩⟩

theorem addStatic_eq_ok (h : s.addStatic t = .ok s') :
    ∃ p, Policy.newStatic t = .ok p ∧ s.templates.find? t.id = none ∧
      s.links.find? t.id = none ∧ s' = ⟨s.templates.insert t.id t, s.links.insert t.id p⟩ := by
  unfold addStatic at h
  simp only at h
  split at h
  · cases h
  · rename_i hfresh
    rw [not_or, Bool.not_eq_true, Bool.not_eq_true, SortedMap.contains_eq_false_iff,
      SortedMap.contains_eq_false_iff] at hfresh
    obtain ⟨p, hp, h⟩ := bind_eq_ok_iff.mp h
    cases h
    exact ⟨p, mapError_eq_ok_iff.mp hp, hfresh.1, hfresh.2, rfl⟩

theorem addTemplate_eq_ok (h : s.addTemplate t = .ok s') :
    s.templates.find? t.id = none ∧ s' = { s with templates := s.templates.insert t.id t } := by
  unfold addTemplate at h
  split at h
  · cases h
  · rename_i hfresh
    cases h
    exact ⟨SortedMap.contains_eq_false_iff.mp (Bool.not_eq_true _ ▸ hfresh), rfl⟩

theorem link_eq_ok {template id : PolicyId} {values : SlotValues}
    (h : s.link template id values = .ok (p, s')) :
    ∃ t, s.templates.find? template = some t ∧ Policy.ofLink t id values = .ok p ∧
      s.links.find? id = none ∧ s.templates.find? id = none ∧
        s' = { s with links := s.links.insert id p } := by
  unfold link at h
  split at h
  · cases h
  · rename_i t ht
    split at h
    · cases h
    · rename_i hfresh
      rw [not_or, Bool.not_eq_true, Bool.not_eq_true, SortedMap.contains_eq_false_iff,
        SortedMap.contains_eq_false_iff] at hfresh
      split at h
      · rename_i p' hp
        cases h
        exact ⟨t, ht, hp, hfresh.1, hfresh.2, rfl⟩
      · cases h

/-- A policy that is added is made of a template. -/
theorem Adds.made (h : s.Adds p s') : p.Made := by
  cases h with
  | add hp _ => exact hp
  | addStatic hp _ => exact Policy.Made.static hp
  | link h =>
    obtain ⟨t, -, hp, -⟩ := link_eq_ok h
    exact Policy.Made.link hp

/-- A policy is added under a new id, and no other policy changes. -/
theorem Adds.links_eq (h : s.Adds p s') :
    s.links.find? p.id = none ∧ s'.links = s.links.insert p.id p := by
  cases h with
  | add _ h =>
    obtain ⟨hfresh, hlinks, -⟩ := add_eq_ok h
    exact ⟨hfresh, hlinks⟩
  | addStatic hp h =>
    obtain ⟨p', hp', -, hfresh, rfl⟩ := addStatic_eq_ok h
    rw [hp] at hp'
    cases hp'
    obtain ⟨-, rfl⟩ := Policy.newStatic_eq_ok_iff.mp hp
    exact ⟨hfresh, rfl⟩
  | link h =>
    obtain ⟨t, -, hp, hfresh, -, rfl⟩ := link_eq_ok h
    obtain ⟨-, rfl⟩ := Policy.ofLink_eq_ok_iff.mp hp
    exact ⟨hfresh, rfl⟩

/-! ## 3. Well-formed sets -/

/-- Templates and policies stand under their own ids, and each policy is made of a template of the
set. -/
structure WellFormed (s : PolicySet) : Prop where
  template_id : ∀ {id t}, s.templates.find? id = some t → t.id = id
  policy_id : ∀ {id p}, s.links.find? id = some p → p.id = id
  made : ∀ {id p}, s.links.find? id = some p → p.Made
  template : ∀ {id p}, s.links.find? id = some p →
    s.templates.find? p.template.id = some p.template

namespace WellFormed

theorem of_empty : WellFormed .empty where
  template_id := nofun
  policy_id := nofun
  made := nofun
  template := nofun

/-- A template under a new id. -/
theorem insert_template (hs : s.WellFormed) (hfresh : s.templates.find? t.id = none) :
    WellFormed { s with templates := s.templates.insert t.id t } where
  template_id := by
    intro id t' h
    rcases SortedMap.of_find?_insert h with ⟨rfl, rfl⟩ | h
    · rfl
    · exact hs.template_id h
  policy_id := hs.policy_id
  made := hs.made
  template := by
    intro id p h
    have hne : p.template.id ≠ t.id := by
      intro heq
      have hfound := hs.template h
      rw [heq, hfresh] at hfound
      cases hfound
    rw [SortedMap.find?_insert_of_ne _ _ hne]
    exact hs.template h

/-- A policy under its id, when its template is there. -/
theorem insert_link (hs : s.WellFormed) (hp : p.Made)
    (ht : s.templates.find? p.template.id = some p.template) :
    WellFormed { s with links := s.links.insert p.id p } := by
  constructor
  · exact hs.template_id
  · intro id q h
    rcases SortedMap.of_find?_insert h with ⟨rfl, rfl⟩ | h
    · rfl
    · exact hs.policy_id h
  · intro id q h
    rcases SortedMap.of_find?_insert h with ⟨-, rfl⟩ | h
    · exact hp
    · exact hs.made h
  · intro id q h
    rcases SortedMap.of_find?_insert h with ⟨-, rfl⟩ | h
    · exact ht
    · exact hs.template h

theorem insert_both (hs : s.WellFormed) (hp : p.Made)
    (hfresh : s.templates.find? p.template.id = none) :
    WellFormed ⟨s.templates.insert p.template.id p.template, s.links.insert p.id p⟩ :=
  insert_link (hs.insert_template hfresh) hp (SortedMap.find?_insert_self _ _ _)

theorem adds (hs : s.WellFormed) (h : s.Adds p s') : s'.WellFormed := by
  have hp : p.Made := h.made
  cases h with
  | add _ h =>
    obtain ⟨templates, links⟩ := s'
    obtain ⟨-, hlinks, ⟨ht, htemplates⟩ | ⟨ht, htemplates⟩⟩ := add_eq_ok h
    · cases hlinks
      cases htemplates
      exact hs.insert_link hp ht
    · cases hlinks
      cases htemplates
      exact hs.insert_both hp ht
  | addStatic hstatic h =>
    obtain ⟨p', hp', hfresh, -, rfl⟩ := addStatic_eq_ok h
    rw [hstatic] at hp'
    cases hp'
    obtain ⟨-, rfl⟩ := Policy.newStatic_eq_ok_iff.mp hstatic
    exact hs.insert_both hp hfresh
  | link h =>
    obtain ⟨t, ht, hlink, -, -, rfl⟩ := link_eq_ok h
    obtain ⟨-, rfl⟩ := Policy.ofLink_eq_ok_iff.mp hlink
    refine hs.insert_link hp ?_
    rw [hs.template_id ht]
    exact ht

theorem step (hs : s.WellFormed) (h : s.Step s') : s'.WellFormed := by
  cases h with
  | policy h => exact hs.adds h
  | template h =>
    obtain ⟨hfresh, rfl⟩ := addTemplate_eq_ok h
    exact hs.insert_template hfresh

end WellFormed

/-- **Reachable sets are well-formed.** -/
theorem Reachable.wellFormed (hs : s.Reachable) : s.WellFormed := by
  induction hs with
  | refl => exact WellFormed.of_empty
  | tail _ hstep ih => exact ih.step hstep

/-! ## 4. The policies of a set -/

theorem mem_policies_iff : p ∈ s.policies ↔ ∃ id, s.links.find? id = some p :=
  SortedMap.mem_values_iff

namespace WellFormed

theorem made_of_mem (hs : s.WellFormed) (hp : p ∈ s.policies) : p.Made := by
  obtain ⟨id, h⟩ := mem_policies_iff.mp hp
  exact hs.made h

/-- The template of a policy is a template of the set. -/
theorem mem_allTemplates (hs : s.WellFormed) (hp : p ∈ s.policies) :
    p.template ∈ s.allTemplates := by
  obtain ⟨id, h⟩ := mem_policies_iff.mp hp
  exact SortedMap.mem_values_iff.mpr ⟨_, hs.template h⟩

/-- Policies are in strictly ascending order of their ids. -/
theorem ascending_policies (hs : s.WellFormed) : SortedList.Strict (s.policies.map Policy.id) := by
  have hids : s.policies.map Policy.id = s.links.entries.map Prod.fst := by
    unfold policies SortedMap.values
    rw [List.map_map]
    refine List.map_congr_left ?_
    rintro ⟨id, p⟩ hmem
    exact hs.policy_id (SortedMap.mem_entries_iff.mp hmem)
  rw [hids]
  exact List.Pairwise.map _ (fun _ _ h => h) s.links.ascending

end WellFormed

/-- A policy that is added goes between two parts of the others. -/
theorem Adds.exists_policies_eq_append (h : s.Adds p s') :
    ∃ before after, s.policies = before ++ after ∧ s'.policies = before ++ p :: after := by
  obtain ⟨hfresh, hlinks⟩ := h.links_eq
  obtain ⟨l₁, l₂, hl, hput⟩ := SortedList.exists_put_eq_append p hfresh
  refine ⟨l₁.map Prod.snd, l₂.map Prod.snd, ?_, ?_⟩
  · unfold policies SortedMap.values
    rw [hl, List.map_append]
  · unfold policies SortedMap.values
    have hentries : s'.links.entries = l₁ ++ (p.id, p) :: l₂ := by
      rw [hlinks]
      exact hput
    rw [hentries, List.map_append, List.map_cons]

end PolicySet

end Arbiter
