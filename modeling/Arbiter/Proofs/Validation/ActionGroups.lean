/-
# Groups of actions, as they are checked and as they match

Validation reads the groups of actions off the schema, the match of a scope reads them off the store.
A store that is built with a schema holds the declared actions as they are declared, unless an action
is among the given entities: then it is stored as it is given, and only the names of its parents have
been looked at.  So the two hierarchies are the same exactly when each given action keeps its groups
(`Schema.KeepsGroups`): it is in each group that is declared for it, and in no declared group besides
(`Schema.sameGroups_tfae`).  A given action with the declared parents keeps its groups; one that is
given without them does not (`Office.not_sameGroups_bareView`).
-/
import Arbiter.Proofs.Validation.Environments
import Mathlib.Tactic.TFAE

namespace Arbiter

open Relation

namespace Schema

variable {s : Schema} {store : EntityStore} {es : List Entity} {a b g : EntityUid}

/-! ## 1. Two hierarchies of actions -/

/-- A declared action is in another one in the store exactly when it is so in the schema. -/
def SameGroups (s : Schema) (store : EntityStore) : Prop :=
  ∀ a g, s.Declares a → s.Declares g →
    (store.isDescendant a g = true ↔ a = g ∨ g ∈ s.actionAncestors a)

/-- For the scopes that ask for an action in a declared group, validation takes just the declared
actions that match. -/
def SameMembers (s : Schema) (store : EntityStore) : Prop :=
  ∀ g, s.Declares g → ∀ p : Policy, p.template.action = .isIn [g] → ∀ d : ActionDecl,
    d ∈ s.actionsIn g ↔ s.action? d.uid = some d ∧ (p.actionMatch store d.uid).isSome = true

/-- A given action is in the groups that are declared for it, and its parents are in no other ones:
a declared parent is the action itself or a group that it is in by declaration. -/
structure KeepsGroups (s : Schema) (store : EntityStore) (e : Entity) : Prop where
  declared : ∀ g ∈ s.groupsOf e.uid, store.isDescendant e.uid g = true
  noOther : ∀ g ∈ e.parents, s.Declares g → g = e.uid ∨ g ∈ s.actionAncestors e.uid

theorem isSome_actionMatch_isIn_singleton_iff {p : Policy} (hp : p.template.action = .isIn [g]) :
    (p.actionMatch store a).isSome = true ↔ store.isDescendant a g = true := by
  rw [Policy.isSome_actionMatch_iff, hp]
  simp [ActionConstraint.Meets]

/-- The hierarchies are the same when the scopes that ask for groups get the same actions. -/
theorem sameGroups_iff_sameMembers (hs : s.Closed) : s.SameGroups store ↔ s.SameMembers store := by
  constructor
  · intro h g hg p hp d
    rw [mem_actionsIn_iff hs.uid_eq, actionPath_iff, isSome_actionMatch_isIn_singleton_iff hp]
    exact and_congr_right fun hd => (h d.uid g ⟨d, hd⟩ hg).symm
  · rintro h a g ⟨d, hd⟩ hg
    obtain rfl : d.uid = a := hs.uid_eq hd
    have hmember := h g hg ⟨{ id := ⟨""⟩, effect := .permit, action := .isIn [g] }, none, .empty⟩ rfl d
    rw [mem_actionsIn_iff hs.uid_eq, isSome_actionMatch_isIn_singleton_iff rfl,
      actionPath_iff] at hmember
    exact ((and_congr_right_iff.mp hmember) hd).symm

/-! ## 2. Given actions -/

section

variable (hs : s.Closed) (h : EntityStore.withSchema s es = .ok store)

include hs h

/-- What is stored under the uid of an action is a declared action. -/
theorem declares_of_get? {e : Entity} (he : store.get? a = some e) (ha : a.isAction = true) :
    s.Declares a := by
  rcases EntityStore.get?_withSchema hs h he with hmem | ⟨d, hd, -⟩
  · obtain ⟨-, rfl⟩ := EntityStore.mem_of_get? he
    have hconform := (EntityStore.entities_withSchema hs h).1 e hmem
    unfold conformEntity at hconform
    rw [if_pos ha] at hconform
    exact (conformAction_eq_ok_iff.mp hconform).1
  · exact ⟨d, hd⟩

/-- A parent of a given action leads nowhere unless it is declared. -/
theorem eq_of_isDescendant_parent {e : Entity} (he : e ∈ es) (haction : e.uid.isAction = true)
    (hb : b ∈ e.parents) (hundeclared : ¬ s.Declares b) (hin : store.ParentPath b g) : b = g := by
  have hconform := (EntityStore.entities_withSchema hs h).1 e he
  unfold conformEntity at hconform
  rw [if_pos haction] at hconform
  have hbaction : b.isAction = true := (conformAction_eq_ok_iff.mp hconform).2.2 b hb
  rcases path_iff_eq_or_exists.mp hin with heq | ⟨c, hedge, -⟩
  · exact heq
  · obtain ⟨eb, heb, -⟩ := EntityStore.expands_parentsOf_iff.mp hedge
    exact absurd (declares_of_get? hs h heb hbaction) hundeclared

/-- When the given actions keep their groups, a path in the store between declared actions goes along
with a path of declared groups. -/
theorem actionPath_of_parentPath (hkeeps : ∀ e ∈ es, e.uid.isAction = true → s.KeepsGroups store e)
    (ha : s.Declares a) (hg : s.Declares g) (hin : store.ParentPath a g) : s.ActionPath a g := by
  induction hin using ReflTransGen.head_induction_on with
  | refl => exact .refl
  | @head a b hab hbg ih =>
    obtain ⟨d, hd⟩ := ha
    obtain ⟨e, he, hb⟩ := EntityStore.expands_parentsOf_iff.mp hab
    obtain ⟨-, rfl⟩ := EntityStore.mem_of_get? he
    rcases EntityStore.get?_withSchema hs h he with hmem | ⟨d', hd', heq⟩
    · have haction : e.uid.isAction = true := hs.isAction hd
      by_cases hdeclared : s.Declares b
      · refine ReflTransGen.trans (actionPath_iff.mpr ?_) (ih hdeclared)
        exact ((hkeeps e hmem haction).noOther b hb hdeclared).imp_left Eq.symm
      · have hbg' := eq_of_isDescendant_parent hs h hmem haction hb hdeclared hbg
        exact absurd (hbg' ▸ hg) hdeclared
    · rw [heq] at hb
      exact .head (expands_groupsOf_iff.mpr ⟨d', hd', hb⟩) (ih (hs.group hd' b hb))

/-- When the given actions keep their groups, a path of declared groups goes along with a path in the
store. -/
theorem parentPath_of_actionPath (hkeeps : ∀ e ∈ es, e.uid.isAction = true → s.KeepsGroups store e)
    (hin : s.ActionPath a g) : store.ParentPath a g := by
  induction hin with
  | refl => exact .refl
  | @tail b c _ hbc ih =>
    obtain ⟨d, hd, hc⟩ := expands_groupsOf_iff.mp hbc
    refine ih.trans ?_
    by_cases hgiven : b ∈ es.map Entity.uid
    · obtain ⟨e, he, rfl⟩ := List.mem_map.mp hgiven
      exact EntityStore.isDescendant_iff.mp
        ((hkeeps e he (hs.isAction hd)).declared c hbc.2)
    · have hstored := EntityStore.get?_declared hs h hd hgiven
      exact .single (EntityStore.expands_parentsOf_iff.mpr ⟨_, hstored, hc⟩)

/-- **The hierarchies are the same exactly when the given actions keep their groups.** -/
theorem sameGroups_iff_keepsGroups :
    s.SameGroups store ↔ ∀ e ∈ es, e.uid.isAction = true → s.KeepsGroups store e := by
  constructor
  · intro hsame e he haction
    have hget := EntityStore.get?_given hs h he
    obtain ⟨d, hd⟩ := declares_of_get? hs h hget haction
    refine ⟨fun g hg => ?_, fun g hg hdeclared => ?_⟩
    · have hgroup : s.ActionPath e.uid g := .single ⟨SortedMap.mem_keys_iff.mpr ⟨d, hd⟩, hg⟩
      obtain ⟨d', hd', hmem⟩ := expands_groupsOf_iff.mp ⟨SortedMap.mem_keys_iff.mpr ⟨d, hd⟩, hg⟩
      exact (hsame e.uid g ⟨d, hd⟩ (hs.group hd' g hmem)).mpr (actionPath_iff.mp hgroup)
    · have hin : store.isDescendant e.uid g = true :=
        EntityStore.isDescendant_of_parent hget (SortedSet.contains_iff.mpr hg)
          EntityStore.isDescendant_self
      exact ((hsame e.uid g ⟨d, hd⟩ hdeclared).mp hin).imp_left Eq.symm
  · intro hkeeps a g ha hg
    rw [EntityStore.isDescendant_iff, ← actionPath_iff]
    exact ⟨actionPath_of_parentPath hs h hkeeps ha hg, parentPath_of_actionPath hs h hkeeps⟩

/-- A given action with the declared parents keeps its groups. -/
theorem keepsGroups_of_parents_eq {e : Entity} {d : ActionDecl} (he : e ∈ es)
    (hd : s.action? e.uid = some d) (hparents : e.parents = d.memberOf) : s.KeepsGroups store e := by
  have hgroups : s.groupsOf e.uid = e.parents.toList := by
    unfold groupsOf
    rw [hd, hparents]
  refine ⟨fun g hg => ?_, fun g hg _ => Or.inr ?_⟩
  · rw [hgroups] at hg
    exact EntityStore.isDescendant_of_parent (EntityStore.get?_given hs h he)
      (SortedSet.contains_iff.mpr hg) EntityStore.isDescendant_self
  · rw [← SortedSet.contains_iff, mem_actionAncestors_iff]
    exact ⟨g, hgroups ▸ hg, .refl⟩

end

/-- **The groups of actions are checked as they match exactly when the given actions keep their
groups**, and they do when each given action has the declared parents. -/
theorem sameGroups_tfae {j : Json} (hs : ofJson j = .ok s)
    (h : EntityStore.withSchema s es = .ok store) :
    List.TFAE [s.SameGroups store, s.SameMembers store,
        ∀ e ∈ es, e.uid.isAction = true → s.KeepsGroups store e] ∧
      ((∀ e ∈ es, e.uid.isAction = true → ∃ d, s.action? e.uid = some d ∧ e.parents = d.memberOf) →
        s.SameGroups store ∧ s.SameMembers store) := by
  have hclosed : s.Closed := closed_of_ofJson hs
  have hkeeps := sameGroups_iff_keepsGroups hclosed h
  have hmembers : s.SameGroups store ↔ s.SameMembers store := sameGroups_iff_sameMembers hclosed
  constructor
  · tfae_have 1 ↔ 2 := hmembers
    tfae_have 1 ↔ 3 := hkeeps
    tfae_finish
  · intro hgiven
    have hsame : s.SameGroups store := hkeeps.mpr fun e he haction => by
      obtain ⟨d, hd, hparents⟩ := hgiven e he haction
      exact keepsGroups_of_parents_eq hclosed h he hd hparents
    exact ⟨hsame, hmembers.mp hsame⟩

end Schema

/-! ## 3. Actions that are given to an office -/

namespace Office

/-- The action as it is declared, among the other entities. -/
def withView : List Entity :=
  { uid := action "view", parents := .singleton (action "read") } :: entities

theorem sameGroups_withView : ∃ store, EntityStore.withSchema schema withView = .ok store ∧
    (∀ e ∈ withView, e.uid.isAction = true →
      ∃ d, schema.action? e.uid = some d ∧ e.parents = d.memberOf) ∧
    schema.SameGroups store ∧ schema.SameMembers store := by
  obtain ⟨store, hstore⟩ : ∃ store, EntityStore.withSchema schema withView = .ok store := ⟨_, rfl⟩
  have hgiven : ∀ e ∈ withView, e.uid.isAction = true →
      ∃ d, schema.action? e.uid = some d ∧ e.parents = d.memberOf := by
    refine List.forall_mem_cons.mpr ⟨fun _ => ⟨_, rfl, rfl⟩, fun e he haction => ?_⟩
    rw [entities_noAction e he] at haction
    cases haction
  exact ⟨store, hstore, hgiven, (Schema.sameGroups_tfae schema_ofJson hstore).2 hgiven⟩

/-- An action without its group, and a group in the action. -/
def bareView : List Entity :=
  [{ uid := action "view" }, { uid := action "all", parents := .singleton (action "view") }]

/-- Given actions that do not keep their groups are accepted.  Then an action is not in a group that
is declared for it, and matches a scope that asks for a group without being one of the actions that
validation takes for it. -/
theorem not_sameGroups_bareView : ∃ store, EntityStore.withSchema schema bareView = .ok store ∧
    (action "read" ∈ schema.actionAncestors (action "view") ∧
      store.isDescendant (action "view") (action "read") = false) ∧
    (action "view" ∉ schema.actionAncestors (action "all") ∧
      store.isDescendant (action "all") (action "view") = true) ∧
    ¬ schema.SameGroups store ∧ ¬ schema.SameMembers store := by
  obtain ⟨store, hstore⟩ : ∃ store, EntityStore.withSchema schema bareView = .ok store := ⟨_, rfl⟩
  have hclosed : schema.Closed := Schema.closed_of_ofJson schema_ofJson
  have hview : store.get? (action "view") = some { uid := action "view" } :=
    EntityStore.get?_given hclosed hstore List.mem_cons_self
  have hall : store.get? (action "all")
      = some { uid := action "all", parents := .singleton (action "view") } :=
    EntityStore.get?_given hclosed hstore (List.mem_cons_of_mem _ List.mem_cons_self)
  have hdeclared : action "read" ∈ schema.actionAncestors (action "view") := by
    rw [← SortedSet.contains_iff, Schema.mem_actionAncestors_iff]
    exact ⟨action "read", List.mem_singleton_self _, .refl⟩
  have hlost : store.isDescendant (action "view") (action "read") = false := by
    rw [Bool.eq_false_iff, ne_eq, EntityStore.isDescendant_iff]
    intro hin
    rcases path_iff_eq_or_exists.mp hin with heq | ⟨p, hedge, -⟩
    · exact absurd heq (by decide)
    · obtain ⟨e, he, hp⟩ := EntityStore.expands_parentsOf_iff.mp hedge
      rw [hview] at he
      cases he
      cases hp
  have hundeclared : action "view" ∉ schema.actionAncestors (action "all") := by
    rw [← SortedSet.contains_iff, Schema.mem_actionAncestors_iff]
    rintro ⟨q, hq, -⟩
    cases hq
  have hgained : store.isDescendant (action "all") (action "view") = true :=
    EntityStore.isDescendant_of_parent hall
      (SortedSet.contains_iff.mpr (List.mem_singleton_self _)) EntityStore.isDescendant_self
  have hnot : ¬ schema.SameGroups store := by
    intro hsame
    have hin := (hsame (action "view") (action "read") ⟨_, rfl⟩ ⟨_, rfl⟩).mpr (Or.inr hdeclared)
    rw [hlost] at hin
    cases hin
  exact ⟨store, hstore, ⟨hdeclared, hlost⟩, ⟨hundeclared, hgained⟩, hnot,
    fun hmembers => hnot ((Schema.sameGroups_iff_sameMembers hclosed).mpr hmembers)⟩

end Office

end Arbiter
