/-
# The hierarchies of a schema

A schema declares two graphs: the types of the parents of a type, and the groups of an action.
What the searches find in them is said by paths (`Path`), of which all nodes but the last are
declared: `canDescend_iff` for types, `mem_actionAncestors_iff` and `mem_actionsIn_iff` for
actions.
-/
import Arbiter.Proofs.Reachability
import Arbiter.Proofs.Schema.Closed

namespace Arbiter.Schema

variable {s : Schema}

/-- The steps from a type to the declared types of its parents. -/
abbrev TypePath (s : Schema) : EntityType → EntityType → Prop :=
  Path s.parentTypes s.entityTypes.keys

/-- The steps from an action to its declared groups. -/
abbrev ActionPath (s : Schema) : EntityUid → EntityUid → Prop := Path s.groupsOf s.actions.keys

theorem mem_parentTypes_iff {t p : EntityType} :
    p ∈ s.parentTypes t ↔ ∃ d, s.entityType? t = some d ∧ p ∈ d.memberOf := by
  unfold parentTypes
  cases s.entityType? t with
  | none => exact iff_of_false nofun nofun
  | some d => simp only [Option.some.injEq, exists_eq_left', SortedSet.mem_def]

theorem mem_groupsOf_iff {u g : EntityUid} :
    g ∈ s.groupsOf u ↔ ∃ d, s.action? u = some d ∧ g ∈ d.memberOf := by
  unfold groupsOf
  cases s.action? u with
  | none => exact iff_of_false nofun nofun
  | some d => simp only [Option.some.injEq, exists_eq_left', SortedSet.mem_def]

/-- Only declared types have parents, so that it costs nothing to expand just those. -/
theorem expands_parentTypes_iff {t p : EntityType} :
    Expands s.parentTypes s.entityTypes.keys t p ↔
      ∃ d, s.entityType? t = some d ∧ p ∈ d.memberOf := by
  refine Iff.trans (and_iff_right_of_imp fun hp => ?_) mem_parentTypes_iff
  obtain ⟨d, hd, -⟩ := mem_parentTypes_iff.mp hp
  exact SortedMap.mem_keys_iff.mpr ⟨d, hd⟩

/-- Only declared actions have groups. -/
theorem expands_groupsOf_iff {u g : EntityUid} :
    Expands s.groupsOf s.actions.keys u g ↔ ∃ d, s.action? u = some d ∧ g ∈ d.memberOf := by
  refine Iff.trans (and_iff_right_of_imp fun hg => ?_) mem_groupsOf_iff
  obtain ⟨d, hd, -⟩ := mem_groupsOf_iff.mp hg
  exact SortedMap.mem_keys_iff.mpr ⟨d, hd⟩

theorem canDescend_iff {t ancestor : EntityType} :
    s.canDescend t ancestor = true ↔ s.TypePath t ancestor := by
  unfold canDescend
  rw [List.contains_iff_mem, mem_reachable_iff]
  constructor
  · rintro ⟨q, hq, hpath⟩
    rw [List.mem_singleton.mp hq] at hpath
    exact hpath
  · intro hpath
    exact ⟨t, List.mem_singleton_self t, hpath⟩

theorem mem_actionAncestors_iff {u g : EntityUid} :
    (s.actionAncestors u).contains g = true ↔ ∃ q ∈ s.groupsOf u, s.ActionPath q g := by
  unfold actionAncestors
  rw [SortedSet.contains_iff, SortedSet.mem_ofList, mem_reachable_iff]

/-- A path of groups leads to the action itself or to a group that it is in. -/
theorem actionPath_iff {u g : EntityUid} :
    s.ActionPath u g ↔ u = g ∨ g ∈ s.actionAncestors u := by
  rw [← SortedSet.contains_iff, mem_actionAncestors_iff]
  refine path_iff_eq_or_exists.trans (or_congr_right (exists_congr fun q => ?_))
  rw [expands_groupsOf_iff, mem_groupsOf_iff]

section

variable (huid : ∀ {u d}, s.action? u = some d → d.uid = u)

include huid

/-- When each action stands under its own uid, the uids of the actions are the keys. -/
theorem map_uid_actionDecls : s.actionDecls.map ActionDecl.uid = s.actions.keys := by
  unfold actionDecls SortedMap.values SortedMap.keys
  rw [List.map_map]
  exact List.map_congr_left fun e he => huid (SortedMap.mem_entries_iff.mp he)

theorem mem_actionDecls_iff {d : ActionDecl} : d ∈ s.actionDecls ↔ s.action? d.uid = some d := by
  unfold actionDecls
  rw [SortedMap.mem_values_iff]
  constructor
  · rintro ⟨u, hu⟩
    have hkey : d.uid = u := huid hu
    rw [hkey]
    exact hu
  · intro hd
    exact ⟨d.uid, hd⟩

/-- The members of a group are the declared actions from which a path leads to it. -/
theorem mem_actionsIn_iff {d : ActionDecl} {g : EntityUid} :
    d ∈ s.actionsIn g ↔ s.action? d.uid = some d ∧ s.ActionPath d.uid g := by
  unfold actionsIn
  rw [List.mem_filter, mem_actionDecls_iff huid, Bool.or_eq_true, beq_iff_eq,
    SortedSet.contains_iff, actionPath_iff]

end

end Arbiter.Schema
