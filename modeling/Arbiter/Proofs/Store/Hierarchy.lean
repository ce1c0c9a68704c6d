/-
# The hierarchy of a store

Looking an entity up finds the one entity of its uid (`get?_eq_some_iff`), and an entity is in
another one exactly when a path of parents leads there (`isDescendant_iff`).  Every node of the
path but the last is stored.
-/
import Arbiter.Proofs.Reachability
import Arbiter.Store.Basic
import Mathlib.Data.List.Nodup

namespace Arbiter.EntityStore

variable {s : EntityStore}

/-- The steps from a stored entity to its parents. -/
abbrev ParentPath (s : EntityStore) : EntityUid → EntityUid → Prop := Path s.parentsOf s.uids

theorem mem_uids_iff {u : EntityUid} : u ∈ s.uids ↔ ∃ e ∈ s.entities, e.uid = u := List.mem_map

theorem mem_of_get? {u : EntityUid} {e : Entity} (h : s.get? u = some e) :
    e ∈ s.entities ∧ e.uid = u := by
  unfold get? at h
  have huid := List.find?_some h
  exact ⟨List.mem_of_find?_eq_some h, eq_of_beq huid⟩

/-- Since the uids are distinct, a look-up finds every entity that is stored. -/
theorem get?_eq_some_iff {u : EntityUid} {e : Entity} :
    s.get? u = some e ↔ e ∈ s.entities ∧ e.uid = u := by
  refine ⟨mem_of_get?, fun ⟨he, hu⟩ => ?_⟩
  cases h : s.get? u with
  | none => exact absurd (beq_iff_eq.mpr hu) (List.find?_eq_none.mp h e he)
  | some found =>
    obtain ⟨hmem, huid⟩ := mem_of_get? h
    rw [List.inj_on_of_nodup_map s.distinct hmem he (huid.trans hu.symm)]

theorem contains_iff {u : EntityUid} : s.contains u = true ↔ ∃ e, s.get? u = some e := by
  unfold contains
  rw [List.contains_iff_mem, mem_uids_iff]
  simp only [get?_eq_some_iff]

theorem expands_parentsOf_iff {u p : EntityUid} :
    Expands s.parentsOf s.uids u p ↔ ∃ e, s.get? u = some e ∧ p ∈ e.parents := by
  unfold Expands parentsOf
  rw [← List.contains_iff_mem]
  constructor
  · rintro ⟨hu, hp⟩
    obtain ⟨e, he⟩ := contains_iff.mp hu
    rw [he] at hp
    exact ⟨e, he, hp⟩
  · rintro ⟨e, he, hp⟩
    refine ⟨contains_iff.mpr ⟨e, he⟩, ?_⟩
    rw [he]
    exact hp

theorem mem_closure_iff {e : Entity} {b : EntityUid} :
    (s.closure e).contains b = true ↔ ∃ p ∈ e.parents, s.ParentPath p b := by
  unfold closure
  rw [SortedSet.contains_iff, SortedSet.mem_ofList, mem_reachable_iff]
  rfl

/-- **An entity is in another one exactly when a path of parents leads there.** -/
theorem isDescendant_iff {a b : EntityUid} : s.isDescendant a b = true ↔ s.ParentPath a b := by
  unfold isDescendant ancestors
  rw [Bool.or_eq_true, beq_iff_eq]
  refine Iff.trans (or_congr_right ?_) path_iff_eq_or_exists.symm
  simp only [expands_parentsOf_iff]
  cases ha : s.get? a with
  | none =>
    constructor
    · intro h
      cases h
    · rintro ⟨_, ⟨_, h, _⟩, _⟩
      cases h
  | some e =>
    simp only [mem_closure_iff, Option.some.injEq]
    constructor
    · rintro ⟨p, hp, hpath⟩
      exact ⟨p, ⟨e, rfl, hp⟩, hpath⟩
    · rintro ⟨p, ⟨_, rfl, hp⟩, hpath⟩
      exact ⟨p, hp, hpath⟩

theorem isDescendant_self {a : EntityUid} : s.isDescendant a a = true :=
  isDescendant_iff.mpr .refl

theorem isDescendant_of_parent {a p b : EntityUid} {e : Entity} (he : s.get? a = some e)
    (hp : e.parents.contains p = true) (h : s.isDescendant p b = true) :
    s.isDescendant a b = true := by
  have hedge := expands_parentsOf_iff.mpr ⟨e, he, SortedSet.contains_iff.mp hp⟩
  exact isDescendant_iff.mpr (.head hedge (isDescendant_iff.mp h))

end Arbiter.EntityStore
