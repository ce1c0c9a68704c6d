/-
# Stores that hold the same entities

The uids of a store are distinct, so what is stored under a uid does not depend on where it stands,
and neither do the paths of parents.  Stores that hold the same entities
(`EntityStore.SameEntities`) therefore answer every question about an entity alike: what it is
(`SameEntities.get?_eq`), which ancestors it has (`SameEntities.ancestors_eq`) and whether it is in
another one (`SameEntities.isDescendant_eq`).

Entities make a store exactly if they do so in any other order (`exists_build_iff_of_perm`), and the
two stores hold the same entities (`sameEntities_of_perm`).
-/
import Arbiter.Proofs.Store.Ancestors
import Arbiter.Proofs.Store.Conforming

namespace Arbiter

open Outcome

namespace EntityStore

variable {s s' : EntityStore} {schema : Option Schema} {es es' : List Entity}

/-- The stores hold the same entities, in whatever order. -/
def SameEntities (s s' : EntityStore) : Prop := ∀ e, e ∈ s.entities ↔ e ∈ s'.entities

/-! ## 1. What is asked of a store -/

namespace SameEntities

variable (h : s.SameEntities s')

include h

theorem get?_eq (u : EntityUid) : s.get? u = s'.get? u := by
  refine Option.ext fun e => ?_
  rw [get?_eq_some_iff, get?_eq_some_iff, h e]

theorem contains_eq (u : EntityUid) : s.contains u = s'.contains u := by
  rw [Bool.eq_iff_iff, contains_iff, contains_iff, h.get?_eq]

theorem mem_uids_iff (u : EntityUid) : u ∈ s.uids ↔ u ∈ s'.uids := by
  rw [← List.contains_iff_mem, ← List.contains_iff_mem]
  exact Bool.eq_iff_iff.mp (h.contains_eq u)

/-- The paths of parents are the same. -/
theorem parentPath_eq : s.ParentPath = s'.ParentPath := by
  unfold ParentPath Path
  congr 1
  funext a b
  rw [eq_iff_iff, expands_parentsOf_iff, expands_parentsOf_iff, h.get?_eq]

theorem isDescendant_eq (a b : EntityUid) : s.isDescendant a b = s'.isDescendant a b := by
  rw [Bool.eq_iff_iff, isDescendant_iff, isDescendant_iff, h.parentPath_eq]

theorem closure_eq (e : Entity) : s.closure e = s'.closure e := by
  refine SortedSet.eq_of_mem_iff fun x => ?_
  rw [← SortedSet.contains_iff, ← SortedSet.contains_iff, mem_closure_iff, mem_closure_iff,
    h.parentPath_eq]

theorem ancestors_eq (u : EntityUid) : s.ancestors u = s'.ancestors u := by
  unfold ancestors
  rw [h.get?_eq]
  simp only [h.closure_eq]

/-- An entity that is missing in one store is missing in the other. -/
theorem insertMissing (e : Entity) : (s.insertMissing e).SameEntities (s'.insertMissing e) := by
  intro x
  by_cases he : e.uid ∈ s.uids
  · rw [insertMissing_of_mem he, insertMissing_of_mem ((h.mem_uids_iff _).mp he)]
    exact h x
  · have he' : e.uid ∉ s'.uids := mt (h.mem_uids_iff _).mpr he
    rw [entities_insertMissing_of_notMem he, entities_insertMissing_of_notMem he',
      List.mem_append, List.mem_append, h x]

omit h in
theorem foldl_insertMissing : ∀ (l : List Entity) {s s' : EntityStore}, s.SameEntities s' →
    (l.foldl EntityStore.insertMissing s).SameEntities (l.foldl EntityStore.insertMissing s')
  | [], _, _, h => h
  | e :: l, _, _, h => foldl_insertMissing l (h.insertMissing e)

end SameEntities

/-! ## 2. Entities in another order -/

theorem ofEntities_eq_ok (h : ofEntities es = .ok s) :
    s.entities = es ∧ s.declaresActions = false := by
  have hrun : ∀ {es : List Entity} {s s' : EntityStore}, es.foldlM insert s = .ok s' →
      s'.entities = s.entities ++ es ∧ s'.declaresActions = s.declaresActions := by
    intro es
    induction es with
    | nil =>
      rintro s _ ⟨⟩
      exact ⟨(List.append_nil _).symm, rfl⟩
    | cons e es ih =>
      intro s s' h
      rw [List.foldlM_cons, bind_eq_ok_iff] at h
      obtain ⟨s₁, h₁, h⟩ := h
      obtain ⟨hentities, hactions⟩ := insert_eq_ok h₁
      obtain ⟨hentities', hactions'⟩ := ih h
      rw [hentities', hentities, List.append_assoc, List.singleton_append]
      exact ⟨rfl, hactions'.trans hactions⟩
  exact hrun h

theorem exists_ofEntities_iff : (∃ s, ofEntities es = .ok s) ↔ (es.map Entity.uid).Nodup := by
  constructor
  · rintro ⟨s, hs⟩
    obtain ⟨hentities, -⟩ := ofEntities_eq_ok hs
    exact hentities ▸ s.distinct
  · intro h
    obtain ⟨s, hs, -⟩ := exists_ofEntities h
    exact ⟨s, hs⟩

/-- **Whether entities make a store does not depend on their order.** -/
theorem exists_build_iff_of_perm (h : es.Perm es') :
    (∃ s, build schema es = .ok s) ↔ ∃ s', build schema es' = .ok s' := by
  have hdistinct : (es.map Entity.uid).Nodup ↔ (es'.map Entity.uid).Nodup :=
    (h.map Entity.uid).nodup_iff
  cases schema with
  | none => exact exists_ofEntities_iff.trans (hdistinct.trans exists_ofEntities_iff.symm)
  | some schema =>
    refine exists_withSchema_iff.trans (Iff.trans ?_ exists_withSchema_iff.symm)
    refine and_congr hdistinct (forall_congr' fun e => ?_)
    rw [h.mem_iff]

/-- **The stores of entities in two orders hold the same entities**, and the declared actions both or
neither. -/
theorem sameEntities_of_perm (h : es.Perm es') (hs : build schema es = .ok s)
    (hs' : build schema es' = .ok s') :
    s.SameEntities s' ∧ s.declaresActions = s'.declaresActions := by
  cases schema with
  | none =>
    obtain ⟨hentities, hactions⟩ := ofEntities_eq_ok hs
    obtain ⟨hentities', hactions'⟩ := ofEntities_eq_ok hs'
    refine ⟨fun e => ?_, hactions.trans hactions'.symm⟩
    rw [hentities, hentities', h.mem_iff]
  | some schema =>
    -- the given entities come first, and what is missing then is the same in both stores
    obtain ⟨given, hgiven, hs⟩ := bind_eq_ok_iff.mp hs
    obtain ⟨given', hgiven', hs'⟩ := bind_eq_ok_iff.mp hs'
    cases hs
    cases hs'
    obtain ⟨-, hentities⟩ := entities_foldlM_insertConforming hgiven
    obtain ⟨-, hentities'⟩ := entities_foldlM_insertConforming hgiven'
    have hsame : given.SameEntities given' := fun e => by
      rw [hentities, hentities', List.mem_append, List.mem_append, h.mem_iff]
    exact ⟨SameEntities.foldl_insertMissing schema.actionEntities hsame, rfl⟩

end EntityStore

end Arbiter
