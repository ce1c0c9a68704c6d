/-
# Data as a schema describes it

A store that is built with a schema from entities without actions is described by the schema
(`Schema.Describes`): it holds the declared actions as they are declared, and all else that it
holds is as its type is declared.  Then the hierarchy of the store goes along with those of the
schema: a path of parents that starts from an entity of a declared type goes along with a path of
the types of parents (`Describes.typePath`), and one that starts from a declared action is a path
of groups (`Describes.actionPath`).
-/
import Arbiter.Proofs.Store.Building

namespace Arbiter

open Outcome

namespace Schema

variable {s : Schema} {store : EntityStore}

/-! ## 1. What conforms -/

/-- None of the elements is refused. -/
theorem find?_refused_eq_none_iff {α : Type} {admits : α → Bool} {l : List α} :
    (l.find? fun a => !admits a) = none ↔ ∀ a ∈ l, admits a = true := by
  simp only [List.find?_eq_none, Bool.not_eq_true', Bool.not_eq_false]

theorem conformTyped_eq_ok_iff {e : Entity} : s.conformTyped e = .ok () ↔
    ∃ d, s.entityType? e.uid.type = some d ∧
      conformRecord d.shape e.uid.render e.attrs.entries = .ok () ∧
        ∀ p ∈ e.parents, p.type ∈ d.memberOf := by
  unfold conformTyped
  cases hd : s.entityType? e.uid.type with
  | none =>
    refine iff_of_false (fun h => by cases h) ?_
    rintro ⟨_, ⟨⟩, -⟩
  | some d =>
    have hparents : (e.parents.toList.find? fun p => !d.memberOf.contains p.type) = none ↔
        ∀ p ∈ e.parents, p.type ∈ d.memberOf := by
      simp only [find?_refused_eq_none_iff, SortedSet.contains_iff, SortedSet.mem_def]
    simp only [Option.some.injEq, exists_eq_left', ← hparents, bind_eq_ok_iff, mapError_eq_ok_iff]
    constructor
    · rintro ⟨_, hrecord, h⟩
      refine ⟨hrecord, ?_⟩
      split at h
      · cases h
      · assumption
    · rintro ⟨hrecord, h⟩
      refine ⟨(), hrecord, ?_⟩
      rw [h]

theorem conformAction_eq_ok_iff {e : Entity} : s.conformAction e = .ok () ↔
    (∃ d, s.action? e.uid = some d) ∧ e.attrs = .empty ∧ ∀ p ∈ e.parents, p.isAction = true := by
  unfold conformAction
  cases hd : s.action? e.uid with
  | none => exact iff_of_false nofun fun ⟨⟨_, h⟩, _⟩ => nomatch h
  | some d =>
    cases hkeys : e.attrs.keys with
    | cons attr _ =>
      refine iff_of_false nofun ?_
      rintro ⟨-, hattrs, -⟩
      rw [hattrs] at hkeys
      cases hkeys
    | nil =>
      have hattrs : e.attrs = .empty := SortedMap.ext (List.map_eq_nil_iff.mp hkeys)
      have hparents : (e.parents.toList.find? fun p => !p.isAction) = none ↔
          ∀ p ∈ e.parents, p.isAction = true := find?_refused_eq_none_iff
      rw [← hparents]
      cases e.parents.toList.find? fun p => !p.isAction with
      | some parent => exact iff_of_false nofun fun h => nomatch h.2.2
      | none => exact iff_of_true rfl ⟨⟨d, rfl⟩, hattrs, rfl⟩

theorem validateRequest_eq_ok {r : Request} (h : s.validateRequest r = .ok ()) :
    ∃ d, s.action? r.action = some d ∧ r.principal.type ∈ d.principals ∧
      r.resource.type ∈ d.resources ∧
        conformRecord d.context "context" r.context.attrs.entries = .ok () := by
  unfold validateRequest at h
  split at h
  · cases h
  · rename_i d hd
    split at h
    · cases h
    · rename_i hp
      split at h
      · cases h
      · rename_i hr
        rw [Bool.not_eq_true, Bool.not_eq_false'] at hp hr
        exact ⟨d, hd, SortedSet.contains_iff.mp hp, SortedSet.contains_iff.mp hr,
          mapError_eq_ok_iff.mp h⟩

/-! ## 2. Stores that a schema describes -/

/-- The store holds the declared actions as they are declared, and what else it holds is as its
type is declared; no action is of a declared type. -/
structure Describes (s : Schema) (store : EntityStore) : Prop where
  closed : s.Closed
  noActionType : ∀ {t d}, s.entityType? t = some d → t.isAction = false
  action : ∀ {u d}, s.action? u = some d →
    store.get? u = some { uid := u, parents := d.memberOf }
  typed : ∀ {u e}, u.isAction = false → store.get? u = some e → s.conformTyped e = .ok ()

theorem describes_withSchema {j : Json} {es : List Entity} (hs : ofJson j = .ok s)
    (htypes : ∀ t, s.entityTypes.contains t = true → t.isAction = false)
    (hes : ∀ e ∈ es, e.uid.isAction = false) (h : EntityStore.withSchema s es = .ok store) :
    s.Describes store where
  closed := closed_of_ofJson hs
  noActionType := fun hd => htypes _ (SortedMap.contains_iff.mpr ⟨_, hd⟩)
  action := EntityStore.get?_action (closed_of_ofJson hs) h hes
  typed := EntityStore.conformTyped_of_get? (closed_of_ofJson hs) h

namespace Describes

variable (hd : s.Describes store)

include hd

/-- Parents of an entity of a declared type are of the declared types of its parents. -/
theorem typePath {u v : EntityUid} {d : EntityDecl} (hu : s.entityType? u.type = some d)
    (h : store.ParentPath u v) : s.TypePath u.type v.type := by
  refine (Path.simulate (I := fun x => ∃ d, s.entityType? x.type = some d) ?_ ⟨d, hu⟩ h).2
  rintro a b ⟨da, hda⟩ hedge
  obtain ⟨e, he, hb⟩ := EntityStore.expands_parentsOf_iff.mp hedge
  obtain ⟨-, rfl⟩ := EntityStore.mem_of_get? he
  obtain ⟨d', hd', -, hparents⟩ := conformTyped_eq_ok_iff.mp (hd.typed (hd.noActionType hda) he)
  have hmem : b.type ∈ d'.memberOf := hparents b hb
  exact ⟨hd.closed.parent hd' _ hmem, expands_parentTypes_iff.mpr ⟨d', hd', hmem⟩⟩

/-- Parents of a declared action are its declared groups. -/
theorem actionPath {u g : EntityUid} {d : ActionDecl} (hu : s.action? u = some d)
    (h : store.ParentPath u g) : s.ActionPath u g := by
  refine (Path.simulate (f := id) (I := fun x => ∃ d, s.action? x = some d) ?_ ⟨d, hu⟩ h).2
  rintro a b ⟨da, hda⟩ hedge
  obtain ⟨e, he, hb⟩ := EntityStore.expands_parentsOf_iff.mp hedge
  rw [hd.action hda] at he
  cases he
  exact ⟨hd.closed.group hda b hb, expands_groupsOf_iff.mpr ⟨da, hda, hb⟩⟩

end Describes

end Schema

end Arbiter
