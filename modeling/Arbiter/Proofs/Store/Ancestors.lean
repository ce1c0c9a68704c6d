/-
# Ancestors

The parents of the entities of a list are a graph on uids (`ParentIn`): an edge starts at an entity of
the list, and ends anywhere.  The graph may have cycles, and parents that are not in the list.  In a
store of the list,

* the ancestors of an entity are the ends of the paths of one or more edges from it
  (`EntityStore.mem_ancestors_iff`), so it is its own ancestor exactly when it lies on a cycle
  (`transGen_self_iff`), and has the ancestors of its ancestors;
* the loop that collects them ends (`EntityStore.exists_turns_ancestors`);
* remembered ancestors are the ancestors, whatever was asked before (`Ancestry.ancestors_after`).

`EntityStore.ancestors_ofEntities` puts these together for every list of entities with distinct uids.
-/
import Arbiter.Proofs.Outcome
import Arbiter.Proofs.Search
import Arbiter.Proofs.Store.Hierarchy
import Arbiter.Store.Ancestry
import Mathlib.Data.List.Cycle

namespace Arbiter

open Relation

/-! ## 1. The graph of parents -/

/-- An entity of the list has uid `a` and parent `b`. -/
def ParentIn (es : List Entity) (a b : EntityUid) : Prop := ∃ e ∈ es, e.uid = a ∧ b ∈ e.parents

/-- A path from a node back to it is a cycle on which it lies. -/
theorem transGen_self_iff {α : Type} {r : α → α → Prop} {a : α} :
    TransGen r a a ↔ ∃ c : Cycle α, c.Chain r ∧ a ∈ c := by
  constructor
  · intro h
    obtain ⟨b, hab, hba⟩ := TransGen.tail'_iff.mp h
    obtain ⟨l, hchain, hlast⟩ := List.exists_isChain_cons_of_relationReflTransGen hab
    refine ⟨(a :: l : List α), ?_, Cycle.mem_coe_iff.mpr List.mem_cons_self⟩
    rw [Cycle.chain_coe_cons, ← List.cons_append, List.isChain_append]
    refine ⟨hchain, List.isChain_singleton a, fun x hx y hy => ?_⟩
    rw [List.getLast?_eq_some_getLast (List.cons_ne_nil a l), hlast] at hx
    cases hx
    cases hy
    exact hba
  · rintro ⟨c, hchain, ha⟩
    have hpaths : c.Chain (TransGen r) := hchain.imp fun _ _ => TransGen.single
    exact Cycle.chain_iff_pairwise.mp hpaths a ha a ha

namespace EntityStore

variable {s s' : EntityStore} {es : List Entity} {a b c u x : EntityUid}
  {as bs : SortedSet EntityUid}

theorem expands_eq_parentIn : Expands s.parentsOf s.uids = ParentIn s.entities := by
  funext a b
  refine propext (expands_parentsOf_iff.trans ?_)
  simp only [get?_eq_some_iff, ParentIn, and_assoc]

theorem parentsOf_of_notMem (h : u ∉ s.uids) : s.parentsOf u = [] := by
  refine List.eq_nil_iff_forall_not_mem.mpr fun p hp => h ?_
  unfold parentsOf at hp
  cases he : s.get? u with
  | none =>
    rw [he] at hp
    cases hp
  | some e => exact mem_uids_iff.mpr ⟨e, mem_of_get? he⟩

/-! ## 2. Ancestors -/

theorem exists_ancestors_iff : (∃ as, s.ancestors u = .ok as) ↔ u ∈ s.uids := by
  rw [← List.contains_iff_mem, ← contains, contains_iff, ancestors]
  cases s.get? u with
  | none => exact iff_of_false nofun nofun
  | some e => exact iff_of_true ⟨_, rfl⟩ ⟨_, rfl⟩

/-- **The ancestors of an entity are the ends of the paths of one or more parents.** -/
theorem mem_ancestors_iff (h : s.ancestors u = .ok as) :
    x ∈ as ↔ TransGen (ParentIn s.entities) u x := by
  unfold ancestors at h
  cases he : s.get? u with
  | none =>
    rw [he] at h
    cases h
  | some e =>
    rw [he] at h
    cases h
    rw [← SortedSet.contains_iff, mem_closure_iff, ← expands_eq_parentIn, TransGen.head'_iff]
    simp only [expands_parentsOf_iff, he, Option.some.injEq, exists_eq_left']

theorem isDescendant_trans (hab : s.isDescendant a b = true) (hbc : s.isDescendant b c = true) :
    s.isDescendant a c = true :=
  isDescendant_iff.mpr ((isDescendant_iff.mp hab).trans (isDescendant_iff.mp hbc))

/-- An entity that is not stored is in no other one. -/
theorem eq_of_isDescendant (ha : a ∉ s.uids) (h : s.isDescendant a b = true) : a = b := by
  rcases path_iff_eq_or_exists.mp (isDescendant_iff.mp h) with h | ⟨_, hedge, -⟩
  · exact h
  · exact absurd hedge.1 ha

/-- **The loop that collects the ancestors of an entity ends**, after no more turns than the entity
has parents and all entities have together. -/
theorem exists_turns_ancestors (h : s.ancestors u = .ok as) :
    ∃ n ≤ (s.parentsOf u).length + (s.uids.flatMap s.parentsOf).length, ∃ seen,
      (Search.turn s.parentsOf Search.keepUnseen)^[n] ⟨s.parentsOf u, []⟩ = ⟨[], seen⟩ ∧
        ∀ x, x ∈ seen ↔ x ∈ as := by
  have hclosure : as = .ofList (reachable s.parentsOf s.uids (s.parentsOf u)) := by
    unfold ancestors at h
    unfold parentsOf
    cases he : s.get? u with
    | none =>
      rw [he] at h
      cases h
    | some e =>
      rw [he] at h
      cases h
      rfl
  have hkeep : ∀ seen (x : EntityUid), x ∉ seen → Search.keepUnseen seen x = true :=
    fun _ _ hx => decide_eq_true hx
  obtain ⟨n, hn, seen, hended, hseen⟩ :=
    Search.exists_turns hkeep (fun _ => parentsOf_of_notMem) (s.parentsOf u)
  refine ⟨n, hn, seen, hended, fun x => ?_⟩
  rw [hclosure, SortedSet.mem_ofList]
  exact hseen x

/-! ## 3. Stores of lists -/

/-- Entities with further distinct uids are all added behind those that are there. -/
theorem exists_foldlM_insert : ∀ {es : List Entity} {s : EntityStore},
    (s.uids ++ es.map Entity.uid).Nodup →
      ∃ s', es.foldlM insert s = .ok s' ∧ s'.entities = s.entities ++ es
  | [], s, _ => ⟨s, rfl, (List.append_nil _).symm⟩
  | e :: es, s, h => by
    have hnew : e.uid ∉ s.uids := fun he =>
      (List.nodup_append.mp h).2.2 _ he _ List.mem_cons_self rfl
    obtain ⟨s₁, hs₁⟩ : ∃ s₁, s.insert e = .ok s₁ := ⟨_, dif_neg hnew⟩
    have hentities : s₁.entities = s.entities ++ [e] := by
      unfold insert at hs₁
      rw [dif_neg hnew] at hs₁
      cases hs₁
      rfl
    have huids : s₁.uids ++ es.map Entity.uid = s.uids ++ (e :: es).map Entity.uid := by
      rw [uids, hentities, List.map_append, List.append_assoc]
      rfl
    have hdistinct : (s₁.uids ++ es.map Entity.uid).Nodup := huids ▸ h
    obtain ⟨s', hs', hrest⟩ := exists_foldlM_insert hdistinct
    refine ⟨s', ?_, ?_⟩
    · rw [List.foldlM_cons, hs₁]
      exact hs'
    · rw [hrest, hentities, List.append_assoc, List.singleton_append]

theorem exists_ofEntities (h : (es.map Entity.uid).Nodup) :
    ∃ s, ofEntities es = .ok s ∧ s.entities = es :=
  exists_foldlM_insert (s := .empty) h

end EntityStore

/-! ## 4. Remembered ancestors -/

namespace Ancestry

variable {a : Ancestry} {s : EntityStore}

/-- What is remembered of a store are ancestors of its entities. -/
structure Recalls (a : Ancestry) (s : EntityStore) : Prop where
  store : a.store = s
  known : ∀ {uid as}, a.known.find? uid = some as → s.ancestors uid = .ok as

theorem recalls_ofStore (s : EntityStore) : (ofStore s).Recalls s where
  store := rfl
  known h := nomatch h

/-- A question about ancestors is answered as the store answers it, and what is then remembered is
right. -/
theorem Recalls.ancestors (h : a.Recalls s) (uid : EntityUid) :
    (a.ancestors uid).1 = s.ancestors uid ∧ (a.ancestors uid).2.Recalls s := by
  unfold Ancestry.ancestors
  cases hknown : a.known.find? uid with
  | some as => exact ⟨(h.known hknown).symm, h⟩
  | none =>
    rw [h.store]
    cases has : s.ancestors uid with
    | error e => exact ⟨rfl, h⟩
    | ok as =>
      refine ⟨rfl, rfl, fun hfind => ?_⟩
      rcases SortedMap.of_find?_insert hfind with ⟨rfl, rfl⟩ | hfind
      · exact has
      · exact h.known hfind

theorem Recalls.isDescendant (h : a.Recalls s) (x y : EntityUid) :
    (a.isDescendant x y).1 = s.isDescendant x y ∧ (a.isDescendant x y).2.Recalls s := by
  obtain ⟨hanswer, hrecalls⟩ := h.ancestors x
  unfold Ancestry.isDescendant EntityStore.isDescendant
  by_cases hxy : x = y
  · rw [if_pos hxy, beq_iff_eq.mpr hxy]
    exact ⟨rfl, h⟩
  · rw [if_neg hxy, beq_eq_false_iff_ne.mpr hxy, Bool.false_or, ← hanswer]
    rcases hask : a.ancestors x with ⟨_ | _, a'⟩
    · rw [hask] at hrecalls
      exact ⟨rfl, hrecalls⟩
    · rw [hask] at hrecalls
      exact ⟨rfl, hrecalls⟩

theorem Recalls.ask (h : a.Recalls s) (q : Query) : (a.ask q).Recalls s := by
  cases q with
  | ancestors uid => exact (h.ancestors uid).2
  | isDescendant x y => exact (h.isDescendant x y).2

theorem Recalls.after (h : a.Recalls s) (queries : List Query) : (a.after queries).Recalls s := by
  induction queries generalizing a with
  | nil => exact h
  | cons q queries ih => exact ih (h.ask q)

/-- **Whatever was asked before, the answers are those of the store.** -/
theorem ancestors_after (s : EntityStore) (queries : List Query) (x y : EntityUid) :
    (((ofStore s).after queries).ancestors x).1 = s.ancestors x ∧
      (((ofStore s).after queries).isDescendant x y).1 = s.isDescendant x y := by
  have h := (recalls_ofStore s).after queries
  exact ⟨(h.ancestors x).1, (h.isDescendant x y).1⟩

end Ancestry

/-! ## 5. The hierarchy of a list of entities -/

namespace EntityStore

/-- **In the store of a list of entities, ancestry is the transitive closure of the parents**,
whatever the graph of the parents is: each stored entity has ancestors, which the search collects in
finitely many turns, an entity that is not stored is in no other one, and what has been asked
before does not change an answer. -/
theorem ancestors_ofEntities {es : List Entity} (hes : (es.map Entity.uid).Nodup) :
    ∃ s, ofEntities es = .ok s ∧ s.entities = es ∧
      (∀ u ∈ es.map Entity.uid, ∃ as, s.ancestors u = .ok as ∧
        (∀ x, x ∈ as ↔ TransGen (ParentIn es) u x) ∧
        (u ∈ as ↔ ∃ c : Cycle EntityUid, c.Chain (ParentIn es) ∧ u ∈ c) ∧
        (∀ a ∈ as, a ∈ es.map Entity.uid →
          ∃ bs, s.ancestors a = .ok bs ∧ ∀ b ∈ bs, b ∈ as) ∧
        ∃ n ≤ (s.parentsOf u).length + (s.uids.flatMap s.parentsOf).length, ∃ seen,
          (Search.turn s.parentsOf Search.keepUnseen)^[n] ⟨s.parentsOf u, []⟩ = ⟨[], seen⟩ ∧
            ∀ x, x ∈ seen ↔ x ∈ as) ∧
      (∀ a, s.isDescendant a a = true) ∧
      (∀ a b c, s.isDescendant a b = true → s.isDescendant b c = true →
        s.isDescendant a c = true) ∧
      (∀ a, a ∉ es.map Entity.uid → s.ancestors a = .error ⟨a⟩ ∧
        ∀ b, s.isDescendant a b = true → b = a) ∧
      ∀ (queries : List Ancestry.Query) (x y : EntityUid),
        (((Ancestry.ofStore s).after queries).ancestors x).1 = s.ancestors x ∧
          (((Ancestry.ofStore s).after queries).isDescendant x y).1 = s.isDescendant x y := by
  obtain ⟨s, hs, rfl⟩ := exists_ofEntities hes
  refine ⟨s, hs, rfl, fun u hu => ?_, fun a => isDescendant_self, fun a b c => isDescendant_trans,
    fun a ha => ⟨?_, fun b hab => (eq_of_isDescendant ha hab).symm⟩, Ancestry.ancestors_after s⟩
  · obtain ⟨as, has⟩ := exists_ancestors_iff.mpr hu
    refine ⟨as, has, fun x => mem_ancestors_iff has, ?_, fun a ha hstored => ?_,
      exists_turns_ancestors has⟩
    · rw [mem_ancestors_iff has]
      exact transGen_self_iff
    · obtain ⟨bs, hbs⟩ := exists_ancestors_iff.mpr hstored
      refine ⟨bs, hbs, fun b hb => ?_⟩
      rw [mem_ancestors_iff has] at ha ⊢
      exact ha.trans ((mem_ancestors_iff hbs).mp hb)
  · cases h : s.ancestors a with
    | ok as => exact absurd (exists_ancestors_iff.mp ⟨as, h⟩) ha
    | error e =>
      unfold ancestors at h
      split at h
      · cases h
      · cases h
        rfl

end EntityStore

/-! Two groups are in each other, a person is in a group by two ways, and one group is not stored. -/

namespace Clubs

def group (id : String) : EntityUid := ⟨⟨"Group"⟩, id⟩

def ann : EntityUid := ⟨⟨"User"⟩, "ann"⟩

def entities : List Entity := [
  { uid := ann, parents := .ofList [group "blue", group "red"] },
  { uid := group "blue", parents := .ofList [group "club", group "guild"] },
  { uid := group "club", parents := .singleton (group "red") },
  { uid := group "red", parents := .singleton (group "club") }]

theorem parentIn_red_club : ParentIn entities (group "red") (group "club") :=
  ⟨⟨group "red", .empty, .singleton (group "club")⟩, by decide, rfl, List.mem_singleton_self _⟩

theorem parentIn_club_red : ParentIn entities (group "club") (group "red") :=
  ⟨⟨group "club", .empty, .singleton (group "red")⟩, by decide, rfl, List.mem_singleton_self _⟩

theorem parentIn_ann_blue : ParentIn entities ann (group "blue") :=
  ⟨_, List.mem_cons_self, rfl, SortedSet.mem_ofList.mpr (by decide)⟩

theorem parentIn_blue_guild : ParentIn entities (group "blue") (group "guild") :=
  ⟨_, List.mem_cons_of_mem _ List.mem_cons_self, rfl, SortedSet.mem_ofList.mpr (by decide)⟩

theorem not_parentIn_ann (u : EntityUid) : ¬ ParentIn entities u ann := by
  have hnone : ∀ e ∈ entities, ann ∉ e.parents.toList := by decide
  rintro ⟨e, he, -, hp⟩
  exact hnone e he hp

/-- The groups on the cycle are their own ancestors, the person is not her own, and a group that is
not stored is an ancestor. -/
theorem ancestors_clubs : (entities.map Entity.uid).Nodup ∧
    ∃ s, EntityStore.ofEntities entities = .ok s ∧
      (∃ as, s.ancestors (group "red") = .ok as ∧ group "red" ∈ as) ∧
      (∃ as, s.ancestors ann = .ok as ∧ ann ∉ as ∧ group "guild" ∈ as) ∧
      s.ancestors (group "guild") = .error ⟨group "guild"⟩ ∧
      (((Ancestry.ofStore s).after [.ancestors ann, .isDescendant (group "red") ann]).isDescendant
        ann ann).1 = true := by
  have hdistinct : (entities.map Entity.uid).Nodup := by decide
  obtain ⟨s, hs, -, hancestors, hself, -, hghost, hremembered⟩ :=
    EntityStore.ancestors_ofEntities hdistinct
  refine ⟨hdistinct, s, hs, ?_, ?_, ?_, ?_⟩
  · obtain ⟨as, has, hmem, -⟩ := hancestors (group "red") (by decide)
    exact ⟨as, has, (hmem _).mpr (.tail (.single parentIn_red_club) parentIn_club_red)⟩
  · obtain ⟨as, has, hmem, -⟩ := hancestors ann (by decide)
    refine ⟨as, has, fun hann => ?_,
      (hmem _).mpr (.tail (.single parentIn_ann_blue) parentIn_blue_guild)⟩
    obtain ⟨u, -, hu⟩ := TransGen.tail'_iff.mp ((hmem _).mp hann)
    exact not_parentIn_ann u hu
  · exact (hghost (group "guild") (by decide)).1
  · rw [(hremembered _ ann ann).2]
    exact hself ann

end Clubs

end Arbiter
