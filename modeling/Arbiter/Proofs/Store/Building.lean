/-
# Building a store

A store that is built with a schema holds the given entities, which are all as declared, and
behind them the declared actions that are not among them (`entities_withSchema`).  When none of
the given entities is an action, what is stored under the uid of an action is the action as it is
declared (`get?_action`), and what is stored under any other uid is one of the given entities, so
it conforms to its type (`conformTyped_of_get?`).
-/
import Arbiter.Proofs.Schema.Hierarchy
import Arbiter.Proofs.Store.Hierarchy

namespace Arbiter.EntityStore

open Outcome

variable {s s' store : EntityStore} {schema : Schema} {es : List Entity}

/-! ## 1. One entity -/

theorem insert_eq_ok {e : Entity} (h : s.insert e = .ok s') :
    s'.entities = s.entities ++ [e] ∧ s'.declaresActions = s.declaresActions := by
  unfold insert at h
  split at h
  · cases h
  · cases h
    exact ⟨rfl, rfl⟩

theorem insertConforming_eq_ok {e : Entity} (h : insertConforming schema s e = .ok s') :
    schema.conformEntity e = .ok () ∧ s'.entities = s.entities ++ [e] := by
  unfold insertConforming at h
  obtain ⟨_, hconform, h⟩ := bind_eq_ok_iff.mp h
  exact ⟨mapError_eq_ok_iff.mp hconform, (insert_eq_ok h).1⟩

theorem insertMissing_of_mem {e : Entity} (h : e.uid ∈ s.uids) : s.insertMissing e = s := by
  unfold insertMissing insert
  rw [dif_pos h]

theorem entities_insertMissing_of_notMem {e : Entity} (h : e.uid ∉ s.uids) :
    (s.insertMissing e).entities = s.entities ++ [e] := by
  unfold insertMissing insert
  rw [dif_neg h]

/-! ## 2. All entities -/

theorem entities_foldlM_insertConforming :
    ∀ {es : List Entity} {s s' : EntityStore}, es.foldlM (insertConforming schema) s = .ok s' →
      (∀ e ∈ es, schema.conformEntity e = .ok ()) ∧ s'.entities = s.entities ++ es
  | [], s, s', h => by
    cases h
    exact ⟨nofun, (List.append_nil _).symm⟩
  | e :: es, s, s', h => by
    rw [List.foldlM_cons, bind_eq_ok_iff] at h
    obtain ⟨s₁, h₁, h⟩ := h
    obtain ⟨hconform, hentities⟩ := insertConforming_eq_ok h₁
    obtain ⟨hrest, hentities'⟩ := entities_foldlM_insertConforming h
    rw [hentities', hentities, List.append_assoc, List.singleton_append]
    exact ⟨List.forall_mem_cons.mpr ⟨hconform, hrest⟩, rfl⟩

/-- Of entities with distinct uids, those are added of which the uid was not there before. -/
theorem entities_foldl_insertMissing :
    ∀ {l : List Entity} {s : EntityStore}, (l.map Entity.uid).Nodup →
      (l.foldl insertMissing s).entities = s.entities ++ l.filter fun e => e.uid ∉ s.uids
  | [], s, _ => by simp
  | e :: l, s, hnodup => by
    obtain ⟨hnew, hnodup⟩ := List.nodup_cons.mp hnodup
    rw [List.foldl_cons, entities_foldl_insertMissing hnodup]
    by_cases he : e.uid ∈ s.uids
    · rw [insertMissing_of_mem he, List.filter_cons_of_neg (by simpa using he)]
    · have hentities := entities_insertMissing_of_notMem he
      have huids : (s.insertMissing e).uids = s.uids ++ [e.uid] := by
        rw [uids, hentities, List.map_append]
        rfl
      have hsame : ∀ x ∈ l, x.uid ∉ (s.insertMissing e).uids ↔ x.uid ∉ s.uids := by
        intro x hx
        have hne : x.uid ≠ e.uid := fun h => hnew (h ▸ List.mem_map_of_mem hx)
        rw [huids, List.mem_append, List.mem_singleton, or_iff_left hne]
      rw [hentities, List.filter_cons_of_pos (by simpa using he), List.append_assoc,
        List.singleton_append]
      congr 2
      exact List.filter_congr fun x hx => by rw [decide_eq_decide]; exact hsame x hx

theorem nodup_uids_actionEntities (hs : schema.Closed) :
    (schema.actionEntities.map Entity.uid).Nodup := by
  have hkeys : schema.actionEntities.map Entity.uid = schema.actions.keys := by
    rw [Schema.actionEntities, List.map_map, ← Schema.map_uid_actionDecls hs.uid_eq]
    rfl
  rw [hkeys]
  exact SortedMap.nodup_keys _

/-- **A store that is built with a schema holds the given entities, which are all as declared, and
the declared actions that are not among them.** -/
theorem entities_withSchema (hs : schema.Closed) (h : withSchema schema es = .ok store) :
    (∀ e ∈ es, schema.conformEntity e = .ok ()) ∧
      store.entities = es ++ schema.actionEntities.filter (fun e => e.uid ∉ es.map Entity.uid) ∧
      store.declaresActions = true := by
  unfold withSchema at h
  obtain ⟨s, hread, h⟩ := bind_eq_ok_iff.mp h
  cases h
  obtain ⟨hconform, hentities⟩ := entities_foldlM_insertConforming hread
  have hes : s.entities = es := hentities
  refine ⟨hconform, ?_, rfl⟩
  rw [entities_foldl_insertMissing (nodup_uids_actionEntities hs), uids, hes]

/-! ## 3. Looking up what was given and what was declared -/

theorem mem_actionEntities_iff (hs : schema.Closed) {e : Entity} :
    e ∈ schema.actionEntities ↔
      ∃ d, schema.action? e.uid = some d ∧ e = { uid := d.uid, parents := d.memberOf } := by
  unfold Schema.actionEntities
  rw [List.mem_map]
  constructor
  · rintro ⟨d, hd, rfl⟩
    exact ⟨d, (Schema.mem_actionDecls_iff hs.uid_eq).mp hd, rfl⟩
  · rintro ⟨d, hd, rfl⟩
    exact ⟨d, (Schema.mem_actionDecls_iff hs.uid_eq).mpr hd, rfl⟩

/-- What is given is stored. -/
theorem get?_given (hs : schema.Closed) (h : withSchema schema es = .ok store) {e : Entity}
    (he : e ∈ es) : store.get? e.uid = some e := by
  rw [get?_eq_some_iff, (entities_withSchema hs h).2.1]
  exact ⟨List.mem_append_left _ he, rfl⟩

/-- A declared action that is not given is stored as it is declared. -/
theorem get?_declared (hs : schema.Closed) (h : withSchema schema es = .ok store) {u : EntityUid}
    {d : ActionDecl} (hd : schema.action? u = some d) (hu : u ∉ es.map Entity.uid) :
    store.get? u = some { uid := u, parents := d.memberOf } := by
  rw [get?_eq_some_iff, (entities_withSchema hs h).2.1, List.mem_append, List.mem_filter,
    mem_actionEntities_iff hs]
  refine ⟨Or.inr ⟨⟨d, hd, ?_⟩, by simpa using hu⟩, rfl⟩
  rw [hs.uid_eq hd]

/-- What is stored is one of the given entities or an action as it is declared. -/
theorem get?_withSchema (hs : schema.Closed) (h : withSchema schema es = .ok store)
    {u : EntityUid} {e : Entity} (he : store.get? u = some e) :
    e ∈ es ∨ ∃ d, schema.action? u = some d ∧ e = { uid := u, parents := d.memberOf } := by
  obtain ⟨hmem, rfl⟩ := mem_of_get? he
  rw [(entities_withSchema hs h).2.1, List.mem_append, List.mem_filter,
    mem_actionEntities_iff hs] at hmem
  rcases hmem with hmem | ⟨⟨d, hd, rfl⟩, -⟩
  · exact Or.inl hmem
  · exact Or.inr ⟨d, hd, rfl⟩

variable (hs : schema.Closed) (h : withSchema schema es = .ok store)
  (hes : ∀ e ∈ es, e.uid.isAction = false)

include hs h hes

/-- What is stored under the uid of an action is the action as it is declared. -/
theorem get?_action {u : EntityUid} {d : ActionDecl} (hd : schema.action? u = some d) :
    store.get? u = some { uid := u, parents := d.memberOf } := by
  refine get?_declared hs h hd fun hu => ?_
  obtain ⟨e, he, rfl⟩ := List.mem_map.mp hu
  have haction := hs.isAction hd
  rw [hes e he] at haction
  cases haction

omit hes in
/-- What is stored under another uid is one of the given entities, and so as it is declared. -/
theorem conformTyped_of_get? {u : EntityUid} {e : Entity} (hu : u.isAction = false)
    (he : store.get? u = some e) : schema.conformTyped e = .ok () := by
  obtain ⟨-, rfl⟩ := mem_of_get? he
  rcases get?_withSchema hs h he with hmem | ⟨d, hd, -⟩
  · have hconform := (entities_withSchema hs h).1 e hmem
    unfold Schema.conformEntity at hconform
    rw [if_neg (by rw [hu]; exact Bool.false_ne_true)] at hconform
    exact hconform
  · have haction := hs.isAction hd
    rw [hu] at haction
    cases haction

end Arbiter.EntityStore
