/-
# Stores that are built with a schema

What it means that data is as a schema declares it, without the order in which it is looked at
(`Value.Conforms`, `Entity.Conforms`), and that the check says just that (`conformValue_eq_ok_iff`,
`Schema.conformEntity_eq_ok_iff`).

A store is built with a schema exactly if the given entities have distinct uids and each is as
declared (`EntityStore.exists_withSchema_iff`).  It holds them and one entity for each declared
action that is not among them (`EntityStore.Holds`), and those conform as well: a group of a declared
action is a declared action, and so an action.
-/
import Arbiter.Proofs.Store.Described

namespace Arbiter

open Outcome

/-! ## 1. Values -/

/-- A value is as declared.  A record has its attributes at the declared types, all those that have
to be there, and others only where the shape is open. -/
inductive Value.Conforms : SchemaType → Value → Prop
  | bool {b : Bool} : Conforms .bool (.bool b)
  | long {n : Int64} : Conforms .long (.long n)
  | string {s : String} : Conforms .string (.string s)
  | set {elem : SchemaType} {values : List Value} (elems : ∀ v ∈ values, Conforms elem v) :
      Conforms (.set elem) (.set values)
  | record {shape : RecordType} {attrs : List (String × Value)}
      (typed : ∀ d ∈ shape.attrs, ∀ v, SortedList.find? d.1 attrs = some v → Conforms d.2.type v)
      (present : ∀ d ∈ shape.attrs, d.2.required = true →
        ∃ v, SortedList.find? d.1 attrs = some v)
      (declared : ∀ a ∈ attrs, shape.isOpen = true ∨ ∃ d ∈ shape.attrs, d.1 = a.1) :
      Conforms (.record shape) (.record attrs)
  | entity {uid : EntityUid} : Conforms (.entity uid.type) (.entity uid)
  | ext {x : ExtensionValue} : Conforms (.extension x.kind) (.ext x)

/-- What is asked of the value of a declared attribute, and of its presence. -/
structure Attr.Admits (attrs : List (String × Value)) (name : String) (d : Attr SchemaType) :
    Prop where
  typed : ∀ v, SortedList.find? name attrs = some v → v.Conforms d.type
  present : d.required = true → ∃ v, SortedList.find? name attrs = some v

namespace Attr

variable {attrs : List (String × Value)} {name : String} {d : Attr SchemaType}

theorem admits_iff_of_some {v : Value} (h : SortedList.find? name attrs = some v) :
    d.Admits attrs name ↔ v.Conforms d.type := by
  constructor
  · intro hd
    exact hd.typed v h
  · intro hv
    refine ⟨?_, fun _ => ⟨v, h⟩⟩
    intro v' hv'
    rw [h] at hv'
    cases hv'
    exact hv

theorem admits_iff_of_none (h : SortedList.find? name attrs = none) :
    d.Admits attrs name ↔ d.required = false := by
  constructor
  · intro hd
    rw [Bool.eq_false_iff]
    intro hrequired
    obtain ⟨v, hv⟩ := hd.present hrequired
    rw [h] at hv
    cases hv
  · intro hrequired
    constructor
    · intro v hv
      rw [h] at hv
      cases hv
    · intro hrequired'
      rw [hrequired] at hrequired'
      cases hrequired'

end Attr

namespace Value

variable {elem : SchemaType} {values : List Value} {shape : RecordType}
  {attrs : List (String × Value)}

theorem conforms_set_iff : (set values).Conforms (.set elem) ↔ ∀ v ∈ values, v.Conforms elem := by
  constructor
  · rintro ⟨⟩
    assumption
  · exact .set

theorem conforms_record_iff : (record attrs).Conforms (.record shape) ↔
    (∀ d ∈ shape.attrs, d.2.Admits attrs d.1) ∧
      ∀ a ∈ attrs, shape.isOpen = true ∨ ∃ d ∈ shape.attrs, d.1 = a.1 := by
  constructor
  · intro h
    cases h with
    | record typed present declared =>
      exact ⟨fun d hd => ⟨typed d hd, present d hd⟩, declared⟩
  · rintro ⟨hadmits, hdeclared⟩
    exact .record (fun d hd => (hadmits d hd).typed) (fun d hd => (hadmits d hd).present) hdeclared

end Value

theorem conformNames_eq_ok_iff {shape : RecordType} {path : String}
    {attrs : List (String × Value)} : conformNames shape path attrs = .ok () ↔
      ∀ a ∈ attrs, shape.isOpen = true ∨ ∃ d ∈ shape.attrs, d.1 = a.1 := by
  have hknown : ∀ name, (shape.get? name).isNone = false ↔ ∃ d ∈ shape.attrs, d.1 = name := by
    intro name
    rw [← Bool.not_eq_true, Option.isNone_iff_eq_none, Shape.get?, SortedList.find?_eq_none_iff]
    simp only [not_forall, not_not, exists_prop]
  unfold conformNames
  cases hopen : shape.isOpen with
  | true => exact iff_of_true rfl fun _ _ => Or.inl rfl
  | false =>
    have hall : (attrs.find? fun a => (shape.get? a.1).isNone) = none ↔
        ∀ a ∈ attrs, ∃ d ∈ shape.attrs, d.1 = a.1 := by
      simp only [List.find?_eq_none, Bool.not_eq_true, hknown]
    simp only [Bool.false_eq_true, if_false, false_or, ← hall]
    cases attrs.find? fun a => (shape.get? a.1).isNone with
    | none => exact iff_of_true rfl rfl
    | some a => exact iff_of_false nofun nofun

mutual

/-- **The check of a value says whether it is as declared.** -/
theorem conformValue_eq_ok_iff : ∀ {t : SchemaType} {v : Value} {path : String},
    conformValue path t v = .ok () ↔ v.Conforms t
  | .bool, v, path => by
    cases v with
    | bool _ => exact iff_of_true rfl .bool
    | _ => exact iff_of_false nofun nofun
  | .long, v, path => by
    cases v with
    | long _ => exact iff_of_true rfl .long
    | _ => exact iff_of_false nofun nofun
  | .string, v, path => by
    cases v with
    | string _ => exact iff_of_true rfl .string
    | _ => exact iff_of_false nofun nofun
  | .set elem, v, path => by
    cases v with
    | set values =>
      rw [Value.conforms_set_iff]
      refine forM_eq_ok_iff.trans (forall₂_congr fun v _ => ?_)
      exact conformValue_eq_ok_iff
    | _ => exact iff_of_false nofun nofun
  | .record ⟨declared, isOpen⟩, v, path => by
    cases v with
    | record attrs =>
      rw [Value.conforms_record_iff]
      refine check_bind_eq_ok_iff.trans (and_congr ?_ conformNames_eq_ok_iff)
      exact conformAttrs_eq_ok_iff
    | _ => exact iff_of_false nofun nofun
  | .entity t, v, path => by
    cases v with
    | entity uid =>
      simp only [conformValue]
      split
      · rename_i ht
        rw [← ht]
        exact iff_of_true rfl .entity
      · rename_i hne
        refine iff_of_false nofun ?_
        rintro ⟨⟩
        exact hne rfl
    | _ => exact iff_of_false nofun nofun
  | .extension kind, v, path => by
    cases v with
    | ext x =>
      simp only [conformValue]
      split
      · rename_i hkind
        rw [← hkind]
        exact iff_of_true rfl .ext
      · rename_i hne
        refine iff_of_false nofun ?_
        rintro ⟨⟩
        exact hne rfl
    | _ => exact iff_of_false nofun nofun

theorem conformAttrs_eq_ok_iff : ∀ {declared : List (String × Attr SchemaType)} {path : String}
    {attrs : List (String × Value)}, conformAttrs path attrs declared = .ok () ↔
      ∀ d ∈ declared, d.2.Admits attrs d.1
  | [], _, _ => iff_of_true rfl (List.forall_mem_nil _)
  | (name, ⟨type, required⟩) :: rest, path, attrs => by
    rw [List.forall_mem_cons, conformAttrs]
    cases hfind : SortedList.find? name attrs with
    | some v =>
      rw [Attr.admits_iff_of_some hfind]
      exact check_bind_eq_ok_iff.trans (and_congr conformValue_eq_ok_iff conformAttrs_eq_ok_iff)
    | none =>
      rw [Attr.admits_iff_of_none hfind]
      cases required with
      | true => exact iff_of_false nofun fun h => nomatch h.1
      | false => exact conformAttrs_eq_ok_iff.trans (and_iff_right rfl).symm

end

/-- The check of attributes says whether they are a record as declared. -/
theorem conformRecord_eq_ok_iff {shape : RecordType} {path : String}
    {attrs : List (String × Value)} :
    conformRecord shape path attrs = .ok () ↔ (Value.record attrs).Conforms (.record shape) :=
  conformValue_eq_ok_iff (t := .record shape) (v := .record attrs)

/-! ## 2. Entities -/

/-- An entity is as declared: an action is a declared action without attributes whose parents are
actions; any other entity is of a declared type, its attributes are as declared, and its parents
are of the types that its type names. -/
inductive Entity.Conforms (s : Schema) (e : Entity) : Prop
  | action {d : ActionDecl} (haction : e.uid.isAction = true) (hd : s.action? e.uid = some d)
      (attrs : e.attrs = .empty) (parents : ∀ p ∈ e.parents, p.isAction = true)
  | typed {d : EntityDecl} (hother : e.uid.isAction = false)
      (hd : s.entityType? e.uid.type = some d)
      (attrs : (Value.record e.attrs.entries).Conforms (.record d.shape))
      (parents : ∀ p ∈ e.parents, p.type ∈ d.memberOf)

/-- **The check of an entity says whether it is as declared.** -/
theorem Schema.conformEntity_eq_ok_iff {s : Schema} {e : Entity} :
    s.conformEntity e = .ok () ↔ e.Conforms s := by
  unfold conformEntity
  cases haction : e.uid.isAction with
  | true =>
    rw [if_pos rfl, conformAction_eq_ok_iff]
    constructor
    · rintro ⟨⟨d, hd⟩, hattrs, hparents⟩
      exact .action haction hd hattrs hparents
    · intro h
      cases h with
      | action _ hd hattrs hparents => exact ⟨⟨_, hd⟩, hattrs, hparents⟩
      | typed hother _ _ _ =>
        rw [haction] at hother
        cases hother
  | false =>
    rw [if_neg Bool.false_ne_true, conformTyped_eq_ok_iff]
    constructor
    · rintro ⟨d, hd, hrecord, hparents⟩
      exact .typed haction hd (conformRecord_eq_ok_iff.mp hrecord) hparents
    · intro h
      cases h with
      | action haction' _ _ _ =>
        rw [haction] at haction'
        cases haction'
      | typed _ hd hattrs hparents =>
        exact ⟨_, hd, conformRecord_eq_ok_iff.mpr hattrs, hparents⟩

/-- A declared action conforms as an entity, with its groups as parents. -/
theorem Schema.Closed.conforms_action {s : Schema} (hs : s.Closed) {u : EntityUid} {d : ActionDecl}
    (hd : s.action? u = some d) : Entity.Conforms s { uid := u, parents := d.memberOf } := by
  refine .action (hs.isAction hd) hd rfl ?_
  intro g hg
  obtain ⟨d', hd'⟩ := hs.group hd g hg
  exact hs.isAction hd'

/-! ## 3. Stores -/

namespace EntityStore

variable {s : EntityStore} {schema : Schema} {e : Entity} {es : List Entity}

/-- What a store takes up: conforming entities under uids that are new and distinct. -/
structure Takes (schema : Schema) (s : EntityStore) (es : List Entity) : Prop where
  distinct : (es.map Entity.uid).Nodup
  fresh : ∀ e ∈ es, e.uid ∉ s.uids
  conforms : ∀ e ∈ es, e.Conforms schema

theorem takes_nil (schema : Schema) (s : EntityStore) : Takes schema s [] where
  distinct := List.nodup_nil
  fresh := List.forall_mem_nil _
  conforms := List.forall_mem_nil _

theorem exists_insert_iff : (∃ s', s.insert e = .ok s') ↔ e.uid ∉ s.uids := by
  unfold insert
  split
  · rename_i hmem
    refine iff_of_false ?_ (not_not_intro hmem)
    rintro ⟨_, ⟨⟩⟩
  · rename_i hfresh
    exact iff_of_true ⟨_, rfl⟩ hfresh

theorem uids_insert {s' : EntityStore} (h : s.insert e = .ok s') : s'.uids = s.uids ++ [e.uid] := by
  rw [uids, (insert_eq_ok h).1, List.map_append]
  rfl

/-- The first entity is inserted, and the store with it takes the rest. -/
theorem takes_cons : Takes schema s (e :: es) ↔
    ∃ s', insertConforming schema s e = .ok s' ∧ Takes schema s' es := by
  have hstep : ∀ s', insertConforming schema s e = .ok s' ↔
      e.Conforms schema ∧ s.insert e = .ok s' := by
    intro s'
    rw [insertConforming, check_bind_eq_ok_iff, mapError_eq_ok_iff,
      Schema.conformEntity_eq_ok_iff]
  constructor
  · rintro ⟨hdistinct, hfresh, hconforms⟩
    obtain ⟨hnew, hdistinct⟩ := List.nodup_cons.mp hdistinct
    obtain ⟨he, hes⟩ := List.forall_mem_cons.mp hconforms
    obtain ⟨hfirst, hrest⟩ := List.forall_mem_cons.mp hfresh
    obtain ⟨s', hinsert⟩ := exists_insert_iff.mpr hfirst
    refine ⟨s', (hstep s').mpr ⟨he, hinsert⟩, hdistinct, ?_, hes⟩
    intro e' he' hmem
    rw [uids_insert hinsert, List.mem_append, List.mem_singleton] at hmem
    rcases hmem with hmem | heq
    · exact hrest e' he' hmem
    · exact hnew (heq ▸ List.mem_map_of_mem he')
  · rintro ⟨s', hs', hdistinct, hfresh, hconforms⟩
    obtain ⟨he, hinsert⟩ := (hstep s').mp hs'
    have huids := uids_insert hinsert
    constructor
    · refine List.nodup_cons.mpr ⟨?_, hdistinct⟩
      intro hmem
      obtain ⟨e', he', heq⟩ := List.mem_map.mp hmem
      refine hfresh e' he' ?_
      rw [huids, heq]
      exact List.mem_append_right _ (List.mem_singleton_self _)
    · refine List.forall_mem_cons.mpr ⟨exists_insert_iff.mp ⟨s', hinsert⟩, ?_⟩
      intro e' he' hmem
      refine hfresh e' he' ?_
      rw [huids]
      exact List.mem_append_left _ hmem
    · exact List.forall_mem_cons.mpr ⟨he, hconforms⟩

theorem exists_foldlM_insertConforming_iff :
    (∃ s', es.foldlM (insertConforming schema) s = .ok s') ↔ Takes schema s es :=
  exists_foldlM_iff (takes_nil schema) fun _ _ _ => takes_cons

/-- **A store is built exactly from conforming entities with distinct uids.** -/
theorem exists_withSchema_iff : (∃ store, withSchema schema es = .ok store) ↔
    (es.map Entity.uid).Nodup ∧ ∀ e ∈ es, e.Conforms schema := by
  have hread : (∃ store, withSchema schema es = .ok store) ↔
      ∃ s, es.foldlM (insertConforming schema) .empty = .ok s := by
    unfold withSchema
    constructor
    · rintro ⟨store, h⟩
      obtain ⟨s, hs, -⟩ := bind_eq_ok_iff.mp h
      exact ⟨s, hs⟩
    · rintro ⟨s, hs⟩
      rw [hs]
      exact ⟨_, rfl⟩
  rw [hread, exists_foldlM_insertConforming_iff]
  constructor
  · rintro ⟨hdistinct, -, hconforms⟩
    exact ⟨hdistinct, hconforms⟩
  · rintro ⟨hdistinct, hconforms⟩
    exact ⟨hdistinct, fun _ _ => List.not_mem_nil, hconforms⟩

/-- What a store that is built with a schema holds: the given entities and, behind them, each
declared action that is not among them, once and as it is declared.  All that it holds conforms,
and no declared action is missing. -/
structure Holds (schema : Schema) (es : List Entity) (store : EntityStore) : Prop where
  entities : ∃ added, store.entities = es ++ added ∧ (added.map Entity.uid).Nodup ∧
    ∀ e, e ∈ added ↔ e.uid ∉ es.map Entity.uid ∧
      ∃ d, schema.action? e.uid = some d ∧ e = { uid := e.uid, parents := d.memberOf }
  conforms : ∀ e ∈ store.entities, e.Conforms schema
  actions : ∀ u d, schema.action? u = some d → store.contains u = true

theorem holds_withSchema {store : EntityStore} (hs : schema.Closed)
    (h : withSchema schema es = .ok store) : store.Holds schema es where
  entities := by
    refine ⟨_, (entities_withSchema hs h).2.1, ?_, ?_⟩
    · exact (nodup_uids_actionEntities hs).sublist (List.filter_sublist.map Entity.uid)
    · intro e
      rw [List.mem_filter, mem_actionEntities_iff hs, decide_eq_true_iff, and_comm]
      refine and_congr_right fun _ => exists_congr fun d => and_congr_right fun hd => ?_
      rw [hs.uid_eq hd]
  conforms := by
    intro e he
    rw [(entities_withSchema hs h).2.1, List.mem_append, List.mem_filter,
      mem_actionEntities_iff hs] at he
    rcases he with he | ⟨⟨d, hd, heq⟩, -⟩
    · exact Schema.conformEntity_eq_ok_iff.mp ((entities_withSchema hs h).1 e he)
    · rw [hs.uid_eq hd] at heq
      rw [heq]
      exact hs.conforms_action hd
  actions := by
    intro u d hd
    rw [contains_iff]
    by_cases hu : u ∈ es.map Entity.uid
    · obtain ⟨e, he, rfl⟩ := List.mem_map.mp hu
      exact ⟨e, get?_given hs h he⟩
    · exact ⟨_, get?_declared hs h hd hu⟩

/-- **Stores that are built with a schema hold just conforming data.**  Whatever entities are given:
there is a store exactly if their uids are distinct and each conforms, and then it holds them and
the declared actions that are not among them, and nothing else. -/
theorem conforming_stores {j : Json} (hs : Schema.ofJson j = .ok schema) (es : List Entity) :
    ((∃ store, withSchema schema es = .ok store) ↔
      (es.map Entity.uid).Nodup ∧ ∀ e ∈ es, e.Conforms schema) ∧
    ∀ store, withSchema schema es = .ok store → store.Holds schema es := by
  constructor
  · exact exists_withSchema_iff
  · intro store h
    exact holds_withSchema (Schema.closed_of_ofJson hs) h

end EntityStore

/-! ## 4. A store with a given action -/

namespace Archive

def schemaDocument : Json :=
  .object [("Archive", .object [
    ("actions", .object [
      ("open", .object [("memberOf", .array [.object [("id", .string "read")]])]),
      ("read", .object [])]),
    ("entityTypes", .object [
      ("File", .object [
        ("memberOfTypes", .array [.string "Folder"]),
        ("shape", .object [
          ("attributes", .object [
            ("meta", .object [
              ("additionalAttributes", .bool true),
              ("attributes", .object [
                ("note", .object [("required", .bool false), ("type", .string "String")]),
                ("size", .object [("type", .string "Long")])]),
              ("type", .string "Record")]),
            ("tags", .object [
              ("element", .object [("type", .string "String")]),
              ("type", .string "Set")])]),
          ("type", .string "Record")])]),
      ("Folder", .object [])])])]

def file : EntityType := ⟨"Archive::File"⟩

def folder : EntityType := ⟨"Archive::Folder"⟩

def action (id : String) : EntityUid := ⟨⟨"Archive::Action"⟩, id⟩

def fileShape : RecordType :=
  ⟨[("meta", ⟨.record ⟨[("note", ⟨.string, false⟩), ("size", ⟨.long, true⟩)], true⟩, true⟩),
    ("tags", ⟨.set .string, true⟩)], false⟩

def schema : Schema where
  entityTypes := .ofList [
    (file, { memberOf := .singleton folder, shape := fileShape }), (folder, {})]
  actions := .ofList [
    (action "open", { uid := action "open", memberOf := .singleton (action "read") }),
    (action "read", { uid := action "read" })]

theorem schema_ofJson : Schema.ofJson schemaDocument = .ok schema := by rfl

/-- A file, whose inner record has an attribute of its own, and one of the two actions. -/
def entities : List Entity := [
  { uid := ⟨file, "plan"⟩
    attrs := .ofList [
      ("meta", .record [("owner", .string "ann"), ("size", .long 3)]),
      ("tags", .set [.string "draft"])]
    parents := .singleton ⟨folder, "root"⟩ },
  { uid := action "read" }]

/-- The store has the other action as well. -/
def store : EntityStore :=
  ⟨entities ++ [{ uid := action "open", parents := .singleton (action "read") }], true, by decide⟩

theorem store_withSchema : EntityStore.withSchema schema entities = .ok store := by rfl

theorem conforming_stores_archive : Schema.ofJson schemaDocument = .ok schema ∧
    EntityStore.withSchema schema entities = .ok store ∧
      (∀ e ∈ entities, e.Conforms schema) ∧ store.Holds schema entities := by
  obtain ⟨hbuilt, hholds⟩ := EntityStore.conforming_stores schema_ofJson entities
  obtain ⟨-, hconforms⟩ := hbuilt.mp ⟨store, store_withSchema⟩
  exact ⟨schema_ofJson, store_withSchema, hconforms, hholds store store_withSchema⟩

end Archive

end Arbiter
