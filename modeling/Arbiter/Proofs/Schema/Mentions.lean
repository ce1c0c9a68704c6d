/-
# What schemas mention

Which entity types a declared type mentions (`SchemaType.Mentions`), and which ones the document of a
type mentions in the namespace where it stands, through elements, attributes and the names of
common types (`TypeDocument.Mentions`).  From them it is said what declarations and their documents
mention.

* What a document mentions is mentioned by what it is resolved to (`mentions_of_resolve`,
  `mentions_of_entityDecl`, `mentions_of_actionDecl`).
* The check of the references passes exactly if all that is mentioned is declared
  (`checkReferences_eq_ok_iff`).
-/
import Arbiter.Proofs.Elementwise
import Arbiter.Schema.Json

namespace Arbiter

open Outcome

/-! ## 1. Types -/

/-- A type mentions an entity type: it is that of entities, or the type of its elements or of an
attribute mentions it. -/
inductive SchemaType.Mentions : SchemaType → EntityType → Prop
  | entity {t : EntityType} : Mentions (.entity t) t
  | set {elem : SchemaType} {t : EntityType} (h : Mentions elem t) : Mentions (.set elem) t
  | record {shape : RecordType} {a : String × Attr SchemaType} {t : EntityType}
      (ha : a ∈ shape.attrs) (h : Mentions a.2.type t) : Mentions (.record shape) t

namespace SchemaType

variable {t : EntityType}

theorem mentions_entity_iff {u : EntityType} : (entity u).Mentions t ↔ u = t := by
  constructor
  · rintro ⟨⟩
    rfl
  · rintro rfl
    exact .entity

theorem mentions_set_iff {elem : SchemaType} : (set elem).Mentions t ↔ elem.Mentions t := by
  constructor
  · rintro ⟨⟩
    assumption
  · exact .set

theorem mentions_record_iff {shape : RecordType} :
    (record shape).Mentions t ↔ ∃ a ∈ shape.attrs, a.2.type.Mentions t := by
  constructor
  · intro h
    cases h with
    | record ha h => exact ⟨_, ha, h⟩
  · rintro ⟨a, ha, h⟩
    exact .record ha h

end SchemaType

/-- A declaration mentions an entity type among those of the parents or in the shape. -/
inductive EntityDecl.Mentions (d : EntityDecl) : EntityType → Prop
  | parent {t : EntityType} (h : t ∈ d.memberOf) : Mentions d t
  | shape {t : EntityType} (h : (SchemaType.record d.shape).Mentions t) : Mentions d t

/-- A declaration mentions an entity type among those that the action applies to or in the
context. -/
inductive ActionDecl.Mentions (d : ActionDecl) : EntityType → Prop
  | principal {t : EntityType} (h : t ∈ d.principals) : Mentions d t
  | resource {t : EntityType} (h : t ∈ d.resources) : Mentions d t
  | context {t : EntityType} (h : (SchemaType.record d.context).Mentions t) : Mentions d t

/-! ## 2. References -/

namespace Schema

/-- The action is declared. -/
def Declares (s : Schema) (a : EntityUid) : Prop := ∃ d, s.action? a = some d

/-- The entity type is declared. -/
def DeclaresType (s : Schema) (t : EntityType) : Prop := ∃ d, s.entityType? t = some d

variable {s : Schema} {use : TypeUse}

theorem requireType_eq_ok_iff {t : EntityType} : s.requireType use t = .ok () ↔ s.DeclaresType t := by
  unfold requireType DeclaresType entityType?
  rw [← SortedMap.contains_iff]
  split <;> simp_all

theorem requireGroup_eq_ok_iff {action group : EntityUid} :
    s.requireGroup action group = .ok () ↔ s.Declares group := by
  unfold requireGroup Declares action?
  rw [← SortedMap.contains_iff]
  split <;> simp_all

mutual

/-- **The check of a type passes exactly if what it mentions is declared.** -/
theorem checkType_eq_ok_iff : ∀ {type : SchemaType},
    s.checkType use type = .ok () ↔ ∀ t, type.Mentions t → s.DeclaresType t
  | .bool | .long | .string | .extension _ => iff_of_true rfl fun _ h => nomatch h
  | .entity t => by
    simp only [SchemaType.mentions_entity_iff, forall_eq']
    exact requireType_eq_ok_iff
  | .set elem => by
    simp only [SchemaType.mentions_set_iff]
    have helem : s.checkType use (.set elem) = s.checkType use elem := rfl
    rw [helem]
    exact checkType_eq_ok_iff
  | .record ⟨attrs, isOpen⟩ => by
    simp only [SchemaType.mentions_record_iff, forall_exists_index, and_imp]
    refine checkAttrTypes_eq_ok_iff.trans ?_
    constructor
    · intro h t a ha ht
      exact h a ha t ht
    · intro h a ha t ht
      exact h t a ha ht

theorem checkAttrTypes_eq_ok_iff : ∀ {attrs : List (String × Attr SchemaType)},
    s.checkAttrTypes use attrs = .ok () ↔
      ∀ a ∈ attrs, ∀ t, a.2.type.Mentions t → s.DeclaresType t
  | [] => iff_of_true rfl (List.forall_mem_nil _)
  | (_, ⟨type, _⟩) :: rest => by
    rw [List.forall_mem_cons]
    exact check_bind_eq_ok_iff.trans (and_congr checkType_eq_ok_iff checkAttrTypes_eq_ok_iff)

end

theorem checkShape_eq_ok_iff {use : String → TypeUse} {shape : RecordType} :
    s.checkShape use shape = .ok () ↔
      ∀ t, (SchemaType.record shape).Mentions t → s.DeclaresType t := by
  simp only [SchemaType.mentions_record_iff, forall_exists_index, and_imp]
  refine forM_eq_ok_iff.trans ?_
  constructor
  · intro h t a ha ht
    exact checkType_eq_ok_iff.mp (h a ha) t ht
  · intro h a ha
    exact checkType_eq_ok_iff.mpr fun t ht => h t a ha ht

theorem checkEntityDecl_eq_ok_iff {t : EntityType} {d : EntityDecl} :
    s.checkEntityDecl t d = .ok () ↔ ∀ u, d.Mentions u → s.DeclaresType u := by
  unfold checkEntityDecl
  rw [check_bind_eq_ok_iff, forM_eq_ok_iff, checkShape_eq_ok_iff]
  simp only [requireType_eq_ok_iff]
  constructor
  · rintro ⟨hparents, hshape⟩ u hu
    cases hu with
    | parent h => exact hparents u h
    | shape h => exact hshape u h
  · intro h
    exact ⟨fun p hp => h p (.parent hp), fun u hu => h u (.shape hu)⟩

theorem checkActionDecl_eq_ok_iff {a : EntityUid} {d : ActionDecl} :
    s.checkActionDecl a d = .ok () ↔
      (∀ g ∈ d.memberOf, s.Declares g) ∧ ∀ u, d.Mentions u → s.DeclaresType u := by
  unfold checkActionDecl
  rw [check_bind_eq_ok_iff, check_bind_eq_ok_iff, forM_eq_ok_iff, forM_eq_ok_iff,
    checkShape_eq_ok_iff, List.forall_mem_append]
  simp only [requireType_eq_ok_iff, requireGroup_eq_ok_iff]
  refine and_congr_right fun _ => ?_
  constructor
  · rintro ⟨⟨hprincipals, hresources⟩, hcontext⟩ u hu
    cases hu with
    | principal h => exact hprincipals u h
    | resource h => exact hresources u h
    | context h => exact hcontext u h
  · intro h
    exact ⟨⟨fun t ht => h t (.principal ht), fun t ht => h t (.resource ht)⟩,
      fun u hu => h u (.context hu)⟩

/-- **The check of the references passes exactly if all that is mentioned is declared.** -/
theorem checkReferences_eq_ok_iff : s.checkReferences = .ok () ↔
    (∀ t d, s.entityType? t = some d → ∀ u, d.Mentions u → s.DeclaresType u) ∧
      ∀ a d, s.action? a = some d →
        (∀ g ∈ d.memberOf, s.Declares g) ∧ ∀ u, d.Mentions u → s.DeclaresType u := by
  unfold checkReferences
  rw [check_bind_eq_ok_iff, forM_eq_ok_iff, forM_eq_ok_iff]
  simp only [Prod.forall, SortedMap.mem_entries_iff, checkEntityDecl_eq_ok_iff,
    checkActionDecl_eq_ok_iff]
  rfl

end Schema

/-! ## 3. Documents -/

namespace TypeDocument

/-- The names of types that no common type can have. -/
def builtinTypes : List String :=
  ["Boolean", "Bool", "Long", "String", "Set", "Record", "Entity", "Extension"]

/-- The document of a type mentions an entity type: by its name, in the document of its elements or
of an attribute, or in that of the common type that it names.  Of two attributes of one name the
later one counts. -/
inductive Mentions (r : Scoping) : TypeDocument → EntityType → Prop
  | entity {d : TypeDocument} {name : String} (htype : d.type = "Entity")
      (hname : d.name = some name) : Mentions r d (.qualified r.space name)
  | element {d e : TypeDocument} {t : EntityType} (htype : d.type = "Set")
      (he : d.element = some e) (h : Mentions r e t) : Mentions r d t
  | attr {d a : TypeDocument} {name : String} {t : EntityType} (htype : d.type = "Record")
      (ha : SortedList.find? name (SortedList.ofPairs d.attributes) = some a)
      (h : Mentions r a t) : Mentions r d t
  | common {d c : TypeDocument} {t : EntityType} (htype : d.type ∉ builtinTypes)
      (hc : r.commonTypes.lookup d.type = some c) (h : Mentions r c t) : Mentions r d t

end TypeDocument

/-- The document of an entity type mentions an entity type among those of the parents or in the
shape. -/
inductive EntityTypeDocument.Mentions (r : Scoping) (d : EntityTypeDocument) : EntityType → Prop
  | parent {name : String} (h : name ∈ d.memberOfTypes) : Mentions r d (.qualified r.space name)
  | shape {shape : TypeDocument} {t : EntityType} (hshape : d.shape = some shape)
      (h : shape.Mentions r t) : Mentions r d t

/-- The document of an action mentions an entity type among those that the action applies to or in
the context. -/
inductive ActionDocument.Mentions (r : Scoping) (d : ActionDocument) : EntityType → Prop
  | principal {applies : AppliesToDocument} {name : String} (happlies : d.appliesTo = some applies)
      (h : name ∈ applies.principalTypes) : Mentions r d (.qualified r.space name)
  | resource {applies : AppliesToDocument} {name : String} (happlies : d.appliesTo = some applies)
      (h : name ∈ applies.resourceTypes) : Mentions r d (.qualified r.space name)
  | context {applies : AppliesToDocument} {context : TypeDocument} {t : EntityType}
      (happlies : d.appliesTo = some applies) (hcontext : applies.context = some context)
      (h : context.Mentions r t) : Mentions r d t

namespace Scoping

variable {r : Scoping} {d : TypeDocument} {levels : Nat}

/-- A name of an entity type that can be resolved means the type of that name in the namespace. -/
theorem entityType_eq_ok_iff {name : String} {t : EntityType} :
    r.entityType name = .ok t ↔ t = .qualified r.space name ∧ t.IsValid := by
  unfold entityType EntityType.parse? EntityType.IsValid
  split
  · rename_i t' h
    split at h
    · rename_i hvalid
      cases h
      constructor
      · rintro ⟨⟩
        exact ⟨rfl, hvalid⟩
      · rintro ⟨rfl, -⟩
        rfl
    · cases h
  · rename_i h
    split at h
    · cases h
    · rename_i hinvalid
      refine iff_of_false nofun ?_
      rintro ⟨rfl, hvalid⟩
      exact hinvalid hvalid

theorem resolve_entity_eq_ok {T : SchemaType} {name : String} (htype : d.type = "Entity")
    (hname : d.name = some name) (h : r.resolve levels d = .ok T) :
    ∃ t, r.entityType name = .ok t ∧ T = .entity t := by
  obtain ⟨type, element, attributes, additional, name', required⟩ := d
  cases htype
  cases hname
  cases levels with
  | zero => cases h
  | succ n =>
    obtain ⟨_, ⟨⟩, h⟩ := bind_eq_ok_iff.mp h
    obtain ⟨t, ht, h⟩ := bind_eq_ok_iff.mp h
    cases h
    exact ⟨t, ht, rfl⟩

theorem resolve_set_eq_ok {T : SchemaType} {e : TypeDocument} (htype : d.type = "Set")
    (he : d.element = some e) (h : r.resolve levels d = .ok T) :
    ∃ n elem, r.resolve n e = .ok elem ∧ T = .set elem := by
  obtain ⟨type, element, attributes, additional, name, required⟩ := d
  cases htype
  cases he
  cases levels with
  | zero => cases h
  | succ n =>
    obtain ⟨elem, helem, rfl⟩ := map_eq_ok_iff.mp h
    exact ⟨n, elem, helem, rfl⟩

/-- A record has for each attribute, and for nothing else, the type of its document. -/
theorem resolve_record_eq_ok {T : SchemaType} (htype : d.type = "Record")
    (h : r.resolve levels d = .ok T) :
    ∃ n shape, SortedList.Related (fun (a : TypeDocument) (x : Attr SchemaType) =>
      r.resolve n a = .ok x.type) (SortedList.ofPairs d.attributes) shape.attrs ∧
        T = .record shape := by
  obtain ⟨type, element, attributes, additional, name, required⟩ := d
  cases htype
  cases levels with
  | zero => cases h
  | succ n =>
    obtain ⟨attrs, hattrs, h⟩ := bind_eq_ok_iff.mp h
    cases h
    refine ⟨n, ⟨SortedList.ofPairs attrs, additional⟩, ?_, rfl⟩
    refine SortedList.related_ofPairs ((forall₂_of_mapM hattrs).imp ?_)
    rintro ⟨name, a⟩ x hx
    obtain ⟨type, htype, hx⟩ := bind_eq_ok_iff.mp hx
    cases hx
    exact ⟨rfl, htype⟩

theorem resolve_common_eq_ok {T : SchemaType} {c : TypeDocument}
    (htype : d.type ∉ TypeDocument.builtinTypes) (hc : r.commonTypes.lookup d.type = some c)
    (h : r.resolve levels d = .ok T) : ∃ n, r.resolve n c = .ok T := by
  cases levels with
  | zero => cases h
  | succ n =>
    refine ⟨n, ?_⟩
    rw [resolve] at h
    split at h
    iterate 8
      · rename_i heq
        rw [heq] at htype
        exact absurd (by decide) htype
    · rw [hc] at h
      exact h

/-- **What a document mentions is mentioned by its type.** -/
theorem mentions_of_resolve {t : EntityType} (h : d.Mentions r t) :
    ∀ {levels : Nat} {T : SchemaType}, r.resolve levels d = .ok T → T.Mentions t := by
  induction h with
  | entity htype hname =>
    intro levels T hT
    obtain ⟨u, hu, rfl⟩ := resolve_entity_eq_ok htype hname hT
    obtain ⟨rfl, -⟩ := entityType_eq_ok_iff.mp hu
    exact .entity
  | element htype he _ ih =>
    intro levels T hT
    obtain ⟨n, elem, helem, rfl⟩ := resolve_set_eq_ok htype he hT
    exact .set (ih helem)
  | @attr d a name t htype ha _ ih =>
    intro levels T hT
    obtain ⟨n, shape, hrelated, rfl⟩ := resolve_record_eq_ok htype hT
    obtain ⟨x, hx⟩ := (hrelated name).1 a ha
    exact .record (SortedList.mem_of_find? hx) (ih ((hrelated name).2 a x ha hx))
  | common htype hc _ ih =>
    intro levels T hT
    obtain ⟨n, hn⟩ := resolve_common_eq_ok htype hc hT
    exact ih hn

theorem mem_of_entityTypes {names : List String} {ts : SortedSet EntityType}
    (h : r.entityTypes names = .ok ts) : ∀ name ∈ names, .qualified r.space name ∈ ts := by
  obtain ⟨l, hl, h⟩ := bind_eq_ok_iff.mp h
  cases h
  intro name hname
  obtain ⟨t, ht, htype⟩ := exists_mem_of_mapM hl hname
  rw [SortedSet.mem_ofList, ← (entityType_eq_ok_iff.mp htype).1]
  exact ht

theorem mentions_of_shape {shape : RecordType} {t : EntityType} (h : r.shape (some d) = .ok shape)
    (ht : d.Mentions r t) : (SchemaType.record shape).Mentions t := by
  obtain ⟨T, hT, h⟩ := bind_eq_ok_iff.mp h
  have hmentions : T.Mentions t := mentions_of_resolve ht hT
  split at h
  · cases h
    exact hmentions
  · cases h

/-- What the document of an entity type mentions, its declaration mentions. -/
theorem mentions_of_entityDecl {e : EntityTypeDocument} {decl : EntityDecl} {t : EntityType}
    (h : r.entityDecl e = .ok decl) (ht : e.Mentions r t) : decl.Mentions t := by
  obtain ⟨memberOf, hmemberOf, h⟩ := bind_eq_ok_iff.mp h
  obtain ⟨shape, hshape, h⟩ := bind_eq_ok_iff.mp h
  cases h
  cases ht with
  | parent hname => exact .parent (mem_of_entityTypes hmemberOf _ hname)
  | shape hsome ht =>
    rw [hsome] at hshape
    exact .shape (mentions_of_shape hshape ht)

/-- What the document of an action mentions, its declaration mentions. -/
theorem mentions_of_actionDecl {id : String} {a : ActionDocument} {decl : ActionDecl}
    (h : r.actionDecl id a = .ok decl) :
    (∀ g ∈ a.memberOf, r.action g.id g.type ∈ decl.memberOf) ∧
      ∀ t, a.Mentions r t → decl.Mentions t := by
  have hgroup : ∀ g ∈ a.memberOf, r.action g.id g.type ∈
      (SortedSet.ofList (a.memberOf.map fun g => r.action g.id g.type)) := by
    intro g hg
    exact SortedSet.mem_ofList.mpr (List.mem_map_of_mem hg)
  unfold actionDecl at h
  cases happlies : a.appliesTo with
  | none =>
    rw [happlies] at h
    cases h
    refine ⟨hgroup, ?_⟩
    rintro t (⟨hsome, -⟩ | ⟨hsome, -⟩ | ⟨hsome, -, -⟩)
    all_goals
      rw [happlies] at hsome
      cases hsome
  | some applies =>
    rw [happlies] at h
    obtain ⟨principals, hprincipals, h⟩ := bind_eq_ok_iff.mp h
    obtain ⟨resources, hresources, h⟩ := bind_eq_ok_iff.mp h
    obtain ⟨context, hcontext, h⟩ := bind_eq_ok_iff.mp h
    cases h
    refine ⟨hgroup, ?_⟩
    intro t ht
    cases ht with
    | principal hsome hname =>
      rw [happlies] at hsome
      cases hsome
      exact .principal (mem_of_entityTypes hprincipals _ hname)
    | resource hsome hname =>
      rw [happlies] at hsome
      cases hsome
      exact .resource (mem_of_entityTypes hresources _ hname)
    | context hsome hsome' ht =>
      rw [happlies] at hsome
      cases hsome
      rw [hsome'] at hcontext
      exact .context (mentions_of_shape hcontext ht)

end Scoping

end Arbiter
