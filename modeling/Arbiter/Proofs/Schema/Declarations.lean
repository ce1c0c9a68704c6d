/-
# Reading the declarations of a schema

The document of a schema is a list of declarations, each with the meaning of names where it stands
(`Declaration`), which are read one after the other.  Each gives a type or an action a name that is
new.  So what has been read is told by what was declared (`Reads`): every declaration is there
once, and nothing else is.

Names are compared after they have been qualified: `User` in the namespace `App` and `App::User` in
another one are one type, and the second of them is refused.
-/
import Arbiter.Proofs.Schema.Mentions

namespace Arbiter

open Outcome

/-! ## 1. Maps that grow -/

/-- A map with further pairs: they stand under distinct new keys, and everything else is as
before. -/
structure SortedMap.Gains {κ α : Type} [Ord κ] (m m' : SortedMap κ α) (l : List (κ × α)) : Prop where
  find?_iff : ∀ {k v}, m'.find? k = some v ↔ m.find? k = some v ∨ (k, v) ∈ l
  fresh : ∀ e ∈ l, m.find? e.1 = none
  once : (l.map Prod.fst).Nodup

namespace SortedMap.Gains

variable {κ α : Type} [Ord κ] {m m' m'' : SortedMap κ α} {l l' : List (κ × α)}

theorem exists_find?_iff (h : m.Gains m' l) {k : κ} :
    (∃ v, m'.find? k = some v) ↔ (∃ v, m.find? k = some v) ∨ k ∈ l.map Prod.fst := by
  simp only [h.find?_iff, exists_or]
  refine or_congr_right ?_
  simp only [List.mem_map, Prod.exists, exists_and_right, exists_eq_right]

theorem refl (m : SortedMap κ α) : m.Gains m [] where
  find?_iff := by simp
  fresh := List.forall_mem_nil _
  once := List.nodup_nil

theorem trans (h : m.Gains m' l) (h' : m'.Gains m'' l') : m.Gains m'' (l ++ l') where
  find?_iff := by
    intro k v
    rw [h'.find?_iff, h.find?_iff, List.mem_append, or_assoc]
  fresh := by
    intro e he
    rcases List.mem_append.mp he with he | he
    · exact h.fresh e he
    · cases hfind : m.find? e.1 with
      | none => rfl
      | some v =>
        have hfresh := h'.fresh e he
        rw [h.find?_iff.mpr (Or.inl hfind)] at hfresh
        cases hfresh
  once := by
    rw [List.map_append, List.nodup_append]
    refine ⟨h.once, h'.once, ?_⟩
    intro k hk k' hk' heq
    obtain ⟨e, he, rfl⟩ := List.mem_map.mp hk
    obtain ⟨e', he', rfl⟩ := List.mem_map.mp hk'
    have hfresh := h'.fresh e' he'
    rw [← heq, h.find?_iff.mpr (Or.inr he)] at hfresh
    cases hfresh

theorem insert [Std.TransOrd κ] [Std.LawfulEqOrd κ] {k : κ} {v : α} (hfresh : m.find? k = none) :
    m.Gains (m.insert k v) [(k, v)] where
  find?_iff := by
    intro j w
    rw [find?_insert_eq_some_iff hfresh, List.mem_singleton, Prod.mk.injEq, and_comm, @eq_comm _ k j]
  fresh := by
    intro e he
    rw [List.mem_singleton.mp he]
    exact hfresh
  once := List.pairwise_singleton _ k

end SortedMap.Gains

/-! ## 2. Declarations -/

/-- One declaration of a document, with the meaning of names where it stands. -/
inductive Declaration where
  | type (r : Scoping) (name : String) (doc : EntityTypeDocument)
  | action (r : Scoping) (id : String) (doc : ActionDocument)

namespace Declaration

/-- The entity type that is declared. -/
def typeName? : Declaration → Option EntityType
  | .type r name _ => some (.qualified r.space name)
  | .action _ _ _ => none

/-- The action that is declared. -/
def actionUid? : Declaration → Option EntityUid
  | .type _ _ _ => none
  | .action r id _ => some (r.action id none)

/-- The entity type with its declaration, if it can be read. -/
def type? : Declaration → Option (EntityType × EntityDecl)
  | .type r name doc => (r.entityDecl doc).toOption.map fun d => (.qualified r.space name, d)
  | .action _ _ _ => none

/-- The action with its declaration, if it can be read. -/
def action? : Declaration → Option (EntityUid × ActionDecl)
  | .type _ _ _ => none
  | .action r id doc => (r.actionDecl id doc).toOption.map fun d => (r.action id none, d)

/-- The declaration can be read, and the name of the type is valid. -/
def IsRead : Declaration → Prop
  | .type r name doc =>
    (EntityType.qualified r.space name).IsValid ∧ ∃ d, r.entityDecl doc = .ok d
  | .action r id doc => ∃ d, r.actionDecl id doc = .ok d

/-- The types that are read are those that are declared. -/
theorem map_fst_type? {l : List Declaration} (h : ∀ x ∈ l, x.IsRead) :
    (l.filterMap type?).map Prod.fst = l.filterMap typeName? := by
  rw [List.map_filterMap]
  refine List.filterMap_congr fun x hx => ?_
  cases x with
  | type r name doc =>
    obtain ⟨-, d, hd⟩ := h _ hx
    rw [type?, hd]
    rfl
  | action r id doc => rfl

/-- The actions that are read are those that are declared. -/
theorem map_fst_action? {l : List Declaration} (h : ∀ x ∈ l, x.IsRead) :
    (l.filterMap action?).map Prod.fst = l.filterMap actionUid? := by
  rw [List.map_filterMap]
  refine List.filterMap_congr fun x hx => ?_
  cases x with
  | type r name doc => rfl
  | action r id doc =>
    obtain ⟨d, hd⟩ := h _ hx
    rw [action?, hd]
    rfl

end Declaration

namespace NamespaceDocument

/-- What names mean in a namespace. -/
def scoping (space : String) (n : NamespaceDocument) : Scoping := ⟨space, n.commonTypes⟩

/-- The declarations of a namespace, first those of entity types. -/
def declarations (space : String) (n : NamespaceDocument) : List Declaration :=
  n.entityTypes.map (fun e => .type (n.scoping space) e.1 e.2)
    ++ n.actions.map fun a => .action (n.scoping space) a.1 a.2

end NamespaceDocument

/-- The declarations of a document. -/
def declarationsOf (namespaces : List (String × NamespaceDocument)) : List Declaration :=
  namespaces.flatMap fun n => n.2.declarations n.1

section

variable {namespaces : List (String × NamespaceDocument)} {n : String × NamespaceDocument}

theorem mem_declarationsOf_type (hn : n ∈ namespaces) {e : String × EntityTypeDocument}
    (he : e ∈ n.2.entityTypes) : .type (n.2.scoping n.1) e.1 e.2 ∈ declarationsOf namespaces :=
  List.mem_flatMap.mpr ⟨n, hn, List.mem_append_left _ (List.mem_map_of_mem he)⟩

theorem mem_declarationsOf_action (hn : n ∈ namespaces) {a : String × ActionDocument}
    (ha : a ∈ n.2.actions) : .action (n.2.scoping n.1) a.1 a.2 ∈ declarationsOf namespaces :=
  List.mem_flatMap.mpr ⟨n, hn, List.mem_append_right _ (List.mem_map_of_mem ha)⟩

end

/-! ## 3. Reading -/

/-- A declared action has the uid of its id in the namespace. -/
theorem Scoping.uid_actionDecl {r : Scoping} {id : String} {d : ActionDocument} {decl : ActionDecl}
    (h : r.actionDecl id d = .ok decl) : decl.uid = r.action id none := by
  unfold actionDecl at h
  split at h
  · cases h
    rfl
  · obtain ⟨principals, -, h⟩ := bind_eq_ok_iff.mp h
    obtain ⟨resources, -, h⟩ := bind_eq_ok_iff.mp h
    obtain ⟨context, -, h⟩ := bind_eq_ok_iff.mp h
    cases h
    rfl

namespace Schema

variable {s s' s'' : Schema} {x : Declaration} {l l' : List Declaration}

/-- The schema with one more declaration. -/
def declare (s : Schema) : Declaration → Except SchemaError Schema
  | .type r name doc => r.declareType s (name, doc)
  | .action r id doc => r.declareAction s (id, doc)

theorem declareNamespace_eq (s : Schema) (n : String × NamespaceDocument) :
    s.declareNamespace n = (n.2.declarations n.1).foldlM declare s := by
  rw [NamespaceDocument.declarations, List.foldlM_append, List.foldlM_map]
  simp only [List.foldlM_map]
  rfl

/-- A document is read declaration by declaration. -/
theorem foldlM_declareNamespace (namespaces : List (String × NamespaceDocument)) (s : Schema) :
    namespaces.foldlM declareNamespace s = (declarationsOf namespaces).foldlM declare s := by
  induction namespaces generalizing s with
  | nil => rfl
  | cons n namespaces ih =>
    rw [List.foldlM_cons, declareNamespace_eq, declarationsOf, List.flatMap_cons,
      List.foldlM_append]
    exact bind_congr ih

/-- What has been read is told by what was declared: each declaration can be read and is there
once, and everything else is as before. -/
structure Reads (s s' : Schema) (l : List Declaration) : Prop where
  types : s.entityTypes.Gains s'.entityTypes (l.filterMap Declaration.type?)
  actions : s.actions.Gains s'.actions (l.filterMap Declaration.action?)
  read : ∀ x ∈ l, x.IsRead

theorem Reads.refl (s : Schema) : s.Reads s [] where
  types := .refl _
  actions := .refl _
  read := List.forall_mem_nil _

theorem Reads.trans (h : s.Reads s' l) (h' : s'.Reads s'' l') : s.Reads s'' (l ++ l') where
  types := by
    rw [List.filterMap_append]
    exact h.types.trans h'.types
  actions := by
    rw [List.filterMap_append]
    exact h.actions.trans h'.actions
  read := List.forall_mem_append.mpr ⟨h.read, h'.read⟩

/-- A type is added under a new name. -/
theorem addEntityType_eq_ok_iff {t : EntityType} {d : EntityDecl} :
    s.addEntityType t d = .ok s' ↔
      s.entityTypes.find? t = none ∧ s' = { s with entityTypes := s.entityTypes.insert t d } := by
  unfold addEntityType
  rw [← SortedMap.contains_eq_false_iff]
  cases s.entityTypes.contains t with
  | true => simp
  | false => simp [eq_comm]

/-- An action is added under its uid, which is new. -/
theorem addAction_eq_ok_iff {d : ActionDecl} :
    s.addAction d = .ok s' ↔
      s.actions.find? d.uid = none ∧ s' = { s with actions := s.actions.insert d.uid d } := by
  unfold addAction
  rw [← SortedMap.contains_eq_false_iff]
  cases s.actions.contains d.uid with
  | true => simp
  | false => simp [eq_comm]

/-- One declaration is read under a new name. -/
theorem reads_declare (h : s.declare x = .ok s') : s.Reads s' [x] := by
  cases x with
  | type r name doc =>
    obtain ⟨t, ht, h⟩ := bind_eq_ok_iff.mp h
    obtain ⟨d, hd, h⟩ := bind_eq_ok_iff.mp h
    obtain ⟨rfl, hvalid⟩ := Scoping.entityType_eq_ok_iff.mp ht
    obtain ⟨hfresh, rfl⟩ := addEntityType_eq_ok_iff.mp h
    constructor
    · simp only [List.filterMap_cons, Declaration.type?, hd]
      exact .insert hfresh
    · exact .refl _
    · rw [List.forall_mem_singleton]
      exact ⟨hvalid, d, hd⟩
  | action r id doc =>
    obtain ⟨d, hd, h⟩ := bind_eq_ok_iff.mp h
    obtain ⟨hfresh, rfl⟩ := addAction_eq_ok_iff.mp h
    constructor
    · exact .refl _
    · simp only [List.filterMap_cons, Declaration.action?, hd]
      rw [Scoping.uid_actionDecl hd] at hfresh ⊢
      exact .insert hfresh
    · rw [List.forall_mem_singleton]
      exact ⟨d, hd⟩

/-- **Declarations are read one by one.** -/
theorem reads_foldlM_declare : ∀ {l : List Declaration} {s s' : Schema},
    l.foldlM declare s = .ok s' → s.Reads s' l
  | [], s, _, h => by
    cases h
    exact .refl s
  | x :: l, s, s', h => by
    rw [List.foldlM_cons, bind_eq_ok_iff] at h
    obtain ⟨s₁, hx, hl⟩ := h
    exact (reads_declare hx).trans (reads_foldlM_declare hl)

/-- **An accepted document** is one whose declarations are read and whose references pass the
check. -/
theorem ofJson_eq_ok_iff {j : Json} : ofJson j = .ok s ↔
    ∃ namespaces, Json.mapOf? NamespaceDocument.ofJson? j = some namespaces ∧
      (declarationsOf namespaces).foldlM declare empty = .ok s ∧ s.checkReferences = .ok () := by
  unfold ofJson
  split
  · rename_i hform
    simp [hform]
  · rename_i namespaces hform
    rw [foldlM_declareNamespace, bind_eq_ok_iff]
    simp only [hform, Option.some.injEq, exists_eq_left']
    constructor
    · rintro ⟨s', hread, h⟩
      obtain ⟨_, hcheck, h⟩ := bind_eq_ok_iff.mp h
      cases h
      exact ⟨hread, hcheck⟩
    · rintro ⟨hread, hcheck⟩
      exact ⟨s, hread, bind_eq_ok_iff.mpr ⟨(), hcheck, rfl⟩⟩

end Schema

end Arbiter
