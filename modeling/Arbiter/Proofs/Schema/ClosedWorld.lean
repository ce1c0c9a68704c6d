/-
# Accepted schemas are closed worlds

An accepted document declares each entity type and each action once, and all that it mentions is
declared (`ClosedWorld`).  This is said twice, of the document and of the schema that it is read
as: the document has names, which mean something in the namespace where they stand, and the schema
has types, in which the names of common types are gone.

The two are tied by `Reads`: what the declarations of the document are read as is what the schema
has.  The check of the references is of the schema, and what a document mentions is mentioned by
what it is read as.
-/
import Arbiter.Proofs.Schema.Hierarchy

namespace Arbiter

/-! ## 1. What documents declare and mention -/

namespace NamespaceDocument

/-- The entity types that a namespace declares. -/
def typesIn (space : String) (n : NamespaceDocument) : List EntityType :=
  n.entityTypes.map fun e => .qualified space e.1

/-- The actions that a namespace declares. -/
def actionsIn (space : String) (n : NamespaceDocument) : List EntityUid :=
  n.actions.map fun a => (n.scoping space).action a.1 none

/-- A namespace mentions an entity type in one of its declarations. -/
inductive Mentions (space : String) (n : NamespaceDocument) : EntityType → Prop
  | entityType {e : String × EntityTypeDocument} {t : EntityType} (he : e ∈ n.entityTypes)
      (h : e.2.Mentions (n.scoping space) t) : Mentions space n t
  | action {a : String × ActionDocument} {t : EntityType} (ha : a ∈ n.actions)
      (h : a.2.Mentions (n.scoping space) t) : Mentions space n t

/-- A namespace mentions an action as a group of one of its actions. -/
def MentionsGroup (space : String) (n : NamespaceDocument) (u : EntityUid) : Prop :=
  ∃ a ∈ n.actions, ∃ g ∈ a.2.memberOf, (n.scoping space).action g.id g.type = u

variable {space : String} {n : NamespaceDocument}

theorem filterMap_typeName?_declarations :
    (n.declarations space).filterMap Declaration.typeName? = n.typesIn space := by
  simp [declarations, typesIn, scoping, List.filterMap_map, Function.comp_def,
    Declaration.typeName?]

theorem filterMap_actionUid?_declarations :
    (n.declarations space).filterMap Declaration.actionUid? = n.actionsIn space := by
  simp [declarations, actionsIn, List.filterMap_map, Function.comp_def, Declaration.actionUid?]

end NamespaceDocument

/-- The entity types that a document declares, those of each namespace. -/
def typesOf (namespaces : List (String × NamespaceDocument)) : List EntityType :=
  namespaces.flatMap fun n => n.2.typesIn n.1

/-- The actions that a document declares, those of each namespace. -/
def actionsOf (namespaces : List (String × NamespaceDocument)) : List EntityUid :=
  namespaces.flatMap fun n => n.2.actionsIn n.1

variable {namespaces : List (String × NamespaceDocument)}

theorem filterMap_typeName?_declarationsOf :
    (declarationsOf namespaces).filterMap Declaration.typeName? = typesOf namespaces := by
  rw [declarationsOf, List.filterMap_flatMap]
  simp only [NamespaceDocument.filterMap_typeName?_declarations]
  rfl

theorem filterMap_actionUid?_declarationsOf :
    (declarationsOf namespaces).filterMap Declaration.actionUid? = actionsOf namespaces := by
  rw [declarationsOf, List.filterMap_flatMap]
  simp only [NamespaceDocument.filterMap_actionUid?_declarations]
  rfl

/-! ## 2. What is read -/

namespace Schema

variable {s : Schema} {l : List Declaration}

namespace Reads

theorem declaresType_iff (h : empty.Reads s l) {t : EntityType} :
    s.DeclaresType t ↔ t ∈ l.filterMap Declaration.typeName? := by
  rw [← Declaration.map_fst_type? h.read]
  exact h.types.exists_find?_iff.trans (or_iff_right fun ⟨_, hd⟩ => nomatch hd)

theorem declares_iff (h : empty.Reads s l) {u : EntityUid} :
    s.Declares u ↔ u ∈ l.filterMap Declaration.actionUid? := by
  rw [← Declaration.map_fst_action? h.read]
  exact h.actions.exists_find?_iff.trans (or_iff_right fun ⟨_, hd⟩ => nomatch hd)

/-- The name of a type that was read is valid. -/
theorem isValid (h : empty.Reads s l) {t : EntityType} (ht : s.DeclaresType t) : t.IsValid := by
  obtain ⟨x, hx, htype⟩ := List.mem_filterMap.mp (h.declaresType_iff.mp ht)
  cases x with
  | type r name doc =>
    cases htype
    exact (h.read _ hx).1
  | action r id doc => cases htype

/-- A type that was read has what it was read as. -/
theorem entityType? (h : empty.Reads s l) {r : Scoping} {name : String}
    {doc : EntityTypeDocument} (hx : .type r name doc ∈ l) :
    ∃ d, r.entityDecl doc = .ok d ∧ s.entityType? (.qualified r.space name) = some d := by
  obtain ⟨-, d, hd⟩ := h.read _ hx
  refine ⟨d, hd, h.types.find?_iff.mpr (Or.inr (List.mem_filterMap.mpr ⟨_, hx, ?_⟩))⟩
  rw [Declaration.type?, hd]
  rfl

/-- An action that was read has what it was read as. -/
theorem action? (h : empty.Reads s l) {r : Scoping} {id : String} {doc : ActionDocument}
    (hx : .action r id doc ∈ l) :
    ∃ d, r.actionDecl id doc = .ok d ∧ s.action? (r.action id none) = some d := by
  obtain ⟨d, hd⟩ := h.read _ hx
  refine ⟨d, hd, h.actions.find?_iff.mpr (Or.inr (List.mem_filterMap.mpr ⟨_, hx, ?_⟩))⟩
  rw [Declaration.action?, hd]
  rfl

end Reads

/-! ## 3. Closed worlds -/

/-- **A closed world**: what the namespaces declare is declared, each type and action once and under
a valid name, and all that the namespaces mention, or the declarations, is declared; so what can be
reached from something that is declared is declared as well. -/
structure ClosedWorld (s : Schema) (namespaces : List (String × NamespaceDocument)) : Prop where
  declaresType_iff : ∀ {t}, s.DeclaresType t ↔ t ∈ typesOf namespaces
  declares_iff : ∀ {u}, s.Declares u ↔ u ∈ actionsOf namespaces
  typesOnce : (typesOf namespaces).Nodup
  actionsOnce : (actionsOf namespaces).Nodup
  isValid : ∀ {t}, s.DeclaresType t → t.IsValid
  documents : ∀ n ∈ namespaces,
    (∀ t, n.2.Mentions n.1 t → s.DeclaresType t) ∧ ∀ g, n.2.MentionsGroup n.1 g → s.Declares g
  types : ∀ {t d}, s.entityType? t = some d → ∀ u, d.Mentions u → s.DeclaresType u
  actions : ∀ {a d}, s.action? a = some d →
    (∀ g ∈ d.memberOf, s.Declares g) ∧ ∀ u, d.Mentions u → s.DeclaresType u
  ancestors : ∀ {t p}, s.DeclaresType t → s.TypePath t p → s.DeclaresType p
  groups : ∀ {a g}, s.Declares a → s.ActionPath a g → s.Declares g

/-- What the namespaces mention, the check of the references has found declared. -/
theorem declared_of_mentions (h : empty.Reads s (declarationsOf namespaces))
    (hcheck : s.checkReferences = .ok ()) {n : String × NamespaceDocument} (hn : n ∈ namespaces) :
    (∀ t, n.2.Mentions n.1 t → s.DeclaresType t) ∧
      ∀ g, n.2.MentionsGroup n.1 g → s.Declares g := by
  obtain ⟨htypes, hactions⟩ := checkReferences_eq_ok_iff.mp hcheck
  constructor
  · rintro t (⟨he, ht⟩ | ⟨ha, ht⟩)
    · obtain ⟨d, hd, htype⟩ := h.entityType? (mem_declarationsOf_type hn he)
      exact htypes _ d htype t (Scoping.mentions_of_entityDecl hd ht)
    · obtain ⟨d, hd, haction⟩ := h.action? (mem_declarationsOf_action hn ha)
      exact (hactions _ d haction).2 t ((Scoping.mentions_of_actionDecl hd).2 t ht)
  · rintro _ ⟨a, ha, g, hg, rfl⟩
    obtain ⟨d, hd, haction⟩ := h.action? (mem_declarationsOf_action hn ha)
    exact (hactions _ d haction).1 _ ((Scoping.mentions_of_actionDecl hd).1 g hg)

/-- **The schema of an accepted document is a closed world.** -/
theorem closedWorld_of_ofJson {j : Json} (h : ofJson j = .ok s) :
    ∃ namespaces, Json.mapOf? NamespaceDocument.ofJson? j = some namespaces ∧
      s.ClosedWorld namespaces := by
  obtain ⟨namespaces, hform, hread, hcheck⟩ := ofJson_eq_ok_iff.mp h
  have hreads : empty.Reads s (declarationsOf namespaces) := reads_foldlM_declare hread
  obtain ⟨htypes, hactions⟩ := checkReferences_eq_ok_iff.mp hcheck
  refine ⟨namespaces, hform, ?_⟩
  constructor
  case declaresType_iff =>
    intro t
    rw [hreads.declaresType_iff, filterMap_typeName?_declarationsOf]
  case declares_iff =>
    intro u
    rw [hreads.declares_iff, filterMap_actionUid?_declarationsOf]
  case typesOnce =>
    rw [← filterMap_typeName?_declarationsOf, ← Declaration.map_fst_type? hreads.read]
    exact hreads.types.once
  case actionsOnce =>
    rw [← filterMap_actionUid?_declarationsOf, ← Declaration.map_fst_action? hreads.read]
    exact hreads.actions.once
  case isValid => exact hreads.isValid
  case documents => exact fun n hn => declared_of_mentions hreads hcheck hn
  case types => exact htypes _ _
  case actions => exact hactions _ _
  case ancestors =>
    intro t p ht hpath
    refine Path.invariant ?_ ht hpath
    intro a b _ hstep
    obtain ⟨d, hd, hb⟩ := expands_parentTypes_iff.mp hstep
    exact htypes a d hd b (.parent hb)
  case groups =>
    intro u g hu hpath
    refine Path.invariant ?_ hu hpath
    intro a b _ hstep
    obtain ⟨d, hd, hb⟩ := expands_groupsOf_iff.mp hstep
    exact (hactions a d hd).1 b hb

end Schema

/-! ## 4. A directory

The pages of one namespace are opened by the persons of another one.  A common type mentions the
persons inside of a set of records, and the action for opening a page is in a group of the other
namespace. -/

namespace Directory

def document : Json :=
  .object [
    ("Docs", .object [
      ("actions", .object [
        ("open", .object [
          ("appliesTo", .object [
            ("context", .object [
              ("attributes", .object [("signers", .object [("type", .string "Signers")])]),
              ("type", .string "Record")]),
            ("principalTypes", .array [.string "Staff::Person"]),
            ("resourceTypes", .array [.string "Page"])]),
          ("memberOf", .array [
            .object [("id", .string "use"), ("type", .string "Staff::Action")]])])]),
      ("commonTypes", .object [
        ("Signers", .object [
          ("element", .object [
            ("attributes", .object [
              ("by", .object [("name", .string "Staff::Person"), ("type", .string "Entity")])]),
            ("type", .string "Record")]),
          ("type", .string "Set")])]),
      ("entityTypes", .object [
        ("Page", .object [("memberOfTypes", .array [.string "Page"])])])]),
    ("Staff", .object [
      ("actions", .object [("use", .object [])]),
      ("entityTypes", .object [("Person", .object [])])])]

def page : EntityType := ⟨"Docs::Page"⟩

def person : EntityType := ⟨"Staff::Person"⟩

def openPage : EntityUid := ⟨⟨"Docs::Action"⟩, "open"⟩

def use : EntityUid := ⟨⟨"Staff::Action"⟩, "use"⟩

def context : RecordType :=
  ⟨[("signers", ⟨.set (.record ⟨[("by", ⟨.entity person, true⟩)], false⟩), true⟩)], false⟩

def schema : Schema where
  entityTypes := .ofList [(page, { memberOf := .singleton page }), (person, {})]
  actions := .ofList [
    (openPage, {
      uid := openPage
      memberOf := .singleton use
      principals := .singleton person
      resources := .singleton page
      context }),
    (use, { uid := use })]

theorem schema_ofJson : Schema.ofJson document = .ok schema := by rfl

theorem closedWorld_directory : Schema.ofJson document = .ok schema ∧
    ∃ namespaces, Json.mapOf? NamespaceDocument.ofJson? document = some namespaces ∧
      schema.ClosedWorld namespaces ∧ typesOf namespaces = [page, person] ∧
        actionsOf namespaces = [openPage, use] := by
  obtain ⟨namespaces, hform, hclosed⟩ := Schema.closedWorld_of_ofJson schema_ofJson
  refine ⟨schema_ofJson, namespaces, hform, hclosed, ?_⟩
  cases hform
  exact ⟨rfl, rfl⟩

end Directory

end Arbiter
