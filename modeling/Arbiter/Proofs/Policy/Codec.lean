/-
# Templates are read back from their documents

A generic document has its fields in the order of their names, so what is read back is not the
document as it was written but its canonical form.  Constraints are read back as they are
(`ScopeConstraint.ofJson_toJson`, `ActionConstraint.ofJson_toJson`), conditions if their bodies have
documents (`Condition.ofJson_toJson`), and so are templates of such conditions
(`Template.ofJson_toJson`).  Every template that a document gives is of that sort
(`Template.documented_of_ofJson`).
-/
import Arbiter.Policy.Json
import Arbiter.Proofs.Expr.Codec

namespace Arbiter

open Outcome

/-! ## 1. References -/

/-- What may be left out is read back when everything that is there is read back. -/
theorem Json.optional?_map {α : Type} {read? : Json → Option α} {write : α → Json}
    (hread : ∀ a, read? (write a) = some a) (hnull : ∀ a, write a ≠ .null) (o : Option α) :
    optional? read? (o.map write) = some o := by
  cases o with
  | none => rfl
  | some a =>
    rw [Option.map_some, optional?, hread]
    · rfl
    · exact fun h => absurd h (hnull a)

theorem EntityUid.sorted_toJson (u : EntityUid) :
    u.toJson.sorted = .object [("id", .string u.id), ("type", .string u.type.name)] := by
  have hnames : compare "id" "type" = .lt := by decide
  simp [toJson, Json.sorted, Json.sortedFields, SortedList.ofPairs, SortedList.put, hnames]

/-- A uid is read back. -/
theorem EntityUid.ofJson?_toJson (u : EntityUid) : ofJson? u.toJson.sorted = some u := by
  rw [sorted_toJson]
  rfl

theorem EntityUid.optional?_toJson (o : Option EntityUid) :
    Json.optional? ofJson? (o.map fun u => u.toJson.sorted) = some o :=
  Json.optional?_map ofJson?_toJson (fun _ => nofun) o

/-- A slot is read back. -/
theorem Slot.ofJson?_name (s : Slot) : ofJson? (.string s.name) = some s := by
  cases s <;> rfl

theorem Slot.optional?_name (o : Option Slot) :
    Json.optional? ofJson? (o.map fun s => .string s.name) = some o :=
  Json.optional?_map ofJson?_name (fun _ => nofun) o

namespace RefDocument

theorem fields?_sorted (d : RefDocument) : (Json.object d.fields).sorted.fields? ["entity", "slot"]
    = some [d.entity.map fun u => u.toJson.sorted, d.slot.map fun s => .string s.name] := by
  obtain ⟨entity, slot⟩ := d
  refine (Json.fields?_sorted ?_ _).trans ?_
  · cases entity <;> cases slot <;> simp [fields, Json.optionalField]
  · cases entity <;> cases slot <;> rfl

/-- A reference is read back. -/
theorem ofJson?_fields (d : RefDocument) : ofJson? (Json.object d.fields).sorted = some d := by
  simp only [ofJson?, fields?_sorted, Option.bind_eq_bind, Option.bind_some,
    EntityUid.optional?_toJson, Slot.optional?_name]
  rfl

end RefDocument

/-! ## 2. Constraints -/

namespace ScopeDocument

theorem fields?_sorted (d : ScopeDocument) :
    d.toJson.sorted.fields? ["op", "entity", "slot", "entities", "entity_type", "in"]
      = some [some (.string d.op), d.ref.entity.map fun u => u.toJson.sorted,
        d.ref.slot.map fun s => .string s.name,
        d.entities.map fun us => (Json.array (us.map EntityUid.toJson)).sorted,
        d.entityType.map fun t => .string t.name,
        d.inRef.map fun r => (Json.object r.fields).sorted] := by
  obtain ⟨op, ⟨entity, slot⟩, entities, entityType, inRef⟩ := d
  refine (Json.fields?_sorted ?_ _).trans ?_
  · cases entity <;> cases slot <;> cases entities <;> cases entityType <;> cases inRef <;>
      simp [RefDocument.fields, Json.optionalField]
  · cases entity <;> cases slot <;> cases entities <;> cases entityType <;> cases inRef <;> rfl

/-- A constraint is read back in the form in which documents give it. -/
theorem ofJson?_toJson (d : ScopeDocument) : ofJson? d.toJson.sorted = some d := by
  have hentities (us : List EntityUid) :
      Json.listOf? EntityUid.ofJson? (Json.array (us.map EntityUid.toJson)).sorted = some us := by
    rw [Json.sorted, Json.sortedItems_eq_map, List.map_map]
    exact mapM_map_eq_pure fun u _ => u.ofJson?_toJson
  have htype (t : EntityType) : EntityType.ofJson? (.string t.name) = some t := rfl
  simp only [ofJson?, fields?_sorted, Option.bind_eq_bind, Option.bind_some,
    EntityUid.optional?_toJson, Slot.optional?_name,
    Json.optional?_map hentities (fun _ => nofun) d.entities,
    Json.optional?_map htype (fun _ => nofun) d.entityType,
    Json.optional?_map RefDocument.ofJson?_fields (fun _ => nofun) d.inRef]
  rfl

end ScopeDocument

namespace ScopeConstraint

theorem toScope_toDocument (c : ScopeConstraint) : c.toDocument.toScope = .ok c := by
  cases c with
  | any | isType t => rfl
  | eq r | isIn r | isTypeIn t r => cases r <;> rfl

/-- A constraint on principal or resource is read back. -/
theorem ofJson_toJson (c : ScopeConstraint) : ofJson c.toJson.sorted = .ok c := by
  rw [ofJson, toJson, ScopeDocument.ofJson?_toJson, wellFormed, ok_bind, toScope_toDocument]
  rfl

end ScopeConstraint

namespace ActionConstraint

theorem toAction_toDocument (c : ActionConstraint) : c.toDocument.toAction = .ok c := by
  cases c <;> rfl

/-- A constraint on the action is read back. -/
theorem ofJson_toJson (c : ActionConstraint) : ofJson c.toJson.sorted = .ok c := by
  rw [ofJson, toJson, ScopeDocument.ofJson?_toJson, wellFormed, ok_bind, toAction_toDocument]
  rfl

end ActionConstraint

/-! ## 3. Conditions -/

/-- Whether the body of a condition has a document. -/
def Condition.Documented (c : Condition) : Prop := c.body.Documented

namespace Condition

theorem sorted_toJson {c : Condition} (h : c.Documented) :
    c.toJson.sorted = .object [("body", c.body.toJson), ("kind", .string c.kind.name)] := by
  have hnames : compare "body" "kind" = .lt := by decide
  have hcanonical : c.body.Canonical := (Expr.documented_iff_canonical_and_plain.mp h).1
  simp [toJson, Json.sorted, Json.sortedFields, SortedList.ofPairs, SortedList.put, hnames,
    (Expr.isSorted_toJson hcanonical).sorted_eq]

/-- A condition is read back. -/
theorem ofJson_toJson {c : Condition} (h : c.Documented) : ofJson c.toJson.sorted = .ok c := by
  have hbody : bodyOfJson c.body.toJson = .ok c.body := by
    rw [bodyOfJson, Expr.ofJson_toJson h]
    rfl
  have hkind : kindOfJson? (.string c.kind.name) = some c.kind := ConditionKind.ofName?_name c.kind
  have hread : ofJson (.object [("body", c.body.toJson), ("kind", .string c.kind.name)]) = do
    let body ← (some c.body.toJson).mapM bodyOfJson
    let kind ← (some (Json.string c.kind.name)).mapM fun k => wellFormed (kindOfJson? k)
    return ⟨← wellFormed kind, ← wellFormed body⟩ := rfl
  rw [sorted_toJson h, hread]
  simp only [Option.mapM_some, hbody, hkind]
  rfl

/-- Conditions are read back. -/
theorem listOfJson_toJson {cs : List Condition} (h : ∀ c ∈ cs, c.Documented) :
    listOfJson (Json.array (cs.map toJson)).sorted = .ok cs := by
  rw [Json.sorted, Json.sortedItems_eq_map, List.map_map]
  exact mapM_map_eq_pure fun c hc => ofJson_toJson (h c hc)

theorem documented_of_bodyOfJson {j : Json} {e : Expr} (hj : j.IsSorted)
    (h : bodyOfJson j = .ok e) : e.Documented :=
  Expr.documented_of_ofJson hj (mapError_eq_ok_iff.mp (mapError_eq_ok_iff.mp h))

/-- The body of a condition that a document gives has a document. -/
theorem documented_of_ofJson {j : Json} {c : Condition} (hj : j.IsSorted) (h : ofJson j = .ok c) :
    c.Documented := by
  unfold ofJson at h
  split at h
  · -- an array of kind and body
    obtain ⟨kind, -, h⟩ := bind_eq_ok_iff.mp h
    obtain ⟨body, hbody, h⟩ := bind_eq_ok_iff.mp h
    cases h
    exact documented_of_bodyOfJson hj.2.1 hbody
  · obtain ⟨_, -, h⟩ := bind_eq_ok_iff.mp h
    obtain ⟨_, -, h⟩ := bind_eq_ok_iff.mp h
    cases h
  · -- an object
    rename_i fields
    obtain ⟨body, hbody, h⟩ := bind_eq_ok_iff.mp h
    obtain ⟨kind, -, h⟩ := bind_eq_ok_iff.mp h
    obtain ⟨kind, -, h⟩ := bind_eq_ok_iff.mp h
    obtain ⟨e, he, h⟩ := bind_eq_ok_iff.mp h
    cases h
    cases hlookup : fields.lookup "body" with
    | none =>
      rw [hlookup] at hbody
      cases hbody
      cases he
    | some j =>
      rw [hlookup, Option.mapM_some] at hbody
      obtain ⟨e', he', heq⟩ := map_eq_ok_iff.mp hbody
      cases heq
      cases he
      have hmem : ("body", j) ∈ fields := by
        obtain ⟨l₁, l₂, rfl, -⟩ := List.lookup_eq_some_iff.mp hlookup
        exact List.mem_append_right _ List.mem_cons_self
      exact documented_of_bodyOfJson (Json.isSortedFields_iff.mp hj.2 _ hmem) he'
  · cases h

theorem documented_of_listOfJson {j : Json} {cs : List Condition} (hj : j.IsSorted)
    (h : listOfJson j = .ok cs) : ∀ c ∈ cs, c.Documented := by
  obtain ⟨items, hitems, h⟩ := bind_eq_ok_iff.mp h
  cases j with
  | array items' =>
    cases hitems
    intro c hc
    obtain ⟨item, hitem, hread⟩ := exists_of_mem_mapM h c hc
    exact documented_of_ofJson (Json.isSortedItems_iff.mp hj item hitem) hread
  | _ => cases hitems

end Condition

/-! ## 4. Templates -/

namespace Template

/-- Whether the bodies of the conditions have documents. -/
def Documented (t : Template) : Prop := ∀ c ∈ t.conditions, c.Documented

/-- The document of annotations. -/
def annotationsJson (annotations : SortedMap String String) : Json :=
  .object (annotations.entries.map fun (k, v) => (k, .string v))

theorem sorted_annotationsJson (annotations : SortedMap String String) :
    (annotationsJson annotations).sorted = annotationsJson annotations := by
  refine Json.IsSorted.sorted_eq ⟨?_, Json.isSortedFields_iff.mpr ?_⟩
  · rw [SortedList.ascending_iff_keys, List.map_map]
    exact SortedList.ascending_iff_keys.mp annotations.ascending
  · exact List.forall_mem_map.mpr fun _ _ => trivial

/-- Annotations are read back. -/
theorem annotationsOfJson?_annotationsJson (annotations : SortedMap String String) :
    annotationsOfJson? (annotationsJson annotations) = some annotations := by
  have hread : Json.mapOf? Json.string? (annotationsJson annotations)
      = some annotations.entries := mapM_map_eq_pure fun _ _ => rfl
  rw [annotationsOfJson?, hread, Option.map_some, SortedMap.ofList_entries]

/-- The order of the names in the document of a template. -/
theorem names_lt :
    compare "principal" "effect" = Ordering.gt ∧ compare "action" "effect" = Ordering.lt ∧
      compare "resource" "action" = Ordering.gt ∧ compare "resource" "effect" = Ordering.gt ∧
        compare "resource" "principal" = Ordering.gt ∧ compare "conditions" "action" = Ordering.gt ∧
          compare "conditions" "effect" = Ordering.lt ∧
            compare "annotations" "action" = Ordering.gt ∧
              compare "annotations" "conditions" = Ordering.lt := by
  decide

theorem sorted_toJson (t : Template) : t.toJson.sorted
    = .object (("action", t.action.toJson.sorted)
      :: Json.optionalField "annotations"
        (if t.annotations.isEmpty then none else some (annotationsJson t.annotations))
      ++ [("conditions", (Json.array (t.conditions.map Condition.toJson)).sorted),
        ("effect", .string t.effect.name), ("principal", t.principal.toJson.sorted),
        ("resource", t.resource.toJson.sorted)]) := by
  obtain ⟨hpe, hae, hra, hre, hrp, hca, hce, hna, hnc⟩ := names_lt
  have hfields : t.jsonFields = [("effect", .string t.effect.name),
      ("principal", t.principal.toJson), ("action", t.action.toJson),
      ("resource", t.resource.toJson), ("conditions", .array (t.conditions.map Condition.toJson))]
      ++ Json.optionalField "annotations"
        (if t.annotations.isEmpty then none else some (annotationsJson t.annotations)) := rfl
  rw [toJson, hfields]
  cases t.annotations.isEmpty <;>
    simp [Json.optionalField, Json.sorted, Json.sortedFields, SortedList.ofPairs, SortedList.put,
      sorted_annotationsJson, hpe, hae, hra, hre, hrp, hca, hce, hna, hnc]

/-- **A template whose conditions have documents is read back, whichever id it is read under.** -/
theorem ofJson_toJson {t : Template} (h : t.Documented) (id : PolicyId) :
    ofJson id t.toJson.sorted = .ok (t.withId id) := by
  have haction (p : Parts) : p.read ("action", t.action.toJson.sorted)
      = .ok { p with action := t.action } := by
    simp only [Parts.read, ActionConstraint.ofJson_toJson]
    rfl
  have hprincipal (p : Parts) : p.read ("principal", t.principal.toJson.sorted)
      = .ok { p with principal := t.principal } := by
    simp only [Parts.read, ScopeConstraint.ofJson_toJson]
    rfl
  have hresource (p : Parts) : p.read ("resource", t.resource.toJson.sorted)
      = .ok { p with resource := t.resource } := by
    simp only [Parts.read, ScopeConstraint.ofJson_toJson]
    rfl
  have hconditions (p : Parts) :
      p.read ("conditions", (Json.array (t.conditions.map Condition.toJson)).sorted)
        = .ok { p with conditions := t.conditions } := by
    simp only [Parts.read, Condition.listOfJson_toJson h]
    rfl
  have heffect (p : Parts) : p.read ("effect", .string t.effect.name)
      = .ok { p with effect := some t.effect } := by
    have hname : effectOfJson? (.string t.effect.name) = some t.effect :=
      Effect.ofName?_name t.effect
    simp only [Parts.read, hname]
    rfl
  have hannotations (p : Parts) : p.read ("annotations", annotationsJson t.annotations)
      = .ok { p with annotations := t.annotations } := by
    simp only [Parts.read, annotationsOfJson?_annotationsJson]
    rfl
  have hrest (p : Parts) : [("conditions", (Json.array (t.conditions.map Condition.toJson)).sorted),
      ("effect", .string t.effect.name), ("principal", t.principal.toJson.sorted),
      ("resource", t.resource.toJson.sorted)].foldlM Parts.read p
        = .ok { p with
            effect := some t.effect, principal := t.principal, resource := t.resource
            conditions := t.conditions } := by
    simp only [List.foldlM_cons, List.foldlM_nil, hconditions, heffect, hprincipal, hresource,
      ok_bind]
    rfl
  rw [sorted_toJson, ofJson]
  cases hempty : t.annotations.isEmpty with
  | true =>
    have hnone : t.annotations = .empty := SortedMap.ext (List.isEmpty_iff.mp hempty)
    simp only [if_true, Json.optionalField, List.cons_append, List.nil_append, List.foldlM_cons,
      haction, hrest, ok_bind]
    rw [Parts.finish, withId, hnone]
    rfl
  | false =>
    simp only [Bool.false_eq_true, if_false, Json.optionalField, List.cons_append, List.nil_append,
      List.foldlM_cons, haction, hannotations, hrest, ok_bind]
    rfl

theorem Parts.documented_of_read {p p' : Parts} {field : String × Json} (hj : field.2.IsSorted)
    (hp : ∀ c ∈ p.conditions, c.Documented) (h : p.read field = .ok p') :
    ∀ c ∈ p'.conditions, c.Documented := by
  unfold Parts.read at h
  split at h
  case h_5 =>
    obtain ⟨cs, hcs, h⟩ := bind_eq_ok_iff.mp h
    cases h
    exact Condition.documented_of_listOfJson hj hcs
  case h_7 =>
    cases h
    exact hp
  all_goals
    obtain ⟨_, -, h⟩ := bind_eq_ok_iff.mp h
    cases h
    exact hp

theorem Parts.documented_of_finish {p : Parts} {id : PolicyId} {t : Template}
    (hp : ∀ c ∈ p.conditions, c.Documented) (h : p.finish id = .ok t) :
    t.Documented ∧ t.id = id := by
  obtain ⟨effect, -, h⟩ := bind_eq_ok_iff.mp h
  cases h
  exact ⟨hp, rfl⟩

/-- The conditions of a template that a document gives have documents. -/
theorem documented_of_ofJson {j : Json} {id : PolicyId} {t : Template} (hj : j.IsSorted)
    (h : ofJson id j = .ok t) : t.Documented ∧ t.id = id := by
  have hrun {fields : List (String × Json)} {p : Parts} (hfields : ∀ f ∈ fields, f.2.IsSorted)
      (h : fields.foldlM Parts.read {} = .ok p) : ∀ c ∈ p.conditions, c.Documented :=
    foldlM_invariant (fun f hf _ _ => Parts.documented_of_read (hfields f hf))
      (List.forall_mem_nil _) h
  cases j with
  | object fields =>
    obtain ⟨p, hp, h⟩ := bind_eq_ok_iff.mp h
    exact Parts.documented_of_finish (hrun (Json.isSortedFields_iff.mp hj.2) hp) h
  | array items =>
    obtain ⟨p, hp, h⟩ := bind_eq_ok_iff.mp h
    split at h
    · refine Parts.documented_of_finish (hrun (fun f hf => ?_) hp) h
      exact Json.isSortedItems_iff.mp hj f.2 (List.of_mem_zip hf).2
    · cases h
  | _ => cases h

end Template

/-! ## 5. Values for slots -/

namespace SlotValues

theorem compare_name (s s' : Slot) : compare s.name s'.name = compare s s' := by
  cases s <;> cases s' <;> decide

theorem sorted_toJson (values : SlotValues) : (toJson values).sorted
    = .object (values.entries.map fun v => (v.1.name, v.2.toJson.sorted)) := by
  have hascending : SortedList.Ascending
      (values.entries.map fun v => (v.1.name, v.2.toJson)) := by
    refine List.Pairwise.map _ (fun v v' hlt => ?_) values.ascending
    rw [compare_name]
    exact hlt
  refine (Json.sorted_object hascending).trans ?_
  rw [List.map_map]
  rfl

/-- Values for slots are read back. -/
theorem ofJson?_toJson (values : SlotValues) : ofJson? (toJson values).sorted = some values := by
  have hentry (v : Slot × EntityUid) : entryOfJson? (v.1.name, v.2.toJson.sorted) = some v := by
    simp only [entryOfJson?, Slot.ofName?_name, EntityUid.ofJson?_toJson]
    rfl
  have hread : (values.entries.map fun v => (v.1.name, v.2.toJson.sorted)).mapM entryOfJson?
      = some values.entries := mapM_map_eq_pure fun v _ => hentry v
  rw [sorted_toJson, ofJson?]
  simp only [Json.object?, Option.bind_eq_bind, Option.bind_some, hread, SortedMap.ofList_entries]
  rfl

end SlotValues

end Arbiter
