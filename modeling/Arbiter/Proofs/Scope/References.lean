/-
# References in scope documents

A scope document has five fields for references, and no operator needs them all.  What a reader of
constraints does with a field (`Treatment`) hangs on the operator: it uses the field, it refuses
documents in which the field is filled, or it passes the field over; for each operator this says all
about the five fields (`ScopeDocument.references_exact`).  Used fields are never lost: what a
constraint refers to is what the used fields of its document refer to (`Treats.used`).  Fields that
are passed over leave no trace: the outcome is that of the document without them
(`Treats.passedOver`).

The reader for the action refuses the entities and the slot that its operator does not need; the one
for principal and resource refuses nothing.  So a document that names an entity for the operator
`All` is read as a constraint that admits everybody (`Anybody.not_reflected`).
-/
import Arbiter.Proofs.Elementwise
import Arbiter.Proofs.Policy.Codec
import Arbiter.Scope.Json

namespace Arbiter

open Outcome

/-! ## 1. Fields -/

/-- What a scope can refer to. -/
inductive ScopeReference where
  | entity (u : EntityUid)
  | slot (s : Slot)
  | type (t : EntityType)
  deriving DecidableEq, Repr

/-- What a reference given by a document refers to. -/
def RefDocument.references (d : RefDocument) : List ScopeReference :=
  (d.entity.map .entity).toList ++ (d.slot.map .slot).toList

/-- The fields of a scope document that hold references. -/
inductive ScopeField where
  | entity
  | slot
  | entities
  | entityType
  | inRef
  deriving DecidableEq, Repr

namespace ScopeField

/-- All fields that hold references. -/
def all : List ScopeField := [.entity, .slot, .entities, .entityType, .inRef]

/-- The name of a field. -/
def name : ScopeField → String
  | .entity => "entity"
  | .slot => "slot"
  | .entities => "entities"
  | .entityType => "entity_type"
  | .inRef => "in"

/-- The field of a name. -/
def ofName? (name : String) : Option ScopeField := all.find? (·.name == name)

theorem ofName?_name (k : ScopeField) : ofName? k.name = some k := by
  cases k <;> rfl

/-- What the value of a field refers to. -/
def references (k : ScopeField) (v : Json) : List ScopeReference :=
  match k with
  | .entity => ((EntityUid.ofJson? v).map fun u => [.entity u]).getD []
  | .slot => ((Slot.ofJson? v).map fun s => [.slot s]).getD []
  | .entities => ((Json.listOf? EntityUid.ofJson? v).map fun us => us.map .entity).getD []
  | .entityType => ((EntityType.ofJson? v).map fun t => [.type t]).getD []
  | .inRef => ((RefDocument.ofJson? v).map RefDocument.references).getD []

end ScopeField

/-- A document refers to something in a field. -/
def Json.Refers (k : ScopeField) (r : ScopeReference) : Json → Prop
  | .object fields => ∃ v, (k.name, v) ∈ fields ∧ r ∈ k.references v
  | _ => False

theorem ScopeField.exists_iff {p : ScopeField → Prop} :
    (∃ k, p k) ↔ p .entity ∨ p .slot ∨ p .entities ∨ p .entityType ∨ p .inRef := by
  constructor
  · rintro ⟨k, hk⟩
    cases k <;> simp [hk]
  · rintro (hk | hk | hk | hk | hk) <;> exact ⟨_, hk⟩

/-- What a document that has been read refers to in a field. -/
def ScopeDocument.references (d : ScopeDocument) : ScopeField → List ScopeReference
  | .entity => (d.ref.entity.map fun u => [.entity u]).getD []
  | .slot => (d.ref.slot.map fun s => [.slot s]).getD []
  | .entities => (d.entities.map fun us => us.map .entity).getD []
  | .entityType => (d.entityType.map fun t => [.type t]).getD []
  | .inRef => (d.inRef.map RefDocument.references).getD []

/-! ## 2. Fields that may be left out -/

namespace Json

variable {α : Type} {read? : Json → Option α} {name : String} {fields : List (String × Json)}

/-- Reads a field that may be left out or `null`. -/
def optionalIn? (read? : Json → Option α) (name : String) (fields : List (String × Json)) :
    Option (Option α) :=
  (field? name fields).bind (optional? read?)

theorem mem_iff_of_field? {o : Option Json} (h : field? name fields = some o) (v : Json) :
    (name, v) ∈ fields ↔ o = some v := by
  have hmem : (name, v) ∈ fields ↔ (name, v) ∈ fields.filter (·.1 == name) := by simp
  rw [hmem]
  unfold field? at h
  split at h
  · rename_i hnone
    cases h
    simp [hnone]
  · rename_i f hone
    cases h
    have hname : f.1 = name := by
      have hf : f ∈ fields.filter (·.1 == name) := hone ▸ List.mem_singleton_self f
      simpa using (List.mem_filter.mp hf).2
    obtain ⟨_, w⟩ := f
    cases hname
    rw [hone, List.mem_singleton, Prod.mk.injEq, Option.some.injEq]
    exact ⟨fun h => h.2.symm, fun h => ⟨rfl, h.symm⟩⟩
  · cases h

/-- What a field refers to is read off its value. -/
theorem mem_references_iff {f : α → List ScopeReference} (hnull : read? .null = none)
    {o : Option α} (h : optionalIn? read? name fields = some o) (r : ScopeReference) :
    (∃ v, (name, v) ∈ fields ∧ r ∈ ((read? v).map f).getD []) ↔ r ∈ (o.map f).getD [] := by
  obtain ⟨w, hw, ho⟩ := Option.bind_eq_some_iff.mp h
  simp only [mem_iff_of_field? hw]
  unfold optional? at ho
  split at ho
  · cases ho
    simp
  · cases ho
    simp [hnull]
  · obtain ⟨a, ha, rfl⟩ := Option.map_eq_some_iff.mp ho
    simp [ha]

/-- A field that gives nothing is left out or `null`. -/
theorem eq_null_of_optionalIn? (h : optionalIn? read? name fields = some none) {v : Json}
    (hv : (name, v) ∈ fields) : v = .null := by
  obtain ⟨w, hw, ho⟩ := Option.bind_eq_some_iff.mp h
  rw [mem_iff_of_field? hw] at hv
  subst hv
  unfold optional? at ho
  split at ho
  · rename_i heq
    cases heq
  · rename_i heq
    exact Option.some.inj heq
  · obtain ⟨a, -, ha⟩ := Option.map_eq_some_iff.mp ho
    cases ha

theorem field?_filter (keep : String → Bool) (name : String) (fields : List (String × Json)) :
    field? name (fields.filter fun f => keep f.1)
      = if keep name = true then field? name fields else some none := by
  have hfilter : (fields.filter fun f => keep f.1).filter (·.1 == name)
      = if keep name = true then fields.filter (·.1 == name) else [] := by
    rw [List.filter_filter]
    split
    · rename_i hkeep
      refine List.filter_congr fun f _ => ?_
      by_cases hname : f.1 = name <;> simp [hname, hkeep]
    · rename_i hkeep
      refine List.filter_eq_nil_iff.mpr fun f _ => ?_
      rw [Bool.and_eq_true, beq_iff_eq]
      rintro ⟨rfl, hf⟩
      exact hkeep hf
  unfold field?
  rw [hfilter]
  split_ifs <;> rfl

theorem optionalIn?_filter {keep : String → Bool} {o : Option α}
    (h : optionalIn? read? name fields = some o) :
    optionalIn? read? name (fields.filter fun f => keep f.1)
      = some (if keep name = true then o else none) := by
  rw [optionalIn?, field?_filter]
  split
  · exact h
  · rfl

end Json

namespace ScopeDocument

variable {fields : List (String × Json)} {d : ScopeDocument}

/-- An object is read field by field. -/
theorem ofJson?_object_eq_some_iff : ofJson? (.object fields) = some d ↔
    Json.field? "op" fields = some (some (.string d.op)) ∧
    Json.optionalIn? EntityUid.ofJson? "entity" fields = some d.ref.entity ∧
    Json.optionalIn? Slot.ofJson? "slot" fields = some d.ref.slot ∧
    Json.optionalIn? (Json.listOf? EntityUid.ofJson?) "entities" fields = some d.entities ∧
    Json.optionalIn? EntityType.ofJson? "entity_type" fields = some d.entityType ∧
    Json.optionalIn? RefDocument.ofJson? "in" fields = some d.inRef := by
  simp only [Json.optionalIn?, Option.bind_eq_some_iff]
  constructor
  · intro h
    obtain ⟨values, hvalues, h⟩ := Option.bind_eq_some_iff.mp h
    have hfields := forall₂_of_mapM_eq_some hvalues
    split at h
    · simp only [List.forall₂_cons] at hfields
      obtain ⟨hop, hentity, hslot, hentities, htype, hinRef, -⟩ := hfields
      simp only [Option.bind_eq_bind, Option.pure_def, Option.bind_eq_some_iff,
        Option.some.injEq] at h
      obtain ⟨_, hentity', _, hslot', _, hentities', _, htype', _, hinRef', rfl⟩ := h
      exact ⟨hop, ⟨_, hentity, hentity'⟩, ⟨_, hslot, hslot'⟩, ⟨_, hentities, hentities'⟩,
        ⟨_, htype, htype'⟩, ⟨_, hinRef, hinRef'⟩⟩
    · cases h
  · rintro ⟨hop, ⟨_, hentity, hentity'⟩, ⟨_, hslot, hslot'⟩, ⟨_, hentities, hentities'⟩,
      ⟨_, htype, htype'⟩, ⟨_, hinRef, hinRef'⟩⟩
    simp [ofJson?, Json.fields?, hop, hentity, hentity', hslot, hslot', hentities, hentities',
      htype, htype', hinRef, hinRef']

/-- A document refers to what it is read with. -/
theorem refers_iff (h : ofJson? (.object fields) = some d) (k : ScopeField) (r : ScopeReference) :
    (Json.object fields).Refers k r ↔ r ∈ d.references k := by
  obtain ⟨-, hentity, hslot, hentities, htype, hinRef⟩ := ofJson?_object_eq_some_iff.mp h
  cases k with
  | entity => exact Json.mem_references_iff rfl hentity r
  | slot => exact Json.mem_references_iff rfl hslot r
  | entities => exact Json.mem_references_iff rfl hentities r
  | entityType => exact Json.mem_references_iff rfl htype r
  | inRef => exact Json.mem_references_iff rfl hinRef r

/-- What is written refers to what the document refers to. -/
theorem refers_toJson (d : ScopeDocument) (k : ScopeField) (r : ScopeReference) :
    d.toJson.sorted.Refers k r ↔ r ∈ d.references k :=
  refers_iff d.ofJson?_toJson k r

end ScopeDocument

/-! ## 3. Treatments -/

/-- What a reader of constraints does with a field. -/
inductive Treatment where
  /-- The constraint refers to what the field refers to. -/
  | used
  /-- Documents in which the field is filled are refused. -/
  | refused
  /-- The field might as well be missing. -/
  | passedOver
  deriving DecidableEq, Repr

/-- What the reader for principal and resource does with a field. -/
def ScopeConstraint.treatment (op : String) : ScopeField → Treatment
  | .entity | .slot => if op = "==" ∨ op = "in" then .used else .passedOver
  | .entityType | .inRef => if op = "is" then .used else .passedOver
  | .entities => .passedOver

/-- What the reader for the action does with a field. -/
def ActionConstraint.treatment (op : String) : ScopeField → Treatment
  | .entity => if op = "==" ∨ op = "in" then .used else .refused
  | .entities => if op = "in" then .used else .refused
  | .slot => .refused
  | .entityType | .inRef => .passedOver

/-- Whether fields of a name are looked at. -/
def Heeds (t : ScopeField → Treatment) (name : String) : Bool :=
  (ScopeField.ofName? name).all fun k => t k != .passedOver

theorem heeds_name (t : ScopeField → Treatment) (k : ScopeField) :
    Heeds t k.name = (t k != .passedOver) := by
  rw [Heeds, ScopeField.ofName?_name, Option.all_some]

/-- The document without the fields that are not looked at. -/
def ScopeDocument.heeded (t : ScopeField → Treatment) (d : ScopeDocument) : ScopeDocument where
  op := d.op
  ref.entity := if t .entity = .passedOver then none else d.ref.entity
  ref.slot := if t .slot = .passedOver then none else d.ref.slot
  entities := if t .entities = .passedOver then none else d.entities
  entityType := if t .entityType = .passedOver then none else d.entityType
  inRef := if t .inRef = .passedOver then none else d.inRef

namespace ScopeDocument

variable {t : ScopeField → Treatment} {fields : List (String × Json)} {d : ScopeDocument}

theorem optionalIn?_heeded {α : Type} {read? : Json → Option α} {k : ScopeField} {o : Option α}
    (h : Json.optionalIn? read? k.name fields = some o) :
    Json.optionalIn? read? k.name (fields.filter fun f => Heeds t f.1)
      = some (if t k = .passedOver then none else o) := by
  rw [Json.optionalIn?_filter h, heeds_name]
  by_cases hk : t k = .passedOver <;> simp [hk]

theorem ofJson?_heeded (h : ofJson? (.object fields) = some d) :
    ofJson? (.object (fields.filter fun f => Heeds t f.1)) = some (d.heeded t) := by
  obtain ⟨hop, hentity, hslot, hentities, htype, hinRef⟩ := ofJson?_object_eq_some_iff.mp h
  refine ofJson?_object_eq_some_iff.mpr ⟨?_, optionalIn?_heeded (k := .entity) hentity,
    optionalIn?_heeded (k := .slot) hslot, optionalIn?_heeded (k := .entities) hentities,
    optionalIn?_heeded (k := .entityType) htype, optionalIn?_heeded (k := .inRef) hinRef⟩
  have hheeds : Heeds t "op" = true := rfl
  rw [Json.field?_filter, if_pos hheeds]
  exact hop

/-- Whether a field of a document that has been read is there and not `null`. -/
def Fills (d : ScopeDocument) : ScopeField → Bool
  | .entity => d.ref.entity.isSome
  | .slot => d.ref.slot.isSome
  | .entities => d.entities.isSome
  | .entityType => d.entityType.isSome
  | .inRef => d.inRef.isSome

theorem references_eq_nil {k : ScopeField} (h : d.Fills k = false) : d.references k = [] := by
  cases k <;> rw [Fills, Option.isSome_eq_false_iff, Option.isNone_iff_eq_none] at h <;>
    rw [references, h] <;> rfl

theorem eq_null_of_fills (h : ofJson? (.object fields) = some d) {k : ScopeField}
    (hk : d.Fills k = false) {v : Json} (hv : (k.name, v) ∈ fields) : v = .null := by
  obtain ⟨-, hentity, hslot, hentities, htype, hinRef⟩ := ofJson?_object_eq_some_iff.mp h
  cases k <;> rw [Fills, Option.isSome_eq_false_iff, Option.isNone_iff_eq_none] at hk
  case entity => exact Json.eq_null_of_optionalIn? (hk ▸ hentity) hv
  case slot => exact Json.eq_null_of_optionalIn? (hk ▸ hslot) hv
  case entities => exact Json.eq_null_of_optionalIn? (hk ▸ hentities) hv
  case entityType => exact Json.eq_null_of_optionalIn? (hk ▸ htype) hv
  case inRef => exact Json.eq_null_of_optionalIn? (hk ▸ hinRef) hv

theorem mem_references_heeded {k : ScopeField} {r : ScopeReference} :
    r ∈ (d.heeded t).references k ↔ t k ≠ .passedOver ∧ r ∈ d.references k := by
  by_cases hk : t k = .passedOver <;> cases k <;> simp [references, heeded, hk]

end ScopeDocument

/-- How a reader of constraints, with its writer, treats the fields of a document. -/
structure Treats {C : Type} (t : ScopeField → Treatment)
    (read : Json → Except (DocumentError ScopeError) C) (write : C → Json)
    (fields : List (String × Json)) : Prop where
  /-- The constraint refers to what the used fields refer to, and to nothing else. -/
  used : ∀ c, read (.object fields) = .ok c → ∀ r,
    (∃ k, (write c).sorted.Refers k r) ↔ ∃ k, t k = .used ∧ (Json.object fields).Refers k r
  /-- In a document that is read the refused fields are empty. -/
  refused : ∀ c, read (.object fields) = .ok c →
    ∀ k v, t k = .refused → (k.name, v) ∈ fields → v = .null
  /-- The outcome is that of the document without the fields that are passed over. -/
  passedOver : read (.object (fields.filter fun f => Heeds t f.1)) = read (.object fields)

namespace ScopeDocument

variable {C : Type} {t : ScopeField → Treatment} {fields : List (String × Json)}
  {d : ScopeDocument} {give : ScopeDocument → Except ScopeError C} {form : C → ScopeDocument}

/-- A reader of documents is as good as what it makes of them. -/
theorem treats_of_heeded (h : ofJson? (.object fields) = some d)
    (hheeded : give (d.heeded t) = give d)
    (hempty : ∀ c, give d = .ok c → ∀ k, t k = .refused → d.Fills k = false)
    (hform : ∀ c, give d = .ok c → ∀ r,
      (∃ k, r ∈ (form c).references k) ↔ ∃ k, r ∈ (d.heeded t).references k) :
    Treats t (fun j => do refusing (give (← wellFormed (ofJson? j)))) (fun c => (form c).toJson)
      fields := by
  have hread {fields : List (String × Json)} {d : ScopeDocument}
      (h : ofJson? (.object fields) = some d) :
      (do refusing (give (← wellFormed (ofJson? (.object fields))))) = refusing (give d) := by
    rw [h, wellFormed, ok_bind]
  have hgive {c : C} (hc : refusing (give d) = .ok c) : give d = .ok c := mapError_eq_ok_iff.mp hc
  refine ⟨fun c hc r => ?_, fun c hc k v hk hv => ?_, ?_⟩
  · rw [hread h] at hc
    simp only [refers_toJson, hform c (hgive hc), mem_references_heeded, refers_iff h]
    refine exists_congr fun k => and_congr_left fun hr => ?_
    cases hk : t k with
    | used | passedOver => simp
    | refused =>
      rw [references_eq_nil (hempty c (hgive hc) k hk)] at hr
      cases hr
  · rw [hread h] at hc
    exact eq_null_of_fills h (hempty c (hgive hc) k hk) hv
  · rw [hread (ofJson?_heeded h), hheeded, hread h]

end ScopeDocument

/-! ## 4. The two readers -/

/-- A reference is written as the document that gives it. -/
theorem RefDocument.ofRef_of_toRef {d : RefDocument} {op : String} {r : EntityRef}
    (h : d.toRef op = .ok r) : ofRef r = d := by
  unfold toRef at h
  split at h <;> cases h <;> rfl

namespace ScopeConstraint

variable {d : ScopeDocument} {c : ScopeConstraint}

/-- The reader for principal and resource refuses no field. -/
theorem treatment_ne_refused {op : String} {k : ScopeField} : treatment op k ≠ .refused := by
  cases k <;> unfold treatment <;> split_ifs <;> nofun

/-- A constraint on principal or resource comes from what is looked at. -/
theorem toScope_heeded (d : ScopeDocument) : (d.heeded (treatment d.op)).toScope = d.toScope := by
  obtain ⟨op, ref, entities, entityType, inRef⟩ := d
  simp only [ScopeDocument.heeded, ScopeDocument.toScope]
  split <;> simp [treatment]

/-- A constraint on principal or resource is written as what is looked at. -/
theorem toDocument_of_toScope (h : d.toScope = .ok c) :
    c.toDocument = d.heeded (treatment d.op) := by
  obtain ⟨op, ref, entities, entityType, inRef⟩ := d
  unfold ScopeDocument.toScope at h
  split at h
  · rename_i hop
    cases hop
    cases h
    rfl
  · rename_i hop
    cases hop
    obtain ⟨r, hr, rfl⟩ := map_eq_ok_iff.mp h
    cases RefDocument.ofRef_of_toRef hr
    rfl
  · rename_i hop
    cases hop
    obtain ⟨r, hr, rfl⟩ := map_eq_ok_iff.mp h
    cases RefDocument.ofRef_of_toRef hr
    rfl
  · rename_i hop
    cases hop
    split at h
    · cases h
    · rename_i htype hnone
      cases htype
      cases hnone
      cases h
      rfl
    · rename_i htype hsome
      cases htype
      cases hsome
      obtain ⟨r, hr, rfl⟩ := map_eq_ok_iff.mp h
      cases RefDocument.ofRef_of_toRef hr
      rfl
  · cases h

end ScopeConstraint

namespace ActionConstraint

variable {d : ScopeDocument} {c : ActionConstraint}

/-- A constraint on the action comes from what is looked at. -/
theorem toAction_heeded (d : ScopeDocument) :
    (d.heeded (treatment d.op)).toAction = d.toAction := by
  have hentity : treatment d.op .entity ≠ .passedOver := by
    unfold treatment
    split_ifs <;> nofun
  have hentities : treatment d.op .entities ≠ .passedOver := by
    unfold treatment
    split_ifs <;> nofun
  have hslot : treatment d.op .slot ≠ .passedOver := nofun
  simp only [ScopeDocument.toAction, ScopeDocument.heeded, if_neg hentity, if_neg hentities,
    if_neg hslot]

/-- How a constraint on the action comes out of a document. -/
theorem eq_of_toAction (h : d.toAction = .ok c) : d.ref.slot = none ∧
    (d.op = "All" ∧ d.ref.entity = none ∧ d.entities = none ∧ c = .any ∨
    d.op = "==" ∧ d.entities = none ∧ (∃ u, d.ref.entity = some u ∧ c = .eq u) ∨
    d.op = "in" ∧ d.entities = none ∧ (∃ u, d.ref.entity = some u ∧ c = .isIn [u]) ∨
    d.op = "in" ∧ d.ref.entity = none ∧ ∃ us, d.entities = some us ∧ c = .isIn us) := by
  unfold ScopeDocument.toAction at h
  split at h
  · cases h
  · rename_i hslot
    refine ⟨by simpa using hslot, ?_⟩
    split at h <;> cases h <;> simp [*]

/-- Refused fields are empty in the document of a constraint on the action. -/
theorem fills_of_toAction (h : d.toAction = .ok c) (k : ScopeField)
    (hk : treatment d.op k = .refused) : d.Fills k = false := by
  obtain ⟨hslot, ⟨hop, hentity, hentities, -⟩ | ⟨hop, hentities, u, hentity, -⟩ |
    ⟨hop, hentities, u, hentity, -⟩ | ⟨hop, hentity, us, hentities, -⟩⟩ := eq_of_toAction h <;>
    cases k <;> simp_all [treatment, ScopeDocument.Fills]

/-- A constraint on the action refers to what is looked at. -/
theorem references_toDocument (h : d.toAction = .ok c) (r : ScopeReference) :
    (∃ k, r ∈ c.toDocument.references k) ↔
      ∃ k, r ∈ (d.heeded (treatment d.op)).references k := by
  rw [ScopeField.exists_iff, ScopeField.exists_iff]
  obtain ⟨hslot, ⟨hop, hentity, hentities, rfl⟩ | ⟨hop, hentities, u, hentity, rfl⟩ |
    ⟨hop, hentities, u, hentity, rfl⟩ | ⟨hop, hentity, us, hentities, rfl⟩⟩ := eq_of_toAction h <;>
    simp [toDocument, ScopeDocument.heeded, ScopeDocument.references, treatment, hop, hslot,
      hentity, hentities]

end ActionConstraint

/-- **What a constraint keeps of the references of its document.**  A document is refused by both
readers, or it has an operator, and for each reader and each field it hangs on the operator whether
what the field refers to is kept, refused or lost. -/
theorem ScopeDocument.references_exact (fields : List (String × Json)) :
    (ScopeConstraint.ofJson (.object fields) = .error .malformed ∧
      ActionConstraint.ofJson (.object fields) = .error .malformed) ∨
    ∃ op, Json.field? "op" fields = some (some (.string op)) ∧
      Treats (ScopeConstraint.treatment op) ScopeConstraint.ofJson ScopeConstraint.toJson fields ∧
      Treats (ActionConstraint.treatment op) ActionConstraint.ofJson ActionConstraint.toJson
        fields := by
  cases h : ofJson? (.object fields) with
  | none =>
    left
    rw [ScopeConstraint.ofJson, ActionConstraint.ofJson, h]
    exact ⟨rfl, rfl⟩
  | some d =>
    refine Or.inr ⟨d.op, (ofJson?_object_eq_some_iff.mp h).1, ?_, ?_⟩
    · refine treats_of_heeded h (ScopeConstraint.toScope_heeded d) (fun _ _ k hk => ?_)
        fun c hc r => ?_
      · exact absurd hk ScopeConstraint.treatment_ne_refused
      · rw [ScopeConstraint.toDocument_of_toScope hc]
    · exact treats_of_heeded h (ActionConstraint.toAction_heeded d)
        (fun _ => ActionConstraint.fills_of_toAction)
        fun _ => ActionConstraint.references_toDocument

namespace Anybody

/-- Somebody in particular. -/
def alice : EntityUid := ⟨⟨"User"⟩, "alice"⟩

/-- The fields of a document that admits everybody, and yet names somebody. -/
def fields : List (String × Json) := [("op", .string "All"), ("entity", alice.toJson)]

/-- The document is the document of a constraint that forgets whom it names; as the document of a
constraint on the action it is refused. -/
theorem not_reflected :
    ScopeConstraint.ofJson (.object fields) = .ok .any ∧
    (Json.object fields).Refers .entity (.entity alice) ∧
    (¬ ∃ k, ScopeConstraint.any.toJson.sorted.Refers k (.entity alice)) ∧
    ActionConstraint.ofJson (.object fields) = .error (.refused (.malformedAction "All")) := by
  refine ⟨rfl, ⟨alice.toJson, by simp [fields, ScopeField.name], List.mem_singleton_self _⟩, ?_,
    rfl⟩
  rintro ⟨k, hk⟩
  rw [ScopeConstraint.toJson, ScopeDocument.refers_toJson] at hk
  cases k <;> cases hk

end Anybody

end Arbiter
