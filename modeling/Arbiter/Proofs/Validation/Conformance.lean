/-
# Conforming data is of the declared types

The checker takes declared types for granted; that data is of them was checked when the data came
in.  A value that conforms to a declared type is of the type that the checker makes of it
(`hasType_of_conformValue`), and so is a record of attributes (`hasType_of_conformRecord`).
Literals are checked as they are met, and a literal is of the type that the checker gives it
(`hasType_literal`).

Declared types and types of literals without faults are definite.
-/
import Arbiter.Proofs.Validation.Typing
import Arbiter.Conformance

namespace Arbiter

open Outcome

/-! ## 1. Declared types -/

namespace Ty

theorem find?_ofSchemaAttrs {name : String} : ∀ {l : List (String × Attr SchemaType)} {a : Attr Ty},
    SortedList.find? name (ofSchemaAttrs l) = some a →
      ∃ d, SortedList.find? name l = some d ∧ a = ⟨ofSchema d.type, d.required⟩
  | [], _, h => nomatch h
  | (k, ⟨type, required⟩) :: r, a, h => by
    simp only [ofSchemaAttrs, SortedList.find?] at h ⊢
    split at h
    · rename_i heq
      cases h
      rw [if_pos heq]
      exact ⟨_, rfl, rfl⟩
    · rename_i hne
      rw [if_neg hne]
      exact find?_ofSchemaAttrs h

mutual

theorem definite_ofSchema : ∀ t : SchemaType, (ofSchema t).Definite
  | .bool => .bool
  | .long => .long
  | .string => .string
  | .set elem => .set (definite_ofSchema elem)
  | .record ⟨attrs, _⟩ => by
    refine .record fun name a ha => ?_
    exact definite_ofSchemaAttrs attrs name a ha
  | .entity _ => .entity
  | .extension _ => .extension

theorem definite_ofSchemaAttrs : ∀ (l : List (String × Attr SchemaType)) (name : String)
    (a : Attr Ty), SortedList.find? name (ofSchemaAttrs l) = some a → a.type.Definite
  | (k, ⟨type, required⟩) :: r, name, a, h => by
    simp only [ofSchemaAttrs, SortedList.find?] at h
    split at h
    · cases h
      exact definite_ofSchema type
    · exact definite_ofSchemaAttrs r name a h

end

theorem definite_shapeOf (r : RecordType) : (Ty.record (shapeOf r)).Definite :=
  .record fun name a h => definite_ofSchemaAttrs r.attrs name a h

end Ty

/-! ## 2. Conforming values -/

/-- What is asked of attributes, by declared attributes. -/
def Typed (attrs : List (String × Value)) (name : String) (d : Attr SchemaType) : Prop :=
  (∀ v, SortedList.find? name attrs = some v → v.HasType (.ofSchema d.type)) ∧
    (d.required = true → ∃ v, SortedList.find? name attrs = some v)

theorem hasType_of_typed {shape : RecordType} {attrs : List (String × Value)}
    (h : ∀ p ∈ shape.attrs, Typed attrs p.1 p.2) :
    (Value.record attrs).HasType (.record (Ty.shapeOf shape)) := by
  refine .record ?_ ?_
  · intro name a v ha hv
    obtain ⟨d, hd, rfl⟩ := Ty.find?_ofSchemaAttrs ha
    exact (h _ (SortedList.mem_of_find? hd)).1 v hv
  · intro name a ha hrequired
    obtain ⟨d, hd, rfl⟩ := Ty.find?_ofSchemaAttrs ha
    exact (h _ (SortedList.mem_of_find? hd)).2 hrequired

mutual

/-- **A value that conforms to a declared type is of it.** -/
theorem hasType_of_conformValue : ∀ {t : SchemaType} {v : Value} {path : String},
    conformValue path t v = .ok () → v.HasType (.ofSchema t)
  | .bool, v, path, h => by
    cases v with
    | bool _ => exact .bool
    | _ => cases h
  | .long, v, path, h => by
    cases v with
    | long _ => exact .long
    | _ => cases h
  | .string, v, path, h => by
    cases v with
    | string _ => exact .string
    | _ => cases h
  | .set elem, v, path, h => by
    cases v with
    | set values =>
      refine .set fun w hw => ?_
      exact hasType_of_conformValue (forM_eq_ok_iff.mp h w hw)
    | _ => cases h
  | .record ⟨declared, isOpen⟩, v, path, h => by
    cases v with
    | record attrs =>
      obtain ⟨_, hattrs, -⟩ := bind_eq_ok_iff.mp h
      have htyped : ∀ p ∈ declared, Typed attrs p.1 p.2 := typed_of_conformAttrs hattrs
      exact @hasType_of_typed ⟨declared, isOpen⟩ attrs htyped
    | _ => cases h
  | .entity t, v, path, h => by
    cases v with
    | entity uid =>
      simp only [conformValue] at h
      split at h
      · rename_i ht
        rw [← ht]
        exact Value.HasType.ofEntityType
      · cases h
    | _ => cases h
  | .extension kind, v, path, h => by
    cases v with
    | ext x =>
      simp only [conformValue] at h
      split at h
      · rename_i hkind
        rw [← hkind]
        exact .ext
      · cases h
    | _ => cases h

theorem typed_of_conformAttrs : ∀ {declared : List (String × Attr SchemaType)} {path : String}
    {attrs : List (String × Value)}, conformAttrs path attrs declared = .ok () →
      ∀ p ∈ declared, Typed attrs p.1 p.2
  | [], _, _, _ => nofun
  | (name, ⟨type, required⟩) :: rest, path, attrs, h => by
    simp only [conformAttrs] at h
    rw [List.forall_mem_cons]
    cases hv : SortedList.find? name attrs with
    | none =>
      rw [hv] at h
      cases required with
      | true => cases h
      | false =>
        refine ⟨⟨fun v hv' => ?_, nofun⟩, typed_of_conformAttrs h⟩
        rw [hv] at hv'
        cases hv'
    | some v =>
      rw [hv] at h
      obtain ⟨_, hfirst, hrest⟩ := bind_eq_ok_iff.mp h
      refine ⟨⟨fun v' hv' => ?_, fun _ => ⟨v, hv⟩⟩, typed_of_conformAttrs hrest⟩
      rw [hv] at hv'
      cases hv'
      exact hasType_of_conformValue hfirst

end

/-- A record of attributes that conform to a declared shape is of it. -/
theorem hasType_of_conformRecord {shape : RecordType} {path : String}
    {attrs : List (String × Value)} (h : conformRecord shape path attrs = .ok ()) :
    (Value.record attrs).HasType (.record (Ty.shapeOf shape)) := by
  obtain ⟨_, hattrs, -⟩ := bind_eq_ok_iff.mp h
  exact hasType_of_typed (typed_of_conformAttrs hattrs)

/-! ## 3. Literals -/

namespace Checker

variable {s : Schema}

theorem find?_literalAttrs {name : String} : ∀ {l : List (String × Value)} {a : Attr Ty},
    SortedList.find? name (literalAttrs s l).1 = some a →
      ∃ v, SortedList.find? name l = some v ∧ a = ⟨(literal s v).1, true⟩
  | (k, v) :: r, a, h => by
    simp only [literalAttrs, SortedList.find?] at h ⊢
    split at h
    · rename_i heq
      cases h
      rw [if_pos heq]
      exact ⟨v, rfl, rfl⟩
    · rename_i hne
      rw [if_neg hne]
      exact find?_literalAttrs h

mutual

/-- **A value is of the type that it has as a literal.** -/
theorem hasType_literal : ∀ v : Value, v.HasType (literal s v).1
  | .bool _ => .bool
  | .long _ => .long
  | .string _ => .string
  | .entity _ => Value.HasType.ofEntityType
  | .set elems => .set fun v hv => hasType_joinAll (Or.inr (hasType_literals elems v hv))
  | .record attrs => by
    refine .record ?_ ?_
    · intro name a v ha hv
      exact hasType_literalAttrs attrs name a v ha hv
    · intro name a ha _
      obtain ⟨v, hv, -⟩ := find?_literalAttrs ha
      exact ⟨v, hv⟩
  | .ext _ => .ext
termination_by structural v => v

theorem hasType_literals : ∀ (l : List Value), ∀ v ∈ l, ∃ t ∈ (literals s l).1, v.HasType t
  | [], _, hw => nomatch hw
  | v :: r, w, hw => by
    rcases List.mem_cons.mp hw with heq | hw
    · rw [heq]
      exact ⟨_, List.mem_cons_self, hasType_literal v⟩
    · obtain ⟨t, ht, hw⟩ := hasType_literals r w hw
      exact ⟨t, List.mem_cons_of_mem _ ht, hw⟩
termination_by structural l => l

theorem hasType_literalAttrs : ∀ (l : List (String × Value)) (name : String) (a : Attr Ty)
    (v : Value), SortedList.find? name (literalAttrs s l).1 = some a →
      SortedList.find? name l = some v → v.HasType a.type
  | [], _, _, _, ha, _ => nomatch ha
  | (k, w) :: r, name, a, v, ha, hv => by
    simp only [literalAttrs, SortedList.find?] at ha hv
    split at ha
    · rename_i heq
      rw [if_pos heq] at hv
      cases ha
      cases hv
      exact hasType_literal w
    · rename_i hne
      rw [if_neg hne] at hv
      exact hasType_literalAttrs r name a v ha hv
termination_by structural l => l

end

mutual

theorem definite_literal : ∀ v : Value, (literal s v).2 = [] → (literal s v).1.Definite
  | .bool _, _ => .bool
  | .long _, _ => .long
  | .string _, _ => .string
  | .entity _, _ => .entity
  | .set elems, h => by
    obtain ⟨hfaults, hjoin⟩ := List.append_eq_nil_iff.mp h
    exact .set (definite_joinAll .never (definite_literals elems hfaults) hjoin)
  | .record attrs, h => .record fun name a ha => definite_literalAttrs attrs h name a ha
  | .ext _, _ => .extension

theorem definite_literals : ∀ l : List Value, (literals s l).2 = [] →
    ∀ t ∈ (literals s l).1, t.Definite
  | [], _ => nofun
  | v :: r, h => by
    obtain ⟨hv, hr⟩ := List.append_eq_nil_iff.mp h
    exact List.forall_mem_cons.mpr ⟨definite_literal v hv, definite_literals r hr⟩

theorem definite_literalAttrs : ∀ l : List (String × Value), (literalAttrs s l).2 = [] →
    ∀ (name : String) (a : Attr Ty), SortedList.find? name (literalAttrs s l).1 = some a →
      a.type.Definite
  | (k, v) :: r, h, name, a, ha => by
    obtain ⟨hv, hr⟩ := List.append_eq_nil_iff.mp h
    simp only [literalAttrs, SortedList.find?] at ha
    split at ha
    · cases ha
      exact definite_literal v hv
    · exact definite_literalAttrs r hr name a ha

end

end Checker

end Arbiter
