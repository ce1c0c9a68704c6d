/-
# The types of expressions are canonical

The attributes of a record type are a map in every type that the checker meets.  A document of a
schema writes the attributes of a record to a map, so the declared types are canonical
(`Schema.canonical_of_ofJson`), and with them the contexts of the environments
(`Template.canonical_context`); a literal is as canonical as its value.  From canonical types the
checker makes canonical ones only (`Expr.canonical_check`).
-/
import Arbiter.Proofs.Expr.Codec
import Arbiter.Proofs.Schema.Declarations
import Arbiter.Proofs.Validation.Joins
import Arbiter.Proofs.Validation.Parts
import Arbiter.Validation.Basic

namespace Arbiter

open Outcome

/-! ## 1. Declared types -/

namespace Ty

theorem keys_ofSchemaAttrs (l : List (String × Attr SchemaType)) :
    (ofSchemaAttrs l).map Prod.fst = l.map Prod.fst := by
  induction l with
  | nil => rfl
  | cons p r ih => exact congrArg (p.1 :: ·) ih

/-- A declared record is canonical when its attributes are a map to canonical types. -/
theorem canonical_shapeOf {shape : RecordType} (hascending : SortedList.Ascending shape.attrs)
    (htypes : ∀ p ∈ shape.attrs, (ofSchema p.2.type).Canonical) :
    (Ty.record (shapeOf shape)).Canonical := by
  refine .record ?_ fun name a ha => ?_
  · rw [SortedList.ascending_iff_keys] at hascending ⊢
    rw [shapeOf, keys_ofSchemaAttrs]
    exact hascending
  · obtain ⟨d, hd, rfl⟩ := find?_ofSchemaAttrs ha
    exact htypes _ (SortedList.mem_of_find? hd)

end Ty

namespace Scoping

variable {r : Scoping}

/-- The type of a document is canonical. -/
theorem canonical_of_resolve : ∀ {levels : Nat} {d : TypeDocument} {T : SchemaType},
    r.resolve levels d = .ok T → (Ty.ofSchema T).Canonical
  | 0, _, _, h => nomatch h
  | levels + 1, d, T, h => by
    unfold resolve at h
    split at h
    case h_1 | h_2 =>
      cases h
      exact .bool
    case h_3 =>
      cases h
      exact .long
    case h_4 =>
      cases h
      exact .string
    case h_5 =>
      split at h
      · obtain ⟨elem, helem, rfl⟩ := map_eq_ok_iff.mp h
        exact .set (canonical_of_resolve helem)
      · cases h
    case h_6 =>
      obtain ⟨attrs, hattrs, h⟩ := bind_eq_ok_iff.mp h
      cases h
      refine @Ty.canonical_shapeOf ⟨_, _⟩ (SortedList.ascending_ofPairs attrs) fun p hp => ?_
      obtain ⟨a, -, ha⟩ := exists_of_mem_mapM hattrs p (SortedList.mem_of_mem_ofPairs hp)
      obtain ⟨type, htype, ha⟩ := bind_eq_ok_iff.mp ha
      cases ha
      exact canonical_of_resolve htype
    case h_7 =>
      obtain ⟨_, -, h⟩ := bind_eq_ok_iff.mp h
      obtain ⟨_, -, h⟩ := bind_eq_ok_iff.mp h
      cases h
      exact .entity
    case h_8 =>
      obtain ⟨_, -, h⟩ := bind_eq_ok_iff.mp h
      split at h
      · cases h
        exact .extension
      · cases h
    case h_9 =>
      split at h
      · exact canonical_of_resolve h
      · cases h

theorem canonical_of_shape {d : Option TypeDocument} {shape : RecordType}
    (h : r.shape d = .ok shape) : (Ty.record (Ty.shapeOf shape)).Canonical := by
  cases d with
  | none =>
    cases h
    exact Ty.canonical_shapeOf List.Pairwise.nil (List.forall_mem_nil _)
  | some d =>
    obtain ⟨T, hT, h⟩ := bind_eq_ok_iff.mp h
    split at h
    · cases h
      exact canonical_of_resolve hT
    · cases h

end Scoping

namespace Schema

/-- All declared types are canonical. -/
structure Canonical (s : Schema) : Prop where
  types : ∀ t d, s.entityType? t = some d → (Ty.record (Ty.shapeOf d.shape)).Canonical
  contexts : ∀ uid d, s.action? uid = some d → (Ty.record (Ty.shapeOf d.context)).Canonical

theorem canonical_empty : empty.Canonical where
  types _ _ := nofun
  contexts _ _ := nofun

/-- **The schema of a document is canonical.** -/
theorem canonical_of_ofJson {j : Json} {s : Schema} (h : ofJson j = .ok s) : s.Canonical := by
  obtain ⟨namespaces, -, hread, -⟩ := ofJson_eq_ok_iff.mp h
  have hreads := reads_foldlM_declare hread
  constructor
  · intro t d hd
    rcases hreads.types.find?_iff.mp hd with hd | hd
    · exact canonical_empty.types t d hd
    · obtain ⟨x, -, hx⟩ := List.mem_filterMap.mp hd
      cases x with
      | type r name doc =>
        obtain ⟨decl, hdecl, heq⟩ := Option.map_eq_some_iff.mp hx
        cases heq
        obtain ⟨_, -, hdecl⟩ := bind_eq_ok_iff.mp (eq_ok_of_toOption hdecl)
        obtain ⟨shape, hshape, hdecl⟩ := bind_eq_ok_iff.mp hdecl
        cases hdecl
        exact Scoping.canonical_of_shape hshape
      | action r id doc => cases hx
  · intro uid d hd
    rcases hreads.actions.find?_iff.mp hd with hd | hd
    · exact canonical_empty.contexts uid d hd
    · obtain ⟨x, -, hx⟩ := List.mem_filterMap.mp hd
      cases x with
      | type r name doc => cases hx
      | action r id doc =>
        obtain ⟨decl, hdecl, heq⟩ := Option.map_eq_some_iff.mp hx
        cases heq
        have hdecl := eq_ok_of_toOption hdecl
        unfold Scoping.actionDecl at hdecl
        split at hdecl
        · cases hdecl
          exact Ty.canonical_shapeOf List.Pairwise.nil (List.forall_mem_nil _)
        · obtain ⟨_, -, hdecl⟩ := bind_eq_ok_iff.mp hdecl
          obtain ⟨_, -, hdecl⟩ := bind_eq_ok_iff.mp hdecl
          obtain ⟨context, hcontext, hdecl⟩ := bind_eq_ok_iff.mp hdecl
          cases hdecl
          exact Scoping.canonical_of_shape hcontext

theorem Canonical.shapeOfType {s : Schema} (hs : s.Canonical) (t : EntityType) :
    (Ty.record (Checker.shapeOfType s t)).Canonical := by
  unfold Checker.shapeOfType
  split
  · rename_i d hd
    exact hs.types t d hd
  · exact .record List.Pairwise.nil fun _ _ => nofun

end Schema

/-- The contexts of the environments of a template are canonical. -/
theorem Template.canonical_context {s : Schema} {t : Template} (hs : s.Canonical) {env : RequestEnv}
    (henv : env ∈ t.environments s) : env.context.Canonical := by
  obtain ⟨decl, hdecl, henv⟩ := List.mem_flatMap.mp henv
  obtain ⟨principal, -, henv⟩ := List.mem_flatMap.mp henv
  obtain ⟨resource, -, rfl⟩ := List.mem_map.mp henv
  suffices hdeclared : ∃ uid, s.action? uid = some decl by
    obtain ⟨uid, huid⟩ := hdeclared
    exact hs.contexts uid decl huid
  unfold admittedActions at hdecl
  split at hdecl
  · exact SortedMap.mem_values_iff.mp hdecl
  · exact ⟨_, Option.mem_toList.mp hdecl⟩
  · obtain ⟨uid, -, huid⟩ := List.mem_filterMap.mp hdecl
    exact ⟨uid, huid⟩

/-! ## 2. Types of expressions -/

namespace Checker

variable {s : Schema}

theorem canonical_joinAll : ∀ {ts : List Ty} {first : Ty}, first.Canonical →
    (∀ t ∈ ts, t.Canonical) → (joinAll first ts).1.Canonical
  | [], _, hfirst, _ => hfirst
  | t :: ts, first, hfirst, hts => by
    obtain ⟨ht, hts⟩ := List.forall_mem_cons.mp hts
    simp only [joinAll]
    cases hjoin : first.join? t with
    | none => exact .any
    | some joined => exact canonical_joinAll (Ty.canonical_join? hfirst ht hjoin) hts

theorem keys_literalAttrs (l : List (String × Value)) :
    (literalAttrs s l).1.map Prod.fst = l.map Prod.fst := by
  induction l with
  | nil => rfl
  | cons p r ih => exact congrArg (p.1 :: ·) ih

mutual

theorem canonical_literal : ∀ v : Value, v.Canonical → (literal s v).1.Canonical
  | .bool _, _ => .bool
  | .long _, _ => .long
  | .string _, _ => .string
  | .entity _, _ => .entity
  | .set elems, h => .set (canonical_joinAll .never (canonical_literals elems h.2))
  | .record attrs, h => by
    refine .record ?_ fun name a ha => ?_
    · have hattrs := h.1
      rw [SortedList.ascending_iff_keys] at hattrs ⊢
      rw [keys_literalAttrs]
      exact hattrs
    · exact canonical_literalAttrs attrs h.2 _ (SortedList.mem_of_find? ha)
  | .ext _, _ => .extension

theorem canonical_literals : ∀ l : List Value, Value.CanonicalList l →
    ∀ t ∈ (literals s l).1, t.Canonical
  | [], _ => nofun
  | v :: r, h => List.forall_mem_cons.mpr ⟨canonical_literal v h.1, canonical_literals r h.2⟩

theorem canonical_literalAttrs : ∀ l : List (String × Value), Value.CanonicalFields l →
    ∀ p ∈ (literalAttrs s l).1, p.2.type.Canonical
  | [], _ => nofun
  | (_, v) :: r, h =>
    List.forall_mem_cons.mpr ⟨canonical_literal v h.1, canonical_literalAttrs r h.2⟩

end

theorem canonical_attrOfShape {shape : Shape Ty} {attr : String} {a : Attr Ty}
    (hshape : (Ty.record shape).Canonical) (h : (attrOfShape shape attr).1 = some a) :
    a.type.Canonical := by
  cases hshape with
  | record _ types =>
    by_cases ha : a.type = .any
    · rw [ha]
      exact .any
    · exact types attr a (get?_of_attrOfShape h ha)

theorem canonical_attrOf (hs : s.Canonical) {t : Ty} (ht : t.Canonical) {attr : String}
    {a : Attr Ty} (h : (attrOf s attr t).1 = some a) : a.type.Canonical := by
  cases ht with
  | any =>
    cases h
    exact .any
  | record ascending types => exact canonical_attrOfShape (.record ascending types) h
  | entity =>
    obtain ⟨as, has, htype, -, -⟩ := attrOf_entity h
    rw [htype]
    refine canonical_joinAll .never (List.forall_mem_map.mpr fun b hb => ?_)
    obtain ⟨t, -, hb⟩ := (mem_attrsOfTypes has).2 b hb
    exact canonical_attrOfShape (hs.shapeOfType t) hb
  | _ => cases h

theorem canonical_getAttr (hs : s.Canonical) {t : Ty} (ht : t.Canonical) {known : Facts}
    {owner : Expr} {attr : String} : (getAttr s known owner t attr).1.Canonical := by
  unfold getAttr
  rcases hattr : attrOf s attr t with ⟨_ | a, faults⟩
  · exact .any
  · exact canonical_attrOf hs ht (congrArg Prod.fst hattr)

theorem canonical_returnType (r : ReturnType) : (returnType r).Canonical := by
  cases r with
  | bool => exact .bool
  | extension kind => exact .extension

end Checker

namespace Expr

open Checker

variable {s : Schema} {env : RequestEnv}

/-- **The type of an expression is canonical**, when the declared types, the contexts and the
literals are. -/
theorem canonical_check (hs : s.Canonical) (henv : env.context.Canonical) {e : Expr}
    (he : e.Canonical) (known : Facts) : (e.check s env known).type.Canonical := by
  induction e using induction_children generalizing known with
  | step e ih =>
    have hchildren : ∀ c ∈ e.children, ∀ known, (c.check s env known).type.Canonical :=
      fun c hc known => ih c hc (he.child hc) known
    cases e with
    | value v => exact canonical_literal v he.self
    | var v =>
      cases v with
      | context => exact henv
      | _ => exact .entity
    | ite c y n =>
      simp only [check]
      refine canonical_joinAll .never ?_
      simp only [List.forall_mem_cons]
      exact ⟨hchildren y (by simp [children]) _, hchildren n (by simp [children]) _,
        List.forall_mem_nil _⟩
    | binary op l r => cases op <;> first | exact .bool | exact .long
    | getAttr e attr => exact canonical_getAttr hs (hchildren e (by simp [children]) known)
    | set items =>
      simp only [check, checkList_eq_map, List.map_map]
      refine .set (canonical_joinAll .never ?_)
      exact List.forall_mem_map.mpr fun c hc => hchildren c hc known
    | record attrs =>
      simp only [check, checkFields_eq_map, List.map_map]
      refine .record (SortedList.ascending_ofPairs _) fun name a ha => ?_
      have hmem := SortedList.mem_of_mem_ofPairs (SortedList.mem_of_find? ha)
      obtain ⟨f, hf, heq⟩ := List.mem_map.mp hmem
      cases heq
      exact hchildren f.2 (List.mem_map_of_mem hf) known
    | call name args =>
      simp only [check, Checker.call]
      split
      · exact .any
      · exact canonical_returnType _
    | neg _ => exact .long
    | _ => exact .bool

end Expr

end Arbiter
