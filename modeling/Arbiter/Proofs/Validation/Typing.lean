/-
# Values of types

When a value is of a type of the checker (`Value.HasType`), and what the operations on types do to
that.  Two facts about joins are needed throughout, and both are read off one description of what a
join is (`Ty.Joins`), so that nothing else looks into `join?`.

* A value of either type is of their join (`Joins.hasType_left`, `Joins.hasType_right`).
* A join says nothing less than the joined types do: when nothing of two types is unknown
  (`Ty.Definite`), nothing of their join is (`Joins.definite`).

When several types have no join, the checker goes on with `any` and a fault.  So the values of the
joined types are of the resulting type even then (`hasType_joinAll`), but only a join without faults
is definite (`definite_joinAll`).
-/
import Arbiter.Validation.Checker
import Arbiter.Proofs.Outcome

namespace Arbiter

open Outcome

/-! ## 1. Types of values -/

/-- The value is of the type.  Nothing is of the type `never`, and a record may have attributes that
its type does not mention. -/
inductive Value.HasType : Value → Ty → Prop
  | any {v : Value} : HasType v .any
  | bool {b : Bool} : HasType (.bool b) .bool
  | long {n : Int64} : HasType (.long n) .long
  | string {s : String} : HasType (.string s) .string
  | entity {uid : EntityUid} {types : SortedSet EntityType} (h : uid.type ∈ types) :
      HasType (.entity uid) (.entity types)
  | set {elems : List Value} {t : Ty} (h : ∀ v ∈ elems, HasType v t) :
      HasType (.set elems) (.set t)
  | record {attrs : List (String × Value)} {shape : Shape Ty}
      (type : ∀ name a v, shape.get? name = some a → SortedList.find? name attrs = some v →
        HasType v a.type)
      (present : ∀ name a, shape.get? name = some a → a.required = true →
        ∃ v, SortedList.find? name attrs = some v) :
      HasType (.record attrs) (.record shape)
  | ext {v : ExtensionValue} : HasType (.ext v) (.extension v.kind)

namespace Value.HasType

variable {v : Value}

theorem exists_bool (h : v.HasType .bool) : ∃ b, v = .bool b := by
  cases h
  exact ⟨_, rfl⟩

theorem exists_long (h : v.HasType .long) : ∃ n, v = .long n := by
  cases h
  exact ⟨_, rfl⟩

theorem exists_string (h : v.HasType .string) : ∃ s, v = .string s := by
  cases h
  exact ⟨_, rfl⟩

theorem exists_set {t : Ty} (h : v.HasType (.set t)) :
    ∃ elems, v = .set elems ∧ ∀ w ∈ elems, w.HasType t := by
  cases h with
  | set h => exact ⟨_, rfl, h⟩

theorem exists_entity {types : SortedSet EntityType} (h : v.HasType (.entity types)) :
    ∃ uid, v = .entity uid ∧ uid.type ∈ types := by
  cases h with
  | entity h => exact ⟨_, rfl, h⟩

theorem exists_ext {kind : ExtensionKind} (h : v.HasType (.extension kind)) :
    ∃ x, v = .ext x ∧ x.kind = kind := by
  cases h
  exact ⟨_, rfl, rfl⟩

theorem ofEntityType {uid : EntityUid} : (Value.entity uid).HasType (.ofEntityType uid.type) :=
  .entity (SortedSet.mem_def.mpr (List.mem_singleton_self _))

end Value.HasType

/-! ## 2. Joins -/

namespace Ty

/-- `c` is the join of `a` and `b`. -/
inductive Joins : Ty → Ty → Ty → Prop
  | anyLeft {t : Ty} : Joins .any t .any
  | anyRight {t : Ty} : Joins t .any .any
  | neverLeft {t : Ty} : Joins .never t t
  | neverRight {t : Ty} : Joins t .never t
  | same {t : Ty} : Joins t t t
  | entity {a b c : SortedSet EntityType} (h : ∀ t, t ∈ c ↔ t ∈ a ∨ t ∈ b) :
      Joins (.entity a) (.entity b) (.entity c)
  | set {a b c : Ty} (h : Joins a b c) : Joins (.set a) (.set b) (.set c)
  | record {a b c : Shape Ty}
      (both : ∀ name z, c.get? name = some z → ∃ x y, a.get? name = some x ∧
        b.get? name = some y ∧ (z.required = true → x.required = true ∧ y.required = true))
      (joins : ∀ name x y z, a.get? name = some x → b.get? name = some y →
        c.get? name = some z → Joins x.type y.type z.type) :
      Joins (.record a) (.record b) (.record c)

/-- The attributes of a join of records: those of both, with the joins of their types. -/
theorem find?_joinAttrs? {name : String} {z : Attr Ty} : ∀ {a b c : List (String × Attr Ty)},
    joinAttrs? a b = some c → SortedList.find? name c = some z →
      ∃ x y, SortedList.find? name a = some x ∧ SortedList.find? name b = some y ∧
        x.type.join? y.type = some z.type ∧ z.required = (x.required && y.required)
  | [], _, _, h, hz => by
    simp only [joinAttrs?, Option.some.injEq] at h
    rw [← h] at hz
    cases hz
  | (k, ⟨type, required⟩) :: r, b, c, h, hz => by
    simp only [joinAttrs?] at h
    cases hk : SortedList.find? k b with
    | none =>
      rw [hk] at h
      obtain ⟨x, y, hx, hy, hxy⟩ := find?_joinAttrs? h hz
      have hne : compare name k ≠ .eq := by
        intro heq
        rw [Std.LawfulEqCmp.eq_of_compare heq, hk] at hy
        cases hy
      refine ⟨x, y, ?_, hy, hxy⟩
      simp only [SortedList.find?, if_neg hne]
      exact hx
    | some other =>
      rw [hk] at h
      obtain ⟨joined, hjoined, h⟩ := Option.bind_eq_some_iff.mp h
      obtain ⟨rest, hrest, h⟩ := Option.bind_eq_some_iff.mp h
      cases h
      simp only [SortedList.find?] at hz ⊢
      split at hz
      · rename_i heq
        cases hz
        rw [Std.LawfulEqCmp.eq_of_compare heq, if_pos Std.ReflCmp.compare_self]
        exact ⟨_, other, rfl, hk, hjoined, rfl⟩
      · rename_i hne
        rw [if_neg hne]
        exact find?_joinAttrs? hrest hz

/-- The size of a type of an attribute, so that types can be gone through by attributes. -/
theorem sizeOf_lt_of_find? {name : String} {a : Attr Ty} {attrs : List (String × Attr Ty)}
    (h : SortedList.find? name attrs = some a) : sizeOf a.type < sizeOf attrs := by
  have hlt := List.sizeOf_lt_of_mem (SortedList.mem_of_find? h)
  obtain ⟨type, required⟩ := a
  simp only [Prod.mk.sizeOf_spec, Attr.mk.sizeOf_spec] at hlt ⊢
  omega

theorem sizeOf_type_lt {shape : Shape Ty} {name : String} {x : Attr Ty}
    (h : shape.get? name = some x) : sizeOf x.type < sizeOf (Ty.record shape) := by
  have hlt : sizeOf x.type < sizeOf shape.attrs := sizeOf_lt_of_find? h
  have hshape : sizeOf shape = 1 + sizeOf shape.attrs + sizeOf shape.isOpen := rfl
  rw [record.sizeOf_spec]
  omega

theorem never_join? (t : Ty) : Ty.never.join? t = some t := by
  cases t <;> rfl

theorem join?_never (t : Ty) : t.join? .never = some t := by
  cases t <;> rfl

theorem any_join? (t : Ty) : Ty.any.join? t = some .any := by
  cases t <;> rfl

theorem join?_any (t : Ty) : t.join? .any = some .any := by
  cases t <;> rfl

/-- How two types are joined. -/
inductive JoinStep : Ty → Ty → Ty → Prop
  | anyLeft {t : Ty} : JoinStep .any t .any
  | anyRight {t : Ty} : JoinStep t .any .any
  | neverLeft {t : Ty} : JoinStep .never t t
  | neverRight {t : Ty} : JoinStep t .never t
  | same {t : Ty} : JoinStep t t t
  | entity {a b : SortedSet EntityType} : JoinStep (.entity a) (.entity b) (.entity (a.union b))
  | set {a b c : Ty} (h : a.join? b = some c) : JoinStep (.set a) (.set b) (.set c)
  | record {a b : Shape Ty} {c : Ty} (h : (Ty.record a).join? (.record b) = some c) :
      JoinStep (.record a) (.record b) c

/-- Types that have a join are joined in one of these ways. -/
theorem joinStep_of_join? {a b c : Ty} (h : a.join? b = some c) : JoinStep a b c := by
  cases a with
  | never =>
    rw [never_join?] at h
    cases h
    exact .neverLeft
  | any =>
    rw [any_join?] at h
    cases h
    exact .anyLeft
  | bool | long | string =>
    cases b <;> cases h
    · exact .neverRight
    · exact .anyRight
    · exact .same
  | entity a =>
    cases b <;> cases h
    · exact .neverRight
    · exact .anyRight
    · exact .entity
  | extension kind =>
    cases b with
    | never =>
      cases h
      exact .neverRight
    | any =>
      cases h
      exact .anyRight
    | extension kind' =>
      simp only [join?] at h
      split at h
      · rename_i heq
        cases h
        exact heq ▸ .same
      · cases h
    | _ => cases h
  | set a =>
    cases b with
    | never =>
      cases h
      exact .neverRight
    | any =>
      cases h
      exact .anyRight
    | set b =>
      obtain ⟨c, hc, rfl⟩ := Option.map_eq_some_iff.mp h
      exact .set hc
    | _ => cases h
  | record a =>
    cases b with
    | never =>
      cases h
      exact .neverRight
    | any =>
      cases h
      exact .anyRight
    | record b => exact .record h
    | _ => cases h

/-- **What `join?` yields is a join.** -/
theorem joins_of_join? {a b c : Ty} (h : a.join? b = some c) : Joins a b c := by
  induction hsize : sizeOf a using Nat.strongRecOn generalizing a b c with
  | ind n ih =>
    subst hsize
    cases joinStep_of_join? h with
    | anyLeft => exact .anyLeft
    | anyRight => exact .anyRight
    | neverLeft => exact .neverLeft
    | neverRight => exact .neverRight
    | same => exact .same
    | entity => exact .entity fun t => by rw [SortedSet.mem_union, or_comm]
    | set hjoin => exact .set (ih _ (by simp) hjoin rfl)
    | record h =>
      obtain ⟨attrs, hattrs, h⟩ := Option.bind_eq_some_iff.mp h
      cases h
      refine .record ?_ ?_
      · intro name z hz
        obtain ⟨x, y, hx, hy, -, hrequired⟩ := find?_joinAttrs? hattrs hz
        refine ⟨x, y, hx, hy, fun hz => ?_⟩
        rw [hrequired, Bool.and_eq_true] at hz
        exact hz
      · intro name x y z hx hy hz
        obtain ⟨x', y', hx', hy', hjoin, -⟩ := find?_joinAttrs? hattrs hz
        cases hx.symm.trans hx'
        cases hy.symm.trans hy'
        exact ih _ (sizeOf_type_lt hx) hjoin rfl

namespace Joins

variable {a b c : Ty} {v : Value}

/-- The values of the left type are of the join. -/
theorem hasType_left (h : Joins a b c) (hv : v.HasType a) : v.HasType c := by
  induction h generalizing v with
  | anyLeft => exact .any
  | anyRight => exact .any
  | neverLeft => cases hv
  | neverRight => exact hv
  | same => exact hv
  | entity h =>
    obtain ⟨uid, rfl, huid⟩ := hv.exists_entity
    exact .entity ((h _).mpr (Or.inl huid))
  | set _ ih =>
    obtain ⟨elems, rfl, helems⟩ := hv.exists_set
    exact .set fun w hw => ih (helems w hw)
  | record both _ ih =>
    cases hv with
    | record type present =>
      refine .record ?_ ?_
      · intro name z w hz hw
        obtain ⟨x, y, hx, hy, -⟩ := both name z hz
        exact ih name x y z hx hy hz (type name x w hx hw)
      · intro name z hz hrequired
        obtain ⟨x, y, hx, -, hxy⟩ := both name z hz
        exact present name x hx (hxy hrequired).1

/-- Which of the two types comes first does not matter. -/
theorem symm (h : Joins a b c) : Joins b a c := by
  induction h with
  | anyLeft => exact .anyRight
  | anyRight => exact .anyLeft
  | neverLeft => exact .neverRight
  | neverRight => exact .neverLeft
  | same => exact .same
  | entity h => exact .entity fun t => by rw [h, or_comm]
  | set _ ih => exact .set ih
  | record both _ ih =>
    refine .record ?_ ?_
    · intro name z hz
      obtain ⟨x, y, hx, hy, hxy⟩ := both name z hz
      exact ⟨y, x, hy, hx, fun hrequired => (hxy hrequired).symm⟩
    · intro name y x z hy hx hz
      exact ih name x y z hx hy hz

/-- The values of the right type are of the join. -/
theorem hasType_right (h : Joins a b c) (hv : v.HasType b) : v.HasType c := h.symm.hasType_left hv

/-- A join with something unknown is unknown. -/
theorem ne_any (h : Joins a b c) (hc : c ≠ .any) : a ≠ .any ∧ b ≠ .any := by
  cases h with
  | anyLeft => exact absurd rfl hc
  | anyRight => exact absurd rfl hc
  | neverLeft => exact ⟨nofun, hc⟩
  | neverRight => exact ⟨hc, nofun⟩
  | same => exact ⟨hc, hc⟩
  | entity _ => exact ⟨nofun, nofun⟩
  | set _ => exact ⟨nofun, nofun⟩
  | record _ _ => exact ⟨nofun, nofun⟩

end Joins

/-! ## 3. Definite types -/

/-- No part of the type is unknown. -/
inductive Definite : Ty → Prop
  | never : Definite .never
  | bool : Definite .bool
  | long : Definite .long
  | string : Definite .string
  | entity {types : SortedSet EntityType} : Definite (.entity types)
  | extension {kind : ExtensionKind} : Definite (.extension kind)
  | set {t : Ty} (h : Definite t) : Definite (.set t)
  | record {shape : Shape Ty}
      (h : ∀ name a, shape.get? name = some a → Definite a.type) : Definite (.record shape)

theorem Definite.ne_any {t : Ty} (h : t.Definite) : t ≠ .any := by
  rintro rfl
  cases h

/-- A join of definite types is definite. -/
theorem Joins.definite {a b c : Ty} (h : Joins a b c) (ha : a.Definite) (hb : b.Definite) :
    c.Definite := by
  induction h with
  | anyLeft => cases ha
  | anyRight => cases hb
  | neverLeft => exact hb
  | neverRight => exact ha
  | same => exact ha
  | entity _ => exact .entity
  | set _ ih =>
    cases ha with
    | set ha =>
      cases hb with
      | set hb => exact .set (ih ha hb)
  | record both _ ih =>
    cases ha with
    | record ha =>
      cases hb with
      | record hb =>
        refine .record fun name z hz => ?_
        obtain ⟨x, y, hx, hy, -⟩ := both name z hz
        exact ih name x y z hx hy hz (ha name x hx) (hb name y hy)

end Ty

/-! ## 4. Joins of several types -/

namespace Checker

open Ty

/-- Values of the first type or of one of the others are of the join of all, also when there is
none. -/
theorem hasType_joinAll {v : Value} : ∀ {ts : List Ty} {first : Ty},
    (v.HasType first ∨ ∃ t ∈ ts, v.HasType t) → v.HasType (joinAll first ts).1
  | [], _, h => h.elim id fun ⟨_, ht, _⟩ => nomatch ht
  | t :: ts, first, h => by
    simp only [joinAll]
    cases hjoin : first.join? t with
    | none => exact .any
    | some joined =>
      have hj := joins_of_join? hjoin
      refine hasType_joinAll ?_
      rcases h with hv | ⟨t', ht', hv⟩
      · exact Or.inl (hj.hasType_left hv)
      · rcases List.mem_cons.mp ht' with rfl | ht'
        · exact Or.inl (hj.hasType_right hv)
        · exact Or.inr ⟨t', ht', hv⟩

/-- What is known of all is known of each. -/
theorem ne_any_of_joinAll : ∀ {ts : List Ty} {first : Ty}, (joinAll first ts).1 ≠ .any →
    first ≠ .any ∧ ∀ t ∈ ts, t ≠ .any
  | [], _, h => ⟨h, nofun⟩
  | t :: ts, first, h => by
    simp only [joinAll] at h
    cases hjoin : first.join? t with
    | none =>
      rw [hjoin] at h
      exact absurd rfl h
    | some joined =>
      rw [hjoin] at h
      obtain ⟨hjoined, hts⟩ := ne_any_of_joinAll h
      obtain ⟨hfirst, ht⟩ := (joins_of_join? hjoin).ne_any hjoined
      exact ⟨hfirst, List.forall_mem_cons.mpr ⟨ht, hts⟩⟩

/-- Definite types that can be joined have a definite join. -/
theorem definite_joinAll : ∀ {ts : List Ty} {first : Ty}, first.Definite →
    (∀ t ∈ ts, t.Definite) → (joinAll first ts).2 = [] → (joinAll first ts).1.Definite
  | [], _, hfirst, _, _ => hfirst
  | t :: ts, first, hfirst, hts, h => by
    simp only [joinAll] at h ⊢
    obtain ⟨ht, hts⟩ := List.forall_mem_cons.mp hts
    cases hjoin : first.join? t with
    | none =>
      rw [hjoin] at h
      cases h
    | some joined =>
      rw [hjoin] at h
      exact definite_joinAll ((joins_of_join? hjoin).definite hfirst ht) hts h

end Checker

end Arbiter
