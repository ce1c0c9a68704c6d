/-
# Joins are bounds

The attributes of a record type are a map, kept as a list in the order of the names; that is what
`Ty.Canonical` says of all records in a type.  On such types the join of two records is settled
name by name (`Ty.joinAttrs?_eq_some_iff`), and what it has under a name (`Ty.JoinsAt`) does not
depend on which record comes first.  So joins commute (`Ty.join?_comm`), and a type is its own join
(`Ty.join?_self`).

A value inhabits a type (`Value.Inhabits`) when it is of the type and has no attributes that a
closed record does not mention.  A join of records is closed only when both are and it is as long
as each of them; then it mentions all that they mention (`Ty.exists_get?_of_length_eq`).  So every
value of either type is one of the join (`Value.Inhabits.join?_left`,
`Value.Inhabits.join?_right`), and the same holds of the join of several types
(`Checker.inhabits_joinAll`).
-/
import Arbiter.Proofs.Validation.Typing
import Mathlib.Data.List.Perm.Subperm

namespace Arbiter

/-! ## 1. Maps with the same keys -/

/-- A map with as many keys as another one, all of them from there, has the same keys. -/
theorem SortedMap.find?_of_size_eq {κ α β : Type} [Ord κ] [Std.TransOrd κ] [Std.LawfulEqOrd κ]
    {m : SortedMap κ α} {n : SortedMap κ β}
    (hsub : ∀ k v, m.find? k = some v → ∃ w, n.find? k = some w) (hsize : m.size = n.size)
    {k : κ} {w : β} (hw : n.find? k = some w) : ∃ v, m.find? k = some v := by
  have hsubset : m.keys ⊆ n.keys := by
    intro k hk
    obtain ⟨v, hv⟩ := mem_keys_iff.mp hk
    exact mem_keys_iff.mpr (hsub k v hv)
  have hle : n.keys.length ≤ m.keys.length := by
    unfold keys
    rw [List.length_map, List.length_map]
    exact Nat.le_of_eq hsize.symm
  have hperm : m.keys.Perm n.keys := ((nodup_keys m).subperm hsubset).perm_of_length_le hle
  exact mem_keys_iff.mp (hperm.mem_iff.mpr (mem_keys_iff.mpr ⟨w, hw⟩))

/-- Maps with the same keys have as many of them. -/
theorem SortedMap.size_eq {κ α β : Type} [Ord κ] [Std.TransOrd κ] [Std.LawfulEqOrd κ]
    {m : SortedMap κ α} {n : SortedMap κ β}
    (h : ∀ k, (∃ v, m.find? k = some v) ↔ ∃ w, n.find? k = some w) : m.size = n.size := by
  have hperm : m.keys.Perm n.keys :=
    (List.perm_ext_iff_of_nodup (nodup_keys m) (nodup_keys n)).mpr fun k =>
      mem_keys_iff.trans ((h k).trans mem_keys_iff.symm)
  have hlength := hperm.length_eq
  unfold keys at hlength
  rw [List.length_map, List.length_map] at hlength
  exact hlength

namespace Ty

/-! ## 2. Types in canonical form -/

/-- The attributes of every record are a map: they stand in the order of their names, each once. -/
inductive Canonical : Ty → Prop
  | never : Canonical .never
  | any : Canonical .any
  | bool : Canonical .bool
  | long : Canonical .long
  | string : Canonical .string
  | entity {types : SortedSet EntityType} : Canonical (.entity types)
  | extension {kind : ExtensionKind} : Canonical (.extension kind)
  | set {t : Ty} (h : Canonical t) : Canonical (.set t)
  | record {shape : Shape Ty} (ascending : SortedList.Ascending shape.attrs)
      (types : ∀ name a, shape.get? name = some a → Canonical a.type) : Canonical (.record shape)

/-! ## 3. Joins of records, name by name -/

/-- What the join of two records has under a name, by what the two have there. -/
inductive JoinsAt : Option (Attr Ty) → Option (Attr Ty) → Option (Attr Ty) → Prop
  | notLeft {y : Option (Attr Ty)} : JoinsAt none y none
  | notRight {x : Option (Attr Ty)} : JoinsAt x none none
  | both {x y z : Attr Ty} (type : x.type.join? y.type = some z.type)
      (required : z.required = (x.required && y.required)) : JoinsAt (some x) (some y) (some z)

variable {a b c : List (String × Attr Ty)} {x y z z' : Option (Attr Ty)}

theorem JoinsAt.unique (h : JoinsAt x y z) (h' : JoinsAt x y z') : z = z' := by
  cases h with
  | notLeft => cases h' <;> rfl
  | notRight => cases h' <;> rfl
  | @both x y z type required =>
    cases h' with
    | @both _ _ z' type' required' =>
      have htype : z.type = z'.type := Option.some.inj (type.symm.trans type')
      have hrequired : z.required = z'.required := required.trans required'.symm
      cases z
      cases z'
      cases htype
      cases hrequired
      rfl

theorem JoinsAt.exists_of_both (h : JoinsAt x y z) {x' y' : Attr Ty} (hx : x = some x')
    (hy : y = some y') : ∃ t, x'.type.join? y'.type = some t := by
  subst hx hy
  cases h with
  | both type _ => exact ⟨_, type⟩

theorem JoinsAt.exists_of_some (h : JoinsAt x y z) {z' : Attr Ty} (hz : z = some z') :
    ∃ x' y', x = some x' ∧ y = some y' ∧ x'.type.join? y'.type = some z'.type ∧
      z'.required = (x'.required && y'.required) := by
  subst hz
  cases h with
  | both type required => exact ⟨_, _, rfl, rfl, type, required⟩

theorem joinAttrs?_cons_of_none {k : String} {x : Attr Ty} (h : SortedList.find? k b = none)
    (r : List (String × Attr Ty)) : joinAttrs? ((k, x) :: r) b = joinAttrs? r b := by
  simp only [joinAttrs?, h]

theorem joinAttrs?_cons_of_some {k : String} {x y : Attr Ty} (h : SortedList.find? k b = some y)
    (r : List (String × Attr Ty)) :
    joinAttrs? ((k, x) :: r) b = (x.type.join? y.type).bind fun type =>
      (joinAttrs? r b).bind fun rest => some ((k, ⟨type, x.required && y.required⟩) :: rest) := by
  simp only [joinAttrs?, h]
  rfl

/-- The names of a join are among those of the first record, in their order. -/
theorem keys_joinAttrs? : ∀ {a c : List (String × Attr Ty)}, joinAttrs? a b = some c →
    (c.map Prod.fst).Sublist (a.map Prod.fst)
  | [], _, h => by
    cases h
    exact List.nil_sublist _
  | (k, x) :: r, c, h => by
    cases hfind : SortedList.find? k b with
    | none =>
      rw [joinAttrs?_cons_of_none hfind] at h
      exact (keys_joinAttrs? h).cons k
    | some y =>
      rw [joinAttrs?_cons_of_some hfind] at h
      obtain ⟨type, -, h⟩ := Option.bind_eq_some_iff.mp h
      obtain ⟨rest, hrest, h⟩ := Option.bind_eq_some_iff.mp h
      cases h
      exact (keys_joinAttrs? hrest).cons_cons k

theorem ascending_joinAttrs? (ha : SortedList.Ascending a) (h : joinAttrs? a b = some c) :
    SortedList.Ascending c := by
  rw [SortedList.ascending_iff_keys] at ha ⊢
  exact List.Pairwise.sublist (keys_joinAttrs? h) ha

/-- An attribute that both records have is not left out. -/
theorem exists_find?_joinAttrs? {name : String} {y : Attr Ty}
    (hy : SortedList.find? name b = some y) : ∀ {a c : List (String × Attr Ty)} {x : Attr Ty},
      joinAttrs? a b = some c → SortedList.find? name a = some x →
        ∃ z, SortedList.find? name c = some z
  | (k, x) :: r, c, x', h, hx => by
    cases hfind : SortedList.find? k b with
    | none =>
      rw [joinAttrs?_cons_of_none hfind] at h
      have hne : ¬ compare name k = .eq := by
        intro heq
        rw [Std.LawfulEqCmp.eq_of_compare heq, hfind] at hy
        cases hy
      rw [SortedList.find?, if_neg hne] at hx
      exact exists_find?_joinAttrs? hy h hx
    | some y' =>
      rw [joinAttrs?_cons_of_some hfind] at h
      obtain ⟨type, -, h⟩ := Option.bind_eq_some_iff.mp h
      obtain ⟨rest, hrest, h⟩ := Option.bind_eq_some_iff.mp h
      cases h
      rw [SortedList.find?] at hx ⊢
      split at hx
      · exact ⟨_, if_pos ‹_›⟩
      · rw [if_neg ‹_›]
        exact exists_find?_joinAttrs? hy hrest hx

/-- A join has what it should have under each name. -/
theorem joinsAt_of_joinAttrs? (h : joinAttrs? a b = some c) (name : String) :
    JoinsAt (SortedList.find? name a) (SortedList.find? name b) (SortedList.find? name c) := by
  cases hz : SortedList.find? name c with
  | some z =>
    obtain ⟨x, y, hx, hy, htype, hrequired⟩ := find?_joinAttrs? h hz
    rw [hx, hy]
    exact .both htype hrequired
  | none =>
    cases hx : SortedList.find? name a with
    | none => exact .notLeft
    | some x =>
      cases hy : SortedList.find? name b with
      | none => exact .notRight
      | some y =>
        obtain ⟨z, hz'⟩ := exists_find?_joinAttrs? hy h hx
        rw [hz] at hz'
        cases hz'

/-- Records have a join when all attributes that both have do. -/
theorem exists_joinAttrs? : ∀ {a : List (String × Attr Ty)}, SortedList.Ascending a →
    (∀ name x y, SortedList.find? name a = some x → SortedList.find? name b = some y →
      ∃ t, x.type.join? y.type = some t) → ∃ c, joinAttrs? a b = some c
  | [], _, _ => ⟨[], rfl⟩
  | (k, x) :: r, ha, hjoin => by
    obtain ⟨hk, hr⟩ := List.pairwise_cons.mp ha
    have hrest : ∃ c, joinAttrs? r b = some c := by
      refine exists_joinAttrs? hr fun name x' y hx' hy => hjoin name x' y ?_ hy
      have hmem := SortedList.mem_of_find? hx'
      exact (SortedList.find?_eq_some_iff ha).mpr (List.mem_cons_of_mem _ hmem)
    obtain ⟨rest, hrest⟩ := hrest
    cases hfind : SortedList.find? k b with
    | none => exact ⟨rest, (joinAttrs?_cons_of_none hfind r).trans hrest⟩
    | some y =>
      obtain ⟨type, htype⟩ := hjoin k x y (if_pos Std.ReflCmp.compare_self) hfind
      refine ⟨(k, ⟨type, x.required && y.required⟩) :: rest, ?_⟩
      rw [joinAttrs?_cons_of_some hfind, htype, hrest]
      rfl

/-- **The join of two records is settled name by name.** -/
theorem joinAttrs?_eq_some_iff (ha : SortedList.Ascending a) :
    joinAttrs? a b = some c ↔ SortedList.Ascending c ∧ ∀ name,
      JoinsAt (SortedList.find? name a) (SortedList.find? name b) (SortedList.find? name c) := by
  refine ⟨fun h => ⟨ascending_joinAttrs? ha h, joinsAt_of_joinAttrs? h⟩, ?_⟩
  rintro ⟨hc, hjoins⟩
  -- There is a join, and both it and `c` are determined by their look-ups.
  obtain ⟨c', hc'⟩ : ∃ c', joinAttrs? a b = some c' :=
    exists_joinAttrs? ha fun name _ _ hx hy => (hjoins name).exists_of_both hx hy
  have heq : c' = c := SortedList.eq_of_find?_eq (ascending_joinAttrs? ha hc') hc fun name =>
    (joinsAt_of_joinAttrs? hc' name).unique (hjoins name)
  rw [hc', heq]

/-- A record joins with a record of which the attributes are the joins; it is closed when both are
and nothing was left out. -/
theorem join?_record_eq_some_iff {a b : Shape Ty} {t : Ty} (ha : SortedList.Ascending a.attrs) :
    (Ty.record a).join? (.record b) = some t ↔ ∃ c : Shape Ty, t = .record c ∧
      SortedList.Ascending c.attrs ∧ (∀ name, JoinsAt (a.get? name) (b.get? name) (c.get? name)) ∧
      c.isOpen = (a.isOpen || b.isOpen || c.attrs.length != a.attrs.length
        || c.attrs.length != b.attrs.length) := by
  obtain ⟨a, aOpen⟩ := a
  obtain ⟨b, bOpen⟩ := b
  simp only [join?, Option.bind_eq_bind, Option.bind_eq_some_iff, joinAttrs?_eq_some_iff ha,
    Option.pure_def, Option.some.injEq]
  constructor
  · rintro ⟨c, ⟨hc, hjoins⟩, rfl⟩
    exact ⟨⟨c, _⟩, rfl, hc, hjoins, rfl⟩
  · rintro ⟨⟨c, cOpen⟩, rfl, hc, hjoins, hopen⟩
    exact ⟨c, ⟨hc, hjoins⟩, congrArg (fun o => Ty.record ⟨c, o⟩) hopen.symm⟩

/-! ## 4. Joins commute -/

/-- Which of two attributes comes first does not matter when it does not for their types. -/
theorem JoinsAt.symm (h : JoinsAt x y z)
    (hcomm : ∀ x' ∈ x, ∀ y' ∈ y, x'.type.join? y'.type = y'.type.join? x'.type) :
    JoinsAt y x z := by
  cases h with
  | notLeft => exact .notRight
  | notRight => exact .notLeft
  | both type required =>
    exact .both ((hcomm _ rfl _ rfl).symm.trans type) (required.trans (Bool.and_comm _ _))

variable {A B C : Ty}

/-- **Joins commute.** -/
theorem join?_comm (hA : A.Canonical) (hB : B.Canonical) : A.join? B = B.join? A := by
  induction hA generalizing B with
  | never => rw [never_join?, join?_never]
  | any => rw [any_join?, join?_any]
  | bool => cases hB <;> rfl
  | long => cases hB <;> rfl
  | string => cases hB <;> rfl
  | @entity types =>
    cases hB with
    | @entity types' =>
      have hunion : types.union types' = types'.union types := SortedSet.eq_of_mem_iff fun t => by
        rw [SortedSet.mem_union, SortedSet.mem_union, or_comm]
      exact congrArg (fun types => some (Ty.entity types)) hunion
    | _ => rfl
  | @extension kind =>
    cases hB with
    | @extension kind' =>
      by_cases h : kind = kind'
      · rw [h]
      · simp only [join?, if_neg h, if_neg (Ne.symm h)]
    | _ => rfl
  | set _ ih =>
    cases hB with
    | set hB => exact congrArg (Option.map Ty.set) (ih hB)
    | _ => rfl
  | @record a ascending types ih =>
    cases hB with
    | @record b ascending' types' =>
      -- Both joins are described alike: name by name, and the tests for openness in another order.
      refine Option.ext fun t => ?_
      rw [join?_record_eq_some_iff ascending, join?_record_eq_some_iff ascending']
      refine exists_congr fun c => and_congr_right fun _ => and_congr_right fun _ =>
        and_congr (forall_congr' fun name => ?_) ?_
      · have hcomm : ∀ x ∈ a.get? name, ∀ y ∈ b.get? name,
            x.type.join? y.type = y.type.join? x.type :=
          fun x hx y hy => ih name x hx (types' name y hy)
        exact ⟨fun h => h.symm hcomm, fun h => h.symm fun y hy x hx => (hcomm x hx y hy).symm⟩
      · rw [Bool.or_comm a.isOpen, Bool.or_right_comm]
    | _ => rfl

/-- **A type is its own join.** -/
theorem join?_self (hA : A.Canonical) : A.join? A = some A := by
  induction hA with
  | never | any | bool | long | string => rfl
  | @entity types =>
    have hunion : types.union types = types := SortedSet.eq_of_mem_iff fun t => by
      rw [SortedSet.mem_union, or_self]
    exact congrArg (fun types => some (Ty.entity types)) hunion
  | extension => exact if_pos rfl
  | set _ ih => exact congrArg (Option.map Ty.set) ih
  | @record shape ascending _ ih =>
    refine (join?_record_eq_some_iff ascending).mpr ⟨shape, rfl, ascending, fun name => ?_, ?_⟩
    · cases hx : shape.get? name with
      | none => exact .notLeft
      | some x => exact .both (ih name x hx) (Bool.and_self _).symm
    · simp

/-! ## 5. Values of joins -/

/-- A join is in canonical form. -/
theorem canonical_join? (hA : A.Canonical) (hB : B.Canonical) (h : A.join? B = some C) :
    C.Canonical := by
  induction hsize : sizeOf A using Nat.strongRecOn generalizing A B C with
  | ind n ih =>
    subst hsize
    cases joinStep_of_join? h with
    | anyLeft | anyRight => exact .any
    | neverLeft => exact hB
    | neverRight | same => exact hA
    | entity => exact .entity
    | set hjoin =>
      cases hA with
      | set hA =>
        cases hB with
        | set hB => exact .set (ih _ (by simp) hA hB hjoin rfl)
    | record h =>
      cases hA with
      | record ascending types =>
        cases hB with
        | record _ types' =>
          obtain ⟨c, rfl, hc, hjoins, -⟩ := (join?_record_eq_some_iff ascending).mp h
          refine .record hc fun name z hz => ?_
          obtain ⟨x, y, hx, hy, htype, -⟩ := (hjoins name).exists_of_some hz
          exact ih _ (sizeOf_type_lt hx) (types name x hx) (types' name y hy) htype rfl

/-- A join of records is closed only when the first one is and nothing of it was left out. -/
theorem closed_of_join {a b c : Shape Ty}
    (hopen : c.isOpen = (a.isOpen || b.isOpen || c.attrs.length != a.attrs.length
      || c.attrs.length != b.attrs.length)) (hc : c.isOpen = false) :
    a.isOpen = false ∧ c.attrs.length = a.attrs.length := by
  rw [hc] at hopen
  simp only [Bool.false_eq, Bool.or_eq_false_iff, bne_eq_false_iff_eq] at hopen
  obtain ⟨⟨⟨ha, -⟩, hlen⟩, -⟩ := hopen
  exact ⟨ha, hlen⟩

/-- A join with as many attributes as the first record has the attributes of that record. -/
theorem exists_get?_of_length_eq {a b c : Shape Ty} (ha : SortedList.Ascending a.attrs)
    (hc : SortedList.Ascending c.attrs)
    (hjoins : ∀ name, JoinsAt (a.get? name) (b.get? name) (c.get? name))
    (hlen : c.attrs.length = a.attrs.length) {name : String} {x : Attr Ty}
    (hx : a.get? name = some x) : ∃ z, c.get? name = some z := by
  refine @SortedMap.find?_of_size_eq _ _ _ _ _ _ ⟨c.attrs, hc⟩ ⟨a.attrs, ha⟩ ?_ hlen name x hx
  intro k z hz
  obtain ⟨x, -, hx, -⟩ := (hjoins k).exists_of_some hz
  exact ⟨x, hx⟩

end Ty

/-- The value inhabits the type: every value is of the type `any` and none of `never`; a record has
the attributes of its type, those that are not required perhaps, and others only when the type is
open. -/
inductive Value.Inhabits : Value → Ty → Prop
  | any {v : Value} : Inhabits v .any
  | bool {b : Bool} : Inhabits (.bool b) .bool
  | long {n : Int64} : Inhabits (.long n) .long
  | string {s : String} : Inhabits (.string s) .string
  | entity {uid : EntityUid} {types : SortedSet EntityType} (h : uid.type ∈ types) :
      Inhabits (.entity uid) (.entity types)
  | set {elems : List Value} {t : Ty} (h : ∀ v ∈ elems, Inhabits v t) :
      Inhabits (.set elems) (.set t)
  | record {attrs : List (String × Value)} {shape : Shape Ty}
      (type : ∀ name a v, shape.get? name = some a → SortedList.find? name attrs = some v →
        Inhabits v a.type)
      (present : ∀ name a, shape.get? name = some a → a.required = true →
        ∃ v, SortedList.find? name attrs = some v)
      (declared : shape.isOpen = false → ∀ name v, SortedList.find? name attrs = some v →
        ∃ a, shape.get? name = some a) :
      Inhabits (.record attrs) (.record shape)
  | ext {v : ExtensionValue} : Inhabits (.ext v) (.extension v.kind)

namespace Value.Inhabits

variable {A B C : Ty} {v : Value}

/-- A value that inhabits a type is of the type. -/
theorem hasType (h : v.Inhabits A) : v.HasType A := by
  induction h with
  | any => exact .any
  | bool => exact .bool
  | long => exact .long
  | string => exact .string
  | entity h => exact .entity h
  | set _ ih => exact .set ih
  | record _ present _ ih => exact .record ih present
  | ext => exact .ext

/-- The values of the first type are of the join. -/
theorem join?_left (hA : A.Canonical) (h : A.join? B = some C) (hv : v.Inhabits A) :
    v.Inhabits C := by
  induction hsize : sizeOf A using Nat.strongRecOn generalizing A B C v with
  | ind n ih =>
    subst hsize
    cases Ty.joinStep_of_join? h with
    | anyLeft | anyRight => exact .any
    | neverLeft => cases hv
    | neverRight | same => exact hv
    | entity =>
      cases hv with
      | entity huid => exact .entity (SortedSet.mem_union.mpr (Or.inr huid))
    | set hjoin =>
      cases hA with
      | set hA =>
        cases hv with
        | set helems => exact .set fun w hw => ih _ (by simp) hA hjoin (helems w hw) rfl
    | @record a b _ h =>
      cases hA with
      | record ascending types =>
        cases hv with
        | @record attrs _ type present declared =>
          obtain ⟨c, rfl, hc, hjoins, hopen⟩ := (Ty.join?_record_eq_some_iff ascending).mp h
          refine .record ?_ ?_ ?_
          · intro name z w hz hw
            obtain ⟨x, y, hx, -, htype, -⟩ := (hjoins name).exists_of_some hz
            exact ih _ (Ty.sizeOf_type_lt hx) (types name x hx) htype (type name x w hx hw) rfl
          · intro name z hz hrequired
            obtain ⟨x, y, hx, -, -, hxy⟩ := (hjoins name).exists_of_some hz
            rw [hrequired] at hxy
            exact present name x hx (Bool.and_eq_true_iff.mp hxy.symm).1
          · -- The join is closed, so that nothing of the first record was left out of it.
            intro hclosed name w hw
            obtain ⟨haclosed, hlen⟩ := Ty.closed_of_join hopen hclosed
            obtain ⟨x, hx⟩ := declared haclosed name w hw
            exact Ty.exists_get?_of_length_eq ascending hc hjoins hlen hx

/-- The values of the second type are of the join. -/
theorem join?_right (hA : A.Canonical) (hB : B.Canonical) (h : A.join? B = some C)
    (hv : v.Inhabits B) : v.Inhabits C :=
  join?_left hB ((Ty.join?_comm hA hB).symm.trans h) hv

end Value.Inhabits

/-- **Joins are sound.**  A type is its own join, which of two types comes first does not matter,
and every value of either type is of their join. -/
theorem Ty.join?_sound :
    (∀ A : Ty, A.Canonical → A.join? A = some A) ∧
    (∀ A B : Ty, A.Canonical → B.Canonical → A.join? B = B.join? A) ∧
    ∀ A B C : Ty, A.Canonical → B.Canonical → A.join? B = some C →
      ∀ v : Value, v.Inhabits A ∨ v.Inhabits B → v.Inhabits C := by
  refine ⟨fun _ => join?_self, fun _ _ => join?_comm, fun A B C hA hB h v hv => ?_⟩
  rcases hv with hv | hv
  · exact hv.join?_left hA h
  · exact hv.join?_right hA hB h

/-! Two closed records of which one says more about the friends and the other has a nickname. -/

namespace Friends

open Ty

def user : Ty := .ofEntityType ⟨"User"⟩

def left : Shape Ty :=
  ⟨[("age", ⟨.long, true⟩), ("friends", ⟨.set .never, true⟩), ("nick", ⟨.string, false⟩)], false⟩

def right : Shape Ty := ⟨[("age", ⟨.long, false⟩), ("friends", ⟨.set user, true⟩)], false⟩

def joined : Shape Ty := ⟨[("age", ⟨.long, false⟩), ("friends", ⟨.set user, true⟩)], true⟩

def ann : List (String × Value) :=
  [("age", .long 30), ("friends", .set []), ("nick", .string "A")]

theorem canonical_left : (Ty.record left).Canonical := by
  have hage : compare "age" "friends" = Ordering.lt := by decide
  have hnick : compare "age" "nick" = Ordering.lt := by decide
  have hfriends : compare "friends" "nick" = Ordering.lt := by decide
  refine .record (by simp [left, SortedList.Ascending, hage, hnick, hfriends]) fun name a ha => ?_
  have hmem := SortedList.mem_of_find? ha
  simp only [left, List.mem_cons, Prod.mk.injEq, List.not_mem_nil, or_false] at hmem
  rcases hmem with ⟨-, rfl⟩ | ⟨-, rfl⟩ | ⟨-, rfl⟩
  · exact .long
  · exact .set .never
  · exact .string

theorem canonical_right : (Ty.record right).Canonical := by
  have hage : compare "age" "friends" = Ordering.lt := by decide
  refine .record (by simp [right, SortedList.Ascending, hage]) fun name a ha => ?_
  have hmem := SortedList.mem_of_find? ha
  simp only [right, List.mem_cons, Prod.mk.injEq, List.not_mem_nil, or_false] at hmem
  rcases hmem with ⟨-, rfl⟩ | ⟨-, rfl⟩
  · exact .long
  · exact .set .entity

theorem inhabits_left : (Value.record ann).Inhabits (.record left) := by
  have hage : SortedList.find? "age" ann = some (.long 30) := rfl
  have hfriends : SortedList.find? "friends" ann = some (.set []) := rfl
  have hnick : SortedList.find? "nick" ann = some (.string "A") := rfl
  refine .record ?_ ?_ ?_
  · intro name a v ha hv
    have hmem := SortedList.mem_of_find? ha
    simp only [left, List.mem_cons, Prod.mk.injEq, List.not_mem_nil, or_false] at hmem
    rcases hmem with ⟨rfl, rfl⟩ | ⟨rfl, rfl⟩ | ⟨rfl, rfl⟩
    · cases hage.symm.trans hv
      exact .long
    · cases hfriends.symm.trans hv
      exact .set (List.forall_mem_nil _)
    · cases hnick.symm.trans hv
      exact .string
  · intro name a ha hrequired
    have hmem := SortedList.mem_of_find? ha
    simp only [left, List.mem_cons, Prod.mk.injEq, List.not_mem_nil, or_false] at hmem
    rcases hmem with ⟨rfl, rfl⟩ | ⟨rfl, rfl⟩ | ⟨rfl, rfl⟩
    · exact ⟨_, hage⟩
    · exact ⟨_, hfriends⟩
    · exact ⟨_, hnick⟩
  · intro _ name v hv
    have hmem := SortedList.mem_of_find? hv
    simp only [ann, List.mem_cons, Prod.mk.injEq, List.not_mem_nil, or_false] at hmem
    rcases hmem with ⟨rfl, -⟩ | ⟨rfl, -⟩ | ⟨rfl, -⟩ <;> exact ⟨_, rfl⟩

theorem join?_left_right : (Ty.record left).join? (.record right) = some (.record joined) := by
  rfl

theorem join?_sound_friends :
    (Ty.record left).join? (.record right) = some (.record joined) ∧
      (Ty.record right).join? (.record left) = some (.record joined) ∧
      (Value.record ann).Inhabits (.record joined) := by
  obtain ⟨-, hcomm, hsound⟩ := join?_sound
  refine ⟨join?_left_right, ?_, ?_⟩
  · exact (hcomm _ _ canonical_left canonical_right).symm.trans join?_left_right
  · exact hsound _ _ _ canonical_left canonical_right join?_left_right _ (Or.inl inhabits_left)

end Friends

/-- Values of the first type or of one of the others are of the join of all, also when there is
none. -/
theorem Checker.inhabits_joinAll {v : Value} : ∀ {ts : List Ty} {first : Ty}, first.Canonical →
    (∀ t ∈ ts, t.Canonical) → (v.Inhabits first ∨ ∃ t ∈ ts, v.Inhabits t) →
      v.Inhabits (joinAll first ts).1
  | [], _, _, _, h => h.elim id fun ⟨_, ht, _⟩ => nomatch ht
  | t :: ts, first, hfirst, hts, h => by
    obtain ⟨ht, hts⟩ := List.forall_mem_cons.mp hts
    simp only [joinAll]
    cases hjoin : first.join? t with
    | none => exact .any
    | some joined =>
      refine inhabits_joinAll (Ty.canonical_join? hfirst ht hjoin) hts ?_
      rcases h with hv | ⟨t', ht', hv⟩
      · exact Or.inl (hv.join?_left hfirst hjoin)
      · rcases List.mem_cons.mp ht' with rfl | ht'
        · exact Or.inl (hv.join?_right hfirst ht hjoin)
        · exact Or.inr ⟨t', ht', hv⟩

end Arbiter
