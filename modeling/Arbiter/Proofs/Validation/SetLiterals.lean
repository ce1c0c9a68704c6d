/-
# Set literals

The checker joins the types of the elements of a set from left to right and reports the first type
that has no join with those in front of it.  Two types have no join when they show different sorts
at a common place (`Ty.exists_clash_of_join?_eq_none`), but a join may show less than its parts: it
hides all that is below a part of type `any`, and all that is below an attribute that one of the
records lacks.  So a clash is not reported when an element in front of the later type hides the
place of it (`Ty.Masked`, `Checker.joinAll_eq_nil_iff`), and then the order of the elements matters.

It does not matter when nothing clashes, or when some clash is hidden by no element at all
(`Ty.Settled`, `Expr.set_faults_perm`).
-/
import Arbiter.Proofs.Validation.CanonicalTypes

namespace Arbiter

namespace Ty

/-! ## 1. What a type shows at a place -/

/-- The sort of the values of a type. -/
inductive Head where
  | bool
  | long
  | string
  | set
  | record
  | entity
  | extension (kind : ExtensionKind)
  deriving DecidableEq

/-- What a type shows at a place: nothing when there are no values, a sort when all are of it, and
otherwise the place is hidden. -/
inductive View where
  | nothing
  | hidden
  | head (h : Head)
  deriving DecidableEq

/-- A step into a type: to the elements of the sets, or to an attribute of the records. -/
inductive Step where
  | elem
  | attr (name : String)

/-- What a type shows of its own values. -/
def head : Ty → View
  | .never => .nothing
  | .any => .hidden
  | .bool => .head .bool
  | .long => .head .long
  | .string => .head .string
  | .set _ => .head .set
  | .record _ => .head .record
  | .entity _ => .head .entity
  | .extension kind => .head (.extension kind)

/-- What a type shows at a place.  A record hides the attributes that it does not have. -/
def view : Ty → List Step → View
  | t, [] => t.head
  | .any, _ :: _ => .hidden
  | .set t, .elem :: p => t.view p
  | .record shape, .attr name :: p =>
    match shape.get? name with
    | some a => a.type.view p
    | none => .hidden
  | _, _ :: _ => .nothing
termination_by structural _ p => p

/-- The type hides what others may show at the place. -/
def Hides (t : Ty) (p : List Step) : Prop := t.view p = .hidden

instance (t : Ty) (p : List Step) : Decidable (t.Hides p) :=
  inferInstanceAs (Decidable (t.view p = .hidden))

/-- The types show different sorts at the place. -/
def ClashAt (t u : Ty) (p : List Step) : Prop :=
  ∃ h k, t.view p = .head h ∧ u.view p = .head k ∧ h ≠ k

variable {t u : Ty} {p : List Step}

theorem ClashAt.symm (h : t.ClashAt u p) : u.ClashAt t p := by
  obtain ⟨h, k, ht, hu, hne⟩ := h
  exact ⟨k, h, hu, ht, hne.symm⟩

theorem ClashAt.ne (h : t.ClashAt u p) : t ≠ u := by
  rintro rfl
  obtain ⟨h, k, ht, hu, hne⟩ := h
  rw [ht] at hu
  cases hu
  exact hne rfl

/-- Where types clash, neither hides anything. -/
theorem ClashAt.not_hides_left (h : t.ClashAt u p) : ¬ t.Hides p := by
  obtain ⟨h, k, ht, -, -⟩ := h
  intro hhides
  rw [Hides, ht] at hhides
  cases hhides

theorem view_never (p : List Step) : view .never p = .nothing := by
  cases p <;> rfl

theorem view_attr_of_some {shape : Shape Ty} {name : String} {a : Attr Ty}
    (h : shape.get? name = some a) (p : List Step) :
    view (.record shape) (.attr name :: p) = a.type.view p := by
  simp only [view, h]

/-! ## 2. Views of joins -/

namespace View

/-- What is shown when two views are put together, if they do not clash. -/
def join? : View → View → Option View
  | .hidden, _ => some .hidden
  | _, .hidden => some .hidden
  | .nothing, v => some v
  | v, .nothing => some v
  | .head h, .head k => if h = k then some (.head h) else none

variable {v w x : View}

theorem join?_hidden (v : View) : v.join? .hidden = some .hidden := by
  cases v <;> rfl

theorem nothing_join? (v : View) : nothing.join? v = some v := by
  cases v <;> rfl

theorem join?_nothing (v : View) : v.join? .nothing = some v := by
  cases v <;> rfl

theorem join?_self (v : View) : v.join? v = some v := by
  cases v with
  | head h => exact if_pos rfl
  | _ => rfl

theorem join?_eq_none_iff : v.join? w = none ↔ ∃ h k, v = .head h ∧ w = .head k ∧ h ≠ k := by
  cases v <;> cases w <;> simp [join?]

/-- What is hidden in one of two views is hidden when they are put together. -/
theorem eq_hidden_iff (h : v.join? w = some x) : x = .hidden ↔ v = .hidden ∨ w = .hidden := by
  cases v <;> cases w <;> simp_all [join?]

/-- A sort is shown when two views are put together if one of them shows it and none hides it. -/
theorem eq_head_iff (h : v.join? w = some x) {k : Head} :
    x = .head k ↔ (v ≠ .hidden ∧ w ≠ .hidden) ∧ (v = .head k ∨ w = .head k) := by
  cases v <;> cases w <;> simp_all [join?] <;> grind

end View

variable {a b c : Ty}

/-- **What a join shows**, its parts show together. -/
theorem view_join? (h : a.join? b = some c) (p : List Step) :
    (a.view p).join? (b.view p) = some (c.view p) := by
  induction p generalizing a b c with
  | nil =>
    cases joinStep_of_join? h with
    | anyRight => exact View.join?_hidden _
    | neverLeft => exact View.nothing_join? _
    | neverRight => exact View.join?_nothing _
    | same => exact View.join?_self _
    | record h =>
      obtain ⟨attrs, -, h⟩ := Option.bind_eq_some_iff.mp h
      cases h
      rfl
    | _ => rfl
  | cons s p ih =>
    cases joinStep_of_join? h with
    | anyLeft => rfl
    | anyRight => exact View.join?_hidden _
    | neverLeft => exact View.nothing_join? _
    | neverRight => exact View.join?_nothing _
    | same => exact View.join?_self _
    | entity => cases s <;> rfl
    | set hjoin =>
      cases s with
      | elem => exact ih hjoin
      | attr => rfl
    | @record a b _ h =>
      obtain ⟨attrs, hattrs, h⟩ := Option.bind_eq_some_iff.mp h
      cases h
      cases s with
      | elem => rfl
      | attr name =>
        have hat := joinsAt_of_joinAttrs? hattrs name
        simp only [view, Shape.get?]
        generalize SortedList.find? name a.attrs = x at hat ⊢
        generalize SortedList.find? name b.attrs = y at hat ⊢
        generalize SortedList.find? name attrs = z at hat ⊢
        cases hat with
        | notLeft => rfl
        | notRight => exact View.join?_hidden _
        | both type _ => exact ih type

/-- Types without a join clash at some place. -/
theorem exists_clash_of_join?_eq_none (ha : a.Canonical) (h : a.join? b = none) :
    ∃ p, a.ClashAt b p := by
  induction ha generalizing b with
  | never =>
    rw [never_join?] at h
    cases h
  | any =>
    rw [any_join?] at h
    cases h
  | set _ ih =>
    cases b with
    | set b =>
      obtain ⟨p, hclash⟩ := ih (Option.map_eq_none_iff.mp h)
      exact ⟨.elem :: p, hclash⟩
    | never | any => cases h
    | _ => exact ⟨[], _, _, rfl, rfl, by simp⟩
  | @record a ascending _ ih =>
    cases b with
    | record b =>
      -- Otherwise all attributes that both have could be joined.
      by_contra hnone
      obtain ⟨c, hc⟩ : ∃ c, joinAttrs? a.attrs b.attrs = some c := by
        refine exists_joinAttrs? ascending fun name x y hx hy => ?_
        cases hxy : x.type.join? y.type with
        | some t => exact ⟨t, rfl⟩
        | none =>
          obtain ⟨p, hclash⟩ := ih name x hx hxy
          refine absurd ⟨.attr name :: p, ?_⟩ hnone
          unfold ClashAt
          rw [view_attr_of_some hx, view_attr_of_some hy]
          exact hclash
      simp only [join?, hc] at h
      cases h
    | never | any => cases h
    | _ => exact ⟨[], _, _, rfl, rfl, by simp⟩
  | @extension kind =>
    cases b with
    | extension kind' =>
      simp only [join?] at h
      split at h
      · cases h
      · rename_i hne
        exact ⟨[], _, _, rfl, rfl, fun heq => hne (Head.extension.inj heq)⟩
    | never | any => cases h
    | _ => exact ⟨[], _, _, rfl, rfl, by simp⟩
  | bool =>
    cases b with
    | never | any | bool => cases h
    | _ => exact ⟨[], _, _, rfl, rfl, by simp⟩
  | long =>
    cases b with
    | never | any | long => cases h
    | _ => exact ⟨[], _, _, rfl, rfl, by simp⟩
  | string =>
    cases b with
    | never | any | string => cases h
    | _ => exact ⟨[], _, _, rfl, rfl, by simp⟩
  | entity =>
    cases b with
    | never | any | entity => cases h
    | _ => exact ⟨[], _, _, rfl, rfl, by simp⟩

/-! ## 3. Types from left to right -/

/-- Each clash of a type with one in front of it is hidden by a type in front of it. -/
def Masked (ts : List Ty) : Prop :=
  ∀ before t after, ts = before ++ t :: after → ∀ u ∈ before, ∀ p, u.ClashAt t p →
    ∃ w ∈ before, w.Hides p

/-- The type is what the types of a list show together. -/
structure Sums (ts : List Ty) (c : Ty) : Prop where
  canonical : c.Canonical
  hides_iff : ∀ p, c.Hides p ↔ ∃ t ∈ ts, t.Hides p
  head_iff : ∀ p k, c.view p = .head k ↔ (∀ t ∈ ts, ¬ t.Hides p) ∧ ∃ t ∈ ts, t.view p = .head k

namespace Sums

variable {ts : List Ty}

theorem nil : Sums [] .never where
  canonical := .never
  hides_iff p := by simp [Hides, view_never]
  head_iff p k := by simp [view_never]

/-- A further type is shown with the others when it is joined to them. -/
theorem append (h : Sums ts a) (hb : b.Canonical) (hjoin : a.join? b = some c) :
    Sums (ts ++ [b]) c where
  canonical := canonical_join? h.canonical hb hjoin
  hides_iff p := by
    have hab : c.Hides p ↔ a.Hides p ∨ b.Hides p := View.eq_hidden_iff (view_join? hjoin p)
    rw [hab, h.hides_iff p]
    simp only [List.mem_append, List.mem_singleton, or_and_right, exists_or, exists_eq_left]
  head_iff p k := by
    have hab := View.eq_head_iff (view_join? hjoin p) (k := k)
    have hshown : a.view p ≠ .hidden ↔ ∀ t ∈ ts, ¬ t.Hides p := by
      rw [ne_eq, ← Hides, h.hides_iff p]
      simp only [not_exists, not_and]
    rw [hab, List.forall_mem_append, List.forall_mem_singleton, ← hshown]
    simp only [List.mem_append, List.mem_singleton, or_and_right, exists_or, exists_eq_left]
    refine and_congr_right fun hboth => or_congr_left ?_
    exact (h.head_iff p k).trans (and_iff_right (hshown.mp hboth.1))

/-- A type has no join with what others show when it clashes with one of them at a place that none
of them hides. -/
theorem join?_eq_none_iff (h : Sums ts a) : a.join? b = none ↔
    ∃ u ∈ ts, ∃ p, u.ClashAt b p ∧ ∀ w ∈ ts, ¬ w.Hides p := by
  constructor
  · intro hnone
    obtain ⟨p, k, j, hk, hj, hne⟩ := exists_clash_of_join?_eq_none h.canonical hnone
    obtain ⟨hshown, u, hu, huk⟩ := (h.head_iff p k).mp hk
    exact ⟨u, hu, p, ⟨k, j, huk, hj, hne⟩, hshown⟩
  · rintro ⟨u, hu, p, ⟨k, j, hk, hj, hne⟩, hshown⟩
    have hak : a.view p = .head k := (h.head_iff p k).mpr ⟨hshown, u, hu, hk⟩
    cases hjoin : a.join? b with
    | none => rfl
    | some c =>
      have hview := view_join? hjoin p
      rw [View.join?_eq_none_iff.mpr ⟨k, j, hak, hj, hne⟩] at hview
      cases hview

end Sums

end Ty

/-- What holds of each element and the ones in front of it, by the first element and the rest. -/
theorem List.forall_split_cons_iff {α : Type} {P : List α → α → Prop} {x : α} {l : List α} :
    (∀ before y after, x :: l = before ++ y :: after → P before y) ↔
      P [] x ∧ ∀ before y after, l = before ++ y :: after → P (x :: before) y := by
  constructor
  · intro h
    refine ⟨h [] x l rfl, fun before y after heq => h (x :: before) y after ?_⟩
    rw [heq, List.cons_append]
  · rintro ⟨hx, hl⟩ before y after heq
    cases before with
    | nil =>
      cases heq
      exact hx
    | cons z before =>
      obtain ⟨rfl, htail⟩ := List.cons.inj heq
      exact hl before y after htail

namespace Checker

open Ty

/-- Types can be joined to others when each clash is hidden by what is in front.  The induction is on
the types that are left; `c` shows what those in `done` show together. -/
theorem joinAll_eq_nil_iff_of_sums : ∀ {ts done : List Ty} {c : Ty}, Sums done c →
    (∀ t ∈ ts, t.Canonical) → ((joinAll c ts).2 = [] ↔ ∀ before t after,
      ts = before ++ t :: after → ∀ u ∈ done ++ before, ∀ p, u.ClashAt t p →
        ∃ w ∈ done ++ before, w.Hides p)
  | [], _, _, _, _ => by
    refine iff_of_true rfl fun before t after heq => ?_
    simp at heq
  | t :: ts, done, c, hc, hts => by
    obtain ⟨ht, hts⟩ := List.forall_mem_cons.mp hts
    have hnone : c.join? t = none ↔
        ¬ ∀ u ∈ done, ∀ p, u.ClashAt t p → ∃ w ∈ done, w.Hides p := by
      rw [hc.join?_eq_none_iff]
      simp only [not_forall, not_exists, not_and, exists_prop]
    rw [List.forall_split_cons_iff, List.append_nil]
    simp only [joinAll]
    cases hjoin : c.join? t with
    | none => exact iff_of_false (List.cons_ne_nil _ _) fun h => hnone.mp hjoin h.1
    | some d =>
      -- There is a join, so the clashes of `t` are hidden, and what is left decides.
      have hmasked : ∀ u ∈ done, ∀ p, u.ClashAt t p → ∃ w ∈ done, w.Hides p := by
        by_contra h
        rw [hnone.mpr h] at hjoin
        cases hjoin
      rw [joinAll_eq_nil_iff_of_sums (hc.append ht hjoin) hts, and_iff_right hmasked]
      simp only [List.append_assoc, List.singleton_append]

/-- **Which lists of types can be joined**: those in which each clash is hidden in front. -/
theorem joinAll_eq_nil_iff {ts : List Ty} (hts : ∀ t ∈ ts, t.Canonical) :
    (joinAll .never ts).2 = [] ↔ Masked ts :=
  joinAll_eq_nil_iff_of_sums .nil hts

end Checker

/-! ## 4. Types in any order -/

namespace Ty

variable {ts : List Ty}

/-- The order of the types does not matter: no two clash, or two clash at a place that none
hides. -/
def Settled (ts : List Ty) : Prop :=
  (∀ t ∈ ts, ∀ u ∈ ts, ∀ p, ¬ t.ClashAt u p) ∨
    ∃ t ∈ ts, ∃ u ∈ ts, ∃ p, t.ClashAt u p ∧ ∀ w ∈ ts, ¬ w.Hides p

theorem masked_of_not_clash (h : ∀ t ∈ ts, ∀ u ∈ ts, ∀ p, ¬ t.ClashAt u p) : Masked ts := by
  rintro before t after rfl u hu p hclash
  refine absurd hclash (h u (List.mem_append_left _ hu) t ?_ p)
  exact List.mem_append_right _ List.mem_cons_self

/-- A clash that is hidden by no type is found in every order. -/
theorem not_masked_of_shown (ht : t ∈ ts) (hu : u ∈ ts) (hclash : t.ClashAt u p)
    (hshown : ∀ w ∈ ts, ¬ w.Hides p) : ¬ Masked ts := by
  intro hmasked
  obtain ⟨before, after, rfl⟩ := List.mem_iff_append.mp ht
  have hbehind : ∀ before' x after', before ++ t :: after = before' ++ x :: after' →
      ∀ y ∈ before', ¬ y.ClashAt x p := by
    intro before' x after' heq y hy hyx
    obtain ⟨w, hw, hhides⟩ := hmasked before' x after' heq y hy p hyx
    refine hshown w ?_ hhides
    rw [heq]
    exact List.mem_append_left _ hw
  -- One of the two stands in front of the other.
  rcases List.mem_append.mp hu with hu | hu
  · exact hbehind before t after rfl u hu hclash.symm
  · have hu := (List.mem_cons.mp hu).resolve_left hclash.ne.symm
    obtain ⟨between, rest, rfl⟩ := List.mem_iff_append.mp hu
    refine hbehind (before ++ t :: between) u rest ?_ t ?_ hclash
    · simp
    · simp

/-- Whether settled types can be joined does not depend on their order. -/
theorem Settled.masked_iff {us : List Ty} (h : Settled ts) (hperm : ts.Perm us) :
    Masked ts ↔ Masked us := by
  rcases h with h | ⟨t, ht, u, hu, p, hclash, hshown⟩
  · refine iff_of_true (masked_of_not_clash h) (masked_of_not_clash ?_)
    intro t ht u hu
    exact h t (hperm.mem_iff.mpr ht) u (hperm.mem_iff.mpr hu)
  · refine iff_of_false (not_masked_of_shown ht hu hclash hshown) ?_
    refine not_masked_of_shown (hperm.mem_iff.mp ht) (hperm.mem_iff.mp hu) hclash fun w hw => ?_
    exact hshown w (hperm.mem_iff.mpr hw)

/-- Two types that clash cannot be the first two. -/
theorem not_masked_cons_cons (h : t.ClashAt u p) : ¬ Masked (t :: u :: ts) := by
  intro hmasked
  obtain ⟨w, hw, hhides⟩ := hmasked [t] u ts rfl t (List.mem_singleton_self t) p h
  cases List.mem_singleton.mp hw
  exact h.not_hides_left hhides

end Ty

/-! ## 5. Elements in any order -/

namespace Expr

open Checker Ty

variable {s : Schema} {env : RequestEnv} {known : Facts} {es es' : List Expr}

/-- The types of the expressions. -/
def types (s : Schema) (env : RequestEnv) (known : Facts) (es : List Expr) : List Ty :=
  es.map fun e => (e.check s env known).type

/-- A set has no faults when its elements have none and their types can be joined. -/
theorem set_faults_eq_nil_iff (hs : s.Canonical) (henv : env.context.Canonical)
    (hes : ∀ e ∈ es, e.Canonical) : ((Expr.set es).check s env known).faults = [] ↔
      (∀ e ∈ es, (e.check s env known).faults = []) ∧ Masked (types s env known es) := by
  have hcanonical : ∀ t ∈ types s env known es, t.Canonical :=
    List.forall_mem_map.mpr fun e he => canonical_check hs henv (hes e he) known
  rw [← joinAll_eq_nil_iff hcanonical]
  simp only [check, checkList_eq_map, List.append_eq_nil_iff, List.flatMap_eq_nil_iff,
    List.forall_mem_map, List.map_map]
  rfl

/-- A set without faults in every order is one of which no two elements clash. -/
theorem forall_perm_faults_eq_nil_iff (hs : s.Canonical) (henv : env.context.Canonical)
    (hes : ∀ e ∈ es, e.Canonical) :
    (∀ es', es.Perm es' → ((Expr.set es').check s env known).faults = []) ↔
      (∀ e ∈ es, (e.check s env known).faults = []) ∧ ∀ t ∈ types s env known es,
        ∀ u ∈ types s env known es, ∀ p, ¬ t.ClashAt u p := by
  constructor
  · intro h
    refine ⟨((set_faults_eq_nil_iff hs henv hes).mp (h es (.refl es))).1, ?_⟩
    simp only [types, List.forall_mem_map]
    intro e he f hf p hclash
    have hne : f ≠ e := by
      rintro rfl
      exact hclash.ne rfl
    have hperm : es.Perm (e :: f :: (es.erase e).erase f) :=
      (List.perm_cons_erase he).trans
        (.cons e (List.perm_cons_erase ((List.mem_erase_of_ne hne).mpr hf)))
    have hes' := fun x hx => hes x (hperm.mem_iff.mpr hx)
    exact not_masked_cons_cons hclash ((set_faults_eq_nil_iff hs henv hes').mp (h _ hperm)).2
  · rintro ⟨hfaults, hclash⟩ es' hperm
    have hes' := fun x hx => hes x (hperm.mem_iff.mpr hx)
    refine (set_faults_eq_nil_iff hs henv hes').mpr
      ⟨fun e he => hfaults e (hperm.mem_iff.mpr he), ?_⟩
    have hsettled : Settled (types s env known es) := Or.inl hclash
    exact (hsettled.masked_iff (hperm.map _)).mp (masked_of_not_clash hclash)

/-- **When the order of a set literal matters.**  A set has no faults when its elements have none
and each clash of their types is hidden in front of the later one.  It has none in every order when
no two types clash; and whether it has does not depend on the order when no two clash, or when two
clash at a place that none hides. -/
theorem set_faults_perm (hs : s.Canonical) (henv : env.context.Canonical)
    (hes : ∀ e ∈ es, e.Canonical) :
    (((Expr.set es).check s env known).faults = [] ↔
      (∀ e ∈ es, (e.check s env known).faults = []) ∧ Masked (types s env known es)) ∧
    ((∀ es', es.Perm es' → ((Expr.set es').check s env known).faults = []) ↔
      (∀ e ∈ es, (e.check s env known).faults = []) ∧ ∀ t ∈ types s env known es,
        ∀ u ∈ types s env known es, ∀ p, ¬ t.ClashAt u p) ∧
    (Settled (types s env known es) → ∀ es', es.Perm es' →
      (((Expr.set es).check s env known).faults = [] ↔
        ((Expr.set es').check s env known).faults = [])) := by
  refine ⟨set_faults_eq_nil_iff hs henv hes, forall_perm_faults_eq_nil_iff hs henv hes, ?_⟩
  intro hsettled es' hperm
  have hes' := fun x hx => hes x (hperm.mem_iff.mpr hx)
  rw [set_faults_eq_nil_iff hs henv hes, set_faults_eq_nil_iff hs henv hes',
    hsettled.masked_iff (hperm.map _)]
  exact and_congr_left' (forall_congr' fun e => imp_congr_left hperm.mem_iff)

end Expr

/-! Points with coordinates that are numbers or letters. -/

namespace Points

/-- A request of which the context may have any attributes. -/
def env : RequestEnv :=
  { principal := ⟨"User"⟩, action := ⟨⟨"Action"⟩, "view"⟩, resource := ⟨"User"⟩
    context := .record ⟨[], true⟩ }

def one : Expr := .value (.long 1)

def letter : Expr := .value (.string "a")

def unknown : Expr := .getAttr (.var .context) "point"

def nowhere : Expr := .record []

def inNumbers : Expr := .record [("x", one), ("y", one)]

def withLetter : Expr := .record [("x", letter), ("y", one)]

def onLetter : Expr := .record [("y", letter)]

/-- The checker has nothing to say against the set of the expressions. -/
def Accepted (es : List Expr) : Prop := ((Expr.set es).check .empty env []).faults = []

theorem canonical_points : ∀ e ∈ [inNumbers, onLetter, withLetter], e.Canonical := by
  have hlt : compare "x" "y" = Ordering.lt := by decide
  simp [inNumbers, onLetter, withLetter, one, letter, Expr.Canonical, Expr.allParts_iff,
    Expr.children, Expr.NodeCanonical, Value.Canonical, SortedList.Ascending, hlt]

/-- The second point hides that the two others clash at `x`, but nothing hides that it clashes with
them at `y`. -/
theorem not_accepted_points : ¬ Accepted [inNumbers, onLetter, withLetter] ∧
    ∀ es', [inNumbers, onLetter, withLetter].Perm es' → ¬ Accepted es' := by
  have hfirst : ¬ Accepted [inNumbers, onLetter, withLetter] := nofun
  refine ⟨hfirst, fun es' hperm haccepted => ?_⟩
  have hcontext : env.context.Canonical := .record List.Pairwise.nil fun _ _ => nofun
  obtain ⟨-, -, horder⟩ := @Expr.set_faults_perm .empty env [] _ Schema.canonical_empty hcontext
    canonical_points
  have hsettled : Ty.Settled (Expr.types .empty env [] [inNumbers, onLetter, withLetter]) :=
    Or.inr ⟨_, List.mem_cons_self, _, List.mem_cons_of_mem _ List.mem_cons_self, [.attr "y"],
      ⟨.long, .string, rfl, rfl, nofun⟩, by decide⟩
  exact hfirst ((horder hsettled es' hperm).mpr haccepted)

/-- A clash is reported in one order and not in another one, in which an element in front hides it:
by lacking the attribute, or by being unknown. -/
theorem accepted_in_one_order :
    ([inNumbers, nowhere, withLetter].Perm [inNumbers, withLetter, nowhere] ∧
      Accepted [inNumbers, nowhere, withLetter] ∧ ¬ Accepted [inNumbers, withLetter, nowhere]) ∧
    ([one, unknown, letter].Perm [one, letter, unknown] ∧
      Accepted [one, unknown, letter] ∧ ¬ Accepted [one, letter, unknown]) :=
  ⟨⟨.cons _ (.swap _ _ _), rfl, nofun⟩, ⟨.cons _ (.swap _ _ _), rfl, nofun⟩⟩

end Points

end Arbiter
