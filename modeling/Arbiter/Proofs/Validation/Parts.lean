/-
# Types of parts

What the checker says about the parts of an expression.  The type of an expression does not depend
on the facts that are known (`type_check`), only the faults do; the direct subexpressions of an
expression without faults have none (`exists_faults_eq_nil`); and when moreover no part has the type
`any`, every part has a definite type (`allParts_definiteIn`).
-/
import Arbiter.Proofs.Expr.Parts
import Arbiter.Proofs.Validation.Conformance

namespace Arbiter

namespace Expr

/-! ## 1. Types -/

variable {s : Schema} {env : RequestEnv}

theorem checkList_eq_map {known : Facts} (es : List Expr) :
    checkList s env es known = es.map fun e => e.check s env known := by
  induction es with
  | nil => rfl
  | cons e es ih => rw [checkList, ih, List.map_cons]

theorem checkFields_eq_map {known : Facts} (fs : List (String × Expr)) :
    checkFields s env fs known = fs.map fun f => (f.1, f.2.check s env known) := by
  induction fs with
  | nil => rfl
  | cons f fs ih => rw [checkFields, ih, List.map_cons]

/-- The type of an expression does not depend on what is known. -/
theorem type_check (e : Expr) (known known' : Facts) :
    (e.check s env known).type = (e.check s env known').type := by
  induction e using induction_children generalizing known known' with
  | step e ih =>
    cases e with
    | ite c y n =>
      simp only [check]
      rw [ih y (by simp [children]) _ (known' ++ (c.check s env known').facts),
        ih n (by simp [children]) known known']
    | binary op l r =>
      simp only [check]
      rw [ih l (by simp [children]) known known', ih r (by simp [children]) known known']
    | getAttr e attr =>
      simp only [check, Checker.getAttr]
      rw [ih e (by simp [children]) known known']
      split <;> rfl
    | set items =>
      simp only [check, checkList_eq_map, List.map_map]
      congr 3
      exact List.map_congr_left fun x hx => ih x hx known known'
    | record attrs =>
      simp only [check, checkFields_eq_map, List.map_map]
      congr 2
      refine List.map_congr_left fun f hf => ?_
      have htype := ih f.2 (List.mem_map_of_mem hf) known known'
      simp only [Function.comp_apply, htype]
    | call name args =>
      simp only [check, Checker.call]
      split <;> rfl
    | _ => rfl

end Expr

/-! ## 2. Faults -/

namespace Checker

theorem faults_of_argFaults {first : Option ExtensionKind} : ∀ {as : List Checked}
    {ps : List ParamType}, argFaults first as ps = [] → as.length = ps.length →
      ∀ a ∈ as, a.faults = []
  | [], _, _, _ => nofun
  | a :: as, [], _, hlen => nomatch hlen
  | a :: as, p :: ps, h, hlen => by
    have hrest : as.length = ps.length := Nat.succ.inj hlen
    rw [List.forall_mem_cons]
    cases p with
    | comparable =>
      simp only [argFaults, List.append_eq_nil_iff] at h
      exact ⟨h.1.1, faults_of_argFaults h.2 hrest⟩
    | _ =>
      simp only [argFaults, List.append_eq_nil_iff] at h
      exact ⟨h.1.1, faults_of_argFaults h.2 hrest⟩

/-- A constructor without faults is called on a literal that can be read. -/
theorem exists_literal_of_literalFaults {kind : ExtensionKind} {name : String} {args : List Expr}
    {checked : List Checked} (h : literalFaults kind name args checked = [])
    (hlen : args.length = 1) (hchecked : checked.length = 1) :
    ∃ text x, args = [.value (.string text)] ∧
      ExtensionFunction.construct kind text = .ok x := by
  obtain ⟨a, rfl⟩ := List.length_eq_one_iff.mp hlen
  obtain ⟨c, rfl⟩ := List.length_eq_one_iff.mp hchecked
  unfold literalFaults at h
  split at h
  · rename_i text hargs
    split at h
    · rename_i x hx
      exact ⟨text, x, hargs, hx⟩
    · cases h
  · simp at h
  · rename_i hnot
    exact absurd rfl (hnot c)

/-- A call without faults is one of a function that exists, on as many arguments as it takes. -/
theorem call_eq_nil {name : String} {args : List Expr} {checked : List Checked}
    (h : (call name args checked).2 = []) :
    ∃ f, ExtensionFunction.ofName? name = some f ∧ args.length = f.signature.params.length ∧
      (call name args checked).1 = returnType f.signature.returns ∧
        ((∃ kind, f = .make kind ∧ literalFaults kind name args checked = []) ∨
          argFaults none checked f.signature.params = [] ∧ f.isConstructor = false) := by
  unfold call at h ⊢
  split at h
  · cases h
  · rename_i f hf
    simp only [ne_eq, ite_not] at h
    split at h
    · rename_i hlen
      refine ⟨f, hf, hlen, rfl, ?_⟩
      split at h
      · rename_i kind
        exact Or.inl ⟨kind, rfl, h⟩
      · rename_i hnot
        refine Or.inr ⟨h, ?_⟩
        cases f with
        | make kind => exact absurd rfl (hnot kind)
        | _ => rfl
    · cases h

end Checker

namespace Expr

variable {s : Schema} {env : RequestEnv}

/-- Direct subexpressions of an expression without faults have none. -/
theorem exists_faults_eq_nil {e c : Expr} {known : Facts}
    (h : (e.check s env known).faults = []) (hc : c ∈ e.children) :
    ∃ known', (c.check s env known').faults = [] := by
  cases e with
  | value _ => cases hc
  | var _ => cases hc
  | set items =>
    simp only [check, checkList_eq_map, List.append_eq_nil_iff, List.flatMap_eq_nil_iff,
      List.forall_mem_map] at h
    exact ⟨known, h.1 c hc⟩
  | record attrs =>
    simp only [check, checkFields_eq_map, List.flatMap_eq_nil_iff, List.forall_mem_map] at h
    obtain ⟨f, hf, rfl⟩ := List.mem_map.mp hc
    exact ⟨known, h f hf⟩
  | call name args =>
    simp only [check, checkList_eq_map] at h
    obtain ⟨f, -, hlen, -, ⟨kind, rfl, hliteral⟩ | ⟨hargs, -⟩⟩ := Checker.call_eq_nil h
    · obtain ⟨text, x, rfl, -⟩ := Checker.exists_literal_of_literalFaults hliteral hlen
        (by rw [List.length_map]; exact hlen)
      cases List.mem_singleton.mp hc
      exact ⟨known, rfl⟩
    · have hfaults := Checker.faults_of_argFaults hargs (by rw [List.length_map]; exact hlen)
      exact ⟨known, List.forall_mem_map.mp hfaults c hc⟩
  | and l r =>
    simp only [check, List.append_eq_nil_iff] at h
    simp only [children, List.mem_cons, List.not_mem_nil, or_false] at hc
    rcases hc with rfl | rfl
    · exact ⟨known, h.1.1.1⟩
    · exact ⟨known ++ (l.check s env known).facts, h.1.2⟩
  | ite cond yes no =>
    simp only [check, List.append_eq_nil_iff] at h
    simp only [children, List.mem_cons, List.not_mem_nil, or_false] at hc
    rcases hc with rfl | rfl | rfl
    · exact ⟨known, h.1.1.1.1⟩
    · exact ⟨known ++ (cond.check s env known).facts, h.1.1.2⟩
    · exact ⟨known, h.1.2⟩
  | _ =>
    simp only [check, List.append_eq_nil_iff] at h
    simp only [children, List.mem_cons, List.not_mem_nil, or_false] at hc
    rcases hc with rfl | rfl <;> exact ⟨known, by simp only [h]⟩

end Expr

/-! ## 3. Attributes -/

namespace Checker

variable {s : Schema} {attr : String} {a : Attr Ty}

/-- An attribute of which something is known is a declared one. -/
theorem get?_of_attrOfShape {shape : Shape Ty} (h : (attrOfShape shape attr).1 = some a)
    (ha : a.type ≠ .any) : shape.get? attr = some a := by
  unfold attrOfShape at h
  split at h
  · rename_i a' ha'
    cases h
    exact ha'
  · split at h
    · cases h
      exact absurd rfl ha
    · cases h

/-- The attributes of several types are those of each. -/
theorem mem_attrsOfTypes : ∀ {ts : List EntityType} {as : List (Attr Ty)},
    (attrsOfTypes s attr ts).1 = some as →
      (∀ t ∈ ts, ∃ a ∈ as, (attrOfShape (shapeOfType s t) attr).1 = some a) ∧
        ∀ a ∈ as, ∃ t ∈ ts, (attrOfShape (shapeOfType s t) attr).1 = some a
  | [], as, h => by
    cases h
    exact ⟨nofun, nofun⟩
  | t :: ts, as, h => by
    simp only [attrsOfTypes] at h
    split at h
    · cases h
    · rename_i a faults ha
      obtain ⟨rest, hrest, rfl⟩ := Option.map_eq_some_iff.mp h
      obtain ⟨hts, has⟩ := mem_attrsOfTypes hrest
      have hfirst : (attrOfShape (shapeOfType s t) attr).1 = some a := by rw [ha]
      constructor
      · refine List.forall_mem_cons.mpr ⟨⟨a, List.mem_cons_self, hfirst⟩, fun t' ht' => ?_⟩
        obtain ⟨a', ha', h'⟩ := hts t' ht'
        exact ⟨a', List.mem_cons_of_mem _ ha', h'⟩
      · refine List.forall_mem_cons.mpr ⟨⟨t, List.mem_cons_self, hfirst⟩, fun a' ha' => ?_⟩
        obtain ⟨t', ht', h'⟩ := has a' ha'
        exact ⟨t', List.mem_cons_of_mem _ ht', h'⟩

/-- The attribute of entities of several types joins those of each. -/
theorem attrOf_entity {types : SortedSet EntityType}
    (h : (attrOf s attr (.entity types)).1 = some a) :
    ∃ as, (attrsOfTypes s attr types.toList).1 = some as ∧
      a.type = (joinAll .never (as.map Attr.type)).1 ∧ a.required = as.all Attr.required ∧
        ((attrOf s attr (.entity types)).2 = [] → (joinAll .never (as.map Attr.type)).2 = []) := by
  simp only [attrOf] at h ⊢
  split at h
  · cases h
  · rename_i as faults has
    cases h
    exact ⟨as, by rw [has], rfl, rfl, fun h => (List.append_eq_nil_iff.mp h).2⟩

theorem definite_shapeOfType (t : EntityType) (h : (shapeOfType s t).get? attr = some a) :
    a.type.Definite := by
  unfold shapeOfType at h
  split at h
  · exact Ty.definite_ofSchemaAttrs _ attr a h
  · cases h

/-- Reading an attribute without faults: there is one, and it has to be there or is known to be. -/
theorem exists_of_getAttr {known : Facts} {owner : Expr} {t : Ty}
    (h : (getAttr s known owner t attr).2 = []) (hany : (getAttr s known owner t attr).1 ≠ .any) :
    ∃ a, (attrOf s attr t).1 = some a ∧ (attrOf s attr t).2 = [] ∧
      (getAttr s known owner t attr).1 = a.type ∧
        (a.required = true ∨ (owner, attr) ∈ known) := by
  unfold getAttr at h hany ⊢
  rcases hattr : attrOf s attr t with ⟨_ | a, faults⟩
  · rw [hattr] at hany
    exact absurd rfl hany
  · rw [hattr] at h
    obtain ⟨hfaults, hguard⟩ := List.append_eq_nil_iff.mp h
    refine ⟨a, rfl, hfaults, rfl, ?_⟩
    split at hguard
    · rename_i hor
      rw [Bool.or_eq_true, List.contains_iff_mem] at hor
      exact hor
    · cases hguard

/-- An attribute of which something is known has a definite type. -/
theorem definite_attrOf {t : Ty} (ht : t.Definite) (h : (attrOf s attr t).1 = some a)
    (hfaults : (attrOf s attr t).2 = []) (ha : a.type ≠ .any) : a.type.Definite := by
  cases ht with
  | record hshape => exact hshape attr a (get?_of_attrOfShape h ha)
  | entity =>
    obtain ⟨as, has, htype, -, hjoin⟩ := attrOf_entity h
    rw [htype] at ha ⊢
    refine definite_joinAll .never (List.forall_mem_map.mpr fun b hb => ?_) (hjoin hfaults)
    obtain ⟨t, -, hb'⟩ := (mem_attrsOfTypes has).2 b hb
    have hne : b.type ≠ .any := (ne_any_of_joinAll ha).2 _ (List.mem_map_of_mem hb)
    exact definite_shapeOfType t (get?_of_attrOfShape hb' hne)
  | _ => cases h

end Checker

/-! ## 4. Definite types -/

namespace Expr

variable {s : Schema} {env : RequestEnv}

/-- The types of the variables of a request are definite. -/
theorem definite_var (henv : env.context.Definite) (v : Var) : (Checker.var env v).Definite := by
  cases v with
  | context => exact henv
  | _ => exact .entity

/-- An expression without faults has a definite type when its direct subexpressions do. -/
theorem definite_of_children (henv : env.context.Definite) {e : Expr} {known : Facts}
    (h : (e.check s env known).faults = []) (hany : (e.check s env known).type ≠ .any)
    (hchildren : ∀ c ∈ e.children, ∀ known, (c.check s env known).type.Definite) :
    (e.check s env known).type.Definite := by
  cases e with
  | value v => exact Checker.definite_literal v h
  | var v => exact definite_var henv v
  | ite c y n =>
    simp only [check, List.append_eq_nil_iff] at h ⊢
    refine Checker.definite_joinAll .never ?_ h.2
    simp only [List.forall_mem_cons]
    exact ⟨hchildren y (by simp [children]) _, hchildren n (by simp [children]) _,
      List.forall_mem_nil _⟩
  | binary op l r => cases op <;> first | exact .bool | exact .long
  | getAttr e attr =>
    simp only [check, List.append_eq_nil_iff] at h hany ⊢
    obtain ⟨a, ha, hfaults, htype, -⟩ := Checker.exists_of_getAttr h.2 hany
    rw [htype] at hany ⊢
    exact Checker.definite_attrOf (hchildren e (by simp [children]) known) ha hfaults hany
  | set items =>
    simp only [check, checkList_eq_map, List.append_eq_nil_iff] at h ⊢
    refine .set (Checker.definite_joinAll .never ?_ h.2)
    rw [List.map_map]
    exact List.forall_mem_map.mpr fun c hc => hchildren c hc known
  | record attrs =>
    simp only [check, checkFields_eq_map, List.map_map]
    refine .record fun name a ha => ?_
    have hmem := SortedList.mem_of_mem_ofPairs (SortedList.mem_of_find? ha)
    obtain ⟨f, hf, heq⟩ := List.mem_map.mp hmem
    cases heq
    exact hchildren f.2 (List.mem_map_of_mem hf) known
  | call name args =>
    simp only [check] at h ⊢
    obtain ⟨f, -, -, htype, -⟩ := Checker.call_eq_nil h
    rw [htype]
    cases f.signature.returns with
    | bool => exact .bool
    | extension kind => exact .extension
  | not _ => exact .bool
  | neg _ => exact .long
  | _ => exact .bool

/-- The type of the expression is definite, whatever is known. -/
def DefiniteIn (s : Schema) (env : RequestEnv) (e : Expr) : Prop :=
  ∀ known, (e.check s env known).type.Definite

/-- **No part of an expression without faults hides something unknown**, unless a part is of the
type `any` itself. -/
theorem allParts_definiteIn (henv : env.context.Definite) {e : Expr} {known : Facts}
    (h : (e.check s env known).faults = [])
    (hany : e.AllParts fun x => (x.check s env []).type ≠ .any) :
    e.AllParts (DefiniteIn s env) := by
  induction e using induction_children generalizing known with
  | step e ih =>
    have hchildren : ∀ c ∈ e.children, c.AllParts (DefiniteIn s env) := by
      intro c hc
      obtain ⟨knownc, hfaults⟩ := exists_faults_eq_nil h hc
      exact ih c hc hfaults (hany.child hc)
    refine allParts_iff.mpr ⟨fun known' => ?_, List.forall_iff_forall_mem.mpr hchildren⟩
    rw [type_check e known' known]
    refine definite_of_children henv h ?_ fun c hc => (hchildren c hc).self
    rw [type_check e known []]
    exact hany.self

end Expr

end Arbiter
