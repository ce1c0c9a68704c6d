/-
# Expressions are told apart by their documents

A literal has a document that a call named `Value` can have too, and the set of some expressions one
that a call named `Set` has.  Expressions without such calls and with faithful literals
(`Expr.Faithful`) are told apart by their documents (`Expr.toJson_injective`).  The rest of an
expression, its types and the order of its attributes included, is free.
-/
import Arbiter.Proofs.Expr.Codec
import Arbiter.Proofs.Value.Faithful

namespace Arbiter

theorem Var.name_injective {v v' : Var} (h : v.name = v'.name) : v = v' := by
  have hread := Var.ofName?_name v
  rw [h, Var.ofName?_name] at hread
  exact (Option.some.inj hread).symm

namespace BinaryOp

theorem name_injective {op op' : BinaryOp} (h : op.name = op'.name) : op = op' := by
  have hread := ofName?_name op
  rw [h, ofName?_name] at hread
  exact (Option.some.inj hread).symm

/-- A node that has a name of its own is no operator on two values. -/
theorem ne_name (op : BinaryOp) : ∀ key ∈ Expr.nodeKeys, key ≠ op.name := by
  cases op <;> decide

end BinaryOp

namespace Expr

section

attribute [local simp] children toJson unaryJson pairJson attrJson Json.single

/-! ## 1. Documents without doubles -/

/-- The numbers in the document of an expression are integers of 64 bits. -/
theorem isExact_toJson (e : Expr) : e.toJson.IsExact := by
  induction e using induction_children with
  | step e ih =>
    have hexact {c : Expr} (hc : c ∈ e.children) : c.toJson.IsExact := ih c hc
    cases e with
    | value v => exact ⟨v.isExact_toJson, trivial⟩
    | var v => exact ⟨trivial, trivial⟩
    | not e | neg e | isEmpty e =>
      exact ⟨⟨hexact (by simp), trivial⟩, trivial⟩
    | and l r | or l r | binary _ l r =>
      exact ⟨⟨hexact (by simp), hexact (by simp), trivial⟩, trivial⟩
    | ite c y n =>
      exact ⟨⟨hexact (by simp), hexact (by simp),
        hexact (by simp), trivial⟩, trivial⟩
    | getAttr e attr | hasAttr e attr | isType e t =>
      exact ⟨⟨trivial, hexact (by simp), trivial⟩, trivial⟩
    | like e p => exact ⟨⟨hexact (by simp), p.isExact_toJson, trivial⟩, trivial⟩
    | isTypeIn e t target =>
      exact ⟨⟨trivial, hexact (by simp), hexact (by simp), trivial⟩, trivial⟩
    | set items | call _ items =>
      refine ⟨Json.isExactItems_iff.mpr ?_, trivial⟩
      rw [listToJson_eq_map]
      exact List.forall_mem_map.mpr fun c hc => hexact hc
    | record attrs =>
      refine ⟨Json.isExactFields_iff.mpr ?_, trivial⟩
      rw [fieldsToJson_eq_map]
      exact List.forall_mem_map.mpr fun a ha => hexact (List.mem_map_of_mem ha)

/-! ## 2. Expressions of different documents -/

/-- Whether a node has no document of another one. -/
def NodeFaithful : Expr → Prop
  | .value v => v.Faithful
  | .call name _ => name ≠ "Value" ∧ name ≠ "Set"
  | _ => True

/-- Whether no part has the document of another node. -/
def Faithful (e : Expr) : Prop := e.AllParts NodeFaithful

/-- Two lists of expressions of which each is told apart from each. -/
theorem listToJson_injective : ∀ {l m : List Expr},
    (∀ e ∈ l, ∀ e' ∈ m, e.toJson = e'.toJson → e = e') → listToJson l = listToJson m → l = m
  | [], [], _, _ => rfl
  | e :: l, e' :: m, h, heq => by
    obtain ⟨hhead, htail⟩ := List.cons.inj heq
    have hrest : l = m := listToJson_injective
      (fun c hc c' hc' => h c (List.mem_cons_of_mem _ hc) c' (List.mem_cons_of_mem _ hc')) htail
    rw [h e List.mem_cons_self e' List.mem_cons_self hhead, hrest]

/-- Two lists of attributes of which each is told apart from each. -/
theorem fieldsToJson_injective : ∀ {l m : List (String × Expr)},
    (∀ e ∈ l.map Prod.snd, ∀ e' ∈ m.map Prod.snd, e.toJson = e'.toJson → e = e') →
      fieldsToJson l = fieldsToJson m → l = m
  | [], [], _, _ => rfl
  | (name, e) :: l, (name', e') :: m, h, heq => by
    obtain ⟨hhead, htail⟩ := List.cons.inj heq
    obtain ⟨hname, hexpr⟩ := Prod.mk.inj hhead
    have hrest : l = m := fieldsToJson_injective
      (fun c hc c' hc' => h c (List.mem_cons_of_mem _ hc) c' (List.mem_cons_of_mem _ hc')) htail
    rw [hname, h e List.mem_cons_self e' List.mem_cons_self hexpr, hrest]

/-- **Expressions are told apart by their documents.** -/
theorem toJson_injective {e e' : Expr} (he : e.Faithful) (he' : e'.Faithful)
    (h : e.toJson = e'.toJson) : e = e' := by
  induction e using induction_children generalizing e' with
  | step e ih =>
    have hchild : ∀ c ∈ e.children, ∀ c' ∈ e'.children, c.toJson = c'.toJson → c = c' :=
      fun c hc c' hc' => ih c hc (he.child hc) (he'.child hc')
    have hnode := he.self
    have hnode' := he'.self
    cases e with
    | value v =>
      cases e' <;> simp at h
      case value v' => rw [Value.toJson_injective hnode hnode' h]
      case binary op l r => exact absurd h.1 (op.ne_name _ (by decide))
      case call name args => exact absurd h.1.symm hnode'.1
    | var v =>
      cases e' <;> simp at h
      rw [Var.name_injective h]
    | not e | neg e | isEmpty e =>
      cases e' <;> simp at h
      rw [hchild _ (by simp) _ (by simp) h]
    | and l r | or l r =>
      cases e' <;> simp at h
      case binary op l' r' => exact absurd h.1 (op.ne_name _ (by decide))
      all_goals
        rw [hchild _ (by simp) _ (by simp) h.1,
          hchild _ (by simp) _ (by simp) h.2]
    | binary op l r =>
      cases e' <;> simp at h
      case binary op' l' r' =>
        obtain ⟨hop, hl, hr⟩ := h
        rw [BinaryOp.name_injective hop, hchild _ (by simp) _ (by simp) hl,
          hchild _ (by simp) _ (by simp) hr]
      all_goals exact absurd h.1.symm (op.ne_name _ (by decide))
    | ite c y n =>
      cases e' <;> simp at h
      obtain ⟨hn, hc, hy⟩ := h
      rw [hchild _ (by simp) _ (by simp) hn,
        hchild _ (by simp) _ (by simp) hc,
        hchild _ (by simp) _ (by simp) hy]
    | getAttr e attr | hasAttr e attr =>
      cases e' <;> simp at h
      obtain ⟨rfl, hexpr⟩ := h
      rw [hchild _ (by simp) _ (by simp) hexpr]
    | like e p =>
      cases e' <;> simp at h
      obtain ⟨hexpr, hp⟩ := h
      rw [hchild _ (by simp) _ (by simp) hexpr, Pattern.toJson_injective hp]
    | isType e t =>
      cases e' <;> simp at h
      rename_i e' t'
      obtain ⟨htype, hexpr⟩ := h
      cases t
      cases t'
      cases htype
      rw [hchild _ (by simp) _ (by simp) hexpr]
    | isTypeIn e t target =>
      cases e' <;> simp at h
      rename_i e' t' target'
      obtain ⟨htype, htarget, hexpr⟩ := h
      cases t
      cases t'
      cases htype
      rw [hchild _ (by simp) _ (by simp) hexpr,
        hchild _ (by simp) _ (by simp) htarget]
    | set items =>
      cases e' <;> simp at h
      case set items' =>
        have hitems : items = items' := listToJson_injective hchild h
        rw [hitems]
      case call name args => exact absurd h.1.symm hnode'.2
    | record attrs =>
      cases e' <;> simp at h
      case binary op l r => exact absurd h.1 (op.ne_name _ (by decide))
      case record attrs' =>
        have hattrs : attrs = attrs' := fieldsToJson_injective hchild h
        rw [hattrs]
    | call name args =>
      cases e' <;> simp at h
      case call name' args' =>
        obtain ⟨rfl, hargs⟩ := h
        have hargs : args = args' := listToJson_injective hchild hargs
        rw [hargs]
      case value v => exact absurd h.1 hnode.1
      case set items => exact absurd h.1 hnode.2

end

end Expr

end Arbiter
