/-
# Operators on typed operands

What evaluation can still fail with after checking: an overflow, or an entity that is not stored
(`EvalError.IsResidual`).  `Yields P x` says that `x` fails in no other way and that its value, if
it has one, satisfies `P`; steps are put together by `Yields.bind`.

For each operator there is one lemma: when the checker finds no fault in the types of the operands,
the types are definite and the operands yield values of them, then the operator yields a value of
its type.  Definite types matter because the checker asks nothing of an operand of which nothing is
known.
-/
import Arbiter.Proofs.Evaluation
import Arbiter.Proofs.Store.Described
import Arbiter.Proofs.Validation.Parts
import Mathlib.Data.List.Forall2

namespace Arbiter

open Outcome

/-! ## 1. Residual errors -/

/-- The errors that checking does not exclude. -/
def EvalError.IsResidual : EvalError → Prop
  | .integerOverflow _ | .entityDoesNotExist _ => True
  | _ => False

theorem EvalError.isResidual_iff {e : EvalError} :
    e.IsResidual ↔ (∃ op, e = .integerOverflow op) ∨ ∃ uid, e = .entityDoesNotExist uid := by
  cases e <;> simp [IsResidual]

/-- The value, if there is one, satisfies `P`; otherwise the error is a residual one. -/
def Yields {α : Type} (P : α → Prop) : Except EvalError α → Prop
  | .ok a => P a
  | .error e => e.IsResidual

namespace Yields

variable {α β : Type} {P : α → Prop} {Q : β → Prop} {x : Except EvalError α}

theorem bind {f : α → Except EvalError β} (hx : Yields P x)
    (hf : ∀ a, x = .ok a → P a → Yields Q (f a)) : Yields Q (x >>= f) := by
  cases x with
  | error e => exact hx
  | ok a => exact hf a rfl hx

theorem mono {R : α → Prop} (hx : Yields P x) (h : ∀ a, P a → R a) : Yields R x := by
  cases x with
  | error e => exact hx
  | ok a => exact h a hx

end Yields

/-! ## 2. Sorts of values -/

namespace Checker

variable {t : Ty} {v : Value}

/-- A definite type without a fault passes the test. -/
theorem ok_of_expect {ok : Ty → Bool} {name : String} (ht : t.Definite)
    (h : expect ok name t = []) : ok t = true := by
  unfold expect at h
  split at h
  · exact absurd rfl ht.ne_any
  · split at h
    · assumption
    · cases h

theorem exists_bool (ht : t.Definite) (h : expectBool t = []) (hv : v.HasType t) :
    ∃ b, v = .bool b := by
  have hok := ok_of_expect ht h
  cases ht with
  | bool => exact hv.exists_bool
  | _ => cases hok

theorem exists_long (ht : t.Definite) (h : expectLong t = []) (hv : v.HasType t) :
    ∃ n, v = .long n := by
  have hok := ok_of_expect ht h
  cases ht with
  | long => exact hv.exists_long
  | _ => cases hok

theorem exists_string (ht : t.Definite) (h : expectString t = []) (hv : v.HasType t) :
    ∃ x, v = .string x := by
  have hok := ok_of_expect ht h
  cases ht with
  | string => exact hv.exists_string
  | _ => cases hok

theorem exists_set (ht : t.Definite) (h : expectSet t = []) (hv : v.HasType t) :
    ∃ elems, v = .set elems := by
  have hok := ok_of_expect ht h
  cases ht with
  | set _ =>
    obtain ⟨elems, helems, -⟩ := hv.exists_set
    exact ⟨elems, helems⟩
  | _ => cases hok

theorem exists_entity (ht : t.Definite) (h : expectEntity t = []) (hv : v.HasType t) :
    ∃ uid, v = .entity uid := by
  have hok := ok_of_expect ht h
  cases ht with
  | entity =>
    obtain ⟨uid, huid, -⟩ := hv.exists_entity
    exact ⟨uid, huid⟩
  | _ => cases hok

theorem exists_ext {kind : ExtensionKind} {name : String} (ht : t.Definite)
    (h : expect (Ty.isExtension kind) name t = []) (hv : v.HasType t) :
    ∃ x, v = .ext x ∧ x.kind = kind := by
  have hok := ok_of_expect ht h
  cases ht with
  | extension =>
    rw [Ty.isExtension, beq_iff_eq] at hok
    exact hok ▸ hv.exists_ext
  | _ => cases hok

/-! ## 3. Operators on two values -/

/-- Something that an entity can be in is an entity or a set of entities. -/
theorem exists_isIn (store : EntityStore) (uid : EntityUid) (ht : t.Definite)
    (h : expectInTarget t = []) (hv : v.HasType t) : ∃ b, Evaluation.isIn store uid v = .ok b := by
  have hok := ok_of_expect ht h
  cases ht with
  | entity =>
    obtain ⟨ancestor, rfl, -⟩ := hv.exists_entity
    exact ⟨_, rfl⟩
  | set helem =>
    obtain ⟨elems, rfl, helems⟩ := hv.exists_set
    have hentities : ∀ w ∈ elems, ∃ u, w = .entity u := by
      intro w hw
      have hw := helems w hw
      cases helem with
      | never => cases hw
      | entity =>
        obtain ⟨u, rfl, -⟩ := hw.exists_entity
        exact ⟨u, rfl⟩
      | _ => cases hok
    obtain ⟨b, hb, -⟩ := Evaluation.isInAny_of_entities store uid hentities
    exact ⟨b, hb⟩
  | _ => cases hok

theorem yields_exact {op : String} (n : Option Int64) :
    Yields (fun v => v.HasType .long) (Evaluation.exact op n) := by
  cases n with
  | none => exact trivial
  | some _ => exact .long

section

variable {l r : Ty} {left right : Except EvalError Value} (hl : l.Definite) (hr : r.Definite)
  (hleft : Yields (fun v => v.HasType l) left) (hright : Yields (fun v => v.HasType r) right)

include hl hr hleft hright

theorem yields_longs {f : Int64 → Int64 → Except EvalError Value} {P : Value → Prop}
    (h : expectLong l ++ expectLong r = []) (hf : ∀ a b, Yields P (f a b)) :
    Yields P (left >>= fun x => x.asLong >>= fun a => right >>= fun y =>
      y.asLong >>= fun b => f a b) := by
  obtain ⟨hl', hr'⟩ := List.append_eq_nil_iff.mp h
  refine hleft.bind fun x _ hx => ?_
  obtain ⟨a, rfl⟩ := exists_long hl hl' hx
  refine hright.bind fun y _ hy => ?_
  obtain ⟨b, rfl⟩ := exists_long hr hr' hy
  exact hf a b

theorem yields_sets {f : List Value → List Value → Bool}
    (h : expectSet l ++ expectSet r = []) :
    Yields (fun v : Value => v.HasType .bool) (left >>= fun x => x.asSet >>= fun a =>
      right >>= fun y => y.asSet >>= fun b => .ok (.bool (f a b))) := by
  obtain ⟨hl', hr'⟩ := List.append_eq_nil_iff.mp h
  refine hleft.bind fun x _ hx => ?_
  obtain ⟨a, rfl⟩ := exists_set hl hl' hx
  refine hright.bind fun y _ hy => ?_
  obtain ⟨b, rfl⟩ := exists_set hr hr' hy
  exact .bool

/-- **An operator on two values yields a value of its type.** -/
theorem yields_binary {store : EntityStore} {op : BinaryOp} (h : (binary op l r).2 = []) :
    Yields (fun v => v.HasType (binary op l r).1) (Evaluation.binary store op left right) := by
  cases op with
  | eq => exact hleft.bind fun _ _ _ => hright.bind fun _ _ _ => .bool
  | notEq => exact hleft.bind fun _ _ _ => hright.bind fun _ _ _ => .bool
  | less => exact yields_longs hl hr hleft hright h fun _ _ => .bool
  | lessEq => exact yields_longs hl hr hleft hright h fun _ _ => .bool
  | greater => exact yields_longs hl hr hleft hright h fun _ _ => .bool
  | greaterEq => exact yields_longs hl hr hleft hright h fun _ _ => .bool
  | add => exact yields_longs hl hr hleft hright h fun _ _ => yields_exact _
  | sub => exact yields_longs hl hr hleft hright h fun _ _ => yields_exact _
  | mul => exact yields_longs hl hr hleft hright h fun _ _ => yields_exact _
  | isIn =>
    obtain ⟨hl', hr'⟩ := List.append_eq_nil_iff.mp h
    refine hleft.bind fun x _ hx => ?_
    obtain ⟨uid, rfl⟩ := exists_entity hl hl' hx
    refine hright.bind fun y _ hy => ?_
    obtain ⟨b, hb⟩ := exists_isIn store uid hr hr' hy
    simp only [hb, ok_bind, pure_eq_ok]
    exact .bool
  | contains =>
    obtain ⟨hl', -⟩ := List.append_eq_nil_iff.mp h
    refine hleft.bind fun x _ hx => ?_
    obtain ⟨elems, rfl⟩ := exists_set hl hl' hx
    exact hright.bind fun _ _ _ => .bool
  | containsAll => exact yields_sets hl hr hleft hright h
  | containsAny => exact yields_sets hl hr hleft hright h

end

/-! ## 4. Attributes -/

/-- Something with attributes has an attribute or not. -/
theorem exists_hasAttr (store : EntityStore) (attr : String) (ht : t.Definite)
    (h : expectOwner t = []) (hv : v.HasType t) : ∃ b, Evaluation.hasAttr store attr v = .ok b := by
  have hok := ok_of_expect ht h
  cases ht with
  | entity =>
    obtain ⟨uid, rfl, -⟩ := hv.exists_entity
    exact ⟨_, rfl⟩
  | record _ =>
    cases hv
    exact ⟨_, rfl⟩
  | _ => cases hok

/-- The attributes of a stored entity of a declared type are as declared. -/
theorem hasType_attrs {s : Schema} {store : EntityStore} (hd : s.Describes store) {uid : EntityUid}
    {e : Entity} {d : EntityDecl} (huid : s.entityType? uid.type = some d)
    (he : store.get? uid = some e) :
    (Value.record e.attrs.entries).HasType (.record (Ty.shapeOf d.shape)) := by
  obtain ⟨d', hd', hrecord, -⟩ :=
    Schema.conformTyped_eq_ok_iff.mp (hd.typed (hd.noActionType huid) he)
  rw [(EntityStore.mem_of_get? he).2, huid] at hd'
  cases hd'
  exact hasType_of_conformRecord hrecord

/-- An attribute that a record has to have, or is known to have, is there and of its type. -/
theorem exists_attr {attrs : List (String × Value)} {shape : Shape Ty} {attr : String} {a : Attr Ty}
    (hv : (Value.record attrs).HasType (.record shape)) (ha : shape.get? attr = some a)
    (hthere : a.required = true ∨ (SortedList.find? attr attrs).isSome = true) :
    ∃ w, SortedList.find? attr attrs = some w ∧ w.HasType a.type := by
  cases hv with
  | record type present =>
    have hfound : ∃ w, SortedList.find? attr attrs = some w := by
      rcases hthere with hrequired | hhas
      · exact present attr a ha hrequired
      · exact Option.isSome_iff_exists.mp hhas
    obtain ⟨w, hw⟩ := hfound
    exact ⟨w, hw, type attr a w ha hw⟩

/-- **Reading an attribute yields a value of its type**, when the attribute has to be there or is
known to be. -/
theorem yields_getAttr {s : Schema} {store : EntityStore} (hd : s.Describes store) {attr : String}
    {a : Attr Ty} (ht : t.Definite) (hv : v.HasType t) (h : (attrOf s attr t).1 = some a)
    (ha : a.type ≠ .any)
    (hthere : a.required = true ∨ Evaluation.hasAttr store attr v = .ok true) :
    Yields (fun w => w.HasType a.type) (Evaluation.getAttr store attr v) := by
  cases ht with
  | @record shape _ =>
    cases hv with
    | @record attrs _ type present =>
      have hget : shape.get? attr = some a := get?_of_attrOfShape h ha
      simp only [Evaluation.hasAttr, Except.ok.injEq] at hthere
      obtain ⟨w, hw, hwtype⟩ := exists_attr (.record type present) hget hthere
      simp only [Evaluation.getAttr, hw]
      exact hwtype
  | @entity types =>
    obtain ⟨uid, rfl, huid⟩ := hv.exists_entity
    obtain ⟨as, has, htype, hrequired, -⟩ := attrOf_entity h
    rw [htype] at ha ⊢
    obtain ⟨b, hb, hshape⟩ := (mem_attrsOfTypes has).1 uid.type huid
    have hbany : b.type ≠ .any := (ne_any_of_joinAll ha).2 _ (List.mem_map_of_mem hb)
    have hget : (shapeOfType s uid.type).get? attr = some b := get?_of_attrOfShape hshape hbany
    simp only [Evaluation.getAttr]
    cases he : store.get? uid with
    | none => exact trivial
    | some e =>
      cases hdecl : s.entityType? uid.type with
      | none =>
        simp only [shapeOfType, hdecl] at hget
        cases hget
      | some d =>
        simp only [shapeOfType, hdecl] at hget
        simp only [Evaluation.hasAttr, he, Option.any_some, Except.ok.injEq, hrequired,
          List.all_eq_true] at hthere
        obtain ⟨w, hw, hwtype⟩ :=
          exists_attr (hasType_attrs hd hdecl he) hget (hthere.imp_left fun h => h b hb)
        have hw : e.attr? attr = some w := hw
        simp only [hw]
        exact hasType_joinAll (Or.inr ⟨b.type, List.mem_map_of_mem hb, hwtype⟩)
  | _ => cases h

/-! ## 5. Calls -/

/-- The values are of the types, one by one. -/
def AllTyped (checked : List Checked) (vs : List Value) : Prop :=
  List.Forall₂ (fun (c : Checked) (v : Value) => v.HasType c.type) checked vs

/-- Two values that may be compared are compared. -/
theorem exists_compareArgs {a b : Checked} {x y : Value} (ha : a.type.Definite)
    (hb : b.type.Definite) (hx : x.HasType a.type) (hy : y.HasType b.type)
    (h : argFaults none [a, b] [.comparable, .comparable] = []) :
    ∃ o, ExtensionFunction.compareArgs x y = .ok o := by
  simp only [argFaults, List.append_eq_nil_iff] at h
  obtain ⟨⟨-, hfirst⟩, ⟨-, hsecond⟩, -⟩ := h
  generalize a.type = ta at *
  cases ha with
  | @extension kind =>
    simp only [comparable] at hfirst hsecond
    split at hfirst
    · rename_i hkind
      rw [if_pos hkind] at hsecond
      obtain ⟨u, rfl, hu⟩ := hx.exists_ext
      obtain ⟨w, rfl, hw⟩ := exists_ext hb hsecond hy
      cases kind with
      | ipaddr => cases hkind
      | decimal =>
        cases u <;> cases hu
        cases w <;> cases hw
        exact ⟨_, rfl⟩
      | u256 =>
        cases u <;> cases hu
        cases w <;> cases hw
        exact ⟨_, rfl⟩
    · cases hfirst
  | _ => cases hfirst

/-- An argument that has to be an IP value is one. -/
theorem exists_ipArg {c : Checked} {v : Value} (hc : c.type.Definite) (hv : v.HasType c.type)
    (h : expect (Ty.isExtension .ipaddr) ExtensionKind.ipaddr.name c.type = []) :
    ∃ a, ExtensionFunction.ipArg v = .ok a := by
  obtain ⟨x, rfl, hx⟩ := exists_ext hc h hv
  cases x <;> cases hx
  exact ⟨_, rfl⟩

namespace AllTyped

variable {checked : List Checked} {vs : List Value}

theorem exists_one (h : AllTyped checked vs) (hlen : checked.length = 1) :
    ∃ c v, checked = [c] ∧ vs = [v] ∧ v.HasType c.type := by
  obtain ⟨c, rfl⟩ := List.length_eq_one_iff.mp hlen
  cases h with
  | cons hv hrest =>
    cases hrest
    exact ⟨c, _, rfl, rfl, hv⟩

theorem exists_two (h : AllTyped checked vs) (hlen : checked.length = 2) :
    ∃ a b x y, checked = [a, b] ∧ vs = [x, y] ∧ x.HasType a.type ∧ y.HasType b.type := by
  obtain ⟨a, b, rfl⟩ := List.length_eq_two.mp hlen
  cases h with
  | cons hx hrest =>
    cases hrest with
    | cons hy hrest =>
      cases hrest
      exact ⟨a, b, _, _, rfl, rfl, hx, hy⟩

end AllTyped

section

variable {checked : List Checked} {vs : List Value}
  (hdefinite : ∀ c ∈ checked, c.type.Definite) (hvs : AllTyped checked vs)

include hdefinite hvs

/-- Comparisons answer with a truth value, whichever they are. -/
theorem yields_comparison (hlen : checked.length = 2)
    (h : argFaults none checked [.comparable, .comparable] = []) :
    ∃ x y, vs = [x, y] ∧ ∀ holds : Ordering → Bool, Yields (fun v : Value => v.HasType .bool)
      (ExtensionFunction.compareArgs x y >>= fun o => .ok (.bool (holds o))) := by
  obtain ⟨a, b, x, y, rfl, rfl, hx, hy⟩ := hvs.exists_two hlen
  obtain ⟨ha, hb⟩ := List.forall_mem_cons.mp hdefinite
  obtain ⟨o, ho⟩ := exists_compareArgs ha (hb b List.mem_cons_self) hx hy h
  refine ⟨x, y, rfl, fun holds => ?_⟩
  rw [ho]
  exact .bool

/-- So do predicates on an IP value. -/
theorem yields_ipPredicate (hlen : checked.length = 1)
    (h : argFaults none checked [.extension .ipaddr] = []) :
    ∃ x, vs = [x] ∧ ∀ holds : IpAddress → Bool, Yields (fun v : Value => v.HasType .bool)
      (ExtensionFunction.ipArg x >>= fun a => .ok (.bool (holds a))) := by
  obtain ⟨c, x, rfl, rfl, hx⟩ := hvs.exists_one hlen
  simp only [argFaults, List.append_eq_nil_iff] at h
  obtain ⟨a, ha⟩ := exists_ipArg (hdefinite c List.mem_cons_self) hx h.1.2
  refine ⟨x, rfl, fun holds => ?_⟩
  rw [ha]
  exact .bool

/-- **A call without faults yields a value of the type of the function.** -/
theorem yields_call {f : ExtensionFunction} (hlen : checked.length = f.signature.params.length)
    (h : argFaults none checked f.signature.params = []) (hf : f.isConstructor = false) :
    Yields (fun v => v.HasType (returnType f.signature.returns)) (f.call vs) := by
  cases f with
  | make kind => cases hf
  | isInRange =>
    obtain ⟨a, b, x, y, rfl, rfl, hx, hy⟩ := hvs.exists_two hlen
    obtain ⟨ha, hb⟩ := List.forall_mem_cons.mp hdefinite
    simp only [ExtensionFunction.signature, argFaults, List.append_eq_nil_iff] at h
    obtain ⟨addr, haddr⟩ := exists_ipArg ha hx h.1.2
    obtain ⟨range, hrange⟩ := exists_ipArg (hb b List.mem_cons_self) hy h.2.1.2
    simp only [ExtensionFunction.call, haddr, hrange, ok_bind, pure_eq_ok]
    exact .bool
  | lessThan | lessThanOrEqual | greaterThan | greaterThanOrEqual =>
    obtain ⟨x, y, rfl, hyields⟩ := yields_comparison hdefinite hvs hlen h
    exact hyields _
  | isIpv4 | isIpv6 | isLoopback | isMulticast =>
    obtain ⟨x, rfl, hyields⟩ := yields_ipPredicate hdefinite hvs hlen h
    exact hyields _

end

end Checker

end Arbiter
