/-
# Slots without values are never met

Only the scope of a policy mentions slots: the value of an expression is never missing for one
(`Expr.noSlotError_eval`).  A policy that is made of a template has a value for every slot of its
scope, so the references of its scope have entities (`Policy.Made.exists_resolve`), no decision
reports an unlinked slot (`PolicySet.WellFormed.noSlotError_of_authorize`), and a listing leaves out a
policy only because its effect is not asked for or its constraint does not admit the principal
(`PolicySet.WellFormed.listed_or_unmatched`).
-/
import Arbiter.Authorization.Listing
import Arbiter.Proofs.Authorization.Decision

namespace Arbiter

open Outcome

/-! ## 1. Outcomes without an unlinked slot -/

/-- The outcome is not the report of a slot without a value. -/
def NoSlotError {α : Type} (x : Except EvalError α) : Prop := ∀ s, x ≠ .error (.unlinkedSlot s)

namespace NoSlotError

variable {α β : Type} {x : Except EvalError α}

@[simp] theorem ok (a : α) : NoSlotError (.ok a : Except EvalError α) := nofun

@[simp] theorem pure (a : α) : NoSlotError (Pure.pure a : Except EvalError α) := nofun

theorem bind {f : α → Except EvalError β} (hx : NoSlotError x) (hf : ∀ a, NoSlotError (f a)) :
    NoSlotError (x >>= f) := by
  intro s h
  cases x with
  | error e => exact hx s (congrArg Except.error (Except.error.inj h))
  | ok a => exact hf a s h

end NoSlotError

namespace Value

variable (v : Value)

theorem noSlotError_asBool : NoSlotError v.asBool := by cases v <;> nofun

theorem noSlotError_asLong : NoSlotError v.asLong := by cases v <;> nofun

theorem noSlotError_asSet : NoSlotError v.asSet := by cases v <;> nofun

theorem noSlotError_asEntity : NoSlotError v.asEntity := by cases v <;> nofun

theorem noSlotError_asString : NoSlotError v.asString := by cases v <;> nofun

end Value

/-! ## 2. Operators -/

namespace Evaluation

theorem noSlotError_exact (op : String) (n : Option Int64) : NoSlotError (exact op n) := by
  cases n <;> nofun

theorem noSlotError_isInAny (store : EntityStore) (uid : EntityUid) :
    ∀ elems : List Value, NoSlotError (isInAny store uid elems)
  | [] => .ok false
  | .entity ancestor :: rest => by
    rw [isInAny]
    split
    · exact .ok true
    · exact noSlotError_isInAny store uid rest
  | .bool _ :: _ | .long _ :: _ | .string _ :: _ | .set _ :: _ | .record _ :: _ | .ext _ :: _ =>
    nofun

theorem noSlotError_isIn (store : EntityStore) (uid : EntityUid) (v : Value) :
    NoSlotError (isIn store uid v) := by
  cases v with
  | set elems => exact noSlotError_isInAny store uid elems
  | _ => nofun

theorem noSlotError_getAttr (store : EntityStore) (attr : String) (v : Value) :
    NoSlotError (getAttr store attr v) := by
  unfold getAttr
  repeat' split
  all_goals nofun

theorem noSlotError_hasAttr (store : EntityStore) (attr : String) (v : Value) :
    NoSlotError (hasAttr store attr v) := by
  cases v <;> nofun

theorem noSlotError_binary (store : EntityStore) (op : BinaryOp) {l r : Except EvalError Value}
    (hl : NoSlotError l) (hr : NoSlotError r) : NoSlotError (binary store op l r) := by
  have hlongs {f : Int64 → Int64 → Except EvalError Value} (v : Value)
      (hf : ∀ a b, NoSlotError (f a b)) :
      NoSlotError (do
        let a ← v.asLong
        f a (← (← r).asLong)) :=
    .bind v.noSlotError_asLong fun a => .bind hr fun w => .bind w.noSlotError_asLong (hf a)
  refine .bind hl fun v => ?_
  cases op with
  | eq | notEq => exact .bind hr fun w => .pure _
  | less | lessEq | greater | greaterEq => exact hlongs v fun _ _ => .pure _
  | add | sub | mul => exact hlongs v fun _ _ => noSlotError_exact _ _
  | isIn =>
    exact .bind v.noSlotError_asEntity fun uid => .bind hr fun w =>
      .bind (noSlotError_isIn store uid w) fun _ => .pure _
  | contains => exact .bind v.noSlotError_asSet fun _ => .bind hr fun _ => .pure _
  | containsAll | containsAny =>
    exact .bind v.noSlotError_asSet fun _ => .bind hr fun w =>
      .bind w.noSlotError_asSet fun _ => .pure _

end Evaluation

namespace ExtensionFunction

theorem noSlotError_named (name : String) : NoSlotError (named name) := by
  unfold named
  split <;> nofun

theorem noSlotError_stringArg (v : Value) : NoSlotError (stringArg v) := by cases v <;> nofun

theorem noSlotError_ipArg (v : Value) : NoSlotError (ipArg v) := by
  unfold ipArg
  split <;> nofun

theorem noSlotError_compareArgs (v w : Value) : NoSlotError (compareArgs v w) := by
  unfold compareArgs
  split <;> nofun

theorem noSlotError_construct (kind : ExtensionKind) (text : String) :
    NoSlotError (construct kind text) := by
  unfold construct
  cases ExtensionValue.ofArgument kind text <;> nofun

theorem noSlotError_call (f : ExtensionFunction) (args : List Value) :
    NoSlotError (f.call args) := by
  unfold call
  split
  case h_1 kind v =>
    exact .bind (noSlotError_stringArg v) fun text =>
      .bind (noSlotError_construct kind text) fun _ => .pure _
  case h_2 v w | h_3 v w | h_4 v w | h_5 v w =>
    exact .bind (noSlotError_compareArgs v w) fun _ => .pure _
  case h_6 v | h_7 v | h_8 v | h_9 v => exact .bind (noSlotError_ipArg v) fun _ => .pure _
  case h_10 v w =>
    exact .bind (noSlotError_ipArg v) fun _ => .bind (noSlotError_ipArg w) fun _ => .pure _
  case h_11 => nofun

end ExtensionFunction

/-! ## 3. Expressions and conditions -/

namespace Expr

variable (request : Request) (store : EntityStore)

mutual

/-- **The value of an expression is never missing for a slot.** -/
theorem noSlotError_eval : ∀ e : Expr, NoSlotError (e.eval request store)
  | .value _ | .var _ => .ok _
  | .not e => .bind (noSlotError_eval e) fun v => .bind v.noSlotError_asBool fun _ => .pure _
  | .neg e =>
    .bind (noSlotError_eval e) fun v => .bind v.noSlotError_asLong fun _ =>
      Evaluation.noSlotError_exact _ _
  | .isEmpty e => .bind (noSlotError_eval e) fun v => .bind v.noSlotError_asSet fun _ => .pure _
  | .and l r => by
    refine .bind (noSlotError_eval l) fun v => .bind v.noSlotError_asBool fun b => ?_
    cases b with
    | true => exact .bind (noSlotError_eval r) fun w => .bind w.noSlotError_asBool fun _ => .pure _
    | false => exact .pure _
  | .or l r => by
    refine .bind (noSlotError_eval l) fun v => .bind v.noSlotError_asBool fun b => ?_
    cases b with
    | true => exact .pure _
    | false => exact .bind (noSlotError_eval r) fun w => .bind w.noSlotError_asBool fun _ => .pure _
  | .ite c y n => by
    refine .bind (noSlotError_eval c) fun v => .bind v.noSlotError_asBool fun b => ?_
    cases b with
    | true => exact noSlotError_eval y
    | false => exact noSlotError_eval n
  | .binary op l r => Evaluation.noSlotError_binary store op (noSlotError_eval l) (noSlotError_eval r)
  | .getAttr e attr =>
    .bind (noSlotError_eval e) fun v => Evaluation.noSlotError_getAttr store attr v
  | .hasAttr e attr =>
    .bind (noSlotError_eval e) fun v =>
      .bind (Evaluation.noSlotError_hasAttr store attr v) fun _ => .pure _
  | .like e _ => .bind (noSlotError_eval e) fun v => .bind v.noSlotError_asString fun _ => .pure _
  | .isType e _ => .bind (noSlotError_eval e) fun v => .bind v.noSlotError_asEntity fun _ => .pure _
  | .isTypeIn e t target => by
    refine .bind (noSlotError_eval e) fun v => .bind v.noSlotError_asEntity fun uid => ?_
    split
    · exact .bind (noSlotError_eval target) fun w =>
        .bind (Evaluation.noSlotError_isIn store uid w) fun _ => .pure _
    · exact .pure _
  | .set items => .bind (noSlotError_evalList items) fun _ => .pure _
  | .record attrs => .bind (noSlotError_evalFields attrs) fun _ => .pure _
  | .call name args =>
    .bind (ExtensionFunction.noSlotError_named name) fun f =>
      .bind (noSlotError_evalList args) fun vs => f.noSlotError_call vs

theorem noSlotError_evalList : ∀ es : List Expr, NoSlotError (evalList request store es)
  | [] => .ok _
  | e :: es => .bind (noSlotError_eval e) fun _ => .bind (noSlotError_evalList es) fun _ => .pure _

theorem noSlotError_evalFields :
    ∀ attrs : List (String × Expr), NoSlotError (evalFields request store attrs)
  | [] => .ok _
  | (_, e) :: attrs =>
    .bind (noSlotError_eval e) fun _ => .bind (noSlotError_evalFields attrs) fun _ => .pure _

end

end Expr

theorem noSlotError_conditionsHold (request : Request) (store : EntityStore) :
    ∀ cs : List Condition, NoSlotError (conditionsHold request store cs)
  | [] => .ok _
  | c :: cs => by
    have hbool : NoSlotError (c.body.evalBool request store) :=
      .bind (c.body.noSlotError_eval request store) fun v => v.noSlotError_asBool
    refine .bind hbool fun b => ?_
    split
    · exact noSlotError_conditionsHold request store cs
    · exact .pure _

/-! ## 4. Policies -/

/-- The reference of a constraint. -/
def ScopeConstraint.ref? : ScopeConstraint → Option EntityRef
  | .eq r | .isIn r | .isTypeIn _ r => some r
  | .any | .isType _ => none

theorem ScopeConstraint.slot?_of_ref? {c : ScopeConstraint} {r : EntityRef} (h : c.ref? = some r) :
    c.slot? = r.slot? := by
  cases c <;> cases h <;> rfl

namespace Policy.Made

variable {p : Policy}

/-- Every reference of the scope has an entity. -/
theorem exists_resolve (hp : p.Made) {r : EntityRef}
    (hr : p.template.principal.ref? = some r ∨ p.template.resource.ref? = some r) :
    ∃ u, p.resolve r = .ok u := by
  refine Policy.exists_resolve fun s hs => ?_
  rcases hr with hr | hr
  · exact hp.resolves_principal s ((ScopeConstraint.slot?_of_ref? hr).trans hs)
  · exact hp.resolves_resource s ((ScopeConstraint.slot?_of_ref? hr).trans hs)

theorem noSlotError_isSatisfied (hp : p.Made) (request : Request) (store : EntityStore) :
    NoSlotError (p.isSatisfied request store) := by
  obtain ⟨b, hscope⟩ := hp.exists_scopeMatches request store
  unfold isSatisfied
  rw [hscope, ok_bind]
  cases b with
  | true => exact noSlotError_conditionsHold request store _
  | false => exact .pure _

/-- A policy is listed unless its constraint does not admit the principal. -/
theorem ofPolicy?_eq_none_iff (hp : p.Made) {store : EntityStore} {principal : EntityUid} :
    PolicyMatch.ofPolicy? store principal p = none ↔
      p.principalMatch store principal = .ok none := by
  obtain ⟨way, hway⟩ := hp.resolves_principal.exists_scopeMatch store principal
  have hmatch : p.principalMatch store principal = .ok way := hway
  unfold PolicyMatch.ofPolicy?
  rw [hmatch]
  cases way with
  | none => exact iff_of_true rfl rfl
  | some way => exact iff_of_false nofun nofun

end Policy.Made

/-! ## 5. Policy sets -/

namespace PolicySet.WellFormed

variable {s : PolicySet}

/-- **No decision reports an unlinked slot.** -/
theorem noSlotError_of_authorize (hs : s.WellFormed) {request : Request} {store : EntityStore}
    {r : Response} (h : authorize request s store = .ok r) :
    ∀ f ∈ r.errors, ∀ slot, f.error ≠ .unlinkedSlot slot := by
  obtain ⟨-, rfl⟩ := authorize_eq_ok_iff.mp h
  intro f hf slot herror
  rw [respond, combine_errors, failures, List.mem_filterMap] at hf
  obtain ⟨p, hp, hfails⟩ := hf
  unfold Policy.failure? at hfails
  split at hfails
  · cases hfails
  · rename_i error hsatisfied
    cases hfails
    have hslot := (hs.made_of_mem hp).noSlotError_isSatisfied request store slot
    rw [hsatisfied] at hslot
    exact hslot (congrArg Except.error herror)

/-- **A policy of the effects that are asked for is listed, or its constraint does not admit the
principal.** -/
theorem listed_or_unmatched (hs : s.WellFormed) {p : Policy} (hp : p ∈ s.policies)
    (store : EntityStore) (principal : EntityUid) {filter : EffectFilter}
    (heffect : filter.admits p.template.effect = true) :
    (∃ m ∈ s.matchesFor store principal filter, m.policy = p.id) ∨
      p.principalMatch store principal = .ok none := by
  cases hmatch : PolicyMatch.ofPolicy? store principal p with
  | none => exact Or.inr ((hs.made_of_mem hp).ofPolicy?_eq_none_iff.mp hmatch)
  | some m =>
    refine Or.inl ⟨m, ?_, ?_⟩
    · exact List.mem_filterMap.mpr ⟨p, List.mem_filter.mpr ⟨hp, heffect⟩, hmatch⟩
    · unfold PolicyMatch.ofPolicy? at hmatch
      split at hmatch
      · cases hmatch
        rfl
      · cases hmatch

end PolicySet.WellFormed

end Arbiter
