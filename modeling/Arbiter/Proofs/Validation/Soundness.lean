/-
# Checked expressions do not go wrong

An expression without faults in an environment yields a value of its type, for every request that is
in the environment (`RequestEnv.Fits`) over every store that the schema describes, unless a part of
it is of the type `any` (`Expr.sound`).  The induction is on the expression.  It carries along that
the known facts hold, which is what a read of an attribute that may be missing stands on; a
conjunction and a condition hand them on to what is evaluated after them.

So a policy whose template has no faults fails with residual errors only
(`Policy.isResidual_of_isSatisfied`): when its scope matches, the request is in one of the
environments in which the conditions were checked.
-/
import Arbiter.Proofs.Authorization.Decision
import Arbiter.Proofs.Elementwise
import Arbiter.Proofs.Validation.Environments
import Arbiter.Proofs.Validation.Facts
import Arbiter.Proofs.Validation.Operators

namespace Arbiter

open Outcome

/-! ## 1. Lists of operands -/

section

variable {request : Request} {store : EntityStore}

theorem Expr.yields_evalList {P : Expr → Value → Prop} : ∀ {es : List Expr},
    (∀ e ∈ es, Yields (P e) (e.eval request store)) →
      Yields (fun vs => List.Forall₂ P es vs) (evalList request store es)
  | [], _ => .nil
  | e :: es, h => by
    obtain ⟨he, hes⟩ := List.forall_mem_cons.mp h
    exact he.bind fun v _ hv => (yields_evalList hes).bind fun vs _ hvs => .cons hv hvs

theorem Expr.exists_of_forall₂ {P : Expr → Value → Prop} {es : List Expr} {vs : List Value}
    (h : List.Forall₂ P es vs) : ∀ v ∈ vs, ∃ e ∈ es, P e v := by
  induction h with
  | nil => exact nofun
  | cons hv _ ih =>
    intro w hw
    rcases List.mem_cons.mp hw with rfl | hw
    · exact ⟨_, List.mem_cons_self, hv⟩
    · obtain ⟨e, he, hew⟩ := ih w hw
      exact ⟨e, List.mem_cons_of_mem _ he, hew⟩

theorem Expr.yields_evalFields {P : Expr → Value → Prop} : ∀ {fs : List (String × Expr)},
    (∀ f ∈ fs, Yields (P f.2) (f.2.eval request store)) →
      Yields (fun vs => List.Forall₂ (fun f v => f.1 = v.1 ∧ P f.2 v.2) fs vs)
        (evalFields request store fs)
  | [], _ => .nil
  | (name, e) :: fs, h => by
    obtain ⟨he, hfs⟩ := List.forall_mem_cons.mp h
    exact he.bind fun v _ hv => (yields_evalFields hfs).bind fun vs _ hvs => .cons ⟨rfl, hv⟩ hvs

end

/-- Attributes that are of the types of a list are a record of those types. -/
theorem hasType_recordOf {tys : List (String × Attr Ty)} {vs : List (String × Value)}
    (h : List.Forall₂ (fun t v => t.1 = v.1 ∧ v.2.HasType t.2.type) tys vs) :
    (Value.recordOf vs).HasType (.record (.closed tys)) := by
  have hrel : SortedList.Related (fun (a : Attr Ty) (v : Value) => v.HasType a.type)
      (SortedList.ofPairs tys) (SortedList.ofPairs vs) := SortedList.related_ofPairs h
  refine .record ?_ ?_
  · intro name a v ha hv
    exact (hrel name).2 a v ha hv
  · intro name a ha _
    exact (hrel name).1 a ha

/-! ## 2. Requests in an environment -/

/-- The request is in the environment, about which nothing is unknown. -/
structure RequestEnv.Fits (env : RequestEnv) (request : Request) : Prop where
  principal : request.principal.type = env.principal
  action : request.action = env.action
  resource : request.resource.type = env.resource
  context : request.context.toValue.HasType env.context
  definite : env.context.Definite

theorem RequestEnv.Fits.hasType_var {env : RequestEnv} {request : Request} (h : env.Fits request)
    (v : Var) : (Evaluation.var request v).HasType (Checker.var env v) := by
  cases v with
  | principal =>
    rw [Checker.var, ← h.principal]
    exact Value.HasType.ofEntityType
  | action =>
    rw [Checker.var, ← h.action]
    exact Value.HasType.ofEntityType
  | resource =>
    rw [Checker.var, ← h.resource]
    exact Value.HasType.ofEntityType
  | context => exact h.context

/-- A request that is admitted fits its environment. -/
theorem ActionDecl.fits_env {request : Request} {d : ActionDecl}
    (h : conformRecord d.context "context" request.context.attrs.entries = .ok ()) :
    (request.env d).Fits request where
  principal := rfl
  action := rfl
  resource := rfl
  context := hasType_of_conformRecord h
  definite := Ty.definite_shapeOf d.context

/-! ## 3. Expressions -/

theorem ExtensionFunction.kind_of_construct {kind : ExtensionKind} {text : String}
    {x : ExtensionValue} (h : construct kind text = .ok x) : x.kind = kind := by
  have h : ExtensionValue.ofArgument kind text = .ok x := mapError_eq_ok_iff.mp h
  cases kind <;> simp only [ExtensionValue.ofArgument] at h <;> split at h <;> cases h <;> rfl

namespace Expr

open Checker

variable {s : Schema} {store : EntityStore} {env : RequestEnv} {request : Request}

theorem yields_evalBool {e : Expr} {t : Ty} (ht : t.Definite) (h : expectBool t = [])
    (he : Yields (fun v => v.HasType t) (e.eval request store)) :
    Yields (fun _ => True) (e.evalBool request store) := by
  refine he.bind fun v _ hv => ?_
  obtain ⟨b, rfl⟩ := exists_bool ht h hv
  exact trivial

/-- Whenever the known facts hold and there are no faults, the expression yields a value of its
type. -/
def Sound (s : Schema) (store : EntityStore) (env : RequestEnv) (request : Request) (e : Expr) :
    Prop :=
  ∀ known, Facts.Hold request store known → (e.check s env known).faults = [] →
    Yields (fun v => v.HasType (e.check s env known).type) (e.eval request store)

section

variable {e l r : Expr}

theorem sound_not (he : e.Sound s store env request) (hde : e.DefiniteIn s env) :
    (Expr.not e).Sound s store env request := by
  intro known hknown h
  obtain ⟨hfaults, hexpect⟩ := List.append_eq_nil_iff.mp h
  rw [eval_not]
  exact (yields_evalBool (hde known) hexpect (he known hknown hfaults)).bind fun _ _ _ => .bool

theorem sound_neg (he : e.Sound s store env request) (hde : e.DefiniteIn s env) :
    (Expr.neg e).Sound s store env request := by
  intro known hknown h
  obtain ⟨hfaults, hexpect⟩ := List.append_eq_nil_iff.mp h
  refine (he known hknown hfaults).bind fun v _ hv => ?_
  obtain ⟨n, rfl⟩ := exists_long (hde known) hexpect hv
  exact yields_exact _

theorem sound_isEmpty (he : e.Sound s store env request) (hde : e.DefiniteIn s env) :
    (Expr.isEmpty e).Sound s store env request := by
  intro known hknown h
  obtain ⟨hfaults, hexpect⟩ := List.append_eq_nil_iff.mp h
  refine (he known hknown hfaults).bind fun v _ hv => ?_
  obtain ⟨elems, rfl⟩ := exists_set (hde known) hexpect hv
  exact .bool

theorem sound_like {p : Pattern} (he : e.Sound s store env request) (hde : e.DefiniteIn s env) :
    (Expr.like e p).Sound s store env request := by
  intro known hknown h
  obtain ⟨hfaults, hexpect⟩ := List.append_eq_nil_iff.mp h
  refine (he known hknown hfaults).bind fun v _ hv => ?_
  obtain ⟨x, rfl⟩ := exists_string (hde known) hexpect hv
  exact .bool

/-- The right operand is evaluated only when the left one is true, and so may use its facts. -/
theorem sound_and (hl : l.Sound s store env request) (hr : r.Sound s store env request)
    (hdl : l.DefiniteIn s env) (hdr : r.DefiniteIn s env) :
    (Expr.and l r).Sound s store env request := by
  intro known hknown h
  simp only [check, List.append_eq_nil_iff] at h
  obtain ⟨⟨⟨hfl, hel⟩, hfr⟩, her⟩ := h
  rw [eval_and]
  refine (yields_evalBool (hdl known) hel (hl known hknown hfl)).bind fun b hb _ => ?_
  cases b with
  | false => exact .bool
  | true =>
    have hfacts : Facts.Hold request store (known ++ (l.check s env known).facts) :=
      hknown.append (hold_facts l known (evalBool_eq_ok_iff.mp hb))
    exact (yields_evalBool (hdr _) her (hr _ hfacts hfr)).bind fun _ _ _ => .bool

theorem sound_or (hl : l.Sound s store env request) (hr : r.Sound s store env request)
    (hdl : l.DefiniteIn s env) (hdr : r.DefiniteIn s env) :
    (Expr.or l r).Sound s store env request := by
  intro known hknown h
  simp only [check, List.append_eq_nil_iff] at h
  obtain ⟨⟨⟨hfl, hel⟩, hfr⟩, her⟩ := h
  rw [eval_or]
  refine (yields_evalBool (hdl known) hel (hl known hknown hfl)).bind fun b _ _ => ?_
  cases b with
  | true => exact .bool
  | false => exact (yields_evalBool (hdr known) her (hr known hknown hfr)).bind fun _ _ _ => .bool

theorem sound_ite {c : Expr} (hc : c.Sound s store env request) (hl : l.Sound s store env request)
    (hr : r.Sound s store env request) (hdc : c.DefiniteIn s env) :
    (Expr.ite c l r).Sound s store env request := by
  intro known hknown h
  simp only [check, List.append_eq_nil_iff] at h ⊢
  obtain ⟨⟨⟨⟨hfc, hec⟩, hfl⟩, hfr⟩, -⟩ := h
  rw [eval_ite]
  refine (yields_evalBool (hdc known) hec (hc known hknown hfc)).bind fun b hb _ => ?_
  cases b with
  | true =>
    have hfacts : Facts.Hold request store (known ++ (c.check s env known).facts) :=
      hknown.append (hold_facts c known (evalBool_eq_ok_iff.mp hb))
    exact (hl _ hfacts hfl).mono fun v hv =>
      hasType_joinAll (Or.inr ⟨_, List.mem_cons_self, hv⟩)
  | false =>
    exact (hr known hknown hfr).mono fun v hv =>
      hasType_joinAll (Or.inr ⟨_, List.mem_cons_of_mem _ List.mem_cons_self, hv⟩)

theorem sound_binary {op : BinaryOp} (hl : l.Sound s store env request)
    (hr : r.Sound s store env request) (hdl : l.DefiniteIn s env) (hdr : r.DefiniteIn s env) :
    (Expr.binary op l r).Sound s store env request := by
  intro known hknown h
  simp only [check, List.append_eq_nil_iff] at h
  exact yields_binary (hdl known) (hdr known) (hl known hknown h.1.1) (hr known hknown h.1.2) h.2

/-- A read of an attribute that may be missing stands on a fact about the same expression. -/
theorem sound_getAttr {attr : String} (hd : s.Describes store) (he : e.Sound s store env request)
    (hde : e.DefiniteIn s env) (hda : (Expr.getAttr e attr).DefiniteIn s env) :
    (Expr.getAttr e attr).Sound s store env request := by
  intro known hknown h
  have hany : ((Expr.getAttr e attr).check s env known).type ≠ .any := (hda known).ne_any
  simp only [check, List.append_eq_nil_iff] at h hany ⊢
  obtain ⟨a, ha, -, htype, hguard⟩ := exists_of_getAttr h.2 hany
  rw [htype] at hany ⊢
  refine (he known hknown h.1).bind fun v hv hvt => ?_
  refine yields_getAttr hd (hde known) hvt ha hany (hguard.imp_right fun hfact => ?_)
  have hhas := hknown _ hfact
  simp only [eval, hv, ok_bind] at hhas
  obtain ⟨b, hb, hbool⟩ := bind_eq_ok_iff.mp hhas
  cases hbool
  exact hb

theorem sound_hasAttr {attr : String} (he : e.Sound s store env request)
    (hde : e.DefiniteIn s env) : (Expr.hasAttr e attr).Sound s store env request := by
  intro known hknown h
  obtain ⟨hfaults, hexpect⟩ := List.append_eq_nil_iff.mp h
  refine (he known hknown hfaults).bind fun v _ hv => ?_
  obtain ⟨b, hb⟩ := exists_hasAttr store attr (hde known) hexpect hv
  simp only [hb, ok_bind, pure_eq_ok]
  exact .bool

theorem sound_isType {t : EntityType} (he : e.Sound s store env request)
    (hde : e.DefiniteIn s env) : (Expr.isType e t).Sound s store env request := by
  intro known hknown h
  simp only [check, List.append_eq_nil_iff] at h
  refine (he known hknown h.1.1).bind fun v _ hv => ?_
  obtain ⟨uid, rfl⟩ := exists_entity (hde known) h.1.2 hv
  exact .bool

theorem sound_isTypeIn {t : EntityType} (hl : l.Sound s store env request)
    (hr : r.Sound s store env request) (hdl : l.DefiniteIn s env) (hdr : r.DefiniteIn s env) :
    (Expr.isTypeIn l t r).Sound s store env request := by
  intro known hknown h
  simp only [check, List.append_eq_nil_iff] at h
  obtain ⟨⟨⟨⟨hfl, hel⟩, -⟩, hfr⟩, her⟩ := h
  refine (hl known hknown hfl).bind fun v _ hv => ?_
  obtain ⟨uid, rfl⟩ := exists_entity (hdl known) hel hv
  simp only [Value.asEntity, ok_bind]
  split
  · refine (hr known hknown hfr).bind fun w _ hw => ?_
    obtain ⟨b, hb⟩ := exists_isIn store uid (hdr known) her hw
    simp only [hb, ok_bind, pure_eq_ok]
    exact .bool
  · exact .bool

end

theorem sound_set {items : List Expr} (h : ∀ e ∈ items, e.Sound s store env request) :
    (Expr.set items).Sound s store env request := by
  intro known hknown hfaults
  simp only [check, checkList_eq_map, List.append_eq_nil_iff, List.flatMap_eq_nil_iff,
    List.forall_mem_map] at hfaults ⊢
  refine (yields_evalList fun e he => h e he known hknown (hfaults.1 e he)).bind
    fun vs _ hvs => .set fun v hv => ?_
  obtain ⟨e, he, hv⟩ := exists_of_forall₂ hvs v (SortedList.mem_ofElems.mp hv)
  exact hasType_joinAll (Or.inr ⟨_, List.mem_map_of_mem (List.mem_map_of_mem he), hv⟩)

theorem sound_record {attrs : List (String × Expr)}
    (h : ∀ f ∈ attrs, f.2.Sound s store env request) :
    (Expr.record attrs).Sound s store env request := by
  intro known hknown hfaults
  simp only [check, checkFields_eq_map, List.flatMap_eq_nil_iff, List.forall_mem_map,
    List.map_map] at hfaults ⊢
  have hattrs : ∀ f ∈ attrs, Yields (fun v => v.HasType (f.2.check s env known).type)
      (f.2.eval request store) := fun f hf => h f hf known hknown (hfaults f hf)
  refine (yields_evalFields (P := fun e v => v.HasType (e.check s env known).type) hattrs).bind
    fun vs _ hvs => ?_
  exact hasType_recordOf (List.forall₂_map_left_iff.mpr hvs)

theorem sound_call {name : String} {args : List Expr}
    (h : ∀ e ∈ args, e.Sound s store env request) (hdef : ∀ e ∈ args, e.DefiniteIn s env) :
    (Expr.call name args).Sound s store env request := by
  intro known hknown hfaults
  simp only [check, checkList_eq_map] at hfaults ⊢
  obtain ⟨f, hf, hlen, htype, hargs⟩ := call_eq_nil hfaults
  rw [htype]
  have hnamed : ExtensionFunction.named name = .ok f := by
    unfold ExtensionFunction.named
    rw [hf]
  simp only [eval, hnamed, ok_bind]
  rcases hargs with ⟨kind, rfl, hliteral⟩ | ⟨hargs, hconstructor⟩
  · obtain ⟨text, x, rfl, hx⟩ := exists_literal_of_literalFaults hliteral hlen
      (by rw [List.length_map]; exact hlen)
    have hcall : (ExtensionFunction.make kind).call [.string text] = .ok (.ext x) := by
      simp only [ExtensionFunction.call, ExtensionFunction.stringArg, ok_bind, hx, pure_eq_ok]
    show Yields _ ((ExtensionFunction.make kind).call [.string text])
    rw [hcall]
    exact ExtensionFunction.kind_of_construct hx ▸ .ext
  · have hlen' : (args.map fun e => e.check s env known).length = f.signature.params.length := by
      rw [List.length_map]
      exact hlen
    have hchecked := List.forall_mem_map.mp (faults_of_argFaults hargs hlen')
    refine (yields_evalList fun e he => h e he known hknown (hchecked e he)).bind fun vs _ hvs => ?_
    exact yields_call (List.forall_mem_map.mpr fun e he => hdef e he known)
      (List.forall₂_map_left_iff.mpr hvs) hlen' hargs hconstructor

/-- **An expression without faults yields a value of its type.** -/
theorem sound (hd : s.Describes store) (henv : env.Fits request) (e : Expr)
    (hdefinite : e.AllParts (DefiniteIn s env)) : e.Sound s store env request := by
  induction e using induction_children with
  | step e ih =>
    have hs : ∀ c ∈ e.children, c.Sound s store env request :=
      fun c hc => ih c hc (hdefinite.child hc)
    have hc : ∀ c ∈ e.children, c.DefiniteIn s env := fun c hc => (hdefinite.child hc).self
    cases e with
    | value v => exact fun _ _ _ => hasType_literal v
    | var v => exact fun _ _ _ => henv.hasType_var v
    | not e => exact sound_not (hs e (by simp [children])) (hc e (by simp [children]))
    | neg e => exact sound_neg (hs e (by simp [children])) (hc e (by simp [children]))
    | isEmpty e => exact sound_isEmpty (hs e (by simp [children])) (hc e (by simp [children]))
    | like e p => exact sound_like (hs e (by simp [children])) (hc e (by simp [children]))
    | isType e t => exact sound_isType (hs e (by simp [children])) (hc e (by simp [children]))
    | hasAttr e attr =>
      exact sound_hasAttr (hs e (by simp [children])) (hc e (by simp [children]))
    | getAttr e attr =>
      exact sound_getAttr hd (hs e (by simp [children])) (hc e (by simp [children]))
        hdefinite.self
    | and l r =>
      exact sound_and (hs l (by simp [children])) (hs r (by simp [children]))
        (hc l (by simp [children])) (hc r (by simp [children]))
    | or l r =>
      exact sound_or (hs l (by simp [children])) (hs r (by simp [children]))
        (hc l (by simp [children])) (hc r (by simp [children]))
    | binary op l r =>
      exact sound_binary (hs l (by simp [children])) (hs r (by simp [children]))
        (hc l (by simp [children])) (hc r (by simp [children]))
    | isTypeIn l t r =>
      exact sound_isTypeIn (hs l (by simp [children])) (hs r (by simp [children]))
        (hc l (by simp [children])) (hc r (by simp [children]))
    | ite c y n =>
      exact sound_ite (hs c (by simp [children])) (hs y (by simp [children]))
        (hs n (by simp [children])) (hc c (by simp [children]))
    | set items => exact sound_set hs
    | record attrs => exact sound_record fun f hf => hs f.2 (List.mem_map_of_mem hf)
    | call name args => exact sound_call hs hc

end Expr

/-! ## 4. Policies -/

section

variable {s : Schema} {store : EntityStore} {env : RequestEnv} {request : Request}

/-- Conditions without faults fail with residual errors only.  What a `when` makes known is used
only behind it, where it is true. -/
theorem yields_conditionsHold (hd : s.Describes store) (henv : env.Fits request) :
    ∀ {cs : List Condition} {known : Facts}, Facts.Hold request store known →
      Template.conditionFaults s env known cs = [] →
        (∀ c ∈ cs, c.body.AllParts fun x => (x.check s env []).type ≠ .any) →
          Yields (fun _ => True) (conditionsHold request store cs)
  | [], _, _, _, _ => trivial
  | c :: cs, known, hknown, h, hany => by
    simp only [Template.conditionFaults, List.append_eq_nil_iff] at h
    obtain ⟨⟨hfaults, hexpect⟩, hrest⟩ := h
    obtain ⟨hc, hcs⟩ := List.forall_mem_cons.mp hany
    have hdefinite := Expr.allParts_definiteIn henv.definite hfaults hc
    have hbody := Expr.sound hd henv c.body hdefinite known hknown hfaults
    rw [conditionsHold_cons]
    refine (Expr.yields_evalBool (hdefinite.self known) hexpect hbody).bind fun b hb _ => ?_
    split
    · rename_i hadmits
      refine yields_conditionsHold hd henv ?_ hrest hcs
      split
      · rename_i hkind
        rw [hkind] at hadmits
        cases hadmits
        exact hknown.append (Expr.hold_facts c.body known (Expr.evalBool_eq_ok_iff.mp hb))
      · exact hknown
    · exact trivial

/-- **A policy whose template has no faults fails with residual errors only**, on every request that
the schema admits. -/
theorem Policy.isResidual_of_isSatisfied {p : Policy} (hd : s.Describes store) (hp : p.Made)
    (hfaults : p.template.faults s = [])
    (hany : ∀ env ∈ p.template.environments s, ∀ c ∈ p.template.conditions,
      c.body.AllParts fun x => (x.check s env []).type ≠ .any)
    (hreq : s.validateRequest request = .ok ()) {e : EvalError}
    (he : p.isSatisfied request store = .error e) : e.IsResidual := by
  obtain ⟨d, ha, hprincipal, hresource, hcontext⟩ := Schema.validateRequest_eq_ok hreq
  obtain ⟨b, hscope⟩ := hp.exists_scopeMatches request store
  unfold isSatisfied at he
  rw [hscope, ok_bind] at he
  cases b with
  | false => cases he
  | true =>
    have henv := Template.env_mem_environments hd ha hprincipal hresource hscope
    have hconditions := (List.append_eq_nil_iff.mp hfaults).2
    have hcs := List.flatMap_eq_nil_iff.mp hconditions _ henv
    have hyields := yields_conditionsHold hd (ActionDecl.fits_env hcontext) Facts.Hold.nil hcs
      (hany _ henv)
    have he : conditionsHold request store p.template.conditions = .error e := he
    rw [he] at hyields
    exact hyields

end

end Arbiter
