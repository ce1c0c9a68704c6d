/-
# Validated engines do not go wrong

What validation promises about running: an engine with a schema holds policies that are valid for
it, so over a store that is built with the schema a request is refused, as one that the schema does
not admit or for an entity that is not stored, or it is answered with errors of two kinds only
(`Engine.evaluate_sound`).  An overflow and an entity that is not stored are what checking cannot
see; everything else is excluded, for links as for static policies, since a link has the conditions
of its template.

The theorem asks that the checker knows something of every part of every condition.  Records that
may have other attributes than the declared ones need no clause of their own: a read of such an
attribute is a part of which nothing is known.
-/
import Arbiter.Engine.Basic
import Arbiter.Proofs.Validation.Environments
import Arbiter.Proofs.Validation.Soundness

namespace Arbiter

open Outcome

/-! ## 1. Valid policies -/

theorem List.eraseDups_eq_nil_iff {α : Type} [BEq α] [LawfulBEq α] {l : List α} :
    l.eraseDups = [] ↔ l = [] := by
  simp only [List.eq_nil_iff_forall_not_mem, List.mem_eraseDups]

/-- Policies are valid when the templates and the values of the links have no faults. -/
theorem PolicySet.validate_eq_nil_iff {ps : PolicySet} {s : Schema} : ps.validate s = [] ↔
    (∀ t ∈ ps.allTemplates, t.faults s = []) ∧ ∀ p ∈ ps.linkedPolicies, p.valueFaults s = [] := by
  unfold validate
  simp only [List.eraseDups_eq_nil_iff, List.append_eq_nil_iff, List.flatMap_eq_nil_iff,
    List.map_eq_nil_iff]

/-- The templates of valid policies have no faults. -/
theorem PolicySet.faults_of_validate {ps : PolicySet} {s : Schema} (h : ps.validate s = [])
    {t : Template} (ht : t ∈ ps.allTemplates) : t.faults s = [] :=
  (validate_eq_nil_iff.mp h).1 t ht

/-- The policies are valid for the schema, if there is one. -/
def PolicySet.Fits (ps : PolicySet) (schema : Option Schema) : Prop :=
  ∀ s, schema = some s → ps.validate s = []

@[simp] theorem PolicySet.fits_none {ps : PolicySet} : ps.Fits none := nofun

@[simp] theorem PolicySet.fits_some_iff {ps : PolicySet} {s : Schema} :
    ps.Fits (some s) ↔ ps.validate s = [] := by
  simp [Fits]

/-! ## 2. Engines -/

/-- The snapshot of policies that are valid. -/
def Snapshot.of (ps : PolicySet) (schema : Option Schema) : Snapshot := ⟨ps, schema, ps.version⟩

theorem Snapshot.build_eq_ok_iff {ps : PolicySet} {schema : Option Schema} {s : Snapshot} :
    build ps schema = .ok s ↔ ps.Fits schema ∧ s = .of ps schema := by
  cases schema with
  | none =>
    constructor
    · rintro ⟨⟩
      exact ⟨PolicySet.fits_none, rfl⟩
    · rintro ⟨-, rfl⟩
      rfl
  | some schema =>
    simp only [build, List.isEmpty_iff, PolicySet.fits_some_iff]
    by_cases h : ps.validate schema = []
    · rw [if_pos h, Except.ok.injEq, eq_comm]
      exact (and_iff_right h).symm
    · rw [if_neg h]
      exact iff_of_false nofun fun hs => h hs.1

namespace Engine

/-- The engine was made with the policies and the schema: at first, by a reload that kept the
schema, or by one that put both in place. -/
inductive BuiltWith (ps : PolicySet) (s : Schema) : Engine → Prop
  | create {e : Engine} {events : List Event} (h : Engine.create ps (some s) = .ok (e, events)) :
      BuiltWith ps s e
  | reload {e₀ e : Engine} {events : List Event} (hs : e₀.current.schema = some s)
      (h : e₀.reload ps = .ok (e, events)) : BuiltWith ps s e
  | reloadWithSchema {e₀ e : Engine} {events : List Event}
      (h : e₀.reloadWithSchema ps s = .ok (e, events)) : BuiltWith ps s e

theorem create_eq_ok_iff {ps : PolicySet} {schema : Option Schema} {e : Engine}
    {events : List Event} : create ps schema = .ok (e, events) ↔
      ps.Fits schema ∧ e = ⟨.of ps schema⟩ ∧ events = [reloadEvent e.current] := by
  unfold create
  cases hbuild : Snapshot.build ps schema with
  | ok snapshot =>
    obtain ⟨hfits, rfl⟩ := Snapshot.build_eq_ok_iff.mp hbuild
    constructor
    · rintro ⟨⟩
      exact ⟨hfits, rfl, rfl⟩
    · rintro ⟨-, rfl, rfl⟩
      rfl
  | error cause =>
    refine iff_of_false nofun fun ⟨hfits, _⟩ => ?_
    rw [Snapshot.build_eq_ok_iff.mpr ⟨hfits, rfl⟩] at hbuild
    cases hbuild

theorem create_eq_ok {ps : PolicySet} {s : Schema} {e : Engine} {events : List Event}
    (h : create ps (some s) = .ok (e, events)) :
    e.current.policies = ps ∧ e.current.schema = some s ∧ ps.validate s = [] := by
  obtain ⟨hfits, rfl, -⟩ := create_eq_ok_iff.mp h
  exact ⟨rfl, rfl, PolicySet.fits_some_iff.mp hfits⟩

theorem create_of_validate {ps : PolicySet} {s : Schema} (h : ps.validate s = []) :
    ∃ e events, create ps (some s) = .ok (e, events) :=
  ⟨_, _, create_eq_ok_iff.mpr ⟨PolicySet.fits_some_iff.mpr h, rfl, rfl⟩⟩

/-- However an engine was made, its policies are valid for its schema. -/
theorem BuiltWith.valid {ps : PolicySet} {s : Schema} {e : Engine} (h : e.BuiltWith ps s) :
    e.current.policies = ps ∧ e.current.schema = some s ∧ ps.validate s = [] := by
  cases h with
  | create h => exact create_eq_ok h
  | reload hs h =>
    rw [Engine.reload, hs] at h
    exact create_eq_ok h
  | reloadWithSchema h => exact create_eq_ok h

theorem evaluate_eq {e : Engine} {s : Schema} (hs : e.current.schema = some s) (request : Request)
    (store : EntityStore) : e.evaluate request store =
      (s.validateRequest request).mapError .request >>= fun _ =>
        (authorize request e.current.policies store).mapError .unknownEntity >>= fun response =>
          .ok (response, evaluationEvents request response) := by
  unfold evaluate
  rw [hs]
  rfl

/-- **Validation is sound.**  An engine with a schema, over a store that is built with the schema,
refuses a request or answers it, and the errors in its answer are overflows and entities that are
not stored. -/
theorem evaluate_sound {j : Json} {s : Schema} {ps : PolicySet} {e : Engine} {es : List Entity}
    {store : EntityStore} (hs : Schema.ofJson j = .ok s)
    (htypes : ∀ t, s.entityTypes.contains t = true → t.isAction = false) (hps : ps.Reachable)
    (he : e.BuiltWith ps s) (hes : ∀ x ∈ es, x.uid.isAction = false)
    (hstore : EntityStore.withSchema s es = .ok store)
    (hany : ∀ p ∈ ps.policies, ∀ env ∈ p.template.environments s, ∀ c ∈ p.template.conditions,
      c.body.AllParts fun x => (x.check s env []).type ≠ .any) (request : Request) :
    (∃ cause, e.evaluate request store = .error (.request cause)) ∨
      (∃ cause, e.evaluate request store = .error (.unknownEntity cause)) ∨
        ∃ response events, e.evaluate request store = .ok (response, events) ∧
          ∀ f ∈ response.errors, (∃ op, f.error = .integerOverflow op) ∨
            ∃ uid, f.error = .entityDoesNotExist uid := by
  obtain ⟨hpolicies, hschema, hvalid⟩ := he.valid
  rw [evaluate_eq hschema, hpolicies]
  cases hreq : s.validateRequest request with
  | error cause => exact Or.inl ⟨cause, rfl⟩
  | ok _ =>
    cases hauthorize : authorize request ps store with
    | error cause => exact Or.inr (Or.inl ⟨cause, rfl⟩)
    | ok response =>
      refine Or.inr (Or.inr ⟨response, _, rfl, fun f hf => ?_⟩)
      obtain ⟨-, rfl⟩ := authorize_eq_ok_iff.mp hauthorize
      unfold respond at hf
      rw [combine_errors, hps.wellFormed.mem_failures_iff] at hf
      obtain ⟨p, hget, hfails⟩ := hf
      have hp := (hps.wellFormed.get?_eq_some_iff.mp hget).1
      have hmade := hps.wellFormed.made_of_mem hp
      have hfaults := PolicySet.faults_of_validate hvalid (hps.wellFormed.mem_allTemplates hp)
      refine EvalError.isResidual_iff.mp (Policy.isResidual_of_isSatisfied
        (Schema.describes_withSchema hs htypes hes hstore) hmade hfaults (hany p hp) hreq
        (hmade.isSatisfied_eq_error_iff.mpr hfails))

end Engine

/-! A static policy reads an optional attribute behind a test for it, and adds too much to it; a
link compares a required one. -/

namespace Office

def levelBody : Expr :=
  .and (.hasAttr (.var .resource) "level")
    (.binary .less
      (.binary .add (.getAttr (.var .resource) "level") (.value (.long Int64.maxValue)))
      (.value (.long 5)))

def levelTemplate : Template where
  id := ⟨"level"⟩
  effect := .permit
  action := .eq (action "view")
  conditions := [⟨.when, levelBody⟩]

def levelPolicy : Policy := ⟨levelTemplate, none, .empty⟩

def ownBody : Expr := .binary .eq (.getAttr (.var .resource) "owner") (.var .principal)

def ownTemplate : Template where
  id := ⟨"own"⟩
  effect := .permit
  resource := .eq (.slot .resource)
  conditions := [⟨.when, ownBody⟩]

def ownPolicy : Policy := ⟨ownTemplate, some ⟨"ownPlan"⟩, .ofList [(.resource, plan)]⟩

def levelPolicies : PolicySet :=
  ⟨.ofList [(levelTemplate.id, levelTemplate)], .ofList [(levelPolicy.id, levelPolicy)]⟩

def policies : PolicySet :=
  ⟨levelPolicies.templates.insert ownTemplate.id ownTemplate,
    levelPolicies.links.insert ownPolicy.id ownPolicy⟩

theorem reachable_policies : policies.Reachable := by
  have hlevel : PolicySet.empty.Adds levelPolicy levelPolicies :=
    .addStatic (t := levelTemplate) rfl rfl
  have htemplate : levelPolicies.addTemplate ownTemplate =
    .ok ⟨policies.templates, levelPolicies.links⟩ := rfl
  have hlink : PolicySet.link ⟨policies.templates, levelPolicies.links⟩ ownTemplate.id
    ownPolicy.id ownPolicy.values = .ok (ownPolicy, policies) := rfl
  exact ((PolicySet.reachable_empty.step (.policy hlevel)).step (.template htemplate)).step
    (.policy (.link hlink))

def env : RequestEnv where
  principal := user
  action := action "view"
  resource := doc
  context := .record ⟨[], false⟩

theorem environments_level : levelTemplate.environments schema = [env] := by rfl

theorem environments_own : ownTemplate.environments schema = [env] := by rfl

theorem validate_policies : policies.validate schema = [] := by rfl

/-- The checker knows something of every part of the expression. -/
def Known (e : Expr) : Prop := e.AllParts fun x => (x.check schema env []).type ≠ .any

theorem known_levelBody : Known levelBody := by
  simp only [Known, levelBody, Expr.allParts_iff, Expr.children, List.Forall]
  refine ⟨?_, ⟨?_, ?_, trivial⟩, ?_, ⟨?_, ⟨?_, ?_, trivial⟩, ?_, trivial⟩, ?_, trivial⟩ <;>
    rintro ⟨⟩

theorem known_ownBody : Known ownBody := by
  simp only [Known, ownBody, Expr.allParts_iff, Expr.children, List.Forall]
  refine ⟨?_, ⟨?_, ?_, trivial⟩, ?_, trivial⟩ <;> rintro ⟨⟩

theorem known_of_mem_conditions {p : Policy} (hp : p ∈ policies.policies) {e : RequestEnv}
    (he : e ∈ p.template.environments schema) {c : Condition}
    (hc : c ∈ p.template.conditions) : e = env ∧ Known c.body := by
  have hpolicies : policies.policies = [levelPolicy, ownPolicy] := by rfl
  rw [hpolicies, List.mem_pair] at hp
  rcases hp with rfl | rfl
  · cases List.mem_singleton.mp (environments_level ▸ he)
    cases List.mem_singleton.mp hc
    exact ⟨rfl, known_levelBody⟩
  · cases List.mem_singleton.mp (environments_own ▸ he)
    cases List.mem_singleton.mp hc
    exact ⟨rfl, known_ownBody⟩

def response : Response :=
  ⟨.allow, [⟨"ownPlan"⟩], [⟨⟨"level"⟩, .integerOverflow "+"⟩]⟩

theorem evaluate_sound_office : ∃ e : Engine, e.BuiltWith policies schema ∧
    (∃ events, e.evaluate request store = .ok (response, events)) ∧
      ∀ f ∈ response.errors, (∃ op, f.error = .integerOverflow op) ∨
        ∃ uid, f.error = .entityDoesNotExist uid := by
  obtain ⟨e, events, he⟩ := Engine.create_of_validate validate_policies
  have hbuilt : e.BuiltWith policies schema := .create he
  obtain ⟨hpolicies, hschema, -⟩ := hbuilt.valid
  have hevaluate : e.evaluate request store =
      .ok (response, Engine.evaluationEvents request response) := by
    rw [Engine.evaluate_eq hschema, request_valid, hpolicies]
    rfl
  refine ⟨e, hbuilt, ⟨_, hevaluate⟩, ?_⟩
  have hany : ∀ p ∈ policies.policies, ∀ env ∈ p.template.environments schema,
      ∀ c ∈ p.template.conditions,
        c.body.AllParts fun x => (x.check schema env []).type ≠ .any := by
    intro p hp env' he' c hc
    obtain ⟨rfl, hknown⟩ := known_of_mem_conditions hp he' hc
    exact hknown
  rcases Engine.evaluate_sound schema_ofJson schema_noActionType reachable_policies hbuilt
    entities_noAction store_withSchema hany request
    with ⟨cause, h⟩ | ⟨cause, h⟩ | ⟨r, events, h, herrors⟩
  · rw [hevaluate] at h
    cases h
  · rw [hevaluate] at h
    cases h
  · rw [hevaluate] at h
    cases h
    exact herrors

end Office

end Arbiter
