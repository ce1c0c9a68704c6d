/-
# Engines in use are safe

However an engine was made and whatever has been done with it since, its policies are valid for its
schema and its version is that of its policies; an operation that fails changes nothing, one that
succeeds does no more than it is for, and what the observer has been told is one reload for the
making of the engine and each reload that succeeded, and one evaluation for each request that was
decided (`Construction.safe_runs`).

An operation in place gives what the operation on engines gives and settles its result: the new
engine is there and its events are told if there is one, and otherwise nothing has happened
(`Operation.on_act`).  So everything is said of one operation first (`Operation.Does`), and then by
induction of a history.
-/
import Arbiter.Engine.Session
import Arbiter.Proofs.Engine.Soundness

namespace Arbiter

open Outcome

/-! ## 1. Statements in place -/

namespace Acts

variable {σ α β : Type} {s : σ}

@[simp] theorem on_pure (a : α) : (pure a : Acts σ α).on s = (.ok a, s) := rfl

@[simp] theorem on_get : (get : Acts σ σ).on s = (.ok s, s) := rfl

@[simp] theorem on_modify (f : σ → σ) : (modify f : Acts σ PUnit).on s = (.ok ⟨⟩, f s) := rfl

@[simp] theorem on_need (r : Except EngineError α) : (need r : Acts σ α).on s = (r, s) := by
  cases r <;> rfl

@[simp] theorem on_bind (x : Acts σ α) (f : α → Acts σ β) : (x >>= f).on s
    = match x.on s with
      | (.ok a, s') => (f a).on s'
      | (.error cause, s') => (.error cause, s') := by
  rcases h : x.on s with ⟨_ | _, s'⟩
  · exact run_bind_of_error h
  · exact run_bind_of_ok h

@[simp] theorem on_build (ps : PolicySet) (schema : Option Schema) : (build ps schema).on s
    = ((Snapshot.build ps schema).mapError .invalid, s) :=
  on_need _

end Acts

namespace Observer

theorem hear_nil (o : Observer) : o.hear [] = o := by
  cases o <;> simp [hear]

theorem hear_hear (o : Observer) (es es' : List Event) :
    (o.hear es).hear es' = o.hear (es ++ es') := by
  cases o <;> simp [hear]

end Observer

/-! ## 2. Operations in place and on engines -/

namespace Engine

theorem parse_none (policies : String) :
    parse policies none = parsePolicies policies >>= fun ps => create ps none := rfl

theorem parse_some (policies schema : String) : parse policies (some schema)
    = parsePolicies policies >>= fun ps => parseSchema schema >>= fun s => create ps (some s) := by
  unfold parse
  rw [Option.mapM_some]
  cases parseSchema schema <;> rfl

end Engine

namespace Session

variable {s : Session}

/-- The outcome of an operation with the session that it is applied to: the new engine is in place
and its events have been told if there is one, and otherwise the session is the old one. -/
def settle {α : Type} (s : Session) : Except EngineError (α × Engine × List Event) →
    Except EngineError α × Session
  | .ok (a, e, events) => (.ok a, ⟨e, s.observer.hear events⟩)
  | .error cause => (.error cause, s)

theorem on_install (ps : PolicySet) (schema : Option Schema) :
    (install ps schema).on s = s.settle ((Engine.create ps schema).map fun r => ((), r)) := by
  simp only [install, place, tell, Acts.on_bind, Acts.on_build, Engine.create]
  cases Snapshot.build ps schema <;> rfl

theorem on_reload (ps : PolicySet) :
    (reload ps).on s = s.settle ((s.toEngine.reload ps).map fun r => ((), r)) := by
  rw [reload, Acts.on_bind, Acts.on_get]
  exact on_install ps s.current.schema

theorem on_reloadWithSchema (ps : PolicySet) (schema : Schema) : (reloadWithSchema ps schema).on s
    = s.settle ((s.toEngine.reloadWithSchema ps schema).map fun r => ((), r)) :=
  on_install ps (some schema)

theorem on_reloadParsed (policies : String) (schema : Option String) :
    (reloadParsed policies schema).on s
      = s.settle ((s.toEngine.reloadParsed policies schema).map fun r => ((), r)) := by
  cases schema with
  | none =>
    simp only [reloadParsed, Engine.reloadParsed, Acts.on_bind, Acts.on_need]
    cases Engine.parsePolicies policies with
    | error cause => rfl
    | ok ps => exact on_reload ps
  | some schema =>
    simp only [reloadParsed, Engine.reloadParsed, Acts.on_bind, Acts.on_need]
    cases Engine.parseSchema schema with
    | error cause => rfl
    | ok schema =>
      cases Engine.parsePolicies policies with
      | error cause => rfl
      | ok ps => exact on_reloadWithSchema ps schema

theorem on_evaluate (request : Request) (store : EntityStore) : (evaluate request store).on s
    = s.settle ((s.toEngine.evaluate request store).map fun r => (r.1, s.toEngine, r.2)) := by
  -- Nothing is told before the last question, whether there is a decision, has been answered.
  simp only [evaluate, tell, Acts.on_bind, Acts.on_get, Engine.evaluate]
  cases s.current.schema with
  | none =>
    simp only [accept, Acts.on_pure, Acts.on_need]
    cases authorize request s.current.policies store <;> rfl
  | some schema =>
    simp only [accept, Acts.on_need]
    cases schema.validateRequest request with
    | error cause => rfl
    | ok _ => cases authorize request s.current.policies store <;> rfl

end Session

namespace Operation

/-- **An operation in place does what the operation on engines does**, and leaves the session as it
is when that fails. -/
theorem on_act (op : Operation) (s : Session) : op.act.on s = s.settle (op.result s.toEngine) := by
  cases op with
  | reload ps =>
    simp only [act, result, Acts.on_bind, Session.on_reload]
    cases s.toEngine.reload ps <;> rfl
  | reloadWithSchema ps schema =>
    simp only [act, result, Acts.on_bind, Session.on_reloadWithSchema]
    cases s.toEngine.reloadWithSchema ps schema <;> rfl
  | reloadParsed policies schema =>
    simp only [act, result, Acts.on_bind, Session.on_reloadParsed]
    cases s.toEngine.reloadParsed policies schema <;> rfl
  | evaluate request store =>
    simp only [act, result, Acts.on_bind, Session.on_evaluate]
    cases s.toEngine.evaluate request store <;> rfl
  | list principal store filter =>
    rw [result, Session.settle, Observer.hear_nil]
    rfl

end Operation

namespace Construction

variable {o : Observer}

/-- The outcome of making an engine with the observer: the events have been told if there is an
engine. -/
def settle (o : Observer) : Except EngineError (Engine × List Event) →
    Except EngineError Engine × Observer
  | .ok (e, events) => (.ok e, o.hear events)
  | .error cause => (.error cause, o)

theorem on_new (ps : PolicySet) (schema : Option Schema) :
    (new ps schema).on o = settle o (Engine.create ps schema) := by
  simp only [new, Acts.on_bind, Acts.on_build, Engine.create]
  cases Snapshot.build ps schema <;> rfl

theorem on_make (c : Construction) (o : Observer) : c.make.on o = settle o c.result := by
  cases c with
  | ofPolicies ps schema => exact on_new ps schema
  | ofTexts policies schema =>
    cases schema with
    | none =>
      simp only [make, result, Engine.parse_none, Acts.on_bind, Acts.on_need]
      cases Engine.parsePolicies policies with
      | error cause => rfl
      | ok ps => exact on_new ps none
    | some schema =>
      simp only [make, result, Engine.parse_some, Acts.on_bind, Acts.on_need]
      cases Engine.parsePolicies policies with
      | error cause => rfl
      | ok ps =>
        cases Engine.parseSchema schema with
        | error cause => rfl
        | ok schema => exact on_new ps (some schema)

end Construction

/-! ## 3. What constructions and operations are for -/

/-- The request is one that the schema admits, if there is one. -/
def Request.IsAdmitted (request : Request) (schema : Option Schema) : Prop :=
  ∀ s, schema = some s → s.validateRequest request = .ok ()

/-- The engine that a construction is to make. -/
inductive Construction.Makes : Construction → Engine → Prop
  | ofPolicies {ps : PolicySet} {schema : Option Schema} (h : ps.Fits schema) :
      Makes (.ofPolicies ps schema) ⟨.of ps schema⟩
  | ofText {text : String} {ps : PolicySet} (hps : PolicySet.parse text = .ok ps) :
      Makes (.ofTexts text none) ⟨.of ps none⟩
  | ofTexts {text schemaText : String} {ps : PolicySet} {schema : Schema}
      (hps : PolicySet.parse text = .ok ps) (hschema : Schema.parse schemaText = .ok schema)
      (h : ps.Fits (some schema)) : Makes (.ofTexts text (some schemaText)) ⟨.of ps (some schema)⟩

/-- What an operation is to do with an engine: its answer, the engine that there is afterwards, and
the events. -/
inductive Operation.Does (e : Engine) : Operation → Answer → Engine → List Event → Prop
  | reload {ps : PolicySet} (h : ps.Fits e.current.schema) :
      Does e (.reload ps) .done ⟨.of ps e.current.schema⟩ [.reload ps.size ps.version]
  | reloadWithSchema {ps : PolicySet} {schema : Schema} (h : ps.Fits (some schema)) :
      Does e (.reloadWithSchema ps schema) .done ⟨.of ps (some schema)⟩
        [.reload ps.size ps.version]
  | reloadText {text : String} {ps : PolicySet} (hps : PolicySet.parse text = .ok ps)
      (h : ps.Fits e.current.schema) :
      Does e (.reloadParsed text none) .done ⟨.of ps e.current.schema⟩
        [.reload ps.size ps.version]
  | reloadTexts {text schemaText : String} {ps : PolicySet} {schema : Schema}
      (hps : PolicySet.parse text = .ok ps) (hschema : Schema.parse schemaText = .ok schema)
      (h : ps.Fits (some schema)) :
      Does e (.reloadParsed text (some schemaText)) .done ⟨.of ps (some schema)⟩
        [.reload ps.size ps.version]
  | evaluate {request : Request} {store : EntityStore} {response : Response}
      (hadmitted : request.IsAdmitted e.current.schema)
      (h : authorize request e.current.policies store = .ok response) :
      Does e (.evaluate request store) (.decided response) e
        (Engine.evaluationEvents request response)
  | list {principal : EntityUid} {store : EntityStore} {filter : EffectFilter} :
      Does e (.list principal store filter)
        (.listed (e.current.policies.matchesFor store principal filter)) e []

namespace Engine

theorem parsePolicies_eq_ok_iff {text : String} {ps : PolicySet} :
    parsePolicies text = .ok ps ↔ PolicySet.parse text = .ok ps :=
  mapError_eq_ok_iff

theorem parseSchema_eq_ok_iff {text : String} {schema : Schema} :
    parseSchema text = .ok schema ↔ Schema.parse text = .ok schema :=
  mapError_eq_ok_iff

theorem evaluate_eq_ok_iff {e : Engine} {request : Request} {store : EntityStore}
    {response : Response} {events : List Event} :
    e.evaluate request store = .ok (response, events) ↔ request.IsAdmitted e.current.schema ∧
      authorize request e.current.policies store = .ok response ∧
        events = evaluationEvents request response := by
  have hdecided : ((authorize request e.current.policies store).mapError EngineError.unknownEntity
      >>= fun r => .ok (r, evaluationEvents request r)) = .ok (response, events) ↔
        authorize request e.current.policies store = .ok response ∧
          events = evaluationEvents request response := by
    rw [bind_eq_ok_iff]
    constructor
    · rintro ⟨_, h, ⟨⟩⟩
      exact ⟨mapError_eq_ok_iff.mp h, rfl⟩
    · rintro ⟨h, rfl⟩
      exact ⟨_, mapError_eq_ok_iff.mpr h, rfl⟩
  cases hs : e.current.schema with
  | none =>
    unfold evaluate
    rw [hs]
    exact hdecided.trans (and_iff_right nofun).symm
  | some schema =>
    rw [evaluate_eq hs, bind_eq_ok_iff]
    constructor
    · rintro ⟨_, hvalid, h⟩
      refine ⟨?_, hdecided.mp h⟩
      rintro _ ⟨⟩
      exact mapError_eq_ok_iff.mp hvalid
    · rintro ⟨hadmitted, h⟩
      exact ⟨(), mapError_eq_ok_iff.mpr (hadmitted schema rfl), hdecided.mpr h⟩

end Engine

namespace Construction

variable {c : Construction} {e : Engine} {events : List Event}

theorem result_eq_ok_iff :
    c.result = .ok (e, events) ↔ c.Makes e ∧ events = [Engine.reloadEvent e.current] := by
  cases c with
  | ofPolicies ps schema =>
    rw [result, Engine.create_eq_ok_iff]
    constructor
    · rintro ⟨h, rfl, rfl⟩
      exact ⟨.ofPolicies h, rfl⟩
    · rintro ⟨⟨h⟩, rfl⟩
      exact ⟨h, rfl, rfl⟩
  | ofTexts text schemaText =>
    cases schemaText with
    | none =>
      rw [result, Engine.parse_none, bind_eq_ok_iff]
      constructor
      · rintro ⟨ps, hps, h⟩
        obtain ⟨-, rfl, rfl⟩ := Engine.create_eq_ok_iff.mp h
        exact ⟨.ofText (Engine.parsePolicies_eq_ok_iff.mp hps), rfl⟩
      · rintro ⟨hmakes, rfl⟩
        cases hmakes with
        | ofText hps =>
          exact ⟨_, Engine.parsePolicies_eq_ok_iff.mpr hps,
            Engine.create_eq_ok_iff.mpr ⟨PolicySet.fits_none, rfl, rfl⟩⟩
    | some schemaText =>
      simp only [result, Engine.parse_some, bind_eq_ok_iff]
      constructor
      · rintro ⟨ps, hps, schema, hschema, h⟩
        obtain ⟨hfits, rfl, rfl⟩ := Engine.create_eq_ok_iff.mp h
        exact ⟨.ofTexts (Engine.parsePolicies_eq_ok_iff.mp hps)
          (Engine.parseSchema_eq_ok_iff.mp hschema) hfits, rfl⟩
      · rintro ⟨hmakes, rfl⟩
        cases hmakes with
        | ofTexts hps hschema hfits =>
          exact ⟨_, Engine.parsePolicies_eq_ok_iff.mpr hps, _,
            Engine.parseSchema_eq_ok_iff.mpr hschema,
            Engine.create_eq_ok_iff.mpr ⟨hfits, rfl, rfl⟩⟩

end Construction

namespace Operation

variable {op : Operation} {a : Answer} {s : Session} {e e' : Engine} {events : List Event}

theorem map_done_eq_ok_iff {x : Except EngineError (Engine × List Event)} :
    x.map (fun r => (Answer.done, r)) = .ok (a, e', events) ↔ a = .done ∧ x = .ok (e', events) := by
  rw [map_eq_ok_iff]
  constructor
  · rintro ⟨_, h, ⟨⟩⟩
    exact ⟨rfl, h⟩
  · rintro ⟨rfl, h⟩
    exact ⟨_, h, rfl⟩

/-- An operation on an engine succeeds with what it is for, and with nothing else. -/
theorem result_eq_ok_iff : op.result e = .ok (a, e', events) ↔ op.Does e a e' events := by
  cases op with
  | reload ps =>
    rw [result, map_done_eq_ok_iff, Engine.reload, Engine.create_eq_ok_iff]
    constructor
    · rintro ⟨rfl, hfits, rfl, rfl⟩
      exact .reload hfits
    · intro h
      cases h with
      | reload hfits => exact ⟨rfl, hfits, rfl, rfl⟩
  | reloadWithSchema ps schema =>
    rw [result, map_done_eq_ok_iff, Engine.reloadWithSchema, Engine.create_eq_ok_iff]
    constructor
    · rintro ⟨rfl, hfits, rfl, rfl⟩
      exact .reloadWithSchema hfits
    · intro h
      cases h with
      | reloadWithSchema hfits => exact ⟨rfl, hfits, rfl, rfl⟩
  | reloadParsed text schemaText =>
    rw [result, map_done_eq_ok_iff]
    cases schemaText with
    | none =>
      simp only [Engine.reloadParsed, bind_eq_ok_iff, Engine.parsePolicies_eq_ok_iff,
        Engine.reload, Engine.create_eq_ok_iff]
      constructor
      · rintro ⟨rfl, ps, hps, hfits, rfl, rfl⟩
        exact .reloadText hps hfits
      · intro h
        cases h with
        | reloadText hps hfits => exact ⟨rfl, _, hps, hfits, rfl, rfl⟩
    | some schemaText =>
      simp only [Engine.reloadParsed, bind_eq_ok_iff, Engine.parsePolicies_eq_ok_iff,
        Engine.parseSchema_eq_ok_iff, Engine.reloadWithSchema, Engine.create_eq_ok_iff]
      constructor
      · rintro ⟨rfl, schema, hschema, ps, hps, hfits, rfl, rfl⟩
        exact .reloadTexts hps hschema hfits
      · intro h
        cases h with
        | reloadTexts hps hschema hfits => exact ⟨rfl, _, hschema, _, hps, hfits, rfl, rfl⟩
  | evaluate request store =>
    rw [result, map_eq_ok_iff]
    constructor
    · rintro ⟨⟨response, events⟩, h, ⟨⟩⟩
      obtain ⟨hadmitted, hdecided, rfl⟩ := Engine.evaluate_eq_ok_iff.mp h
      exact .evaluate hadmitted hdecided
    · intro h
      cases h with
      | evaluate hadmitted hdecided =>
        exact ⟨_, Engine.evaluate_eq_ok_iff.mpr ⟨hadmitted, hdecided, rfl⟩, rfl⟩
  | list principal store filter =>
    constructor
    · rintro ⟨⟩
      exact .list
    · rintro ⟨⟩
      rfl

theorem act_of_does (h : op.Does s.toEngine a e events) :
    op.act.on s = (.ok a, ⟨e, s.observer.hear events⟩) := by
  rw [on_act, result_eq_ok_iff.mpr h]
  rfl

theorem act_of_not_does (h : ¬ ∃ a e events, op.Does s.toEngine a e events) :
    ∃ cause, op.act.on s = (.error cause, s) := by
  rw [on_act]
  cases hresult : op.result s.toEngine with
  | error cause => exact ⟨cause, rfl⟩
  | ok r => exact absurd ⟨r.1, r.2.1, r.2.2, result_eq_ok_iff.mp hresult⟩ h

/-- An operation does what it is for, or it fails and changes nothing. -/
theorem act_cases (op : Operation) (s : Session) :
    ((∃ cause, op.act.on s = (.error cause, s)) ∧ ¬ ∃ a e events, op.Does s.toEngine a e events) ∨
      ∃ a e events, op.Does s.toEngine a e events ∧
        op.act.on s = (.ok a, ⟨e, s.observer.hear events⟩) := by
  by_cases h : ∃ a e events, op.Does s.toEngine a e events
  · obtain ⟨a, e, events, h⟩ := h
    exact Or.inr ⟨a, e, events, h, act_of_does h⟩
  · exact Or.inl ⟨act_of_not_does h, h⟩

end Operation

/-! ## 4. Histories -/

/-- The policies of the engine are valid for its schema, and its version is theirs. -/
structure Engine.Safe (e : Engine) : Prop where
  fits : e.current.policies.Fits e.current.schema
  version : e.current.version = Sha256.hexDigest e.current.policies.canonical

/-- An engine of policies that are valid is safe. -/
theorem Engine.safe_of {ps : PolicySet} {schema : Option Schema} (h : ps.Fits schema) :
    Engine.Safe ⟨.of ps schema⟩ :=
  ⟨h, rfl⟩

theorem Construction.Makes.safe {c : Construction} {e : Engine} (h : c.Makes e) : e.Safe := by
  cases h with
  | ofPolicies hfits => exact Engine.safe_of hfits
  | ofText _ => exact Engine.safe_of PolicySet.fits_none
  | ofTexts _ _ hfits => exact Engine.safe_of hfits

namespace Operation

variable {op : Operation} {a : Answer} {e e' : Engine} {events : List Event}

theorem Does.safe (h : op.Does e a e' events) (hsafe : e.Safe) : e'.Safe := by
  cases h with
  | reload hfits => exact Engine.safe_of hfits
  | reloadWithSchema hfits => exact Engine.safe_of hfits
  | reloadText _ hfits => exact Engine.safe_of hfits
  | reloadTexts _ _ hfits => exact Engine.safe_of hfits
  | evaluate _ _ => exact hsafe
  | list => exact hsafe

theorem Does.events_eq (h : op.Does e a e' events) (o : Observer) :
    Deed.events ⟨op, .ok a, ⟨e', o⟩⟩ = events := by
  cases h <;> rfl

theorem events_of_error (op : Operation) (cause : EngineError) (s : Session) :
    Deed.events ⟨op, .error cause, s⟩ = [] := by
  cases op <;> rfl

/-- One operation keeps the engine safe. -/
theorem safe_act {s : Session} (op : Operation) (hsafe : s.Safe) : (op.act.on s).2.Safe := by
  rcases op.act_cases s with ⟨⟨cause, hact⟩, -⟩ | ⟨a, e, events, hdoes, hact⟩
  · rw [hact]
    exact hsafe
  · rw [hact]
    exact hdoes.safe hsafe

/-- The observer is told of one operation what its outcome is worth. -/
theorem observer_act (op : Operation) (s : Session) : (op.act.on s).2.observer
    = s.observer.hear (Deed.events ⟨op, (op.act.on s).1, (op.act.on s).2⟩) := by
  rcases op.act_cases s with ⟨⟨cause, hact⟩, -⟩ | ⟨a, e, events, hdoes, hact⟩
  · rw [hact, events_of_error, Observer.hear_nil]
  · rw [hact, hdoes.events_eq]

end Operation

namespace Session

theorem safe_after : ∀ (ops : List Operation) {s : Session}, s.Safe → (s.after ops).Safe
  | [], _, hsafe => hsafe
  | op :: ops, _, hsafe => safe_after ops (op.safe_act hsafe)

theorem observer_after : ∀ (ops : List Operation) (s : Session),
    (s.after ops).observer = s.observer.hear ((s.deeds ops).flatMap Deed.events)
  | [], s => s.observer.hear_nil.symm
  | op :: ops, s => by
    -- What the first operation is worth stands before what the others are worth.
    have hrest := observer_after ops (op.act.on s).2
    rw [op.observer_act, Observer.hear_hear] at hrest
    exact hrest

end Session

/-- **Engines in use are safe.**  If an engine is made at all, it is the one that is to be made, and
the observer has been told of one reload.  Then, whatever is done with it: its policies are valid
for its schema and its version is the digest of their text, each further operation fails without an
effect or does what it is for, and the observer has been told what the operations so far were
worth. -/
theorem Construction.safe_runs (c : Construction) (o : Observer) :
    ((∃ cause, c.make.on o = (.error cause, o)) ∧ ¬ ∃ e, c.Makes e) ∨
      ∃ e, c.Makes e ∧ c.make.on o = (.ok e, o.hear [Engine.reloadEvent e.current]) ∧
        ∀ ops : List Operation,
          let start : Session := ⟨e, o.hear [Engine.reloadEvent e.current]⟩
          let s := start.after ops
          s.current.policies.Fits s.current.schema ∧
            s.current.version = Sha256.hexDigest s.current.policies.canonical ∧
            s.observer =
              o.hear (Engine.reloadEvent e.current :: (start.deeds ops).flatMap Deed.events) ∧
            ∀ op : Operation,
              ((∃ cause, op.act.on s = (.error cause, s)) ∧
                ¬ ∃ a e events, op.Does s.toEngine a e events) ∨
              ∃ a e events, op.Does s.toEngine a e events ∧
                op.act.on s = (.ok a, ⟨e, s.observer.hear events⟩) := by
  rw [on_make]
  cases hresult : c.result with
  | error cause =>
    refine Or.inl ⟨⟨cause, rfl⟩, fun ⟨e, hmakes⟩ => ?_⟩
    rw [result_eq_ok_iff.mpr ⟨hmakes, rfl⟩] at hresult
    cases hresult
  | ok r =>
    obtain ⟨e, events⟩ := r
    obtain ⟨hmakes, rfl⟩ := result_eq_ok_iff.mp hresult
    refine Or.inr ⟨e, hmakes, rfl, fun ops => ?_⟩
    -- The engine is safe when it is made, and every operation keeps it so.
    have hsafe := Session.safe_after ops
      (s := ⟨e, o.hear [Engine.reloadEvent e.current]⟩) hmakes.safe
    refine ⟨hsafe.fits, hsafe.version, ?_, fun op => op.act_cases _⟩
    exact (Session.observer_after ops _).trans (Observer.hear_hear ..)

/-! An engine with a schema: policies that are not valid for it are refused, a request is decided,
and other policies are put in place, for which the schema is still the same. -/

namespace Office

def strayTemplate : Template where
  id := ⟨"stray"⟩
  effect := .permit
  conditions := [⟨.when, .value (.long 1)⟩]

def strayPolicy : Policy := ⟨strayTemplate, none, .empty⟩

def strayPolicies : PolicySet :=
  ⟨.ofList [(strayTemplate.id, strayTemplate)], .ofList [(strayPolicy.id, strayPolicy)]⟩

def operations : List Operation :=
  [.reload strayPolicies, .evaluate request store, .reload levelPolicies]

theorem not_fits_stray : ¬ strayPolicies.Fits (some schema) := by
  rw [PolicySet.fits_some_iff]
  rintro ⟨⟩

theorem fits_level : levelPolicies.Fits (some schema) := PolicySet.fits_some_iff.mpr rfl

theorem after_operations (o : Observer) :
    Session.after ⟨⟨.of policies (some schema)⟩, o⟩ operations
      = ⟨⟨.of levelPolicies (some schema)⟩, o.hear
          (Engine.evaluationEvents request response ++ [.reload 1 levelPolicies.version])⟩ := by
  have hstray : ¬ ∃ a e events,
      (Operation.reload strayPolicies).Does ⟨.of policies (some schema)⟩ a e events := by
    rintro ⟨_, _, _, ⟨hfits⟩⟩
    exact not_fits_stray hfits
  have hevaluate : (Operation.evaluate request store).Does ⟨.of policies (some schema)⟩
      (.decided response) ⟨.of policies (some schema)⟩
      (Engine.evaluationEvents request response) := by
    refine .evaluate ?_ rfl
    rintro _ ⟨⟩
    exact request_valid
  have hreload : (Operation.reload levelPolicies).Does ⟨.of policies (some schema)⟩ .done
      ⟨.of levelPolicies (some schema)⟩ [.reload 1 levelPolicies.version] :=
    .reload fits_level
  obtain ⟨cause, hrefused⟩ := Operation.act_of_not_does (s := ⟨_, o⟩) hstray
  simp only [Session.after, operations, List.foldl_cons, List.foldl_nil, hrefused,
    Operation.act_of_does (s := ⟨_, _⟩) hevaluate, Operation.act_of_does (s := ⟨_, _⟩) hreload,
    Observer.hear_hear]

theorem safe_runs_office :
    let start : Session := ⟨⟨.of policies (some schema)⟩, some [.reload 2 policies.version]⟩
    (Construction.ofPolicies policies (some schema)).make.on (some []) =
        (.ok start.toEngine, start.observer) ∧
      (start.after operations).current.policies.Fits (start.after operations).current.schema ∧
      (start.after operations).current = .of levelPolicies (some schema) ∧
      (start.deeds operations).flatMap Deed.events =
        Engine.evaluationEvents request response ++ [.reload 1 levelPolicies.version] := by
  have hfits : policies.Fits (some schema) := PolicySet.fits_some_iff.mpr validate_policies
  rcases Construction.safe_runs (.ofPolicies policies (some schema)) (some [])
    with ⟨-, hnot⟩ | ⟨e, ⟨-⟩, hmake, hruns⟩
  · exact absurd ⟨_, .ofPolicies hfits⟩ hnot
  · obtain ⟨hsafe, -, htold, -⟩ := hruns operations
    have hafter := after_operations (some [.reload 2 policies.version])
    have hheard := htold.symm.trans (congrArg Session.observer hafter)
    refine ⟨hmake, hsafe, congrArg (fun s => s.current) hafter, ?_⟩
    exact List.tail_eq_of_cons_eq (Option.some.inj hheard)

end Office

end Arbiter
