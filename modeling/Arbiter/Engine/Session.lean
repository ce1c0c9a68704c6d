/-
# Engines in use

The operations of an engine as they act on it in place.  An operation looks at the snapshot that is
there, may put another one in its place and may tell the observer something, statement by statement,
so it could fail when it has done a part of that already.  A session goes on from what the operation
before left behind, whether that one failed or not.

The observer hears of an engine when it is made, too.  Until there is one, what is told is lost.
-/
import Arbiter.Engine.Basic

namespace Arbiter

/-- What the observer has been told, if there is one. -/
abbrev Observer := Option (List Event)

/-- The observer is told something more. -/
def Observer.hear (o : Observer) (events : List Event) : Observer := o.map (· ++ events)

/-- An engine in use. -/
structure Session extends Engine where
  observer : Observer

/-! ## 1. Statements -/

/-- Statements that act on a state and may fail: what has been changed before a failure stays
changed. -/
abbrev Acts (σ : Type) := ExceptT EngineError (StateM σ)

namespace Acts

variable {σ α : Type}

/-- The outcome of statements, and the state that they leave behind. -/
def on (x : Acts σ α) (s : σ) : Except EngineError α × σ := (ExceptT.run x).run s

/-- Goes on with a result if there is one. -/
def need (r : Except EngineError α) : Acts σ α :=
  match r with
  | .ok a => return a
  | .error cause => throw cause

/-- The snapshot of policies, which have to be valid for the schema. -/
def build (policies : PolicySet) (schema : Option Schema) : Acts σ Snapshot :=
  need ((Snapshot.build policies schema).mapError .invalid)

end Acts

/-! ## 2. Making an engine -/

/-- What an engine is made of. -/
inductive Construction where
  | ofPolicies (policies : PolicySet) (schema : Option Schema)
  | ofTexts (policies : String) (schema : Option String)

namespace Construction

open Acts

/-- Makes an engine of policies and maybe a schema. -/
def new (policies : PolicySet) (schema : Option Schema) : Acts Observer Engine := do
  let snapshot ← build policies schema
  modify fun o => o.hear [Engine.reloadEvent snapshot]
  return ⟨snapshot⟩

/-- Makes an engine.  Of two texts, that of the policies is read first. -/
def make : Construction → Acts Observer Engine
  | .ofPolicies policies schema => new policies schema
  | .ofTexts policies none => do new (← need (Engine.parsePolicies policies)) none
  | .ofTexts policies (some schema) => do
    let policies ← need (Engine.parsePolicies policies)
    let schema ← need (Engine.parseSchema schema)
    new policies (some schema)

/-- The engine that is made, with the events. -/
def result : Construction → Except EngineError (Engine × List Event)
  | .ofPolicies policies schema => Engine.create policies schema
  | .ofTexts policies schema => Engine.parse policies schema

end Construction

/-! ## 3. Operations in place -/

namespace Session

open Acts

/-- Tells the observer something. -/
def tell (events : List Event) : Acts Session Unit :=
  modify fun s => { s with observer := s.observer.hear events }

/-- Puts a snapshot in the place of the one that is there. -/
def place (snapshot : Snapshot) : Acts Session Unit :=
  modify fun s => { s with current := snapshot }

/-- Replaces what is there by policies and maybe a schema, and tells of it. -/
def install (policies : PolicySet) (schema : Option Schema) : Acts Session Unit := do
  let snapshot ← build policies schema
  place snapshot
  tell [Engine.reloadEvent snapshot]

/-- Replaces the policies; the schema is the one that is there. -/
def reload (policies : PolicySet) : Acts Session Unit := do
  let schema := (← get).current.schema
  install policies schema

/-- Replaces the policies and the schema. -/
def reloadWithSchema (policies : PolicySet) (schema : Schema) : Acts Session Unit :=
  install policies (some schema)

/-- Replaces the policies and maybe the schema by those in texts; the schema is read first. -/
def reloadParsed (policies : String) : Option String → Acts Session Unit
  | none => do reload (← need (Engine.parsePolicies policies))
  | some schema => do
    let schema ← need (Engine.parseSchema schema)
    reloadWithSchema (← need (Engine.parsePolicies policies)) schema

/-- Refuses a request that the schema does not admit. -/
def accept (request : Request) : Option Schema → Acts Session Unit
  | none => return
  | some schema => need ((schema.validateRequest request).mapError .request)

/-- Decides a request by the snapshot that is there. -/
def evaluate (request : Request) (store : EntityStore) : Acts Session Response := do
  let snapshot := (← get).current
  accept request snapshot.schema
  let response ← need ((authorize request snapshot.policies store).mapError .unknownEntity)
  tell (Engine.evaluationEvents request response)
  return response

/-- Lists the policies of an effect that may concern a principal. -/
def list (principal : EntityUid) (store : EntityStore) (filter : EffectFilter) :
    Acts Session (List PolicyMatch) := do
  let snapshot := (← get).current
  return snapshot.policies.matchesFor store principal filter

end Session

/-! ## 4. Histories -/

/-- An operation on an engine. -/
inductive Operation where
  | reload (policies : PolicySet)
  | reloadWithSchema (policies : PolicySet) (schema : Schema)
  | reloadParsed (policies : String) (schema : Option String)
  | evaluate (request : Request) (store : EntityStore)
  | list (principal : EntityUid) (store : EntityStore) (filter : EffectFilter)

/-- What an operation gives when it succeeds. -/
inductive Answer where
  /-- Something was put in place. -/
  | done
  | decided (response : Response)
  | listed (found : List PolicyMatch)

namespace Operation

/-- What an operation does to a session. -/
def act : Operation → Acts Session Answer
  | .reload policies => do
    Session.reload policies
    return .done
  | .reloadWithSchema policies schema => do
    Session.reloadWithSchema policies schema
    return .done
  | .reloadParsed policies schema => do
    Session.reloadParsed policies schema
    return .done
  | .evaluate request store => return .decided (← Session.evaluate request store)
  | .list principal store filter => return .listed (← Session.list principal store filter)

/-- What an operation gives when it is applied to an engine: the answer, the engine that there is
afterwards, and the events. -/
def result (e : Engine) : Operation → Except EngineError (Answer × Engine × List Event)
  | .reload policies => (e.reload policies).map fun r => (.done, r)
  | .reloadWithSchema policies schema =>
    (e.reloadWithSchema policies schema).map fun r => (.done, r)
  | .reloadParsed policies schema => (e.reloadParsed policies schema).map fun r => (.done, r)
  | .evaluate request store =>
    (e.evaluate request store).map fun (response, events) => (.decided response, e, events)
  | .list principal store filter => .ok (.listed (e.list principal store filter), e, [])

end Operation

/-- An operation that was carried out: its outcome, and the session that it left behind. -/
structure Deed where
  operation : Operation
  outcome : Except EngineError Answer
  left : Session

namespace Deed

/-- What the observer is told of a deed: one reload if a snapshot was put in place, one evaluation
and its times if a request was decided, and nothing otherwise. -/
def events (d : Deed) : List Event :=
  match d.operation, d.outcome with
  | _, .ok .done => [Engine.reloadEvent d.left.current]
  | .evaluate request _, .ok (.decided response) => Engine.evaluationEvents request response
  | _, _ => []

end Deed

namespace Session

/-- What is done in a session, one operation after the other. -/
def deeds (s : Session) : List Operation → List Deed
  | [] => []
  | op :: ops =>
    let r := op.act.on s
    ⟨op, r.1, r.2⟩ :: r.2.deeds ops

/-- The session after some operations. -/
def after (s : Session) (ops : List Operation) : Session :=
  ops.foldl (fun s op => (op.act.on s).2) s

end Session

end Arbiter
