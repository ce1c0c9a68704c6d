/-
# The engine

An engine holds a policy set, the schema if there is one, and the version of the policies: the
SHA-256 digest of their canonical text.  With a schema the policies are valid for it, and requests
have to be ones that it admits.  A reload puts another policy set in place and fails without an
effect.

What an engine does is told to an observer: a reload with the number of policies and their
version, an evaluation with its outcome.
-/
import Arbiter.Authorization.Decision
import Arbiter.Authorization.Listing
import Arbiter.Policy.Loading
import Arbiter.Schema.Json
import Arbiter.Sha256
import Arbiter.Validation.Basic

namespace Arbiter

/-! ## 1. Snapshots -/

/-- A policy set with its schema and its version. -/
structure Snapshot where
  policies : PolicySet
  schema : Option Schema
  version : String

/-- The version of a policy set: the digest of its canonical text. -/
def PolicySet.version (ps : PolicySet) : String := Sha256.hexDigest ps.canonical

/-- Policies that are not valid for a schema. -/
structure InvalidPolicies where
  errors : List ValidationError
  deriving DecidableEq, Repr

/-- Policies that are not valid are reported as such. -/
instance : Reported InvalidPolicies where
  kind _ := .validation
  detail e := ValidationError.renderList e.errors

/-- The snapshot of policies, which have to be valid for the schema. -/
def Snapshot.build (policies : PolicySet) (schema : Option Schema) :
    Except InvalidPolicies Snapshot :=
  let errors := match schema with
    | some s => policies.validate s
    | none => []
  if errors.isEmpty then .ok ⟨policies, schema, policies.version⟩ else .error ⟨errors⟩

/-! ## 2. Operations -/

/-- What an observer is told. -/
inductive Event where
  /-- A policy set was put in place. -/
  | reload (policies : Nat) (version : String)
  /-- A request was decided. -/
  | evaluation (allowed : Bool) (principal action : EntityUid) (reasons : List PolicyId)
      (errors : Nat)
  /-- The parts of the time that a decision took are known. -/
  | phases (principal : EntityUid)
  deriving DecidableEq, Repr

/-- Why an operation of an engine failed. -/
inductive EngineError where
  | policies (cause : LoadError)
  | schema (cause : SchemaError)
  | invalid (cause : InvalidPolicies)
  | request (cause : RequestError)
  | unknownEntity (cause : UnknownEntity)

/-- The failure of an operation is reported as its cause. -/
instance : Reported EngineError where
  kind
    | .policies cause => Reported.kind cause
    | .schema cause => Reported.kind cause
    | .invalid cause => Reported.kind cause
    | .request cause => Reported.kind cause
    | .unknownEntity cause => Reported.kind cause
  detail
    | .policies cause => Reported.detail cause
    | .schema cause => Reported.detail cause
    | .invalid cause => Reported.detail cause
    | .request cause => Reported.detail cause
    | .unknownEntity cause => Reported.detail cause

/-- An engine. -/
structure Engine where
  current : Snapshot

namespace Engine

/-- The event of a snapshot that was put in place. -/
def reloadEvent (s : Snapshot) : Event := .reload s.policies.size s.version

/-- An engine with a policy set and maybe a schema. -/
def create (policies : PolicySet) (schema : Option Schema) :
    Except EngineError (Engine × List Event) :=
  match Snapshot.build policies schema with
  | .ok s => .ok (⟨s⟩, [reloadEvent s])
  | .error cause => .error (.invalid cause)

/-- The engine with another policy set; the schema stays. -/
def reload (e : Engine) (policies : PolicySet) : Except EngineError (Engine × List Event) :=
  create policies e.current.schema

/-- The engine with another policy set and another schema. -/
def reloadWithSchema (_ : Engine) (policies : PolicySet) (schema : Schema) :
    Except EngineError (Engine × List Event) :=
  create policies (some schema)

/-- The policy set in a text. -/
def parsePolicies (text : String) : Except EngineError PolicySet :=
  (PolicySet.parse text).mapError .policies

/-- The schema in a text. -/
def parseSchema (text : String) : Except EngineError Schema :=
  (Schema.parse text).mapError .schema

/-- An engine with the policies and maybe the schema in texts; the policies are read first. -/
def parse (policies : String) (schema : Option String) :
    Except EngineError (Engine × List Event) := do
  let policies ← parsePolicies policies
  create policies (← schema.mapM parseSchema)

/-- The engine with the policies and maybe the schema in texts; the schema is read first. -/
def reloadParsed (e : Engine) (policies : String) (schema : Option String) :
    Except EngineError (Engine × List Event) := do
  match schema with
  | none => e.reload (← parsePolicies policies)
  | some schema =>
    let schema ← parseSchema schema
    e.reloadWithSchema (← parsePolicies policies) schema

/-- The events of a decided request. -/
def evaluationEvents (request : Request) (response : Response) : List Event :=
  [.evaluation response.isAllowed request.principal request.action response.reasons
      response.errors.length,
    .phases request.principal]

/-- Decides a request, which has to be one that the schema admits. -/
def evaluate (e : Engine) (request : Request) (store : EntityStore) :
    Except EngineError (Response × List Event) := do
  match e.current.schema with
  | some schema => (schema.validateRequest request).mapError .request
  | none => .ok ()
  let response ← (authorize request e.current.policies store).mapError .unknownEntity
  return (response, evaluationEvents request response)

/-- The policies of an effect that may concern a principal. -/
def list (e : Engine) (principal : EntityUid) (store : EntityStore) (filter : EffectFilter) :
    List PolicyMatch :=
  e.current.policies.matchesFor store principal filter

/-- The faults of the policies, if there is a schema. -/
def validate (e : Engine) : Option (List ValidationError) :=
  e.current.schema.map e.current.policies.validate

end Engine

end Arbiter
