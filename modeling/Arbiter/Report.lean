/-
# Reports of what went wrong

Every operation that can refuse its input has an error type of its own whose constructors are the
causes.  What a caller is told about a cause is always of the same make: the kind of thing that
failed, and a detail, which the kind introduces.
-/

namespace Arbiter

/-- The kind of thing that failed. -/
inductive ErrorKind where
  /-- A literal or a policy document. -/
  | parse
  /-- A request about an entity that is not stored. -/
  | unknownEntity
  /-- A request that its action does not admit. -/
  | request
  /-- A context document. -/
  | context
  /-- An entity document or an entity. -/
  | entity
  /-- A schema document or a schema. -/
  | schema
  /-- An id that is taken. -/
  | duplicateId
  /-- A link from a template to a policy. -/
  | linking
  /-- Policies that do not type-check. -/
  | validation
  /-- A document of the wrong form. -/
  | format
  deriving DecidableEq, Repr

/-- A detail behind the introduction of its kind. -/
def ErrorKind.introduce (detail : String) : ErrorKind → String
  | .parse => "failed to parse: " ++ detail
  | .unknownEntity => s!"entity `{detail}` does not exist in the entity store"
  | .request => "request validation error: " ++ detail
  | .context => "Context creation error: " ++ detail
  | .entity => "Entity error: " ++ detail
  | .schema => "Schema error: " ++ detail
  | .duplicateId => s!"duplicate template or policy id `{detail}`"
  | .linking => "Linking error: " ++ detail
  | .validation => "policy validation failed: " ++ detail
  | .format => "Invalid format: " ++ detail

/-- Error types whose values can be told to a caller. -/
class Reported (ε : Type) where
  /-- The kind of thing that failed. -/
  kind : ε → ErrorKind
  /-- What failed about it. -/
  detail : ε → String

/-- The whole message: the detail behind the introduction of its kind. -/
def Reported.message {ε : Type} [Reported ε] (e : ε) : String :=
  (Reported.kind e).introduce (Reported.detail e)

/-- Why a document was refused: it does not have the form of what it should describe, which is
reported without particulars, or what it describes was refused. -/
inductive DocumentError (ε : Type) where
  /-- The document does not have the expected form. -/
  | malformed
  /-- The document says something that is not acceptable. -/
  | refused (cause : ε)
  deriving DecidableEq

/-- The detail of the report on a document. -/
def DocumentError.detail {ε : Type} [Reported ε] : DocumentError ε → String
  | .malformed => "<json>"
  | .refused cause => Reported.message cause

/-- A document by itself is reported as one of the wrong form. -/
instance {ε : Type} [Reported ε] : Reported (DocumentError ε) where
  kind _ := .format
  detail := DocumentError.detail

/-- An error of either of two types is reported as it is. -/
instance {α β : Type} [Reported α] [Reported β] : Reported (α ⊕ β) where
  kind
    | .inl e => Reported.kind e
    | .inr e => Reported.kind e
  detail
    | .inl e => Reported.detail e
    | .inr e => Reported.detail e

/-- What a document says, or else that it is malformed. -/
def wellFormed {ε α : Type} : Option α → Except (DocumentError ε) α
  | some a => .ok a
  | none => .error .malformed

/-- Hands on the result of an operation on what a document says. -/
def refusing {ε α : Type} (r : Except ε α) : Except (DocumentError ε) α :=
  r.mapError .refused

end Arbiter
