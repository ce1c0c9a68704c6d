/-
# Requests

A request asks whether a principal may perform an action on a resource.
-/
import Arbiter.Request.Context

namespace Arbiter

/-- May the principal perform the action on the resource, in the context? -/
structure Request where
  principal : EntityUid
  action : EntityUid
  resource : EntityUid
  context : Context := .empty
  deriving DecidableEq

namespace Request

/-- A request as text; its context is left out. -/
def render (r : Request) : String :=
  s!"principal={r.principal}, action={r.action}, resource={r.resource}"

/-- The document of a request. -/
def toJson (r : Request) : Json :=
  .object [("principal", r.principal.toJson), ("action", r.action.toJson),
    ("resource", r.resource.toJson), ("context", r.context.toJson)]

end Request

end Arbiter
