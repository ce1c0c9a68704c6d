import Arbiter.SortedMap
import Arbiter.SortedSet
import Arbiter.Text.Blank
import Arbiter.Text.Quoted
import Arbiter.Double.Text
import Arbiter.Json.Parser
import Arbiter.Json.Printer
import Arbiter.Entity.Uid
import Arbiter.Extension.Decimal
import Arbiter.Extension.U256.Text
import Arbiter.Extension.IpAddress.Text
import Arbiter.EvalError
import Arbiter.Value.Basic
import Arbiter.Value.Json
import Arbiter.Request.Document
import Arbiter.Pattern
import Arbiter.Pattern.Matching
import Arbiter.Expr.Json
import Arbiter.Policy.Json
import Arbiter.Policy.Loading
import Arbiter.Reach
import Arbiter.Shape
import Arbiter.Schema.Json
import Arbiter.Authorization.Decision
import Arbiter.Store.Ancestry
import Arbiter.Engine.Basic
import Arbiter.Engine.Phases
import Arbiter.Proofs.Reachability
import Arbiter.Proofs.Outcome
import Arbiter.Proofs.Elementwise
import Arbiter.Proofs.Schema.Mentions
import Arbiter.Proofs.Schema.Declarations
import Arbiter.Proofs.Schema.Closed
import Arbiter.Proofs.Schema.Hierarchy
import Arbiter.Proofs.Schema.ClosedWorld
import Arbiter.Proofs.Store.Hierarchy
import Arbiter.Proofs.Store.Building
import Arbiter.Proofs.Store.Described
import Arbiter.Proofs.Store.Conforming
import Arbiter.Proofs.Policy.Reachable
import Arbiter.Proofs.Evaluation
import Arbiter.Proofs.Authorization.Scope
import Arbiter.Proofs.Authorization.Decision
import Arbiter.Proofs.Authorization.ScopeConditions
import Arbiter.Proofs.Validation.Environments
import Arbiter.Proofs.Validation.Typing
import Arbiter.Proofs.Validation.Conformance
import Arbiter.Proofs.Validation.Parts
import Arbiter.Proofs.Validation.Facts
import Arbiter.Proofs.Validation.Operators
import Arbiter.Proofs.Validation.Soundness
import Arbiter.Proofs.Engine.Soundness
import Arbiter.Proofs.Extension.Decimal
import Arbiter.Proofs.Extension.U256
import Arbiter.Proofs.Extension.IpAddress
import Arbiter.Proofs.Json.Sorted
import Arbiter.Proofs.Value.Codec
import Arbiter.Proofs.Expr.Codec
import Arbiter.Proofs.Policy.Codec
import Arbiter.Proofs.Policy.Loading
import Arbiter.Proofs.Json.Text
import Arbiter.Proofs.Value.Faithful
import Arbiter.Proofs.Expr.Faithful
import Arbiter.Proofs.Policy.Canonical
import Arbiter.Proofs.Digits
import Arbiter.Proofs.Expr.Parts
import Arbiter.Policy.Edit
import Arbiter.Proofs.Authorization.Linked
import Arbiter.Proofs.Policy.Edit
import Arbiter.Proofs.Policy.Calls
import Arbiter.Proofs.Policy.Assembly
import Arbiter.Proofs.Policy.Namespace
import Arbiter.Proofs.Search
import Arbiter.Proofs.Store.Ancestors
import Arbiter.Proofs.Validation.ActionGroups
import Arbiter.Engine.Session
import Arbiter.Proofs.Engine.Runs
import Arbiter.Proofs.Policy.Conjunction
import Arbiter.Proofs.Policy.Instances
import Arbiter.Proofs.Authorization.Instances
import Arbiter.Proofs.Validation.Instances
import Arbiter.Proofs.Authorization.Listing
import Arbiter.Proofs.Engine.Listing
import Arbiter.Proofs.Store.Agreement
import Arbiter.Proofs.Authorization.EntityOrder
import Arbiter.Proofs.Pattern.Matching
import Arbiter.Proofs.Extension.Comparison
import Arbiter.Proofs.Extension.DecimalLiteral
import Arbiter.Proofs.Extension.U256Numeral
import Arbiter.Proofs.Extension.IpRange
import Arbiter.Proofs.Entity.Text
import Arbiter.Proofs.Extension.Arguments
import Arbiter.Proofs.Value.SurfaceForms
import Arbiter.Proofs.Validation.Joins
import Arbiter.Proofs.Evaluation.Membership
import Arbiter.Proofs.Validation.JoinedAttributes
import Arbiter.Proofs.Validation.CanonicalTypes
import Arbiter.Proofs.Validation.SetLiterals
import Arbiter.Proofs.Validation.Signatures
import Arbiter.Proofs.Evaluation.Arithmetic
import Arbiter.Proofs.Evaluation.Sets
import Arbiter.Proofs.Policy.Contents
import Arbiter.Proofs.Schema.CommonTypes
import Arbiter.Proofs.Schema.Searches
import Arbiter.Proofs.Pattern.Codec
import Arbiter.Proofs.Pattern.Text
import Arbiter.Proofs.Scope.References
import Arbiter.Proofs.Json.Depth
import Arbiter.Proofs.Request.Context
