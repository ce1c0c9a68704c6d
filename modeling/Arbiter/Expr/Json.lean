/-
# Documents of expressions

Every node is an object with a single field that names the operator and holds the operands.  A
name that is no operator is the name of an extension function, which holds its arguments.
-/
import Arbiter.Expr.Basic
import Arbiter.Json.Printer
import Arbiter.Value.Json

namespace Arbiter

/-- Why a document is not the document of an expression. -/
inductive ExprError where
  /-- The document is not an object with one field. -/
  | notSingle (doc : Json)
  /-- A literal is no value. -/
  | value (cause : ValueError)
  /-- The name of a variable is not a string. -/
  | varNotString (doc : Json)
  /-- There is no variable of the name. -/
  | unknownVar (name : String)
  /-- Slots stand in the scope only. -/
  | slot
  /-- An operand is missing. -/
  | missing (name : String) (doc : Json)
  /-- A name among the operands is missing. -/
  | missingString (name : String) (doc : Json)
  /-- The pattern of a match is missing. -/
  | missingPattern (doc : Json)
  /-- The pattern of a match is no pattern. -/
  | pattern (cause : DocumentError DanglingEscape)
  /-- The type of a type test is no name of a type. -/
  | typeName (cause : UidError)
  /-- The elements of a set are not an array. -/
  | setNotArray (doc : Json)
  /-- The attributes of a record are not an object. -/
  | recordNotObject (doc : Json)
  /-- The arguments of a call are not an array. -/
  | argsNotArray (name : String) (doc : Json)

/-- A document that is not the document of an expression is of the wrong form; the name of a type
in it is a literal by itself. -/
instance : Reported ExprError where
  kind
    | .typeName cause => Reported.kind cause
    | _ => .format
  detail
    | .notSingle doc => "expected a single-key object, got " ++ doc.compact
    | .value cause => Reported.detail cause
    | .varNotString doc => "`Var` must be a string, got " ++ doc.compact
    | .unknownVar name => s!"unknown variable `{name}`"
    | .slot => "slots may only appear in the policy scope"
    | .missing name doc => "missing `" ++ name ++ "` in " ++ doc.compact
    | .missingString name doc => "missing string `" ++ name ++ "` in " ++ doc.compact
    | .missingPattern doc => "`like` is missing `pattern` in " ++ doc.compact
    | .pattern cause => Reported.detail cause
    | .typeName cause => Reported.detail cause
    | .setNotArray doc => "`Set` must be an array, got " ++ doc.compact
    | .recordNotObject doc => "`Record` must be an object, got " ++ doc.compact
    | .argsNotArray name doc =>
      "arguments of `" ++ name ++ "` must be an array, got " ++ doc.compact

namespace Expr

/-! ## 1. Reading -/

/-- The variable of a document. -/
def varOfJson : Json → Except ExprError Var
  | .string name =>
    match Var.ofName? name with
    | some v => .ok v
    | none => .error (.unknownVar name)
  | j => .error (.varNotString j)

/-- The string under a name. -/
def stringField (name : String) (j : Json) : Except ExprError String :=
  match (j.get? name).bind Json.string? with
  | some s => .ok s
  | none => .error (.missingString name j)

/-- The document of the pattern of a match. -/
def patternField (j : Json) : Except ExprError Json :=
  match j.get? "pattern" with
  | some p => .ok p
  | none => .error (.missingPattern j)

mutual

/-- The expression of a document. -/
def ofJson : Json → Except ExprError Expr
  | .object [(key, inner)] =>
    match key with
    | "Value" => ((Value.ofJson inner).map .value).mapError .value
    | "Var" => (varOfJson inner).map .var
    | "Slot" => .error .slot
    | "!" => (operand "arg" inner).map .not
    | "neg" => (operand "arg" inner).map .neg
    | "isEmpty" => (operand "arg" inner).map .isEmpty
    | "&&" => do return .and (← operand "left" inner) (← operand "right" inner)
    | "||" => do return .or (← operand "left" inner) (← operand "right" inner)
    | "if-then-else" => do
      return .ite (← operand "if" inner) (← operand "then" inner) (← operand "else" inner)
    | "." => do return .getAttr (← operand "left" inner) (← stringField "attr" inner)
    | "has" => do return .hasAttr (← operand "left" inner) (← stringField "attr" inner)
    | "like" => do
      let pattern ← patternField inner
      let e ← operand "left" inner
      return .like e (← (Pattern.ofJson pattern).mapError .pattern)
    | "is" => do
      let e ← operand "left" inner
      let t ← (EntityType.parse (← stringField "entity_type" inner)).mapError .typeName
      match ← operand? "in" inner with
      | some target => return .isTypeIn e t target
      | none => return .isType e t
    | "Set" =>
      match inner with
      | .array items => (listOfJson items).map .set
      | j => .error (.setNotArray j)
    | "Record" =>
      match inner with
      | .object fields => (fieldsOfJson fields).map recordOf
      | j => .error (.recordNotObject j)
    | name =>
      match BinaryOp.ofName? name with
      | some op => do return .binary op (← operand "left" inner) (← operand "right" inner)
      | none =>
        match inner with
        | .array args => (listOfJson args).map (.call name)
        | j => .error (.argsNotArray name j)
  | j => .error (.notSingle j)
termination_by structural j => j

/-- The operand under a name, if there is one. -/
def operand? (name : String) : Json → Except ExprError (Option Expr)
  | .object fields => operandIn? name fields
  | _ => .ok none
termination_by structural j => j

/-- The operand under a name. -/
def operand (name : String) : Json → Except ExprError Expr
  | .object fields => do
    match ← operandIn? name fields with
    | some e => return e
    | none => .error (.missing name (.object fields))
  | j => .error (.missing name j)
termination_by structural j => j

/-- The operand under a name among fields, if there is one. -/
def operandIn? (name : String) : List (String × Json) → Except ExprError (Option Expr)
  | [] => .ok none
  | (k, j) :: r => if name == k then (ofJson j).map some else operandIn? name r
termination_by structural l => l

/-- The expressions of the items of an array. -/
def listOfJson : List Json → Except ExprError (List Expr)
  | [] => .ok []
  | j :: r => do return (← ofJson j) :: (← listOfJson r)
termination_by structural l => l

/-- The expressions of the fields of an object. -/
def fieldsOfJson : List (String × Json) → Except ExprError (List (String × Expr))
  | [] => .ok []
  | (name, j) :: r => do return (name, ← ofJson j) :: (← fieldsOfJson r)
termination_by structural l => l

end

/-! ## 2. Writing -/

/-- The document of a node with one operand. -/
def unaryJson (key : String) (arg : Json) : Json := .single key (.object [("arg", arg)])

/-- The document of a node with two operands. -/
def pairJson (key : String) (left right : Json) : Json :=
  .single key (.object [("left", left), ("right", right)])

/-- The document of a node that looks at an attribute. -/
def attrJson (key attr : String) (left : Json) : Json :=
  .single key (.object [("attr", .string attr), ("left", left)])

mutual

/-- The document of an expression. -/
def toJson : Expr → Json
  | .value v => .single "Value" v.toJson
  | .var v => .single "Var" (.string v.name)
  | .not e => unaryJson "!" e.toJson
  | .neg e => unaryJson "neg" e.toJson
  | .isEmpty e => unaryJson "isEmpty" e.toJson
  | .and l r => pairJson "&&" l.toJson r.toJson
  | .or l r => pairJson "||" l.toJson r.toJson
  | .ite c y n =>
    .single "if-then-else" (.object [("else", n.toJson), ("if", c.toJson), ("then", y.toJson)])
  | .binary op l r => pairJson op.name l.toJson r.toJson
  | .getAttr e attr => attrJson "." attr e.toJson
  | .hasAttr e attr => attrJson "has" attr e.toJson
  | .like e p => .single "like" (.object [("left", e.toJson), ("pattern", p.toJson)])
  | .isType e t => .single "is" (.object [("entity_type", .string t.name), ("left", e.toJson)])
  | .isTypeIn e t target =>
    .single "is" (.object [("entity_type", .string t.name), ("in", target.toJson),
      ("left", e.toJson)])
  | .set items => .single "Set" (.array (listToJson items))
  | .record attrs => .single "Record" (.object (fieldsToJson attrs))
  | .call name args => .single name (.array (listToJson args))
termination_by structural e => e

/-- The documents of a list of expressions. -/
def listToJson : List Expr → List Json
  | [] => []
  | e :: r => e.toJson :: listToJson r
termination_by structural l => l

/-- The documents of the attributes of a record. -/
def fieldsToJson : List (String × Expr) → List (String × Json)
  | [] => []
  | (name, e) :: r => (name, e.toJson) :: fieldsToJson r
termination_by structural l => l

end

end Expr

end Arbiter
