/-
# Checking of expressions

The type of an expression for the requests of one environment: principals and resources of given
types, one action, and contexts as it declares them.  Beside the type there are the faults of the
expression, in the order in which they are found, and the facts that hold when its value is true:
which attributes are there.  A fact is known by the expression of the owner and the name of the
attribute, and allows to read an attribute that may be missing.
-/
import Arbiter.Validation.Fault
import Arbiter.Validation.Type
import Arbiter.Value.Call

namespace Arbiter

/-- The types of the variables of a request. -/
structure RequestEnv where
  principal : EntityType
  action : EntityUid
  resource : EntityType
  context : Ty

/-- Attributes that are known to be there, by the expressions of their owners. -/
abbrev Facts := List (Expr × String)

/-- What the checker finds out about an expression. -/
structure Checked where
  type : Ty
  /-- What holds when the value is true. -/
  facts : Facts := []
  faults : List PolicyFault := []

namespace Checker

/-! ## 1. Requirements -/

/-- The fault of an expression that is not of a needed type; one of which nothing is known has
none. -/
def expect (ok : Ty → Bool) (expected : String) : Ty → List PolicyFault
  | .any => []
  | t => if ok t then [] else [.unexpectedType expected t.render]

/-- Requires a boolean. -/
def expectBool : Ty → List PolicyFault := expect Ty.isBool "Bool"

/-- Requires an integer. -/
def expectLong : Ty → List PolicyFault := expect Ty.isLong "Long"

/-- Requires a string. -/
def expectString : Ty → List PolicyFault := expect Ty.isString "String"

/-- Requires a set. -/
def expectSet : Ty → List PolicyFault := expect Ty.isSet "Set"

/-- Requires an entity. -/
def expectEntity : Ty → List PolicyFault := expect Ty.isEntity "entity"

/-- Requires something with attributes. -/
def expectOwner : Ty → List PolicyFault := expect Ty.hasAttrs "entity or record"

/-- Requires something that an entity can be in. -/
def expectInTarget : Ty → List PolicyFault := expect Ty.isInTarget "entity or set of entities"

/-- Requires types that can have a value in common. -/
def expectJoin (l r : Ty) : List PolicyFault :=
  if (l.join? r).isSome then [] else [.incompatibleTypes l.render r.render]

/-- Requires an entity type that may be mentioned. -/
def requireType (s : Schema) (t : EntityType) : List PolicyFault :=
  if s.isKnownType t then [] else [.unrecognizedEntityType t.name]

/-- The join of types onto a first one; nothing is known when there is none. -/
def joinAll (first : Ty) : List Ty → Ty × List PolicyFault
  | [] => (first, [])
  | t :: r =>
    match first.join? t with
    | some joined => joinAll joined r
    | none => (.any, [.incompatibleTypes first.render t.render])

/-! ## 2. Literals -/

/-- The type of an entity that is named. -/
def entityLiteral (s : Schema) (uid : EntityUid) : Ty × List PolicyFault :=
  (.ofEntityType uid.type,
    if uid.isAction then
      if (s.action? uid).isSome then [] else [.unrecognizedAction uid.render]
    else requireType s uid.type)

mutual

/-- The type of a value. -/
def literal (s : Schema) : Value → Ty × List PolicyFault
  | .bool _ => (.bool, [])
  | .long _ => (.long, [])
  | .string _ => (.string, [])
  | .entity uid => entityLiteral s uid
  | .set elems =>
    let (types, faults) := literals s elems
    let (elem, more) := joinAll .never types
    (.set elem, faults ++ more)
  | .record attrs =>
    let (attrs, faults) := literalAttrs s attrs
    (.record ⟨attrs, false⟩, faults)
  | .ext v => (.extension v.kind, [])
termination_by structural v => v

/-- The types of the elements of a set. -/
def literals (s : Schema) : List Value → List Ty × List PolicyFault
  | [] => ([], [])
  | v :: r =>
    let (t, faults) := literal s v
    let (ts, more) := literals s r
    (t :: ts, faults ++ more)
termination_by structural l => l

/-- The types of the attributes of a record, which are there. -/
def literalAttrs (s : Schema) :
    List (String × Value) → List (String × Attr Ty) × List PolicyFault
  | [] => ([], [])
  | (name, v) :: r =>
    let (t, faults) := literal s v
    let (ts, more) := literalAttrs s r
    ((name, ⟨t, true⟩) :: ts, faults ++ more)
termination_by structural l => l

end

/-- The type of a variable. -/
def var (env : RequestEnv) : Var → Ty
  | .principal => .ofEntityType env.principal
  | .action => .ofEntityType env.action.type
  | .resource => .ofEntityType env.resource
  | .context => env.context

/-! ## 3. Attributes -/

/-- An attribute of which nothing is known but that it is there. -/
def unknownAttr : Attr Ty := ⟨.any, true⟩

/-- The attribute of a record; an open one may have any. -/
def attrOfShape (shape : Shape Ty) (attr : String) : Option (Attr Ty) × List PolicyFault :=
  match shape.get? attr with
  | some a => (some a, [])
  | none =>
    if shape.isOpen then (some unknownAttr, [])
    else (none, [.unsafeAttribute (Ty.record shape).render attr])

/-- The shape of the attributes of entities of a type; one that is not declared has none. -/
def shapeOfType (s : Schema) (t : EntityType) : Shape Ty :=
  match s.entityType? t with
  | some decl => Ty.shapeOf decl.shape
  | none => .empty

/-- The attributes of entities of several types, up to the first type that lacks it. -/
def attrsOfTypes (s : Schema) (attr : String) :
    List EntityType → Option (List (Attr Ty)) × List PolicyFault
  | [] => (some [], [])
  | t :: r =>
    match attrOfShape (shapeOfType s t) attr with
    | (none, faults) => (none, faults)
    | (some a, faults) =>
      let (as, more) := attrsOfTypes s attr r
      (as.map (a :: ·), faults ++ more)

/-- The attribute of an expression of a type. -/
def attrOf (s : Schema) (attr : String) : Ty → Option (Attr Ty) × List PolicyFault
  | .any => (some unknownAttr, [])
  | .record shape => attrOfShape shape attr
  | .entity types =>
    match attrsOfTypes s attr types.toList with
    | (none, faults) => (none, faults)
    | (some as, faults) =>
      let (type, more) := joinAll .never (as.map Attr.type)
      (some ⟨type, as.all Attr.required⟩, faults ++ more)
  | t => (none, [.unexpectedType "entity or record" t.render])

/-- Reading an attribute: one that may be missing has to be among the facts. -/
def getAttr (s : Schema) (known : Facts) (owner : Expr) (ownerType : Ty) (attr : String) :
    Ty × List PolicyFault :=
  match attrOf s attr ownerType with
  | (none, faults) => (.any, faults)
  | (some a, faults) =>
    (a.type, faults ++
      if a.required || known.contains (owner, attr) then []
      else [.unsafeOptionalAttribute owner.render attr])

/-! ## 4. Operators and calls -/

/-- The faults of a membership test on a set. -/
def containsFaults : Ty → Ty → List PolicyFault
  | .set elem, r => expectJoin elem r
  | _, _ => []

/-- The type of an operator and what it requires of its operands. -/
def binary (op : BinaryOp) (l r : Ty) : Ty × List PolicyFault :=
  match op with
  | .eq | .notEq => (.bool, expectJoin l r)
  | .less | .lessEq | .greater | .greaterEq => (.bool, expectLong l ++ expectLong r)
  | .add | .sub | .mul => (.long, expectLong l ++ expectLong r)
  | .isIn => (.bool, expectEntity l ++ expectInTarget r)
  | .contains => (.bool, expectSet l ++ containsFaults l r)
  | .containsAll | .containsAny => (.bool, expectSet l ++ expectSet r)

/-- The type of what a function yields. -/
def returnType : ReturnType → Ty
  | .bool => .bool
  | .extension kind => .extension kind

/-- Whether values of a kind can be compared. -/
def isComparable : ExtensionKind → Bool
  | .decimal | .u256 => true
  | .ipaddr => false

/-- What a comparison requires of an argument, `first` being the kind of the arguments before it,
and the kind of the arguments so far. -/
def comparable (first : Option ExtensionKind) (t : Ty) :
    Option ExtensionKind × List PolicyFault :=
  match first with
  | some kind => (some kind, expect (Ty.isExtension kind) kind.name t)
  | none =>
    match t with
    | .extension kind =>
      if isComparable kind then (some kind, [])
      else (none, [.unexpectedType "decimal or u256" t.render])
    | t => (none, expect (fun _ => false) "decimal or u256" t)

/-- The faults of the arguments of a call and what the parameters require of them. -/
def argFaults (first : Option ExtensionKind) : List Checked → List ParamType → List PolicyFault
  | a :: as, .string :: ps => a.faults ++ expectString a.type ++ argFaults first as ps
  | a :: as, .extension kind :: ps =>
    a.faults ++ expect (Ty.isExtension kind) kind.name a.type ++ argFaults first as ps
  | a :: as, .comparable :: ps =>
    let (first, faults) := comparable first a.type
    a.faults ++ faults ++ argFaults first as ps
  | _, _ => []

/-- The faults of the arguments of a constructor, which takes a literal. -/
def literalFaults (kind : ExtensionKind) (name : String) :
    List Expr → List Checked → List PolicyFault
  | [.value (.string text)], _ =>
    match ExtensionFunction.construct kind text with
    | .ok _ => []
    | .error e => [.badLiteral e.message]
  | _, [a] => a.faults ++ expectString a.type ++ [.nonLiteralArgument name]
  | _, _ => []

/-- The type of a call and the faults of its arguments. -/
def call (name : String) (args : List Expr) (checked : List Checked) : Ty × List PolicyFault :=
  match ExtensionFunction.ofName? name with
  | none => (.any, .undefinedFunction name :: checked.flatMap Checked.faults)
  | some f =>
    let params := f.signature.params
    (returnType f.signature.returns,
      if args.length ≠ params.length then
        .wrongArity name params.length args.length :: checked.flatMap Checked.faults
      else
        match f with
        | .make kind => literalFaults kind name args checked
        | _ => argFaults none checked params)

end Checker

/-! ## 5. Expressions -/

namespace Expr

open Checker

mutual

/-- What there is to know about an expression, when some facts are known. -/
def check (s : Schema) (env : RequestEnv) : Expr → Facts → Checked
  | .value v, _ =>
    let (type, faults) := literal s v
    { type, faults }
  | .var v, _ => { type := Checker.var env v }
  | .not e, known =>
    let r := e.check s env known
    { type := .bool, faults := r.faults ++ expectBool r.type }
  | .neg e, known =>
    let r := e.check s env known
    { type := .long, faults := r.faults ++ expectLong r.type }
  | .isEmpty e, known =>
    let r := e.check s env known
    { type := .bool, faults := r.faults ++ expectSet r.type }
  | .and l r, known =>
    let l := l.check s env known
    let r := r.check s env (known ++ l.facts)
    { type := .bool, facts := l.facts ++ r.facts
      faults := l.faults ++ expectBool l.type ++ r.faults ++ expectBool r.type }
  | .or l r, known =>
    let l := l.check s env known
    let r := r.check s env known
    { type := .bool, facts := l.facts.filter r.facts.contains
      faults := l.faults ++ expectBool l.type ++ r.faults ++ expectBool r.type }
  | .ite c y n, known =>
    let c := c.check s env known
    let y := y.check s env (known ++ c.facts)
    let n := n.check s env known
    let (type, faults) := joinAll .never [y.type, n.type]
    { type, facts := (c.facts ++ y.facts).filter n.facts.contains
      faults := c.faults ++ expectBool c.type ++ y.faults ++ n.faults ++ faults }
  | .binary op l r, known =>
    let l := l.check s env known
    let r := r.check s env known
    let (type, faults) := Checker.binary op l.type r.type
    { type, faults := l.faults ++ r.faults ++ faults }
  | .getAttr e attr, known =>
    let r := e.check s env known
    let (type, faults) := Checker.getAttr s known e r.type attr
    { type, faults := r.faults ++ faults }
  | .hasAttr e attr, known =>
    let r := e.check s env known
    { type := .bool, facts := [(e, attr)], faults := r.faults ++ expectOwner r.type }
  | .like e _, known =>
    let r := e.check s env known
    { type := .bool, faults := r.faults ++ expectString r.type }
  | .isType e t, known =>
    let r := e.check s env known
    { type := .bool, faults := r.faults ++ expectEntity r.type ++ requireType s t }
  | .isTypeIn e t target, known =>
    let r := e.check s env known
    let target := target.check s env known
    { type := .bool
      faults := r.faults ++ expectEntity r.type ++ requireType s t ++ target.faults
        ++ expectInTarget target.type }
  | .set items, known =>
    let rs := checkList s env items known
    let (elem, faults) := joinAll .never (rs.map Checked.type)
    { type := .set elem, faults := rs.flatMap Checked.faults ++ faults }
  | .record attrs, known =>
    let rs := checkFields s env attrs known
    { type := .record (.closed (rs.map fun (name, r) => (name, ⟨r.type, true⟩)))
      faults := rs.flatMap fun (_, r) => r.faults }
  | .call name args, known =>
    let (type, faults) := Checker.call name args (checkList s env args known)
    { type, faults }
termination_by structural e => e

/-- What there is to know about the expressions of a list. -/
def checkList (s : Schema) (env : RequestEnv) : List Expr → Facts → List Checked
  | [], _ => []
  | e :: r, known => e.check s env known :: checkList s env r known
termination_by structural l => l

/-- What there is to know about the attributes of a record. -/
def checkFields (s : Schema) (env : RequestEnv) :
    List (String × Expr) → Facts → List (String × Checked)
  | [], _ => []
  | (name, e) :: r, known => (name, e.check s env known) :: checkFields s env r known
termination_by structural l => l

end

end Expr

end Arbiter
