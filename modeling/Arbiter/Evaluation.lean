/-
# Evaluation

What an expression yields for a request over an entity store.  Operands are evaluated from left to
right, each one to the sort of value that its operator needs before the next one is looked at.
-/
import Arbiter.Pattern.Matching
import Arbiter.Policy.Template
import Arbiter.Store.Basic
import Arbiter.Value.Call

namespace Arbiter

/-! ## 1. Sorts of values -/

namespace Value

/-- The truth value of a boolean. -/
def asBool : Value → Except EvalError Bool
  | .bool b => .ok b
  | v => .error (.typeError "bool" v.typeName)

/-- The integer of a long. -/
def asLong : Value → Except EvalError Int64
  | .long n => .ok n
  | v => .error (.typeError "long" v.typeName)

/-- The elements of a set. -/
def asSet : Value → Except EvalError (List Value)
  | .set elems => .ok elems
  | v => .error (.typeError "set" v.typeName)

/-- The uid of an entity. -/
def asEntity : Value → Except EvalError EntityUid
  | .entity uid => .ok uid
  | v => .error (.typeError "entity" v.typeName)

/-- The text of a string. -/
def asString : Value → Except EvalError String
  | .string s => .ok s
  | v => .error (.typeError "string" v.typeName)

end Value

/-! ## 2. Operators -/

namespace Evaluation

/-- A result that has to fit 64 bits. -/
def exact (op : String) : Option Int64 → Except EvalError Value
  | some n => .ok (.long n)
  | none => .error (.integerOverflow op)

/-- Whether an entity is in one of the elements of a set, which have to be entities up to the one
that decides. -/
def isInAny (store : EntityStore) (uid : EntityUid) : List Value → Except EvalError Bool
  | [] => .ok false
  | .entity ancestor :: rest =>
    if store.isDescendant uid ancestor then .ok true else isInAny store uid rest
  | v :: _ => .error (.typeError "entity" v.typeName)

/-- Whether an entity is in another one or in one of a set. -/
def isIn (store : EntityStore) (uid : EntityUid) : Value → Except EvalError Bool
  | .entity ancestor => .ok (store.isDescendant uid ancestor)
  | .set elems => isInAny store uid elems
  | v => .error (.typeError "entity or set of entities" v.typeName)

/-- The attribute of an entity or of a record. -/
def getAttr (store : EntityStore) (attr : String) : Value → Except EvalError Value
  | .entity uid =>
    match store.get? uid with
    | none => .error (.entityDoesNotExist uid)
    | some e =>
      match e.attr? attr with
      | some v => .ok v
      | none => .error (.attributeNotFound uid.render attr)
  | .record attrs =>
    match SortedList.find? attr attrs with
    | some v => .ok v
    | none => .error (.attributeNotFound "record" attr)
  | v => .error (.typeError "entity or record" v.typeName)

/-- Whether an entity or a record has an attribute; an entity that is not stored has none. -/
def hasAttr (store : EntityStore) (attr : String) : Value → Except EvalError Bool
  | .entity uid => .ok ((store.get? uid).any fun e => (e.attr? attr).isSome)
  | .record attrs => .ok (SortedList.find? attr attrs).isSome
  | v => .error (.typeError "entity or record" v.typeName)

/-- Whether all elements of `elems` are in `set`. -/
def containsAll (set elems : List Value) : Bool := elems.all fun v => SortedList.has v set

/-- Whether some element of `elems` is in `set`. -/
def containsAny (set elems : List Value) : Bool := elems.any fun v => SortedList.has v set

/-- The value of a variable. -/
def var (request : Request) : Var → Value
  | .principal => .entity request.principal
  | .action => .entity request.action
  | .resource => .entity request.resource
  | .context => request.context.toValue

/-- The value of an operator.  `right` is looked at only when the left operand is of the sort that
the operator needs. -/
def binary (store : EntityStore) (op : BinaryOp) (left right : Except EvalError Value) :
    Except EvalError Value := do
  let l ← left
  match op with
  | .eq => return .bool (l == (← right))
  | .notEq => return .bool (l != (← right))
  | .less =>
    let a ← l.asLong
    return .bool (a < (← (← right).asLong))
  | .lessEq =>
    let a ← l.asLong
    return .bool (a ≤ (← (← right).asLong))
  | .greater =>
    let a ← l.asLong
    return .bool (a > (← (← right).asLong))
  | .greaterEq =>
    let a ← l.asLong
    return .bool (a ≥ (← (← right).asLong))
  | .add =>
    let a ← l.asLong
    exact op.name (Long.add? a (← (← right).asLong))
  | .sub =>
    let a ← l.asLong
    exact op.name (Long.sub? a (← (← right).asLong))
  | .mul =>
    let a ← l.asLong
    exact op.name (Long.mul? a (← (← right).asLong))
  | .isIn =>
    let uid ← l.asEntity
    return .bool (← isIn store uid (← right))
  | .contains =>
    let set ← l.asSet
    return .bool (SortedList.has (← right) set)
  | .containsAll =>
    let set ← l.asSet
    return .bool (containsAll set (← (← right).asSet))
  | .containsAny =>
    let set ← l.asSet
    return .bool (containsAny set (← (← right).asSet))

end Evaluation

/-! ## 3. Expressions -/

namespace Expr

mutual

/-- The value of an expression. -/
def eval (request : Request) (store : EntityStore) : Expr → Except EvalError Value
  | .value v => .ok v
  | .var v => .ok (Evaluation.var request v)
  | .not e => do return .bool !(← (← e.eval request store).asBool)
  | .neg e => do Evaluation.exact "-" (Long.neg? (← (← e.eval request store).asLong))
  | .isEmpty e => do return .bool (← (← e.eval request store).asSet).isEmpty
  | .and l r => do
    if ← (← l.eval request store).asBool then return .bool (← (← r.eval request store).asBool)
    else return .bool false
  | .or l r => do
    if ← (← l.eval request store).asBool then return .bool true
    else return .bool (← (← r.eval request store).asBool)
  | .ite c y n => do
    if ← (← c.eval request store).asBool then y.eval request store else n.eval request store
  | .binary op l r => Evaluation.binary store op (l.eval request store) (r.eval request store)
  | .getAttr e attr => do Evaluation.getAttr store attr (← e.eval request store)
  | .hasAttr e attr => do return .bool (← Evaluation.hasAttr store attr (← e.eval request store))
  | .like e p => do return .bool (p.isMatch (← (← e.eval request store).asString))
  | .isType e t => do return .bool ((← (← e.eval request store).asEntity).type == t)
  | .isTypeIn e t target => do
    let uid ← (← e.eval request store).asEntity
    if uid.type = t then return .bool (← Evaluation.isIn store uid (← target.eval request store))
    else return .bool false
  | .set items => do return .setOf (← evalList request store items)
  | .record attrs => do return .recordOf (← evalFields request store attrs)
  | .call name args => do
    let f ← ExtensionFunction.named name
    f.call (← evalList request store args)
termination_by structural e => e

/-- The values of a list of expressions. -/
def evalList (request : Request) (store : EntityStore) :
    List Expr → Except EvalError (List Value)
  | [] => .ok []
  | e :: r => do return (← e.eval request store) :: (← evalList request store r)
termination_by structural l => l

/-- The values of the attributes of a record. -/
def evalFields (request : Request) (store : EntityStore) :
    List (String × Expr) → Except EvalError (List (String × Value))
  | [] => .ok []
  | (name, e) :: r => do return (name, ← e.eval request store) :: (← evalFields request store r)
termination_by structural l => l

end

/-- The truth value of an expression. -/
def evalBool (request : Request) (store : EntityStore) (e : Expr) : Except EvalError Bool := do
  (← e.eval request store).asBool

end Expr

/-- Whether a truth value is the one that a kind of condition needs. -/
def ConditionKind.admits : ConditionKind → Bool → Bool
  | .when, b => b
  | .unless, b => !b

/-- Whether all conditions hold.  The first one that does not, or has no truth value, decides. -/
def conditionsHold (request : Request) (store : EntityStore) :
    List Condition → Except EvalError Bool
  | [] => .ok true
  | c :: rest => do
    if c.kind.admits (← c.body.evalBool request store) then conditionsHold request store rest
    else return false

end Arbiter
