/-
# Condition expressions

The expressions of conditions.  Two expressions are compared as trees, since what a `has` test
establishes is remembered by the expression that it tests.
-/
import Arbiter.Pattern
import Arbiter.Value.Basic

namespace Arbiter

/-- The four parts of a request. -/
inductive Var where
  | principal
  | action
  | resource
  | context
  deriving DecidableEq, Repr, Inhabited

namespace Var

/-- The name of a variable. -/
def name : Var → String
  | .principal => "principal"
  | .action => "action"
  | .resource => "resource"
  | .context => "context"

/-- The variable with a given name. -/
def ofName? (name : String) : Option Var :=
  [.principal, .action, .resource, .context].find? fun v => v.name == name

theorem ofName?_name (v : Var) : ofName? v.name = some v := by cases v <;> decide

end Var

/-- The operators on two values; `&&` and `||`, which may leave out the second one, are not among
them. -/
inductive BinaryOp where
  | eq
  | notEq
  | less
  | lessEq
  | greater
  | greaterEq
  | add
  | sub
  | mul
  | isIn
  | contains
  | containsAll
  | containsAny
  deriving DecidableEq, Repr, Inhabited

namespace BinaryOp

/-- The operator as it is written. -/
def name : BinaryOp → String
  | .eq => "=="
  | .notEq => "!="
  | .less => "<"
  | .lessEq => "<="
  | .greater => ">"
  | .greaterEq => ">="
  | .add => "+"
  | .sub => "-"
  | .mul => "*"
  | .isIn => "in"
  | .contains => "contains"
  | .containsAll => "containsAll"
  | .containsAny => "containsAny"

/-- All operators. -/
def all : List BinaryOp :=
  [.eq, .notEq, .less, .lessEq, .greater, .greaterEq, .add, .sub, .mul, .isIn, .contains,
    .containsAll, .containsAny]

/-- The operator with a given name. -/
def ofName? (name : String) : Option BinaryOp := all.find? fun op => op.name == name

theorem ofName?_name (op : BinaryOp) : ofName? op.name = some op := by cases op <;> decide

/-- Whether the operator is written like a call on its first operand. -/
def isMethod : BinaryOp → Bool
  | .contains | .containsAll | .containsAny => true
  | _ => false

end BinaryOp

/-- An expression. -/
inductive Expr where
  | value (v : Value)
  | var (v : Var)
  | not (e : Expr)
  | neg (e : Expr)
  | isEmpty (e : Expr)
  | and (l r : Expr)
  | or (l r : Expr)
  | ite (cond yes no : Expr)
  | binary (op : BinaryOp) (l r : Expr)
  | getAttr (e : Expr) (attr : String)
  | hasAttr (e : Expr) (attr : String)
  | like (e : Expr) (p : Pattern)
  /-- Whether an entity is of a type. -/
  | isType (e : Expr) (t : EntityType)
  /-- Whether an entity is of a type and in another entity or set of entities. -/
  | isTypeIn (e : Expr) (t : EntityType) (target : Expr)
  | set (items : List Expr)
  /-- A record, its attributes in the order of their names. -/
  | record (attrs : List (String × Expr))
  /-- A call of an extension function; the receiver of a method is the first argument. -/
  | call (name : String) (args : List Expr)

namespace Expr

instance : Inhabited Expr := ⟨.value default⟩

/-- The record of the given attributes: of two with one name the later one stays. -/
def recordOf (attrs : List (String × Expr)) : Expr := .record (SortedList.ofPairs attrs)

/-- The direct subexpressions, in the order in which they are evaluated. -/
def children : Expr → List Expr
  | .value _ | .var _ => []
  | .not e | .neg e | .isEmpty e | .getAttr e _ | .hasAttr e _ | .like e _ | .isType e _ => [e]
  | .and l r | .or l r | .binary _ l r => [l, r]
  | .isTypeIn e _ target => [e, target]
  | .ite c y n => [c, y, n]
  | .set items | .call _ items => items
  | .record attrs => attrs.map Prod.snd

/-! ## 1. Equality -/

mutual

/-- Whether two expressions are the same tree. -/
def same : Expr → Expr → Bool
  | .value a, .value b => a == b
  | .var a, .var b => a == b
  | .not a, .not b | .neg a, .neg b | .isEmpty a, .isEmpty b => same a b
  | .and a b, .and c d | .or a b, .or c d => same a c && same b d
  | .ite a b c, .ite d e f => same a d && same b e && same c f
  | .binary o a b, .binary p c d => o == p && same a c && same b d
  | .getAttr a x, .getAttr b y | .hasAttr a x, .hasAttr b y => x == y && same a b
  | .like a p, .like b q => p == q && same a b
  | .isType a s, .isType b t => s == t && same a b
  | .isTypeIn a s c, .isTypeIn b t d => s == t && same a b && same c d
  | .set a, .set b => sameList a b
  | .record a, .record b => sameFields a b
  | .call n a, .call m b => n == m && sameList a b
  | _, _ => false
termination_by structural e => e

/-- Whether two lists hold the same trees. -/
def sameList : List Expr → List Expr → Bool
  | [], [] => true
  | a :: as, b :: bs => same a b && sameList as bs
  | _, _ => false
termination_by structural l => l

/-- Whether two lists hold the same trees under the same names. -/
def sameFields : List (String × Expr) → List (String × Expr) → Bool
  | [], [] => true
  | (k, a) :: as, (j, b) :: bs => k == j && same a b && sameFields as bs
  | _, _ => false
termination_by structural l => l

end

mutual

theorem same_self : ∀ a : Expr, same a a = true
  | .value _ | .var _ => by simp [same]
  | .not a | .neg a | .isEmpty a | .getAttr a _ | .hasAttr a _ | .like a _ | .isType a _ => by
    simp [same, same_self a]
  | .and a b | .or a b | .binary _ a b | .isTypeIn a _ b => by
    simp [same, same_self a, same_self b]
  | .ite a b c => by simp [same, same_self a, same_self b, same_self c]
  | .set a | .call _ a => by simp [same, sameList_self a]
  | .record a => by simp [same, sameFields_self a]

theorem sameList_self : ∀ a : List Expr, sameList a a = true
  | [] => rfl
  | a :: as => by simp [sameList, same_self a, sameList_self as]

theorem sameFields_self : ∀ a : List (String × Expr), sameFields a a = true
  | [] => rfl
  | (_, a) :: as => by simp [sameFields, same_self a, sameFields_self as]

end

mutual

theorem eq_of_same : ∀ {a b : Expr}, same a b = true → a = b
  | .value _, b, h | .var _, b, h => by
    cases b <;> simp_all [same]
  | .not a, b, h | .neg a, b, h | .isEmpty a, b, h => by
    cases b <;> simp only [same, Bool.false_eq_true] at h
    exact congrArg _ (eq_of_same h)
  | .and a c, b, h | .or a c, b, h => by
    cases b <;> simp only [same, Bool.false_eq_true, Bool.and_eq_true] at h
    rw [eq_of_same h.1, eq_of_same h.2]
  | .ite a c d, b, h => by
    cases b <;> simp only [same, Bool.false_eq_true, Bool.and_eq_true] at h
    rw [eq_of_same h.1.1, eq_of_same h.1.2, eq_of_same h.2]
  | .binary _ a c, b, h | .isTypeIn a _ c, b, h => by
    cases b <;> simp only [same, Bool.false_eq_true, Bool.and_eq_true, beq_iff_eq] at h
    rw [h.1.1, eq_of_same h.1.2, eq_of_same h.2]
  | .getAttr a _, b, h | .hasAttr a _, b, h | .like a _, b, h | .isType a _, b, h => by
    cases b <;> simp only [same, Bool.false_eq_true, Bool.and_eq_true, beq_iff_eq] at h
    rw [h.1, eq_of_same h.2]
  | .set a, b, h => by
    cases b <;> simp only [same, Bool.false_eq_true] at h
    rw [eq_of_sameList h]
  | .record a, b, h => by
    cases b <;> simp only [same, Bool.false_eq_true] at h
    rw [eq_of_sameFields h]
  | .call _ a, b, h => by
    cases b <;> simp only [same, Bool.false_eq_true, Bool.and_eq_true, beq_iff_eq] at h
    rw [h.1, eq_of_sameList h.2]

theorem eq_of_sameList : ∀ {a b : List Expr}, sameList a b = true → a = b
  | [], [], _ => rfl
  | _ :: _, _ :: _, h => by
    simp only [sameList, Bool.and_eq_true] at h
    rw [eq_of_same h.1, eq_of_sameList h.2]

theorem eq_of_sameFields : ∀ {a b : List (String × Expr)}, sameFields a b = true → a = b
  | [], [], _ => rfl
  | (_, _) :: _, (_, _) :: _, h => by
    simp only [sameFields, Bool.and_eq_true, beq_iff_eq] at h
    rw [h.1.1, eq_of_same h.1.2, eq_of_sameFields h.2]

end

instance : DecidableEq Expr := fun a _ =>
  decidable_of_iff _ ⟨eq_of_same, fun h => h ▸ same_self a⟩

/-! ## 2. Text -/

/-- Whether a call is written like a method on its first argument: that of a known function that
is no constructor. -/
def isMethodName (name : String) : Bool :=
  (ExtensionFunction.ofName? name).any fun f => !f.isConstructor

mutual

/-- An expression as text. -/
def render : Expr → String
  | .value v => v.render
  | .var v => v.name
  | .not e => "!(" ++ e.render ++ ")"
  | .neg e => "-(" ++ e.render ++ ")"
  | .isEmpty e => e.render ++ ".isEmpty()"
  | .and l r => "(" ++ l.render ++ " && " ++ r.render ++ ")"
  | .or l r => "(" ++ l.render ++ " || " ++ r.render ++ ")"
  | .ite c y n => "(if " ++ c.render ++ " then " ++ y.render ++ " else " ++ n.render ++ ")"
  | .binary op l r =>
    if op.isMethod then l.render ++ "." ++ op.name ++ "(" ++ r.render ++ ")"
    else "(" ++ l.render ++ " " ++ op.name ++ " " ++ r.render ++ ")"
  | .getAttr e attr => e.render ++ "." ++ attr
  | .hasAttr e attr => "(" ++ e.render ++ " has " ++ attr ++ ")"
  | .like e p => "(" ++ e.render ++ " like \"" ++ p.render ++ "\")"
  | .isType e t => "(" ++ e.render ++ " is " ++ t.name ++ ")"
  | .isTypeIn e t target =>
    "(" ++ e.render ++ " is " ++ t.name ++ " in " ++ target.render ++ ")"
  | .set items => "[" ++ ", ".intercalate (renderList items) ++ "]"
  | .record attrs => "\x7b" ++ ", ".intercalate (renderFields attrs) ++ "\x7d"
  | .call name args =>
    match isMethodName name, renderList args with
    | true, receiver :: rest => receiver ++ "." ++ name ++ "(" ++ ", ".intercalate rest ++ ")"
    | _, texts => name ++ "(" ++ ", ".intercalate texts ++ ")"
termination_by structural e => e

/-- The texts of a list of expressions. -/
def renderList : List Expr → List String
  | [] => []
  | e :: r => e.render :: renderList r
termination_by structural l => l

/-- The texts of the attributes of a record. -/
def renderFields : List (String × Expr) → List String
  | [] => []
  | (k, e) :: r => (Text.quote k ++ ": " ++ e.render) :: renderFields r
termination_by structural l => l

end

instance : ToString Expr := ⟨render⟩

end Expr

end Arbiter
