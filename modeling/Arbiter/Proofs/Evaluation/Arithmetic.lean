/-
# Integer arithmetic

Arithmetic on integers is exact or fails, and it fails as soon as something does not fit: the operands
of an operator are evaluated before it, the left one first.  So the parts of an arithmetic expression
stand in an order (`Arithmetic.parts`), and only the first of them whose exact value is out of range
counts.  What comes later is not looked at, even if it would bring the value back into the range.

The result is therefore told by the exact values of the parts (`Arithmetic.Answers`).  One lemma says
what a node does when its operands fit (`Answers.node`), and the induction puts the operands of each
operator one behind the other (`answers_eval`).
-/
import Arbiter.Proofs.Evaluation

namespace Arbiter

open Outcome

/-! ## 1. The range -/

namespace Long

/-- The integer fits a signed word of 64 bits. -/
def InRange (z : Int) : Prop := Int64.minValue.toInt ≤ z ∧ z ≤ Int64.maxValue.toInt

instance (z : Int) : Decidable (InRange z) := inferInstanceAs (Decidable (_ ∧ _))

theorem inRange_toInt (n : Int64) : InRange n.toInt := exists_toInt_eq_iff.mp ⟨n, rfl⟩

theorem exists_ofInt?_of_inRange {z : Int} (h : InRange z) :
    ∃ n, ofInt? z = some n ∧ n.toInt = z := by
  obtain ⟨n, hn⟩ := exists_toInt_eq_iff.mpr h
  exact ⟨n, ofInt?_eq_some_iff.mpr hn, hn⟩

theorem ofInt?_of_not_inRange {z : Int} (h : ¬ InRange z) : ofInt? z = none := by
  cases hn : ofInt? z with
  | none => rfl
  | some n =>
    rw [← ofInt?_eq_some_iff.mp hn] at h
    exact absurd (inRange_toInt n) h

end Long

/-! ## 2. Arithmetic expressions -/

/-- The operators on two integers that have an integer as their value. -/
inductive ArithmeticOp where
  | add
  | sub
  | mul

namespace ArithmeticOp

/-- The operator of expressions. -/
def toBinaryOp : ArithmeticOp → BinaryOp
  | .add => .add
  | .sub => .sub
  | .mul => .mul

/-- The exact value. -/
def apply : ArithmeticOp → Int → Int → Int
  | .add, x, y => x + y
  | .sub, x, y => x - y
  | .mul, x, y => x * y

end ArithmeticOp

/-- What is made of integers by arithmetic operators. -/
inductive Arithmetic where
  | literal (n : Int64)
  | neg (a : Arithmetic)
  | binary (op : ArithmeticOp) (l r : Arithmetic)

namespace Arithmetic

/-- The expression. -/
def toExpr : Arithmetic → Expr
  | .literal n => .value (.long n)
  | .neg a => .neg a.toExpr
  | .binary op l r => .binary op.toBinaryOp l.toExpr r.toExpr

/-- The exact value, of any size. -/
def value : Arithmetic → Int
  | .literal n => n.toInt
  | .neg a => -a.value
  | .binary op l r => op.apply l.value r.value

/-- The operator of a node as it is written. -/
def operator? : Arithmetic → Option String
  | .literal _ => none
  | .neg _ => some "-"
  | .binary op _ _ => some op.toBinaryOp.name

/-- The parts in the order in which they are evaluated: operands in front of their operator, the left
one first. -/
def parts : Arithmetic → List Arithmetic
  | .literal n => [.literal n]
  | .neg a => a.parts ++ [.neg a]
  | .binary op l r => l.parts ++ r.parts ++ [.binary op l r]

/-- The exact value of every part is in the range. -/
def Fits (a : Arithmetic) : Prop := ∀ p ∈ a.parts, Long.InRange p.value

/-- The first part of which the exact value is out of range. -/
def firstOut (parts : List Arithmetic) : Option Arithmetic :=
  parts.find? fun p => !decide (Long.InRange p.value)

/-- What is answered after the given parts have been evaluated, the last of which has the value. -/
inductive Answers (parts : List Arithmetic) (z : Int) : Except EvalError Value → Prop
  | exact {n : Int64} (hfits : firstOut parts = none) (hn : n.toInt = z) :
      Answers parts z (.ok (.long n))
  | overflow {p : Arithmetic} {op : String} (hp : firstOut parts = some p)
      (hop : p.operator? = some op) : Answers parts z (.error (.integerOverflow op))

variable {request : Request} {store : EntityStore} {front behind : List Arithmetic}
  {a b l r p : Arithmetic} {op : ArithmeticOp} {m n : Int64} {cause : EvalError}

theorem fits_iff : a.Fits ↔ firstOut a.parts = none := by
  simp [Fits, firstOut]

theorem firstOut_append_of_fits (h : firstOut front = none) :
    firstOut (front ++ behind) = firstOut behind := by
  unfold firstOut at h ⊢
  rw [List.find?_append, h, Option.none_or]

theorem firstOut_append_of_some (h : firstOut front = some p) :
    firstOut (front ++ behind) = some p := by
  unfold firstOut at h ⊢
  rw [List.find?_append, h, Option.some_or]

/-! ## 3. Evaluation -/

/-- A node whose operands fit: its own value decides. -/
theorem Answers.node {op : String} (hfront : firstOut front = none) (hop : a.operator? = some op) :
    Answers (front ++ [a]) a.value (Evaluation.exact op (Long.ofInt? a.value)) := by
  have hparts : firstOut (front ++ [a]) = firstOut [a] := firstOut_append_of_fits hfront
  by_cases ha : Long.InRange a.value
  · obtain ⟨n, hn, hvalue⟩ := Long.exists_ofInt?_of_inRange ha
    rw [hn]
    refine .exact (hparts.trans ?_) hvalue
    simp [firstOut, ha]
  · rw [Long.ofInt?_of_not_inRange ha]
    refine .overflow (hparts.trans ?_) hop
    simp [firstOut, ha]

theorem eval_neg (h : a.toExpr.eval request store = .ok (.long n)) :
    (neg a).toExpr.eval request store = Evaluation.exact "-" (Long.ofInt? (-n.toInt)) := by
  simp only [toExpr, Expr.eval, h, ok_bind]
  rfl

theorem eval_neg_of_error (h : a.toExpr.eval request store = .error cause) :
    (neg a).toExpr.eval request store = .error cause := by
  simp only [toExpr, Expr.eval, h, error_bind]

theorem eval_binary (hl : l.toExpr.eval request store = .ok (.long m))
    (hr : r.toExpr.eval request store = .ok (.long n)) :
    (binary op l r).toExpr.eval request store
      = Evaluation.exact op.toBinaryOp.name (Long.ofInt? (op.apply m.toInt n.toInt)) := by
  simp only [toExpr, Expr.eval, Evaluation.binary, hl, hr, ok_bind]
  cases op <;> rfl

theorem eval_binary_of_error_left (h : l.toExpr.eval request store = .error cause) :
    (binary op l r).toExpr.eval request store = .error cause := by
  simp only [toExpr, Expr.eval, Evaluation.binary, h, error_bind]

theorem eval_binary_of_error_right (hl : l.toExpr.eval request store = .ok (.long m))
    (hr : r.toExpr.eval request store = .error cause) :
    (binary op l r).toExpr.eval request store = .error cause := by
  simp only [toExpr, Expr.eval, Evaluation.binary, hl, hr, ok_bind]
  cases op <;> rfl

/-- **The exact values of the parts tell the result.** -/
theorem answers_eval (request : Request) (store : EntityStore) :
    ∀ a : Arithmetic, Answers a.parts a.value (a.toExpr.eval request store)
  | .literal n => by
    have hfits : firstOut [literal n] = none := by
      simp [firstOut, value, Long.inRange_toInt n]
    exact .exact hfits rfl
  | .neg a => by
    have ha := answers_eval request store a
    cases heval : a.toExpr.eval request store with
    | error cause =>
      rw [heval] at ha
      cases ha with
      | overflow hp hop =>
        rw [eval_neg_of_error heval]
        exact .overflow (firstOut_append_of_some hp) hop
    | ok v =>
      rw [heval] at ha
      cases ha with
      | exact hfits hn =>
        rw [eval_neg heval, hn]
        exact .node (a := neg a) hfits rfl
  | .binary op l r => by
    have hl := answers_eval request store l
    have hr := answers_eval request store r
    cases hleft : l.toExpr.eval request store with
    | error cause =>
      rw [hleft] at hl
      cases hl with
      | overflow hp hop =>
        rw [eval_binary_of_error_left hleft]
        exact .overflow (firstOut_append_of_some (firstOut_append_of_some hp)) hop
    | ok v =>
      rw [hleft] at hl
      cases hl with
      | exact hlfits hm =>
        cases hright : r.toExpr.eval request store with
        | error cause =>
          rw [hright] at hr
          cases hr with
          | overflow hp hop =>
            rw [eval_binary_of_error_right hleft hright]
            have hfirst := (firstOut_append_of_fits hlfits).trans hp
            exact .overflow (firstOut_append_of_some hfirst) hop
        | ok w =>
          rw [hright] at hr
          cases hr with
          | exact hrfits hn =>
            have hfits := (firstOut_append_of_fits hlfits).trans hrfits
            rw [eval_binary hleft hright, hm, hn]
            exact .node (a := binary op l r) hfits rfl

namespace Answers

variable {result : Except EvalError Value}

theorem exists_of_fits (h : Answers a.parts a.value result) (hfits : a.Fits) :
    ∃ n, n.toInt = a.value ∧ result = .ok (.long n) := by
  cases h with
  | exact _ hn => exact ⟨_, hn, rfl⟩
  | overflow hp _ =>
    rw [fits_iff.mp hfits] at hp
    cases hp

theorem exists_of_not_fits (h : Answers a.parts a.value result) (hfits : ¬ a.Fits) :
    ∃ p op, firstOut a.parts = some p ∧ p.operator? = some op ∧
      result = .error (.integerOverflow op) := by
  cases h with
  | exact hnone _ => exact absurd (fits_iff.mpr hnone) hfits
  | overflow hp hop => exact ⟨_, _, hp, hop, rfl⟩

theorem eq_ok_iff (h : Answers a.parts a.value result) :
    result = .ok (.long n) ↔ a.Fits ∧ n.toInt = a.value := by
  by_cases hfits : a.Fits
  · obtain ⟨m, hm, rfl⟩ := h.exists_of_fits hfits
    rw [and_iff_right hfits, ← hm, Int64.toInt_inj, Except.ok.injEq, Value.long.injEq, eq_comm]
  · obtain ⟨p, op, -, -, rfl⟩ := h.exists_of_not_fits hfits
    exact iff_of_false nofun fun ⟨h, _⟩ => hfits h

end Answers

/-! ## 4. Comparisons -/

/-- What a comparison operator says of two integers. -/
def comparison? : BinaryOp → Option (Int → Int → Bool)
  | .eq => some fun x y => x = y
  | .notEq => some fun x y => x ≠ y
  | .less => some fun x y => x < y
  | .lessEq => some fun x y => x ≤ y
  | .greater => some fun x y => x > y
  | .greaterEq => some fun x y => x ≥ y
  | _ => none

theorem eval_comparison {op : BinaryOp} {holds : Int → Int → Bool} {l r : Expr}
    (hop : comparison? op = some holds) (hl : l.eval request store = .ok (.long m))
    (hr : r.eval request store = .ok (.long n)) :
    (Expr.binary op l r).eval request store = .ok (.bool (holds m.toInt n.toInt)) := by
  have answer {b c : Bool} (h : b = c) : (.ok (.bool b) : Except EvalError Value) = .ok (.bool c) :=
    congrArg _ (congrArg _ h)
  have heq : decide (Value.long m = .long n) = decide (m.toInt = n.toInt) := by
    rw [decide_eq_decide, Value.long.injEq, Int64.toInt_inj]
  have hlt (a b : Int64) : decide (a < b) = decide (a.toInt < b.toInt) :=
    decide_eq_decide.mpr Int64.lt_iff_toInt_lt
  have hle (a b : Int64) : decide (a ≤ b) = decide (a.toInt ≤ b.toInt) :=
    decide_eq_decide.mpr Int64.le_iff_toInt_le
  simp only [Expr.eval, Evaluation.binary, hl, hr, ok_bind]
  cases op with
  | eq =>
    cases hop
    exact answer heq
  | notEq =>
    cases hop
    exact answer ((congrArg (!·) heq).trans decide_not.symm)
  | less =>
    cases hop
    exact answer (hlt m n)
  | lessEq =>
    cases hop
    exact answer (hle m n)
  | greater =>
    cases hop
    exact answer (hlt n m)
  | greaterEq =>
    cases hop
    exact answer (hle n m)
  | _ => cases hop

/-- **Arithmetic is exact or fails at the first overflow.**  An expression evaluates to the integer
that it stands for if all its parts stand for integers in the range.  Otherwise it fails, and names
the operator of the first part that does not.  Comparisons compare the exact values. -/
theorem exact_or_overflow (request : Request) (store : EntityStore) (a : Arithmetic) :
    (∀ n, a.toExpr.eval request store = .ok (.long n) ↔ a.Fits ∧ n.toInt = a.value) ∧
    (a.Fits → ∃ n, a.toExpr.eval request store = .ok (.long n)) ∧
    (¬ a.Fits → ∃ p op, firstOut a.parts = some p ∧ p.operator? = some op ∧
      a.toExpr.eval request store = .error (.integerOverflow op)) ∧
    ∀ (b : Arithmetic) (op : BinaryOp) (holds : Int → Int → Bool), comparison? op = some holds →
      a.Fits → b.Fits → (Expr.binary op a.toExpr b.toExpr).eval request store
        = .ok (.bool (holds a.value b.value)) := by
  have h (b : Arithmetic) := answers_eval request store b
  refine ⟨fun n => (h a).eq_ok_iff, ?_, (h a).exists_of_not_fits, ?_⟩
  · intro hfits
    obtain ⟨n, -, heval⟩ := (h a).exists_of_fits hfits
    exact ⟨n, heval⟩
  · intro b op holds hop ha hb
    obtain ⟨m, hm, hma⟩ := (h a).exists_of_fits ha
    obtain ⟨n, hn, hnb⟩ := (h b).exists_of_fits hb
    rw [eval_comparison hop hma hnb, hm, hn]

end Arithmetic

/-! The greatest integer is reached by a detour that leaves the range, and the least one is not
negated.  Both overflows are found although what comes later would undo them. -/

namespace Brink

open Arithmetic

def greatest : Arithmetic := .literal 9223372036854775807

def one : Arithmetic := .literal 1

/-- `(greatest + 1) - 1`. -/
def detour : Arithmetic := .binary .sub (.binary .add greatest one) one

/-- `-greatest - 1`. -/
def least : Arithmetic := .binary .sub (.neg greatest) one

/-- `-least * (greatest * greatest)`. -/
def product : Arithmetic := .binary .mul (.neg least) (.binary .mul greatest greatest)

def ann : EntityUid := ⟨⟨"User"⟩, "ann"⟩

def request : Request :=
  { principal := ann, action := ⟨⟨"Action"⟩, "count"⟩, resource := ann }

def store : EntityStore := ⟨[{ uid := ann }], false, by decide⟩

theorem fits_least : least.Fits := by unfold Fits; decide

theorem fits_greatest : greatest.Fits := by unfold Fits; decide

theorem not_fits_detour : ¬ detour.Fits := by unfold Fits; decide

theorem not_fits_product : ¬ product.Fits := by unfold Fits; decide

theorem exact_or_overflow_detour :
    (detour.value = greatest.value ∧ ¬ detour.Fits ∧
      detour.toExpr.eval request store = .error (.integerOverflow "+")) ∧
    (¬ product.Fits ∧ product.toExpr.eval request store = .error (.integerOverflow "-")) ∧
    (least.Fits ∧ greatest.Fits ∧
      (Expr.binary .less least.toExpr greatest.toExpr).eval request store = .ok (.bool true)) := by
  obtain ⟨-, -, hdetour, -⟩ := exact_or_overflow request store detour
  obtain ⟨-, -, hproduct, -⟩ := exact_or_overflow request store product
  obtain ⟨-, -, -, hless⟩ := exact_or_overflow request store least
  refine ⟨⟨rfl, not_fits_detour, ?_⟩, ⟨not_fits_product, ?_⟩, fits_least, fits_greatest, ?_⟩
  · obtain ⟨p, op, hp, hop, heval⟩ := hdetour not_fits_detour
    have hfirst : firstOut detour.parts = some (.binary .add greatest one) := rfl
    cases hfirst.symm.trans hp
    cases hop
    exact heval
  · obtain ⟨p, op, hp, hop, heval⟩ := hproduct not_fits_product
    have hfirst : firstOut product.parts = some (.neg least) := rfl
    cases hfirst.symm.trans hp
    cases hop
    exact heval
  · exact hless greatest .less _ rfl fits_least fits_greatest

end Brink

end Arbiter
