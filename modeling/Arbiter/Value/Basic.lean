/-
# Values

What an attribute, a context or an expression can hold.  A set is the list of its elements in
strictly ascending order and a record the list of its attributes in the order of their names
(`Value.Canonical`), so equal sets and records are equal values.

Main statements: the order on values is a total order that takes two values for equal only when
they are the same (`Value.cmp_swap`, `Value.lt_trans`, `Value.eq_of_cmp`).
-/
import Arbiter.Entity.Uid
import Arbiter.Extension.Function
import Arbiter.Order
import Arbiter.SortedList
import Arbiter.Text.Quoted

namespace Arbiter

/-- A value. -/
inductive Value where
  | bool (b : Bool)
  | long (n : Int64)
  | string (s : String)
  | entity (uid : EntityUid)
  | set (elems : List Value)
  | record (attrs : List (String × Value))
  | ext (v : ExtensionValue)

namespace Value

instance : Inhabited Value := ⟨.bool false⟩

/-! ## 1. The order -/

/-- The place of the sort of a value among the sorts. -/
def rank : Value → Nat
  | .bool _ => 0
  | .long _ => 1
  | .string _ => 2
  | .entity _ => 3
  | .set _ => 4
  | .record _ => 5
  | .ext _ => 6

mutual

/-- The order of values: by sort, then within the sort, lists element by element. -/
def cmp : Value → Value → Ordering
  | .bool a, .bool b => compare a b
  | .long a, .long b => compare a b
  | .string a, .string b => compare a b
  | .entity a, .entity b => compare a b
  | .set a, .set b => cmpList a b
  | .record a, .record b => cmpFields a b
  | .ext a, .ext b => compare a b
  | a, b => compare a.rank b.rank
termination_by structural v => v

/-- The order of lists of values. -/
def cmpList : List Value → List Value → Ordering
  | [], [] => .eq
  | [], _ :: _ => .lt
  | _ :: _, [] => .gt
  | a :: as, b :: bs => (cmp a b).then (cmpList as bs)
termination_by structural l => l

/-- The order of lists of named values. -/
def cmpFields : List (String × Value) → List (String × Value) → Ordering
  | [], [] => .eq
  | [], _ :: _ => .lt
  | _ :: _, [] => .gt
  | (k, a) :: as, (j, b) :: bs => (compare k j).then ((cmp a b).then (cmpFields as bs))
termination_by structural l => l

end

instance : Ord Value := ⟨cmp⟩

mutual

theorem cmp_self : ∀ a : Value, cmp a a = .eq
  | .bool a => Order.self a
  | .long a => Order.self a
  | .string a => Order.self a
  | .entity a => Order.self a
  | .set a => cmpList_self a
  | .record a => cmpFields_self a
  | .ext a => Order.self a

theorem cmpList_self : ∀ a : List Value, cmpList a a = .eq
  | [] => rfl
  | a :: as => by simp [cmpList, cmp_self a, cmpList_self as]

theorem cmpFields_self : ∀ a : List (String × Value), cmpFields a a = .eq
  | [] => rfl
  | (k, a) :: as => by simp [cmpFields, cmp_self a, cmpFields_self as]

end

mutual

theorem eq_of_cmp : ∀ {a b : Value}, cmp a b = .eq → a = b
  | .bool a, b, h => by
    cases b with
    | bool b => exact congrArg _ (Order.eq_of_eq a b h)
    | _ => cases h
  | .long a, b, h => by
    cases b with
    | long b => exact congrArg _ (Order.eq_of_eq a b h)
    | _ => cases h
  | .string a, b, h => by
    cases b with
    | string b => exact congrArg _ (Order.eq_of_eq a b h)
    | _ => cases h
  | .entity a, b, h => by
    cases b with
    | entity b => exact congrArg _ (Order.eq_of_eq a b h)
    | _ => cases h
  | .set _, b, h => by
    cases b with
    | set => exact congrArg _ (eq_of_cmpList h)
    | _ => cases h
  | .record _, b, h => by
    cases b with
    | record => exact congrArg _ (eq_of_cmpFields h)
    | _ => cases h
  | .ext a, b, h => by
    cases b with
    | ext b => exact congrArg _ (Order.eq_of_eq a b h)
    | _ => cases h

theorem eq_of_cmpList : ∀ {a b : List Value}, cmpList a b = .eq → a = b
  | [], [], _ => rfl
  | _ :: _, _ :: _, h => by
    obtain ⟨h₁, h₂⟩ := Ordering.then_eq_eq.1 h
    rw [eq_of_cmp h₁, eq_of_cmpList h₂]

theorem eq_of_cmpFields : ∀ {a b : List (String × Value)}, cmpFields a b = .eq → a = b
  | [], [], _ => rfl
  | (_, _) :: _, (_, _) :: _, h => by
    obtain ⟨h₁, h⟩ := Ordering.then_eq_eq.1 h
    obtain ⟨h₂, h₃⟩ := Ordering.then_eq_eq.1 h
    rw [Std.LawfulEqCmp.eq_of_compare h₁, eq_of_cmp h₂, eq_of_cmpFields h₃]

end

theorem cmp_eq_iff {a b : Value} : cmp a b = .eq ↔ a = b :=
  ⟨eq_of_cmp, fun h => h ▸ cmp_self a⟩

instance : DecidableEq Value := fun _ _ => decidable_of_iff _ cmp_eq_iff

mutual

theorem cmp_swap : ∀ a b : Value, cmp a b = (cmp b a).swap
  | .bool a, b => by
    cases b with
    | bool b => exact Order.swap a b
    | _ => rfl
  | .long a, b => by
    cases b with
    | long b => exact Order.swap a b
    | _ => rfl
  | .string a, b => by
    cases b with
    | string b => exact Order.swap a b
    | _ => rfl
  | .entity a, b => by
    cases b with
    | entity b => exact Order.swap a b
    | _ => rfl
  | .set a, b => by
    cases b with
    | set b => exact cmpList_swap a b
    | _ => rfl
  | .record a, b => by
    cases b with
    | record b => exact cmpFields_swap a b
    | _ => rfl
  | .ext a, b => by
    cases b with
    | ext b => exact Order.swap a b
    | _ => rfl

theorem cmpList_swap : ∀ a b : List Value, cmpList a b = (cmpList b a).swap
  | [], [] | [], _ :: _ | _ :: _, [] => rfl
  | a :: as, b :: bs => by
    simp only [cmpList, cmp_swap a b, cmpList_swap as bs, Ordering.swap_then]

theorem cmpFields_swap : ∀ a b : List (String × Value), cmpFields a b = (cmpFields b a).swap
  | [], [] | [], _ :: _ | _ :: _, [] => rfl
  | (k, a) :: as, (j, b) :: bs => by
    have hk : compare k j = (compare j k).swap := Std.OrientedCmp.eq_swap
    simp only [cmpFields, hk, cmp_swap a b, cmpFields_swap as bs, Ordering.swap_then]

end

/-- Values of different sorts are ordered by their sorts. -/
theorem cmp_eq_or_rank_eq (a b : Value) : cmp a b = compare a.rank b.rank ∨ a.rank = b.rank := by
  cases a <;> cases b <;> first | exact .inr rfl | exact .inl rfl

theorem cmp_of_rank_lt {a b : Value} (h : a.rank < b.rank) : cmp a b = .lt := by
  rcases cmp_eq_or_rank_eq a b with h' | h'
  · rw [h', Nat.compare_eq_lt]
    exact h
  · omega

theorem rank_le_of_cmp {a b : Value} (h : cmp a b = .lt) : a.rank ≤ b.rank := by
  rcases cmp_eq_or_rank_eq a b with h' | h'
  · rw [h', Nat.compare_eq_lt] at h
    omega
  · omega

mutual

theorem lt_trans : ∀ {a b c : Value}, cmp a b = .lt → cmp b c = .lt → cmp a c = .lt
  | .bool a, b, c, hab, hbc => by
    by_cases hr : (bool a).rank < c.rank
    · exact cmp_of_rank_lt hr
    · have h₁ := rank_le_of_cmp hab
      have h₂ := rank_le_of_cmp hbc
      cases b <;> cases c <;> simp [rank] at h₁ h₂ hr
      exact Order.lt_trans _ _ _ hab hbc
  | .long a, b, c, hab, hbc => by
    by_cases hr : (long a).rank < c.rank
    · exact cmp_of_rank_lt hr
    · have h₁ := rank_le_of_cmp hab
      have h₂ := rank_le_of_cmp hbc
      cases b <;> cases c <;> simp [rank] at h₁ h₂ hr
      exact Order.lt_trans _ _ _ hab hbc
  | .string a, b, c, hab, hbc => by
    by_cases hr : (string a).rank < c.rank
    · exact cmp_of_rank_lt hr
    · have h₁ := rank_le_of_cmp hab
      have h₂ := rank_le_of_cmp hbc
      cases b <;> cases c <;> simp [rank] at h₁ h₂ hr
      exact Order.lt_trans _ _ _ hab hbc
  | .entity a, b, c, hab, hbc => by
    by_cases hr : (entity a).rank < c.rank
    · exact cmp_of_rank_lt hr
    · have h₁ := rank_le_of_cmp hab
      have h₂ := rank_le_of_cmp hbc
      cases b <;> cases c <;> simp [rank] at h₁ h₂ hr
      exact Order.lt_trans _ _ _ hab hbc
  | .set a, b, c, hab, hbc => by
    by_cases hr : (set a).rank < c.rank
    · exact cmp_of_rank_lt hr
    · have h₁ := rank_le_of_cmp hab
      have h₂ := rank_le_of_cmp hbc
      cases b <;> cases c <;> simp [rank] at h₁ h₂ hr
      exact lt_trans_list (a := a) hab hbc
  | .record a, b, c, hab, hbc => by
    by_cases hr : (record a).rank < c.rank
    · exact cmp_of_rank_lt hr
    · have h₁ := rank_le_of_cmp hab
      have h₂ := rank_le_of_cmp hbc
      cases b <;> cases c <;> simp [rank] at h₁ h₂ hr
      exact lt_trans_fields (a := a) hab hbc
  | .ext a, b, c, hab, hbc => by
    have h₁ := rank_le_of_cmp hab
    have h₂ := rank_le_of_cmp hbc
    cases b <;> cases c <;> simp [rank] at h₁ h₂
    exact Order.lt_trans _ _ _ hab hbc

theorem lt_trans_list : ∀ {a b c : List Value},
    cmpList a b = .lt → cmpList b c = .lt → cmpList a c = .lt
  | [], _ :: _, _ :: _, _, _ => rfl
  | a :: as, b :: bs, c :: cs, hab, hbc => by
    rcases Order.then_eq_lt_iff.1 hab with h₁ | ⟨h₁, h₁'⟩ <;>
      rcases Order.then_eq_lt_iff.1 hbc with h₂ | ⟨h₂, h₂'⟩
    · exact Order.then_eq_lt_iff.2 (.inl (lt_trans h₁ h₂))
    · cases eq_of_cmp h₂
      exact Order.then_eq_lt_iff.2 (.inl h₁)
    · cases eq_of_cmp h₁
      exact Order.then_eq_lt_iff.2 (.inl h₂)
    · cases eq_of_cmp h₁
      exact Order.then_eq_lt_iff.2 (.inr ⟨h₂, lt_trans_list h₁' h₂'⟩)

theorem lt_trans_fields : ∀ {a b c : List (String × Value)},
    cmpFields a b = .lt → cmpFields b c = .lt → cmpFields a c = .lt
  | [], _ :: _, _ :: _, _, _ => rfl
  | (k, a) :: as, (j, b) :: bs, (i, c) :: cs, hab, hbc => by
    rcases Order.then_eq_lt_iff.1 hab with hk | ⟨hk, hab'⟩ <;>
      rcases Order.then_eq_lt_iff.1 hbc with hj | ⟨hj, hbc'⟩
    · exact Order.then_eq_lt_iff.2 (.inl (Order.lt_trans k j i hk hj))
    · cases Order.eq_of_eq j i hj
      exact Order.then_eq_lt_iff.2 (.inl hk)
    · cases Order.eq_of_eq k j hk
      exact Order.then_eq_lt_iff.2 (.inl hj)
    · cases Order.eq_of_eq k j hk
      refine Order.then_eq_lt_iff.2 (.inr ⟨hj, ?_⟩)
      rcases Order.then_eq_lt_iff.1 hab' with h₁ | ⟨h₁, h₁'⟩ <;>
        rcases Order.then_eq_lt_iff.1 hbc' with h₂ | ⟨h₂, h₂'⟩
      · exact Order.then_eq_lt_iff.2 (.inl (lt_trans h₁ h₂))
      · cases eq_of_cmp h₂
        exact Order.then_eq_lt_iff.2 (.inl h₁)
      · cases eq_of_cmp h₁
        exact Order.then_eq_lt_iff.2 (.inl h₂)
      · cases eq_of_cmp h₁
        exact Order.then_eq_lt_iff.2 (.inr ⟨h₂, lt_trans_fields h₁' h₂'⟩)

end

instance : Std.LawfulEqOrd Value where
  compare_self {a} := cmp_self a
  eq_of_compare h := eq_of_cmp h

instance : Std.TransOrd Value where
  eq_swap {a b} := cmp_swap a b
  isLE_trans {a b c} hab hbc := by
    have hab : (cmp a b).isLE := hab
    have hbc : (cmp b c).isLE := hbc
    show (cmp a c).isLE
    cases h₁ : cmp a b with
    | eq => exact eq_of_cmp h₁ ▸ hbc
    | gt => simp [h₁] at hab
    | lt =>
      cases h₂ : cmp b c with
      | eq => exact eq_of_cmp h₂ ▸ hab
      | gt => simp [h₂] at hbc
      | lt => simp [lt_trans h₁ h₂]

/-! ## 2. Canonical values -/

mutual

/-- Whether sets ascend strictly and records ascend by name, at every depth. -/
def Canonical : Value → Prop
  | .set elems => SortedList.Strict elems ∧ CanonicalList elems
  | .record attrs => SortedList.Ascending attrs ∧ CanonicalFields attrs
  | _ => True
termination_by structural v => v

/-- `Canonical` for the elements of a set. -/
def CanonicalList : List Value → Prop
  | [] => True
  | v :: r => v.Canonical ∧ CanonicalList r
termination_by structural l => l

/-- `Canonical` for the attributes of a record. -/
def CanonicalFields : List (String × Value) → Prop
  | [] => True
  | (_, v) :: r => v.Canonical ∧ CanonicalFields r
termination_by structural l => l

end

/-- The set of the given values. -/
def setOf (values : List Value) : Value := .set (SortedList.ofElems values)

/-- The record of the given attributes: of two with one name the later one stays. -/
def recordOf (attrs : List (String × Value)) : Value := .record (SortedList.ofPairs attrs)

/-- The truth value of a boolean. -/
def bool? : Value → Option Bool
  | .bool b => some b
  | _ => none

/-! ## 3. Text -/

/-- The sort of a value as errors name it. -/
def typeName : Value → String
  | .bool _ => "bool"
  | .long _ => "long"
  | .string _ => "string"
  | .entity uid => s!"entity of type `{uid.type}`"
  | .set _ => "set"
  | .record _ => "record"
  | .ext v => v.kind.name

mutual

/-- A value as text. -/
def render : Value → String
  | .bool b => if b then "true" else "false"
  | .long n => toString n.toInt
  | .string s => Text.quote s
  | .entity uid => uid.render
  | .set elems => "[" ++ ", ".intercalate (renderList elems) ++ "]"
  | .record attrs => "\x7b" ++ ", ".intercalate (renderFields attrs) ++ "\x7d"
  | .ext v => v.render
termination_by structural v => v

/-- The texts of the elements of a set. -/
def renderList : List Value → List String
  | [] => []
  | v :: r => v.render :: renderList r
termination_by structural l => l

/-- The texts of the attributes of a record. -/
def renderFields : List (String × Value) → List String
  | [] => []
  | (k, v) :: r => (Text.quote k ++ ": " ++ v.render) :: renderFields r
termination_by structural l => l

end

instance : ToString Value := ⟨render⟩

end Value

end Arbiter
