/-
# Sets as values

A set is the list of its elements in the order of values, without repetition, so it is determined by
what it holds.  Whatever gives each part of a list a value and makes a set of the values therefore
forgets in which order the parts stand and how often (`Value.MakesSets`); set literals and arrays of
documents are made so.

The operators on sets ask only what a set holds.  Each of them tells one thing about the elements
(`Evaluation.Tells`), and what they have to do with each other follows from that
(`Evaluation.sets_extensional`).
-/
import Arbiter.Proofs.Evaluation
import Arbiter.SortedSet
import Arbiter.Value.Json

namespace Arbiter

open Outcome

/-! ## 1. Sets that are made of lists -/

namespace Value

variable {ε α : Type} {value : α → Except ε Value} {make : List α → Except ε Value} {l l' : List α}

/-- What is made of a list of parts with values is the set of the values, and lists with the same
parts make the same set. -/
structure MakesSets (value : α → Except ε Value) (make : List α → Except ε Value) : Prop where
  /-- The set holds the values of the parts. -/
  holds : ∀ l, (∀ a ∈ l, ∃ v, value a = .ok v) → ∃ s : SortedSet Value,
    make l = .ok (.set s.toList) ∧ ∀ v, v ∈ s ↔ ∃ a ∈ l, value a = .ok v
  /-- Neither the order of the parts nor how often they stand there counts. -/
  same : ∀ l l', (∀ a ∈ l, ∃ v, value a = .ok v) → (∀ a, a ∈ l' ↔ a ∈ l) →
    ∃ v, make l = .ok v ∧ make l' = .ok v

/-- The values that a step gives for the elements of a list. -/
theorem exists_mapM : ∀ {l : List α}, (∀ a ∈ l, ∃ v, value a = .ok v) → ∃ vs, l.mapM value = .ok vs
  | [], _ => ⟨[], rfl⟩
  | a :: l, h => by
    obtain ⟨⟨v, hv⟩, hl⟩ := List.forall_mem_cons.mp h
    obtain ⟨vs, hvs⟩ := exists_mapM hl
    exact ⟨v :: vs, by rw [List.mapM_cons, hv, hvs]; rfl⟩

theorem MakesSets.of_mapM (hmake : ∀ l, make l = (l.mapM value).map setOf) :
    MakesSets value make := by
  have hholds (l : List α) (hl : ∀ a ∈ l, ∃ v, value a = .ok v) : ∃ s : SortedSet Value,
      make l = .ok (.set s.toList) ∧ ∀ v, v ∈ s ↔ ∃ a ∈ l, value a = .ok v := by
    obtain ⟨vs, hvs⟩ := exists_mapM hl
    refine ⟨SortedSet.ofList vs, by rw [hmake, hvs]; rfl, fun v => SortedSet.mem_ofList.trans ?_⟩
    constructor
    · exact exists_of_mem_mapM hvs v
    · rintro ⟨a, ha, hv⟩
      obtain ⟨w, hw, hv'⟩ := exists_mem_of_mapM hvs ha
      cases hv.symm.trans hv'
      exact hw
  refine ⟨hholds, fun l l' hl hsame => ?_⟩
  obtain ⟨s, hs, hmem⟩ := hholds l hl
  obtain ⟨s', hs', hmem'⟩ := hholds l' fun a ha => hl a ((hsame a).mp ha)
  have heq : s' = s := by
    refine SortedSet.eq_of_mem_iff fun v => ?_
    rw [hmem, hmem']
    exact exists_congr fun a => and_congr_left' (hsame a)
  exact ⟨_, hs, heq ▸ hs'⟩

theorem listOfJson_eq_mapM (items : List Json) : listOfJson items = items.mapM ofJson := by
  induction items with
  | nil => rfl
  | cons j items ih => rw [listOfJson, List.mapM_cons, ih]

/-- The array of documents is the set of their values. -/
theorem makesSets_array : MakesSets ofJson fun items => ofJson (.array items) :=
  .of_mapM fun items => by rw [ofJson, listOfJson_eq_mapM]

end Value

theorem Expr.evalList_eq_mapM (request : Request) (store : EntityStore) (es : List Expr) :
    evalList request store es = es.mapM (eval request store) := by
  induction es with
  | nil => rfl
  | cons e es ih => rw [evalList, List.mapM_cons, ih]

/-- A set literal is the set of the values of its elements. -/
theorem Expr.makesSets_set (request : Request) (store : EntityStore) :
    Value.MakesSets (eval request store) fun es => (Expr.set es).eval request store :=
  .of_mapM fun es => by
    rw [eval, evalList_eq_mapM]
    rfl

/-! ## 2. Operators on sets -/

namespace Evaluation

variable {request : Request} {store : EntityStore} {A B : SortedSet Value} {l r e : Expr}
  {x : Value}

/-- The expression is true. -/
def Holds (request : Request) (store : EntityStore) (e : Expr) : Prop :=
  e.eval request store = .ok (.bool true)

/-- The expression tells whether something is the case. -/
def Tells (request : Request) (store : EntityStore) (e : Expr) (P : Prop) : Prop :=
  ∃ b, e.eval request store = .ok (.bool b) ∧ (b = true ↔ P)

/-- The expression has a set as its value. -/
def Denotes (request : Request) (store : EntityStore) (e : Expr) (A : SortedSet Value) : Prop :=
  e.eval request store = .ok (.set A.toList)

theorem Denotes.eval_eq (h : Denotes request store l A) :
    l.eval request store = .ok (.set A.toList) := h

namespace Tells

variable {P Q : Prop}

theorem holds_iff (h : Tells request store e P) : Holds request store e ↔ P := by
  obtain ⟨b, heval, hb⟩ := h
  rw [Holds, heval, ← hb, Except.ok.injEq, Value.bool.injEq]

theorem eq_false_iff (h : Tells request store e P) :
    e.eval request store = .ok (.bool false) ↔ ¬ P := by
  obtain ⟨b, heval, hb⟩ := h
  rw [heval, ← hb, Except.ok.injEq, Value.bool.injEq, Bool.not_eq_true]

theorem congr (h : Tells request store e P) (hPQ : P ↔ Q) : Tells request store e Q := by
  obtain ⟨b, heval, hb⟩ := h
  exact ⟨b, heval, hb.trans hPQ⟩

end Tells

theorem tells_contains (hl : Denotes request store l A) (he : e.eval request store = .ok x) :
    Tells request store (.binary .contains l e) (x ∈ A) := by
  refine ⟨SortedList.has x A.toList, ?_, SortedList.has_iff⟩
  simp only [Expr.eval, binary, hl.eval_eq, he, Value.asSet, ok_bind, pure_eq_ok]

theorem tells_eq (hl : Denotes request store l A) (hr : Denotes request store r B) :
    Tells request store (.binary .eq l r) (A = B) := by
  refine ⟨Value.set A.toList == Value.set B.toList, ?_, ?_⟩
  · simp only [Expr.eval, binary, hl.eval_eq, hr.eval_eq, ok_bind, pure_eq_ok]
  · rw [beq_iff_eq, Value.set.injEq]
    exact ⟨SortedSet.ext, congrArg _⟩

theorem tells_containsAll (hl : Denotes request store l A) (hr : Denotes request store r B) :
    Tells request store (.binary .containsAll l r) (∀ x ∈ B, x ∈ A) := by
  refine ⟨containsAll A.toList B.toList, ?_, ?_⟩
  · simp only [Expr.eval, binary, hl.eval_eq, hr.eval_eq, Value.asSet, ok_bind, pure_eq_ok]
  · simp only [containsAll, List.all_eq_true, SortedList.has_iff]
    rfl

theorem tells_containsAny (hl : Denotes request store l A) (hr : Denotes request store r B) :
    Tells request store (.binary .containsAny l r) (∃ x ∈ B, x ∈ A) := by
  refine ⟨containsAny A.toList B.toList, ?_, ?_⟩
  · simp only [Expr.eval, binary, hl.eval_eq, hr.eval_eq, Value.asSet, ok_bind, pure_eq_ok]
  · simp only [containsAny, List.any_eq_true, SortedList.has_iff]
    rfl

theorem tells_isEmpty (hl : Denotes request store l A) :
    Tells request store (.isEmpty l) (∀ x, x ∉ A) := by
  refine ⟨A.toList.isEmpty, ?_, ?_⟩
  · simp only [Expr.eval, hl.eval_eq, Value.asSet, ok_bind, pure_eq_ok]
  · rw [List.isEmpty_iff, List.eq_nil_iff_forall_not_mem]
    rfl

/-- **Sets are extensional.**  The order on values is a total order, for which only the same values
are equal.  So what is made of a list of values that are to be the elements of a set is determined by
which they are, and the operators on sets agree on what a set holds. -/
theorem sets_extensional (request : Request) (store : EntityStore) :
    ((∀ v w : Value, compare v w = .eq ↔ v = w) ∧
      (∀ v w : Value, compare v w = (compare w v).swap) ∧
      (∀ u v w : Value, compare u v = .lt → compare v w = .lt → compare u w = .lt)) ∧
    Value.MakesSets (Expr.eval request store) (fun es => (Expr.set es).eval request store) ∧
    Value.MakesSets Value.ofJson (fun items => Value.ofJson (.array items)) ∧
    ∀ (A B : SortedSet Value) (l r : Expr), Denotes request store l A →
      Denotes request store r B →
        (∀ x e, e.eval request store = .ok x →
          Tells request store (.binary .contains l e) (x ∈ A)) ∧
        Tells request store (.binary .eq l r)
          (Holds request store (.binary .containsAll l r) ∧
            Holds request store (.binary .containsAll r l)) ∧
        Tells request store (.binary .containsAll l r)
          (∀ x ∈ B, Holds request store (.binary .contains l (.value x))) ∧
        Tells request store (.binary .containsAny l r)
          (∃ x ∈ B, Holds request store (.binary .contains l (.value x))) ∧
        Tells request store (.isEmpty l)
          ((Expr.binary .containsAny l l).eval request store = .ok (.bool false)) := by
  refine ⟨⟨fun _ _ => Value.cmp_eq_iff, Value.cmp_swap, fun _ _ _ => Value.lt_trans⟩,
    Expr.makesSets_set request store, Value.makesSets_array, fun A B l r hl hr => ?_⟩
  have hcontains (x : Value) : Holds request store (.binary .contains l (.value x)) ↔ x ∈ A :=
    (tells_contains hl rfl).holds_iff
  refine ⟨fun x e he => tells_contains hl he, (tells_eq hl hr).congr ?_,
    (tells_containsAll hl hr).congr ?_, (tells_containsAny hl hr).congr ?_,
    (tells_isEmpty hl).congr ?_⟩
  · rw [(tells_containsAll hl hr).holds_iff, (tells_containsAll hr hl).holds_iff]
    constructor
    · rintro rfl
      exact ⟨fun _ => id, fun _ => id⟩
    · rintro ⟨hBA, hAB⟩
      exact SortedSet.eq_of_mem_iff fun x => ⟨hAB x, hBA x⟩
  · simp only [hcontains]
  · simp only [hcontains]
  · rw [(tells_containsAny hl hl).eq_false_iff]
    simp only [and_self, not_exists]

end Evaluation

/-! Parts in their order and once more behind their reverse, among them a set and a record of an
extension value; and two sets of which one holds the other's only element, which is a set itself. -/

namespace Bundle

open Evaluation

def ann : EntityUid := ⟨⟨"User"⟩, "ann"⟩

def request : Request :=
  { principal := ann, action := ⟨⟨"Action"⟩, "pack"⟩, resource := ann }

def store : EntityStore := ⟨[{ uid := ann }], false, by decide⟩

def priced : Expr := .record [("price", .value (.ext (.decimal ⟨5000⟩)))]

def parts : List Expr := [.set [.value (.long 2), .value (.long 2)], priced, .value (.long 1)]

def items : List Json := [.array [.int 2, .int 2], .object [("__extn",
  .object [("arg", .string "0.5"), ("fn", .string "decimal")])], .int 1]

def outer : SortedSet Value := .ofList [.long 1, .set [.long 2]]

def inner : SortedSet Value := .ofList [.set [.long 2]]

/-- An operator between the two sets. -/
def between (op : BinaryOp) : Expr :=
  .binary op (.value (.set outer.toList)) (.value (.set inner.toList))

theorem eval_parts : ∀ e ∈ parts, ∃ v, e.eval request store = .ok v := by
  simp only [parts, List.forall_mem_cons]
  exact ⟨⟨_, rfl⟩, ⟨_, rfl⟩, ⟨_, rfl⟩, List.forall_mem_nil _⟩

theorem ofJson_items : ∀ j ∈ items, ∃ v, Value.ofJson j = .ok v := by
  simp only [items, List.forall_mem_cons]
  exact ⟨⟨_, rfl⟩, ⟨_, rfl⟩, ⟨_, rfl⟩, List.forall_mem_nil _⟩

theorem mem_reverse_append {α : Type} (l : List α) (a : α) : a ∈ l.reverse ++ l ↔ a ∈ l := by
  rw [List.mem_append, List.mem_reverse, or_self]

theorem sets_extensional_bundle :
    (∃ v, (Expr.set parts).eval request store = .ok v ∧
      (Expr.set (parts.reverse ++ parts)).eval request store = .ok v) ∧
    (∃ v, Value.ofJson (.array items) = .ok v ∧
      Value.ofJson (.array (items.reverse ++ items)) = .ok v) ∧
    Holds request store (between .containsAll) ∧ Holds request store (between .containsAny) ∧
    ¬ Holds request store (between .eq) := by
  obtain ⟨-, hliteral, hdocument, hoperators⟩ := sets_extensional request store
  obtain ⟨-, heq, hall, hany, -⟩ := hoperators outer inner (.value (.set outer.toList))
    (.value (.set inner.toList)) rfl rfl
  have hinner : .set [.long 2] ∈ inner := SortedSet.mem_ofList.mpr List.mem_cons_self
  refine ⟨hliteral.same parts _ eval_parts (mem_reverse_append parts),
    hdocument.same items _ ofJson_items (mem_reverse_append items), hall.holds_iff.mpr ?_,
    hany.holds_iff.mpr ⟨_, hinner, rfl⟩, fun h => ?_⟩
  · intro x hx
    obtain rfl : x = .set [.long 2] := List.mem_singleton.mp (SortedSet.mem_ofList.mp hx)
    rfl
  · obtain ⟨-, h⟩ := heq.holds_iff.mp h
    cases h

end Bundle

end Arbiter
