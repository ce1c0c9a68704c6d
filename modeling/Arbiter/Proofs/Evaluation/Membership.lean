/-
# Membership in a set

`uid in set` goes through the elements in their order and stops at the first entity that `uid` is in,
or at the first element that is no entity.  So its answer depends on what stands in front of what.  In
the order of values, booleans, integers and strings stand in front of all entities (`Value.Early`),
and sets, records and extension values behind them (`Value.Late`).

An early element is therefore always reported, a late one only when the entity is in none of the
entities of the set (`Evaluation.answers_isInAny`).  So membership fails exactly when some element is
no entity, and tells otherwise whether the entity is in one of them (`Evaluation.AllOrNothing`),
unless a late element stands behind an answer (`Expr.membership_exact`).
-/
import Arbiter.Proofs.Evaluation
import Arbiter.Proofs.Store.Hierarchy

namespace Arbiter

open Outcome

/-! ## 1. Elements in front of the entities and behind them -/

namespace Value

variable {v w : Value} {uid : EntityUid}

/-- The value is an entity. -/
def IsEntity (v : Value) : Prop := ∃ uid, v = .entity uid

/-- The value stands in front of all entities. -/
inductive Early : Value → Prop
  | bool {b : Bool} : Early (.bool b)
  | long {n : Int64} : Early (.long n)
  | string {s : String} : Early (.string s)

/-- The value stands behind all entities. -/
inductive Late : Value → Prop
  | set {elems : List Value} : Late (.set elems)
  | record {attrs : List (String × Value)} : Late (.record attrs)
  | ext {x : ExtensionValue} : Late (.ext x)

theorem early_iff : v.Early ↔ v.rank < (entity uid).rank := by
  constructor
  · intro h
    cases h <;> simp [rank]
  · intro h
    cases v with
    | bool => exact .bool
    | long => exact .long
    | string => exact .string
    | _ => simp [rank] at h

theorem late_iff : v.Late ↔ (entity uid).rank < v.rank := by
  constructor
  · intro h
    cases h <;> simp [rank]
  · intro h
    cases v with
    | set => exact .set
    | record => exact .record
    | ext => exact .ext
    | _ => simp [rank] at h

theorem Early.not_isEntity (h : v.Early) : ¬ v.IsEntity := by
  rintro ⟨uid, rfl⟩
  cases h

theorem Late.not_isEntity (h : v.Late) : ¬ v.IsEntity := by
  rintro ⟨uid, rfl⟩
  cases h

theorem Late.not_early (h : v.Late) : ¬ v.Early := by
  intro hearly
  cases hearly <;> cases h

theorem isEntity_iff : v.IsEntity ↔ ¬ v.Early ∧ ¬ v.Late := by
  constructor
  · intro h
    exact ⟨fun hearly => hearly.not_isEntity h, fun hlate => hlate.not_isEntity h⟩
  · rintro ⟨hearly, hlate⟩
    cases v with
    | bool => exact absurd .bool hearly
    | long => exact absurd .long hearly
    | string => exact absurd .string hearly
    | entity uid => exact ⟨uid, rfl⟩
    | set => exact absurd .set hlate
    | record => exact absurd .record hlate
    | ext => exact absurd .ext hlate

/-- What stands behind an entity is not early. -/
theorem not_early_of_entity_lt (h : compare (entity uid) v = .lt) : ¬ v.Early := by
  rw [@early_iff v uid]
  have hle := rank_le_of_cmp h
  omega

/-- What stands behind a late value is late. -/
theorem Late.of_lt (hv : v.Late) (h : compare v w = .lt) : w.Late := by
  rw [@late_iff _ default] at hv ⊢
  have hle := rank_le_of_cmp h
  omega

end Value

/-! ## 2. The way through the elements -/

namespace Evaluation

open Value

variable {store : EntityStore} {uid : EntityUid} {vs : List Value} {r : Except EvalError Value}

/-- The entity is in some entity of the list. -/
def IsInSome (store : EntityStore) (uid : EntityUid) (vs : List Value) : Prop :=
  ∃ u, .entity u ∈ vs ∧ store.isDescendant uid u = true

theorem isInSome_cons_iff {v : Value} : IsInSome store uid (v :: vs) ↔
    (∃ u, v = .entity u ∧ store.isDescendant uid u = true) ∨ IsInSome store uid vs := by
  simp only [IsInSome, List.mem_cons]
  constructor
  · rintro ⟨u, hu | hu, hin⟩
    · exact Or.inl ⟨u, hu.symm, hin⟩
    · exact Or.inr ⟨u, hu, hin⟩
  · rintro (⟨u, hu, hin⟩ | ⟨u, hu, hin⟩)
    · exact ⟨u, Or.inl hu.symm, hin⟩
    · exact ⟨u, Or.inr hu, hin⟩

/-- What is answered for a set, by the sorts of its elements. -/
inductive Answers (store : EntityStore) (uid : EntityUid) (vs : List Value) :
    Except EvalError Value → Prop
  | early {sort : String} (h : ∃ v ∈ vs, v.Early) :
      Answers store uid vs (.error (.typeError "entity" sort))
  | found (h : ∀ v ∈ vs, ¬ v.Early) (hin : IsInSome store uid vs) :
      Answers store uid vs (.ok (.bool true))
  | late {sort : String} (h : ∀ v ∈ vs, ¬ v.Early) (hlate : ∃ v ∈ vs, v.Late)
      (hin : ¬ IsInSome store uid vs) : Answers store uid vs (.error (.typeError "entity" sort))
  | absent (h : ∀ v ∈ vs, v.IsEntity) (hin : ¬ IsInSome store uid vs) :
      Answers store uid vs (.ok (.bool false))

/-- An entity that is not the answer in front does not change the answer. -/
theorem Answers.cons_entity {u : EntityUid} (hu : store.isDescendant uid u = false)
    (hearly : ∀ v ∈ vs, ¬ v.Early) (h : Answers store uid vs r) :
    Answers store uid (.entity u :: vs) r := by
  have hin : IsInSome store uid (.entity u :: vs) ↔ IsInSome store uid vs := by
    rw [isInSome_cons_iff, or_iff_right]
    rintro ⟨u', heq, hu'⟩
    cases heq
    rw [hu] at hu'
    cases hu'
  have hcons : ∀ v ∈ Value.entity u :: vs, ¬ v.Early :=
    List.forall_mem_cons.mpr ⟨fun h => h.not_isEntity ⟨u, rfl⟩, hearly⟩
  cases h with
  | early h =>
    obtain ⟨v, hv, hvearly⟩ := h
    exact absurd hvearly (hearly v hv)
  | found _ hsome => exact .found hcons (hin.mpr hsome)
  | late _ hlate hnone =>
    obtain ⟨v, hv, hvlate⟩ := hlate
    exact .late hcons ⟨v, List.mem_cons_of_mem _ hv, hvlate⟩ (hin.not.mpr hnone)
  | absent h hnone => exact .absent (List.forall_mem_cons.mpr ⟨⟨u, rfl⟩, h⟩) (hin.not.mpr hnone)

/-- Nothing behind a late element is an entity, so none of the entities can be the answer. -/
theorem Answers.of_late {v : Value} {sort : String} (hv : v.Late)
    (hlt : ∀ w ∈ vs, compare v w = .lt) :
    Answers store uid (v :: vs) (.error (.typeError "entity" sort)) := by
  have hlate : ∀ w ∈ v :: vs, w.Late :=
    List.forall_mem_cons.mpr ⟨hv, fun w hw => hv.of_lt (hlt w hw)⟩
  refine .late (fun w hw => (hlate w hw).not_early) ⟨v, List.mem_cons_self, hv⟩ ?_
  rintro ⟨u, hu, -⟩
  exact (hlate _ hu).not_isEntity ⟨u, rfl⟩

/-- **What is answered for a set in ascending order.** -/
theorem answers_isInAny : ∀ {vs : List Value}, SortedList.Strict vs →
    Answers store uid vs ((isInAny store uid vs).map .bool)
  | [], _ => .absent (List.forall_mem_nil _) fun ⟨_, h, _⟩ => nomatch h
  | v :: vs, hvs => by
    obtain ⟨hlt, hrest⟩ := List.pairwise_cons.mp hvs
    cases v with
    | bool => exact .early ⟨_, List.mem_cons_self, .bool⟩
    | long => exact .early ⟨_, List.mem_cons_self, .long⟩
    | string => exact .early ⟨_, List.mem_cons_self, .string⟩
    | entity u =>
      have hearly : ∀ w ∈ vs, ¬ w.Early := fun w hw => not_early_of_entity_lt (hlt w hw)
      simp only [isInAny]
      split
      · rename_i hin
        refine .found (List.forall_mem_cons.mpr ⟨fun h => h.not_isEntity ⟨u, rfl⟩, hearly⟩) ?_
        exact isInSome_cons_iff.mpr (Or.inl ⟨u, rfl, hin⟩)
      · rename_i hnot
        exact (answers_isInAny hrest).cons_entity (Bool.eq_false_iff.mpr hnot) hearly
    | set => exact .of_late .set hlt
    | record => exact .of_late .record hlt
    | ext => exact .of_late .ext hlt

namespace Answers

theorem typeError_iff (h : Answers store uid vs r) :
    (∃ expected actual, r = .error (.typeError expected actual)) ↔
      (∃ v ∈ vs, v.Early) ∨ (∃ v ∈ vs, v.Late) ∧ ¬ IsInSome store uid vs := by
  cases h with
  | early h => exact iff_of_true ⟨_, _, rfl⟩ (Or.inl h)
  | late _ hlate hin => exact iff_of_true ⟨_, _, rfl⟩ (Or.inr ⟨hlate, hin⟩)
  | found h hin =>
    refine iff_of_false nofun ?_
    rintro (⟨v, hv, hearly⟩ | ⟨-, hnot⟩)
    · exact h v hv hearly
    · exact hnot hin
  | absent h hin =>
    refine iff_of_false nofun ?_
    rintro (⟨v, hv, hearly⟩ | ⟨⟨v, hv, hlate⟩, -⟩)
    · exact hearly.not_isEntity (h v hv)
    · exact hlate.not_isEntity (h v hv)

theorem true_iff (h : Answers store uid vs r) :
    r = .ok (.bool true) ↔ (∀ v ∈ vs, ¬ v.Early) ∧ IsInSome store uid vs := by
  cases h with
  | found h hin => exact iff_of_true rfl ⟨h, hin⟩
  | early h =>
    obtain ⟨v, hv, hearly⟩ := h
    exact iff_of_false nofun fun hnot => hnot.1 v hv hearly
  | late _ _ hin => exact iff_of_false nofun fun h => hin h.2
  | absent _ hin => exact iff_of_false nofun fun h => hin h.2

theorem false_iff (h : Answers store uid vs r) :
    r = .ok (.bool false) ↔ (∀ v ∈ vs, v.IsEntity) ∧ ¬ IsInSome store uid vs := by
  cases h with
  | absent h hin => exact iff_of_true rfl ⟨h, hin⟩
  | early h =>
    obtain ⟨v, hv, hearly⟩ := h
    exact iff_of_false nofun fun hall => hearly.not_isEntity (hall.1 v hv)
  | late _ hlate _ =>
    obtain ⟨v, hv, hlate⟩ := hlate
    exact iff_of_false nofun fun hall => hlate.not_isEntity (hall.1 v hv)
  | found _ hin => exact iff_of_false nofun fun h => h.2 hin

end Answers

/-- Membership fails exactly when some element is no entity, and otherwise says whether the entity is
in one of the elements. -/
def AllOrNothing (store : EntityStore) (uid : EntityUid) (vs : List Value)
    (r : Except EvalError Value) : Prop :=
  ((∃ expected actual, r = .error (.typeError expected actual)) ↔ ∃ v ∈ vs, ¬ v.IsEntity) ∧
    ((∀ v ∈ vs, v.IsEntity) → (r = .ok (.bool true) ↔ IsInSome store uid vs) ∧
      (r = .ok (.bool false) ↔ ¬ IsInSome store uid vs))

/-- A late element behind an answer is the one thing that goes unnoticed. -/
theorem Answers.allOrNothing_iff (h : Answers store uid vs r) : AllOrNothing store uid vs r ↔
    ¬ ((∀ v ∈ vs, ¬ v.Early) ∧ (∃ v ∈ vs, v.Late) ∧ IsInSome store uid vs) := by
  constructor
  · rintro ⟨hfails, -⟩ ⟨hearly, ⟨v, hv, hlate⟩, hin⟩
    obtain ⟨_, _, herror⟩ := hfails.mpr ⟨v, hv, hlate.not_isEntity⟩
    rw [h.true_iff.mpr ⟨hearly, hin⟩] at herror
    cases herror
  · intro hnot
    refine ⟨h.typeError_iff.trans ⟨?_, ?_⟩, fun hall => ⟨?_, ?_⟩⟩
    · rintro (⟨v, hv, hearly⟩ | ⟨⟨v, hv, hlate⟩, -⟩)
      · exact ⟨v, hv, hearly.not_isEntity⟩
      · exact ⟨v, hv, hlate.not_isEntity⟩
    · rintro ⟨v, hv, hentity⟩
      by_cases hearly : ∃ v ∈ vs, v.Early
      · exact Or.inl hearly
      · have hearly : ∀ w ∈ vs, ¬ w.Early := fun w hw hwearly => hearly ⟨w, hw, hwearly⟩
        have hlate : v.Late := by
          by_contra hlate
          exact hentity (isEntity_iff.mpr ⟨hearly v hv, hlate⟩)
        exact Or.inr ⟨⟨v, hv, hlate⟩, fun hin => hnot ⟨hearly, ⟨v, hv, hlate⟩, hin⟩⟩
    · rw [h.true_iff, and_iff_right]
      exact fun v hv hearly => hearly.not_isEntity (hall v hv)
    · rw [h.false_iff, and_iff_right hall]

end Evaluation

/-! ## 3. Expressions -/

namespace Expr

open Evaluation

variable {request : Request} {store : EntityStore} {l r : Expr} {uid : EntityUid} {vs : List Value}

theorem eval_isIn_set (hl : l.eval request store = .ok (.entity uid))
    (hr : r.eval request store = .ok (.set vs)) :
    (Expr.binary .isIn l r).eval request store = (isInAny store uid vs).map .bool := by
  simp only [eval, Evaluation.binary, hl, hr, ok_bind]
  rfl

/-- **Membership in a set.**  It fails when an element stands in front of all entities, and also when
one stands behind them and the entity is in none of them; it holds and does not hold as the entities
say.  So it fails exactly for the sets with elements that are no entities, but for one case: there is
an answer, and all that is wrong stands behind it. -/
theorem membership_exact (hl : l.eval request store = .ok (.entity uid))
    (hr : r.eval request store = .ok (.set vs)) (hvs : SortedList.Strict vs) :
    ((∃ expected actual, (Expr.binary .isIn l r).eval request store
        = .error (.typeError expected actual)) ↔
      (∃ v ∈ vs, v.Early) ∨ (∃ v ∈ vs, v.Late) ∧ ¬ IsInSome store uid vs) ∧
    ((Expr.binary .isIn l r).eval request store = .ok (.bool true) ↔
      (∀ v ∈ vs, ¬ v.Early) ∧ IsInSome store uid vs) ∧
    ((Expr.binary .isIn l r).eval request store = .ok (.bool false) ↔
      (∀ v ∈ vs, v.IsEntity) ∧ ¬ IsInSome store uid vs) ∧
    (AllOrNothing store uid vs ((Expr.binary .isIn l r).eval request store) ↔
      ¬ ((∀ v ∈ vs, ¬ v.Early) ∧ (∃ v ∈ vs, v.Late) ∧ IsInSome store uid vs)) := by
  have h : Answers store uid vs ((Expr.binary .isIn l r).eval request store) := by
    rw [eval_isIn_set hl hr]
    exact answers_isInAny hvs
  exact ⟨h.typeError_iff, h.true_iff, h.false_iff, h.allOrNothing_iff⟩

end Expr

/-! A badge is asked for with a set of a team and of a record, which is no entity.  The record goes
unnoticed when a member of the team asks. -/

namespace Badge

open Evaluation

def ann : EntityUid := ⟨⟨"User"⟩, "ann"⟩

def bob : EntityUid := ⟨⟨"User"⟩, "bob"⟩

def staff : EntityUid := ⟨⟨"Team"⟩, "staff"⟩

def store : EntityStore :=
  ⟨[{ uid := ann, parents := .singleton staff }, { uid := staff }], false, by decide⟩

def wanted : List Value := [.entity staff, .record []]

def request (uid : EntityUid) : Request :=
  { principal := uid, action := ⟨⟨"Action"⟩, "enter"⟩, resource := ⟨⟨"Door"⟩, "front"⟩ }

/-- `principal in [Team::"staff", ...]`, the second element being a record. -/
def question : Expr := .binary .isIn (.var .principal) (.value (.set wanted))

theorem strict_wanted : SortedList.Strict wanted :=
  List.pairwise_cons.mpr ⟨List.forall_mem_singleton.mpr rfl, List.pairwise_singleton _ _⟩

theorem ann_in_staff : store.isDescendant ann staff = true := by
  have hann : store.get? ann = some { uid := ann, parents := .singleton staff } := by decide
  exact EntityStore.isDescendant_of_parent hann (by decide) EntityStore.isDescendant_self

theorem bob_not_in_staff : store.isDescendant bob staff = false := by
  have hbob : store.get? bob = none := by decide
  simp only [EntityStore.isDescendant, EntityStore.ancestors, hbob]
  decide

/-- The record is reported when a stranger asks: nothing in front of it is an answer. -/
theorem membership_exact_badge : SortedList.Strict wanted ∧
    ∃ expected actual,
      question.eval (request bob) store = .error (.typeError expected actual) := by
  refine ⟨strict_wanted, ?_⟩
  obtain ⟨htype, -⟩ := @Expr.membership_exact (request bob) store (.var .principal)
    (.value (.set wanted)) bob wanted rfl rfl strict_wanted
  refine htype.mpr (Or.inr ⟨?_, ?_⟩)
  · exact ⟨.record [], List.mem_cons_of_mem _ List.mem_cons_self, .record⟩
  · rintro ⟨u, hu, hin⟩
    simp only [wanted, List.mem_cons, Value.entity.injEq, List.not_mem_nil, or_false] at hu
    rcases hu with rfl | hu
    · rw [bob_not_in_staff] at hin
      cases hin
    · cases hu

/-- A member of the team gets an answer, although there is an element that is no entity and a
stranger's question fails because of it. -/
theorem not_allOrNothing_badge : SortedList.Strict wanted ∧ (∃ v ∈ wanted, ¬ v.IsEntity) ∧
    question.eval (request ann) store = .ok (.bool true) ∧
    question.eval (request bob) store = .error (.typeError "entity" "record") ∧
    ¬ AllOrNothing store ann wanted (question.eval (request ann) store) := by
  have hrecord : ∃ v ∈ wanted, ¬ v.IsEntity :=
    ⟨.record [], List.mem_cons_of_mem _ List.mem_cons_self, Value.Late.record.not_isEntity⟩
  have hann : question.eval (request ann) store = .ok (.bool true) := by
    rw [question, @Expr.eval_isIn_set _ _ _ _ ann _ rfl rfl, wanted]
    simp only [isInAny, ann_in_staff, if_true]
    rfl
  have hbob : question.eval (request bob) store = .error (.typeError "entity" "record") := by
    rw [question, @Expr.eval_isIn_set _ _ _ _ bob _ rfl rfl, wanted]
    simp only [isInAny, bob_not_in_staff, Bool.false_eq_true, if_false]
    rfl
  refine ⟨strict_wanted, hrecord, hann, hbob, ?_⟩
  rintro ⟨hfails, -⟩
  obtain ⟨_, _, herror⟩ := hfails.mpr hrecord
  rw [hann] at herror
  cases herror

end Badge

end Arbiter
