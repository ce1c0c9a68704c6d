/-
# Facts hold

The checker collects what holds when an expression is true: attributes that are there.  This does
not depend on types.  Whenever the value of an expression is true, its facts hold
(`Expr.hold_facts`), with or without faults, because evaluation tells which operands were
true: both of a conjunction, one of a disjunction, and the condition of a branch that was taken.  An
attribute that is there can be read (`Evaluation.exists_getAttr_of_hasAttr`), so that an access that
a fact allows finds its attribute (`Expr.facts_sound`).
-/
import Arbiter.Proofs.Evaluation
import Arbiter.Proofs.Validation.Parts

namespace Arbiter

open Outcome

section

variable {request : Request} {store : EntityStore} {s : Schema} {env : RequestEnv}

/-- All facts hold: the attributes are there. -/
def Facts.Hold (request : Request) (store : EntityStore) (known : Facts) : Prop :=
  ∀ f ∈ known, (Expr.hasAttr f.1 f.2).eval request store = .ok (.bool true)

namespace Facts.Hold

theorem nil : Facts.Hold request store [] := nofun

theorem append {k l : Facts} (hk : Facts.Hold request store k) (hl : Facts.Hold request store l) :
    Facts.Hold request store (k ++ l) := by
  intro f hf
  rcases List.mem_append.mp hf with hf | hf
  · exact hk f hf
  · exact hl f hf

/-- Facts that are among others hold when those do. -/
theorem filter_left {k : Facts} (hk : Facts.Hold request store k) (p : Expr × String → Bool) :
    Facts.Hold request store (k.filter p) :=
  fun f hf => hk f (List.mem_filter.mp hf).1

theorem filter_contains {l : Facts} (hl : Facts.Hold request store l) (k : Facts) :
    Facts.Hold request store (k.filter l.contains) :=
  fun f hf => hl f (List.contains_iff_mem.mp (List.mem_filter.mp hf).2)

end Facts.Hold

/-- **The facts of an expression hold whenever it is true.** -/
theorem Expr.hold_facts (e : Expr) (known : Facts) (h : e.eval request store = .ok (.bool true)) :
    Facts.Hold request store (e.check s env known).facts := by
  induction e using induction_children generalizing known with
  | step e ih =>
    cases e with
    | and l r =>
      obtain ⟨hl, hr⟩ := eval_and_eq_true h
      exact (ih l (by simp [children]) _ hl).append (ih r (by simp [children]) _ hr)
    | or l r =>
      rcases eval_or_eq_true h with hl | hr
      · exact (ih l (by simp [children]) _ hl).filter_left _
      · exact (ih r (by simp [children]) _ hr).filter_contains _
    | ite c y n =>
      rcases eval_ite_eq_true h with ⟨hc, hy⟩ | hn
      · exact ((ih c (by simp [children]) _ hc).append
          (ih y (by simp [children]) _ hy)).filter_left _
      · exact (ih n (by simp [children]) _ hn).filter_contains _
    | hasAttr e attr => exact fun f hf => List.mem_singleton.mp hf ▸ h
    | _ => exact Facts.Hold.nil

/-- An attribute that is there can be read. -/
theorem Evaluation.exists_getAttr_of_hasAttr {attr : String} {v : Value}
    (h : hasAttr store attr v = .ok true) : ∃ w, getAttr store attr v = .ok w := by
  cases v with
  | entity uid =>
    have hany : ((store.get? uid).any fun e => (e.attr? attr).isSome) = true := Except.ok.inj h
    cases he : store.get? uid with
    | none =>
      rw [he] at hany
      cases hany
    | some e =>
      rw [he] at hany
      obtain ⟨w, hw⟩ := Option.isSome_iff_exists.mp hany
      refine ⟨w, ?_⟩
      simp only [getAttr, he, hw]
  | record attrs =>
    have hattr : (SortedList.find? attr attrs).isSome = true := Except.ok.inj h
    obtain ⟨w, hw⟩ := Option.isSome_iff_exists.mp hattr
    refine ⟨w, ?_⟩
    simp only [getAttr, hw]
  | _ => cases h

theorem Expr.exists_eval_getAttr_of_hasAttr {e : Expr} {attr : String}
    (h : (Expr.hasAttr e attr).eval request store = .ok (.bool true)) :
    ∃ w, (Expr.getAttr e attr).eval request store = .ok w := by
  obtain ⟨v, hv, h⟩ := bind_eq_ok_iff.mp h
  obtain ⟨b, hb, h⟩ := bind_eq_ok_iff.mp h
  cases h
  obtain ⟨w, hw⟩ := Evaluation.exists_getAttr_of_hasAttr hb
  exact ⟨w, bind_eq_ok_iff.mpr ⟨v, hv, hw⟩⟩

/-- **Facts are sound.**  Whatever is known beforehand, and whether or not an expression has faults:
when its value is true, each attribute among its facts is there, so that reading it yields a value
and fails neither for want of the attribute nor for want of the entity. -/
theorem Expr.facts_sound (s : Schema) (env : RequestEnv) (e : Expr) (known : Facts)
    (h : e.eval request store = .ok (.bool true)) :
    ∀ f ∈ (e.check s env known).facts,
      (Expr.hasAttr f.1 f.2).eval request store = .ok (.bool true) ∧
      ∃ v, (Expr.getAttr f.1 f.2).eval request store = .ok v := by
  intro f hf
  have hhas := hold_facts e known h f hf
  exact ⟨hhas, exists_eval_getAttr_of_hasAttr hhas⟩

end

/-! An entrance with a number where a truth value is expected, which evaluation never reaches.  The
two ways in have the team in common, and both branches behind them ask for the level. -/

namespace Entrance

def ann : EntityUid := ⟨⟨"User"⟩, "ann"⟩

def store : EntityStore :=
  ⟨[{ uid := ann, attrs := .ofList [("level", .long 2)] }], false, by decide⟩

def request : Request where
  principal := ann
  action := ⟨⟨"Action"⟩, "enter"⟩
  resource := ⟨⟨"Door"⟩, "front"⟩
  context := ⟨.ofList [("team", .string "red")]⟩

def env : RequestEnv where
  principal := ⟨"User"⟩
  action := ⟨⟨"Action"⟩, "enter"⟩
  resource := ⟨"Door"⟩
  context := .record .empty

def hasTeam : Expr := .hasAttr (.var .context) "team"

def hasLevel : Expr := .hasAttr (.var .principal) "level"

def entrance : Expr :=
  .and (.or (.and hasTeam hasLevel) (.and hasTeam (.value (.long 3))))
    (.ite (.not (.hasAttr (.var .resource) "locked")) hasLevel hasLevel)

theorem facts_entrance : (entrance.check {} env []).faults ≠ [] ∧
    (entrance.check {} env []).facts
      = [(.var .context, "team"), (.var .principal, "level")] ∧
    entrance.eval request store = .ok (.bool true) ∧
    (∃ v, (Expr.getAttr (.var .context) "team").eval request store = .ok v) ∧
    ∃ v, (Expr.getAttr (.var .principal) "level").eval request store = .ok v := by
  have hfacts : (entrance.check {} env []).facts
      = [(.var .context, "team"), (.var .principal, "level")] := by rfl
  have htrue : entrance.eval request store = .ok (.bool true) := by rfl
  have hsound := Expr.facts_sound {} env entrance [] htrue
  rw [hfacts, List.forall_mem_cons, List.forall_mem_singleton] at hsound
  exact ⟨nofun, hfacts, htrue, hsound.1.2, hsound.2.2⟩

end Entrance

end Arbiter
