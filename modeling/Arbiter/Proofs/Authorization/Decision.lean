/-
# What decides a request

The answer to a request, said without the order in which policies are looked at.  A policy is
satisfied when its scope matches and all its conditions hold (`Policy.Satisfied`); it fails when its
scope matches and the first condition that does not hold has no truth value
(`Policy.FailsWith`).  These two say all about a policy of a reachable set, because its scope always
has an answer.

* **One set.**  The satisfied forbids, else the satisfied permits, are the reasons, and the errors
  are those of the policies that fail (`Response.Documented`).
* **One policy more.**  The policies of the larger set are those of the smaller one with the new
  policy between two parts (`PolicySet.Adds.exists_policies_eq_append`), so the parts of the answer
  are too, and what the new policy can change follows from its effect (`Response.Extended`).

`authorize_documented` puts both together.
-/
import Arbiter.Authorization.Decision
import Arbiter.Proofs.Authorization.Scope
import Arbiter.Proofs.Evaluation

namespace Arbiter

open Outcome

section

variable {request : Request} {store : EntityStore}

/-! ## 1. Conditions -/

/-- The condition has the truth value that its kind needs. -/
def Condition.Holds (request : Request) (store : EntityStore) (c : Condition) : Prop :=
  ∃ b, c.body.eval request store = .ok (.bool b) ∧ c.kind.admits b = true

theorem Condition.holds_iff {c : Condition} :
    c.Holds request store ↔
      ∃ b, c.body.evalBool request store = .ok b ∧ c.kind.admits b = true := by
  unfold Holds
  simp only [Expr.evalBool_eq_ok_iff]

theorem conditionsHold_cons {c : Condition} {cs : List Condition} :
    conditionsHold request store (c :: cs) = c.body.evalBool request store >>= fun b =>
      if c.kind.admits b = true then conditionsHold request store cs else .ok false := rfl

/-- A condition that holds is passed over. -/
theorem conditionsHold_cons_of_holds {c : Condition} {cs : List Condition}
    (hc : c.Holds request store) :
    conditionsHold request store (c :: cs) = conditionsHold request store cs := by
  obtain ⟨b, hb, hadmits⟩ := Condition.holds_iff.mp hc
  rw [conditionsHold_cons, hb, ok_bind, if_pos hadmits]

theorem conditionsHold_eq_true_iff : ∀ {cs : List Condition},
    conditionsHold request store cs = .ok true ↔ ∀ c ∈ cs, c.Holds request store
  | [] => iff_of_true rfl nofun
  | c :: cs => by
    rw [List.forall_mem_cons]
    constructor
    · intro h
      obtain ⟨b, hb, h'⟩ := bind_eq_ok_iff.mp (conditionsHold_cons ▸ h)
      split at h'
      · rename_i hadmits
        exact ⟨Condition.holds_iff.mpr ⟨b, hb, hadmits⟩, conditionsHold_eq_true_iff.mp h'⟩
      · cases h'
    · rintro ⟨hc, hcs⟩
      rw [conditionsHold_cons_of_holds hc]
      exact conditionsHold_eq_true_iff.mpr hcs

/-- The conditions fail with the error of the first one that does not hold, when that has no truth
value. -/
theorem conditionsHold_eq_error_iff {e : EvalError} : ∀ {cs : List Condition},
    conditionsHold request store cs = .error e ↔
      ∃ before c after, cs = before ++ c :: after ∧ (∀ d ∈ before, d.Holds request store) ∧
        c.body.evalBool request store = .error e
  | [] => iff_of_false nofun fun ⟨before, _, _, h, _⟩ => by cases before <;> cases h
  | c :: cs => by
    constructor
    · intro h
      rw [conditionsHold_cons] at h
      rcases bind_eq_error_iff.mp h with hc | ⟨b, hb, h'⟩
      · exact ⟨[], c, cs, rfl, nofun, hc⟩
      · split at h'
        · rename_i hadmits
          obtain ⟨before, d, after, rfl, hbefore, hd⟩ := conditionsHold_eq_error_iff.mp h'
          refine ⟨c :: before, d, after, rfl, ?_, hd⟩
          rw [List.forall_mem_cons]
          exact ⟨Condition.holds_iff.mpr ⟨b, hb, hadmits⟩, hbefore⟩
        · cases h'
    · rintro ⟨before, d, after, heq, hbefore, hd⟩
      cases before with
      | nil =>
        cases heq
        rw [conditionsHold_cons, hd]
        rfl
      | cons c' before =>
        cases heq
        obtain ⟨hc, hrest⟩ := List.forall_mem_cons.mp hbefore
        rw [conditionsHold_cons_of_holds hc]
        exact conditionsHold_eq_error_iff.mpr ⟨before, d, after, rfl, hrest, hd⟩

/-! ## 2. Policies -/

namespace Policy

variable {p : Policy}

/-- The scope matches and all conditions hold. -/
def Satisfied (request : Request) (store : EntityStore) (p : Policy) : Prop :=
  p.scopeMatches request store = .ok true ∧ ∀ c ∈ p.template.conditions, c.Holds request store

/-- The scope matches, and the first condition that does not hold fails with the error. -/
def FailsWith (request : Request) (store : EntityStore) (e : EvalError) (p : Policy) : Prop :=
  p.scopeMatches request store = .ok true ∧
    ∃ before c after, p.template.conditions = before ++ c :: after ∧
      (∀ d ∈ before, d.Holds request store) ∧ c.body.evalBool request store = .error e

theorem isSatisfied_eq_ok_iff :
    p.isSatisfied request store = .ok true ↔ p.Satisfied request store := by
  unfold isSatisfied Satisfied
  rw [← conditionsHold_eq_true_iff, bind_eq_ok_iff]
  constructor
  · rintro ⟨b, hscope, h⟩
    cases b with
    | false => cases h
    | true => exact ⟨hscope, h⟩
  · rintro ⟨hscope, h⟩
    exact ⟨true, hscope, h⟩

theorem Made.isSatisfied_eq_error_iff (hp : p.Made) {e : EvalError} :
    p.isSatisfied request store = .error e ↔ p.FailsWith request store e := by
  obtain ⟨b, hscope⟩ := hp.exists_scopeMatches request store
  unfold isSatisfied FailsWith
  rw [← conditionsHold_eq_error_iff, hscope, ok_bind]
  cases b with
  | false => exact iff_of_false nofun fun h => nomatch h.1
  | true => exact (and_iff_right rfl).symm

theorem isSatisfiedWith_iff {effect : Effect} :
    p.isSatisfiedWith effect request store = true ↔
      p.template.effect = effect ∧ p.Satisfied request store := by
  unfold isSatisfiedWith
  rw [Bool.and_eq_true, beq_iff_eq, ← isSatisfied_eq_ok_iff]
  refine and_congr_right fun _ => ?_
  split
  · rename_i h
    exact iff_of_true rfl h
  · rename_i h
    exact iff_of_false nofun h

theorem Made.failure?_eq_some_iff (hp : p.Made) {f : PolicyFailure} :
    p.failure? request store = some f ↔ p.id = f.policy ∧ p.FailsWith request store f.error := by
  rw [← hp.isSatisfied_eq_error_iff]
  unfold failure?
  obtain ⟨id, e⟩ := f
  cases p.isSatisfied request store with
  | ok _ => exact iff_of_false nofun fun h => nomatch h.2
  | error e' => simp

theorem policy_of_failure? {f : PolicyFailure} (h : p.failure? request store = some f) :
    f.policy = p.id := by
  unfold failure? at h
  split at h
  · cases h
  · cases h
    rfl

end Policy

/-- What is made of some elements and names the element that it is made of. -/
theorem map_filterMap_eq_map_filter {α β γ : Type} {f : α → Option β} {g : β → γ} {h : α → γ}
    (hfg : ∀ a b, f a = some b → g b = h a) (l : List α) :
    (l.filterMap f).map g = (l.filter fun a => (f a).isSome).map h := by
  induction l with
  | nil => rfl
  | cons a l ih =>
    rw [List.filterMap_cons, List.filter_cons]
    cases hf : f a with
    | none => exact ih
    | some b =>
      rw [Option.isSome_some, if_pos rfl, List.map_cons, List.map_cons, hfg a b hf, ih]

/-! ## 3. The answer of a set -/

/-- The ids of the satisfied policies of an effect. -/
def satisfiedIds (effect : Effect) (request : Request) (store : EntityStore) (ps : List Policy) :
    List PolicyId :=
  (ps.filter (Policy.isSatisfiedWith effect request store)).map Policy.id

/-- The errors of the policies that fail. -/
def failures (request : Request) (store : EntityStore) (ps : List Policy) : List PolicyFailure :=
  ps.filterMap (Policy.failure? request store)

/-- The answer of policies, whatever is stored. -/
def respond (request : Request) (store : EntityStore) (ps : List Policy) : Response :=
  combine (satisfiedIds .permit request store ps) (satisfiedIds .forbid request store ps)
    (failures request store ps)

/-- The entities that a request needs are stored. -/
def Request.Stored (store : EntityStore) (r : Request) : Prop :=
  store.contains r.principal = true ∧ store.contains r.resource = true ∧
    (store.declaresActions = true → store.contains r.action = true)

theorem Request.stored_iff : request.Stored store ↔
    (request.required store).find? (fun uid => !store.contains uid) = none := by
  unfold Stored required
  rw [List.find?_eq_none]
  simp only [Bool.not_eq_true, Bool.not_eq_false', List.forall_mem_append, List.forall_mem_cons]
  split
  · rename_i h
    simp [h, and_assoc]
  · rename_i h
    simp [h]

theorem authorize_eq_ok_iff {ps : PolicySet} {r : Response} :
    authorize request ps store = .ok r ↔
      request.Stored store ∧ r = respond request store ps.policies := by
  rw [Request.stored_iff]
  unfold authorize
  split
  · rename_i h
    simp [h]
  · rename_i h
    rw [h, Except.ok.injEq, eq_comm]
    exact (and_iff_right rfl).symm

/-- Which entity is missing does not depend on the policies. -/
theorem authorize_eq_error_iff {ps : PolicySet} {u : UnknownEntity} :
    authorize request ps store = .error u ↔
      (request.required store).find? (fun uid => !store.contains uid) = some u.uid := by
  unfold authorize
  split
  · rename_i uid h
    rw [h, Except.error.injEq, Option.some.injEq]
    constructor
    · rintro rfl
      rfl
    · rintro rfl
      rfl
  · rename_i h
    simp [h]

/-- Policies that give the same answer decide the same way. -/
theorem authorize_eq_of_respond_eq {ps qs : PolicySet}
    (h : respond request store qs.policies = respond request store ps.policies) :
    authorize request qs store = authorize request ps store := by
  cases hps : authorize request ps store with
  | error u => exact authorize_eq_error_iff.mpr (authorize_eq_error_iff.mp hps)
  | ok r =>
    obtain ⟨hstored, rfl⟩ := authorize_eq_ok_iff.mp hps
    exact authorize_eq_ok_iff.mpr ⟨hstored, h.symm⟩

theorem exists_authorize_eq_error_iff {ps : PolicySet} :
    (∃ u, authorize request ps store = .error u) ↔ ¬ request.Stored store := by
  rw [Request.stored_iff]
  constructor
  · rintro ⟨u, hu⟩
    rw [authorize_eq_error_iff.mp hu]
    exact nofun
  · intro h
    obtain ⟨uid, huid⟩ := Option.ne_none_iff_exists'.mp h
    exact ⟨⟨uid⟩, authorize_eq_error_iff.mpr huid⟩

namespace PolicySet

variable {ps : PolicySet}

/-- A policy of the effect and the id is satisfied. -/
def Satisfies (request : Request) (store : EntityStore) (effect : Effect) (id : PolicyId)
    (ps : PolicySet) : Prop :=
  ∃ p, ps.get? id = some p ∧ p.template.effect = effect ∧ p.Satisfied request store

/-- The policy of the id fails with the error. -/
def FailsWith (request : Request) (store : EntityStore) (id : PolicyId) (e : EvalError)
    (ps : PolicySet) : Prop :=
  ∃ p, ps.get? id = some p ∧ p.FailsWith request store e

theorem WellFormed.get?_eq_some_iff (hps : ps.WellFormed) {id : PolicyId} {p : Policy} :
    ps.get? id = some p ↔ p ∈ ps.policies ∧ p.id = id := by
  constructor
  · intro h
    exact ⟨mem_policies_iff.mpr ⟨id, h⟩, hps.policy_id h⟩
  · rintro ⟨hp, rfl⟩
    obtain ⟨id, h⟩ := mem_policies_iff.mp hp
    rw [hps.policy_id h]
    exact h

theorem WellFormed.mem_satisfiedIds_iff (hps : ps.WellFormed) {effect : Effect} {id : PolicyId} :
    id ∈ satisfiedIds effect request store ps.policies ↔
      ps.Satisfies request store effect id := by
  unfold satisfiedIds Satisfies
  simp only [List.mem_map, List.mem_filter, Policy.isSatisfiedWith_iff, hps.get?_eq_some_iff]
  constructor
  · rintro ⟨p, ⟨hp, hsat⟩, hid⟩
    exact ⟨p, ⟨hp, hid⟩, hsat⟩
  · rintro ⟨p, ⟨hp, hid⟩, hsat⟩
    exact ⟨p, ⟨hp, hsat⟩, hid⟩

theorem WellFormed.mem_failures_iff (hps : ps.WellFormed) {f : PolicyFailure} :
    f ∈ failures request store ps.policies ↔ ps.FailsWith request store f.policy f.error := by
  unfold failures FailsWith
  simp only [List.mem_filterMap, hps.get?_eq_some_iff]
  constructor
  · rintro ⟨p, hp, hf⟩
    obtain ⟨hid, hfails⟩ := (hps.made_of_mem hp).failure?_eq_some_iff.mp hf
    exact ⟨p, ⟨hp, hid⟩, hfails⟩
  · rintro ⟨p, ⟨hp, hid⟩, hfails⟩
    exact ⟨p, hp, (hps.made_of_mem hp).failure?_eq_some_iff.mpr ⟨hid, hfails⟩⟩

theorem WellFormed.strict_satisfiedIds (hps : ps.WellFormed) (effect : Effect) :
    SortedList.Strict (satisfiedIds effect request store ps.policies) :=
  List.Pairwise.sublist (List.Sublist.map Policy.id List.filter_sublist) hps.ascending_policies

theorem failures_map_sublist (ps : List Policy) :
    ((failures request store ps).map PolicyFailure.policy).Sublist (ps.map Policy.id) := by
  unfold failures
  rw [map_filterMap_eq_map_filter fun p f hf => Policy.policy_of_failure? hf]
  exact List.Sublist.map Policy.id List.filter_sublist

theorem WellFormed.strict_failures (hps : ps.WellFormed) :
    SortedList.Strict ((failures request store ps.policies).map PolicyFailure.policy) :=
  List.Pairwise.sublist (failures_map_sublist _) hps.ascending_policies

end PolicySet

/-- The documented combination: a satisfied forbid denies, otherwise a satisfied permit allows,
otherwise the request is denied; the errors are those of the policies that fail. -/
structure Response.Documented (ps : PolicySet) (request : Request) (store : EntityStore)
    (r : Response) : Prop where
  forbidden : (∃ id, ps.Satisfies request store .forbid id) →
    r.decision = .deny ∧ ∀ id, id ∈ r.reasons ↔ ps.Satisfies request store .forbid id
  allowed : (¬ ∃ id, ps.Satisfies request store .forbid id) →
    (∃ id, ps.Satisfies request store .permit id) →
      r.decision = .allow ∧ ∀ id, id ∈ r.reasons ↔ ps.Satisfies request store .permit id
  denied : (¬ ∃ id, ps.Satisfies request store .forbid id) →
    (¬ ∃ id, ps.Satisfies request store .permit id) → r.decision = .deny ∧ r.reasons = []
  mem_errors_iff : ∀ f, f ∈ r.errors ↔ ps.FailsWith request store f.policy f.error
  strict_reasons : SortedList.Strict r.reasons
  strict_errors : SortedList.Strict (r.errors.map PolicyFailure.policy)

theorem combine_of_forbids {permits forbids : List PolicyId} {errors : List PolicyFailure}
    (h : forbids ≠ []) : combine permits forbids errors = ⟨.deny, forbids, errors⟩ := by
  unfold combine
  rw [if_pos (by simp [h])]

theorem combine_of_permits {permits : List PolicyId} {errors : List PolicyFailure}
    (h : permits ≠ []) : combine permits [] errors = ⟨.allow, permits, errors⟩ := by
  unfold combine
  rw [if_neg (by simp), if_pos (by simp [h])]

theorem combine_nil_nil {errors : List PolicyFailure} :
    combine [] [] errors = ⟨.deny, [], errors⟩ := rfl

@[simp] theorem combine_errors {permits forbids : List PolicyId} {errors : List PolicyFailure} :
    (combine permits forbids errors).errors = errors := by
  unfold combine
  split
  · rfl
  · split <;> rfl

theorem PolicySet.WellFormed.documented_respond {ps : PolicySet} (hps : ps.WellFormed)
    (request : Request) (store : EntityStore) :
    (respond request store ps.policies).Documented ps request store := by
  have hforbids : ∀ id, id ∈ satisfiedIds .forbid request store ps.policies ↔
      ps.Satisfies request store .forbid id := fun _ => hps.mem_satisfiedIds_iff
  have hpermits : ∀ id, id ∈ satisfiedIds .permit request store ps.policies ↔
      ps.Satisfies request store .permit id := fun _ => hps.mem_satisfiedIds_iff
  have hsf : SortedList.Strict (satisfiedIds .forbid request store ps.policies) :=
    hps.strict_satisfiedIds .forbid
  have hsp : SortedList.Strict (satisfiedIds .permit request store ps.policies) :=
    hps.strict_satisfiedIds .permit
  unfold respond
  generalize satisfiedIds .forbid request store ps.policies = forbids at *
  generalize satisfiedIds .permit request store ps.policies = permits at *
  constructor
  · rintro ⟨id, hid⟩
    rw [combine_of_forbids (List.ne_nil_of_mem ((hforbids id).mpr hid))]
    exact ⟨rfl, hforbids⟩
  · rintro hnone ⟨id, hid⟩
    have hnil : forbids = [] := List.eq_nil_iff_forall_not_mem.mpr fun id hid =>
      hnone ⟨id, (hforbids id).mp hid⟩
    rw [hnil, combine_of_permits (List.ne_nil_of_mem ((hpermits id).mpr hid))]
    exact ⟨rfl, hpermits⟩
  · intro hnone hnone'
    have hnil : forbids = [] := List.eq_nil_iff_forall_not_mem.mpr fun id hid =>
      hnone ⟨id, (hforbids id).mp hid⟩
    have hnil' : permits = [] := List.eq_nil_iff_forall_not_mem.mpr fun id hid =>
      hnone' ⟨id, (hpermits id).mp hid⟩
    rw [hnil, hnil', combine_nil_nil]
    exact ⟨rfl, rfl⟩
  · intro f
    rw [combine_errors]
    exact hps.mem_failures_iff
  · unfold combine
    split
    · exact hsf
    · split
      · exact hsp
      · exact List.Pairwise.nil
  · rw [combine_errors]
    exact hps.strict_failures

/-! ## 4. One policy more -/

section

variable {p : Policy} {before after : List Policy} {effect : Effect}

theorem combine_decision_eq_deny_iff {permits forbids : List PolicyId}
    {errors : List PolicyFailure} :
    (combine permits forbids errors).decision = .deny ↔ forbids ≠ [] ∨ permits = [] := by
  by_cases hf : forbids = []
  · by_cases hp : permits = []
    · rw [hf, hp, combine_nil_nil]
      exact iff_of_true rfl (Or.inr rfl)
    · rw [hf, combine_of_permits hp]
      exact iff_of_false nofun fun h => h.elim (fun h => h rfl) hp
  · rw [combine_of_forbids hf]
    exact iff_of_true rfl (Or.inl hf)

theorem combine_decision_eq_allow_iff {permits forbids : List PolicyId}
    {errors : List PolicyFailure} :
    (combine permits forbids errors).decision = .allow ↔ forbids = [] ∧ permits ≠ [] := by
  have hdeny : (combine permits forbids errors).decision = .deny ↔ forbids ≠ [] ∨ permits = [] :=
    combine_decision_eq_deny_iff
  cases hd : (combine permits forbids errors).decision with
  | allow =>
    rw [hd] at hdeny
    refine iff_of_true rfl ?_
    have hnot := (not_congr hdeny).mp nofun
    rw [not_or, Decidable.not_not] at hnot
    exact hnot
  | deny =>
    refine iff_of_false nofun fun h => ?_
    rcases hdeny.mp hd with hf | hp
    · exact hf h.1
    · exact h.2 hp

/-- Errors have no part in what is decided and why. -/
theorem combine_congr (permits forbids : List PolicyId) (errors errors' : List PolicyFailure) :
    (combine permits forbids errors).decision = (combine permits forbids errors').decision ∧
      (combine permits forbids errors).reasons = (combine permits forbids errors').reasons := by
  unfold combine
  split
  · exact ⟨rfl, rfl⟩
  · split <;> exact ⟨rfl, rfl⟩

/-- A policy that is not satisfied, or has another effect, is no reason. -/
theorem satisfiedIds_insert_of_not
    (h : ¬ (p.template.effect = effect ∧ p.Satisfied request store)) :
    satisfiedIds effect request store (before ++ p :: after)
      = satisfiedIds effect request store (before ++ after) := by
  unfold satisfiedIds
  rw [← Policy.isSatisfiedWith_iff] at h
  rw [List.filter_append, List.filter_append, List.filter_cons_of_neg h]

theorem satisfiedIds_insert_ne_nil (h : satisfiedIds effect request store (before ++ after) ≠ []) :
    satisfiedIds effect request store (before ++ p :: after) ≠ [] := by
  have hsub : (before ++ after).Sublist (before ++ p :: after) :=
    List.Sublist.append_left (List.sublist_cons_self p after) before
  intro hnil
  refine h (List.sublist_nil.mp ?_)
  rw [← hnil]
  exact List.Sublist.map Policy.id (List.Sublist.filter _ hsub)

/-- The new policy adds no other error than its own, and takes none away. -/
theorem mem_failures_insert_iff (hp : p.Made) {f : PolicyFailure} :
    f ∈ failures request store (before ++ p :: after) ↔
      f ∈ failures request store (before ++ after) ∨
        p.id = f.policy ∧ p.FailsWith request store f.error := by
  unfold failures
  rw [← hp.failure?_eq_some_iff]
  simp only [List.mem_filterMap, List.mem_append, List.mem_cons]
  constructor
  · rintro ⟨q, hq | rfl | hq, hf⟩
    · exact Or.inl ⟨q, Or.inl hq, hf⟩
    · exact Or.inr hf
    · exact Or.inl ⟨q, Or.inr hq, hf⟩
  · rintro (⟨q, hq | hq, hf⟩ | hf)
    · exact ⟨q, Or.inl hq, hf⟩
    · exact ⟨q, Or.inr (Or.inr hq), hf⟩
    · exact ⟨p, Or.inr (Or.inl rfl), hf⟩

/-- What one policy more can change in an answer: the errors of no other policy; nothing but the
errors when it fails; a forbid does not turn deny into allow, and a permit does not turn allow
into deny. -/
structure Response.Extended (p : Policy) (request : Request) (store : EntityStore)
    (r r' : Response) : Prop where
  errors : ∀ f, f ∈ r'.errors ↔
    f ∈ r.errors ∨ p.id = f.policy ∧ p.FailsWith request store f.error
  of_failsWith : ∀ e, p.FailsWith request store e →
    r'.decision = r.decision ∧ r'.reasons = r.reasons
  of_forbid : p.template.effect = .forbid → r.decision = .deny → r'.decision = .deny
  of_permit : p.template.effect = .permit → r.decision = .allow → r'.decision = .allow

theorem Policy.Made.not_satisfied_of_failsWith (hp : p.Made) {e : EvalError}
    (h : p.FailsWith request store e) : ¬ p.Satisfied request store := by
  rw [← isSatisfied_eq_ok_iff, hp.isSatisfied_eq_error_iff.mpr h]
  exact nofun

theorem extended_respond (hp : p.Made) :
    (respond request store (before ++ after)).Extended p request store
      (respond request store (before ++ p :: after)) where
  errors := by
    intro f
    unfold respond
    rw [combine_errors, combine_errors]
    exact mem_failures_insert_iff hp
  of_failsWith := by
    intro e he
    have hnot := hp.not_satisfied_of_failsWith he
    unfold respond
    rw [satisfiedIds_insert_of_not fun h => hnot h.2, satisfiedIds_insert_of_not fun h => hnot h.2]
    exact combine_congr _ _ _ _
  of_forbid := by
    intro heffect h
    have hpermits : satisfiedIds .permit request store (before ++ p :: after)
        = satisfiedIds .permit request store (before ++ after) :=
      satisfiedIds_insert_of_not fun h => nomatch heffect.symm.trans h.1
    unfold respond at h ⊢
    rw [combine_decision_eq_deny_iff] at h ⊢
    rw [hpermits]
    exact h.imp_left satisfiedIds_insert_ne_nil
  of_permit := by
    intro heffect h
    have hforbids : satisfiedIds .forbid request store (before ++ p :: after)
        = satisfiedIds .forbid request store (before ++ after) :=
      satisfiedIds_insert_of_not fun h => nomatch heffect.symm.trans h.1
    unfold respond at h ⊢
    rw [combine_decision_eq_allow_iff] at h ⊢
    rw [hforbids]
    exact ⟨h.1, satisfiedIds_insert_ne_nil h.2⟩

end

/-! ## 5. Decisions -/

namespace PolicySet

variable {ps ps' : PolicySet} {p : Policy}

/-- Under the ids of others nothing changes. -/
theorem Adds.get?_of_ne (h : ps.Adds p ps') {id : PolicyId} (hid : id ≠ p.id) :
    ps'.get? id = ps.get? id := by
  unfold get?
  rw [h.links_eq.2]
  exact SortedMap.find?_insert_of_ne _ _ hid

theorem Adds.extended (h : ps.Adds p ps') {r : Response} (hr : authorize request ps store = .ok r) :
    ∃ r', authorize request ps' store = .ok r' ∧ r.Extended p request store r' := by
  obtain ⟨hstored, rfl⟩ := authorize_eq_ok_iff.mp hr
  obtain ⟨before, after, hps, hps'⟩ := h.exists_policies_eq_append
  refine ⟨_, authorize_eq_ok_iff.mpr ⟨hstored, rfl⟩, ?_⟩
  rw [hps, hps']
  exact extended_respond h.made

end PolicySet

end

/-- **The decision is the documented combination.**  A request is refused just when an entity that
it needs is not stored, and otherwise its answer is what the satisfied and the failing policies call
for.  A policy that is added under a new id changes neither the satisfaction nor the error of
another one, and the answer only as its effect allows. -/
theorem authorize_documented {ps : PolicySet} (hps : ps.Reachable) (request : Request)
    (store : EntityStore) :
    ((∃ u, authorize request ps store = .error u) ↔
        store.contains request.principal = false ∨ store.contains request.resource = false ∨
          store.declaresActions = true ∧ store.contains request.action = false) ∧
      (∀ r, authorize request ps store = .ok r → r.Documented ps request store) ∧
        ∀ p ps', ps.Adds p ps' →
          (∀ id, id ≠ p.id →
            (∀ effect, ps'.Satisfies request store effect id ↔
              ps.Satisfies request store effect id) ∧
            ∀ e, ps'.FailsWith request store id e ↔ ps.FailsWith request store id e) ∧
          (∀ u, authorize request ps store = .error u → authorize request ps' store = .error u) ∧
            ∀ r, authorize request ps store = .ok r →
              ∃ r', authorize request ps' store = .ok r' ∧ r.Extended p request store r' := by
  refine ⟨?_, ?_, ?_⟩
  · rw [exists_authorize_eq_error_iff]
    unfold Request.Stored
    simp only [Decidable.not_and_iff_not_or_not, Decidable.not_imp_iff_and_not, Bool.not_eq_true]
  · intro r hr
    obtain ⟨-, rfl⟩ := authorize_eq_ok_iff.mp hr
    exact hps.wellFormed.documented_respond request store
  · intro p ps' h
    refine ⟨?_, ?_, ?_⟩
    · intro id hid
      unfold PolicySet.Satisfies PolicySet.FailsWith
      rw [h.get?_of_ne hid]
      exact ⟨fun _ => Iff.rfl, fun _ => Iff.rfl⟩
    · intro u hu
      exact authorize_eq_error_iff.mpr (authorize_eq_error_iff.mp hu)
    · intro r hr
      exact h.extended hr

/-! A permit for everyone, and a forbid beside it that cannot be evaluated. -/

namespace OneUser

def alice : EntityUid := ⟨⟨"User"⟩, "alice"⟩

def store : EntityStore := ⟨[{ uid := alice }], false, by decide⟩

def request : Request where
  principal := alice
  action := ⟨⟨"Action"⟩, "view"⟩
  resource := alice

def openTemplate : Template := { id := ⟨"open"⟩, effect := .permit }

def openPolicy : Policy := ⟨openTemplate, none, .empty⟩

def brokenTemplate : Template where
  id := ⟨"broken"⟩
  effect := .forbid
  conditions := [⟨.when, .neg (.value (.long Int64.minValue))⟩]

def brokenPolicy : Policy := ⟨brokenTemplate, none, .empty⟩

def openPolicies : PolicySet :=
  ⟨.ofList [(openTemplate.id, openTemplate)], .ofList [(openTemplate.id, openPolicy)]⟩

def bothPolicies : PolicySet :=
  ⟨openPolicies.templates.insert brokenTemplate.id brokenTemplate,
    openPolicies.links.insert brokenTemplate.id brokenPolicy⟩

theorem reachable_openPolicies : openPolicies.Reachable :=
  PolicySet.reachable_empty.step
    (.policy (.addStatic (t := openTemplate) (p := openPolicy) rfl rfl))

theorem adds_brokenPolicy : openPolicies.Adds brokenPolicy bothPolicies :=
  .addStatic (t := brokenTemplate) rfl rfl

theorem authorize_documented_oneUser :
    openPolicies.Reachable ∧ openPolicies.Adds brokenPolicy bothPolicies ∧
      authorize request openPolicies store = .ok ⟨.allow, [⟨"open"⟩], []⟩ ∧
        Response.Documented openPolicies request store ⟨.allow, [⟨"open"⟩], []⟩ ∧
          ∃ r', authorize request bothPolicies store = .ok r' ∧
            Response.Extended brokenPolicy request store ⟨.allow, [⟨"open"⟩], []⟩ r' := by
  have hopen : authorize request openPolicies store = .ok ⟨.allow, [⟨"open"⟩], []⟩ := by rfl
  obtain ⟨-, hdocumented, hadds⟩ := authorize_documented reachable_openPolicies request store
  obtain ⟨-, -, hextended⟩ := hadds brokenPolicy bothPolicies adds_brokenPolicy
  exact ⟨reachable_openPolicies, adds_brokenPolicy, hopen, hdocumented _ hopen,
    hextended _ hopen⟩

end OneUser

end Arbiter
