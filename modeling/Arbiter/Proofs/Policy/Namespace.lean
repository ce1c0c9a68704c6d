/-
# The ids of templates and policies

An id can be that of a template and of a policy.  When the policy is always the static one of the
template, the two maps of a set have one namespace (`PolicySet.OneNamespace`).  `link` and
`addStatic` look at both maps and keep it so.  `add` and `addTemplate` do not: a template can take
the id of a policy, and a policy that is added can take that of a template, even of its own.

A history leaves one namespace exactly when each call of it that succeeds respects the ids of the
other map (`PolicySet.oneNamespace_after_iff`).  The set of a document always has one namespace
(`PolicySet.oneNamespace_of_ofJson`), so a set that has not is not read back as it was.
-/
import Arbiter.Proofs.Policy.Calls
import Arbiter.Proofs.Policy.Loading

namespace Arbiter

open Outcome

/-! ## 1. One namespace -/

/-- Whether a policy is the static one of a template. -/
def Policy.IsStaticOf (p : Policy) (t : Template) : Prop := p.isStatic = true ∧ p.template = t

theorem Policy.not_isStaticOf {p : Policy} (hlinked : p.isStatic = false) (t : Template) :
    ¬ p.IsStaticOf t := by
  rintro ⟨hstatic, -⟩
  rw [hlinked] at hstatic
  cases hstatic

namespace PolicySet

variable {s s' : PolicySet}

/-- An id of a template and a policy is that of a static policy and its template. -/
def OneNamespace (s : PolicySet) : Prop :=
  ∀ id t p, s.templates.find? id = some t → s.links.find? id = some p → p.IsStaticOf t

theorem oneNamespace_empty : OneNamespace .empty := by
  intro id t p ht
  cases ht

/-- In other words, no linked policy has the id of a template. -/
theorem WellFormed.oneNamespace_iff (hs : s.WellFormed) : s.OneNamespace ↔
    ∀ id p, s.links.find? id = some p → p.isStatic = false → s.templates.find? id = none := by
  constructor
  · intro hone id p hp hlinked
    rw [Option.eq_none_iff_forall_not_mem]
    intro t ht
    exact Policy.not_isStaticOf hlinked t (hone id t p ht hp)
  · intro hlinked id t p ht hp
    cases hstatic : p.isStatic with
    | false =>
      rw [hlinked id p hp hstatic] at ht
      cases ht
    | true =>
      refine ⟨hstatic, ?_⟩
      obtain ⟨-, hid⟩ := hs.consistent.static hp hstatic
      have hfound := hs.template hp
      rw [hid, hs.policy_id hp, ht] at hfound
      exact (Option.some.inj hfound).symm

/-- **The set of a document has one namespace.** -/
theorem oneNamespace_of_ofJson {j : Json} (h : ofJson j.sorted = .ok s) : s.OneNamespace := by
  have hs := Loaded.of_ofJson (Json.isSorted_sorted j) h
  exact hs.wellFormed.oneNamespace_iff.mpr fun _ _ => hs.linked

/-- What is new is compared with the other map as it was, and with what else is new. -/
theorem Gains.oneNamespace_iff {ts : List Template} {ps : List Policy} (h : s.Gains s' ts ps) :
    s'.OneNamespace ↔ s.OneNamespace ∧
      (∀ t ∈ ts, ∀ p, s.links.find? t.id = some p → p.IsStaticOf t) ∧
      (∀ p ∈ ps, ∀ t, s.templates.find? p.id = some t → p.IsStaticOf t) ∧
      (∀ t ∈ ts, ∀ p ∈ ps, p.id = t.id → p.IsStaticOf t) := by
  constructor
  · intro hs'
    refine ⟨?_, ?_, ?_, ?_⟩
    · intro id t p ht hp
      exact hs' id t p (h.templates.mpr (Or.inl ht)) (h.links.mpr (Or.inl hp))
    · intro t ht p hp
      exact hs' t.id t p (h.templates.mpr (Or.inr ⟨ht, rfl⟩)) (h.links.mpr (Or.inl hp))
    · intro p hp t ht
      exact hs' p.id t p (h.templates.mpr (Or.inl ht)) (h.links.mpr (Or.inr ⟨hp, rfl⟩))
    · intro t ht p hp hid
      exact hs' t.id t p (h.templates.mpr (Or.inr ⟨ht, rfl⟩)) (h.links.mpr (Or.inr ⟨hp, hid⟩))
  · rintro ⟨hs, hnewTemplates, hnewPolicies, hboth⟩ id t p ht hp
    rcases h.templates.mp ht with ht | ⟨hnew, rfl⟩
    · rcases h.links.mp hp with hp | ⟨hnew, rfl⟩
      · exact hs id t p ht hp
      · exact hnewPolicies p hnew t ht
    · rcases h.links.mp hp with hp | ⟨hnew', hid⟩
      · exact hnewTemplates t hnew p hp
      · exact hboth t hnew p hnew' hid

/-- A policy under the id of a template that is not there is not the static one of it. -/
theorem WellFormed.not_isStaticOf (hs : s.WellFormed) {t : Template} {id : PolicyId} {p : Policy}
    (ht : s.templates.find? t.id = none) (hp : s.links.find? id = some p) : ¬ p.IsStaticOf t := by
  rintro ⟨-, rfl⟩
  have hfound := hs.template hp
  rw [ht] at hfound
  cases hfound

theorem WellFormed.forall_isStaticOf_iff (hs : s.WellFormed) {t : Template}
    (ht : s.templates.find? t.id = none) :
    (∀ p, s.links.find? t.id = some p → p.IsStaticOf t) ↔ s.links.find? t.id = none := by
  rw [Option.eq_none_iff_forall_not_mem]
  refine forall_congr' fun p => ?_
  constructor
  · intro h hp
    exact hs.not_isStaticOf ht hp (h hp)
  · intro h hp
    exact absurd hp h

end PolicySet

/-! ## 2. Calls that respect the other map -/

namespace Call

variable {c : Call} {s s' : PolicySet}

/-- Whether a call goes on from the set that is there. -/
def GoesOn : Call → Prop
  | .ofPolicies _ => False
  | .add _ | .addStatic _ | .addTemplate _ | .link _ _ _ => True

/-- A template that is new is not given the id of a policy, and a linked policy not that of a
template. -/
def Respects (s : PolicySet) : Call → Prop
  | .add p =>
    (s.templates.find? p.template.id = none → s.links.find? p.template.id = none) ∧
      (p.isStatic = false → s.templates.find? p.id = none ∧ p.id ≠ p.template.id)
  | .addTemplate t => s.links.find? t.id = none
  | .addStatic _ | .link _ _ _ | .ofPolicies _ => True

instance : Decidable (c.Respects s) :=
  match c with
  | .add p => inferInstanceAs (Decidable (
      (s.templates.find? p.template.id = none → s.links.find? p.template.id = none) ∧
        (p.isStatic = false → s.templates.find? p.id = none ∧ p.id ≠ p.template.id)))
  | .addTemplate t => inferInstanceAs (Decidable (s.links.find? t.id = none))
  | .addStatic _ | .link _ _ _ | .ofPolicies _ => inferInstanceAs (Decidable True)

/-- A policy is added: its template is there already, or is new as well. -/
theorem oneNamespace_add_iff {p : Policy} (hs : s.WellFormed) (hp : p.Made)
    (h : s.add p = .ok s') :
    s'.OneNamespace ↔ s.OneNamespace ∧ (Call.add p).Respects s := by
  have hgains := PolicySet.gains_add h
  have hsame : ∀ {t}, s.templates.find? p.template.id = some t → t = p.template := by
    intro t ht
    have hold := hgains.templates.mpr (Or.inl ht)
    have hnew := hgains.templates.mpr (Or.inr ⟨List.mem_singleton_self p.template, rfl⟩)
    rw [hold] at hnew
    exact Option.some.inj hnew
  rw [hgains.oneNamespace_iff]
  simp only [List.forall_mem_singleton]
  refine and_congr_right fun hone => and_congr ?_ ?_
  -- a template that is there already was compared with the policies before
  · cases ht : s.templates.find? p.template.id with
    | none =>
      rw [hs.forall_isStaticOf_iff ht]
      exact ⟨fun hfresh _ => hfresh, fun hfresh => hfresh rfl⟩
    | some t =>
      obtain rfl := hsame ht
      exact iff_of_true (fun q hq => hone _ _ q ht hq) nofun
  -- a static policy has the id of its template, so both stand under one id
  · cases hstatic : p.isStatic with
    | false =>
      simp only [Policy.not_isStaticOf hstatic, imp_false, forall_const,
        Option.eq_none_iff_forall_not_mem, Option.mem_def]
    | true =>
      obtain ⟨-, hstaticOf⟩ := Policy.newStatic_eq_ok_iff.mp (hp.newStatic_template hstatic)
      have hid : p.id = p.template.id := by
        rw [hstaticOf]
        rfl
      rw [hid]
      exact iff_of_true ⟨fun t ht => ⟨hstatic, (hsame ht).symm⟩, fun _ => ⟨hstatic, rfl⟩⟩ nofun

/-- **A call that succeeds keeps one namespace exactly if it respects the other map.** -/
theorem oneNamespace_result_iff (hs : s.WellFormed) (hc : c.Made) (hgoes : c.GoesOn)
    (h : c.result s = .ok s') : s'.OneNamespace ↔ s.OneNamespace ∧ c.Respects s := by
  cases c with
  | add p => exact oneNamespace_add_iff hs hc h
  | addStatic t =>
    obtain ⟨-, -, ht, hlink, -⟩ := PolicySet.addStatic_eq_ok h
    have hstatic : (⟨t, none, .empty⟩ : Policy).IsStaticOf t := ⟨rfl, rfl⟩
    have hid : (⟨t, none, .empty⟩ : Policy).id = t.id := rfl
    rw [(brings_result h).oneNamespace_iff]
    simp [Respects, hid, ht, hlink, hstatic]
  | addTemplate t =>
    obtain ⟨ht, -⟩ := PolicySet.addTemplate_eq_ok h
    rw [(brings_result h).oneNamespace_iff]
    simp [Respects, hs.forall_isStaticOf_iff ht]
  | link template id values =>
    obtain ⟨⟨p, s''⟩, hlink, rfl⟩ := map_eq_ok_iff.mp h
    obtain ⟨-, -, -, -, hfresh, -⟩ := PolicySet.link_eq_ok hlink
    obtain ⟨t, -, hgains⟩ := brings_result h
    have hid : (⟨t, some id, values⟩ : Policy).id = id := rfl
    rw [hgains.oneNamespace_iff]
    simp [Respects, hid, hfresh]
  | ofPolicies ps => cases hgoes

end Call

/-! ## 3. Histories -/

namespace PolicySet

variable {s : PolicySet} {calls : List Call}

/-- Whether each call of a history that succeeds respects the other map of the set that it meets. -/
def IdsRespected (s : PolicySet) : List Call → Prop
  | [] => True
  | c :: calls =>
    ((c.edit.on s).1 = .ok () → c.Respects s) ∧ IdsRespected (c.edit.on s).2 calls

instance decidableIdsRespected : (s : PolicySet) → (calls : List Call) →
    Decidable (s.IdsRespected calls)
  | _, [] => inferInstanceAs (Decidable True)
  | s, c :: calls =>
    have := decidableIdsRespected (c.edit.on s).2 calls
    inferInstanceAs (Decidable (((c.edit.on s).1 = .ok () → c.Respects s)
      ∧ IdsRespected (c.edit.on s).2 calls))

/-- One call, whether it fails or not. -/
theorem oneNamespace_on_edit_iff {c : Call} (hs : s.WellFormed) (hc : c.Made) (hgoes : c.GoesOn) :
    (c.edit.on s).2.OneNamespace ↔
      s.OneNamespace ∧ ((c.edit.on s).1 = .ok () → c.Respects s) := by
  cases h : (c.edit.on s).1 with
  | error cause =>
    rw [Call.on_edit_of_error h]
    exact (and_iff_left nofun).symm
  | ok _ =>
    rw [Call.oneNamespace_result_iff hs hc hgoes (Call.on_edit_of_ok h)]
    simp

/-- What a history makes of a set has one namespace exactly if that set has and each call that
succeeds respects the other map. -/
theorem oneNamespace_foldl_iff (hs : s.Reachable) (h : ∀ c ∈ calls, c.Made ∧ c.GoesOn) :
    (calls.foldl (fun s c => (c.edit.on s).2) s).OneNamespace ↔
      s.OneNamespace ∧ s.IdsRespected calls := by
  induction calls generalizing s with
  | nil => exact (and_iff_left trivial).symm
  | cons c calls ih =>
    obtain ⟨⟨hc, hgoes⟩, hcalls⟩ := List.forall_mem_cons.mp h
    rw [List.foldl_cons, ih (Call.reachable_on_edit hs hc) hcalls,
      oneNamespace_on_edit_iff hs.wellFormed hc hgoes, and_assoc, IdsRespected]

/-- **A history leaves one namespace exactly if each call of it that succeeds respects the other
map.** -/
theorem oneNamespace_after_iff (h : ∀ c ∈ calls, c.Made ∧ c.GoesOn) :
    (after calls).OneNamespace ↔ IdsRespected .empty calls := by
  rw [after, oneNamespace_foldl_iff reachable_empty h, and_iff_right oneNamespace_empty]

end PolicySet

/-! ## 4. Ids that are taken -/

namespace History

theorem goesOn_calls : ∀ c ∈ calls, c.Made ∧ c.GoesOn := by
  intro c hc
  refine ⟨made_calls c hc, ?_⟩
  simp only [calls, List.mem_cons, List.not_mem_nil, or_false] at hc
  rcases hc with rfl | rfl | rfl | rfl | rfl | rfl | rfl <;> trivial

/-- The history with failures leaves one namespace. -/
theorem oneNamespace_calls :
    (∀ c ∈ calls, c.Made ∧ c.GoesOn) ∧ (PolicySet.after calls).OneNamespace :=
  ⟨goesOn_calls, (PolicySet.oneNamespace_after_iff goesOn_calls).mpr (by decide +kernel)⟩

/-- A template is given the id of a linked policy. -/
def late : List Call :=
  [.addTemplate share, .link share.id ⟨"alice"⟩ values, .addTemplate { badges with id := ⟨"alice"⟩ }]

/-- A linked policy is added under the id of its template. -/
def own : List Call := [.add ⟨share, some share.id, values⟩]

/-- Neither history leaves one namespace, though each of the calls succeeds. -/
theorem not_oneNamespace_late : (∀ c ∈ late ++ own, c.Made ∧ c.GoesOn) ∧
    ¬ (PolicySet.after late).OneNamespace ∧ ¬ (PolicySet.after own).OneNamespace := by
  have hlink : Policy.ofLink share share.id values = .ok ⟨share, some share.id, values⟩ := rfl
  refine ⟨?_, ?_, ?_⟩
  · simp only [late, own, List.cons_append, List.nil_append, List.forall_mem_cons, Call.Made,
      Call.GoesOn, true_and, and_true]
    exact ⟨.link hlink, List.forall_mem_nil _⟩
  · intro h
    obtain ⟨hstatic, -⟩ := h ⟨"alice"⟩ { badges with id := ⟨"alice"⟩ }
      ⟨share, some ⟨"alice"⟩, values⟩ (by decide +kernel) (by decide +kernel)
    cases hstatic
  · intro h
    obtain ⟨hstatic, -⟩ := h share.id share ⟨share, some share.id, values⟩
      (by decide +kernel) (by decide +kernel)
    cases hstatic

end History

end Arbiter
