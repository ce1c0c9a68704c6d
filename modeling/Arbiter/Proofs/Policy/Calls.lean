/-
# Histories of calls

What a history of calls leaves behind, failed calls included, is a reachable set
(`PolicySet.reachable_after`), since a failed call leaves the set as it is.  So templates and policies
stand under their own ids, each policy with a template of the set and values for just its slots
(`PolicySet.Consistent`).  A call that succeeds brings its policies and templates and changes nothing
else (`Call.Brings`).  Together with what this means for decisions and listings this is
`PolicySet.consistent_after`.
-/
import Arbiter.Proofs.Authorization.Linked
import Arbiter.Proofs.Policy.Edit

namespace Arbiter

open Outcome

/-! ## 1. Calls -/

namespace Call

variable {c : Call} {s s' : PolicySet}

/-- The policies of a call are made of templates. -/
def Made : Call → Prop
  | .add p => p.Made
  | .ofPolicies ps => ∀ p ∈ ps, p.Made
  | .addStatic _ | .addTemplate _ | .link _ _ _ => True

/-- A call that fails leaves the set as it is. -/
theorem on_edit_of_error {cause : PolicySetError} (h : (c.edit.on s).1 = .error cause) :
    (c.edit.on s).2 = s := by
  rw [on_edit] at h ⊢
  cases hresult : c.result s with
  | error cause => rfl
  | ok s' =>
    rw [hresult] at h
    cases h

/-- A call that succeeds leaves its result behind. -/
theorem on_edit_of_ok (h : (c.edit.on s).1 = .ok ()) : c.result s = .ok (c.edit.on s).2 := by
  rw [on_edit] at h ⊢
  cases hresult : c.result s with
  | error cause =>
    rw [hresult] at h
    cases h
  | ok s' => rfl

/-- The result of a call is reachable. -/
theorem reachable_result (hs : s.Reachable) (hc : c.Made) (h : c.result s = .ok s') :
    s'.Reachable := by
  cases c with
  | add p => exact hs.step (.policy (.add hc h))
  | addStatic t =>
    obtain ⟨p, hp, -⟩ := PolicySet.addStatic_eq_ok h
    exact hs.step (.policy (.addStatic hp h))
  | addTemplate t => exact hs.step (.template h)
  | link template id values =>
    obtain ⟨⟨p, _⟩, hlink, rfl⟩ := map_eq_ok_iff.mp h
    exact hs.step (.policy (.link hlink))
  | ofPolicies ps =>
    exact foldlM_invariant (fun p hp _ _ hs h => hs.step (.policy (.add (hc p hp) h)))
      PolicySet.reachable_empty h

theorem reachable_on_edit (hs : s.Reachable) (hc : c.Made) : (c.edit.on s).2.Reachable := by
  cases h : (c.edit.on s).1 with
  | error cause =>
    rw [on_edit_of_error h]
    exact hs
  | ok _ => exact reachable_result hs hc (on_edit_of_ok h)

end Call

theorem PolicySet.Reachable.foldl_on_edit {s : PolicySet} {calls : List Call} (hs : s.Reachable)
    (h : ∀ c ∈ calls, c.Made) : (calls.foldl (fun s c => (c.edit.on s).2) s).Reachable := by
  induction calls generalizing s with
  | nil => exact hs
  | cons c calls ih =>
    obtain ⟨hc, hcalls⟩ := List.forall_mem_cons.mp h
    exact ih (Call.reachable_on_edit hs hc) hcalls

/-- **What a history of calls leaves behind is reachable.** -/
theorem PolicySet.reachable_after {calls : List Call} (h : ∀ c ∈ calls, c.Made) :
    (after calls).Reachable :=
  reachable_empty.foldl_on_edit h

/-! ## 2. What a call brings -/

/-- A set with further templates and policies: they stand under their ids, the policies under new
ones, and everything else is as before. -/
structure PolicySet.Gains (s s' : PolicySet) (ts : List Template) (ps : List Policy) : Prop where
  templates : ∀ {id t}, s'.templates.find? id = some t ↔
    s.templates.find? id = some t ∨ t ∈ ts ∧ t.id = id
  links : ∀ {id p}, s'.links.find? id = some p ↔
    s.links.find? id = some p ∨ p ∈ ps ∧ p.id = id
  fresh : ∀ p ∈ ps, s.links.find? p.id = none

namespace PolicySet

variable {s s' s'' : PolicySet} {p : Policy} {t : Template}

theorem Gains.refl (s : PolicySet) : s.Gains s [] [] where
  templates := by simp
  links := by simp
  fresh := List.forall_mem_nil _

theorem Gains.trans {ts ts' : List Template} {ps ps' : List Policy} (h : s.Gains s' ts ps)
    (h' : s'.Gains s'' ts' ps') : s.Gains s'' (ts ++ ts') (ps ++ ps') where
  templates := by
    intro id t
    rw [h'.templates, h.templates, List.mem_append, or_and_right, or_assoc]
  links := by
    intro id p
    rw [h'.links, h.links, List.mem_append, or_and_right, or_assoc]
  fresh := by
    intro p hp
    rcases List.mem_append.mp hp with hp | hp
    · exact h.fresh p hp
    · cases hfind : s.links.find? p.id with
      | none => rfl
      | some q =>
        have hfresh := h'.fresh p hp
        rw [h.links.mpr (Or.inl hfind)] at hfresh
        cases hfresh

theorem gains_template (hfresh : s.templates.find? t.id = none) :
    s.Gains { s with templates := s.templates.insert t.id t } [t] [] where
  templates := by
    intro id t'
    rw [SortedMap.find?_insert_eq_some_iff hfresh, List.mem_singleton]
    refine or_congr_right (and_congr_right ?_)
    rintro rfl
    rfl
  links := by simp
  fresh := List.forall_mem_nil _

theorem gains_policy (hfresh : s.links.find? p.id = none) :
    s.Gains { s with links := s.links.insert p.id p } [] [p] where
  templates := by simp
  links := by
    intro id p'
    rw [SortedMap.find?_insert_eq_some_iff hfresh, List.mem_singleton]
    refine or_congr_right (and_congr_right ?_)
    rintro rfl
    rfl
  fresh := by
    intro p' hp'
    rw [List.mem_singleton.mp hp']
    exact hfresh

theorem gains_both (ht : s.templates.find? t.id = none) (hp : s.links.find? p.id = none) :
    s.Gains ⟨s.templates.insert t.id t, s.links.insert p.id p⟩ [t] [p] :=
  (gains_template ht).trans (gains_policy hp)

theorem gains_add (h : s.add p = .ok s') : s.Gains s' [p.template] [p] := by
  obtain ⟨templates, links⟩ := s'
  obtain ⟨hfresh, hlinks, ⟨hfound, htemplates⟩ | ⟨hnone, htemplates⟩⟩ := add_eq_ok h
  · cases hlinks
    cases htemplates
    have hgains := gains_policy hfresh
    refine ⟨?_, hgains.links, hgains.fresh⟩
    intro id t
    rw [List.mem_singleton]
    constructor
    · exact Or.inl
    · rintro (ht | ⟨rfl, rfl⟩)
      · exact ht
      · exact hfound
  · cases hlinks
    cases htemplates
    exact gains_both hnone hfresh

theorem gains_foldlM_add : ∀ {ps : List Policy} {s s' : PolicySet},
    ps.foldlM add s = .ok s' → s.Gains s' (ps.map Policy.template) ps
  | [], s, _, h => by
    cases h
    exact Gains.refl s
  | p :: ps, s, s', h => by
    rw [List.foldlM_cons, bind_eq_ok_iff] at h
    obtain ⟨s₁, hp, hps⟩ := h
    exact (gains_add hp).trans (gains_foldlM_add hps)

end PolicySet

namespace Call

/-- What a call brings when it succeeds; a set that is made anew is compared with the set of
nothing. -/
def Brings (s s' : PolicySet) : Call → Prop
  | .add p => s.Gains s' [p.template] [p]
  | .addStatic t => s.Gains s' [t] [⟨t, none, .empty⟩]
  | .addTemplate t => s.Gains s' [t] []
  | .link template id values =>
    ∃ t, s.templates.find? template = some t ∧ s.Gains s' [] [⟨t, some id, values⟩]
  | .ofPolicies ps => PolicySet.empty.Gains s' (ps.map Policy.template) ps

/-- **A call that succeeds brings its policies and templates and changes nothing else.** -/
theorem brings_result {c : Call} {s s' : PolicySet} (h : c.result s = .ok s') :
    c.Brings s s' := by
  cases c with
  | add p => exact PolicySet.gains_add h
  | addStatic t =>
    obtain ⟨p, hp, ht, hfresh, rfl⟩ := PolicySet.addStatic_eq_ok h
    obtain ⟨-, rfl⟩ := Policy.newStatic_eq_ok_iff.mp hp
    exact PolicySet.gains_both (p := ⟨t, none, .empty⟩) ht hfresh
  | addTemplate t =>
    obtain ⟨hfresh, rfl⟩ := PolicySet.addTemplate_eq_ok h
    exact PolicySet.gains_template hfresh
  | link template id values =>
    obtain ⟨⟨p, _⟩, hlink, rfl⟩ := map_eq_ok_iff.mp h
    obtain ⟨t, ht, hp, hfresh, -, rfl⟩ := PolicySet.link_eq_ok hlink
    obtain ⟨-, rfl⟩ := Policy.ofLink_eq_ok_iff.mp hp
    exact ⟨t, ht, PolicySet.gains_policy (p := ⟨t, some id, values⟩) hfresh⟩
  | ofPolicies ps => exact PolicySet.gains_foldlM_add h

end Call

/-! ## 3. The sets of histories -/

/-- Templates and policies stand under their own ids, each policy has a template of the set and
values for just its slots, and a static one is a template without slots under its id. -/
structure PolicySet.Consistent (s : PolicySet) : Prop where
  template_id : ∀ {id t}, s.templates.find? id = some t → t.id = id
  policy_id : ∀ {id p}, s.links.find? id = some p → p.id = id
  template : ∀ {id p}, s.links.find? id = some p →
    s.templates.find? p.template.id = some p.template
  values : ∀ {id p}, s.links.find? id = some p → p.values.keys = p.template.slots.toList
  static : ∀ {id p}, s.links.find? id = some p → p.isStatic = true →
    p.template.hasSlots = false ∧ p.template.id = p.id

theorem PolicySet.WellFormed.consistent {s : PolicySet} (hs : s.WellFormed) : s.Consistent where
  template_id := hs.template_id
  policy_id := hs.policy_id
  template := hs.template
  values h := (hs.made h).keys_eq
  static h hstatic := by
    obtain ⟨hslots, hp⟩ := Policy.newStatic_eq_ok_iff.mp ((hs.made h).newStatic_template hstatic)
    refine ⟨hslots, ?_⟩
    rw [hp]
    rfl

/-- **Whatever is called, the set stays consistent, and a call that fails leaves it as it is.**  So the
references of every scope have entities, and neither a decision nor a listing ever meets a slot
without a value. -/
theorem PolicySet.consistent_after {calls : List Call} (h : ∀ c ∈ calls, c.Made) :
    (after calls).Consistent ∧
      (∀ (c : Call) (cause : PolicySetError), (c.edit.on (after calls)).1 = .error cause →
        (c.edit.on (after calls)).2 = after calls) ∧
      (∀ c : Call, (c.edit.on (after calls)).1 = .ok () →
        c.Brings (after calls) (c.edit.on (after calls)).2) ∧
      (∀ p ∈ (after calls).policies, ∀ r,
        p.template.principal.ref? = some r ∨ p.template.resource.ref? = some r →
          ∃ u, p.resolve r = .ok u) ∧
      (∀ request store response, authorize request (after calls) store = .ok response →
        ∀ f ∈ response.errors, ∀ slot, f.error ≠ .unlinkedSlot slot) ∧
      (∀ p ∈ (after calls).policies, ∀ store principal (filter : EffectFilter),
        filter.admits p.template.effect = true →
          (∃ m ∈ (after calls).matchesFor store principal filter, m.policy = p.id) ∨
            p.principalMatch store principal = .ok none) := by
  have hwell : (after calls).WellFormed := (reachable_after h).wellFormed
  refine ⟨hwell.consistent, ?_, ?_, ?_, ?_, ?_⟩
  · intro c cause
    exact Call.on_edit_of_error
  · intro c hc
    exact Call.brings_result (Call.on_edit_of_ok hc)
  · intro p hp r hr
    exact (hwell.made_of_mem hp).exists_resolve hr
  · intro request store response hresponse
    exact hwell.noSlotError_of_authorize hresponse
  · intro p hp store principal filter heffect
    exact hwell.listed_or_unmatched hp store principal heffect

/-! ## 4. A history with failures -/

namespace History

def share : Template where
  id := ⟨"share"⟩
  effect := .permit
  principal := .eq (.slot .principal)

def badges : Template where
  id := ⟨"badges"⟩
  effect := .forbid
  conditions := [⟨.unless, .hasAttr (.var .context) "badge"⟩]

def values : SlotValues := .ofList [(.principal, OneUser.alice)]

/-- A template is linked, twice under one id and once without a value for its slot, and is no static
policy; the body of a static policy is linked too. -/
def calls : List Call := [.addTemplate share, .link share.id ⟨"alice"⟩ values,
  .link share.id ⟨"alice"⟩ values, .link share.id ⟨"bob"⟩ .empty, .addStatic share,
  .addStatic badges, .add ⟨badges, some ⟨"extra"⟩, .empty⟩]

/-- What the four calls bring that succeed. -/
def kept : PolicySet where
  templates := .ofList [(badges.id, badges), (share.id, share)]
  links := .ofList [(⟨"alice"⟩, ⟨share, some ⟨"alice"⟩, values⟩),
    (badges.id, ⟨badges, none, .empty⟩), (⟨"extra"⟩, ⟨badges, some ⟨"extra"⟩, .empty⟩)]

theorem after_calls : PolicySet.after calls = kept := by decide +kernel

theorem made_calls : ∀ c ∈ calls, c.Made := by
  have hlink : Policy.ofLink badges ⟨"extra"⟩ .empty = .ok ⟨badges, some ⟨"extra"⟩, .empty⟩ := rfl
  simp only [calls, List.forall_mem_cons, Call.Made, true_and]
  exact ⟨.link hlink, List.forall_mem_nil _⟩

/-- The set is consistent, and one more call that fails leaves it as it is. -/
theorem consistent_kept : (∀ c ∈ calls, c.Made) ∧ PolicySet.after calls = kept ∧ kept.Consistent ∧
    ((Call.addStatic share).edit.on kept).2 = kept := by
  have hkept := PolicySet.consistent_after made_calls
  rw [after_calls] at hkept
  obtain ⟨hconsistent, hfailing, -⟩ := hkept
  exact ⟨made_calls, after_calls, hconsistent, hfailing _ (.duplicateId ⟨"share"⟩) rfl⟩

end History

end Arbiter
