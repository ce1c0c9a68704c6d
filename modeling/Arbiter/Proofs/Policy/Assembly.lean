/-
# The order of assembly does not matter

Whether policies can be put together, and what they make, is said without their order.  Policies go
together when their ids are new and distinct and one id stands for one template
(`PolicySet.Accepts`); templates, each a policy by itself when it has no slots, when their ids are
(`PolicySet.Receives`).  The set that comes out is the one that gains just them
(`foldlM_add_eq_ok_iff`, `foldlM_enter_eq_ok_iff`).  Both conditions speak of members of a list, so
a permutation of the list changes neither (`assembly_of_perm`).

The bodies in a list have to name their ids.  A body that does not goes by its place, which is what
a permutation changes.
-/
import Arbiter.Proofs.Policy.Calls
import Arbiter.Proofs.Policy.Loading
import Mathlib.Data.List.Perm.Basic

namespace Arbiter

open Outcome

/-- The policy that a template is by itself: there is one when it has no slots. -/
def Template.ownPolicies (t : Template) : List Policy :=
  if t.hasSlots then [] else [⟨t, none, .empty⟩]

theorem Template.id_of_mem_ownPolicies {t : Template} {p : Policy} (h : p ∈ t.ownPolicies) :
    p.id = t.id := by
  unfold ownPolicies at h
  split at h
  · cases h
  · rw [List.mem_singleton.mp h]
    rfl

namespace PolicySet

variable {s s' s₁ s₂ : PolicySet} {p : Policy} {t : Template} {ps ps' : List Policy}
  {ts ts' : List Template}

/-! ## 1. Gains without an order -/

namespace Gains

/-- Only the members of the two lists count. -/
theorem congr (h : s.Gains s' ts ps) (hts : ∀ t, t ∈ ts ↔ t ∈ ts') (hps : ∀ p, p ∈ ps ↔ p ∈ ps') :
    s.Gains s' ts' ps' where
  templates := by
    intro id t
    rw [h.templates, hts]
  links := by
    intro id p
    rw [h.links, hps]
  fresh := by
    intro p hp
    exact h.fresh p ((hps p).mpr hp)

/-- What is gained determines the set. -/
theorem unique (h₁ : s.Gains s₁ ts ps) (h₂ : s.Gains s₂ ts ps) : s₁ = s₂ := by
  obtain ⟨templates₁, links₁⟩ := s₁
  obtain ⟨templates₂, links₂⟩ := s₂
  have htemplates : templates₁ = templates₂ := by
    refine SortedMap.eq_of_find?_eq fun id => Option.ext fun t => ?_
    exact h₁.templates.trans h₂.templates.symm
  have hlinks : links₁ = links₂ := by
    refine SortedMap.eq_of_find?_eq fun id => Option.ext fun p => ?_
    exact h₁.links.trans h₂.links.symm
  rw [htemplates, hlinks]

theorem template_eq_none_iff (h : s.Gains s' ts ps) {id : PolicyId} :
    s'.templates.find? id = none ↔ s.templates.find? id = none ∧ ∀ t ∈ ts, t.id ≠ id := by
  simp only [Option.eq_none_iff_forall_ne_some, ne_eq, h.templates, not_or, not_and, forall_and]

theorem link_eq_none_iff (h : s.Gains s' ts ps) {id : PolicyId} :
    s'.links.find? id = none ↔ s.links.find? id = none ∧ ∀ p ∈ ps, p.id ≠ id := by
  simp only [Option.eq_none_iff_forall_ne_some, ne_eq, h.links, not_or, not_and, forall_and]

end Gains

/-! ## 2. Policies -/

/-- Policies that go together, and with the set: their ids are new and distinct, and an id that
several of them, or the set, have a template for stands for one template. -/
structure Accepts (s : PolicySet) (ps : List Policy) : Prop where
  ids : (ps.map Policy.id).Nodup
  fresh : ∀ p ∈ ps, s.links.find? p.id = none
  known : ∀ p ∈ ps, ∀ t, s.templates.find? p.template.id = some t → t = p.template
  shared : ∀ p ∈ ps, ∀ q ∈ ps, p.template.id = q.template.id → p.template = q.template

theorem Accepts.perm (h : s.Accepts ps) (hperm : ps.Perm ps') : s.Accepts ps' where
  ids := (hperm.map Policy.id).nodup h.ids
  fresh p hp := h.fresh p (hperm.mem_iff.mpr hp)
  known p hp := h.known p (hperm.mem_iff.mpr hp)
  shared p hp q hq := h.shared p (hperm.mem_iff.mpr hp) q (hperm.mem_iff.mpr hq)

theorem accepts_nil (s : PolicySet) : s.Accepts [] where
  ids := List.nodup_nil
  fresh := List.forall_mem_nil _
  known := List.forall_mem_nil _
  shared := List.forall_mem_nil _

/-- One policy is added when its id is new and its template is not in conflict with the set. -/
theorem exists_add_iff : (∃ s', s.add p = .ok s') ↔ s.links.find? p.id = none ∧
    ∀ t, s.templates.find? p.template.id = some t → t = p.template := by
  constructor
  · rintro ⟨s', h⟩
    obtain ⟨hfresh, -, ⟨hfound, -⟩ | ⟨hnone, -⟩⟩ := add_eq_ok h
    · refine ⟨hfresh, ?_⟩
      intro t ht
      rw [hfound] at ht
      exact (Option.some.inj ht).symm
    · refine ⟨hfresh, ?_⟩
      intro t ht
      rw [hnone] at ht
      cases ht
  · rintro ⟨hfresh, hknown⟩
    have hcontains : s.links.contains p.id = false := SortedMap.contains_eq_false_iff.mpr hfresh
    cases hfind : s.templates.find? p.template.id with
    | none => simp [add, hfind, hcontains]
    | some t =>
      obtain rfl := hknown t hfind
      simp [add, hfind, hcontains]

/-- The first policy is added, and the set with it accepts the rest. -/
theorem accepts_cons : s.Accepts (p :: ps) ↔ ∃ s', s.add p = .ok s' ∧ s'.Accepts ps := by
  constructor
  · rintro ⟨hids, hfresh, hknown, hshared⟩
    obtain ⟨hid, hids⟩ := List.nodup_cons.mp hids
    obtain ⟨s', hadd⟩ := exists_add_iff.mpr
      ⟨hfresh p List.mem_cons_self, hknown p List.mem_cons_self⟩
    have hgains := gains_add hadd
    refine ⟨s', hadd, hids, ?_, ?_, ?_⟩
    · intro q hq
      refine hgains.link_eq_none_iff.mpr ⟨hfresh q (List.mem_cons_of_mem p hq), ?_⟩
      intro p' hp' heq
      rw [List.mem_singleton.mp hp'] at heq
      exact hid (heq ▸ List.mem_map_of_mem hq)
    · intro q hq t ht
      rcases hgains.templates.mp ht with ht | ⟨ht, heq⟩
      · exact hknown q (List.mem_cons_of_mem p hq) t ht
      · rw [List.mem_singleton.mp ht] at heq ⊢
        exact hshared p List.mem_cons_self q (List.mem_cons_of_mem p hq) heq
    · intro q hq q' hq'
      exact hshared q (List.mem_cons_of_mem p hq) q' (List.mem_cons_of_mem p hq')
  · rintro ⟨s', hadd, hids, hfresh, hknown, hshared⟩
    have hgains := gains_add hadd
    obtain ⟨hp, hpknown⟩ := exists_add_iff.mp ⟨s', hadd⟩
    have hfirst : s'.templates.find? p.template.id = some p.template :=
      hgains.templates.mpr (Or.inr ⟨List.mem_singleton_self _, rfl⟩)
    constructor
    · refine List.nodup_cons.mpr ⟨?_, hids⟩
      intro hmem
      obtain ⟨q, hq, heq⟩ := List.mem_map.mp hmem
      exact (hgains.link_eq_none_iff.mp (hfresh q hq)).2 p (List.mem_singleton_self p) heq.symm
    · refine List.forall_mem_cons.mpr ⟨hp, ?_⟩
      intro q hq
      exact (hgains.link_eq_none_iff.mp (hfresh q hq)).1
    · refine List.forall_mem_cons.mpr ⟨hpknown, ?_⟩
      intro q hq t ht
      exact hknown q hq t (hgains.templates.mpr (Or.inl ht))
    · have hfirst' : ∀ q ∈ ps, p.template.id = q.template.id → p.template = q.template := by
        intro q hq heq
        exact hknown q hq p.template (heq ▸ hfirst)
      intro q hq q' hq' heq
      rcases List.mem_cons.mp hq with rfl | hmem
      · rcases List.mem_cons.mp hq' with rfl | hmem'
        · rfl
        · exact hfirst' q' hmem' heq
      · rcases List.mem_cons.mp hq' with rfl | hmem'
        · exact (hfirst' q hmem heq.symm).symm
        · exact hshared q hmem q' hmem' heq

theorem exists_foldlM_add_iff : (∃ s', ps.foldlM add s = .ok s') ↔ s.Accepts ps :=
  exists_foldlM_iff accepts_nil fun _ _ _ => accepts_cons

/-- **Policies make a set exactly if they go together, and it is the one that gains them.** -/
theorem foldlM_add_eq_ok_iff :
    ps.foldlM add s = .ok s' ↔ s.Accepts ps ∧ s.Gains s' (ps.map Policy.template) ps := by
  constructor
  · intro h
    exact ⟨exists_foldlM_add_iff.mp ⟨s', h⟩, gains_foldlM_add h⟩
  · rintro ⟨haccepts, hgains⟩
    obtain ⟨s₁, h⟩ := exists_foldlM_add_iff.mpr haccepts
    rw [h, (gains_foldlM_add h).unique hgains]

theorem toOption_foldlM_add_of_perm (h : ps.Perm ps') :
    (ps.foldlM add s).toOption = (ps'.foldlM add s).toOption := by
  refine toOption_eq_of_ok_iff fun s' => ?_
  rw [foldlM_add_eq_ok_iff, foldlM_add_eq_ok_iff]
  have hts (t : Template) := (h.map Policy.template).mem_iff (a := t)
  constructor
  · rintro ⟨haccepts, hgains⟩
    exact ⟨haccepts.perm h, hgains.congr hts fun _ => h.mem_iff⟩
  · rintro ⟨haccepts, hgains⟩
    exact ⟨haccepts.perm h.symm, hgains.congr (fun t => (hts t).symm) fun _ => h.mem_iff.symm⟩

/-! ## 3. Templates -/

/-- A template is added as documents add it: as a static policy when it has no slots. -/
def enter (s : PolicySet) (t : Template) : Except PolicySetError PolicySet :=
  if t.hasSlots then s.addTemplate t else s.addStatic t

/-- Templates that go together, and with the set: their ids are distinct and new for templates, and
for policies too where the template is one by itself. -/
structure Receives (s : PolicySet) (ts : List Template) : Prop where
  ids : (ts.map Template.id).Nodup
  fresh : ∀ t ∈ ts, s.templates.find? t.id = none
  own : ∀ t ∈ ts, ∀ p ∈ t.ownPolicies, s.links.find? p.id = none

theorem Receives.perm (h : s.Receives ts) (hperm : ts.Perm ts') : s.Receives ts' where
  ids := (hperm.map Template.id).nodup h.ids
  fresh t ht := h.fresh t (hperm.mem_iff.mpr ht)
  own t ht := h.own t (hperm.mem_iff.mpr ht)

theorem receives_nil (s : PolicySet) : s.Receives [] where
  ids := List.nodup_nil
  fresh := List.forall_mem_nil _
  own := List.forall_mem_nil _

theorem gains_enter (h : s.enter t = .ok s') : s.Gains s' [t] t.ownPolicies := by
  unfold enter at h
  unfold Template.ownPolicies
  split at h
  · rename_i hslots
    obtain ⟨hfresh, rfl⟩ := addTemplate_eq_ok h
    rw [if_pos hslots]
    exact gains_template hfresh
  · rename_i hslots
    obtain ⟨p, hp, hfresh, hlink, rfl⟩ := addStatic_eq_ok h
    obtain ⟨-, rfl⟩ := Policy.newStatic_eq_ok_iff.mp hp
    rw [if_neg hslots]
    exact gains_both (p := ⟨t, none, .empty⟩) hfresh hlink

theorem exists_enter_iff : (∃ s', s.enter t = .ok s') ↔ s.templates.find? t.id = none ∧
    ∀ p ∈ t.ownPolicies, s.links.find? p.id = none := by
  constructor
  · rintro ⟨s', h⟩
    refine ⟨?_, (gains_enter h).fresh⟩
    unfold enter at h
    split at h
    · exact (addTemplate_eq_ok h).1
    · obtain ⟨-, -, hfresh, -⟩ := addStatic_eq_ok h
      exact hfresh
  · rintro ⟨hfresh, hown⟩
    unfold enter
    unfold Template.ownPolicies at hown
    cases hslots : t.hasSlots with
    | true => exact ⟨_, addTemplate_of_fresh hfresh⟩
    | false =>
      rw [hslots] at hown
      exact ⟨_, addStatic_of_fresh hslots hfresh (hown _ (List.mem_singleton_self _))⟩

/-- The first template is added, and the set with it receives the rest. -/
theorem receives_cons : s.Receives (t :: ts) ↔ ∃ s', s.enter t = .ok s' ∧ s'.Receives ts := by
  constructor
  · rintro ⟨hids, hfresh, hown⟩
    obtain ⟨hid, hids⟩ := List.nodup_cons.mp hids
    obtain ⟨s', henter⟩ := exists_enter_iff.mpr
      ⟨hfresh t List.mem_cons_self, hown t List.mem_cons_self⟩
    have hgains := gains_enter henter
    have hne : ∀ t' ∈ ts, t.id ≠ t'.id := by
      intro t' ht' heq
      exact hid (heq ▸ List.mem_map_of_mem ht')
    refine ⟨s', henter, hids, ?_, ?_⟩
    · intro t' ht'
      refine hgains.template_eq_none_iff.mpr ⟨hfresh t' (List.mem_cons_of_mem t ht'), ?_⟩
      intro t₁ ht₁
      rw [List.mem_singleton.mp ht₁]
      exact hne t' ht'
    · intro t' ht' p hp
      refine hgains.link_eq_none_iff.mpr ⟨hown t' (List.mem_cons_of_mem t ht') p hp, ?_⟩
      intro p₁ hp₁
      rw [Template.id_of_mem_ownPolicies hp₁, Template.id_of_mem_ownPolicies hp]
      exact hne t' ht'
  · rintro ⟨s', henter, hids, hfresh, hown⟩
    have hgains := gains_enter henter
    obtain ⟨ht, htown⟩ := exists_enter_iff.mp ⟨s', henter⟩
    constructor
    · refine List.nodup_cons.mpr ⟨?_, hids⟩
      intro hmem
      obtain ⟨t', ht', heq⟩ := List.mem_map.mp hmem
      exact (hgains.template_eq_none_iff.mp (hfresh t' ht')).2 t (List.mem_singleton_self t) heq.symm
    · refine List.forall_mem_cons.mpr ⟨ht, ?_⟩
      intro t' ht'
      exact (hgains.template_eq_none_iff.mp (hfresh t' ht')).1
    · refine List.forall_mem_cons.mpr ⟨htown, ?_⟩
      intro t' ht' p hp
      exact (hgains.link_eq_none_iff.mp (hown t' ht' p hp)).1

theorem exists_foldlM_enter_iff : (∃ s', ts.foldlM enter s = .ok s') ↔ s.Receives ts :=
  exists_foldlM_iff receives_nil fun _ _ _ => receives_cons

theorem gains_foldlM_enter : ∀ {ts : List Template} {s s' : PolicySet},
    ts.foldlM enter s = .ok s' → s.Gains s' ts (ts.flatMap Template.ownPolicies)
  | [], s, _, h => by
    cases h
    exact Gains.refl s
  | t :: ts, s, s', h => by
    rw [List.foldlM_cons, bind_eq_ok_iff] at h
    obtain ⟨s₁, ht, hts⟩ := h
    exact (gains_enter ht).trans (gains_foldlM_enter hts)

/-- **Templates make a set exactly if they go together, and it is the one that gains them and the
policies that they are by themselves.** -/
theorem foldlM_enter_eq_ok_iff : ts.foldlM enter s = .ok s' ↔
    s.Receives ts ∧ s.Gains s' ts (ts.flatMap Template.ownPolicies) := by
  constructor
  · intro h
    exact ⟨exists_foldlM_enter_iff.mp ⟨s', h⟩, gains_foldlM_enter h⟩
  · rintro ⟨hreceives, hgains⟩
    obtain ⟨s₁, h⟩ := exists_foldlM_enter_iff.mpr hreceives
    rw [h, (gains_foldlM_enter h).unique hgains]

theorem foldlM_enter_of_perm (h : ts.foldlM enter s = .ok s') (hperm : ts.Perm ts') :
    ts'.foldlM enter s = .ok s' := by
  rw [foldlM_enter_eq_ok_iff] at h ⊢
  obtain ⟨hreceives, hgains⟩ := h
  refine ⟨hreceives.perm hperm, hgains.congr (fun _ => hperm.mem_iff) fun p => ?_⟩
  exact (hperm.flatMap_right Template.ownPolicies).mem_iff

/-! ## 4. Bodies of documents -/

/-- A body that names its id and is the document of the template of that id. -/
def IsBody (body : Json) (t : Template) : Prop :=
  ∃ id, body.get? "id" = some (.string id) ∧ Template.ofJson ⟨id⟩ body = .ok t

/-- A body that names its id goes by it at every place. -/
theorem bodyId_of_get? {index : Nat} {body : Json} {id : String}
    (h : body.get? "id" = some (.string id)) : bodyId index body = ⟨id⟩ := by
  rw [bodyId, h]
  rfl

theorem addBody_eq_ok_iff {index : Nat} {body : Json} {id : String}
    (h : body.get? "id" = some (.string id)) :
    s.addBody (bodyId index body) body = .ok s' ↔ ∃ t, IsBody body t ∧ s.enter t = .ok s' := by
  rw [bodyId_of_get? h, addBody, bind_eq_ok_iff]
  simp only [mapError_eq_ok_iff]
  constructor
  · rintro ⟨t, ht, henter⟩
    exact ⟨t, ⟨id, h, ht⟩, henter⟩
  · rintro ⟨t, ⟨id', hid', ht⟩, henter⟩
    rw [h] at hid'
    cases hid'
    exact ⟨t, ht, henter⟩

/-- A list of bodies that name their ids is read as their templates, added one after the other. -/
theorem addList_eq_ok_iff : ∀ {items : List Json} {index : Nat} {s s' : PolicySet},
    (∀ body ∈ items, ∃ id, body.get? "id" = some (.string id)) →
      (s.addList index items = .ok s' ↔
        ∃ ts, List.Forall₂ IsBody items ts ∧ ts.foldlM enter s = .ok s')
  | [], index, s, s', _ => by
    constructor
    · intro h
      cases h
      exact ⟨[], .nil, rfl⟩
    · rintro ⟨ts, hts, h⟩
      cases hts
      cases h
      rfl
  | body :: items, index, s, s', hids => by
    obtain ⟨⟨id, hid⟩, hids⟩ := List.forall_mem_cons.mp hids
    rw [addList, bind_eq_ok_iff]
    constructor
    · rintro ⟨s₁, hbody, hitems⟩
      obtain ⟨t, ht, henter⟩ := (addBody_eq_ok_iff hid).mp hbody
      obtain ⟨ts, hts, hrun⟩ := (addList_eq_ok_iff hids).mp hitems
      refine ⟨t :: ts, .cons ht hts, ?_⟩
      rw [List.foldlM_cons, henter]
      exact hrun
    · rintro ⟨_, hall, hrun⟩
      cases hall with
      | cons ht hts =>
        rw [List.foldlM_cons, bind_eq_ok_iff] at hrun
        obtain ⟨s₁, henter, hrun⟩ := hrun
        exact ⟨s₁, (addBody_eq_ok_iff hid).mpr ⟨_, ht, henter⟩,
          (addList_eq_ok_iff hids).mpr ⟨_, hts, hrun⟩⟩

theorem addList_of_perm {items items' : List Json} {index index' : Nat}
    (hids : ∀ body ∈ items, ∃ id, body.get? "id" = some (.string id)) (hperm : items.Perm items')
    (h : s.addList index items = .ok s') : s.addList index' items' = .ok s' := by
  obtain ⟨ts, hts, hrun⟩ := (addList_eq_ok_iff hids).mp h
  obtain ⟨ts', hts', hperm'⟩ := List.perm_comp_forall₂ hperm.symm hts
  have hids' : ∀ body ∈ items', ∃ id, body.get? "id" = some (.string id) := by
    intro body hbody
    exact hids body (hperm.mem_iff.mpr hbody)
  exact (addList_eq_ok_iff hids').mpr ⟨ts', hts', foldlM_enter_of_perm hrun hperm'.symm⟩

/-- **The order of assembly does not matter.**  A permutation of the policies that a set is made of,
or of the bodies that a list gives under their own ids, makes the same set or none. -/
theorem assembly_of_perm :
    (∀ ps ps' : List Policy, ps.Perm ps' → (ofPolicies ps).toOption = (ofPolicies ps').toOption) ∧
      ∀ items items' : List Json, items.Perm items' →
        (∀ body ∈ items, ∃ id, body.get? "id" = some (.string id)) →
          (ofJson (.array items)).toOption = (ofJson (.array items')).toOption := by
  constructor
  · intro ps ps' h
    exact toOption_foldlM_add_of_perm h
  · intro items items' h hids
    refine toOption_eq_of_ok_iff fun s => ?_
    constructor
    · exact addList_of_perm hids h
    · refine addList_of_perm (fun body hbody => ?_) h.symm
      exact hids body (h.mem_iff.mpr hbody)

/-! ## 5. A list and its reverse -/

namespace Shuffled

open History (share badges values)

def bob : EntityUid := ⟨⟨"User"⟩, "bob"⟩

/-- Two links of one template, and a static policy between them. -/
def policies : List Policy := [⟨share, some ⟨"alice"⟩, values⟩, ⟨badges, none, .empty⟩,
  ⟨share, some ⟨"bob"⟩, .ofList [(.principal, bob)]⟩]

/-- A body with a slot and one without. -/
def bodies : List Json := [
  .object [("effect", .string "permit"), ("id", .string "share"),
    ("principal", .object [("op", .string "=="), ("slot", .string "?principal")])],
  .object [("effect", .string "forbid"), ("id", .string "visitors")]]

def made : PolicySet where
  templates := .ofList [(badges.id, badges), (share.id, share)]
  links := .ofList (policies.map fun p => (p.id, p))

def visitors : Template where
  id := ⟨"visitors"⟩
  effect := .forbid

def loaded : PolicySet where
  templates := .ofList [(share.id, share), (visitors.id, visitors)]
  links := .ofList [(visitors.id, ⟨visitors, none, .empty⟩)]

theorem ids_bodies : ∀ body ∈ bodies, ∃ id, body.get? "id" = some (.string id) := by
  simp only [bodies, List.forall_mem_cons]
  exact ⟨⟨"share", rfl⟩, ⟨"visitors", rfl⟩, List.forall_mem_nil _⟩

/-- Both lists make the same sets from the other end. -/
theorem assembly_reverse :
    (ofPolicies policies.reverse).toOption = some made ∧
      (∀ body ∈ bodies, ∃ id, body.get? "id" = some (.string id)) ∧
        (ofJson (.array bodies.reverse)).toOption = some loaded := by
  have hmade : (ofPolicies policies).toOption = some made := by decide +kernel
  have hloaded : (ofJson (.array bodies)).toOption = some loaded := by decide +kernel
  obtain ⟨hpolicies, hbodies⟩ := assembly_of_perm
  refine ⟨?_, ids_bodies, ?_⟩
  · rw [← hpolicies _ _ policies.reverse_perm.symm]
    exact hmade
  · rw [← hbodies _ _ bodies.reverse_perm.symm ids_bodies]
    exact hloaded

end Shuffled

end PolicySet

end Arbiter
