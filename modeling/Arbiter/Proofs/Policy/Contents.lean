/-
# What is in a document is in the set

The bodies of a document stand in one list, each with the id that it goes by
(`PolicySet.bodies`), and its links in another one (`PolicySet.linkEntries`).  Reading enters the
templates of the first list one after the other and then makes the links of the second
(`read_ofJson`).  Each step finds its id free and brings one thing, so the ids are distinct and the
set has just what was brought (`PolicySet.Contents`).

A document that gives an id twice is therefore never accepted, whichever sections the two stand in
(`loading_exact`).
-/
import Arbiter.Proofs.Elementwise
import Arbiter.Proofs.Policy.Assembly
import Mathlib.Data.List.Nodup

namespace Arbiter

open Outcome

/-- The values of a map are a list of elements with keys of their own, when what is found under a key
is the element of the list with the key. -/
theorem SortedMap.values_perm {κ α : Type} [Ord κ] [Std.TransOrd κ] [Std.LawfulEqOrd κ]
    {m : SortedMap κ α} {key : α → κ} {l : List α}
    (hfind : ∀ {k a}, m.find? k = some a ↔ a ∈ l ∧ key a = k) (hnodup : (l.map key).Nodup) :
    m.values.Perm l := by
  have hkeys : m.values.map key = m.keys := by
    rw [values, keys, List.map_map]
    refine List.map_congr_left ?_
    rintro ⟨k, a⟩ hmem
    exact (hfind.mp (mem_entries_iff.mp hmem)).2
  have hvalues : m.values.Nodup := List.Nodup.of_map key (hkeys ▸ m.nodup_keys)
  refine (List.perm_ext_iff_of_nodup hvalues (List.Nodup.of_map key hnodup)).mpr fun a => ?_
  rw [mem_values_iff]
  simp only [hfind, exists_and_left, exists_eq', and_true]

/-- The document of a template gives it the id under which it is read. -/
theorem Template.id_of_ofJson {id : PolicyId} {j : Json} {t : Template} (h : ofJson id j = .ok t) :
    t.id = id := by
  have hfinish {p : Parts} (h : p.finish id = .ok t) : t.id = id := by
    obtain ⟨effect, -, h⟩ := bind_eq_ok_iff.mp h
    cases h
    rfl
  cases j with
  | object fields =>
    obtain ⟨p, -, h⟩ := bind_eq_ok_iff.mp h
    exact hfinish h
  | array items =>
    obtain ⟨p, -, h⟩ := bind_eq_ok_iff.mp h
    split at h
    · exact hfinish h
    · cases h
  | _ => cases h

namespace PolicySet

variable {s s' : PolicySet} {ts : List Template} {ls : List LinkDocument} {ps : List Policy}

/-! ## 1. Bodies and links of a document -/

/-- The bodies of a list with their ids; `index` is the place of the first. -/
def listBodies (index : Nat) (items : List Json) : List (PolicyId × Json) :=
  (items.zipIdx index).map fun e => (bodyId e.2 e.1, e.1)

/-- The bodies of an object, under their names. -/
def fieldBodies (fields : List (String × Json)) : List (PolicyId × Json) :=
  fields.map fun f => (⟨f.1⟩, f.2)

/-- The bodies of a section. -/
def sectionBodies : Json → List (PolicyId × Json)
  | .object fields => fieldBodies fields
  | .array items => listBodies 0 items
  | _ => []

/-- The sections under the names, as far as they are there. -/
def sections (names : List String) (fields : List (String × Json)) : List Json :=
  names.filterMap fun name => fields.lookup name

/-- All bodies of a document, each with the id that it goes by. -/
def bodies : Json → List (PolicyId × Json)
  | .object fields =>
    (sections ["templates"] fields ++ sections ["staticPolicies", "policies"] fields).flatMap
      sectionBodies
  | doc => sectionBodies doc

/-- The entries of a section of links. -/
def sectionLinks (doc : Json) : List Json := doc.array?.getD []

/-- All entries of links of a document. -/
def linkEntries : Json → List Json
  | .object fields => (sections ["templateLinks", "links"] fields).flatMap sectionLinks
  | _ => []

/-- The ids that a document gives to bodies and to links. -/
def ids (doc : Json) : List PolicyId :=
  (bodies doc).map Prod.fst
    ++ ((linkEntries doc).filterMap LinkDocument.ofJson?).map LinkDocument.id

/-- The template is that of the body, under its id. -/
def IsTemplate (body : PolicyId × Json) (t : Template) : Prop :=
  Template.ofJson body.1 body.2 = .ok t ∧ t.id = body.1

/-! ## 2. Sections -/

/-- Adds bodies one after the other. -/
def addBodies (s : PolicySet) (es : List (PolicyId × Json)) : Except LoadError PolicySet :=
  es.foldlM (fun s e => s.addBody e.1 e.2) s

theorem addBodies_cons (s : PolicySet) (e : PolicyId × Json) (es : List (PolicyId × Json)) :
    s.addBodies (e :: es) = s.addBody e.1 e.2 >>= fun s => s.addBodies es := rfl

theorem addBodies_append (s : PolicySet) (es es' : List (PolicyId × Json)) :
    s.addBodies (es ++ es') = s.addBodies es >>= fun s => s.addBodies es' :=
  List.foldlM_append

theorem addList_eq (s : PolicySet) (index : Nat) (items : List Json) :
    s.addList index items = s.addBodies (listBodies index items) := by
  induction items generalizing s index with
  | nil => rfl
  | cons body items ih =>
    rw [addList, listBodies, List.zipIdx_cons, List.map_cons, addBodies_cons]
    simp only [ih]
    rfl

theorem addFields_eq (s : PolicySet) (fields : List (String × Json)) :
    s.addFields fields = s.addBodies (fieldBodies fields) := by
  induction fields generalizing s with
  | nil => rfl
  | cons field fields ih =>
    rw [addFields, fieldBodies, List.map_cons, addBodies_cons]
    simp only [ih]
    rfl

theorem addSection_eq_ok {doc : Option Json} (h : s.addSection doc = .ok s') :
    s.addBodies (doc.toList.flatMap sectionBodies) = .ok s' := by
  unfold addSection at h
  split at h
  · exact h
  · rw [addFields_eq] at h
    rw [Option.toList_some, List.flatMap_singleton]
    exact h
  · rw [addList_eq] at h
    rw [Option.toList_some, List.flatMap_singleton]
    exact h
  · cases h

theorem addLinkSection_eq_ok {doc : Option Json} (h : s.addLinkSection doc = .ok s') :
    ∃ ls, List.Forall₂ (fun e l => LinkDocument.ofJson? e = some l)
      (doc.toList.flatMap sectionLinks) ls ∧ s.addLinks ls = .ok s' := by
  unfold addLinkSection at h
  split at h
  · exact ⟨[], .nil, h⟩
  · rename_i doc
    split at h
    · rename_i ls hls
      obtain ⟨entries, hentries, hls⟩ := Option.bind_eq_some_iff.mp hls
      refine ⟨ls, ?_, h⟩
      rw [Option.toList_some, List.flatMap_singleton, sectionLinks, hentries]
      exact forall₂_of_mapM_eq_some hls
    · cases h

/-! ### Names of sections -/

section

variable {names : List String} {fields rest : List (String × Json)} {doc : Option Json}

theorem lookup_filter_ne {name other : String} (h : other ≠ name) :
    (fields.filter fun f => f.1 != name).lookup other = fields.lookup other := by
  induction fields with
  | nil => rfl
  | cons f fields ih =>
    by_cases hf : f.1 = name
    · have hother : (other == f.1) = false := beq_eq_false_iff_ne.mpr (hf ▸ h)
      rw [List.filter_cons_of_neg (by simp [hf]), ih, List.lookup_cons, hother]
    · rw [List.filter_cons_of_pos (by simp [hf]), List.lookup_cons, List.lookup_cons, ih]

/-- Under other names the same is left. -/
theorem lookup_takeFirst {other : String} (hother : other ∉ names)
    (h : takeFirst names fields = (doc, rest)) : rest.lookup other = fields.lookup other := by
  induction names with
  | nil =>
    cases h
    rfl
  | cons name names ih =>
    rw [List.mem_cons, not_or] at hother
    rw [takeFirst] at h
    split at h
    · cases h
      exact lookup_filter_ne hother.1
    · exact ih hother.2 h

theorem sections_takeFirst {others : List String} (hothers : ∀ other ∈ others, other ∉ names)
    (h : takeFirst names fields = (doc, rest)) : sections others rest = sections others fields :=
  List.filterMap_congr fun other hother => lookup_takeFirst (hothers other hother) h

theorem sections_cons (name : String) (names : List String) (fields : List (String × Json)) :
    sections (name :: names) fields = (fields.lookup name).toList ++ sections names fields := by
  unfold sections
  rw [List.filterMap_cons]
  cases fields.lookup name <;> rfl

/-- When nothing is left under the names, there was one section under them, or none. -/
theorem sections_of_takeFirst (hnames : names.Nodup) (h : takeFirst names fields = (doc, rest))
    (hrest : ∀ name ∈ names, rest.lookup name = none) : sections names fields = doc.toList := by
  induction names with
  | nil =>
    cases h
    rfl
  | cons name names ih =>
    obtain ⟨hname, hnames⟩ := List.nodup_cons.mp hnames
    obtain ⟨-, hrest⟩ := List.forall_mem_cons.mp hrest
    rw [takeFirst] at h
    split at h
    · rename_i j hlookup
      cases h
      have hnone : sections names fields = [] := by
        refine List.filterMap_eq_nil_iff.mpr fun other hother => ?_
        have hne : other ≠ name := fun heq => hname (heq ▸ hother)
        rw [← lookup_filter_ne hne]
        exact hrest other hother
      rw [sections_cons, hlookup, hnone, List.append_nil]
    · rename_i hlookup
      rw [sections_cons, hlookup, ih hnames h hrest, Option.toList_none, List.nil_append]

end

/-- **A document is read body by body and then link by link.** -/
theorem read_ofJson {j : Json} (h : ofJson j = .ok s) : ∃ s₁ ls,
    empty.addBodies (bodies j) = .ok s₁ ∧
      List.Forall₂ (fun e l => LinkDocument.ofJson? e = some l) (linkEntries j) ls ∧
        s₁.addLinks ls = .ok s := by
  unfold ofJson at h
  split at h
  · rw [addList_eq] at h
    exact ⟨s, [], h, .nil, rfl⟩
  · rename_i fields
    obtain ⟨templates, rest₁, h₁⟩ : ∃ doc rest, takeFirst ["templates"] fields = (doc, rest) :=
      ⟨_, _, rfl⟩
    obtain ⟨policies, rest₂, h₂⟩ :
        ∃ doc rest, takeFirst ["staticPolicies", "policies"] rest₁ = (doc, rest) := ⟨_, _, rfl⟩
    obtain ⟨links, rest₃, h₃⟩ :
        ∃ doc rest, takeFirst ["templateLinks", "links"] rest₂ = (doc, rest) := ⟨_, _, rfl⟩
    simp only [h₁, h₂, h₃] at h
    obtain ⟨s₁, hs₁, h⟩ := bind_eq_ok_iff.mp h
    obtain ⟨s₂, hs₂, h⟩ := bind_eq_ok_iff.mp h
    obtain ⟨s₃, hs₃, h⟩ := bind_eq_ok_iff.mp h
    split at h
    · cases h
      have hrest₂ (other : String) (hother : other ∉ ["templateLinks", "links"]) :
          rest₂.lookup other = none := (lookup_takeFirst hother h₃).symm
      have hrest₁ : rest₁.lookup "templates" = none :=
        (lookup_takeFirst (by decide) h₂).symm.trans (hrest₂ "templates" (by decide))
      have htemplates : sections ["templates"] fields = templates.toList :=
        sections_of_takeFirst (by decide) h₁ (List.forall_mem_singleton.mpr hrest₁)
      have hpolicies : sections ["staticPolicies", "policies"] fields = policies.toList := by
        rw [← sections_takeFirst (by decide) h₁]
        refine sections_of_takeFirst (by decide) h₂ fun name hname => hrest₂ name ?_
        revert name
        decide
      have hlinks : sections ["templateLinks", "links"] fields = links.toList := by
        rw [← sections_takeFirst (by decide) h₁, ← sections_takeFirst (by decide) h₂]
        exact sections_of_takeFirst (by decide) h₃ fun _ _ => rfl
      obtain ⟨ls, hls, hrun⟩ := addLinkSection_eq_ok hs₃
      refine ⟨s₂, ls, ?_, ?_, hrun⟩
      · rw [bodies, htemplates, hpolicies, List.flatMap_append, addBodies_append,
          addSection_eq_ok hs₁]
        exact addSection_eq_ok hs₂
      · rw [linkEntries, hlinks]
        exact hls
    · cases h
  · cases h

/-! ## 3. Templates and links -/

theorem addBody_eq_ok {e : PolicyId × Json} (h : s.addBody e.1 e.2 = .ok s') :
    ∃ t, IsTemplate e t ∧ s.enter t = .ok s' := by
  obtain ⟨t, ht, henter⟩ := bind_eq_ok_iff.mp h
  have ht := mapError_eq_ok_iff.mp ht
  exact ⟨t, ⟨ht, Template.id_of_ofJson ht⟩, mapError_eq_ok_iff.mp henter⟩

theorem addBodies_eq_ok : ∀ {es : List (PolicyId × Json)} {s s' : PolicySet},
    s.addBodies es = .ok s' → ∃ ts, List.Forall₂ IsTemplate es ts ∧ ts.foldlM enter s = .ok s'
  | [], _, _, h => by
    cases h
    exact ⟨[], .nil, rfl⟩
  | e :: es, s, s', h => by
    rw [addBodies_cons, bind_eq_ok_iff] at h
    obtain ⟨s₁, he, hes⟩ := h
    obtain ⟨t, ht, henter⟩ := addBody_eq_ok he
    obtain ⟨ts, hts, hrun⟩ := addBodies_eq_ok hes
    refine ⟨t :: ts, .cons ht hts, ?_⟩
    rw [List.foldlM_cons, henter]
    exact hrun

/-- The policy is the one that the link makes of a template of the list. -/
def IsLink (ts : List Template) (l : LinkDocument) (p : Policy) : Prop :=
  ∃ t ∈ ts, t.id = l.template ∧ p = ⟨t, some l.id, l.values⟩

theorem ids_of_isLink (h : List.Forall₂ (IsLink ts) ls ps) :
    ps.map Policy.id = ls.map LinkDocument.id := by
  induction h with
  | nil => rfl
  | cons hp _ ih =>
    obtain ⟨t, -, -, rfl⟩ := hp
    rw [List.map_cons, List.map_cons, ih]
    rfl

/-- Links are made one after the other, each under an id that is new by then. -/
theorem addLinks_eq_ok : ∀ {ls : List LinkDocument} {s s' : PolicySet},
    (∀ {id t}, s.templates.find? id = some t → t ∈ ts ∧ t.id = id) → s.addLinks ls = .ok s' →
      ∃ ps, List.Forall₂ (IsLink ts) ls ps ∧ s.Gains s' [] ps ∧ (ps.map Policy.id).Nodup ∧
        ∀ p ∈ ps, s.templates.find? p.id = none
  | [], s, _, _, h => by
    cases h
    exact ⟨[], .nil, .refl s, List.nodup_nil, List.forall_mem_nil _⟩
  | l :: ls, s, s', hts, h => by
    rw [addLinks] at h
    split at h
    · rename_i p s₁ hlink
      obtain ⟨t, ht, hp, hfresh, htemplate, rfl⟩ := link_eq_ok hlink
      obtain ⟨-, rfl⟩ := Policy.ofLink_eq_ok_iff.mp hp
      obtain ⟨hmem, hid⟩ := hts ht
      obtain ⟨ps, hps, hgains, hnodup, htemplates⟩ :=
        addLinks_eq_ok (s := { s with links := s.links.insert l.id _ }) hts h
      have hfirst := gains_policy (p := ⟨t, some l.id, l.values⟩) hfresh
      have hnew : l.id ∉ ps.map Policy.id := by
        intro hmem
        obtain ⟨p, hp, heq⟩ := List.mem_map.mp hmem
        have hnone := hgains.fresh p hp
        rw [heq, SortedMap.find?_insert_self] at hnone
        cases hnone
      exact ⟨_ :: ps, .cons ⟨t, hmem, hid, rfl⟩ hps, hfirst.trans hgains,
        List.nodup_cons.mpr ⟨hnew, hnodup⟩, List.forall_mem_cons.mpr ⟨htemplate, htemplates⟩⟩
    · cases h

/-! ## 4. What is in the set -/

/-- The set holds just the templates and the links: each template under its id, and as a static policy
when it has no slots; each link as a policy of its template with its values. -/
structure Contents (s : PolicySet) (ts : List Template) (ls : List LinkDocument) : Prop where
  /-- No id is given twice. -/
  ids : (ts.map Template.id ++ ls.map LinkDocument.id).Nodup
  template : ∀ t ∈ ts, s.getTemplate? t.id = some t
  static : ∀ t ∈ ts, s.get? t.id = if t.hasSlots then none else some ⟨t, none, .empty⟩
  link : ∀ l ∈ ls, ∃ t ∈ ts, t.id = l.template ∧ s.get? l.id = some ⟨t, some l.id, l.values⟩
  /-- There are no other templates. -/
  templates : s.allTemplates.Perm ts
  /-- There are no other policies. -/
  policies : ∃ ps, List.Forall₂ (IsLink ts) ls ps ∧
    s.policies.Perm (ts.flatMap Template.ownPolicies ++ ps)
  /-- There are as many policies as templates without slots and links. -/
  size : s.size = ts.countP (fun t => !t.hasSlots) + ls.length

theorem map_id_ownPolicies (ts : List Template) :
    ((ts.flatMap Template.ownPolicies).map Policy.id).Sublist (ts.map Template.id) := by
  induction ts with
  | nil => exact .slnil
  | cons t ts ih =>
    rw [List.flatMap_cons, List.map_append, List.map_cons, Template.ownPolicies]
    split
    · exact ih.cons _
    · exact ih.cons_cons _

theorem length_ownPolicies (ts : List Template) :
    (ts.flatMap Template.ownPolicies).length = ts.countP fun t => !t.hasSlots := by
  induction ts with
  | nil => rfl
  | cons t ts ih =>
    rw [List.flatMap_cons, List.length_append, ih, List.countP_cons, Template.ownPolicies]
    split <;> simp_all [Nat.add_comm]

section

variable (h : empty.Gains s ts ps) {id : PolicyId} {t : Template} {p : Policy}

include h

/-- Of the set of nothing only what has been gained is left. -/
theorem Gains.template_iff : s.templates.find? id = some t ↔ t ∈ ts ∧ t.id = id :=
  h.templates.trans (or_iff_right nofun)

theorem Gains.policy_iff : s.links.find? id = some p ↔ p ∈ ps ∧ p.id = id :=
  h.links.trans (or_iff_right nofun)

end

/-- Under the id of a template stands what it is by itself: no other template has the id, and no
further policy. -/
theorem Gains.get?_eq (h : empty.Gains s ts (ts.flatMap Template.ownPolicies ++ ps))
    (hids : (ts.map Template.id ++ ps.map Policy.id).Nodup) {t : Template} (ht : t ∈ ts) :
    s.get? t.id = if t.hasSlots then none else some ⟨t, none, .empty⟩ := by
  obtain ⟨htemplates, -, hdisjoint⟩ := List.nodup_append.mp hids
  split
  · rename_i hslots
    refine Option.eq_none_iff_forall_ne_some.mpr fun p hp => ?_
    obtain ⟨hmem, hid⟩ := h.policy_iff.mp hp
    rcases List.mem_append.mp hmem with hmem | hmem
    · obtain ⟨t', ht', hown⟩ := List.mem_flatMap.mp hmem
      obtain rfl : t' = t := List.inj_on_of_nodup_map htemplates ht' ht
        ((Template.id_of_mem_ownPolicies hown).symm.trans hid)
      rw [Template.ownPolicies, if_pos hslots] at hown
      cases hown
    · exact hdisjoint t.id (List.mem_map_of_mem ht) p.id (List.mem_map_of_mem hmem) hid.symm
  · rename_i hslots
    refine h.policy_iff.mpr ⟨List.mem_append_left _ (List.mem_flatMap.mpr ⟨t, ht, ?_⟩), rfl⟩
    rw [Template.ownPolicies, if_neg hslots]
    exact List.mem_singleton_self _

theorem contents_of_gains (hgains : empty.Gains s ts (ts.flatMap Template.ownPolicies ++ ps))
    (hlinks : List.Forall₂ (IsLink ts) ls ps)
    (hids : (ts.map Template.id ++ ps.map Policy.id).Nodup) : s.Contents ts ls := by
  have hnodup : ((ts.flatMap Template.ownPolicies ++ ps).map Policy.id).Nodup := by
    rw [List.map_append]
    exact hids.sublist ((map_id_ownPolicies ts).append (.refl _))
  have hperm : s.policies.Perm (ts.flatMap Template.ownPolicies ++ ps) :=
    SortedMap.values_perm hgains.policy_iff hnodup
  constructor
  · rw [← ids_of_isLink hlinks]
    exact hids
  · exact fun t ht => hgains.template_iff.mpr ⟨ht, rfl⟩
  · exact fun t ht => hgains.get?_eq hids ht
  · intro l hl
    obtain ⟨p, hp, t, ht, hid, rfl⟩ := exists_mem_of_forall₂ hlinks hl
    exact ⟨t, ht, hid, hgains.policy_iff.mpr ⟨List.mem_append_right _ hp, rfl⟩⟩
  · exact SortedMap.values_perm hgains.template_iff (List.nodup_append.mp hids).1
  · exact ⟨ps, hlinks, hperm⟩
  · have hlength := hperm.length_eq
    rw [List.length_append, length_ownPolicies, ← hlinks.length_eq, policies, SortedMap.values,
      List.length_map] at hlength
    exact hlength

theorem ids_of_isTemplate {es : List (PolicyId × Json)} (h : List.Forall₂ IsTemplate es ts) :
    es.map Prod.fst = ts.map Template.id := by
  induction h with
  | nil => rfl
  | cons ht _ ih => rw [List.map_cons, List.map_cons, ih, ht.2]

theorem ids_of_links {entries : List Json}
    (h : List.Forall₂ (fun e l => LinkDocument.ofJson? e = some l) entries ls) :
    entries.filterMap LinkDocument.ofJson? = ls := by
  induction h with
  | nil => rfl
  | cons hl _ ih => rw [List.filterMap_cons_some hl, ih]

theorem contents_of_ofJson {j : Json} (h : ofJson j = .ok s) : ∃ ts ls,
    List.Forall₂ IsTemplate (bodies j) ts ∧
      List.Forall₂ (fun e l => LinkDocument.ofJson? e = some l) (linkEntries j) ls ∧
        s.Contents ts ls := by
  obtain ⟨s₁, ls, hbodies, hentries, hrun⟩ := read_ofJson h
  obtain ⟨ts, hts, henter⟩ := addBodies_eq_ok hbodies
  obtain ⟨hreceives, hgains⟩ := foldlM_enter_eq_ok_iff.mp henter
  obtain ⟨ps, hps, hlinked, hnodup, hfresh⟩ := addLinks_eq_ok hgains.template_iff.mp hrun
  have hids : (ts.map Template.id ++ ps.map Policy.id).Nodup := by
    refine List.nodup_append.mpr ⟨hreceives.ids, hnodup, ?_⟩
    rintro _ ht _ hp rfl
    obtain ⟨t, ht, htid⟩ := List.mem_map.mp ht
    obtain ⟨p, hp, hpid⟩ := List.mem_map.mp hp
    have hnone := hfresh p hp
    rw [hpid, ← htid, hgains.template_iff.mpr ⟨ht, rfl⟩] at hnone
    cases hnone
  have htotal := hgains.trans hlinked
  rw [List.append_nil] at htotal
  exact ⟨ts, ls, hts, hentries, contents_of_gains htotal hps hids⟩

/-- **Loading loses and invents nothing.**  The set of a document has one template for each body, which
is a static policy exactly when it has no slots, one linked policy for each link, and nothing else.  A
document that gives an id twice is refused. -/
theorem loading_exact (j : Json) :
    (∀ s, ofJson j = .ok s → ∃ ts ls, List.Forall₂ IsTemplate (bodies j) ts ∧
      List.Forall₂ (fun e l => LinkDocument.ofJson? e = some l) (linkEntries j) ls ∧
        s.Contents ts ls) ∧
    (¬ (ids j).Nodup → ∃ cause, ofJson j = .error cause) := by
  refine ⟨fun s => contents_of_ofJson, fun hids => ?_⟩
  cases h : ofJson j with
  | error cause => exact ⟨cause, rfl⟩
  | ok s =>
    obtain ⟨ts, ls, hts, hls, hcontents⟩ := contents_of_ofJson h
    refine absurd ?_ hids
    rw [ids, ids_of_isTemplate hts, ids_of_links hls]
    exact hcontents.ids

/-! ## 5. A document of all sections, and one with an id in two of them -/

namespace Sections

/-- The first bodies of both lists go by their place. -/
def clashing : Json := .object [
  ("policies", .array [.object [("effect", .string "forbid")]]),
  ("templates", .array [.object [("effect", .string "permit")]])]

/-- The set with a template, a static policy and two links, and the document that gives an id twice. -/
theorem loading_exact_sections :
    (ofJson Sharing.document.sorted = .ok Sharing.policies ∧ ∃ ts ls,
      List.Forall₂ IsTemplate (bodies Sharing.document.sorted) ts ∧
        List.Forall₂ (fun e l => LinkDocument.ofJson? e = some l)
          (linkEntries Sharing.document.sorted) ls ∧ Sharing.policies.Contents ts ls) ∧
    ¬ (ids clashing).Nodup ∧ ∃ cause, ofJson clashing = .error cause := by
  obtain ⟨hcontents, -⟩ := loading_exact Sharing.document.sorted
  obtain ⟨-, hrefused⟩ := loading_exact clashing
  have hids : ¬ (ids clashing).Nodup := by decide +kernel
  exact ⟨⟨Sharing.ofJson_document, hcontents _ Sharing.ofJson_document⟩, hids, hrefused hids⟩

end Sections

end PolicySet

end Arbiter
