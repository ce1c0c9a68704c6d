/-
# Loaded policy sets are read back

What is loaded from a document (`PolicySet.Loaded`) has all its bodies in the document that it is
written to: a template without slots is the body of a static policy, and a linked policy has an id
that no template has.  So reading that document adds the templates with slots, the static policies
and the links one after the other, none of them meets an id that is taken
(`addFields_templates`, `addFields_statics`, `addLinks_linked`), and the set is there again
(`ofJson_toJson`).
-/
import Arbiter.Policy.Loading
import Arbiter.Proofs.Policy.Codec
import Arbiter.Proofs.Policy.Reachable

namespace Arbiter.PolicySet

open Outcome

variable {s s' : PolicySet}

/-! ## 1. What is loaded -/

/-- What a document makes of the empty set: templates without slots are bodies of static policies,
and no linked policy has the id of a template. -/
structure Loaded (s : PolicySet) : Prop where
  wellFormed : s.WellFormed
  documented : ∀ {id t}, s.templates.find? id = some t → t.Documented
  static : ∀ {id t}, s.templates.find? id = some t → t.hasSlots = false →
    s.links.find? id = some ⟨t, none, .empty⟩
  linked : ∀ {id p}, s.links.find? id = some p → p.isStatic = false →
    s.templates.find? id = none

/-- Only static policies are there. -/
def OnlyStatic (s : PolicySet) : Prop := ∀ {id p}, s.links.find? id = some p → p.isStatic = true

theorem onlyStatic_empty : OnlyStatic .empty := by
  intro id p h
  cases h

theorem loaded_empty : Loaded .empty where
  wellFormed := .of_empty
  documented := nofun
  static := nofun
  linked := nofun

namespace Loaded

/-- A template with slots is added while there are no links. -/
theorem addTemplate {t : Template} (hs : s.Loaded) (honly : s.OnlyStatic) (ht : t.Documented)
    (hslots : t.hasSlots = true) (h : s.addTemplate t = .ok s') : s'.Loaded ∧ s'.OnlyStatic := by
  have hwell := hs.wellFormed.step (.template h)
  obtain ⟨-, rfl⟩ := addTemplate_eq_ok h
  refine ⟨⟨hwell, ?_, ?_, ?_⟩, honly⟩
  · intro id t' ht'
    rcases SortedMap.of_find?_insert ht' with ⟨-, rfl⟩ | ht'
    · exact ht
    · exact hs.documented ht'
  · intro id t' ht' hnone
    rcases SortedMap.of_find?_insert ht' with ⟨-, rfl⟩ | ht'
    · rw [hslots] at hnone
      cases hnone
    · exact hs.static ht' hnone
  · intro id p hp hlinked
    rw [honly hp] at hlinked
    cases hlinked

/-- A static policy is added while there are no links. -/
theorem addStatic {t : Template} (hs : s.Loaded) (honly : s.OnlyStatic) (ht : t.Documented)
    (h : s.addStatic t = .ok s') : s'.Loaded ∧ s'.OnlyStatic := by
  obtain ⟨p, hp, hfresh, -, rfl⟩ := addStatic_eq_ok h
  have hwell := hs.wellFormed.step (.policy (.addStatic hp h))
  obtain ⟨hnone, rfl⟩ := Policy.newStatic_eq_ok_iff.mp hp
  have honly' : OnlyStatic ⟨s.templates.insert t.id t, s.links.insert t.id ⟨t, none, .empty⟩⟩ := by
    intro id p hp
    rcases SortedMap.of_find?_insert hp with ⟨-, rfl⟩ | hp
    · rfl
    · exact honly hp
  refine ⟨⟨hwell, ?_, ?_, ?_⟩, honly'⟩
  · intro id t' ht'
    rcases SortedMap.of_find?_insert ht' with ⟨-, rfl⟩ | ht'
    · exact ht
    · exact hs.documented ht'
  · intro id t' ht' hnone'
    rcases SortedMap.of_find?_insert ht' with ⟨rfl, rfl⟩ | ht'
    · exact SortedMap.find?_insert_self _ _ _
    · have hne : id ≠ t.id := by
        rintro rfl
        rw [hfresh] at ht'
        cases ht'
      exact (SortedMap.find?_insert_of_ne _ _ hne).trans (hs.static ht' hnone')
  · intro id p hp hlinked
    rw [honly' hp] at hlinked
    cases hlinked

/-- A link is added. -/
theorem link {template id : PolicyId} {values : SlotValues} {p : Policy} (hs : s.Loaded)
    (h : s.link template id values = .ok (p, s')) : s'.Loaded := by
  have hwell := hs.wellFormed.step (.policy (.link h))
  obtain ⟨t, -, hp, hlinks, htemplates, rfl⟩ := link_eq_ok h
  obtain ⟨-, rfl⟩ := Policy.ofLink_eq_ok_iff.mp hp
  refine ⟨hwell, hs.documented, ?_, ?_⟩
  · intro id' t' ht' hnone
    have hne : id' ≠ id := by
      rintro rfl
      rw [htemplates] at ht'
      cases ht'
    exact (SortedMap.find?_insert_of_ne _ _ hne).trans (hs.static ht' hnone)
  · intro id' p' hp' hlinked
    rcases SortedMap.of_find?_insert hp' with ⟨rfl, rfl⟩ | hp'
    · exact htemplates
    · exact hs.linked hp' hlinked

/-! ### Documents -/

theorem addBody {id : PolicyId} {body : Json} (hs : s.Loaded) (honly : s.OnlyStatic)
    (hbody : body.IsSorted) (h : s.addBody id body = .ok s') : s'.Loaded ∧ s'.OnlyStatic := by
  obtain ⟨t, ht, h⟩ := bind_eq_ok_iff.mp h
  obtain ⟨ht, -⟩ := Template.documented_of_ofJson hbody (mapError_eq_ok_iff.mp ht)
  have h := mapError_eq_ok_iff.mp h
  split at h
  · rename_i hslots
    exact hs.addTemplate honly ht hslots h
  · exact hs.addStatic honly ht h

theorem addList : ∀ {items : List Json} {index : Nat} {s : PolicySet}, s.Loaded → s.OnlyStatic →
    Json.IsSortedItems items → s.addList index items = .ok s' → s'.Loaded ∧ s'.OnlyStatic
  | [], _, _, hs, honly, _, h => by
    cases h
    exact ⟨hs, honly⟩
  | _ :: _, _, _, hs, honly, hitems, h => by
    obtain ⟨s₁, h₁, h⟩ := bind_eq_ok_iff.mp h
    obtain ⟨hs₁, honly₁⟩ := hs.addBody honly hitems.1 h₁
    exact addList hs₁ honly₁ hitems.2 h

theorem addFields : ∀ {fields : List (String × Json)} {s : PolicySet}, s.Loaded → s.OnlyStatic →
    Json.IsSortedFields fields → s.addFields fields = .ok s' → s'.Loaded ∧ s'.OnlyStatic
  | [], _, hs, honly, _, h => by
    cases h
    exact ⟨hs, honly⟩
  | (_, _) :: _, _, hs, honly, hfields, h => by
    obtain ⟨s₁, h₁, h⟩ := bind_eq_ok_iff.mp h
    obtain ⟨hs₁, honly₁⟩ := hs.addBody honly hfields.1 h₁
    exact addFields hs₁ honly₁ hfields.2 h

theorem addSection {doc : Option Json} (hs : s.Loaded) (honly : s.OnlyStatic)
    (hdoc : ∀ j ∈ doc, j.IsSorted) (h : s.addSection doc = .ok s') :
    s'.Loaded ∧ s'.OnlyStatic := by
  unfold PolicySet.addSection at h
  split at h
  · cases h
    exact ⟨hs, honly⟩
  · exact hs.addFields honly (hdoc _ rfl).2 h
  · exact hs.addList honly (hdoc _ rfl) h
  · cases h

theorem addLinks : ∀ {links : List LinkDocument} {s : PolicySet}, s.Loaded →
    s.addLinks links = .ok s' → s'.Loaded
  | [], _, hs, h => by
    cases h
    exact hs
  | l :: links, s, hs, h => by
    rw [PolicySet.addLinks] at h
    split at h
    · rename_i hlink
      exact addLinks (hs.link hlink) h
    · cases h

theorem addLinkSection {doc : Option Json} (hs : s.Loaded)
    (h : s.addLinkSection doc = .ok s') : s'.Loaded := by
  unfold PolicySet.addLinkSection at h
  split at h
  · cases h
    exact hs
  · split at h
    · exact hs.addLinks h
    · cases h

/-- A section and the fields that are left are among the fields. -/
theorem mem_of_takeFirst {names : List String} {fields rest : List (String × Json)}
    {doc : Option Json} (h : takeFirst names fields = (doc, rest)) :
    (∀ j ∈ doc, ∃ name, (name, j) ∈ fields) ∧ ∀ f ∈ rest, f ∈ fields := by
  induction names with
  | nil =>
    cases h
    exact ⟨nofun, fun _ hf => hf⟩
  | cons name names ih =>
    rw [takeFirst] at h
    split at h
    · rename_i j hlookup
      cases h
      obtain ⟨l₁, l₂, rfl, -⟩ := List.lookup_eq_some_iff.mp hlookup
      refine ⟨?_, fun f hf => List.mem_of_mem_filter hf⟩
      rintro _ ⟨rfl⟩
      exact ⟨name, List.mem_append_right _ List.mem_cons_self⟩
    · exact ih h

/-- What a document in canonical form gives is loaded. -/
theorem of_ofJson {j : Json} (hj : j.IsSorted) (h : ofJson j = .ok s) : s.Loaded := by
  unfold ofJson at h
  split at h
  · exact (loaded_empty.addList onlyStatic_empty hj h).1
  · rename_i fields
    obtain ⟨templates, rest₁, h₁⟩ : ∃ doc rest, takeFirst ["templates"] fields = (doc, rest) :=
      ⟨_, _, rfl⟩
    obtain ⟨policies, rest₂, h₂⟩ :
        ∃ doc rest, takeFirst ["staticPolicies", "policies"] rest₁ = (doc, rest) := ⟨_, _, rfl⟩
    obtain ⟨links, rest₃, h₃⟩ :
        ∃ doc rest, takeFirst ["templateLinks", "links"] rest₂ = (doc, rest) := ⟨_, _, rfl⟩
    simp only [h₁, h₂, h₃] at h
    have hsorted := Json.isSortedFields_iff.mp hj.2
    have htemplates : ∀ j ∈ templates, j.IsSorted := fun j hmem => by
      obtain ⟨name, hname⟩ := (mem_of_takeFirst h₁).1 j hmem
      exact hsorted _ hname
    have hpolicies : ∀ j ∈ policies, j.IsSorted := fun j hmem => by
      obtain ⟨name, hname⟩ := (mem_of_takeFirst h₂).1 j hmem
      exact hsorted _ ((mem_of_takeFirst h₁).2 _ hname)
    obtain ⟨s₁, hs₁, h⟩ := bind_eq_ok_iff.mp h
    obtain ⟨s₂, hs₂, h⟩ := bind_eq_ok_iff.mp h
    obtain ⟨s₃, hs₃, h⟩ := bind_eq_ok_iff.mp h
    obtain ⟨hloaded₁, honly₁⟩ := loaded_empty.addSection onlyStatic_empty htemplates hs₁
    obtain ⟨hloaded₂, -⟩ := hloaded₁.addSection honly₁ hpolicies hs₂
    have hloaded₃ := hloaded₂.addLinkSection hs₃
    split at h
    · cases h
      exact hloaded₃
    · cases h
  · cases h

end Loaded

/-! ## 2. Adding what is new -/

theorem addTemplate_of_fresh {t : Template} (h : s.templates.find? t.id = none) :
    s.addTemplate t = .ok { s with templates := s.templates.insert t.id t } := by
  rw [addTemplate, if_neg]
  rw [SortedMap.contains_eq_false_iff.mpr h]
  exact Bool.false_ne_true

theorem addStatic_of_fresh {t : Template} (hslots : t.hasSlots = false)
    (htemplates : s.templates.find? t.id = none) (hlinks : s.links.find? t.id = none) :
    s.addStatic t
      = .ok ⟨s.templates.insert t.id t, s.links.insert t.id ⟨t, none, .empty⟩⟩ := by
  have hp : Policy.newStatic t = .ok ⟨t, none, .empty⟩ :=
    Policy.newStatic_eq_ok_iff.mpr ⟨hslots, rfl⟩
  rw [addStatic, SortedMap.contains_eq_false_iff.mpr htemplates,
    SortedMap.contains_eq_false_iff.mpr hlinks, hp]
  rfl

theorem link_of_fresh {t : Template} {p : Policy} {template id : PolicyId} {values : SlotValues}
    (ht : s.templates.find? template = some t) (hp : Policy.ofLink t id values = .ok p)
    (htemplates : s.templates.find? id = none) (hlinks : s.links.find? id = none) :
    s.link template id values = .ok (p, { s with links := s.links.insert id p }) := by
  rw [link, ht]
  simp only [SortedMap.contains_eq_false_iff.mpr htemplates,
    SortedMap.contains_eq_false_iff.mpr hlinks, hp]
  rfl

/-- The body of a template is added as the template. -/
theorem addBody_toJson {t : Template} (ht : t.Documented) :
    s.addBody t.id t.toJson.sorted
      = (if t.hasSlots then s.addTemplate t else s.addStatic t).mapError .set := by
  have hread := Template.ofJson_toJson ht t.id
  rw [addBody, hread]
  rfl

/-! ## 3. Adding what was written -/

/-- Templates with slots are added under new ids. -/
theorem addFields_templates : ∀ (ts : List Template) (s : PolicySet),
    (∀ t ∈ ts, t.Documented ∧ t.hasSlots = true ∧ s.templates.find? t.id = none) →
    (ts.map Template.id).Nodup →
      s.addFields (ts.map fun t => (t.id.name, t.toJson.sorted))
        = .ok { s with templates := s.templates.insertAll Template.id ts }
  | [], _, _, _ => rfl
  | t :: ts, s, h, hnodup => by
    obtain ⟨⟨hdoc, hslots, hfresh⟩, hts⟩ := List.forall_mem_cons.mp h
    obtain ⟨hid, hids⟩ := List.nodup_cons.mp hnodup
    have hbody : s.addBody t.id t.toJson.sorted
        = .ok { s with templates := s.templates.insert t.id t } := by
      rw [addBody_toJson hdoc, if_pos hslots, addTemplate_of_fresh hfresh]
      rfl
    have hrest := addFields_templates ts { s with templates := s.templates.insert t.id t }
      (fun t' ht' => by
        obtain ⟨hdoc', hslots', hfresh'⟩ := hts t' ht'
        have hne : t'.id ≠ t.id := fun heq => hid (heq ▸ List.mem_map_of_mem ht')
        exact ⟨hdoc', hslots', (SortedMap.find?_insert_of_ne _ _ hne).trans hfresh'⟩) hids
    rw [List.map_cons, addFields]
    exact (congrArg (· >>= _) hbody).trans hrest

/-- Static policies are added under new ids. -/
theorem addFields_statics : ∀ (ps : List Policy) (s : PolicySet),
    (∀ p ∈ ps, Policy.newStatic p.template = .ok p ∧ p.template.Documented ∧
      s.templates.find? p.id = none ∧ s.links.find? p.id = none) →
    (ps.map Policy.id).Nodup →
      s.addFields (ps.map fun p => (p.id.name, p.template.toJson.sorted))
        = .ok ⟨s.templates.insertAll Template.id (ps.map Policy.template),
          s.links.insertAll Policy.id ps⟩
  | [], _, _, _ => rfl
  | p :: ps, s, h, hnodup => by
    obtain ⟨⟨hp, hdoc, htemplates, hlinks⟩, hps⟩ := List.forall_mem_cons.mp h
    obtain ⟨hid, hids⟩ := List.nodup_cons.mp hnodup
    obtain ⟨hslots, hstatic⟩ := Policy.newStatic_eq_ok_iff.mp hp
    have hpid : p.id = p.template.id := by
      rw [hstatic]
      rfl
    rw [hpid] at htemplates hlinks
    have hbody : s.addBody p.id p.template.toJson.sorted
        = .ok ⟨s.templates.insert p.template.id p.template, s.links.insert p.id p⟩ := by
      rw [hpid, addBody_toJson hdoc, if_neg (by rw [hslots]; exact Bool.false_ne_true),
        addStatic_of_fresh hslots htemplates hlinks, ← hstatic]
      rfl
    have hrest := addFields_statics ps
      ⟨s.templates.insert p.template.id p.template, s.links.insert p.id p⟩
      (fun p' hp' => by
        obtain ⟨hstatic', hdoc', htemplates', hlinks'⟩ := hps p' hp'
        have hne : p'.id ≠ p.id := fun heq => hid (heq ▸ List.mem_map_of_mem hp')
        exact ⟨hstatic', hdoc',
          (SortedMap.find?_insert_of_ne _ _ (hpid ▸ hne)).trans htemplates',
          (SortedMap.find?_insert_of_ne _ _ hne).trans hlinks'⟩) hids
    rw [List.map_cons, addFields]
    exact (congrArg (· >>= _) hbody).trans hrest

/-- The link of a linked policy. -/
def LinkDocument.ofPolicy (p : Policy) : LinkDocument := ⟨p.template.id, p.id, p.values⟩

/-- A link is read back. -/
theorem ofJson?_linkJson (p : Policy) :
    LinkDocument.ofJson? (linkJson p).sorted = some (.ofPolicy p) := by
  have hfields : (linkJson p).sorted.fields? ["templateId", "newId", "values"]
      = some [some (.string p.template.id.name), some (.string p.id.name),
        some (SlotValues.toJson p.values).sorted] := by
    refine (Json.fields?_sorted ?_ _).trans rfl
    simp
  simp only [LinkDocument.ofJson?, hfields, Json.withDefault?, SlotValues.ofJson?_toJson,
    Option.bind_eq_bind, Option.bind_some]
  rfl

/-- Links are added under new ids. -/
theorem addLinks_linked : ∀ (ps : List Policy) (s : PolicySet),
    (∀ p ∈ ps, Policy.ofLink p.template p.id p.values = .ok p ∧
      s.templates.find? p.template.id = some p.template ∧
      s.templates.find? p.id = none ∧ s.links.find? p.id = none) →
    (ps.map Policy.id).Nodup →
      s.addLinks (ps.map LinkDocument.ofPolicy)
        = .ok { s with links := s.links.insertAll Policy.id ps }
  | [], _, _, _ => rfl
  | p :: ps, s, h, hnodup => by
    obtain ⟨⟨hp, ht, htemplates, hlinks⟩, hps⟩ := List.forall_mem_cons.mp h
    obtain ⟨hid, hids⟩ := List.nodup_cons.mp hnodup
    have hlink := link_of_fresh ht hp htemplates hlinks
    have hrest := addLinks_linked ps { s with links := s.links.insert p.id p }
      (fun p' hp' => by
        obtain ⟨hlink', ht', htemplates', hlinks'⟩ := hps p' hp'
        have hne : p'.id ≠ p.id := fun heq => hid (heq ▸ List.mem_map_of_mem hp')
        exact ⟨hlink', ht', htemplates',
          (SortedMap.find?_insert_of_ne _ _ hne).trans hlinks'⟩) hids
    rw [List.map_cons, addLinks]
    simp only [LinkDocument.ofPolicy, hlink]
    exact hrest

/-! ## 4. The sections -/

theorem WellFormed.mem_policies_iff_find? (hs : s.WellFormed) {p : Policy} :
    p ∈ s.policies ↔ s.links.find? p.id = some p := by
  rw [PolicySet.mem_policies_iff]
  constructor
  · rintro ⟨id, h⟩
    rw [hs.policy_id h]
    exact h
  · intro h
    exact ⟨p.id, h⟩

theorem WellFormed.mem_allTemplates_iff_find? (hs : s.WellFormed) {t : Template} :
    t ∈ s.allTemplates ↔ s.templates.find? t.id = some t := by
  rw [allTemplates, SortedMap.mem_values_iff]
  constructor
  · rintro ⟨id, h⟩
    rw [hs.template_id h]
    exact h
  · intro h
    exact ⟨t.id, h⟩

theorem WellFormed.mem_slotTemplates_iff (hs : s.WellFormed) {t : Template} :
    t ∈ s.slotTemplates ↔ s.templates.find? t.id = some t ∧ t.hasSlots = true := by
  rw [slotTemplates, List.mem_filter, hs.mem_allTemplates_iff_find?]

theorem WellFormed.mem_staticPolicies_iff (hs : s.WellFormed) {p : Policy} :
    p ∈ s.staticPolicies ↔ s.links.find? p.id = some p ∧ p.isStatic = true := by
  rw [staticPolicies, List.mem_filter, hs.mem_policies_iff_find?]

theorem WellFormed.mem_linkedPolicies_iff (hs : s.WellFormed) {p : Policy} :
    p ∈ s.linkedPolicies ↔ s.links.find? p.id = some p ∧ p.isStatic = false := by
  rw [linkedPolicies, List.mem_filter, hs.mem_policies_iff_find?, Bool.not_eq_true']

/-- Templates are in strictly ascending order of their ids. -/
theorem WellFormed.ascending_allTemplates (hs : s.WellFormed) :
    SortedList.Strict (s.allTemplates.map Template.id) := by
  have hids : s.allTemplates.map Template.id = s.templates.entries.map Prod.fst := by
    unfold allTemplates SortedMap.values
    rw [List.map_map]
    refine List.map_congr_left ?_
    rintro ⟨id, t⟩ hmem
    exact hs.template_id (SortedMap.mem_entries_iff.mp hmem)
  rw [hids]
  exact SortedList.ascending_iff_keys.mp s.templates.ascending

/-- A part of what is in the order of ids is written in the order of their names. -/
theorem sorted_section {α : Type} {id : α → PolicyId} (doc : α → Json) {l l' : List α}
    (h : SortedList.Strict (l.map id)) (hl : l'.Sublist l) :
    (Json.object (l'.map fun a => ((id a).name, doc a))).sorted
      = .object (l'.map fun a => ((id a).name, (doc a).sorted)) := by
  have hascending : SortedList.Ascending (l'.map fun a => ((id a).name, doc a)) := by
    have hids := h.sublist (hl.map id)
    rw [List.pairwise_map] at hids
    exact List.Pairwise.map _ (fun _ _ hlt => hlt) hids
  rw [Json.sorted_object hascending, List.map_map]
  rfl

theorem nodup_section {α : Type} {id : α → PolicyId} {l l' : List α}
    (h : SortedList.Strict (l.map id)) (hl : l'.Sublist l) : (l'.map id).Nodup :=
  SortedList.Strict.nodup (h.sublist (hl.map id))

/-- The canonical form of the document of a set. -/
theorem WellFormed.sorted_toJson (hs : s.WellFormed) : s.toJson.sorted = .object [
    ("staticPolicies",
      .object (s.staticPolicies.map fun p => (p.id.name, p.template.toJson.sorted))),
    ("templateLinks", .array (s.linkedPolicies.map fun p => (linkJson p).sorted)),
    ("templates", .object (s.slotTemplates.map fun t => (t.id.name, t.toJson.sorted)))] := by
  have hts : compare "templates" "staticPolicies" = Ordering.gt := by decide
  have hls : compare "templateLinks" "staticPolicies" = Ordering.gt := by decide
  have hlt : compare "templateLinks" "templates" = Ordering.lt := by decide
  have hstatics := sorted_section (fun p : Policy => p.template.toJson)
    hs.ascending_policies (List.filter_sublist (p := Policy.isStatic))
  have htemplates := sorted_section Template.toJson hs.ascending_allTemplates
    (List.filter_sublist (p := Template.hasSlots))
  have hlinks : (Json.array (s.linkedPolicies.map linkJson)).sorted
      = .array (s.linkedPolicies.map fun p => (linkJson p).sorted) := by
    rw [Json.sorted, Json.sortedItems_eq_map, List.map_map]
    rfl
  rw [toJson, Json.sorted, Json.sortedFields_eq_map]
  simp only [List.map_cons, List.map_nil, SortedList.ofPairs, List.foldl_cons, List.foldl_nil,
    SortedList.put, hts, hls, hlt]
  rw [hlinks]
  exact congrArg₂ (fun statics templates =>
    Json.object [("staticPolicies", statics), _, ("templates", templates)]) hstatics htemplates

/-! ## 5. The whole document -/

/-- A document in canonical form with all three sections. -/
theorem ofJson_sections (statics templates : List (String × Json)) (links : List Json) :
    ofJson (.object [("staticPolicies", .object statics), ("templateLinks", .array links),
      ("templates", .object templates)]) = (do
        let s ← empty.addFields templates
        let s ← s.addFields statics
        s.addLinkSection (some (.array links))) := by
  have htemplates : takeFirst ["templates"] [("staticPolicies", .object statics),
      ("templateLinks", .array links), ("templates", .object templates)]
        = (some (.object templates), [("staticPolicies", .object statics),
          ("templateLinks", .array links)]) := rfl
  have hstatics : takeFirst ["staticPolicies", "policies"] [("staticPolicies", .object statics),
      ("templateLinks", .array links)]
        = (some (.object statics), [("templateLinks", .array links)]) := rfl
  have hlinks : takeFirst ["templateLinks", "links"] [("templateLinks", .array links)]
      = (some (.array links), []) := rfl
  simp only [ofJson, htemplates, hstatics, hlinks, addSection, bind_pure]

theorem addLinkSection_linkJson (ps : List Policy) (s : PolicySet) :
    s.addLinkSection (some (.array (ps.map fun p => (linkJson p).sorted)))
      = s.addLinks (ps.map LinkDocument.ofPolicy) := by
  have hread : Json.listOf? LinkDocument.ofJson? (.array (ps.map fun p => (linkJson p).sorted))
      = some (ps.map LinkDocument.ofPolicy) := mapM_map_eq_map fun p _ => ofJson?_linkJson p
  simp only [addLinkSection, hread]

namespace Loaded

/-- A template stands in the section of templates or is the body of a static policy. -/
theorem insertAll_templates (hs : s.Loaded) :
    SortedMap.empty.insertAll Template.id (s.slotTemplates ++ s.staticPolicies.map Policy.template)
      = s.templates := by
  refine SortedMap.insertAll_eq (fun t ht => ?_) fun {id t} hfind => ?_
  · rcases List.mem_append.mp ht with ht | ht
    · exact (hs.wellFormed.mem_slotTemplates_iff.mp ht).1
    · obtain ⟨p, hp, rfl⟩ := List.mem_map.mp ht
      exact hs.wellFormed.template (hs.wellFormed.mem_staticPolicies_iff.mp hp).1
  · obtain rfl : t.id = id := hs.wellFormed.template_id hfind
    refine ⟨rfl, List.mem_append.mpr ?_⟩
    cases hslots : t.hasSlots with
    | true => exact Or.inl (hs.wellFormed.mem_slotTemplates_iff.mpr ⟨hfind, hslots⟩)
    | false =>
      have hmem : (⟨t, none, .empty⟩ : Policy) ∈ s.staticPolicies :=
        hs.wellFormed.mem_staticPolicies_iff.mpr ⟨hs.static hfind hslots, rfl⟩
      exact Or.inr (List.mem_map_of_mem hmem)

/-- A policy is static or linked. -/
theorem insertAll_links (hs : s.Loaded) :
    SortedMap.empty.insertAll Policy.id (s.staticPolicies ++ s.linkedPolicies) = s.links := by
  refine SortedMap.insertAll_eq (fun p hp => ?_) fun {id p} hfind => ?_
  · rcases List.mem_append.mp hp with hp | hp
    · exact (hs.wellFormed.mem_staticPolicies_iff.mp hp).1
    · exact (hs.wellFormed.mem_linkedPolicies_iff.mp hp).1
  · obtain rfl : p.id = id := hs.wellFormed.policy_id hfind
    refine ⟨rfl, List.mem_append.mpr ?_⟩
    cases hstatic : p.isStatic with
    | true => exact Or.inl (hs.wellFormed.mem_staticPolicies_iff.mpr ⟨hfind, hstatic⟩)
    | false => exact Or.inr (hs.wellFormed.mem_linkedPolicies_iff.mpr ⟨hfind, hstatic⟩)

/-- The section of static policies is read after that of the templates with slots. -/
theorem addFields_staticPolicies (hs : s.Loaded) :
    PolicySet.addFields ⟨SortedMap.empty.insertAll Template.id s.slotTemplates, .empty⟩
      (s.staticPolicies.map fun p => (p.id.name, p.template.toJson.sorted))
        = .ok ⟨s.templates, SortedMap.empty.insertAll Policy.id s.staticPolicies⟩ := by
  have hwell := hs.wellFormed
  rw [← hs.insertAll_templates, SortedMap.insertAll_append]
  refine addFields_statics _ _ (fun p hp => ?_)
    (nodup_section hwell.ascending_policies List.filter_sublist)
  obtain ⟨hfind, hstatic⟩ := hs.wellFormed.mem_staticPolicies_iff.mp hp
  have hp' := (hwell.made hfind).newStatic_template hstatic
  obtain ⟨hslots, hpolicy⟩ := Policy.newStatic_eq_ok_iff.mp hp'
  have hid : p.id = p.template.id := by
    rw [hpolicy]
    rfl
  have hnotMem : p.id ∉ s.slotTemplates.map Template.id := by
    intro hmem
    obtain ⟨t, ht, htid⟩ := List.mem_map.mp hmem
    obtain ⟨hfind', hslots'⟩ := hs.wellFormed.mem_slotTemplates_iff.mp ht
    rw [htid, hid, hwell.template hfind] at hfind'
    cases hfind'
    rw [hslots] at hslots'
    cases hslots'
  exact ⟨hp', hs.documented (hwell.template hfind), SortedMap.find?_insertAll_of_notMem hnotMem,
    rfl⟩

/-- The links are read after all bodies. -/
theorem addLinks_linkedPolicies (hs : s.Loaded) :
    PolicySet.addLinks ⟨s.templates, SortedMap.empty.insertAll Policy.id s.staticPolicies⟩
      (s.linkedPolicies.map LinkDocument.ofPolicy) = .ok s := by
  have hwell := hs.wellFormed
  have hs' : s = ⟨s.templates, (SortedMap.empty.insertAll Policy.id s.staticPolicies).insertAll
      Policy.id s.linkedPolicies⟩ := by
    rw [← SortedMap.insertAll_append, hs.insertAll_links]
  conv_rhs => rw [hs']
  refine addLinks_linked _ _ (fun p hp => ?_)
    (nodup_section hwell.ascending_policies List.filter_sublist)
  obtain ⟨hfind, hlinked⟩ := hs.wellFormed.mem_linkedPolicies_iff.mp hp
  have hnotMem : p.id ∉ s.staticPolicies.map Policy.id := by
    intro hmem
    obtain ⟨p', hp', hid⟩ := List.mem_map.mp hmem
    obtain ⟨hfind', hstatic⟩ := hs.wellFormed.mem_staticPolicies_iff.mp hp'
    rw [hid, hfind] at hfind'
    cases hfind'
    rw [hlinked] at hstatic
    cases hstatic
  exact ⟨(hwell.made hfind).ofLink_template hlinked, hwell.template hfind, hs.linked hfind hlinked,
    SortedMap.find?_insertAll_of_notMem hnotMem⟩

/-- **What is loaded is read back from its document.** -/
theorem ofJson_toJson (hs : s.Loaded) : ofJson s.toJson.sorted = .ok s := by
  have htemplates : empty.addFields (s.slotTemplates.map fun t => (t.id.name, t.toJson.sorted))
      = .ok ⟨SortedMap.empty.insertAll Template.id s.slotTemplates, .empty⟩ := by
    refine addFields_templates _ _ (fun t ht => ?_)
      (nodup_section hs.wellFormed.ascending_allTemplates List.filter_sublist)
    obtain ⟨hfind, hslots⟩ := hs.wellFormed.mem_slotTemplates_iff.mp ht
    exact ⟨hs.documented hfind, hslots, rfl⟩
  rw [hs.wellFormed.sorted_toJson, ofJson_sections, htemplates, ok_bind,
    hs.addFields_staticPolicies, ok_bind, addLinkSection_linkJson, hs.addLinks_linkedPolicies]

end Loaded

/-- **A loaded policy set is read back from its document.** -/
theorem ofJson_toJson_of_ofJson {j : Json} (h : ofJson j.sorted = .ok s) :
    ofJson s.toJson.sorted = .ok s :=
  (Loaded.of_ofJson (Json.isSorted_sorted j) h).ofJson_toJson

/-! ## 6. A set with all sections -/

namespace Sharing

/-- A template with a slot, a list with one static policy, and a link to each of the two. -/
def document : Json := .object [
  ("templates", .object [("share", .object [("effect", .string "permit"),
    ("principal", .object [("op", .string "=="), ("slot", .string "?principal")])])]),
  ("policies", .array [.object [("effect", .string "forbid"),
    ("conditions", .array [.object [("kind", .string "unless"),
      ("body", .single "has" (.object [("left", .single "Var" (.string "context")),
        ("attr", .string "badge")]))]])]]),
  ("links", .array [
    .object [("templateId", .string "share"), ("newId", .string "ann"),
      ("values", .object [("?principal", .object [("type", .string "User"), ("id", .string "ann")])])],
    .object [("templateId", .string "policy0"), ("newId", .string "badges")]])]

def share : Template where
  id := ⟨"share"⟩
  effect := .permit
  principal := .eq (.slot .principal)

def badges : Template where
  id := ⟨"policy0"⟩
  effect := .forbid
  conditions := [⟨.unless, .hasAttr (.var .context) "badge"⟩]

/-- The set that the document describes. -/
def policies : PolicySet where
  templates := .ofList [(badges.id, badges), (share.id, share)]
  links := .ofList [
    (⟨"ann"⟩, ⟨share, some ⟨"ann"⟩, .ofList [(.principal, ⟨⟨"User"⟩, "ann"⟩)]⟩),
    (⟨"badges"⟩, ⟨badges, some ⟨"badges"⟩, .empty⟩),
    (badges.id, ⟨badges, none, .empty⟩)]

theorem ofJson_document : ofJson document.sorted = .ok policies :=
  eq_ok_of_toOption (by decide +kernel)

/-- The set is read back. -/
theorem ofJson_toJson_policies : ofJson document.sorted = .ok policies ∧
    ofJson policies.toJson.sorted = .ok policies :=
  ⟨ofJson_document, ofJson_toJson_of_ofJson ofJson_document⟩

end Sharing

end Arbiter.PolicySet
