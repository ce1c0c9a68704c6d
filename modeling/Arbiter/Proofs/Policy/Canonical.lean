/-
# The canonical text and the policies

The canonical text of a policy set has the bodies of its static policies, those of its templates with
slots, and its links.  A template without slots that no static policy has for its body stands nowhere
in it, though it can be linked (`PolicySet.canonical_unwritten`).

The text determines the policies of a set when each of them has a body that is written
(`PolicySet.WritesBodies`) and the bodies are told apart by their documents (`PolicySet.Faithful`).
Every decision on a request is then the same for all sets of one text
(`PolicySet.authorize_eq_of_canonical_eq`).
-/
import Arbiter.Proofs.Authorization.Decision
import Arbiter.Proofs.Expr.Faithful
import Arbiter.Proofs.Policy.Loading

namespace Arbiter

/-! ## 1. Documents without doubles -/

@[simp] theorem EntityUid.isExact_toJson (u : EntityUid) : u.toJson.IsExact := by
  simp [toJson]

@[simp] theorem RefDocument.isExactFields_fields (d : RefDocument) :
    Json.IsExactFields d.fields := by
  simp [fields]

theorem ScopeDocument.isExact_toJson (d : ScopeDocument) : d.toJson.IsExact := by
  have hentities (us : List EntityUid) : (Json.array (us.map EntityUid.toJson)).IsExact :=
    Json.isExact_array_map fun u _ => u.isExact_toJson
  simp [toJson, hentities]

theorem Condition.isExact_toJson (c : Condition) : c.toJson.IsExact := by
  simp [toJson, c.body.isExact_toJson]

theorem Template.isExact_toJson (t : Template) : t.toJson.IsExact := by
  have hconditions : (Json.array (t.conditions.map Condition.toJson)).IsExact :=
    Json.isExact_array_map fun c _ => c.isExact_toJson
  have hannotations : (annotationsJson t.annotations).IsExact :=
    Json.isExact_object_map fun _ _ => trivial
  have hscope (c : ScopeConstraint) : c.toJson.IsExact := c.toDocument.isExact_toJson
  have haction : t.action.toJson.IsExact := t.action.toDocument.isExact_toJson
  unfold annotationsJson at hannotations
  simpa [toJson, jsonFields, hconditions, hscope, haction] using fun _ => hannotations

theorem SlotValues.isExact_toJson (values : SlotValues) : (toJson values).IsExact :=
  Json.isExact_object_map fun v _ => v.2.isExact_toJson

namespace PolicySet

theorem isExact_linkJson (p : Policy) : (linkJson p).IsExact := by
  simp [linkJson, SlotValues.isExact_toJson]

/-- The numbers in the document of a policy set are integers of 64 bits. -/
theorem isExact_toJson (s : PolicySet) : s.toJson.IsExact := by
  refine ⟨?_, ?_, ?_, trivial⟩
  · exact Json.isExact_object_map fun p _ => p.template.isExact_toJson
  · exact Json.isExact_object_map fun t _ => t.isExact_toJson
  · exact Json.isExact_array_map fun p _ => isExact_linkJson p

/-- Two sets of one text have one document. -/
theorem toJson_eq_of_canonical_eq {s s' : PolicySet} (h : s.canonical = s'.canonical) :
    s.toJson = s'.toJson :=
  Json.compact_injective s.isExact_toJson s'.isExact_toJson h

end PolicySet

/-! ## 2. Templates of different documents -/

theorem PolicyId.name_injective : ∀ {id id' : PolicyId}, id.name = id'.name → id = id'
  | ⟨_⟩, ⟨_⟩, rfl => rfl

theorem Effect.name_injective {e e' : Effect} (h : e.name = e'.name) : e = e' := by
  have hread := ofName?_name e
  rw [h, ofName?_name] at hread
  exact (Option.some.inj hread).symm

theorem ConditionKind.name_injective {k k' : ConditionKind} (h : k.name = k'.name) : k = k' := by
  have hread := ofName?_name k
  rw [h, ofName?_name] at hread
  exact (Option.some.inj hread).symm

theorem ScopeConstraint.toJson_injective {c c' : ScopeConstraint} (h : c.toJson = c'.toJson) :
    c = c' := by
  have hread := ofJson_toJson c
  rw [h, ofJson_toJson] at hread
  exact (Except.ok.inj hread).symm

theorem ActionConstraint.toJson_injective {c c' : ActionConstraint} (h : c.toJson = c'.toJson) :
    c = c' := by
  have hread := ofJson_toJson c
  rw [h, ofJson_toJson] at hread
  exact (Except.ok.inj hread).symm

theorem SlotValues.toJson_injective {values values' : SlotValues}
    (h : toJson values = toJson values') : values = values' := by
  have hread := ofJson?_toJson values
  rw [h, ofJson?_toJson] at hread
  exact (Option.some.inj hread).symm

theorem Condition.eq_of_toJson_eq {c c' : Condition} (hc : c.body.Faithful)
    (hc' : c'.body.Faithful) (h : c.toJson = c'.toJson) : c = c' := by
  obtain ⟨kind, body⟩ := c
  obtain ⟨kind', body'⟩ := c'
  simp only [toJson, Json.object.injEq, List.cons.injEq, Prod.mk.injEq, true_and, and_true,
    Json.string.injEq] at h
  obtain ⟨hkind, hbody⟩ := h
  have hbody : body = body' := Expr.toJson_injective hc hc' hbody
  rw [ConditionKind.name_injective hkind, hbody]

namespace Template

/-- Whether the bodies of the conditions are told apart by their documents. -/
def Faithful (t : Template) : Prop := ∀ c ∈ t.conditions, c.body.Faithful

theorem conditions_injective : ∀ {cs cs' : List Condition},
    (∀ c ∈ cs, c.body.Faithful) → (∀ c ∈ cs', c.body.Faithful) →
      cs.map Condition.toJson = cs'.map Condition.toJson → cs = cs'
  | [], [], _, _, _ => rfl
  | c :: cs, c' :: cs', hcs, hcs', h => by
    obtain ⟨hhead, htail⟩ := List.cons.inj h
    obtain ⟨hc, hcs⟩ := List.forall_mem_cons.mp hcs
    obtain ⟨hc', hcs'⟩ := List.forall_mem_cons.mp hcs'
    rw [Condition.eq_of_toJson_eq hc hc' hhead, conditions_injective hcs hcs' htail]

theorem annotations_injective {annotations annotations' : SortedMap String String}
    (h : Json.optionalField "annotations"
        (if annotations.isEmpty then none else some (annotationsJson annotations))
      = Json.optionalField "annotations"
        (if annotations'.isEmpty then none else some (annotationsJson annotations'))) :
    annotations = annotations' := by
  cases hempty : annotations.isEmpty <;> cases hempty' : annotations'.isEmpty <;>
    simp [hempty, hempty', Json.optionalField] at h
  · have hread := annotationsOfJson?_annotationsJson annotations
    rw [h, annotationsOfJson?_annotationsJson] at hread
    exact (Option.some.inj hread).symm
  · exact SortedMap.ext ((List.isEmpty_iff.mp hempty).trans (List.isEmpty_iff.mp hempty').symm)

/-- **Templates of one id are told apart by their documents.** -/
theorem eq_of_toJson_eq {t t' : Template} (ht : t.Faithful) (ht' : t'.Faithful)
    (hid : t.id = t'.id) (h : t.toJson = t'.toJson) : t = t' := by
  obtain ⟨id, effect, principal, action, resource, conditions, annotations⟩ := t
  obtain ⟨id', effect', principal', action', resource', conditions', annotations'⟩ := t'
  obtain ⟨hfields, hannotations⟩ := List.append_inj (Json.object.inj h) rfl
  simp only [List.cons.injEq, Prod.mk.injEq, true_and, and_true, Json.string.injEq,
    Json.array.injEq] at hfields
  obtain ⟨heffect, hprincipal, haction, hresource, hconditions⟩ := hfields
  have hconditions : conditions = conditions' := conditions_injective ht ht' hconditions
  have hannotations : annotations = annotations' := annotations_injective hannotations
  have hid : id = id' := hid
  rw [hid, Effect.name_injective heffect, ScopeConstraint.toJson_injective hprincipal,
    ActionConstraint.toJson_injective haction, ScopeConstraint.toJson_injective hresource,
    hconditions, hannotations]

end Template

namespace PolicySet

/-! ## 3. What is written -/

/-- The body of every policy is that of a static policy or of a template with slots. -/
def WritesBodies (s : PolicySet) : Prop :=
  ∀ p ∈ s.policies, p.template ∈ s.slotTemplates ∨ p.template ∈ s.staticPolicies.map Policy.template

instance (s : PolicySet) : Decidable s.WritesBodies :=
  inferInstanceAs (Decidable (∀ p ∈ s.policies,
    p.template ∈ s.slotTemplates ∨ p.template ∈ s.staticPolicies.map Policy.template))

/-- The bodies of the policies are told apart by their documents. -/
def Faithful (s : PolicySet) : Prop := ∀ p ∈ s.policies, p.template.Faithful

variable {P Q : PolicySet}

/-- Two sets of one document have the same sections. -/
theorem sections_of_toJson_eq (h : P.toJson = Q.toJson) :
    P.staticPolicies.map (fun p => (p.id.name, p.template.toJson))
        = Q.staticPolicies.map (fun p => (p.id.name, p.template.toJson)) ∧
      P.slotTemplates.map (fun t => (t.id.name, t.toJson))
        = Q.slotTemplates.map (fun t => (t.id.name, t.toJson)) ∧
      P.linkedPolicies.map linkJson = Q.linkedPolicies.map linkJson := by
  simpa only [toJson, Json.object.injEq, List.cons.injEq, Prod.mk.injEq, true_and, and_true,
    Json.array.injEq] using h

theorem linkJson_injective {p q : Policy} (h : linkJson p = linkJson q) :
    p.template.id = q.template.id ∧ p.id = q.id ∧ p.values = q.values := by
  simp only [linkJson, Json.object.injEq, List.cons.injEq, Prod.mk.injEq, true_and, and_true,
    Json.string.injEq] at h
  obtain ⟨htemplate, hid, hvalues⟩ := h
  exact ⟨PolicyId.name_injective htemplate, PolicyId.name_injective hid,
    SlotValues.toJson_injective hvalues⟩

/-- A static policy that is made goes by the id of its template. -/
theorem WellFormed.eq_of_mem_staticPolicies (hP : P.WellFormed) {p : Policy}
    (hp : p ∈ P.staticPolicies) : p ∈ P.policies ∧ p = ⟨p.template, none, .empty⟩ := by
  obtain ⟨hmem, hstatic⟩ := List.mem_filter.mp hp
  exact ⟨hmem, (Policy.newStatic_eq_ok_iff.mp
    ((hP.made_of_mem hmem).newStatic_template hstatic)).2⟩

/-- A static policy is one of the other set too. -/
theorem mem_of_mem_staticPolicies (hP : P.WellFormed) (hQ : Q.WellFormed) (hPf : P.Faithful)
    (hQf : Q.Faithful) (h : P.toJson = Q.toJson) {p : Policy} (hp : p ∈ P.staticPolicies) :
    p ∈ Q.policies := by
  obtain ⟨hstatics, -, -⟩ := sections_of_toJson_eq h
  obtain ⟨hpmem, hpeq⟩ := hP.eq_of_mem_staticPolicies hp
  have hmem : (p.id.name, p.template.toJson)
      ∈ Q.staticPolicies.map fun p => (p.id.name, p.template.toJson) := by
    rw [← hstatics]
    exact List.mem_map_of_mem hp
  obtain ⟨q, hq, heq⟩ := List.mem_map.mp hmem
  obtain ⟨hqmem, hqeq⟩ := hQ.eq_of_mem_staticPolicies hq
  obtain ⟨hname, hjson⟩ := Prod.mk.inj heq
  have hid : q.template.id = p.template.id := by
    have hid := PolicyId.name_injective hname
    rw [hpeq, hqeq] at hid
    exact hid
  have htemplate : q.template = p.template :=
    Template.eq_of_toJson_eq (hQf q hqmem) (hPf p hpmem) hid hjson
  rw [hpeq, ← htemplate, ← hqeq]
  exact hqmem

/-- A body that is written is the template of its id in the other set too, if a policy there has a
template of that id. -/
theorem template_eq_of_written (hP : P.WellFormed) (hQ : Q.WellFormed) (hPf : P.Faithful)
    (hQf : Q.Faithful) (hbodies : P.WritesBodies) (h : P.toJson = Q.toJson) {p q : Policy}
    (hp : p ∈ P.policies) (hq : q ∈ Q.policies) (hid : p.template.id = q.template.id) :
    p.template = q.template := by
  have hqt : Q.templates.find? q.template.id = some q.template :=
    hQ.template (hQ.mem_policies_iff_find?.mp hq)
  rcases hbodies p hp with hslots | hstatic
  · -- the section of templates holds it in both sets
    obtain ⟨-, htemplates, -⟩ := sections_of_toJson_eq h
    have hmem : (p.template.id.name, p.template.toJson)
        ∈ Q.slotTemplates.map fun t => (t.id.name, t.toJson) := by
      rw [← htemplates]
      exact List.mem_map_of_mem hslots
    obtain ⟨t, ht, heq⟩ := List.mem_map.mp hmem
    obtain ⟨hname, hjson⟩ := Prod.mk.inj heq
    have htid : t.id = p.template.id := PolicyId.name_injective hname
    have hfind := hQ.mem_allTemplates_iff_find?.mp (List.mem_filter.mp ht).1
    rw [htid, hid, hqt] at hfind
    cases hfind
    exact Template.eq_of_toJson_eq (hPf p hp) (hQf q hq) hid hjson.symm
  · -- it is the body of a static policy, which is one of both sets
    obtain ⟨r, hr, hrt⟩ := List.mem_map.mp hstatic
    have hrmem := mem_of_mem_staticPolicies hP hQ hPf hQf h hr
    have hfind := hQ.template (hQ.mem_policies_iff_find?.mp hrmem)
    rw [hrt, hid, hqt] at hfind
    exact (Option.some.inj hfind).symm

/-- Two links of one document are the same when the body of one of them is written. -/
theorem eq_of_linkJson_eq (hP : P.WellFormed) (hQ : Q.WellFormed) (hPf : P.Faithful)
    (hQf : Q.Faithful) (hbodies : P.WritesBodies) (h : P.toJson = Q.toJson) {p q : Policy}
    (hp : p ∈ P.linkedPolicies) (hq : q ∈ Q.linkedPolicies) (hlink : linkJson p = linkJson q) :
    p = q := by
  obtain ⟨hp, hplinked⟩ := List.mem_filter.mp hp
  obtain ⟨hq, hqlinked⟩ := List.mem_filter.mp hq
  rw [Bool.not_eq_true'] at hplinked hqlinked
  obtain ⟨htemplate, hid, hvalues⟩ := linkJson_injective hlink
  have hbody := template_eq_of_written hP hQ hPf hQf hbodies h hp hq htemplate
  have hpmade := (hP.made_of_mem hp).ofLink_template hplinked
  have hqmade := (hQ.made_of_mem hq).ofLink_template hqlinked
  rw [hbody, hid, hvalues, hqmade] at hpmade
  exact (Except.ok.inj hpmade).symm

/-- A linked policy has a link of the same document in the other set. -/
theorem exists_of_mem_linkedPolicies (h : P.toJson = Q.toJson) {p : Policy} (hp : p ∈ P.policies)
    (hlinked : p.isStatic = false) :
    p ∈ P.linkedPolicies ∧ ∃ q ∈ Q.linkedPolicies, linkJson p = linkJson q := by
  obtain ⟨-, -, hlinks⟩ := sections_of_toJson_eq h
  have hp : p ∈ P.linkedPolicies := List.mem_filter.mpr ⟨hp, by simp [hlinked]⟩
  have hmem : linkJson p ∈ Q.linkedPolicies.map linkJson := by
    rw [← hlinks]
    exact List.mem_map_of_mem hp
  obtain ⟨q, hq, heq⟩ := List.mem_map.mp hmem
  exact ⟨hp, q, hq, heq.symm⟩

/-- **The policies of a set whose bodies are written are those of every set of its document.** -/
theorem mem_policies_of_toJson_eq (hP : P.WellFormed) (hQ : Q.WellFormed) (hPf : P.Faithful)
    (hQf : Q.Faithful) (hbodies : P.WritesBodies) (h : P.toJson = Q.toJson) (p : Policy) :
    p ∈ P.policies ↔ p ∈ Q.policies := by
  constructor
  · intro hp
    cases hstatic : p.isStatic with
    | true =>
      exact mem_of_mem_staticPolicies hP hQ hPf hQf h (List.mem_filter.mpr ⟨hp, hstatic⟩)
    | false =>
      obtain ⟨hp, q, hq, hlink⟩ := exists_of_mem_linkedPolicies h hp hstatic
      rw [eq_of_linkJson_eq hP hQ hPf hQf hbodies h hp hq hlink]
      exact (List.mem_filter.mp hq).1
  · intro hp
    cases hstatic : p.isStatic with
    | true =>
      exact mem_of_mem_staticPolicies hQ hP hQf hPf h.symm (List.mem_filter.mpr ⟨hp, hstatic⟩)
    | false =>
      obtain ⟨hp, q, hq, hlink⟩ := exists_of_mem_linkedPolicies h.symm hp hstatic
      rw [← eq_of_linkJson_eq hP hQ hPf hQf hbodies h hq hp hlink.symm]
      exact (List.mem_filter.mp hq).1

/-- Two sets of the same policies have them under the same ids. -/
theorem WellFormed.links_eq (hP : P.WellFormed) (hQ : Q.WellFormed)
    (h : ∀ p, p ∈ P.policies ↔ p ∈ Q.policies) : P.links = Q.links := by
  have hsub {s s' : PolicySet} (hs : s.WellFormed) (hs' : s'.WellFormed)
      (h : ∀ p, p ∈ s.policies → p ∈ s'.policies) {id : PolicyId} {p : Policy}
      (hfind : s.links.find? id = some p) : s'.links.find? id = some p := by
    rw [← hs.policy_id hfind]
    exact hs'.mem_policies_iff_find?.mp (h p (PolicySet.mem_policies_iff.mpr ⟨id, hfind⟩))
  refine SortedMap.eq_of_find?_eq fun id => Option.ext fun p => ?_
  exact ⟨hsub hP hQ fun p => (h p).mp, hsub hQ hP fun p => (h p).mpr⟩

/-- **The canonical text determines every decision**, if each policy has a body that is written and
the bodies are told apart by their documents. -/
theorem authorize_eq_of_canonical_eq (hP : P.Reachable) (hQ : Q.Reachable)
    (hbodies : P.WritesBodies) (hPf : P.Faithful) (hQf : Q.Faithful)
    (h : P.canonical = Q.canonical) (request : Request) (store : EntityStore) :
    authorize request P store = authorize request Q store := by
  have hlinks : P.links = Q.links := hP.wellFormed.links_eq hQ.wellFormed
    (mem_policies_of_toJson_eq hP.wellFormed hQ.wellFormed hPf hQf hbodies
      (toJson_eq_of_canonical_eq h))
  simp only [authorize, policies, hlinks]

namespace Idle

/-- A template with a slot and a condition. -/
def own : Template where
  id := ⟨"own"⟩
  effect := .permit
  principal := .eq (.slot .principal)
  conditions := [⟨.unless, .hasAttr (.var .context) "suspended"⟩]

/-- A template that has no link. -/
def idle : Template := { id := ⟨"idle"⟩, effect := .forbid }

def values : SlotValues := .ofList [(.principal, OneUser.alice)]

def alices : Policy := ⟨own, some ⟨"alice"⟩, values⟩

/-- The link with its template alone. -/
def bare : PolicySet := ⟨.ofList [(own.id, own)], .ofList [(⟨"alice"⟩, alices)]⟩

/-- The link with the other template beside its own. -/
def padded : PolicySet := ⟨.ofList [(idle.id, idle), (own.id, own)], .ofList [(⟨"alice"⟩, alices)]⟩

theorem reachable_bare : bare.Reachable := by
  have hmade : Policy.ofLink own ⟨"alice"⟩ values = .ok alices := rfl
  have hadd : PolicySet.empty.add alices = .ok bare := rfl
  exact reachable_empty.step (.policy (.add (.link hmade) hadd))

theorem reachable_padded : padded.Reachable := by
  have hidle : PolicySet.empty.addTemplate idle = .ok ⟨.ofList [(idle.id, idle)], .empty⟩ := rfl
  have hown : (⟨.ofList [(idle.id, idle)], .empty⟩ : PolicySet).addTemplate own
      = .ok ⟨.ofList [(idle.id, idle), (own.id, own)], .empty⟩ := rfl
  have hlink : (⟨.ofList [(idle.id, idle), (own.id, own)], .empty⟩ : PolicySet).link own.id
      ⟨"alice"⟩ values = .ok (alices, padded) := rfl
  exact ((reachable_empty.step (.template hidle)).step (.template hown)).step
    (.policy (.link hlink))

theorem faithful_own : own.Faithful := by
  have hvar : (Expr.var .context).Faithful := Expr.allParts_iff.mpr ⟨trivial, trivial⟩
  intro c hc
  obtain rfl := List.mem_singleton.mp hc
  exact Expr.allParts_iff.mpr ⟨trivial, hvar⟩

/-- Both sets decide the same. -/
theorem authorize_padded : padded ≠ bare ∧
    ∀ request store, authorize request padded store = authorize request bare store := by
  have hpadded : padded.Faithful := by
    intro p hp
    obtain rfl := List.mem_singleton.mp hp
    exact faithful_own
  have hbare : bare.Faithful := by
    intro p hp
    obtain rfl := List.mem_singleton.mp hp
    exact faithful_own
  have htext : padded.canonical = bare.canonical := congrArg Json.compact rfl
  exact ⟨by decide, authorize_eq_of_canonical_eq reachable_padded reachable_bare (by decide)
    hpadded hbare htext⟩

end Idle

/-- **The canonical text of a loaded set determines the set.** -/
theorem eq_of_canonical_eq_of_ofJson {j j' : Json} (hP : ofJson j.sorted = .ok P)
    (hQ : ofJson j'.sorted = .ok Q) (h : P.canonical = Q.canonical) : P = Q := by
  have hread := (Loaded.of_ofJson (Json.isSorted_sorted j) hP).ofJson_toJson
  rw [toJson_eq_of_canonical_eq h,
    (Loaded.of_ofJson (Json.isSorted_sorted j') hQ).ofJson_toJson] at hread
  exact (Except.ok.inj hread).symm

/-! ## 4. What is not written -/

/-- **What a template without slots says stands nowhere in the text when it is added for its links**:
any other template without slots could have been added under its id. -/
theorem canonical_unwritten {s u u' v v' : PolicySet} {t t' : Template} {id : PolicyId}
    {p p' : Policy} (hid : t.id = t'.id) (ht : t.hasSlots = false) (ht' : t'.hasSlots = false)
    (hu : s.addTemplate t = .ok u) (hv : u.link t.id id .empty = .ok (p, v))
    (hu' : s.addTemplate t' = .ok u') (hv' : u'.link t'.id id .empty = .ok (p', v')) :
    v.canonical = v'.canonical := by
  obtain ⟨-, rfl⟩ := addTemplate_eq_ok hu
  obtain ⟨-, rfl⟩ := addTemplate_eq_ok hu'
  obtain ⟨b, hb, hp, -, -, rfl⟩ := link_eq_ok hv
  obtain ⟨b', hb', hp', -, -, rfl⟩ := link_eq_ok hv'
  rw [SortedMap.find?_insert_self] at hb hb'
  cases hb
  cases hb'
  obtain ⟨-, rfl⟩ := Policy.ofLink_eq_ok_iff.mp hp
  obtain ⟨-, rfl⟩ := Policy.ofLink_eq_ok_iff.mp hp'
  have hstatics := SortedList.map_filter_put Policy.isStatic
    (fun p => (p.id.name, p.template.toJson)) id ⟨t, some id, .empty⟩ ⟨t', some id, .empty⟩ rfl
    nofun s.links.entries
  have hlinks := SortedList.map_filter_put (fun p => !p.isStatic) linkJson id
    ⟨t, some id, .empty⟩ ⟨t', some id, .empty⟩ rfl
    (fun _ => by rw [linkJson, linkJson, hid]; rfl) s.links.entries
  have htemplates := SortedList.map_filter_put Template.hasSlots (fun t => (t.id.name, t.toJson))
    t.id t t' (ht.trans ht'.symm) (by simp [ht]) s.templates.entries
  simp only [canonical, toJson, staticPolicies, slotTemplates, linkedPolicies, allTemplates,
    policies, SortedMap.values, SortedMap.insert, hstatics, hlinks, htemplates, ← hid]

namespace Unwritten

def gate (effect : Effect) : Template := { id := ⟨"gate"⟩, effect }

def entry (effect : Effect) : Policy := ⟨gate effect, some ⟨"entry"⟩, .empty⟩

/-- The set of a template and the one link to it. -/
def gated (effect : Effect) : PolicySet :=
  ⟨.ofList [(⟨"gate"⟩, gate effect)], .ofList [(⟨"entry"⟩, entry effect)]⟩

theorem reachable_gated (effect : Effect) : (gated effect).Reachable := by
  have htemplate : PolicySet.empty.addTemplate (gate effect)
      = .ok ⟨.ofList [(⟨"gate"⟩, gate effect)], .empty⟩ := rfl
  have hlink : (⟨.ofList [(⟨"gate"⟩, gate effect)], .empty⟩ : PolicySet).link ⟨"gate"⟩ ⟨"entry"⟩
      .empty = .ok (entry effect, gated effect) := by
    cases effect <;> rfl
  exact (reachable_empty.step (.template htemplate)).step (.policy (.link hlink))

theorem faithful_gated (effect : Effect) : (gated effect).Faithful := by
  intro p hp c hc
  obtain rfl := List.mem_singleton.mp hp
  cases hc

/-- Two sets of one text can decide differently: one allows what the other one denies. -/
theorem canonical_gated : (gated .permit).Reachable ∧ (gated .forbid).Reachable ∧
    (gated .permit).Faithful ∧ (gated .forbid).Faithful ∧
      (gated .permit).canonical = (gated .forbid).canonical ∧
        authorize OneUser.request (gated .permit) OneUser.store
          ≠ authorize OneUser.request (gated .forbid) OneUser.store := by
  refine ⟨reachable_gated .permit, reachable_gated .forbid, faithful_gated .permit,
    faithful_gated .forbid, ?_, ?_⟩
  · exact congrArg Json.compact rfl
  · decide

end Unwritten

end PolicySet

end Arbiter
