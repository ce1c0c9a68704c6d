/-
# Common types are expanded

What the document of a type stands for is said without counting levels: names of common types are
replaced by what they are defined as, as often as it takes (`TypeDocument.StandsFor`).  The documents
that are met on the way stand at a level each, one below the document that leads to them
(`TypeDocument.NodeAt`).

* Resolving a document at a level passes the next level to every document it leads to, so it ends
  when the levels do (`Scoping.typeAt`), also in a table of common types with cycles.
* It succeeds exactly if there is an expansion and no document stands too deep, and yields the
  expansion (`resolve_eq_ok_iff`).
* An expansion is finite (`StandsFor.exists_within`), and a document that leads into a cycle has
  documents at every level.  So it has no expansion, and no schema has it
  (`common_types_expanded`).
-/
import Arbiter.Proofs.Schema.Declarations
import Mathlib.Logic.Relation

namespace Arbiter

open Outcome

/-! ## 1. Expansions -/

namespace TypeDocument

mutual

/-- The document stands for the type: every name of a common type is replaced by what the table
defines it as. -/
inductive StandsFor (r : Scoping) : TypeDocument → SchemaType → Prop
  | bool {d : TypeDocument} (htype : d.type = "Boolean" ∨ d.type = "Bool") : StandsFor r d .bool
  | long {d : TypeDocument} (htype : d.type = "Long") : StandsFor r d .long
  | string {d : TypeDocument} (htype : d.type = "String") : StandsFor r d .string
  | set {d e : TypeDocument} {elem : SchemaType} (htype : d.type = "Set")
      (he : d.element = some e) (h : StandsFor r e elem) : StandsFor r d (.set elem)
  | record {d : TypeDocument} {attrs : List (String × Attr SchemaType)} (htype : d.type = "Record")
      (h : AttrsStandFor r d.attributes attrs) :
      StandsFor r d (.record ⟨SortedList.ofPairs attrs, d.additionalAttributes⟩)
  | entity {d : TypeDocument} {name : String} (htype : d.type = "Entity")
      (hname : d.name = some name) (hvalid : (EntityType.qualified r.space name).IsValid) :
      StandsFor r d (.entity (.qualified r.space name))
  | extension {d : TypeDocument} {name : String} {kind : ExtensionKind}
      (htype : d.type = "Extension") (hname : d.name = some name)
      (hkind : ExtensionKind.ofName? name = some kind) : StandsFor r d (.extension kind)
  | common {d c : TypeDocument} {T : SchemaType} (htype : d.type ∉ builtinTypes)
      (hc : r.commonTypes.lookup d.type = some c) (h : StandsFor r c T) : StandsFor r d T

/-- The attributes have the types that their documents stand for. -/
inductive AttrsStandFor (r : Scoping) :
    List (String × TypeDocument) → List (String × Attr SchemaType) → Prop
  | nil : AttrsStandFor r [] []
  | cons {name : String} {a : TypeDocument} {T : SchemaType} {as : List (String × TypeDocument)}
      {attrs : List (String × Attr SchemaType)} (h : StandsFor r a T) (hs : AttrsStandFor r as attrs) :
      AttrsStandFor r ((name, a) :: as) ((name, ⟨T, a.required⟩) :: attrs)

end

/-- The document leads to another one: that of its elements, of an attribute, or of the common type
that it names. -/
inductive Step (r : Scoping) : TypeDocument → TypeDocument → Prop
  | element {d e : TypeDocument} (htype : d.type = "Set") (he : d.element = some e) : Step r d e
  | attr {d a : TypeDocument} {name : String} (htype : d.type = "Record")
      (ha : (name, a) ∈ d.attributes) : Step r d a
  | common {d c : TypeDocument} (htype : d.type ∉ builtinTypes)
      (hc : r.commonTypes.lookup d.type = some c) : Step r d c

/-- In the expansion of a document another one stands so many levels below it. -/
inductive NodeAt (r : Scoping) : Nat → TypeDocument → TypeDocument → Prop
  | root {d : TypeDocument} : NodeAt r 0 d d
  | step {n : Nat} {d e f : TypeDocument} (h : Step r d e) (hf : NodeAt r n e f) :
      NodeAt r (n + 1) d f

/-- The expansion has at most so many levels. -/
def Within (r : Scoping) (levels : Nat) (d : TypeDocument) : Prop :=
  ∀ n e, NodeAt r n d e → n < levels

/-- From the document one comes to another one that leads back to itself. -/
def LeadsToCycle (r : Scoping) (d : TypeDocument) : Prop :=
  ∃ e, Relation.ReflTransGen (Step r) d e ∧ Relation.TransGen (Step r) e e

variable {r : Scoping} {d e f : TypeDocument} {levels n m : Nat}

theorem within_succ_iff : Within r (levels + 1) d ↔ ∀ e, Step r d e → Within r levels e := by
  constructor
  · intro h e he n f hf
    exact Nat.lt_of_succ_lt_succ (h (n + 1) f (.step he hf))
  · intro h n f hf
    cases hf with
    | root => exact Nat.succ_pos levels
    | step he hf => exact Nat.succ_lt_succ (h _ he _ f hf)

theorem not_within_zero : ¬ Within r 0 d := fun h => Nat.not_lt_zero 0 (h 0 d .root)

theorem Within.mono (h : Within r levels d) (hle : levels ≤ n) : Within r n d :=
  fun m e he => Nat.lt_of_lt_of_le (h m e he) hle

/-! ### Expansions are finite -/

/-- The types without parts lead to nothing. -/
theorem not_step_of_leaf
    (htype : d.type ∈ ["Boolean", "Bool", "Long", "String", "Entity", "Extension"]) :
    ¬ Step r d e := by
  intro h
  cases h with
  | element hset _ =>
    rw [hset] at htype
    exact absurd htype (by decide)
  | attr hrecord _ =>
    rw [hrecord] at htype
    exact absurd htype (by decide)
  | common hname _ =>
    have hbuiltin : ["Boolean", "Bool", "Long", "String", "Entity", "Extension"] ⊆ builtinTypes := by
      decide
    exact hname (hbuiltin htype)

theorem eq_of_step_set (htype : d.type = "Set") (he : d.element = some e) (h : Step r d f) :
    f = e := by
  cases h with
  | element _ hf => exact Option.some.inj (hf.symm.trans he)
  | attr hrecord _ =>
    rw [htype] at hrecord
    exact absurd hrecord (by decide)
  | common hname _ =>
    rw [htype] at hname
    exact absurd (by decide) hname

theorem mem_of_step_record (htype : d.type = "Record") (h : Step r d f) :
    ∃ name, (name, f) ∈ d.attributes := by
  cases h with
  | element hset _ =>
    rw [htype] at hset
    exact absurd hset (by decide)
  | attr _ ha => exact ⟨_, ha⟩
  | common hname _ =>
    rw [htype] at hname
    exact absurd (by decide) hname

theorem eq_of_step_common (htype : d.type ∉ builtinTypes)
    (hc : r.commonTypes.lookup d.type = some e) (h : Step r d f) : f = e := by
  cases h with
  | element hset _ =>
    rw [hset] at htype
    exact absurd (by decide) htype
  | attr hrecord _ =>
    rw [hrecord] at htype
    exact absurd (by decide) htype
  | common _ hf => exact Option.some.inj (hf.symm.trans hc)

theorem exists_within_of_leaf
    (htype : d.type ∈ ["Boolean", "Bool", "Long", "String", "Entity", "Extension"]) :
    ∃ levels, Within r levels d :=
  ⟨1, within_succ_iff.mpr fun _ he => absurd he (not_step_of_leaf htype)⟩

mutual

theorem StandsFor.exists_within {T : SchemaType} : ∀ {d : TypeDocument}, StandsFor r d T →
    ∃ levels, Within r levels d
  | _, .bool htype => by
    rcases htype with htype | htype <;> exact exists_within_of_leaf (by rw [htype]; decide)
  | _, .long htype => exists_within_of_leaf (by rw [htype]; decide)
  | _, .string htype => exists_within_of_leaf (by rw [htype]; decide)
  | _, .entity htype _ _ => exists_within_of_leaf (by rw [htype]; decide)
  | _, .extension htype _ _ => exists_within_of_leaf (by rw [htype]; decide)
  | _, .set htype he h => by
    obtain ⟨levels, hlevels⟩ := h.exists_within
    refine ⟨levels + 1, within_succ_iff.mpr fun e' he' => ?_⟩
    rw [eq_of_step_set htype he he']
    exact hlevels
  | _, .record htype h => by
    obtain ⟨levels, hlevels⟩ := h.exists_within
    refine ⟨levels + 1, within_succ_iff.mpr fun a ha => ?_⟩
    obtain ⟨name, hmem⟩ := mem_of_step_record htype ha
    exact hlevels _ hmem
  | _, .common htype hc h => by
    obtain ⟨levels, hlevels⟩ := h.exists_within
    refine ⟨levels + 1, within_succ_iff.mpr fun c' hc' => ?_⟩
    rw [eq_of_step_common htype hc hc']
    exact hlevels

theorem AttrsStandFor.exists_within {as : List (String × TypeDocument)}
    {attrs : List (String × Attr SchemaType)} : AttrsStandFor r as attrs →
      ∃ levels, ∀ a ∈ as, Within r levels a.2
  | .nil => ⟨0, List.forall_mem_nil _⟩
  | .cons h hs => by
    obtain ⟨n, hn⟩ := h.exists_within
    obtain ⟨m, hm⟩ := hs.exists_within
    refine ⟨max n m, List.forall_mem_cons.mpr ⟨hn.mono (Nat.le_max_left n m), fun a ha => ?_⟩⟩
    exact (hm a ha).mono (Nat.le_max_right n m)

end

/-! ### Cycles -/

theorem NodeAt.trans (h : NodeAt r n d e) (h' : NodeAt r m e f) : NodeAt r (n + m) d f := by
  induction h with
  | root =>
    rw [Nat.zero_add]
    exact h'
  | step hstep _ ih =>
    rw [Nat.succ_add_eq_add_succ]
    exact .step hstep (ih h')

theorem exists_nodeAt_of_reflTransGen (h : Relation.ReflTransGen (Step r) d e) :
    ∃ n, NodeAt r n d e := by
  induction h with
  | refl => exact ⟨0, .root⟩
  | tail _ hstep ih =>
    obtain ⟨n, hn⟩ := ih
    exact ⟨n + 1, hn.trans (.step hstep .root)⟩

theorem exists_nodeAt_of_cycle (h : Relation.TransGen (Step r) e e) (levels : Nat) :
    ∃ n, levels ≤ n ∧ NodeAt r n e e := by
  obtain ⟨f, hstep, hback⟩ := Relation.TransGen.head'_iff.mp h
  obtain ⟨m, hm⟩ := exists_nodeAt_of_reflTransGen hback
  induction levels with
  | zero => exact ⟨0, Nat.le_refl 0, .root⟩
  | succ levels ih =>
    obtain ⟨n, hle, hn⟩ := ih
    have hround : NodeAt r (m + 1 + n) e e := (NodeAt.step hstep hm).trans hn
    exact ⟨m + 1 + n, by omega, hround⟩

/-- A cycle has documents at every level. -/
theorem LeadsToCycle.not_within (h : LeadsToCycle r d) : ¬ Within r levels d := by
  intro hwithin
  obtain ⟨e, hde, hcycle⟩ := h
  obtain ⟨n, hn⟩ := exists_nodeAt_of_reflTransGen hde
  obtain ⟨m, hle, hm⟩ := exists_nodeAt_of_cycle hcycle levels
  have hlt := hwithin _ e (hn.trans hm)
  omega

/-- A cycle has no expansion. -/
theorem LeadsToCycle.not_standsFor (h : LeadsToCycle r d) (T : SchemaType) : ¬ StandsFor r d T := by
  intro hT
  obtain ⟨levels, hwithin⟩ := hT.exists_within
  exact h.not_within hwithin

end TypeDocument

/-! ## 2. Levels -/

namespace Scoping

open TypeDocument

variable {r : Scoping} {d e : TypeDocument} {T : SchemaType} {levels : Nat}

/-- The type of a document, when that of each document it leads to is given. -/
def resolveWith (r : Scoping) (inner : TypeDocument → Except SchemaError SchemaType)
    (d : TypeDocument) : Except SchemaError SchemaType :=
  match d.type with
  | "Boolean" | "Bool" => .ok .bool
  | "Long" => .ok .long
  | "String" => .ok .string
  | "Set" =>
    match d.element with
    | some element => (inner element).map .set
    | none => .error .missingElement
  | "Record" => do
    let attrs ← d.attributes.mapM fun (name, attr) => do
      let type ← inner attr
      return (name, (⟨type, attr.required⟩ : Attr SchemaType))
    return .record ⟨SortedList.ofPairs attrs, d.additionalAttributes⟩
  | "Entity" => do return .entity (← r.entityType (← nameOf d))
  | "Extension" => do
    let name ← nameOf d
    match ExtensionKind.ofName? name with
    | some kind => return .extension kind
    | none => .error (.unknownExtension name)
  | name =>
    match r.commonTypes.lookup name with
    | some common => inner common
    | none => .error (.unknownType name)

theorem resolve_succ (r : Scoping) (levels : Nat) (d : TypeDocument) :
    r.resolve (levels + 1) d = r.resolveWith (r.resolve levels) d := rfl

/-- The type of a document at a level, with the levels counted from the outside.  Every document that
it leads to stands at the next level, and there is a last one. -/
def typeAt (r : Scoping) (level : Nat) (d : TypeDocument) : Except SchemaError SchemaType :=
  if maxTypeDepth < level then .error (.tooDeep d.type)
  else r.resolveWith (fun e => r.typeAt (level + 1) e) d
termination_by maxTypeDepth + 1 - level

theorem typeAt_eq_resolve (r : Scoping) (levels : Nat) : ∀ {level : Nat},
    levels = maxTypeDepth + 1 - level → r.typeAt level = r.resolve levels := by
  induction levels with
  | zero =>
    intro level h
    funext d
    rw [typeAt, if_pos (by omega)]
    rfl
  | succ levels ih =>
    intro level h
    have hnext : r.typeAt (level + 1) = r.resolve levels := ih (by omega)
    funext d
    rw [typeAt, if_neg (by omega), hnext, resolve_succ]

/-! ### One level -/

theorem resolveWith_set {inner : TypeDocument → Except SchemaError SchemaType}
    (htype : d.type = "Set") (he : d.element = some e) :
    r.resolveWith inner d = (inner e).map .set := by
  obtain ⟨type, element, attributes, additional, name, required⟩ := d
  cases htype
  cases he
  rfl

theorem resolveWith_record {inner : TypeDocument → Except SchemaError SchemaType}
    (htype : d.type = "Record") : r.resolveWith inner d = (do
      let attrs ← d.attributes.mapM fun (name, attr) => do
        let type ← inner attr
        return (name, (⟨type, attr.required⟩ : Attr SchemaType))
      return .record ⟨SortedList.ofPairs attrs, d.additionalAttributes⟩) := by
  obtain ⟨type, element, attributes, additional, name, required⟩ := d
  cases htype
  rfl

theorem resolveWith_leaf {inner : TypeDocument → Except SchemaError SchemaType} {name : String}
    (htype : d.type = name) (h : r.resolveWith inner { d with type := name } = .ok T) :
    r.resolveWith inner d = .ok T := by
  rw [← htype] at h
  exact h

theorem resolveWith_entity {inner : TypeDocument → Except SchemaError SchemaType}
    (htype : d.type = "Entity") :
    r.resolveWith inner d = (do return .entity (← r.entityType (← nameOf d))) := by
  obtain ⟨type, element, attributes, additional, name, required⟩ := d
  cases htype
  rfl

theorem resolveWith_extension {inner : TypeDocument → Except SchemaError SchemaType}
    (htype : d.type = "Extension") : r.resolveWith inner d = (do
      let name ← nameOf d
      match ExtensionKind.ofName? name with
      | some kind => return .extension kind
      | none => .error (.unknownExtension name)) := by
  obtain ⟨type, element, attributes, additional, name, required⟩ := d
  cases htype
  rfl

theorem resolveWith_common {inner : TypeDocument → Except SchemaError SchemaType} {c : TypeDocument}
    (htype : d.type ∉ builtinTypes) (hc : r.commonTypes.lookup d.type = some c) :
    r.resolveWith inner d = inner c := by
  unfold resolveWith
  split
  iterate 8
    · rename_i heq
      rw [heq] at htype
      exact absurd (by decide) htype
  · rw [hc]

theorem nameOf_eq_ok_iff {name : String} : nameOf d = .ok name ↔ d.name = some name := by
  unfold nameOf
  split
  · rename_i hname
    rw [hname, Except.ok.injEq, Option.some.injEq]
  · rename_i hname
    rw [hname]
    exact iff_of_false nofun nofun

/-- All that a document leads to is resolved with it. -/
theorem exists_of_resolveWith {inner : TypeDocument → Except SchemaError SchemaType}
    (h : r.resolveWith inner d = .ok T) (he : Step r d e) : ∃ T', inner e = .ok T' := by
  cases he with
  | element htype he =>
    rw [resolveWith_set htype he, map_eq_ok_iff] at h
    obtain ⟨elem, helem, -⟩ := h
    exact ⟨elem, helem⟩
  | attr htype ha =>
    rw [resolveWith_record htype, bind_eq_ok_iff] at h
    obtain ⟨attrs, hattrs, -⟩ := h
    obtain ⟨a, -, ha⟩ := exists_mem_of_mapM hattrs ha
    obtain ⟨T', hT', -⟩ := bind_eq_ok_iff.mp ha
    exact ⟨T', hT'⟩
  | common htype hc =>
    rw [resolveWith_common htype hc] at h
    exact ⟨T, h⟩

theorem mapM_eq_ok_iff_attrsStandFor {inner : TypeDocument → Except SchemaError SchemaType}
    {attrs : List (String × Attr SchemaType)} {as : List (String × TypeDocument)}
    (hinner : ∀ a ∈ as, ∀ T, inner a.2 = .ok T ↔ StandsFor r a.2 T) :
    (as.mapM fun (name, attr) => do
      let type ← inner attr
      return (name, (⟨type, attr.required⟩ : Attr SchemaType))) = .ok attrs ↔
        AttrsStandFor r as attrs := by
  induction as generalizing attrs with
  | nil =>
    constructor
    · rintro ⟨⟩
      exact .nil
    · rintro ⟨⟩
      rfl
  | cons a as ih =>
    obtain ⟨name, a⟩ := a
    obtain ⟨ha, has⟩ := List.forall_mem_cons.mp hinner
    rw [List.mapM_cons, bind_eq_ok_iff]
    constructor
    · rintro ⟨x, hx, h⟩
      obtain ⟨type, htype, hx⟩ := bind_eq_ok_iff.mp hx
      obtain ⟨attrs, hattrs, h⟩ := bind_eq_ok_iff.mp h
      cases hx
      cases h
      exact .cons ((ha type).mp htype) ((ih has).mp hattrs)
    · rintro (_ | ⟨htype, hattrs⟩)
      refine ⟨_, bind_eq_ok_iff.mpr ⟨_, (ha _).mpr htype, rfl⟩, ?_⟩
      exact bind_eq_ok_iff.mpr ⟨_, (ih has).mpr hattrs, rfl⟩

/-- A document is resolved to its expansion when all that it leads to is. -/
theorem resolveWith_eq_ok_iff {inner : TypeDocument → Except SchemaError SchemaType}
    (hinner : ∀ e, Step r d e → ∀ T, inner e = .ok T ↔ StandsFor r e T) :
    r.resolveWith inner d = .ok T ↔ StandsFor r d T := by
  constructor
  · intro h
    unfold resolveWith at h
    split at h
    · cases h
      exact .bool (Or.inl ‹_›)
    · cases h
      exact .bool (Or.inr ‹_›)
    · cases h
      exact .long ‹_›
    · cases h
      exact .string ‹_›
    · split at h
      · rename_i htype _ e he
        obtain ⟨elem, helem, rfl⟩ := map_eq_ok_iff.mp h
        exact .set htype he ((hinner e (.element htype he) elem).mp helem)
      · cases h
    · rename_i htype
      obtain ⟨attrs, hattrs, h⟩ := bind_eq_ok_iff.mp h
      cases h
      refine .record htype ((mapM_eq_ok_iff_attrsStandFor fun a ha => ?_).mp hattrs)
      exact hinner a.2 (.attr htype ha)
    · rename_i htype
      obtain ⟨name, hname, h⟩ := bind_eq_ok_iff.mp h
      obtain ⟨t, ht, h⟩ := bind_eq_ok_iff.mp h
      cases h
      obtain ⟨rfl, hvalid⟩ := entityType_eq_ok_iff.mp ht
      exact .entity htype (nameOf_eq_ok_iff.mp hname) hvalid
    · rename_i htype
      obtain ⟨name, hname, h⟩ := bind_eq_ok_iff.mp h
      split at h
      · rename_i kind hkind
        cases h
        exact .extension htype (nameOf_eq_ok_iff.mp hname) hkind
      · cases h
    · rename_i hboolean hbool hlong hstring hset hrecord hentity hextension
      split at h
      · rename_i c hc
        have htype : d.type ∉ builtinTypes := by
          simp only [builtinTypes, List.mem_cons, List.not_mem_nil, or_false, not_or]
          exact ⟨hboolean, hbool, hlong, hstring, hset, hrecord, hentity, hextension⟩
        exact .common htype hc ((hinner c (.common htype hc) T).mp h)
      · cases h
  · intro h
    cases h with
    | bool htype => rcases htype with htype | htype <;> exact resolveWith_leaf htype rfl
    | long htype => exact resolveWith_leaf htype rfl
    | string htype => exact resolveWith_leaf htype rfl
    | set htype he h =>
      rw [resolveWith_set htype he, (hinner _ (.element htype he) _).mpr h]
      rfl
    | record htype h =>
      rw [resolveWith_record htype, (mapM_eq_ok_iff_attrsStandFor fun a ha => ?_).mpr h]
      · rfl
      · exact hinner a.2 (.attr htype ha)
    | entity htype hname hvalid =>
      have hname := nameOf_eq_ok_iff.mpr hname
      have ht := entityType_eq_ok_iff.mpr ⟨rfl, hvalid⟩
      rw [resolveWith_entity htype, hname, ok_bind, ht]
      rfl
    | extension htype hname hkind =>
      have hname := nameOf_eq_ok_iff.mpr hname
      rw [resolveWith_extension htype, hname, ok_bind, hkind]
      rfl
    | common htype hc h =>
      rw [resolveWith_common htype hc]
      exact (hinner _ (.common htype hc) T).mpr h

/-- **Resolving succeeds exactly if there is an expansion of at most so many levels, and yields it.** -/
theorem resolve_eq_ok_iff : r.resolve levels d = .ok T ↔ StandsFor r d T ∧ Within r levels d := by
  induction levels generalizing d T with
  | zero => exact iff_of_false nofun fun h => not_within_zero h.2
  | succ levels ih =>
    have hstep (hwithin : ∀ e, Step r d e → Within r levels e) :
        r.resolveWith (r.resolve levels) d = .ok T ↔ StandsFor r d T :=
      resolveWith_eq_ok_iff fun e he T => ih.trans (and_iff_left (hwithin e he))
    rw [resolve_succ, within_succ_iff]
    constructor
    · intro h
      have hwithin : ∀ e, Step r d e → Within r levels e := by
        intro e he
        obtain ⟨T', hT'⟩ := exists_of_resolveWith h he
        exact (ih.mp hT').2
      exact ⟨(hstep hwithin).mp h, hwithin⟩
    · rintro ⟨hstands, hwithin⟩
      exact (hstep hwithin).mpr hstands

theorem type_eq_ok_iff : r.type d = .ok T ↔
    StandsFor r d T ∧ ∀ n e, NodeAt r n d e → n ≤ maxTypeDepth := by
  rw [type, resolve_eq_ok_iff]
  simp only [Within, Nat.lt_succ_iff]

/-- What leads to a cycle is no shape. -/
theorem shape_ne_ok_of_cycle (h : LeadsToCycle r d) (shape : RecordType) :
    r.shape (some d) ≠ .ok shape := by
  intro hshape
  obtain ⟨T, hT, -⟩ := bind_eq_ok_iff.mp hshape
  exact h.not_standsFor T (type_eq_ok_iff.mp hT).1

end Scoping

/-! ## 3. Schemas -/

/-- A namespace has the document as the shape of an entity type or as the context of an action. -/
inductive NamespaceDocument.HasShape (n : NamespaceDocument) : TypeDocument → Prop
  | entityType {e : String × EntityTypeDocument} {d : TypeDocument} (he : e ∈ n.entityTypes)
      (hd : e.2.shape = some d) : HasShape n d
  | action {a : String × ActionDocument} {applies : AppliesToDocument} {d : TypeDocument}
      (ha : a ∈ n.actions) (happlies : a.2.appliesTo = some applies)
      (hd : applies.context = some d) : HasShape n d

/-- In an accepted document every shape and every context is resolved. -/
theorem Schema.exists_shape_of_ofJson {j : Json} {s : Schema}
    {namespaces : List (String × NamespaceDocument)} {n : String × NamespaceDocument}
    {d : TypeDocument} (h : ofJson j = .ok s)
    (hform : Json.mapOf? NamespaceDocument.ofJson? j = some namespaces) (hn : n ∈ namespaces)
    (hd : n.2.HasShape d) : ∃ shape, (n.2.scoping n.1).shape (some d) = .ok shape := by
  obtain ⟨namespaces', hform', hread, -⟩ := ofJson_eq_ok_iff.mp h
  cases hform.symm.trans hform'
  have hread := (reads_foldlM_declare hread).read
  cases hd with
  | entityType he hd =>
    obtain ⟨-, decl, hdecl⟩ := hread _ (mem_declarationsOf_type hn he)
    obtain ⟨memberOf, -, hdecl⟩ := bind_eq_ok_iff.mp hdecl
    obtain ⟨shape, hshape, -⟩ := bind_eq_ok_iff.mp hdecl
    rw [hd] at hshape
    exact ⟨shape, hshape⟩
  | action ha happlies hd =>
    obtain ⟨decl, hdecl⟩ := hread _ (mem_declarationsOf_action hn ha)
    unfold Scoping.actionDecl at hdecl
    rw [happlies] at hdecl
    obtain ⟨principals, -, hdecl⟩ := bind_eq_ok_iff.mp hdecl
    obtain ⟨resources, -, hdecl⟩ := bind_eq_ok_iff.mp hdecl
    obtain ⟨context, hcontext, -⟩ := bind_eq_ok_iff.mp hdecl
    rw [hd] at hcontext
    exact ⟨context, hcontext⟩

namespace Scoping

open TypeDocument

/-- **Common types are expanded exactly, and recursion is refused.**  Resolving a document ends, level
by level.  It yields the expansion of the document if there is one in which nothing stands deeper than
at the last level, and fails otherwise.  What leads to a cycle has no expansion, so it fails, and with
it every schema with such a shape or context. -/
theorem common_types_expanded (r : Scoping) (d : TypeDocument) :
    r.typeAt 0 d = r.type d ∧
    (∀ T, r.type d = .ok T ↔ StandsFor r d T ∧ ∀ n e, NodeAt r n d e → n ≤ maxTypeDepth) ∧
    (LeadsToCycle r d → (∀ T, ¬ StandsFor r d T) ∧ (∃ cause, r.type d = .error cause) ∧
      (∃ cause, r.shape (some d) = .error cause) ∧
      ∀ j namespaces n, Json.mapOf? NamespaceDocument.ofJson? j = some namespaces →
        n ∈ namespaces → n.2.scoping n.1 = r → n.2.HasShape d →
          ∃ cause, Schema.ofJson j = .error cause) := by
  refine ⟨congrFun (typeAt_eq_resolve r (maxTypeDepth + 1) rfl) d, fun T => type_eq_ok_iff,
    fun hcycle => ?_⟩
  have hshape := shape_ne_ok_of_cycle hcycle
  refine ⟨hcycle.not_standsFor, ?_, ?_, ?_⟩
  · cases h : r.type d with
    | error cause => exact ⟨cause, rfl⟩
    | ok T => exact absurd (type_eq_ok_iff.mp h).1 (hcycle.not_standsFor T)
  · cases h : r.shape (some d) with
    | error cause => exact ⟨cause, rfl⟩
    | ok shape => exact absurd h (hshape shape)
  · intro j namespaces n hform hn hr hd
    cases h : Schema.ofJson j with
    | error cause => exact ⟨cause, rfl⟩
    | ok s =>
      obtain ⟨shape, h⟩ := Schema.exists_shape_of_ofJson h hform hn hd
      rw [hr] at h
      exact absurd h (hshape shape)

end Scoping

/-! A namespace with a record that names a common type, and one in which two common types name each
other. -/

namespace Companions

open TypeDocument

/-- A document that is no more than the name of a type. -/
def named (type : String) : TypeDocument := ⟨type, none, [], false, none, true⟩

def setOf (element : TypeDocument) : TypeDocument := ⟨"Set", some element, [], false, none, true⟩

/-- A record, open to other attributes. -/
def recordOf (attributes : List (String × TypeDocument)) : TypeDocument :=
  ⟨"Record", none, attributes, true, none, true⟩

/-- A tag is a record, and persons and friends are defined by each other. -/
def scoping : Scoping where
  space := "App"
  commonTypes := [("Friends", setOf (named "Person")), ("Person", recordOf [("of", named "Friends")]),
    ("Tag", recordOf [("label", named "String")])]

def page : TypeDocument :=
  recordOf [("tags", setOf (named "Tag")), ("views", { named "Long" with required := false })]

def pageType : SchemaType := .record ⟨[
  ("tags", ⟨.set (.record ⟨[("label", ⟨.string, true⟩)], true⟩), true⟩),
  ("views", ⟨.long, false⟩)], true⟩

def person : TypeDocument := named "Person"

def document : Json := .object [("App", .object [
  ("commonTypes", .object [
    ("Friends", .object [("element", .object [("type", .string "Person")]), ("type", .string "Set")]),
    ("Person", .object [("additionalAttributes", .bool true),
      ("attributes", .object [("of", .object [("type", .string "Friends")])]),
      ("type", .string "Record")]),
    ("Tag", .object [("additionalAttributes", .bool true),
      ("attributes", .object [("label", .object [("type", .string "String")])]),
      ("type", .string "Record")])]),
  ("entityTypes", .object [("User", .object [("shape", .object [("type", .string "Person")])])])])]

def space : NamespaceDocument where
  entityTypes := [("User", ⟨[], some person⟩)]
  actions := []
  commonTypes := scoping.commonTypes

theorem leadsToCycle_person : LeadsToCycle scoping person := by
  have hperson : Step scoping person (recordOf [("of", named "Friends")]) :=
    .common (by decide) rfl
  have hof : Step scoping (recordOf [("of", named "Friends")]) (named "Friends") :=
    .attr rfl (List.mem_singleton_self _)
  have hfriends : Step scoping (named "Friends") (setOf person) := .common (by decide) rfl
  have hset : Step scoping (setOf person) person := .element rfl rfl
  exact ⟨person, .refl, .tail (.tail (.tail (.single hperson) hof) hfriends) hset⟩

theorem common_types_expanded_companions :
    (scoping.type page = .ok pageType ∧ StandsFor scoping page pageType ∧
      ∀ n e, NodeAt scoping n page e → n ≤ Scoping.maxTypeDepth) ∧
    (LeadsToCycle scoping person ∧ (∃ cause, scoping.shape (some person) = .error cause) ∧
      ∃ cause, Schema.ofJson document = .error cause) := by
  obtain ⟨-, hpage, -⟩ := Scoping.common_types_expanded scoping page
  obtain ⟨-, -, hperson⟩ := Scoping.common_types_expanded scoping person
  have htype : scoping.type page = .ok pageType := rfl
  have hform : Json.mapOf? NamespaceDocument.ofJson? document = some [("App", space)] := rfl
  obtain ⟨-, -, hshape, hschema⟩ := hperson leadsToCycle_person
  exact ⟨⟨htype, (hpage pageType).mp htype⟩, leadsToCycle_person, hshape,
    hschema document _ ("App", space) hform (List.mem_singleton_self _) rfl
      (.entityType (List.mem_singleton_self _) rfl)⟩

end Companions

end Arbiter
