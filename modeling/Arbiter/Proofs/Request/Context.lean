/-
# Two ways to a context

A context comes from a text of its own, which is read as a value and has to give a record
(`Context.parse`), or from a field of a request, which is read as a map of values
(`Request.Parts.read`).  On an object in which no name stands twice the two differ only if the
object is shaped like an escape: the first sees what the escape stands for, which is no record, and
the second an attribute of that name.

A context is read back from the text of its document if nothing in it has that shape and the
document is not too deep (`Context.parse_compact_toJson_iff`).  In the context of a request that was
itself read from a text only the context as a whole can have the shape, and its document is never
too deep (`Request.legible_of_parse`).
-/
import Arbiter.Proofs.Value.Faithful
import Arbiter.Proofs.Value.Fields
import Arbiter.Request.Document

namespace Arbiter

open Outcome

/-! ## 1. Contexts of texts and of fields -/

namespace Context

variable {fields : List (String × Json)} {c : Context}

/-- An object is the document of a context if it is that of the record that conditions see. -/
theorem ofJson_eq_ok_iff :
    ofJson (.object fields) = .ok c ↔ Value.ofJson (.object fields) = .ok c.toValue := by
  have hcanonical {attrs : List (String × Value)} (h : Value.ofJson (.object fields)
      = .ok (.record attrs)) : (SortedMap.ofList attrs).entries = attrs := by
    obtain ⟨-, attrs, -, rfl⟩ := Value.ofJson_eq_record_iff.mp h
    exact SortedList.ofPairs_of_ascending (SortedList.ascending_ofPairs attrs)
  unfold ofJson
  constructor
  · intro h
    dsimp only at h
    split at h
    · cases h
    · rename_i attrs hattrs
      cases h
      rw [hattrs, toValue, hcanonical hattrs]
    · cases h
  · intro h
    rw [h]
    exact congrArg (fun m => Except.ok (Context.mk m)) c.attrs.ofList_entries

theorem parse_eq_ok_iff {text : String} :
    parse text = .ok c ↔ ∃ fields, Json.parseRaw? Draft.maxDepth text = some (.object fields) ∧
      Value.ofJson (Json.object fields).sorted = .ok c.toValue := by
  unfold parse Json.parse?
  cases hraw : Json.parseRaw? Draft.maxDepth text with
  | none => exact iff_of_false nofun fun ⟨_, h, _⟩ => nomatch h
  | some j =>
    cases j with
    | object fields => simp [Json.sorted, ofJson_eq_ok_iff]
    | _ => exact iff_of_false nofun fun ⟨_, h, _⟩ => nomatch h

end Context

/-- A field of a request is read as the map in its draft. -/
theorem Request.Parts.read_context_eq_ok_iff {depth : Nat} {d : Draft} {p : Request.Parts}
    (hp : p.context = none) {c : Context} :
    p.read depth (some "context", d) = .ok { p with context := some c } ↔
      Value.mapOfDraft depth d = .ok c.attrs := by
  simp only [read, hp, Option.isSome_none, Bool.false_eq_true, if_false, pure_eq_ok,
    bind_eq_ok_iff, mapError_eq_ok_iff, Except.ok.injEq, mk.injEq, Option.some.injEq, true_and]
  constructor
  · rintro ⟨m, hm, rfl⟩
    exact hm
  · intro hm
    exact ⟨c.attrs, hm, rfl⟩

/-! ## 2. The two ways -/

namespace Context

/-- **An object without repeated names is the document of a context just if it is read as one in a
request and is not shaped like an escape.** -/
theorem parse_iff_read {text : String} {fields : List (String × Json)}
    (htext : Json.parseRaw? Draft.maxDepth text = some (.object fields))
    (hnodup : (fields.map Prod.fst).Nodup) {depth : Nat} {d : Draft}
    (hd : d.value? depth = some (.object fields)) {p : Request.Parts} (hp : p.context = none)
    (c : Context) : parse text = .ok c ↔
      p.read depth (some "context", d) = .ok { p with context := some c } ∧
        ¬ Value.EscapeShaped fields := by
  have hnames : (Json.sortedFields fields).map Prod.fst = fields.map Prod.fst := by
    rw [Json.sortedFields_eq_map, List.map_map]
    rfl
  have hnodup : ((Json.sortedFields fields).map Prod.fst).Nodup := hnames ▸ hnodup
  have hperm := SortedList.ofPairs_perm hnodup
  have hshape : Value.EscapeShaped (SortedList.ofPairs (Json.sortedFields fields))
      ↔ Value.EscapeShaped fields :=
    Value.escapeShaped_iff_of_perm (hnames ▸ hperm.map Prod.fst)
  calc parse text = .ok c
      ↔ Value.ofJson (Json.object fields).sorted = .ok c.toValue := by
        rw [parse_eq_ok_iff, htext]
        simp
    _ ↔ ¬ Value.EscapeShaped fields ∧ ∃ attrs,
          Value.fieldsOfJson (Json.sortedFields fields) = .ok attrs ∧
            SortedList.ofPairs attrs = c.attrs.entries := by
        rw [Json.sorted, toValue, Value.ofJson_eq_record_iff, hshape,
          Value.exists_fieldsOfJson_iff_of_perm hperm.symm hnodup]
    _ ↔ p.read depth (some "context", d) = .ok { p with context := some c } ∧
          ¬ Value.EscapeShaped fields := by
        rw [Request.Parts.read_context_eq_ok_iff hp, Value.mapOfDraft_eq_ok_iff, hd, and_comm]
        simp

/-- A context is read back from its document just if the document is not too deep and nothing is
shaped like an escape, neither the context itself nor a record in it. -/
theorem parse_compact_toJson_iff {c : Context} (hcanonical : c.toValue.Canonical) :
    parse c.toJson.compact = .ok c ↔ c.toValue.Plain ∧ c.toJson.depth ≤ Draft.maxDepth := by
  have hexact : c.toJson.IsExact := Value.isExact_toJson c.toValue
  have hsorted : c.toJson.IsSorted := Value.isSorted_toJson hcanonical
  have hparse : parse c.toJson.compact = .ok c ↔
      c.toJson.depth ≤ Draft.maxDepth ∧ Value.ofJson c.toJson.sorted = .ok c.toValue := by
    simp only [parse_eq_ok_iff, Json.parseRaw?_compact_eq_some_iff hexact]
    constructor
    · rintro ⟨fields, ⟨hdepth, hfields⟩, hread⟩
      exact ⟨hdepth, hfields ▸ hread⟩
    · rintro ⟨hdepth, hread⟩
      exact ⟨_, ⟨hdepth, rfl⟩, hread⟩
  rw [hparse, hsorted.sorted_eq, and_comm]
  exact and_congr_left fun _ =>
    ⟨fun hread => (Value.plain_of_ofJson hsorted hread).2, Value.ofJson_toJson hcanonical⟩

/-! ## 3. Contexts of requests -/

/-- Whether the attributes are read back from their documents when these stand in the document of
the context. -/
structure Legible (c : Context) : Prop where
  /-- Sets and records are in order. -/
  canonical : c.toValue.Canonical
  /-- No record in an attribute is shaped like an escape. -/
  plain : Value.PlainFields c.attrs.entries
  /-- The document is not too deep. -/
  depth_le : c.toJson.depth ≤ Draft.maxDepth

theorem legible_empty : empty.Legible where
  canonical := ⟨List.Pairwise.nil, trivial⟩
  plain := trivial
  depth_le := by decide

/-- The map in a draft is a legible context, if there is a level for it around the draft. -/
theorem legible_of_mapOfDraft {depth : Nat} {d : Draft} {m : SortedMap String Value}
    (h : Value.mapOfDraft depth d = .ok m) (hdepth : depth < Draft.maxDepth) :
    (Context.mk m).Legible := by
  obtain ⟨fields, hd, attrs, hattrs, hm⟩ := Value.mapOfDraft_eq_ok_iff.mp h
  have hmem {a : String × Value} (ha : a ∈ m.entries) : a ∈ attrs :=
    SortedList.mem_of_mem_ofPairs (hm ▸ ha)
  have hplain := Value.plain_of_fieldsOfJson (Json.isSortedFields_sortedFields fields) hattrs
  refine ⟨⟨m.ascending, Value.canonicalFields_iff.mpr fun a ha => (hplain a (hmem ha)).1⟩,
    Value.plainFields_iff.mpr fun a ha => (hplain a (hmem ha)).2, ?_⟩
  have hfields : Json.depthFields fields + 1 ≤ depth := Draft.depth_le_of_value? hd
  have hsorted := Json.depthFields_sortedFields_le fields
  have hattrs : Json.depthFields (Value.fieldsToJson m.entries) ≤ depth :=
    Value.depthFields_fieldsToJson_le_iff.mpr fun a ha => by
      have ha := Value.depth_toJson_le_of_fieldsOfJson hattrs a (hmem ha)
      omega
  exact Nat.lt_of_le_of_lt hattrs hdepth

/-- A legible context is read back from its document unless it is shaped like an escape. -/
theorem Legible.parse_compact_toJson_iff {c : Context} (h : c.Legible) :
    parse c.toJson.compact = .ok c ↔ ¬ Value.EscapeShaped c.attrs.entries := by
  rw [Context.parse_compact_toJson_iff h.canonical, and_iff_left h.depth_le, toValue, Value.Plain,
    and_iff_left h.plain]

end Context

namespace Request

/-- Reading a field keeps the context legible. -/
theorem Parts.legible_of_read {depth : Nat} (hdepth : depth < Draft.maxDepth) {p p' : Parts}
    {field : Option String × Draft} (hp : ∀ c, p.context = some c → c.Legible)
    (h : p.read depth field = .ok p') : ∀ c, p'.context = some c → c.Legible := by
  unfold read at h
  split at h
  case h_1 => cases h
  case h_2 | h_3 | h_4 =>
    split at h
    · cases h
    · obtain ⟨u, -, h⟩ := bind_eq_ok_iff.mp h
      cases h
      exact hp
  case h_5 =>
    split at h
    · cases h
    · obtain ⟨m, hm, h⟩ := bind_eq_ok_iff.mp h
      cases h
      rintro _ ⟨rfl⟩
      exact Context.legible_of_mapOfDraft (mapError_eq_ok_iff.mp hm) hdepth
  case h_6 =>
    split at h
    · cases h
      exact hp
    · cases h

theorem Parts.legible_of_foldlM {depth : Nat} (hdepth : depth < Draft.maxDepth)
    {fields : List (Option String × Draft)} {p : Parts}
    (h : fields.foldlM (Parts.read depth) {} = .ok p) : ∀ c, p.context = some c → c.Legible :=
  foldlM_invariant (P := fun p => ∀ c, p.context = some c → c.Legible)
    (fun _ _ _ _ hp hstep => legible_of_read hdepth hp hstep) nofun h

theorem Parts.legible_of_finish {p : Parts} {r : Request}
    (hp : ∀ c, p.context = some c → c.Legible) (h : p.finish = .ok r) : r.context.Legible := by
  obtain ⟨principal, -, h⟩ := bind_eq_ok_iff.mp h
  obtain ⟨action, -, h⟩ := bind_eq_ok_iff.mp h
  obtain ⟨resource, -, h⟩ := bind_eq_ok_iff.mp h
  cases h
  cases hcontext : p.context with
  | none => exact Context.legible_empty
  | some c => exact hp c hcontext

theorem legible_of_ofDraft {depth : Nat} (hdepth : depth ≤ Draft.maxDepth) {d : Draft}
    {r : Request} (h : ofDraft depth d = .ok r) : r.context.Legible := by
  cases depth with
  | zero => cases d <;> cases h
  | succ depth =>
    have hparts {fields : List (Option String × Draft)} {p : Parts}
        (hp : fields.foldlM (Parts.read depth) {} = .ok p) (h : p.finish = .ok r) :
        r.context.Legible :=
      Parts.legible_of_finish (Parts.legible_of_foldlM hdepth hp) h
    cases d with
    | object fields closed =>
      obtain ⟨p, hp, h⟩ := bind_eq_ok_iff.mp h
      split at h
      · exact hparts hp h
      · cases h
    | array items closed =>
      obtain ⟨p, hp, h⟩ := bind_eq_ok_iff.mp h
      split at h
      · exact hparts hp h
      · cases h
    | _ => cases h

/-- The context of a request that was read from a text is legible. -/
theorem legible_of_parse {text : String} {r : Request} (h : parse text = .ok r) :
    r.context.Legible := by
  obtain ⟨r', hdraft, h⟩ := bind_eq_ok_iff.mp h
  split at h
  · cases h
    exact legible_of_ofDraft (Nat.le_refl _) hdraft
  · cases h

end Request

/-! ## 4. What a request and a text of its own have in common -/

/-- **The two ways to a context differ by escapes only.**  On an object without repeated names they
agree unless it is shaped like an escape; any context is read back from its document unless a record
of it, or it itself, is shaped like an escape or the document is too deep; and of a request that was
read from a text only the shape of the context itself can be in the way. -/
theorem Context.readings_agree :
    (∀ (text : String) (fields : List (String × Json)),
      Json.parseRaw? Draft.maxDepth text = some (.object fields) → (fields.map Prod.fst).Nodup →
      ∀ (depth : Nat) (d : Draft), d.value? depth = some (.object fields) →
      ∀ p : Request.Parts, p.context = none → ∀ c : Context,
        (parse text = .ok c ↔
          p.read depth (some "context", d) = .ok { p with context := some c } ∧
            ¬ Value.EscapeShaped fields)) ∧
    (∀ c : Context, c.toValue.Canonical →
      (parse c.toJson.compact = .ok c ↔ c.toValue.Plain ∧ c.toJson.depth ≤ Draft.maxDepth)) ∧
    ∀ (text : String) (r : Request), Request.parse text = .ok r →
      (parse r.context.toJson.compact = .ok r.context ↔
        ¬ Value.EscapeShaped r.context.attrs.entries) :=
  ⟨fun _ _ htext hnodup _ _ hd _ hp c => parse_iff_read htext hnodup hd hp c,
    fun _ hcanonical => parse_compact_toJson_iff hcanonical,
    fun _ _ hr => (Request.legible_of_parse hr).parse_compact_toJson_iff⟩

namespace Visitor

def ann : EntityUid := ⟨⟨"User"⟩, "ann"⟩

/-- The fields of the document of a context. -/
def fields : List (String × Json) := [("floor", .int 3)]

def draft : Draft := .object [(some "floor", .number (some (.int 3)))] true

def onFloor : Context := ⟨SortedMap.empty.insert "floor" (.long 3)⟩

def request : Request where
  principal := ann
  action := ⟨⟨"Action"⟩, "enter"⟩
  resource := ⟨⟨"Door"⟩, "front"⟩
  context := onFloor

def requestText : String :=
  "\x7b\"principal\":\"User::\\\"ann\\\"\",\"action\":[\"Action\",\"enter\"],"
    ++ "\"resource\":\"Door::\\\"front\\\"\",\"context\":\x7b\"floor\":3\x7d\x7d"

theorem readings_agree_onFloor :
    (Json.parseRaw? Draft.maxDepth (Json.object fields).compact = some (.object fields) ∧
      (fields.map Prod.fst).Nodup ∧ draft.value? Draft.maxDepth = some (.object fields) ∧
      ∀ c, Context.parse (Json.object fields).compact = .ok c ↔
        Request.Parts.read Draft.maxDepth {} (some "context", draft) = .ok { context := some c } ∧
          ¬ Value.EscapeShaped fields) ∧
    (onFloor.toValue.Canonical ∧ (Context.parse onFloor.toJson.compact = .ok onFloor ↔
      onFloor.toValue.Plain ∧ onFloor.toJson.depth ≤ Draft.maxDepth)) ∧
    (Request.parse requestText = .ok request ∧
      (Context.parse request.context.toJson.compact = .ok request.context ↔
        ¬ Value.EscapeShaped request.context.attrs.entries)) := by
  have hexact : (Json.object fields).IsExact := ⟨⟨by decide, nofun⟩, trivial⟩
  have htext : Json.parseRaw? Draft.maxDepth (Json.object fields).compact
      = some (.object fields) := Json.parseRaw?_compact hexact (by decide)
  have hnodup : (fields.map Prod.fst).Nodup := by decide
  have hcanonical : onFloor.toValue.Canonical := ⟨onFloor.attrs.ascending, trivial, trivial⟩
  have hrequest : Request.parse requestText = .ok request :=
    eq_ok_of_toOption (by decide +kernel)
  exact ⟨⟨htext, hnodup, rfl,
      Context.readings_agree.1 _ fields htext hnodup Draft.maxDepth draft rfl {} rfl⟩,
    ⟨hcanonical, Context.readings_agree.2.1 onFloor hcanonical⟩,
    hrequest, Context.readings_agree.2.2 requestText request hrequest⟩

/-! A request may carry an attribute that is named like the escape for entities.  If there is no
other attribute, the text of the context stands for an entity when it is read for itself. -/

def likeAnn : Value := .record [("id", .string "ann"), ("type", .string "User")]

def lookalike : Context := ⟨SortedMap.empty.insert EntityUid.escapeKey likeAnn⟩

def lookalikeText : String :=
  "\x7b\"__entity\":\x7b\"id\":\"ann\",\"type\":\"User\"\x7d\x7d"

/-- A context is read as the context of a request and not for itself. -/
theorem not_read_alone :
    lookalike.toJson.compact = lookalikeText ∧
    Request.Parts.read Draft.maxDepth {} (some "context", (Json.read lookalikeText).draft)
      = .ok { context := some lookalike } ∧
    ∀ c, Context.parse lookalikeText ≠ .ok c := by
  have hmap : Value.mapOfDraft Draft.maxDepth (Json.read lookalikeText).draft
      = .ok lookalike.attrs := eq_ok_of_toOption (by decide +kernel)
  have hnone : (Context.parse lookalikeText).toOption = none := by decide +kernel
  refine ⟨by decide +kernel, (Request.Parts.read_context_eq_ok_iff rfl).mpr hmap, fun c hc => ?_⟩
  rw [hc] at hnone
  cases hnone

end Visitor

end Arbiter
