/-
# Values are read back from their documents

A record with just one attribute named like an escape has the document of something else
(`Value.EscapeShaped`).  A value without such a record at any depth (`Value.Plain`) is read back from
its document (`Value.ofJson_toJson`), and every value that a document gives is one
(`Value.plain_of_ofJson`): a document in canonical form never gives a record of one attribute that
could be taken for an escape, because it would have been read as that.  So nothing else is read back
from its document, and what has been read is written without a loss (`Value.lossless_codec`).
-/
import Arbiter.Proofs.Extension.Decimal
import Arbiter.Proofs.Extension.IpAddress
import Arbiter.Proofs.Extension.U256
import Arbiter.Proofs.Json.Sorted
import Arbiter.Proofs.Outcome
import Arbiter.Value.Json

namespace Arbiter

open Outcome

/-! ## 1. Extension values -/

namespace ExtensionValue

/-- A value is made from its text. -/
theorem ofArgument_argument (v : ExtensionValue) : ofArgument v.kind v.argument = .ok v := by
  cases v with
  | decimal d => simp only [kind, argument, ofArgument, Decimal.parse_render]
  | ipaddr a => simp only [kind, argument, ofArgument, IpAddress.parse?_render]
  | u256 n => simp only [kind, argument, ofArgument, U256.parse_render]

/-- The constructor of its kind makes a value from its text. -/
theorem construct_argument (v : ExtensionValue) :
    construct (ExtensionFunction.makeName v.kind) v.argument = .ok v := by
  have hnamed : ExtensionFunction.named (ExtensionFunction.makeName v.kind)
      = .ok (.make v.kind) := by
    have hname := ExtensionFunction.ofName?_name (.make v.kind)
    unfold ExtensionFunction.name at hname
    simp only [ExtensionFunction.named, hname]
  have hcall : ExtensionFunction.call (.make v.kind) [.string v.argument] = .ok (.ext v) := by
    simp only [ExtensionFunction.call, ExtensionFunction.stringArg, ExtensionFunction.construct,
      ok_bind, ofArgument_argument]
    rfl
  unfold construct
  rw [hnamed, ok_bind, hcall]
  rfl

end ExtensionValue

namespace Value

/-! ## 2. Escapes -/

/-- The names of the fields that mark escapes. -/
def escapeKeys : List String := [EntityUid.escapeKey, extensionKey, exprKey]

/-- The attributes of a record, or the fields of an object, are just one, named like an escape. -/
def EscapeShaped {α : Type} (attrs : List (String × α)) : Prop :=
  ∃ name ∈ escapeKeys, attrs.map Prod.fst = [name]

mutual

/-- Whether no record at any depth is shaped like an escape. -/
def Plain : Value → Prop
  | .set elems => PlainList elems
  | .record attrs => ¬ EscapeShaped attrs ∧ PlainFields attrs
  | _ => True
termination_by structural v => v

/-- `Plain` for the elements of a set. -/
def PlainList : List Value → Prop
  | [] => True
  | v :: r => v.Plain ∧ PlainList r
termination_by structural l => l

/-- `Plain` for the attributes of a record. -/
def PlainFields : List (String × Value) → Prop
  | [] => True
  | (_, v) :: r => v.Plain ∧ PlainFields r
termination_by structural l => l

end

theorem canonicalList_iff {elems : List Value} :
    CanonicalList elems ↔ ∀ v ∈ elems, v.Canonical := by
  induction elems with
  | nil => exact iff_of_true trivial nofun
  | cons v elems ih => rw [CanonicalList, ih, List.forall_mem_cons]

theorem canonicalFields_iff {attrs : List (String × Value)} :
    CanonicalFields attrs ↔ ∀ a ∈ attrs, a.2.Canonical := by
  induction attrs with
  | nil => exact iff_of_true trivial nofun
  | cons a attrs ih => rw [CanonicalFields, ih, List.forall_mem_cons]

theorem plainList_iff {elems : List Value} : PlainList elems ↔ ∀ v ∈ elems, v.Plain := by
  induction elems with
  | nil => exact iff_of_true trivial nofun
  | cons v elems ih => rw [PlainList, ih, List.forall_mem_cons]

theorem plainFields_iff {attrs : List (String × Value)} :
    PlainFields attrs ↔ ∀ a ∈ attrs, a.2.Plain := by
  induction attrs with
  | nil => exact iff_of_true trivial nofun
  | cons a attrs ih => rw [PlainFields, ih, List.forall_mem_cons]

/-! ## 3. Writing -/

theorem fieldsToJson_eq_map (attrs : List (String × Value)) :
    fieldsToJson attrs = attrs.map fun a => (a.1, a.2.toJson) := by
  induction attrs with
  | nil => rfl
  | cons a attrs ih => rw [fieldsToJson, ih, List.map_cons]

@[simp] theorem keys_fieldsToJson (attrs : List (String × Value)) :
    (fieldsToJson attrs).map Prod.fst = attrs.map Prod.fst := by
  rw [fieldsToJson_eq_map, List.map_map]
  rfl

theorem isSorted_entityJson (uid : EntityUid) : (entityJson uid).IsSorted := by
  have hnames : compare "id" "type" = Ordering.lt := by decide
  simp [entityJson, Json.single, Json.IsSorted, Json.IsSortedFields, SortedList.Ascending, hnames]

theorem isSorted_extensionJson (v : ExtensionValue) : (extensionJson v).IsSorted := by
  have hnames : compare "arg" "fn" = Ordering.lt := by decide
  simp [extensionJson, Json.single, Json.IsSorted, Json.IsSortedFields, SortedList.Ascending,
    hnames]

mutual

/-- The document of a value is in canonical form. -/
theorem isSorted_toJson : ∀ {v : Value}, v.Canonical → v.toJson.IsSorted
  | .bool _, _ | .long _, _ | .string _, _ => trivial
  | .entity uid, _ => isSorted_entityJson uid
  | .set _, h => isSortedItems_listToJson h.2
  | .record attrs, h => by
    refine ⟨?_, isSortedFields_fieldsToJson h.2⟩
    rw [SortedList.ascending_iff_keys, keys_fieldsToJson]
    exact SortedList.ascending_iff_keys.mp h.1
  | .ext v, _ => isSorted_extensionJson v

theorem isSortedItems_listToJson : ∀ {elems : List Value},
    CanonicalList elems → Json.IsSortedItems (listToJson elems)
  | [], _ => trivial
  | _ :: _, h => ⟨isSorted_toJson h.1, isSortedItems_listToJson h.2⟩

theorem isSortedFields_fieldsToJson : ∀ {attrs : List (String × Value)},
    CanonicalFields attrs → Json.IsSortedFields (fieldsToJson attrs)
  | [], _ => trivial
  | (_, _) :: _, h => ⟨isSorted_toJson h.1, isSortedFields_fieldsToJson h.2⟩

end

/-! ## 4. Reading what was written -/

theorem ofJson_entityJson (uid : EntityUid) : ofJson (entityJson uid) = .ok (.entity uid) := rfl

theorem ofJson_extensionJson (v : ExtensionValue) : ofJson (extensionJson v) = .ok (.ext v) := by
  have hread : ofJson (extensionJson v)
      = ofCall (ExtensionFunction.makeName v.kind) v.argument := rfl
  rw [hread, ofCall, ExtensionValue.construct_argument]

/-- The fields of an object that is no escape are the attributes of a record. -/
theorem ofJson_object {fields : List (String × Json)} (h : ¬ EscapeShaped fields) :
    ofJson (.object fields) = (fieldsOfJson fields).map recordOf := by
  match fields with
  | [] | _ :: _ :: _ => rfl
  | [(key, inner)] =>
    have hkey : key ∉ escapeKeys := fun hmem => h ⟨key, hmem, rfl⟩
    simp only [escapeKeys, List.mem_cons, List.not_mem_nil, or_false, not_or] at hkey
    have hread : ofJson (.object [(key, inner)]) = ofJson inner >>= fun v =>
        .ok (recordOf [(key, v)]) := by
      cases inner <;> simp [ofJson, hkey]
    rw [hread, fieldsOfJson]
    cases ofJson inner <;> rfl

mutual

/-- **A value without records shaped like escapes is read back from its document.** -/
theorem ofJson_toJson : ∀ {v : Value}, v.Canonical → v.Plain → ofJson v.toJson = .ok v
  | .bool _, _, _ | .string _, _, _ => rfl
  | .long n, _, _ => by
    have hlong : (JsonNumber.int n.toInt).long? = some n := Long.ofInt?_eq_some_iff.mpr rfl
    simp only [toJson, Json.int, ofJson, hlong]
  | .entity uid, _, _ => ofJson_entityJson uid
  | .set elems, hc, hp => by
    rw [toJson, ofJson, listOfJson_listToJson hc.2 hp]
    exact congrArg (fun l => Except.ok (set l)) (SortedList.ofElems_of_strict hc.1)
  | .record attrs, hc, hp => by
    have hshape : ¬ EscapeShaped (fieldsToJson attrs) := by
      unfold EscapeShaped
      rw [keys_fieldsToJson]
      exact hp.1
    rw [toJson, ofJson_object hshape, fieldsOfJson_fieldsToJson hc.2 hp.2]
    exact congrArg (fun l => Except.ok (record l)) (SortedList.ofPairs_of_ascending hc.1)
  | .ext v, _, _ => ofJson_extensionJson v

theorem listOfJson_listToJson : ∀ {elems : List Value},
    CanonicalList elems → PlainList elems → listOfJson (listToJson elems) = .ok elems
  | [], _, _ => rfl
  | _ :: _, hc, hp => by
    rw [listToJson, listOfJson, ofJson_toJson hc.1 hp.1, listOfJson_listToJson hc.2 hp.2]
    rfl

theorem fieldsOfJson_fieldsToJson : ∀ {attrs : List (String × Value)},
    CanonicalFields attrs → PlainFields attrs → fieldsOfJson (fieldsToJson attrs) = .ok attrs
  | [], _, _ => rfl
  | (_, _) :: _, hc, hp => by
    rw [fieldsToJson, fieldsOfJson, ofJson_toJson hc.1 hp.1, fieldsOfJson_fieldsToJson hc.2 hp.2]
    rfl

end

/-! ## 5. What documents give -/

/-- A value that is no set and no record is canonical and plain. -/
def IsLeaf : Value → Prop
  | .set _ | .record _ => False
  | _ => True

theorem IsLeaf.canonical {v : Value} (h : v.IsLeaf) : v.Canonical := by
  cases v <;> trivial

theorem IsLeaf.plain {v : Value} (h : v.IsLeaf) : v.Plain := by
  cases v <;> trivial

theorem isLeaf_of_ofCall {name text : String} {v : Value} (h : ofCall name text = .ok v) :
    v.IsLeaf := by
  unfold ofCall at h
  split at h
  · cases h
    trivial
  · cases h

theorem isLeaf_of_ofExprText {text : String} {v : Value} (h : ofExprText text = .ok v) :
    v.IsLeaf := by
  unfold ofExprText at h
  split at h
  · exact isLeaf_of_ofCall h
  · split at h
    · cases h
      trivial
    · cases h

/-- An escape gives an entity or an extension value. -/
theorem isLeaf_of_escapeShaped {fields : List (String × Json)} (hshape : EscapeShaped fields)
    {v : Value} (h : ofJson (.object fields) = .ok v) : v.IsLeaf := by
  obtain ⟨key, hkey, hkeys⟩ := hshape
  obtain ⟨⟨_, inner⟩, rfl, rfl⟩ := List.map_eq_singleton_iff.mp hkeys
  simp only [escapeKeys, List.mem_cons, List.not_mem_nil, or_false] at hkey
  rcases hkey with rfl | rfl | rfl
  · unfold ofJson at h
    rw [if_pos rfl] at h
    split at h
    · cases h
      trivial
    · cases h
  · unfold ofJson at h
    rw [if_neg (by decide), if_pos rfl] at h
    split at h
    · split at h
      · obtain ⟨v', -, h⟩ := bind_eq_ok_iff.mp h
        obtain ⟨text, -, h⟩ := bind_eq_ok_iff.mp h
        exact isLeaf_of_ofCall h
      · cases h
    · cases h
  · unfold ofJson at h
    rw [if_neg (by decide), if_neg (by decide), if_pos rfl] at h
    split at h
    · exact isLeaf_of_ofExprText h
    · cases h

/-- The attributes have the names of the fields. -/
theorem keys_of_fieldsOfJson : ∀ {fields : List (String × Json)} {attrs : List (String × Value)},
    fieldsOfJson fields = .ok attrs → attrs.map Prod.fst = fields.map Prod.fst
  | [], _, h => by
    cases h
    rfl
  | (name, j) :: fields, _, h => by
    rw [fieldsOfJson] at h
    obtain ⟨v, -, h⟩ := bind_eq_ok_iff.mp h
    obtain ⟨attrs, hattrs, h⟩ := bind_eq_ok_iff.mp h
    cases h
    rw [List.map_cons, List.map_cons, keys_of_fieldsOfJson hattrs]

mutual

/-- **A document in canonical form gives a canonical value without records shaped like escapes.** -/
theorem plain_of_ofJson : ∀ {j : Json} {v : Value},
    j.IsSorted → ofJson j = .ok v → v.Canonical ∧ v.Plain
  | .null, _, _, h => nomatch h
  | .bool _, _, _, h | .string _, _, _, h => by
    cases h
    exact ⟨trivial, trivial⟩
  | .number n, v, _, h => by
    rw [ofJson] at h
    split at h
    · cases h
      exact ⟨trivial, trivial⟩
    · cases h
  | .array items, v, hj, h => by
    obtain ⟨elems, helems, rfl⟩ := map_eq_ok_iff.mp h
    have hall := plain_of_listOfJson hj helems
    refine ⟨⟨SortedList.strict_ofElems elems, canonicalList_iff.mpr fun v hv => ?_⟩,
      plainList_iff.mpr fun v hv => ?_⟩
    · exact (hall v (SortedList.mem_ofElems.mp hv)).1
    · exact (hall v (SortedList.mem_ofElems.mp hv)).2
  | .object fields, v, hj, h => by
    by_cases hshape : EscapeShaped fields
    · have hleaf := isLeaf_of_escapeShaped hshape h
      exact ⟨hleaf.canonical, hleaf.plain⟩
    · rw [ofJson_object hshape] at h
      obtain ⟨attrs, hattrs, rfl⟩ := map_eq_ok_iff.mp h
      have hall := plain_of_fieldsOfJson hj.2 hattrs
      have hkeys := keys_of_fieldsOfJson hattrs
      have hascending : SortedList.Ascending attrs := by
        rw [SortedList.ascending_iff_keys, hkeys]
        exact SortedList.ascending_iff_keys.mp hj.1
      rw [recordOf, SortedList.ofPairs_of_ascending hascending]
      refine ⟨⟨hascending, canonicalFields_iff.mpr fun a ha => (hall a ha).1⟩, ?_,
        plainFields_iff.mpr fun a ha => (hall a ha).2⟩
      unfold EscapeShaped
      rw [hkeys]
      exact hshape

theorem plain_of_listOfJson : ∀ {items : List Json} {elems : List Value},
    Json.IsSortedItems items → listOfJson items = .ok elems →
      ∀ v ∈ elems, v.Canonical ∧ v.Plain
  | [], _, _, h => by
    cases h
    exact List.forall_mem_nil _
  | j :: items, _, hj, h => by
    rw [listOfJson] at h
    obtain ⟨v, hv, h⟩ := bind_eq_ok_iff.mp h
    obtain ⟨elems, helems, h⟩ := bind_eq_ok_iff.mp h
    cases h
    exact List.forall_mem_cons.mpr ⟨plain_of_ofJson hj.1 hv, plain_of_listOfJson hj.2 helems⟩

theorem plain_of_fieldsOfJson : ∀ {fields : List (String × Json)} {attrs : List (String × Value)},
    Json.IsSortedFields fields → fieldsOfJson fields = .ok attrs →
      ∀ a ∈ attrs, a.2.Canonical ∧ a.2.Plain
  | [], _, _, h => by
    cases h
    exact List.forall_mem_nil _
  | (name, j) :: fields, _, hj, h => by
    rw [fieldsOfJson] at h
    obtain ⟨v, hv, h⟩ := bind_eq_ok_iff.mp h
    obtain ⟨attrs, hattrs, h⟩ := bind_eq_ok_iff.mp h
    cases h
    exact List.forall_mem_cons.mpr ⟨plain_of_ofJson hj.1 hv, plain_of_fieldsOfJson hj.2 hattrs⟩

end

/-! ## 6. What is lost -/

/-- **The values that are read back from their documents are those without records shaped like
escapes**, and every value that a document in canonical form gives is one of them. -/
theorem lossless_codec :
    (∀ v : Value, v.Canonical → (ofJson v.toJson = .ok v ↔ v.Plain)) ∧
      ∀ (j : Json) (v : Value), j.IsSorted → ofJson j = .ok v →
        v.Canonical ∧ v.Plain ∧ ofJson v.toJson = .ok v := by
  refine ⟨fun v hcanonical => ⟨fun hread => ?_, ofJson_toJson hcanonical⟩, fun j v hj hread => ?_⟩
  · -- The document is in canonical form, so what it gives is plain, and that is the value itself.
    exact (plain_of_ofJson (isSorted_toJson hcanonical) hread).2
  · obtain ⟨hcanonical, hplain⟩ := plain_of_ofJson hj hread
    exact ⟨hcanonical, hplain, ofJson_toJson hcanonical hplain⟩

/-! A record that reads like an entity is lost two levels down; with another attribute beside the
one that marks an escape it is kept. -/

namespace Lookalike

def ann : EntityUid := ⟨⟨"User"⟩, "ann"⟩

def likeAnn : Value := .record [("id", .string "ann"), ("type", .string "User")]

def lost : Value := .record [("of", .set [.bool true, .record [(EntityUid.escapeKey, likeAnn)]])]

def found : Value := .record [("of", .set [.bool true, .entity ann])]

def kept : Value :=
  .record [("by", .record [(EntityUid.escapeKey, likeAnn), ("for", .ext (.decimal ⟨5⟩))]),
    ("of", .set [.long 7, .entity ann])]

theorem canonical_likeAnn : likeAnn.Canonical := by
  have hnames : compare "id" "type" = Ordering.lt := by decide
  simp [likeAnn, Canonical, CanonicalFields, SortedList.Ascending, hnames]

theorem canonical_lost : lost.Canonical := by
  have helems : SortedList.Strict [bool true, record [(EntityUid.escapeKey, likeAnn)]] :=
    List.pairwise_pair.mpr rfl
  simp [lost, Canonical, CanonicalFields, CanonicalList, SortedList.Ascending, helems,
    canonical_likeAnn]

theorem canonical_kept : kept.Canonical := by
  have hnames : compare "by" "of" = Ordering.lt := by decide
  have hmarked : compare EntityUid.escapeKey "for" = Ordering.lt := by decide
  have helems : SortedList.Strict [long 7, entity ann] := List.pairwise_pair.mpr rfl
  simp [kept, Canonical, CanonicalFields, CanonicalList, SortedList.Ascending, hnames, hmarked,
    helems, canonical_likeAnn]

theorem not_plain_lost : ¬ lost.Plain := by
  simp [lost, Plain, PlainFields, PlainList, EscapeShaped, escapeKeys]

theorem plain_kept : kept.Plain := by
  simp [kept, likeAnn, Plain, PlainFields, PlainList, EscapeShaped, escapeKeys]

theorem ofJson_lost : ofJson lost.toJson = .ok found := rfl

theorem lossless_codec_lookalike :
    (lost.Canonical ∧ ofJson lost.toJson ≠ .ok lost) ∧
      (kept.Canonical ∧ ofJson kept.toJson = .ok kept) ∧
      (lost.toJson.IsSorted ∧ ofJson lost.toJson = .ok found ∧
        ofJson found.toJson = .ok found) := by
  obtain ⟨hcodec, hdecoded⟩ := lossless_codec
  have hsorted : lost.toJson.IsSorted := isSorted_toJson canonical_lost
  refine ⟨⟨canonical_lost, ?_⟩, ⟨canonical_kept, ?_⟩, hsorted, ofJson_lost, ?_⟩
  · rw [ne_eq, hcodec lost canonical_lost]
    exact not_plain_lost
  · exact (hcodec kept canonical_kept).mpr plain_kept
  · exact (hdecoded lost.toJson found hsorted ofJson_lost).2.2

end Lookalike

end Value

end Arbiter
