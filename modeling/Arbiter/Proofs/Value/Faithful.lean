/-
# Values are told apart by their documents

Two values can have one document only through a record that has the document of an entity or of an
extension value.  Values without such a record at any depth (`Value.Faithful`) are told apart by
their documents (`Value.toJson_injective`), canonical or not, and so by the texts of their documents,
whose numbers are integers of 64 bits (`Value.isExact_toJson`).
-/
import Arbiter.Proofs.Json.Text
import Arbiter.Proofs.Value.Codec

namespace Arbiter

/-! ## 1. Documents without doubles -/

namespace Json

theorem isExact_int (n : Int64) : (Json.int n.toInt).IsExact := by
  have hmin := Int64.minValue_le_toInt n
  have hmax := Int64.toInt_le n
  simp only [Int64.toInt_minValue, Int64.toInt_maxValue] at hmin hmax
  refine ⟨?_, fun _ => ?_⟩
  · unfold significandLimit
    omega
  · rw [Long.ofInt?_eq_some_iff.mpr rfl]
    rfl

end Json

namespace Value

mutual

/-- The numbers in the document of a value are integers of 64 bits. -/
theorem isExact_toJson : ∀ v : Value, v.toJson.IsExact
  | .bool _ | .string _ => trivial
  | .entity _ | .ext _ => ⟨⟨trivial, trivial, trivial⟩, trivial⟩
  | .long n => Json.isExact_int n
  | .set elems => isExactItems_listToJson elems
  | .record attrs => isExactFields_fieldsToJson attrs

theorem isExactItems_listToJson : ∀ elems : List Value, Json.IsExactItems (listToJson elems)
  | [] => trivial
  | v :: elems => ⟨isExact_toJson v, isExactItems_listToJson elems⟩

theorem isExactFields_fieldsToJson :
    ∀ attrs : List (String × Value), Json.IsExactFields (fieldsToJson attrs)
  | [] => trivial
  | (_, v) :: attrs => ⟨isExact_toJson v, isExactFields_fieldsToJson attrs⟩

end

/-! ## 2. Values of different documents -/

mutual

/-- Whether no record at any depth has the document of an entity or of an extension value. -/
def Faithful : Value → Prop
  | .set elems => FaithfulList elems
  | .record attrs =>
    (∀ uid, (record attrs).toJson ≠ entityJson uid) ∧
      (∀ v, (record attrs).toJson ≠ extensionJson v) ∧ FaithfulFields attrs
  | _ => True
termination_by structural v => v

/-- `Faithful` for the elements of a set. -/
def FaithfulList : List Value → Prop
  | [] => True
  | v :: r => v.Faithful ∧ FaithfulList r
termination_by structural l => l

/-- `Faithful` for the attributes of a record. -/
def FaithfulFields : List (String × Value) → Prop
  | [] => True
  | (_, v) :: r => v.Faithful ∧ FaithfulFields r
termination_by structural l => l

end

theorem entityJson_injective {u u' : EntityUid} (h : entityJson u = entityJson u') : u = u' := by
  have hread := ofJson_entityJson u
  rw [h, ofJson_entityJson] at hread
  cases hread
  rfl

theorem extensionJson_injective {v v' : ExtensionValue} (h : extensionJson v = extensionJson v') :
    v = v' := by
  have hread := ofJson_extensionJson v
  rw [h, ofJson_extensionJson] at hread
  cases hread
  rfl

theorem entityJson_ne_extensionJson (u : EntityUid) (v : ExtensionValue) :
    entityJson u ≠ extensionJson v := by
  simp [entityJson, extensionJson, Json.single, EntityUid.escapeKey, extensionKey]

mutual

/-- **Values are told apart by their documents.** -/
theorem toJson_injective : ∀ {v w : Value}, v.Faithful → w.Faithful → v.toJson = w.toJson → v = w
  | .bool a, w, _, hw, h => by
    cases w with
    | bool b =>
      cases h
      rfl
    | _ => cases h
  | .long a, w, _, hw, h => by
    cases w with
    | long b =>
      have hint : a.toInt = b.toInt := by injection h with h; injection h
      rw [Int64.toInt_inj.mp hint]
    | _ => cases h
  | .string a, w, _, hw, h => by
    cases w with
    | string b =>
      cases h
      rfl
    | _ => cases h
  | .entity u, w, _, hw, h => by
    cases w with
    | entity u' => rw [entityJson_injective h]
    | record attrs => exact absurd h.symm (hw.1 u)
    | ext v => exact absurd h (entityJson_ne_extensionJson u v)
    | _ => cases h
  | .set elems, w, hv, hw, h => by
    cases w with
    | set elems' => rw [listToJson_injective hv hw (Json.array.inj h)]
    | _ => cases h
  | .record attrs, w, hv, hw, h => by
    cases w with
    | record attrs' => rw [fieldsToJson_injective hv.2.2 hw.2.2 (Json.object.inj h)]
    | entity u => exact absurd h (hv.1 u)
    | ext v => exact absurd h (hv.2.1 v)
    | _ => cases h
  | .ext v, w, _, hw, h => by
    cases w with
    | ext v' => rw [extensionJson_injective h]
    | record attrs => exact absurd h.symm (hw.2.1 v)
    | entity u => exact absurd h.symm (entityJson_ne_extensionJson u v)
    | _ => cases h

theorem listToJson_injective : ∀ {l m : List Value},
    FaithfulList l → FaithfulList m → listToJson l = listToJson m → l = m
  | [], [], _, _, _ => rfl
  | _ :: _, _ :: _, hl, hm, h => by
    obtain ⟨hhead, htail⟩ := List.cons.inj h
    rw [toJson_injective hl.1 hm.1 hhead, listToJson_injective hl.2 hm.2 htail]

theorem fieldsToJson_injective : ∀ {l m : List (String × Value)},
    FaithfulFields l → FaithfulFields m → fieldsToJson l = fieldsToJson m → l = m
  | [], [], _, _, _ => rfl
  | (_, _) :: _, (_, _) :: _, hl, hm, h => by
    obtain ⟨hhead, htail⟩ := List.cons.inj h
    obtain ⟨hname, hvalue⟩ := Prod.mk.inj hhead
    rw [hname, toJson_injective hl.1 hm.1 hvalue, fieldsToJson_injective hl.2 hm.2 htail]

end

end Value

end Arbiter
