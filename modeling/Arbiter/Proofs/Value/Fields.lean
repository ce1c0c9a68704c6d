/-
# Objects as maps of values

The fields of an object give attributes one by one.  If no name stands twice their order does not
matter (`Value.exists_fieldsOfJson_iff_of_perm`); a draft gives the map of the object that it is
read as (`Value.mapOfDraft_eq_ok_iff`); and the object stands for a record of them unless it is
shaped like an escape (`Value.ofJson_eq_record_iff`).  What is written has at most one level more
than what was read (`Value.depth_toJson_le_of_ofJson`).
-/
import Arbiter.Entity.Document
import Arbiter.Proofs.Json.Depth
import Arbiter.Proofs.Value.Codec

namespace Arbiter

open Outcome

/-! ## 1. Fields in any order -/

/-- Without repeated keys the order of the pairs does not matter. -/
theorem SortedList.ofPairs_eq_of_perm {κ : Type} {α : Type} [Ord κ] [Std.TransOrd κ]
    [Std.LawfulEqOrd κ] {l l' : List (κ × α)} (h : l.Perm l') (hnodup : (l.map Prod.fst).Nodup) :
    ofPairs l = ofPairs l' := by
  have hnodup' : (l'.map Prod.fst).Nodup := (h.map Prod.fst).nodup_iff.mp hnodup
  refine eq_of_find?_eq (ascending_ofPairs l) (ascending_ofPairs l') fun k => ?_
  ext v
  rw [find?_eq_some_iff (ascending_ofPairs l), find?_eq_some_iff (ascending_ofPairs l'),
    (ofPairs_perm hnodup).mem_iff, (ofPairs_perm hnodup').mem_iff, h.mem_iff]

namespace Value

theorem EscapeShaped.of_perm {α β : Type} {l : List (String × α)} {l' : List (String × β)}
    (h : (l.map Prod.fst).Perm (l'.map Prod.fst)) (hshape : EscapeShaped l) : EscapeShaped l' := by
  obtain ⟨name, hname, hl⟩ := hshape
  rw [hl] at h
  exact ⟨name, hname, List.perm_singleton.mp h.symm⟩

theorem escapeShaped_iff_of_perm {α β : Type} {l : List (String × α)} {l' : List (String × β)}
    (h : (l.map Prod.fst).Perm (l'.map Prod.fst)) : EscapeShaped l ↔ EscapeShaped l' :=
  ⟨.of_perm h, .of_perm h.symm⟩

theorem fieldsOfJson_cons_eq_ok_iff {f : String × Json} {r : List (String × Json)}
    {attrs : List (String × Value)} : fieldsOfJson (f :: r) = .ok attrs ↔
      ∃ v, ofJson f.2 = .ok v ∧ ∃ attrs', fieldsOfJson r = .ok attrs' ∧
        (f.1, v) :: attrs' = attrs := by
  simp only [fieldsOfJson, bind_eq_ok_iff, pure_eq_ok, Except.ok.injEq]

/-- The fields of an object give the same attributes in any order. -/
theorem exists_perm_of_fieldsOfJson {fields fields' : List (String × Json)}
    (h : fields.Perm fields') : ∀ {attrs : List (String × Value)}, fieldsOfJson fields = .ok attrs →
      ∃ attrs', fieldsOfJson fields' = .ok attrs' ∧ attrs.Perm attrs' := by
  induction h with
  | nil =>
    intro attrs hattrs
    exact ⟨attrs, hattrs, .refl attrs⟩
  | cons f _ ih =>
    intro attrs hattrs
    obtain ⟨v, hv, rest, hrest, rfl⟩ := fieldsOfJson_cons_eq_ok_iff.mp hattrs
    obtain ⟨rest', hrest', hperm⟩ := ih hrest
    exact ⟨_, fieldsOfJson_cons_eq_ok_iff.mpr ⟨v, hv, rest', hrest', rfl⟩, hperm.cons _⟩
  | swap f g l =>
    intro attrs hattrs
    obtain ⟨w, hw, _, htail, rfl⟩ := fieldsOfJson_cons_eq_ok_iff.mp hattrs
    obtain ⟨v, hv, rest, hrest, rfl⟩ := fieldsOfJson_cons_eq_ok_iff.mp htail
    refine ⟨_, fieldsOfJson_cons_eq_ok_iff.mpr ⟨v, hv, _, ?_, rfl⟩, .swap _ _ _⟩
    exact fieldsOfJson_cons_eq_ok_iff.mpr ⟨w, hw, rest, hrest, rfl⟩
  | trans _ _ ih₁ ih₂ =>
    intro attrs hattrs
    obtain ⟨attrs₁, hattrs₁, hperm₁⟩ := ih₁ hattrs
    obtain ⟨attrs₂, hattrs₂, hperm₂⟩ := ih₂ hattrs₁
    exact ⟨attrs₂, hattrs₂, hperm₁.trans hperm₂⟩

/-- Fields of different names give the same map in any order. -/
theorem exists_fieldsOfJson_iff_of_perm {fields fields' : List (String × Json)}
    (h : fields.Perm fields') (hnodup : (fields.map Prod.fst).Nodup)
    {entries : List (String × Value)} :
    (∃ attrs, fieldsOfJson fields = .ok attrs ∧ SortedList.ofPairs attrs = entries) ↔
      ∃ attrs, fieldsOfJson fields' = .ok attrs ∧ SortedList.ofPairs attrs = entries := by
  have hstep {fields fields' : List (String × Json)} (h : fields.Perm fields')
      (hnodup : (fields.map Prod.fst).Nodup)
      (hread : ∃ attrs, fieldsOfJson fields = .ok attrs ∧ SortedList.ofPairs attrs = entries) :
      ∃ attrs, fieldsOfJson fields' = .ok attrs ∧ SortedList.ofPairs attrs = entries := by
    obtain ⟨attrs, hattrs, rfl⟩ := hread
    obtain ⟨attrs', hattrs', hperm⟩ := exists_perm_of_fieldsOfJson h hattrs
    rw [← keys_of_fieldsOfJson hattrs] at hnodup
    exact ⟨attrs', hattrs', (SortedList.ofPairs_eq_of_perm hperm hnodup).symm⟩
  exact ⟨hstep h hnodup, hstep h.symm ((h.map Prod.fst).nodup_iff.mp hnodup)⟩

/-! ## 2. Maps in drafts -/

theorem wellFormed_eq_ok_iff {ε α : Type} {o : Option α} {a : α} :
    (wellFormed o : Except (DocumentError ε) α) = .ok a ↔ o = some a := by
  cases o <;> simp [wellFormed]

theorem ofDraft_eq_ok_iff {depth : Nat} {d : Draft} {v : Value} :
    ofDraft depth d = .ok v ↔ ∃ j, d.value? depth = some j ∧ ofJson j.sorted = .ok v := by
  unfold ofDraft
  cases d.value? depth with
  | none => exact iff_of_false nofun fun ⟨_, h, _⟩ => nomatch h
  | some j => simp [wellFormed, refusing, mapError_eq_ok_iff]

/-- Named values in a draft are those of the fields it is read as. -/
theorem fieldsOfDraft_eq_ok_iff {depth : Nat} :
    ∀ {fields : List (Option String × Draft)} {attrs : List (String × Value)},
      fieldsOfDraft depth fields = .ok attrs ↔
        ∃ fs, Draft.fieldValues? depth fields = some fs ∧
          fieldsOfJson (Json.sortedFields fs) = .ok attrs
  | [], attrs => by simp [fieldsOfDraft, Draft.fieldValues?, Json.sortedFields, fieldsOfJson]
  | (name, d) :: fields, attrs => by
    simp only [fieldsOfDraft, bind_eq_ok_iff, wellFormed_eq_ok_iff, ofDraft_eq_ok_iff,
      fieldsOfDraft_eq_ok_iff, Draft.fieldValues?_cons_eq_some_iff, pure_eq_ok, Except.ok.injEq]
    constructor
    · rintro ⟨s, hs, v, ⟨j, hj, hv⟩, attrs, ⟨fs, hfs, hattrs⟩, rfl⟩
      exact ⟨_, ⟨s, hs, j, hj, fs, hfs, rfl⟩,
        fieldsOfJson_cons_eq_ok_iff.mpr ⟨v, hv, attrs, hattrs, rfl⟩⟩
    · rintro ⟨_, ⟨s, hs, j, hj, fs, hfs, rfl⟩, hread⟩
      obtain ⟨v, hv, attrs, hattrs, rfl⟩ := fieldsOfJson_cons_eq_ok_iff.mp hread
      exact ⟨s, hs, v, ⟨j, hj, hv⟩, attrs, ⟨fs, hfs, hattrs⟩, rfl⟩

/-- The map in a draft is that of the object it is read as. -/
theorem mapOfDraft_eq_ok_iff {depth : Nat} {d : Draft} {m : SortedMap String Value} :
    mapOfDraft depth d = .ok m ↔ ∃ fields, d.value? depth = some (.object fields) ∧
      ∃ attrs, fieldsOfJson (Json.sortedFields fields) = .ok attrs ∧
        SortedList.ofPairs attrs = m.entries := by
  cases d with
  | object fields closed =>
    simp only [mapOfDraft, Draft.value?_object_eq_some_iff]
    split
    · rename_i hzero
      refine iff_of_false nofun ?_
      rintro ⟨_, ⟨hpos, -⟩, -⟩
      exact absurd hpos (hzero ▸ Nat.lt_irrefl 0)
    · rename_i hpos
      rw [bind_eq_ok_iff]
      simp only [fieldsOfDraft_eq_ok_iff]
      constructor
      · rintro ⟨attrs, ⟨fs, hfs, hattrs⟩, h⟩
        split at h
        · rename_i hclosed
          cases h
          exact ⟨fs, ⟨Nat.pos_of_ne_zero hpos, hclosed, fs, hfs, rfl⟩, attrs, hattrs, rfl⟩
        · cases h
      · rintro ⟨_, ⟨-, rfl, _, hfs, ⟨rfl⟩⟩, attrs, hattrs, hm⟩
        exact ⟨attrs, ⟨_, hfs, hattrs⟩, congrArg Except.ok (SortedMap.ext hm)⟩
  | number n | string s =>
    refine iff_of_false nofun ?_
    rintro ⟨_, h, -⟩
    obtain ⟨_, -, h⟩ := Option.map_eq_some_iff.mp h
    cases h
  | array items closed =>
    refine iff_of_false nofun ?_
    rintro ⟨_, h, -⟩
    obtain ⟨-, -, _, -, h⟩ := Draft.value?_array_eq_some_iff.mp h
    cases h
  | null | bool b | broken => exact iff_of_false nofun fun ⟨_, h, _⟩ => nomatch h

/-! ## 3. Records -/

/-- An object gives a record if it is not shaped like an escape and its fields have values. -/
theorem ofJson_eq_record_iff {fields : List (String × Json)} {entries : List (String × Value)} :
    ofJson (.object fields) = .ok (.record entries) ↔ ¬ EscapeShaped fields ∧
      ∃ attrs, fieldsOfJson fields = .ok attrs ∧ SortedList.ofPairs attrs = entries := by
  by_cases hshape : EscapeShaped fields
  · refine iff_of_false (fun h => ?_) fun h => h.1 hshape
    exact isLeaf_of_escapeShaped hshape h
  · rw [ofJson_object hshape, map_eq_ok_iff]
    simp only [recordOf, record.injEq]
    exact (and_iff_right hshape).symm

/-! ## 4. Depth -/

theorem IsLeaf.depth_toJson_le {v : Value} (h : v.IsLeaf) : v.toJson.depth ≤ 2 := by
  cases v with
  | bool b | long n | string s => exact Nat.zero_le 2
  | entity u | ext v => exact Nat.le_refl 2
  | set elems | record attrs => exact h.elim

theorem depthItems_listToJson_le_iff {elems : List Value} {n : Nat} :
    Json.depthItems (listToJson elems) ≤ n ↔ ∀ v ∈ elems, v.toJson.depth ≤ n := by
  induction elems with
  | nil => exact iff_of_true (Nat.zero_le n) nofun
  | cons v elems ih => rw [listToJson, Json.depthItems, Nat.max_le, ih, List.forall_mem_cons]

theorem depthFields_fieldsToJson_le_iff {attrs : List (String × Value)} {n : Nat} :
    Json.depthFields (fieldsToJson attrs) ≤ n ↔ ∀ a ∈ attrs, a.2.toJson.depth ≤ n := by
  rw [Json.depthFields_le_iff, fieldsToJson_eq_map, List.forall_mem_map]

mutual

/-- The document that a value is written as has at most one level more than what it was read from;
the text of an entity is such a case. -/
theorem depth_toJson_le_of_ofJson : ∀ {j : Json} {v : Value},
    ofJson j = .ok v → v.toJson.depth ≤ j.depth + 1
  | .null, _, h => nomatch h
  | .bool _, _, h | .string _, _, h => by
    cases h
    exact Nat.zero_le _
  | .number n, v, h => by
    rw [ofJson] at h
    split at h
    · cases h
      exact Nat.zero_le _
    · cases h
  | .array items, v, h => by
    obtain ⟨elems, helems, rfl⟩ := map_eq_ok_iff.mp h
    refine Nat.succ_le_succ (depthItems_listToJson_le_iff.mpr fun v hv => ?_)
    exact depth_toJson_le_of_listOfJson helems v (SortedList.mem_ofElems.mp hv)
  | .object fields, v, h => by
    by_cases hshape : EscapeShaped fields
    · have hleaf := (isLeaf_of_escapeShaped hshape h).depth_toJson_le
      rw [Json.depth]
      omega
    · rw [ofJson_object hshape] at h
      obtain ⟨attrs, hattrs, rfl⟩ := map_eq_ok_iff.mp h
      refine Nat.succ_le_succ (depthFields_fieldsToJson_le_iff.mpr fun a ha => ?_)
      exact depth_toJson_le_of_fieldsOfJson hattrs a (SortedList.mem_of_mem_ofPairs ha)

theorem depth_toJson_le_of_listOfJson : ∀ {items : List Json} {elems : List Value},
    listOfJson items = .ok elems → ∀ v ∈ elems, v.toJson.depth ≤ Json.depthItems items + 1
  | [], _, h => by
    cases h
    exact List.forall_mem_nil _
  | j :: items, _, h => by
    rw [listOfJson] at h
    obtain ⟨v, hv, h⟩ := bind_eq_ok_iff.mp h
    obtain ⟨elems, helems, h⟩ := bind_eq_ok_iff.mp h
    cases h
    have hhead := depth_toJson_le_of_ofJson hv
    have htail := depth_toJson_le_of_listOfJson helems
    rw [Json.depthItems]
    refine List.forall_mem_cons.mpr ⟨by omega, fun w hw => ?_⟩
    have hw := htail w hw
    omega

theorem depth_toJson_le_of_fieldsOfJson : ∀ {fields : List (String × Json)}
    {attrs : List (String × Value)}, fieldsOfJson fields = .ok attrs →
      ∀ a ∈ attrs, a.2.toJson.depth ≤ Json.depthFields fields + 1
  | [], _, h => by
    cases h
    exact List.forall_mem_nil _
  | (name, j) :: fields, _, h => by
    obtain ⟨v, hv, attrs, hattrs, rfl⟩ := fieldsOfJson_cons_eq_ok_iff.mp h
    have hhead : v.toJson.depth ≤ j.depth + 1 := depth_toJson_le_of_ofJson hv
    have htail := depth_toJson_le_of_fieldsOfJson hattrs
    rw [Json.depthFields]
    refine List.forall_mem_cons.mpr ⟨by dsimp only; omega, fun a ha => ?_⟩
    have ha := htail a ha
    omega

end

end Value

end Arbiter
