/-
# How deep documents are

A draft is read to a given depth only: what it is read as is no deeper (`Draft.depth_le_of_value?`),
and with more depth it is read as the same (`Draft.value?_mono`).  So the text of a document is read
as that document or not at all, and it is read just if the document is not too deep
(`Json.parseRaw?_compact_eq_some_iff`).
-/
import Arbiter.Proofs.Json.Text

namespace Arbiter

namespace Json

variable {n : Nat}

theorem depthItems_le_iff {items : List Json} :
    depthItems items ≤ n ↔ ∀ j ∈ items, j.depth ≤ n := by
  induction items with
  | nil => exact iff_of_true (Nat.zero_le n) nofun
  | cons j items ih => rw [depthItems, Nat.max_le, ih, List.forall_mem_cons]

theorem depthFields_le_iff {fields : List (String × Json)} :
    depthFields fields ≤ n ↔ ∀ f ∈ fields, f.2.depth ≤ n := by
  induction fields with
  | nil => exact iff_of_true (Nat.zero_le n) nofun
  | cons f fields ih => rw [depthFields, Nat.max_le, ih, List.forall_mem_cons]

/-! ## 1. Canonical forms -/

mutual

/-- The canonical form of a document is no deeper. -/
theorem depth_sorted_le : ∀ j : Json, j.sorted.depth ≤ j.depth
  | .null | .bool _ | .number _ | .string _ => Nat.le_refl _
  | .array items => Nat.succ_le_succ (depthItems_sortedItems_le items)
  | .object fields => by
    refine Nat.succ_le_succ (depthFields_le_iff.mpr fun f hf => ?_)
    have hmem : f ∈ sortedFields fields := SortedList.mem_of_mem_ofPairs hf
    exact depthFields_le_iff.mp (depthFields_sortedFields_le fields) f hmem

theorem depthItems_sortedItems_le : ∀ items : List Json,
    depthItems (sortedItems items) ≤ depthItems items
  | [] => Nat.le_refl _
  | j :: items => by
    have hhead := depth_sorted_le j
    have htail := depthItems_sortedItems_le items
    rw [sortedItems, depthItems, depthItems]
    omega

theorem depthFields_sortedFields_le : ∀ fields : List (String × Json),
    depthFields (sortedFields fields) ≤ depthFields fields
  | [] => Nat.le_refl _
  | (_, j) :: fields => by
    have hhead := depth_sorted_le j
    have htail := depthFields_sortedFields_le fields
    rw [sortedFields, depthFields, depthFields]
    omega

end

end Json

/-! ## 2. Drafts -/

namespace Draft

theorem value?_array_eq_some_iff {items : List Draft} {closed : Bool} {n : Nat} {j : Json} :
    (array items closed).value? n = some j ↔
      0 < n ∧ closed = true ∧ ∃ js, values? (n - 1) items = some js ∧ .array js = j := by
  rw [value?, Option.ite_none_left_eq_some, Option.map_eq_some_iff, not_or, Bool.not_eq_true,
    Bool.not_eq_false', and_assoc, Nat.pos_iff_ne_zero]

theorem value?_object_eq_some_iff {fields : List (Option String × Draft)} {closed : Bool} {n : Nat}
    {j : Json} : (object fields closed).value? n = some j ↔
      0 < n ∧ closed = true ∧ ∃ fs, fieldValues? (n - 1) fields = some fs ∧ .object fs = j := by
  rw [value?, Option.ite_none_left_eq_some, Option.map_eq_some_iff, not_or, Bool.not_eq_true,
    Bool.not_eq_false', and_assoc, Nat.pos_iff_ne_zero]

theorem values?_cons_eq_some_iff {d : Draft} {r : List Draft} {n : Nat} {js : List Json} :
    values? n (d :: r) = some js ↔
      ∃ j, d.value? n = some j ∧ ∃ js', values? n r = some js' ∧ j :: js' = js := by
  simp [values?, Option.bind_eq_some_iff]

theorem fieldValues?_cons_eq_some_iff {name : Option String} {d : Draft}
    {r : List (Option String × Draft)} {n : Nat} {fs : List (String × Json)} :
    fieldValues? n ((name, d) :: r) = some fs ↔
      ∃ s, name = some s ∧ ∃ j, d.value? n = some j ∧
        ∃ fs', fieldValues? n r = some fs' ∧ (s, j) :: fs' = fs := by
  simp [fieldValues?, Option.bind_eq_some_iff]

mutual

/-- A draft is read as a document that is no deeper than it is read. -/
theorem depth_le_of_value? : ∀ {d : Draft} {n : Nat} {j : Json}, d.value? n = some j → j.depth ≤ n
  | .null, _, _, h | .bool _, _, _, h => by
    cases h
    exact Nat.zero_le _
  | .number _, _, _, h | .string _, _, _, h => by
    obtain ⟨_, -, rfl⟩ := Option.map_eq_some_iff.mp h
    exact Nat.zero_le _
  | .array items _, n, _, h => by
    obtain ⟨hn, -, js, hjs, rfl⟩ := value?_array_eq_some_iff.mp h
    have hdepth := depthItems_le_of_values? hjs
    rw [Json.depth]
    omega
  | .object fields _, n, _, h => by
    obtain ⟨hn, -, fs, hfs, rfl⟩ := value?_object_eq_some_iff.mp h
    have hdepth := depthFields_le_of_fieldValues? hfs
    rw [Json.depth]
    omega

theorem depthItems_le_of_values? : ∀ {items : List Draft} {n : Nat} {js : List Json},
    values? n items = some js → Json.depthItems js ≤ n
  | [], _, _, h => by
    cases h
    exact Nat.zero_le _
  | _ :: _, _, _, h => by
    obtain ⟨j, hj, js, hjs, rfl⟩ := values?_cons_eq_some_iff.mp h
    exact Nat.max_le.mpr ⟨depth_le_of_value? hj, depthItems_le_of_values? hjs⟩

theorem depthFields_le_of_fieldValues? : ∀ {fields : List (Option String × Draft)} {n : Nat}
    {fs : List (String × Json)}, fieldValues? n fields = some fs → Json.depthFields fs ≤ n
  | [], _, _, h => by
    cases h
    exact Nat.zero_le _
  | (_, _) :: _, _, _, h => by
    obtain ⟨_, -, j, hj, fs, hfs, rfl⟩ := fieldValues?_cons_eq_some_iff.mp h
    exact Nat.max_le.mpr ⟨depth_le_of_value? hj, depthFields_le_of_fieldValues? hfs⟩

end

mutual

/-- With more depth a draft is read as the same. -/
theorem value?_mono : ∀ {d : Draft} {m n : Nat} {j : Json}, m ≤ n →
    d.value? m = some j → d.value? n = some j
  | .null, _, _, _, _, h | .bool _, _, _, _, _, h | .number _, _, _, _, _, h
  | .string _, _, _, _, _, h => h
  | .array _ _, _, _, _, hmn, h => by
    obtain ⟨hm, hclosed, js, hjs, rfl⟩ := value?_array_eq_some_iff.mp h
    exact value?_array_eq_some_iff.mpr ⟨Nat.lt_of_lt_of_le hm hmn, hclosed, js,
      values?_mono (Nat.sub_le_sub_right hmn 1) hjs, rfl⟩
  | .object _ _, _, _, _, hmn, h => by
    obtain ⟨hm, hclosed, fs, hfs, rfl⟩ := value?_object_eq_some_iff.mp h
    exact value?_object_eq_some_iff.mpr ⟨Nat.lt_of_lt_of_le hm hmn, hclosed, fs,
      fieldValues?_mono (Nat.sub_le_sub_right hmn 1) hfs, rfl⟩

theorem values?_mono : ∀ {items : List Draft} {m n : Nat} {js : List Json}, m ≤ n →
    values? m items = some js → values? n items = some js
  | [], _, _, _, _, h => h
  | _ :: _, _, _, _, hmn, h => by
    obtain ⟨j, hj, js, hjs, rfl⟩ := values?_cons_eq_some_iff.mp h
    exact values?_cons_eq_some_iff.mpr ⟨j, value?_mono hmn hj, js, values?_mono hmn hjs, rfl⟩

theorem fieldValues?_mono : ∀ {fields : List (Option String × Draft)} {m n : Nat}
    {fs : List (String × Json)}, m ≤ n →
    fieldValues? m fields = some fs → fieldValues? n fields = some fs
  | [], _, _, _, _, h => h
  | (_, _) :: _, _, _, _, hmn, h => by
    obtain ⟨s, hs, j, hj, fs, hfs, rfl⟩ := fieldValues?_cons_eq_some_iff.mp h
    exact fieldValues?_cons_eq_some_iff.mpr
      ⟨s, hs, j, value?_mono hmn hj, fs, fieldValues?_mono hmn hfs, rfl⟩

end

end Draft

/-! ## 3. Texts -/

namespace Json

theorem parseRaw?_eq_some_iff {n : Nat} {text : String} {j : Json} : parseRaw? n text = some j ↔
    (read text).ended = true ∧ (read text).draft.value? n = some j :=
  Option.ite_none_right_eq_some

theorem parseRaw?_mono {m n : Nat} (hmn : m ≤ n) {text : String} {j : Json}
    (h : parseRaw? m text = some j) : parseRaw? n text = some j := by
  rw [parseRaw?_eq_some_iff] at h ⊢
  exact ⟨h.1, Draft.value?_mono hmn h.2⟩

/-- **The text of a document is read as that document, if it is not too deep, or not at all.** -/
theorem parseRaw?_compact_eq_some_iff {j : Json} (hj : j.IsExact) {n : Nat} {j' : Json} :
    parseRaw? n j.compact = some j' ↔ j.depth ≤ n ∧ j = j' := by
  constructor
  · intro h
    have hmax := parseRaw?_mono (Nat.le_max_left n j.depth) h
    rw [parseRaw?_compact hj (Nat.le_max_right n j.depth)] at hmax
    cases hmax
    exact ⟨Draft.depth_le_of_value? (parseRaw?_eq_some_iff.mp h).2, rfl⟩
  · rintro ⟨hdepth, rfl⟩
    exact parseRaw?_compact hj hdepth

end Json

end Arbiter
