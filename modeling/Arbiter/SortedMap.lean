/-
# Maps in key order

A finite map as its pairs in strictly ascending key order.  The order is part of the type, so
equal maps have equal pairs, and the pairs are the order in which a map is walked and written.
-/
import Arbiter.SortedList

namespace Arbiter

universe u v

/-- A finite map: its pairs, in strictly ascending order of their keys. -/
structure SortedMap (κ : Type u) (α : Type v) [Ord κ] where
  /-- The pairs, least key first. -/
  entries : List (κ × α)
  /-- The keys ascend strictly. -/
  ascending : SortedList.Ascending entries

namespace SortedMap

variable {κ : Type u} {α : Type v} [Ord κ]

/-- Two maps are equal when their pairs are. -/
@[ext] theorem ext : ∀ {m n : SortedMap κ α}, m.entries = n.entries → m = n
  | ⟨_, _⟩, ⟨_, _⟩, rfl => rfl

instance [DecidableEq κ] [DecidableEq α] : DecidableEq (SortedMap κ α) := fun m n =>
  decidable_of_iff (m.entries = n.entries) ⟨ext, fun h => h ▸ rfl⟩

/-- The map with no pair. -/
def empty : SortedMap κ α := ⟨[], List.Pairwise.nil⟩

instance : Inhabited (SortedMap κ α) := ⟨empty⟩

/-- What is written under `k`. -/
def find? (m : SortedMap κ α) (k : κ) : Option α := SortedList.find? k m.entries

/-- Whether something is written under `k`. -/
def contains (m : SortedMap κ α) (k : κ) : Bool := (m.find? k).isSome

/-- The keys, in order. -/
def keys (m : SortedMap κ α) : List κ := m.entries.map Prod.fst

/-- The values, in the order of their keys. -/
def values (m : SortedMap κ α) : List α := m.entries.map Prod.snd

/-- The number of pairs. -/
def size (m : SortedMap κ α) : Nat := m.entries.length

/-- Whether there is no pair. -/
def isEmpty (m : SortedMap κ α) : Bool := m.entries.isEmpty

/-- The map with `v` under `k`, in place of what was there. -/
def insert [Std.TransOrd κ] (m : SortedMap κ α) (k : κ) (v : α) : SortedMap κ α :=
  ⟨SortedList.put k v m.entries, SortedList.ascending_put k v m.ascending⟩

/-- The map of the pairs of a list: of two under one key the later one stays. -/
def ofList [Std.TransOrd κ] (l : List (κ × α)) : SortedMap κ α :=
  ⟨SortedList.ofPairs l, SortedList.ascending_ofPairs l⟩

/-- The pairs of which the values are to be kept. -/
def filter (m : SortedMap κ α) (keep : α → Bool) : SortedMap κ α :=
  ⟨m.entries.filter fun e => keep e.2, List.Pairwise.filter _ m.ascending⟩

/-- The map with each value changed. -/
def mapValues {β : Type v} (f : α → β) (m : SortedMap κ α) : SortedMap κ β :=
  ⟨m.entries.map fun e => (e.1, f e.2), SortedList.ascending_map f m.ascending⟩

/-- The map with the elements of a list, each under its key. -/
def insertAll [Std.TransOrd κ] (m : SortedMap κ α) (key : α → κ) (l : List α) : SortedMap κ α :=
  l.foldl (fun m a => m.insert (key a) a) m

theorem find?_insert [Std.TransOrd κ] [Std.LawfulEqOrd κ] (m : SortedMap κ α) (k j : κ) (v : α) :
    (m.insert k v).find? j = if compare j k = .eq then some v else m.find? j :=
  SortedList.find?_put k j v m.entries

theorem find?_insert_self [Std.TransOrd κ] [Std.LawfulEqOrd κ] (m : SortedMap κ α) (k : κ)
    (v : α) : (m.insert k v).find? k = some v := by
  simp [find?_insert]

theorem find?_insert_of_ne [Std.TransOrd κ] [Std.LawfulEqOrd κ] (m : SortedMap κ α) {k j : κ}
    (v : α) (h : j ≠ k) : (m.insert k v).find? j = m.find? j := by
  simp [find?_insert, h]

/-- What is found after an insertion is what was inserted or was there. -/
theorem of_find?_insert [Std.TransOrd κ] [Std.LawfulEqOrd κ] {m : SortedMap κ α} {k j : κ}
    {v w : α} (h : (m.insert k v).find? j = some w) : j = k ∧ w = v ∨ m.find? j = some w := by
  rw [find?_insert] at h
  split at h
  · rename_i heq
    cases h
    exact Or.inl ⟨Std.LawfulEqCmp.eq_of_compare heq, rfl⟩
  · exact Or.inr h

/-- After an insertion under a new key, what was there and what was inserted is found. -/
theorem find?_insert_eq_some_iff [Std.TransOrd κ] [Std.LawfulEqOrd κ] {m : SortedMap κ α}
    {k j : κ} {v w : α} (hfresh : m.find? k = none) :
    (m.insert k v).find? j = some w ↔ m.find? j = some w ∨ w = v ∧ k = j := by
  constructor
  · intro h
    rcases of_find?_insert h with ⟨rfl, rfl⟩ | h
    · exact Or.inr ⟨rfl, rfl⟩
    · exact Or.inl h
  · rintro (h | ⟨rfl, rfl⟩)
    · have hne : j ≠ k := by
        rintro rfl
        rw [hfresh] at h
        cases h
      rw [find?_insert_of_ne m v hne]
      exact h
    · exact find?_insert_self m k w

/-- Two maps are equal when look-ups in them are. -/
theorem eq_of_find?_eq [Std.TransOrd κ] [Std.LawfulEqOrd κ] {m n : SortedMap κ α}
    (h : ∀ k, m.find? k = n.find? k) : m = n :=
  ext (SortedList.eq_of_find?_eq m.ascending n.ascending h)

/-- A map is that of its pairs. -/
theorem ofList_entries [Std.TransOrd κ] (m : SortedMap κ α) : ofList m.entries = m :=
  ext (SortedList.ofPairs_of_ascending m.ascending)

theorem find?_insertAll_of_notMem [Std.TransOrd κ] [Std.LawfulEqOrd κ] {key : α → κ} {k : κ} :
    ∀ {l : List α} {m : SortedMap κ α}, k ∉ l.map key → (m.insertAll key l).find? k = m.find? k
  | [], _, _ => rfl
  | a :: l, m, h => by
    rw [List.map_cons, List.mem_cons, not_or] at h
    have ih : ((m.insert (key a) a).insertAll key l).find? k = (m.insert (key a) a).find? k :=
      find?_insertAll_of_notMem h.2
    rw [find?_insert_of_ne m a h.1] at ih
    exact ih

theorem find?_insertAll_of_mem [Std.TransOrd κ] [Std.LawfulEqOrd κ] {key : α → κ} {a : α} :
    ∀ {l : List α} {m : SortedMap κ α}, (∀ b ∈ l, key b = key a → b = a) → a ∈ l →
      (m.insertAll key l).find? (key a) = some a
  | b :: l, m, hkey, h => by
    obtain ⟨-, hl⟩ := List.forall_mem_cons.mp hkey
    by_cases ha : a ∈ l
    · have hrest : ((m.insert (key b) b).insertAll key l).find? (key a) = some a :=
        find?_insertAll_of_mem hl ha
      exact hrest
    · obtain rfl : a = b := (List.mem_cons.mp h).resolve_right ha
      have hnotMem : key a ∉ l.map key := by
        intro hmem
        obtain ⟨c, hc, hca⟩ := List.mem_map.mp hmem
        exact ha (hl c hc hca ▸ hc)
      have hrest : ((m.insert (key a) a).insertAll key l).find? (key a)
          = (m.insert (key a) a).find? (key a) := find?_insertAll_of_notMem hnotMem
      rw [find?_insert_self] at hrest
      exact hrest

/-- What is found after several insertions was there or is one of the elements. -/
theorem of_find?_insertAll [Std.TransOrd κ] [Std.LawfulEqOrd κ] {key : α → κ} {k : κ} {v : α} :
    ∀ {l : List α} {m : SortedMap κ α}, (m.insertAll key l).find? k = some v →
      m.find? k = some v ∨ v ∈ l ∧ key v = k
  | [], _, h => Or.inl h
  | a :: l, m, h => by
    have ih : (m.insert (key a) a).find? k = some v ∨ v ∈ l ∧ key v = k := of_find?_insertAll h
    rcases ih with h | ⟨hmem, hkey⟩
    · rcases of_find?_insert h with ⟨rfl, rfl⟩ | h
      · exact Or.inr ⟨List.mem_cons_self, rfl⟩
      · exact Or.inl h
    · exact Or.inr ⟨List.mem_cons_of_mem _ hmem, hkey⟩

/-- After insertions under new keys, each another, what was there and the elements are found. -/
theorem find?_insertAll_eq_some_iff [Std.TransOrd κ] [Std.LawfulEqOrd κ] {key : α → κ} {k : κ}
    {v : α} {l : List α} {m : SortedMap κ α} (hfresh : ∀ a ∈ l, m.find? (key a) = none)
    (hnodup : (l.map key).Nodup) :
    (m.insertAll key l).find? k = some v ↔ m.find? k = some v ∨ v ∈ l ∧ key v = k := by
  induction l generalizing m with
  | nil => simp [insertAll]
  | cons a l ih =>
    obtain ⟨ha, hl⟩ := List.forall_mem_cons.mp hfresh
    obtain ⟨hnotMem, hnodup⟩ := List.nodup_cons.mp hnodup
    have hfresh' : ∀ b ∈ l, (m.insert (key a) a).find? (key b) = none := by
      intro b hb
      have hne : key b ≠ key a := fun heq => hnotMem (heq ▸ List.mem_map_of_mem hb)
      rw [find?_insert_of_ne m a hne]
      exact hl b hb
    have ih : ((m.insert (key a) a).insertAll key l).find? k = some v ↔ _ := ih hfresh' hnodup
    have hcons : m.insertAll key (a :: l) = (m.insert (key a) a).insertAll key l := rfl
    rw [hcons, ih, find?_insert_eq_some_iff ha, List.mem_cons, or_assoc, or_and_right]
    refine or_congr_right (or_congr_left (and_congr_right ?_))
    rintro rfl
    rfl

theorem insertAll_append [Std.TransOrd κ] (m : SortedMap κ α) (key : α → κ) (l l' : List α) :
    m.insertAll key (l ++ l') = (m.insertAll key l).insertAll key l' :=
  List.foldl_append

/-- A map is that of any list of just what is found in it. -/
theorem insertAll_eq [Std.TransOrd κ] [Std.LawfulEqOrd κ] {m : SortedMap κ α} {key : α → κ}
    {l : List α} (hmem : ∀ a ∈ l, m.find? (key a) = some a)
    (hall : ∀ {k a}, m.find? k = some a → key a = k ∧ a ∈ l) : empty.insertAll key l = m := by
  refine eq_of_find?_eq fun k => ?_
  cases hfind : m.find? k with
  | none =>
    have hnotMem : k ∉ l.map key := by
      intro hk
      obtain ⟨a, ha, rfl⟩ := List.mem_map.mp hk
      rw [hmem a ha] at hfind
      cases hfind
    exact find?_insertAll_of_notMem hnotMem
  | some a =>
    obtain ⟨rfl, ha⟩ := hall hfind
    refine find?_insertAll_of_mem (fun b hb hkey => ?_) ha
    have hb := hmem b hb
    rw [hkey, hfind] at hb
    exact (Option.some.inj hb).symm

theorem mem_entries_iff [Std.TransOrd κ] [Std.LawfulEqOrd κ] {m : SortedMap κ α} {k : κ} {v : α} :
    (k, v) ∈ m.entries ↔ m.find? k = some v := (SortedList.find?_eq_some_iff m.ascending).symm

theorem find?_filter_eq_some_iff [Std.TransOrd κ] [Std.LawfulEqOrd κ] {m : SortedMap κ α}
    {keep : α → Bool} {k : κ} {v : α} :
    (m.filter keep).find? k = some v ↔ m.find? k = some v ∧ keep v = true := by
  rw [← mem_entries_iff, ← mem_entries_iff, filter, List.mem_filter]

theorem find?_filter_eq_none_iff [Std.TransOrd κ] [Std.LawfulEqOrd κ] {m : SortedMap κ α}
    {keep : α → Bool} {k : κ} :
    (m.filter keep).find? k = none ↔ ∀ v, m.find? k = some v → keep v = false := by
  rw [Option.eq_none_iff_forall_not_mem]
  refine forall_congr' fun v => ?_
  rw [Option.mem_def, find?_filter_eq_some_iff, not_and, Bool.not_eq_true]

theorem find?_mapValues_eq_some_iff [Std.TransOrd κ] [Std.LawfulEqOrd κ] {β : Type v} {f : α → β}
    {m : SortedMap κ α} {k : κ} {w : β} :
    (m.mapValues f).find? k = some w ↔ ∃ v, m.find? k = some v ∧ f v = w := by
  simp only [← mem_entries_iff, mapValues, List.mem_map, Prod.exists, Prod.mk.injEq]
  constructor
  · rintro ⟨_, v, hmem, rfl, hv⟩
    exact ⟨v, hmem, hv⟩
  · rintro ⟨v, hmem, hv⟩
    exact ⟨k, v, hmem, rfl, hv⟩

theorem values_mapValues {β : Type v} (f : α → β) (m : SortedMap κ α) :
    (m.mapValues f).values = m.values.map f := by
  unfold mapValues values
  rw [List.map_map, List.map_map]
  rfl

theorem mem_values_iff [Std.TransOrd κ] [Std.LawfulEqOrd κ] {m : SortedMap κ α} {v : α} :
    v ∈ m.values ↔ ∃ k, m.find? k = some v := by
  simp only [values, List.mem_map, Prod.exists, mem_entries_iff, exists_eq_right]

theorem mem_keys_iff [Std.TransOrd κ] [Std.LawfulEqOrd κ] {m : SortedMap κ α} {k : κ} :
    k ∈ m.keys ↔ ∃ v, m.find? k = some v := by
  simp only [keys, List.mem_map, Prod.exists, mem_entries_iff, exists_and_right, exists_eq_right]

theorem nodup_keys [Std.ReflOrd κ] (m : SortedMap κ α) : m.keys.Nodup :=
  (SortedList.ascending_iff_keys.mp m.ascending).nodup

theorem contains_iff {m : SortedMap κ α} {k : κ} :
    m.contains k = true ↔ ∃ v, m.find? k = some v := Option.isSome_iff_exists

theorem contains_eq_false_iff {m : SortedMap κ α} {k : κ} :
    m.contains k = false ↔ m.find? k = none :=
  Option.isSome_eq_false_iff.trans Option.isNone_iff_eq_none

end SortedMap

end Arbiter
