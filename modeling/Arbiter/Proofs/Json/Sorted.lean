/-
# Documents in canonical form

The canonical form of a document has the fields of every object in the order of their names, each
once (`Json.IsSorted`).  It is what `Json.sorted` gives (`isSorted_sorted`), and a document that has
it already is left as it is (`IsSorted.sorted_eq`).
-/
import Arbiter.Json.Basic

namespace Arbiter.Json

mutual

/-- Whether the fields of every object ascend by name. -/
def IsSorted : Json → Prop
  | .array items => IsSortedItems items
  | .object fields => SortedList.Ascending fields ∧ IsSortedFields fields
  | _ => True
termination_by structural j => j

/-- `IsSorted` for the items of an array. -/
def IsSortedItems : List Json → Prop
  | [] => True
  | j :: r => j.IsSorted ∧ IsSortedItems r
termination_by structural l => l

/-- `IsSorted` for the values of the fields of an object. -/
def IsSortedFields : List (String × Json) → Prop
  | [] => True
  | (_, j) :: r => j.IsSorted ∧ IsSortedFields r
termination_by structural l => l

end

theorem isSortedItems_iff {items : List Json} : IsSortedItems items ↔ ∀ j ∈ items, j.IsSorted := by
  induction items with
  | nil => exact iff_of_true trivial nofun
  | cons j items ih => rw [IsSortedItems, ih, List.forall_mem_cons]

theorem isSortedFields_iff {fields : List (String × Json)} :
    IsSortedFields fields ↔ ∀ f ∈ fields, f.2.IsSorted := by
  induction fields with
  | nil => exact iff_of_true trivial nofun
  | cons f fields ih => rw [IsSortedFields, ih, List.forall_mem_cons]

theorem sortedItems_eq_map (items : List Json) : sortedItems items = items.map sorted := by
  induction items with
  | nil => rfl
  | cons j items ih => rw [sortedItems, ih, List.map_cons]

theorem sortedFields_eq_map (fields : List (String × Json)) :
    sortedFields fields = fields.map fun f => (f.1, f.2.sorted) := by
  induction fields with
  | nil => rfl
  | cons f fields ih => rw [sortedFields, ih, List.map_cons]

/-! ## 1. The canonical form has the form -/

mutual

theorem isSorted_sorted : ∀ j : Json, j.sorted.IsSorted
  | .null | .bool _ | .number _ | .string _ => trivial
  | .array items => isSortedItems_sortedItems items
  | .object fields =>
    ⟨SortedList.ascending_ofPairs _, isSortedFields_iff.mpr fun f hf =>
      isSortedFields_iff.mp (isSortedFields_sortedFields fields) f (SortedList.mem_of_mem_ofPairs hf)⟩

theorem isSortedItems_sortedItems : ∀ items : List Json, IsSortedItems (sortedItems items)
  | [] => trivial
  | j :: items => ⟨isSorted_sorted j, isSortedItems_sortedItems items⟩

theorem isSortedFields_sortedFields :
    ∀ fields : List (String × Json), IsSortedFields (sortedFields fields)
  | [] => trivial
  | (_, j) :: fields => ⟨isSorted_sorted j, isSortedFields_sortedFields fields⟩

end

/-! ## 2. What has the form is left as it is -/

mutual

theorem IsSorted.sorted_eq : ∀ {j : Json}, j.IsSorted → j.sorted = j
  | .null, _ | .bool _, _ | .number _, _ | .string _, _ => rfl
  | .array _, h => congrArg Json.array (sortedItems_eq h)
  | .object fields, h => by
    rw [sorted, sortedFields_eq h.2, SortedList.ofPairs_of_ascending h.1]

theorem sortedItems_eq : ∀ {items : List Json}, IsSortedItems items → sortedItems items = items
  | [], _ => rfl
  | j :: items, h => by rw [sortedItems, h.1.sorted_eq, sortedItems_eq h.2]

theorem sortedFields_eq : ∀ {fields : List (String × Json)},
    IsSortedFields fields → sortedFields fields = fields
  | [], _ => rfl
  | (_, j) :: fields, h => by rw [sortedFields, h.1.sorted_eq, sortedFields_eq h.2]

end

/-- An object whose fields ascend keeps their order. -/
theorem sorted_object {fields : List (String × Json)} (h : SortedList.Ascending fields) :
    (Json.object fields).sorted = .object (fields.map fun f => (f.1, f.2.sorted)) := by
  have hascending : SortedList.Ascending (fields.map fun f => (f.1, f.2.sorted)) :=
    List.Pairwise.map _ (fun _ _ hlt => hlt) h
  rw [sorted, sortedFields_eq_map, SortedList.ofPairs_of_ascending hascending]

/-! ## 3. Fields -/

theorem field?_eq_of_perm {name : String} {fields fields' : List (String × Json)}
    (h : fields.Perm fields') : field? name fields = field? name fields' := by
  have hfilter := h.filter fun f => f.1 == name
  unfold field?
  generalize fields.filter (fun f => f.1 == name) = l at hfilter
  generalize fields'.filter (fun f => f.1 == name) = l' at hfilter
  match l, l', hfilter with
  | [], _, hfilter => rw [List.nil_perm.mp hfilter]
  | [f], _, hfilter => rw [List.singleton_perm.mp hfilter]
  | _ :: _ :: _, l', hfilter =>
    have hlen := hfilter.length_eq
    match l', hlen with
    | _ :: _ :: _, _ => rfl

theorem field?_sortedFields (name : String) (fields : List (String × Json)) :
    field? name (sortedFields fields) = (field? name fields).map fun v => v.map sorted := by
  have hfilter : (sortedFields fields).filter (fun f => f.1 == name)
      = (fields.filter fun f => f.1 == name).map fun f => (f.1, f.2.sorted) := by
    rw [sortedFields_eq_map, List.filter_map]
    rfl
  unfold field?
  rw [hfilter]
  generalize fields.filter (fun f => f.1 == name) = l
  rcases l with _ | ⟨f, _ | ⟨f', l⟩⟩ <;> rfl

/-- The fields of a document of fixed shape are found again in its canonical form. -/
theorem fields?_sorted {fields : List (String × Json)} (h : (fields.map Prod.fst).Nodup)
    (names : List String) : (Json.object fields).sorted.fields? names
      = ((Json.object fields).fields? names).map fun vs => vs.map fun v => v.map sorted := by
  have hnames : ((sortedFields fields).map Prod.fst).Nodup := by
    rw [sortedFields_eq_map, List.map_map]
    exact h
  have hfield (name : String) : field? name (SortedList.ofPairs (sortedFields fields))
      = (field? name fields).map fun v => v.map sorted := by
    rw [field?_eq_of_perm (SortedList.ofPairs_perm hnames), field?_sortedFields]
  simp only [sorted, fields?, hfield]
  induction names with
  | nil => rfl
  | cons name names ih =>
    rw [List.mapM_cons, List.mapM_cons, ih]
    cases field? name fields with
    | none => rfl
    | some v =>
      cases names.mapM fun name => field? name fields with
      | none => rfl
      | some vs => rfl

end Arbiter.Json
