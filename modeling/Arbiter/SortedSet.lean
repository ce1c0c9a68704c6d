/-
# Sets in ascending order

A finite set as its elements in strictly ascending order, so that equal sets have equal lists.
-/
import Arbiter.SortedList

namespace Arbiter

universe u

/-- A finite set: its elements, in strictly ascending order. -/
structure SortedSet (κ : Type u) [Ord κ] where
  /-- The elements, the least first. -/
  toList : List κ
  /-- The elements ascend strictly. -/
  strict : SortedList.Strict toList

namespace SortedSet

variable {κ : Type u} [Ord κ]

/-- Two sets are equal when their lists are. -/
@[ext] theorem ext : ∀ {s t : SortedSet κ}, s.toList = t.toList → s = t
  | ⟨_, _⟩, ⟨_, _⟩, rfl => rfl

instance [DecidableEq κ] : DecidableEq (SortedSet κ) := fun s t =>
  decidable_of_iff (s.toList = t.toList) ⟨ext, fun h => h ▸ rfl⟩

/-- The set with no element. -/
def empty : SortedSet κ := ⟨[], List.Pairwise.nil⟩

instance : Inhabited (SortedSet κ) := ⟨empty⟩

/-- The set of just `x`. -/
def singleton (x : κ) : SortedSet κ := ⟨[x], List.pairwise_singleton _ x⟩

/-- Whether `x` is an element. -/
def contains (s : SortedSet κ) (x : κ) : Bool := SortedList.has x s.toList

/-- Whether there is no element. -/
def isEmpty (s : SortedSet κ) : Bool := s.toList.isEmpty

instance : Membership κ (SortedSet κ) := ⟨fun s x => x ∈ s.toList⟩

theorem mem_def {s : SortedSet κ} {x : κ} : x ∈ s ↔ x ∈ s.toList := Iff.rfl

theorem contains_iff [Std.LawfulEqOrd κ] {s : SortedSet κ} {x : κ} :
    s.contains x = true ↔ x ∈ s := SortedList.has_iff

section

variable [Std.TransOrd κ] [Std.LawfulEqOrd κ]

/-- The set with `x` in it. -/
def insert (s : SortedSet κ) (x : κ) : SortedSet κ :=
  ⟨SortedList.add x s.toList, SortedList.strict_add x s.strict⟩

/-- The set of the elements of a list. -/
def ofList (l : List κ) : SortedSet κ := ⟨SortedList.ofElems l, SortedList.strict_ofElems l⟩

/-- The elements of either set. -/
def union (s t : SortedSet κ) : SortedSet κ := t.toList.foldl insert s

theorem mem_insert {s : SortedSet κ} {x y : κ} : y ∈ s.insert x ↔ y = x ∨ y ∈ s :=
  SortedList.mem_add

theorem mem_ofList {l : List κ} {y : κ} : y ∈ ofList l ↔ y ∈ l := SortedList.mem_ofElems

theorem mem_foldl_insert {y : κ} : ∀ {l : List κ} {s : SortedSet κ},
    y ∈ l.foldl insert s ↔ y ∈ l ∨ y ∈ s
  | [], s => by simp
  | x :: l, s => by
    simp only [List.foldl_cons, mem_foldl_insert (l := l), mem_insert, List.mem_cons]
    exact ⟨fun h => by rcases h with h | h | h <;> simp [h],
      fun h => by rcases h with (h | h) | h <;> simp [h]⟩

theorem mem_union {s t : SortedSet κ} {y : κ} : y ∈ s.union t ↔ y ∈ t ∨ y ∈ s :=
  mem_foldl_insert

/-- Two sets are equal when their elements are. -/
theorem eq_of_mem_iff {s t : SortedSet κ} (h : ∀ x, x ∈ s ↔ x ∈ t) : s = t := by
  have hperm : s.toList.Perm t.toList :=
    (List.perm_ext_iff_of_nodup s.strict.nodup t.strict.nodup).mpr h
  refine ext (hperm.eq_of_pairwise (fun x y _ _ hxy hyx => ?_) s.strict t.strict)
  rw [Std.OrientedCmp.gt_of_lt hxy] at hyx
  cases hyx

end

end SortedSet

end Arbiter
