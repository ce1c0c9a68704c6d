/-
# Patterns are read back from their documents

The document of a pattern is the list of its elements, each with a document of its own
(`Pattern.ofJson_toJson`), so that patterns are told apart by their documents
(`Pattern.toJson_injective`).  Such a document is in canonical form, has no numbers and is flat, so
that it is read back from its text too (`Pattern.parse?_compact_toJson`).
-/
import Arbiter.Pattern
import Arbiter.Proofs.Json.Sorted
import Arbiter.Proofs.Json.Depth
import Arbiter.Proofs.Outcome

namespace Arbiter.Pattern

open Outcome

/-! ## 1. Documents -/

theorem elemsOfJson?_elemJson (e : PatternElem) : elemsOfJson? (elemJson e) = some [e] := by
  cases e with
  | char c => simp [elemJson, elemsOfJson?, Json.single]
  | wildcard => rfl

theorem isSorted_elemJson (e : PatternElem) : (elemJson e).IsSorted := by
  cases e with
  | char c => exact ⟨List.pairwise_singleton _ _, trivial, trivial⟩
  | wildcard => trivial

theorem isSorted_toJson (p : Pattern) : p.toJson.IsSorted := by
  refine Json.isSortedItems_iff.mpr fun j hj => ?_
  obtain ⟨e, -, rfl⟩ := List.mem_map.mp hj
  exact isSorted_elemJson e

/-- A pattern is read back from its document. -/
theorem ofJson_toJson (p : Pattern) : ofJson p.toJson = .ok p := by
  have helems : (p.elems.map elemJson).mapM elemsOfJson? = some (p.elems.map fun e => [e]) :=
    mapM_map_eq_map fun e _ => elemsOfJson?_elemJson e
  have hflat : ∀ es : List PatternElem, (es.map fun e => [e]).flatten = es := by
    intro es
    induction es with
    | nil => rfl
    | cons e es ih => simp [ih]
  simp only [toJson, ofJson, helems, wellFormed, ok_bind, hflat]
  rfl

theorem toJson_injective {p p' : Pattern} (h : p.toJson = p'.toJson) : p = p' := by
  have hread := ofJson_toJson p
  rw [h, ofJson_toJson] at hread
  cases hread
  rfl

/-! ## 2. Texts of documents -/

theorem isExact_toJson (p : Pattern) : p.toJson.IsExact := by
  refine Json.isExactItems_iff.mpr fun j hj => ?_
  obtain ⟨e, -, rfl⟩ := List.mem_map.mp hj
  cases e with
  | char c => exact ⟨trivial, trivial⟩
  | wildcard => trivial

/-- The document of a pattern is an array of strings and objects of one string. -/
theorem depth_toJson_le (p : Pattern) : p.toJson.depth ≤ 2 := by
  refine Nat.succ_le_succ (Json.depthItems_le_iff.mpr fun j hj => ?_)
  obtain ⟨e, -, rfl⟩ := List.mem_map.mp hj
  cases e with
  | char c => exact Nat.le_refl 1
  | wildcard => exact Nat.zero_le 1

/-- The document of a pattern is read back from its text. -/
theorem parse?_compact_toJson (p : Pattern) : Json.parse? p.toJson.compact = some p.toJson := by
  have hdepth : p.toJson.depth ≤ Draft.maxDepth := Nat.le_trans p.depth_toJson_le (by decide)
  rw [Json.parse?, Json.parseRaw?_compact p.isExact_toJson hdepth, Option.map_some,
    p.isSorted_toJson.sorted_eq]

end Arbiter.Pattern
