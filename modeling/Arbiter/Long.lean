/-
# 64-bit integers with exact arithmetic

Integers are the signed 64-bit words.  An operation either yields the exact result or nothing, so
it is computed on the integers and then brought back into the range.
-/

namespace Arbiter.Long

/-- The word that denotes `n`, if `n` is in the range. -/
def ofInt? (n : Int) : Option Int64 :=
  if Int64.minValue.toInt ≤ n ∧ n ≤ Int64.maxValue.toInt then some (Int64.ofInt n) else none

/-- The exact sum. -/
def add? (a b : Int64) : Option Int64 := ofInt? (a.toInt + b.toInt)

/-- The exact difference. -/
def sub? (a b : Int64) : Option Int64 := ofInt? (a.toInt - b.toInt)

/-- The exact product. -/
def mul? (a b : Int64) : Option Int64 := ofInt? (a.toInt * b.toInt)

/-- The exact negation. -/
def neg? (a : Int64) : Option Int64 := ofInt? (-a.toInt)

/-- A word denotes `n` exactly when it is the one that `n` is brought to. -/
theorem ofInt?_eq_some_iff {n : Int} {a : Int64} : ofInt? n = some a ↔ a.toInt = n := by
  constructor
  · intro h
    unfold ofInt? at h
    split at h
    · rename_i hr
      cases h
      exact Int64.toInt_ofInt_of_le hr.1 (by
        have := hr.2
        simp only [Int64.toInt_maxValue] at this
        omega)
    · cases h
  · rintro rfl
    rw [ofInt?, if_pos ⟨Int64.minValue_le_toInt a, Int64.toInt_le a⟩, Int64.ofInt_toInt]

/-- What is in the range is denoted by a word. -/
theorem exists_toInt_eq_iff {n : Int} :
    (∃ a : Int64, a.toInt = n) ↔ Int64.minValue.toInt ≤ n ∧ n ≤ Int64.maxValue.toInt := by
  constructor
  · rintro ⟨a, rfl⟩
    exact ⟨Int64.minValue_le_toInt a, Int64.toInt_le a⟩
  · intro h
    exact ⟨Int64.ofInt n, ofInt?_eq_some_iff.mp (if_pos h)⟩

end Arbiter.Long
