/-
# Blank characters

The characters with the Unicode property `White_Space`, and the trimming of texts that goes by
them.  Blanks inside JSON documents are fewer (`Json.isBlank`).
-/

namespace Arbiter.Text

/-- The code point ranges of the property `White_Space`. -/
def blankRanges : List (Nat × Nat) :=
  [(0x9, 0xd), (0x20, 0x20), (0x85, 0x85), (0xa0, 0xa0), (0x1680, 0x1680), (0x2000, 0x200a),
    (0x2028, 0x2029), (0x202f, 0x202f), (0x205f, 0x205f), (0x3000, 0x3000)]

/-- Whether a character separates words. -/
def isBlank (c : Char) : Bool :=
  blankRanges.any fun (lo, hi) => lo ≤ c.toNat && c.toNat ≤ hi

/-- The characters without the blanks at both ends. -/
def trimBlanks (cs : List Char) : List Char :=
  ((cs.dropWhile isBlank).reverse.dropWhile isBlank).reverse

/-- A text without the blanks at both ends. -/
def trim (s : String) : String := String.ofList (trimBlanks s.toList)

/-- Blanks in front are left out. -/
theorem dropWhile_isBlank_append {before : List Char} (hbefore : ∀ c ∈ before, isBlank c = true)
    {c : Char} (hc : isBlank c = false) (r : List Char) :
    (before ++ c :: r).dropWhile isBlank = c :: r := by
  rw [List.dropWhile_append_of_pos hbefore, List.dropWhile_cons_of_neg (Bool.not_eq_true _ ▸ hc)]

/-- Blanks around characters that neither start nor end in one are left out. -/
theorem trimBlanks_append {before cs after : List Char} (hbefore : ∀ c ∈ before, isBlank c = true)
    (hafter : ∀ c ∈ after, isBlank c = true) (hne : cs ≠ [])
    (hhead : isBlank (cs.head hne) = false) (hlast : isBlank (cs.getLast hne) = false) :
    trimBlanks (before ++ cs ++ after) = cs := by
  have hstart : (before ++ cs ++ after).dropWhile isBlank = cs ++ after := by
    rw [List.append_assoc, ← List.cons_head_tail hne, List.cons_append]
    exact dropWhile_isBlank_append hbefore hhead _
  have hend : (after.reverse ++ cs.reverse).dropWhile isBlank = cs.reverse := by
    rw [← List.dropLast_concat_getLast hne, List.reverse_concat]
    exact dropWhile_isBlank_append (fun c hc => hafter c (List.mem_reverse.mp hc)) hlast _
  rw [trimBlanks, hstart, List.reverse_append, hend, List.reverse_reverse]

/-- Every character that the core library calls whitespace is blank. -/
theorem isBlank_of_isWhitespace {c : Char} (h : c.isWhitespace = true) : isBlank c = true := by
  simp only [Char.isWhitespace, Bool.or_eq_true, decide_eq_true_eq] at h
  rcases h with ((h | h) | h) | h <;> subst h <;> decide

end Arbiter.Text
