/-
# Matching of glob patterns

A pattern matches a text that can be cut into one piece for each element, a character for itself and
anything for a wildcard.  The text is compared from left to right.  A wildcard is given the empty
piece at first; when something behind it does not fit, the last wildcard, and only that one, takes
one character more, and the comparison goes on behind it.

What a turn of the comparison can do is said once (`Step`).  The positions it looks at stay within
the pattern and the text (`Cursor.InRange`), and with every turn there is less before it
(`Cursor.InRange.rank_lt`), so the comparison ends.
-/
import Arbiter.Pattern

namespace Arbiter.Pattern

/-- Where the comparison of a pattern with a text stands. -/
structure Cursor where
  /-- The element that is compared next. -/
  elem : Nat := 0
  /-- The character that is compared next. -/
  char : Nat := 0
  /-- The last wildcard that was passed, and the first character behind the piece it is given. -/
  star : Option (Nat × Nat) := none
  deriving DecidableEq, Repr

/-- What comes out of a turn of the comparison. -/
inductive Turn where
  /-- The comparison goes on. -/
  | goOn (c : Cursor)
  /-- The comparison is decided. -/
  | answer (b : Bool)
  /-- A position is looked at that is not there. -/
  | outOfRange
  deriving DecidableEq, Repr

/-- When something does not fit, the last wildcard is given one character more, if there is a
wildcard. -/
def retry : Option (Nat × Nat) → Turn
  | some (star, tried) => .goOn ⟨star + 1, tried + 1, some (star, tried + 1)⟩
  | none => .answer false

section

variable (es : List PatternElem) (cs : List Char)

/-! ## 1. One turn -/

/-- One turn of the comparison.  Behind the end of the text only wildcards may be left. -/
def turn (c : Cursor) : Turn :=
  if c.char < cs.length then
    match es[c.elem]? with
    | some .wildcard => .goOn ⟨c.elem + 1, c.char, some (c.elem, c.char)⟩
    | some (.char d) =>
      match cs[c.char]? with
      | some x => if d = x then .goOn ⟨c.elem + 1, c.char + 1, c.star⟩ else retry c.star
      | none => .outOfRange
    | none => retry c.star
  else if c.elem ≤ es.length then .answer ((es.drop c.elem).all (· == .wildcard))
  else .outOfRange

/-- The positions are not behind the ends, and those of the last wildcard have been passed. -/
structure Cursor.InRange (c : Cursor) : Prop where
  elem_le : c.elem ≤ es.length
  char_le : c.char ≤ cs.length
  star_lt : ∀ star tried, c.star = some (star, tried) → star < c.elem ∧ tried ≤ c.char

/-- What a turn can do at positions that are in range. -/
inductive Step (c : Cursor) : Turn → Prop
  /-- A wildcard is passed. -/
  | wildcard (elem : es[c.elem]? = some .wildcard) (char : c.char < cs.length) :
    Step c (.goOn ⟨c.elem + 1, c.char, some (c.elem, c.char)⟩)
  /-- A character fits. -/
  | char {x : Char} (elem : es[c.elem]? = some (.char x)) (char : cs[c.char]? = some x) :
    Step c (.goOn ⟨c.elem + 1, c.char + 1, c.star⟩)
  /-- A character does not fit, and the last wildcard takes one more. -/
  | retry {x : Char} {star tried : Nat} (char : cs[c.char]? = some x)
      (wildcard : es[c.elem]? ≠ some .wildcard) (elem : es[c.elem]? ≠ some (.char x))
      (last : c.star = some (star, tried)) :
    Step c (.goOn ⟨star + 1, tried + 1, some (star, tried + 1)⟩)
  /-- A character does not fit, and there is no wildcard. -/
  | giveUp {x : Char} (char : cs[c.char]? = some x) (wildcard : es[c.elem]? ≠ some .wildcard)
      (elem : es[c.elem]? ≠ some (.char x)) (last : c.star = none) : Step c (.answer false)
  /-- The text is at its end. -/
  | ended (char : c.char = cs.length) :
    Step c (.answer ((es.drop c.elem).all (· == .wildcard)))

variable {es cs} {c c' : Cursor}

theorem step_retry {x : Char} (char : cs[c.char]? = some x)
    (wildcard : es[c.elem]? ≠ some .wildcard) (elem : es[c.elem]? ≠ some (.char x)) :
    Step es cs c (Pattern.retry c.star) := by
  cases last : c.star with
  | none => exact .giveUp char wildcard elem last
  | some star => exact .retry char wildcard elem last

theorem step_turn (h : c.InRange es cs) : Step es cs c (turn es cs c) := by
  unfold turn
  split
  · rename_i hchar
    obtain ⟨x, hx⟩ : ∃ x, cs[c.char]? = some x := ⟨_, List.getElem?_eq_getElem hchar⟩
    cases helem : es[c.elem]? with
    | none => exact step_retry hx (by simp [helem]) (by simp [helem])
    | some e =>
      cases e with
      | wildcard => exact .wildcard helem hchar
      | char d =>
        simp only [hx]
        split
        · rename_i hd
          exact .char (hd ▸ helem) hx
        · rename_i hd
          exact step_retry hx (by simp [helem]) (by simp [helem, hd])
  · rename_i hchar
    rw [if_pos h.elem_le]
    exact .ended (Nat.le_antisymm h.char_le (Nat.le_of_not_lt hchar))

/-! ## 2. Positions stay in range -/

theorem inRange_start : Cursor.InRange es cs {} := ⟨Nat.zero_le _, Nat.zero_le _, nofun⟩

theorem Cursor.InRange.of_step (h : c.InRange es cs) (hstep : Step es cs c (.goOn c')) :
    c'.InRange es cs := by
  cases hstep with
  | wildcard elem char =>
    have helem := (List.getElem?_eq_some_iff.mp elem).1
    refine ⟨helem, h.char_le, ?_⟩
    rintro _ _ ⟨⟩
    exact ⟨Nat.lt_succ_self _, Nat.le_refl _⟩
  | char elem char =>
    have helem := (List.getElem?_eq_some_iff.mp elem).1
    have hchar := (List.getElem?_eq_some_iff.mp char).1
    refine ⟨helem, hchar, fun star tried last => ?_⟩
    obtain ⟨hstar, htried⟩ := h.star_lt star tried last
    exact ⟨Nat.lt_succ_of_lt hstar, Nat.le_succ_of_le htried⟩
  | retry char _ _ last =>
    have hchar := (List.getElem?_eq_some_iff.mp char).1
    obtain ⟨hstar, htried⟩ := h.star_lt _ _ last
    refine ⟨Nat.le_trans hstar h.elem_le, Nat.lt_of_le_of_lt htried hchar, ?_⟩
    rintro _ _ ⟨⟩
    exact ⟨Nat.lt_succ_self _, Nat.le_refl _⟩

theorem Cursor.InRange.turn_ne_outOfRange (h : c.InRange es cs) : turn es cs c ≠ .outOfRange := by
  have hstep := step_turn h
  intro hturn
  rw [hturn] at hstep
  cases hstep

/-! ## 3. The end -/

/-- Of two numbers of two digits the one with the smaller first digit is smaller, and with equal
first digits the one with the smaller second digit. -/
theorem mul_add_lt {base a b a' b' : Nat} (hb : b' < base) (h : a' < a ∨ a' = a ∧ b' < b) :
    a' * base + b' < a * base + b := by
  rcases h with h | ⟨rfl, h⟩
  · calc a' * base + b' < (a' + 1) * base := by rw [Nat.succ_mul]; omega
      _ ≤ a * base := Nat.mul_le_mul_right base h
      _ ≤ a * base + b := Nat.le_add_right _ _
  · omega

/-- What the comparison has before it, as a number of three digits: the elements that may still be
the last wildcard, the characters that it is not yet given, and those that are not yet compared.
The last digit goes up when characters are tried again, but then the second one goes down. -/
def Cursor.rank (es : List PatternElem) (cs : List Char) (c : Cursor) : Nat :=
  let (passed, tried) := match c.star with
    | some (star, tried) => (star + 1, tried)
    | none => (0, 0)
  ((es.length - passed) * (cs.length + 1) + (cs.length - tried)) * (cs.length + 1)
    + (cs.length - c.char)

theorem Cursor.InRange.rank_lt (h : c.InRange es cs) (hstep : Step es cs c (.goOn c')) :
    c'.rank es cs < c.rank es cs := by
  have hdigit : ∀ k, cs.length - k < cs.length + 1 := fun k => by omega
  unfold rank
  cases hstep with
  | wildcard elem char =>
    have helem := (List.getElem?_eq_some_iff.mp elem).1
    refine mul_add_lt (hdigit _) (Or.inl (mul_add_lt (hdigit _) (Or.inl ?_)))
    cases last : c.star with
    | none =>
      simp only
      omega
    | some _ =>
      obtain ⟨hstar, -⟩ := h.star_lt _ _ last
      simp only
      omega
  | char _ char =>
    have hchar := (List.getElem?_eq_some_iff.mp char).1
    have hless : cs.length - (c.char + 1) < cs.length - c.char := by omega
    exact mul_add_lt (hdigit _) (Or.inr ⟨rfl, hless⟩)
  | @retry _ _ tried char _ _ last =>
    have hchar := (List.getElem?_eq_some_iff.mp char).1
    obtain ⟨-, htried⟩ := h.star_lt _ _ last
    have hless : cs.length - (tried + 1) < cs.length - tried := by omega
    simp only [last]
    exact mul_add_lt (hdigit _) (Or.inl (mul_add_lt (hdigit _) (Or.inr ⟨rfl, hless⟩)))

end

/-- Compares until there is an answer. -/
def run (es : List PatternElem) (cs : List Char) (c : Cursor) (h : c.InRange es cs) : Bool :=
  match hturn : turn es cs c with
  | .goOn c' => run es cs c' (h.of_step (hturn ▸ step_turn h))
  | .answer b => b
  | .outOfRange => absurd hturn h.turn_ne_outOfRange
termination_by c.rank es cs
decreasing_by exact h.rank_lt (hturn ▸ step_turn h)

section

variable {es : List PatternElem} {cs : List Char} {c c' : Cursor}

theorem run_goOn (h : c.InRange es cs) (hturn : turn es cs c = .goOn c') :
    run es cs c h = run es cs c' (h.of_step (hturn ▸ step_turn h)) := by
  rw [run]
  split
  · rename_i hturn'
    cases hturn.symm.trans hturn'
    rfl
  · rename_i hturn'
    cases hturn.symm.trans hturn'
  · rename_i hturn'
    cases hturn.symm.trans hturn'

theorem run_answer {b : Bool} (h : c.InRange es cs) (hturn : turn es cs c = .answer b) :
    run es cs c h = b := by
  rw [run]
  split
  · rename_i hturn'
    cases hturn.symm.trans hturn'
  · rename_i hturn'
    cases hturn.symm.trans hturn'
    rfl
  · rename_i hturn'
    cases hturn.symm.trans hturn'

end

/-- Whether the pattern matches the whole text. -/
def isMatch (p : Pattern) (text : String) : Bool := run p.elems text.toList {} inRange_start

end Arbiter.Pattern
