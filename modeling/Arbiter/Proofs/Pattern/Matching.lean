/-
# The comparison of a pattern with a text is exact

What a pattern matches is said without the comparison: the text is cut into pieces, one for each
element, where a character gets itself and a wildcard gets anything (`Splits`).

The comparison remembers only the last wildcard, and no match is lost by that.  Between the last
wildcard and the position there are only characters, and they have been found in the text.  A match
that gives an earlier wildcard more has these characters somewhere further behind, so that what
follows them is matched by an end of what is left of the text; and at the moment when a wildcard is
passed, it may as well take what lies between (`Cursor.Exact.exists_suffix`).  So at each turn there
is a match when what is left is matched, or when the last wildcard has a match with more
(`Cursor.Exact`).
-/
import Mathlib.Data.List.Forall2
import Mathlib.Logic.Function.Iterate
import Mathlib.Tactic.Ring
import Arbiter.Pattern.Matching

namespace Arbiter

/-- What an element of a pattern may be given. -/
def PatternElem.Fits : PatternElem → List Char → Prop
  | .char c, piece => piece = [c]
  | .wildcard, _ => True

namespace Pattern

/-! ## 1. Cutting a text into pieces -/

/-- The text is cut into consecutive pieces, one for each element. -/
def Splits (es : List PatternElem) (cs : List Char) : Prop :=
  ∃ pieces, List.Forall₂ PatternElem.Fits es pieces ∧ pieces.flatten = cs

theorem splits_nil {cs : List Char} : Splits [] cs ↔ cs = [] := by
  simp [Splits, eq_comm]

theorem splits_cons {e : PatternElem} {es : List PatternElem} {cs : List Char} :
    Splits (e :: es) cs ↔ ∃ piece rest, e.Fits piece ∧ Splits es rest ∧ piece ++ rest = cs := by
  constructor
  · rintro ⟨_, hfits, rfl⟩
    obtain ⟨piece, pieces, hpiece, hpieces, rfl⟩ := List.forall₂_cons_left_iff.mp hfits
    exact ⟨piece, pieces.flatten, hpiece, ⟨pieces, hpieces, rfl⟩, rfl⟩
  · rintro ⟨piece, _, hpiece, ⟨pieces, hpieces, rfl⟩, rfl⟩
    exact ⟨piece :: pieces, .cons hpiece hpieces, rfl⟩

theorem splits_char {d : Char} {es : List PatternElem} {cs : List Char} :
    Splits (.char d :: es) cs ↔ ∃ rest, Splits es rest ∧ d :: rest = cs := by
  simp [splits_cons, PatternElem.Fits]

theorem splits_wildcard {es : List PatternElem} {cs : List Char} :
    Splits (.wildcard :: es) cs ↔ ∃ rest, rest <:+ cs ∧ Splits es rest := by
  rw [splits_cons]
  constructor
  · rintro ⟨piece, rest, -, hrest, rfl⟩
    exact ⟨rest, List.suffix_append piece rest, hrest⟩
  · rintro ⟨rest, ⟨piece, rfl⟩, hrest⟩
    exact ⟨piece, rest, trivial, hrest, rfl⟩

/-- A wildcard takes whatever stands in front of what it matches. -/
theorem Splits.of_suffix {es : List PatternElem} {rest cs : List Char}
    (h : Splits (.wildcard :: es) rest) (hsuffix : rest <:+ cs) : Splits (.wildcard :: es) cs := by
  obtain ⟨rest', hsuffix', hrest'⟩ := splits_wildcard.mp h
  exact splits_wildcard.mpr ⟨rest', hsuffix'.trans hsuffix, hrest'⟩

/-- A wildcard gets nothing, or it gets the first character and may get more. -/
theorem splits_wildcard_tail {es : List PatternElem} {cs : List Char} :
    Splits (.wildcard :: es) cs ↔ Splits es cs ∨ Splits (.wildcard :: es) cs.tail := by
  constructor
  · rw [splits_wildcard]
    rintro ⟨rest, hsuffix, hrest⟩
    cases cs with
    | nil =>
      rw [List.suffix_nil.mp hsuffix] at hrest
      exact Or.inl hrest
    | cons x cs =>
      rcases List.suffix_cons_iff.mp hsuffix with rfl | hsuffix
      · exact Or.inl hrest
      · exact Or.inr (splits_wildcard.mpr ⟨rest, hsuffix, hrest⟩)
  · rintro (hrest | hrest)
    · exact splits_wildcard.mpr ⟨cs, List.suffix_refl cs, hrest⟩
    · exact hrest.of_suffix (List.tail_suffix cs)

/-- A row of characters gets itself. -/
theorem splits_chars {es : List PatternElem} {ds cs : List Char} :
    Splits (ds.map .char ++ es) cs ↔ ∃ rest, Splits es rest ∧ ds ++ rest = cs := by
  induction ds generalizing cs with
  | nil => simp
  | cons d ds ih =>
    simp only [List.map_cons, List.cons_append, splits_char, ih]
    constructor
    · rintro ⟨_, ⟨rest, hrest, rfl⟩, rfl⟩
      exact ⟨rest, hrest, rfl⟩
    · rintro ⟨rest, hrest, rfl⟩
      exact ⟨_, ⟨rest, hrest, rfl⟩, rfl⟩

/-- The empty text is matched by wildcards only. -/
theorem splits_end {es : List PatternElem} :
    Splits es [] ↔ es.all (· == .wildcard) = true := by
  induction es with
  | nil => simp [splits_nil]
  | cons e es ih =>
    cases e with
    | char d => simp [splits_char]
    | wildcard => simp [splits_wildcard, ih]

/-! ## 2. One turn -/

section

variable (es : List PatternElem) (cs : List Char)

/-- What the comparison has found out when it stands at a position. -/
structure Cursor.Exact (c : Cursor) : Prop where
  /-- Behind the last wildcard there are characters, and they have been found. -/
  since_star : ∀ star tried, c.star = some (star, tried) → ∃ ds : List Char,
    es.drop star = .wildcard :: (ds.map .char ++ es.drop c.elem) ∧
      cs.drop tried = ds ++ cs.drop c.char
  /-- There is a match when what is left is matched, or when the last wildcard can be given more. -/
  splits_iff : Splits es cs ↔ Splits (es.drop c.elem) (cs.drop c.char) ∨
    ∃ star tried, c.star = some (star, tried) ∧ Splits (es.drop star) (cs.drop (tried + 1))

variable {es cs} {c c' : Cursor}

theorem exact_start : Cursor.Exact es cs {} := ⟨nofun, by simp⟩

theorem drop_of_getElem? {α : Type} {l : List α} {i : Nat} {a : α} (h : l[i]? = some a) :
    l.drop i = a :: l.drop (i + 1) := by
  obtain ⟨hi, rfl⟩ := List.getElem?_eq_some_iff.mp h
  exact List.drop_eq_getElem_cons hi

/-- What is left is not matched where the next character does not fit the next element. -/
theorem not_splits_drop {x : Char} (char : cs[c.char]? = some x)
    (wildcard : es[c.elem]? ≠ some .wildcard) (elem : es[c.elem]? ≠ some (.char x)) :
    ¬ Splits (es.drop c.elem) (cs.drop c.char) := by
  rw [drop_of_getElem? char]
  cases helem : es[c.elem]? with
  | none =>
    rw [List.drop_eq_nil_of_le (List.getElem?_eq_none_iff.mp helem), splits_nil]
    exact List.cons_ne_nil _ _
  | some e =>
    rw [drop_of_getElem? helem]
    cases e with
    | wildcard => exact absurd helem wildcard
    | char d =>
      rw [splits_char]
      rintro ⟨_, -, ⟨⟩⟩
      exact elem helem

/-- **Earlier choices lose nothing**: when the last wildcard has a match with more, an end of the
text that is left is matched by the elements that are left. -/
theorem Cursor.Exact.exists_suffix (h : c.Exact es cs) {star tried : Nat}
    (last : c.star = some (star, tried)) (hmore : Splits (es.drop star) (cs.drop (tried + 1))) :
    ∃ rest, rest <:+ cs.drop c.char ∧ Splits (es.drop c.elem) rest := by
  obtain ⟨ds, helems, hchars⟩ := h.since_star star tried last
  rw [helems, splits_wildcard] at hmore
  obtain ⟨_, hsuffix, hmore⟩ := hmore
  obtain ⟨rest, hrest, rfl⟩ := splits_chars.mp hmore
  refine ⟨rest, ?_, hrest⟩
  -- both are ends of the text behind the first try, and the end that is matched is not the longer
  have hlonger : ds ++ rest <:+ ds ++ cs.drop c.char := by
    rw [← hchars]
    exact hsuffix.trans (List.drop_suffix_drop_left cs (Nat.le_succ tried))
  have hlength := hlonger.length_le
  simp only [List.length_append, Nat.add_le_add_iff_left] at hlength
  exact List.suffix_of_suffix_length_le ((List.suffix_append ds rest).trans hlonger)
    (List.suffix_append ds _) hlength

/-- Behind a wildcard that is given the empty piece, when there is a match exactly from the wildcard
on. -/
theorem exact_of_wildcard {star tried : Nat}
    (hstar : es.drop star = .wildcard :: es.drop (star + 1))
    (h : Splits es cs ↔ Splits (es.drop star) (cs.drop tried)) :
    Cursor.Exact es cs ⟨star + 1, tried, some (star, tried)⟩ := by
  constructor
  · rintro _ _ ⟨⟩
    exact ⟨[], hstar, rfl⟩
  · rw [h, hstar, splits_wildcard_tail, List.tail_drop]
    simp [hstar]

/-- **A turn keeps what has been found out.** -/
theorem Cursor.Exact.of_step (h : c.Exact es cs) (hstep : Step es cs c (.goOn c')) :
    c'.Exact es cs := by
  cases hstep with
  | wildcard elem char =>
    have helem := drop_of_getElem? elem
    refine exact_of_wildcard helem (h.splits_iff.trans (or_iff_left_of_imp ?_))
    -- what an earlier wildcard could take more can be taken by this one
    rintro ⟨star, tried, last, hmore⟩
    obtain ⟨rest, hsuffix, hrest⟩ := h.exists_suffix last hmore
    rw [helem] at hrest ⊢
    exact hrest.of_suffix hsuffix
  | @char x elem char =>
    have helem := drop_of_getElem? elem
    have hchar := drop_of_getElem? char
    constructor
    · intro star tried last
      obtain ⟨ds, helems, hchars⟩ := h.since_star star tried last
      refine ⟨ds ++ [x], ?_, ?_⟩
      · simp [helems, helem]
      · simp [hchars, hchar]
    · rw [h.splits_iff, helem, hchar]
      simp [splits_char]
  | @retry _ star tried char wildcard elem last =>
    obtain ⟨ds, helems, -⟩ := h.since_star star tried last
    have hstar : es.drop star = .wildcard :: es.drop (star + 1) := by
      rw [← List.tail_drop, helems, List.tail_cons]
    refine exact_of_wildcard hstar ?_
    rw [h.splits_iff, or_iff_right (not_splits_drop char wildcard elem)]
    simp [last]

/-- An answer says whether the text can be cut into pieces. -/
theorem Cursor.Exact.answer_iff {b : Bool} (h : c.Exact es cs) (hstep : Step es cs c (.answer b)) :
    b = true ↔ Splits es cs := by
  rw [h.splits_iff]
  cases hstep with
  | giveUp char wildcard elem last => simp [not_splits_drop char wildcard elem, last]
  | ended char =>
    have hchars : cs.drop c.char = [] := List.drop_eq_nil_of_le (Nat.le_of_eq char.symm)
    rw [← splits_end, hchars]
    refine (or_iff_left_of_imp ?_).symm
    rintro ⟨star, tried, last, hmore⟩
    obtain ⟨rest, hsuffix, hrest⟩ := h.exists_suffix last hmore
    rw [hchars, List.suffix_nil] at hsuffix
    rwa [hsuffix] at hrest

/-! ## 3. All turns -/

/-- A comparison that is decided stays so, and one that goes on has its next turn. -/
def Turn.next (es : List PatternElem) (cs : List Char) : Turn → Turn
  | .goOn c => turn es cs c
  | t => t

/-- What is right about what comes out of a turn. -/
def Turn.Exact (es : List PatternElem) (cs : List Char) : Turn → Prop
  | .goOn c => c.InRange es cs ∧ c.Exact es cs
  | .answer b => b = true ↔ Splits es cs
  | .outOfRange => False

theorem Turn.Exact.next {t : Turn} (h : t.Exact es cs) : (t.next es cs).Exact es cs := by
  cases t with
  | goOn c =>
    obtain ⟨hrange, hexact⟩ := h
    have hstep := step_turn hrange
    show (turn es cs c).Exact es cs
    cases hturn : turn es cs c with
    | goOn c' => exact ⟨hrange.of_step (hturn ▸ hstep), hexact.of_step (hturn ▸ hstep)⟩
    | answer b => exact hexact.answer_iff (hturn ▸ hstep)
    | outOfRange => exact hrange.turn_ne_outOfRange hturn
  | answer b => exact h
  | outOfRange => exact h

variable (es cs) in
/-- Whatever comes out after any number of turns is right. -/
theorem exact_iterate_next (k : Nat) : ((Turn.next es cs)^[k] (.goOn {})).Exact es cs := by
  induction k with
  | zero => exact ⟨inRange_start, exact_start⟩
  | succ k ih =>
    rw [Function.iterate_succ_apply']
    exact ih.next

/-- Each turn leaves less to do, so that the answer comes out after as many turns at most. -/
theorem exists_iterate_next_eq (h : c.InRange es cs) :
    ∃ k ≤ c.rank es cs + 1, (Turn.next es cs)^[k] (.goOn c) = .answer (run es cs c h) := by
  induction c, h using run.induct with
  | case1 c h c' hturn ih =>
    obtain ⟨k, hk, hanswer⟩ := ih
    have hless := h.rank_lt (hturn ▸ step_turn h)
    refine ⟨k + 1, by omega, ?_⟩
    rw [Function.iterate_succ_apply, Turn.next, hturn, hanswer, run_goOn h hturn]
  | case2 c h b hturn =>
    refine ⟨1, by omega, ?_⟩
    rw [Function.iterate_one, Turn.next, hturn, run_answer h hturn]

end

/-- The comparison of the whole text starts with this much before it. -/
theorem rank_start (es : List PatternElem) (cs : List Char) :
    Cursor.rank es cs {} + 1 = (es.length + 1) * (cs.length + 1) ^ 2 := by
  simp only [Cursor.rank, Nat.sub_zero]
  ring

/-- A pattern matches the texts that can be cut into pieces for its elements. -/
theorem isMatch_iff {p : Pattern} {text : String} :
    p.isMatch text = true ↔ Splits p.elems text.toList := by
  have hstart : Cursor.InRange p.elems text.toList {} := inRange_start
  obtain ⟨k, -, hanswer⟩ := exists_iterate_next_eq hstart
  have hexact := exact_iterate_next p.elems text.toList k
  rw [hanswer] at hexact
  exact hexact

/-- **The comparison is exact.**  No turn looks behind an end of the pattern or of the text, the
comparison ends, and its answer says whether the text can be cut into consecutive pieces, one for
each element, where the piece of a character is that character and the piece of a wildcard is any
text, also the empty one. -/
theorem isMatch_exact (p : Pattern) (text : String) :
    (∀ k, (Turn.next p.elems text.toList)^[k] (.goOn {}) ≠ .outOfRange) ∧
    (∃ k ≤ (p.elems.length + 1) * (text.toList.length + 1) ^ 2,
      (Turn.next p.elems text.toList)^[k] (.goOn {}) = .answer (p.isMatch text)) ∧
    (p.isMatch text = true ↔
      ∃ pieces, List.Forall₂ PatternElem.Fits p.elems pieces ∧ pieces.flatten = text.toList) := by
  refine ⟨fun k hout => ?_, ?_, isMatch_iff⟩
  · have hexact := exact_iterate_next p.elems text.toList k
    rwa [hout] at hexact
  · rw [← rank_start]
    exact exists_iterate_next_eq inRange_start

end Pattern

end Arbiter
