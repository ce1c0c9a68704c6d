/-
# Texts of patterns

A text is read from left to right in pieces, one for each element: a star, a backslash with the
character behind it, or any other character (`PatternElem.Spelling`).  Every text is a row of such
pieces, or a row of them with a backslash behind it that has nothing left to take
(`exists_spellings`).  So what is read from a text is what its pieces spell
(`elemsOfChars?_eq_some_iff`), and nothing is read exactly when a backslash is left over
(`elemsOfChars?_eq_none_iff`).

A pattern is written in such pieces, and so it is read back (`parse_render`).  A text in which the
special characters are escaped is the text of the pattern of its characters, which matches that
text and no other (`isMatch_ofText`).
-/
import Arbiter.Proofs.Pattern.Codec
import Arbiter.Proofs.Pattern.Matching

namespace Arbiter

/-- The pieces of text that are read as an element. -/
inductive PatternElem.Spelling : PatternElem → List Char → Prop
  /-- A star is a wildcard. -/
  | wildcard : Spelling .wildcard ['*']
  /-- A backslash gives the character behind it, whatever that is. -/
  | escaped (c : Char) : Spelling (.char c) ['\\', c]
  /-- A character that is not special gives itself. -/
  | plain {c : Char} (star : c ≠ '*') (backslash : c ≠ '\\') : Spelling (.char c) [c]

namespace Pattern

/-! ## 1. Reading -/

/-- The piece at the start of a text is read first. -/
theorem elemsOfChars?_spelling {e : PatternElem} {piece : List Char} (h : e.Spelling piece)
    (rest : List Char) :
    elemsOfChars? (piece ++ rest) = (elemsOfChars? rest).map (e :: ·) := by
  cases h with
  | wildcard => rfl
  | escaped c => rfl
  | plain star backslash =>
    rw [List.singleton_append, elemsOfChars?]
    · exact star
    · exact fun _ _ h _ => backslash h
    · exact fun h _ => backslash h

/-- What is spelled in front of a text is read in front of it. -/
theorem elemsOfChars?_append {es : List PatternElem} {pieces : List (List Char)}
    (h : List.Forall₂ PatternElem.Spelling es pieces) (rest : List Char) :
    elemsOfChars? (pieces.flatten ++ rest) = (elemsOfChars? rest).map (es ++ ·) := by
  induction h with
  | nil => simp
  | cons hpiece _ ih =>
    rw [List.flatten_cons, List.append_assoc, elemsOfChars?_spelling hpiece, ih, Option.map_map]
    rfl

/-- Every text is a row of pieces, with nothing or with a backslash left over behind them. -/
theorem exists_spellings (cs : List Char) :
    ∃ es pieces left, List.Forall₂ PatternElem.Spelling es pieces ∧ (left = [] ∨ left = ['\\']) ∧
      pieces.flatten ++ left = cs := by
  fun_induction elemsOfChars? cs with
  | case1 => exact ⟨[], [], [], .nil, Or.inl rfl, rfl⟩
  | case2 r ih =>
    obtain ⟨es, pieces, left, hspell, hleft, rfl⟩ := ih
    exact ⟨.wildcard :: es, ['*'] :: pieces, left, .cons .wildcard hspell, hleft, rfl⟩
  | case3 c r ih =>
    obtain ⟨es, pieces, left, hspell, hleft, rfl⟩ := ih
    exact ⟨.char c :: es, ['\\', c] :: pieces, left, .cons (.escaped c) hspell, hleft, rfl⟩
  | case4 => exact ⟨[], [], ['\\'], .nil, Or.inr rfl, rfl⟩
  | case5 c r star escaped alone ih =>
    -- a backslash would stand alone, or take the character behind it
    have backslash : c ≠ '\\' := by
      rintro rfl
      cases r with
      | nil => exact alone rfl rfl
      | cons d r => exact escaped d r rfl rfl
    obtain ⟨es, pieces, left, hspell, hleft, rfl⟩ := ih
    exact ⟨.char c :: es, [c] :: pieces, left, .cons (.plain star backslash) hspell, hleft, rfl⟩

/-- **What is read is what the pieces of the text spell.** -/
theorem elemsOfChars?_eq_some_iff {cs : List Char} {es : List PatternElem} :
    elemsOfChars? cs = some es ↔
      ∃ pieces, List.Forall₂ PatternElem.Spelling es pieces ∧ pieces.flatten = cs := by
  constructor
  · intro hread
    obtain ⟨es', pieces, left, hspell, rfl | rfl, rfl⟩ := exists_spellings cs
    · rw [elemsOfChars?_append hspell] at hread
      obtain rfl : es' = es := by simpa [elemsOfChars?] using hread
      exact ⟨pieces, hspell, (List.append_nil _).symm⟩
    · rw [elemsOfChars?_append hspell] at hread
      cases hread
  · rintro ⟨pieces, hspell, rfl⟩
    have hread := elemsOfChars?_append hspell []
    rw [List.append_nil] at hread
    simp [hread, elemsOfChars?]

/-- **Nothing is read exactly when a backslash is left over behind the pieces.** -/
theorem elemsOfChars?_eq_none_iff {cs : List Char} :
    elemsOfChars? cs = none ↔
      ∃ es pieces, List.Forall₂ PatternElem.Spelling es pieces ∧ pieces.flatten ++ ['\\'] = cs := by
  constructor
  · intro hread
    obtain ⟨es, pieces, left, hspell, rfl | rfl, rfl⟩ := exists_spellings cs
    · rw [elemsOfChars?_append hspell] at hread
      cases hread
    · exact ⟨es, pieces, hspell, rfl⟩
  · rintro ⟨es, pieces, hspell, rfl⟩
    rw [elemsOfChars?_append hspell]
    rfl

theorem parse_eq_ok_iff {text : String} {p : Pattern} :
    parse text = .ok p ↔ elemsOfChars? text.toList = some p.elems := by
  unfold parse
  cases elemsOfChars? text.toList with
  | none => exact iff_of_false nofun nofun
  | some es =>
    constructor
    · rintro ⟨⟩
      rfl
    · rintro ⟨⟩
      rfl

theorem parse_eq_error_iff {text : String} {e : DanglingEscape} :
    parse text = .error e ↔ e = ⟨text⟩ ∧ elemsOfChars? text.toList = none := by
  unfold parse
  cases elemsOfChars? text.toList with
  | none => simp [eq_comm]
  | some es => exact iff_of_false nofun fun h => nomatch h.2

/-! ## 2. Writing -/

theorem spelling_elemChars (e : PatternElem) : e.Spelling (elemChars e) := by
  cases e with
  | wildcard => exact .wildcard
  | char c =>
    rw [elemChars]
    split
    · exact .escaped c
    · rename_i h
      rw [not_or] at h
      exact .plain h.1 h.2

/-- A pattern is read back from its text. -/
theorem parse_render (p : Pattern) : parse p.render = .ok p := by
  have hspell : ∀ es : List PatternElem,
      List.Forall₂ PatternElem.Spelling es (es.map elemChars) := by
    intro es
    induction es with
    | nil => exact .nil
    | cons e es ih => exact .cons (spelling_elemChars e) ih
  rw [parse_eq_ok_iff, render, String.toList_ofList, elemsOfChars?_eq_some_iff]
  exact ⟨p.elems.map elemChars, hspell p.elems, rfl⟩

theorem render_injective {p p' : Pattern} (h : p.render = p'.render) : p = p' := by
  have hread := parse_render p
  rw [h, parse_render] at hread
  exact (Except.ok.inj hread).symm

/-! ## 3. Patterns of one text -/

/-- The pattern of the characters of a text. -/
def ofText (text : String) : Pattern := ⟨text.toList.map .char⟩

/-- A text with a backslash in front of each star and each backslash. -/
def escape (text : String) : String :=
  String.ofList (text.toList.flatMap fun c => if c = '*' ∨ c = '\\' then ['\\', c] else [c])

theorem render_ofText (text : String) : (ofText text).render = escape text := by
  rw [render, ofText, List.flatMap_map]
  rfl

/-- **The pattern of the characters of a text matches that text only.** -/
theorem isMatch_ofText {text t : String} : (ofText text).isMatch t = true ↔ t = text := by
  rw [isMatch_iff, ofText, ← List.append_nil (List.map _ _), splits_chars]
  simp only [splits_nil, exists_eq_left, List.append_nil, String.toList_inj]
  exact eq_comm

/-- **Texts and documents of patterns are faithful.**  A pattern is read back from its text, from
its document, from the text of its document and from its text as a document, so that different
patterns have different texts and documents.  A text is refused, with itself as the report, exactly when a
backslash has nothing left to take behind the pieces in front of it.  And a text in which every star
and every backslash is escaped is read as a pattern that matches the text and nothing else. -/
theorem faithful_forms :
    (∀ p : Pattern, parse p.render = .ok p ∧ ofJson p.toJson = .ok p ∧
      ofJson (.string p.render) = .ok p ∧
      (Json.parse? p.toJson.compact).map ofJson = some (.ok p)) ∧
    (∀ p p' : Pattern, (p.render = p'.render ↔ p = p') ∧ (p.toJson = p'.toJson ↔ p = p') ∧
      (p.toJson.compact = p'.toJson.compact ↔ p = p')) ∧
    (∀ text e, parse text = .error e ↔ e = ⟨text⟩ ∧ ∃ es pieces,
      List.Forall₂ PatternElem.Spelling es pieces ∧ pieces.flatten ++ ['\\'] = text.toList) ∧
    ∀ text, ∃ p, parse (escape text) = .ok p ∧ ∀ t, p.isMatch t = true ↔ t = text := by
  refine ⟨fun p => ⟨parse_render p, ofJson_toJson p, ?_, ?_⟩, fun p p' => ⟨?_, ?_, ?_⟩,
    fun text e => ?_, fun text => ⟨ofText text, ?_, fun t => isMatch_ofText⟩⟩
  · rw [ofJson, parse_render]
    rfl
  · rw [parse?_compact_toJson, Option.map_some, ofJson_toJson]
  · exact ⟨render_injective, congrArg render⟩
  · exact ⟨toJson_injective, congrArg toJson⟩
  · refine ⟨fun h => toJson_injective ?_, congrArg fun p : Pattern => p.toJson.compact⟩
    exact Json.compact_injective p.isExact_toJson p'.isExact_toJson h
  · rw [parse_eq_error_iff, elemsOfChars?_eq_none_iff]
  · rw [← render_ofText, parse_render]

end Pattern

end Arbiter
