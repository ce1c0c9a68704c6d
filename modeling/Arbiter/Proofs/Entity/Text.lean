/-
# Entity uids are read back as they are written

The name of a type has no quote and the escaped id no bare one, so that the first `::"` of a written
uid stands behind its type and the last quote behind its id, whatever the id is
(`cutReference?_append`, `dropLastQuote?_append`).  Reading the escapes undoes writing them
(`unescape_escaped`).  So a uid whose type has a valid name is read back, blanks around it aside
(`parse_pad_render`); and no other uid is ever read (`isValid_of_parse`).
-/
import Arbiter.Entity.Uid
import Arbiter.Proofs.Outcome

namespace Arbiter

open Outcome

/-! ## 1. Names of types -/

namespace EntityType

/-- What holds of the characters of all segments holds of all characters but the colons. -/
theorem eq_colon_or_of_splitSegments {p : Char → Prop} (cs : List Char)
    (h : ∀ s ∈ splitSegments cs, ∀ c ∈ s, p c) : ∀ c ∈ cs, c = ':' ∨ p c := by
  fun_induction splitSegments cs with
  | case1 r ih =>
    have hr := ih fun s hs => h s (List.mem_cons_of_mem _ hs)
    exact List.forall_mem_cons.mpr ⟨Or.inl rfl, List.forall_mem_cons.mpr ⟨Or.inl rfl, hr⟩⟩
  | case2 c r hcolons s ss hsegments ih =>
    obtain ⟨hs, hss⟩ := List.forall_mem_cons.mp h
    obtain ⟨hc, hs⟩ := List.forall_mem_cons.mp hs
    rw [hsegments] at ih
    exact List.forall_mem_cons.mpr ⟨Or.inr hc, ih (List.forall_mem_cons.mpr ⟨hs, hss⟩)⟩
  | case3 c r hcolons hsegments ih =>
    have hc := h [c] (List.mem_singleton_self _) c (List.mem_singleton_self _)
    rw [hsegments] at ih
    exact List.forall_mem_cons.mpr ⟨Or.inr hc, ih (List.forall_mem_nil _)⟩
  | case4 => exact List.forall_mem_nil _

theorem isIdentifierRest_of_start {c : Char} (h : isIdentifierStart c = true) :
    isIdentifierRest c = true := by
  simp only [isIdentifierStart, isIdentifierRest, Char.isAlphanum, Bool.or_eq_true] at h ⊢
  exact h.imp_left Or.inl

theorem isIdentifierRest_of_mem {s : List Char} (h : isIdentifier s = true) :
    ∀ c ∈ s, isIdentifierRest c = true := by
  cases s with
  | nil => exact List.forall_mem_nil _
  | cons c r =>
    simp only [isIdentifier, Bool.and_eq_true, List.all_eq_true] at h
    exact List.forall_mem_cons.mpr ⟨isIdentifierRest_of_start h.1, h.2⟩

/-- A valid name has colons and characters of identifiers. -/
theorem IsValid.eq_colon_or {t : EntityType} (h : t.IsValid) :
    ∀ c ∈ t.name.toList, c = ':' ∨ isIdentifierRest c = true := by
  have hall : ∀ s ∈ splitSegments t.name.toList, isIdentifier s = true := List.all_eq_true.mp h
  exact eq_colon_or_of_splitSegments _ fun s hs => isIdentifierRest_of_mem (hall s hs)

/-- A valid name starts like an identifier. -/
theorem IsValid.exists_cons {t : EntityType} (h : t.IsValid) :
    ∃ c r, t.name.toList = c :: r ∧ isIdentifierStart c = true := by
  have hall : ∀ s ∈ splitSegments t.name.toList, isIdentifier s = true := List.all_eq_true.mp h
  revert hall
  fun_cases splitSegments t.name.toList with
  | case1 r => exact fun hall => nomatch hall [] List.mem_cons_self
  | case2 c r hcolons s ss hsegments =>
    intro hall
    have hs := hall (c :: s) List.mem_cons_self
    rw [isIdentifier, Bool.and_eq_true] at hs
    exact ⟨c, r, rfl, hs.1⟩
  | case3 c r hcolons hsegments =>
    intro hall
    have hs := hall [c] List.mem_cons_self
    rw [isIdentifier, Bool.and_eq_true] at hs
    exact ⟨c, r, rfl, hs.1⟩
  | case4 => exact fun hall => nomatch hall [] List.mem_cons_self

/-- The characters of identifiers are between the digit zero and the letter `z`. -/
theorem toNat_of_isIdentifierRest {c : Char} (h : isIdentifierRest c = true) :
    48 ≤ c.toNat ∧ c.toNat ≤ 122 := by
  -- capital letters, small letters, digits, the underscore
  have h : ((decide (65 ≤ c.val ∧ c.val ≤ 90) || (97 ≤ c.val && c.val ≤ 122)) ||
      (48 ≤ c.val && c.val ≤ 57) || c == '_') = true := h
  simp only [Bool.or_eq_true, Bool.and_eq_true, decide_eq_true_eq, beq_iff_eq,
    UInt32.le_iff_toNat_le, UInt32.reduceToNat] at h
  have hval : c.toNat = c.val.toNat := rfl
  rcases h with ((h | h) | h) | rfl
  · omega
  · omega
  · omega
  · decide

theorem isBlank_of_isIdentifierRest {c : Char} (h : isIdentifierRest c = true) :
    Text.isBlank c = false := by
  obtain ⟨hmin, hmax⟩ := toNat_of_isIdentifierRest h
  simp only [Text.isBlank, Text.blankRanges, List.any_cons, List.any_nil, Bool.or_false,
    Bool.or_eq_false_iff, Bool.and_eq_false_iff, decide_eq_false_iff_not]
  omega

theorem parse_eq_ok_iff {name : String} {t : EntityType} :
    parse name = .ok t ↔ t.name = name ∧ t.IsValid := by
  have hvalid : IsValid ⟨name⟩ ↔ isValidName name = true := Iff.rfl
  unfold parse parse?
  by_cases h : isValidName name = true
  · rw [if_pos h]
    constructor
    · rintro ⟨⟩
      exact ⟨rfl, h⟩
    · rintro ⟨rfl, -⟩
      rfl
  · rw [if_neg h]
    refine iff_of_false nofun ?_
    rintro ⟨rfl, ht⟩
    exact h ht

end EntityType

/-! ## 2. The parts of a written uid -/

namespace EntityUid

/-- A text without a quote in front of the first `::"` is cut there. -/
theorem cutReference?_append {before : List Char} (h : '"' ∉ before) (rest : List Char) :
    cutReference? (before ++ ':' :: ':' :: '"' :: rest) = some (before, rest) := by
  induction before with
  | nil => rfl
  | cons c before ih =>
    rw [List.mem_cons, not_or] at h
    obtain ⟨hc, hbefore⟩ := h
    have hcut := ih hbefore
    rw [List.cons_append, cutReference?, hcut]
    · rfl
    · -- The quote of an earlier mark would stand in `before`, or where a colon stands.
      intro r _ h
      match before, hbefore with
      | [], _ => simp at h
      | [_], _ => simp at h
      | _ :: d :: _, hbefore => simp_all

theorem dropLastQuote?_append (cs : List Char) : dropLastQuote? (cs ++ ['"']) = some cs := by
  simp [dropLastQuote?]

theorem unescape_escapeChar (raw : String) (c : Char) (r : List Char) :
    unescape raw (escapeChar c ++ r) = (unescape raw r).map (c :: ·) := by
  fun_cases escapeChar c with
  | case1 | case2 | case3 | case4 => rfl
  | case5 c hquote hslash _ _ =>
    rw [List.singleton_append, unescape, if_neg hquote]
    · exact fun _ _ h => absurd h hslash
    · exact fun h => absurd h hslash

/-- Reading the escapes undoes writing them. -/
theorem unescape_escaped (raw : String) (cs : List Char) :
    unescape raw (cs.flatMap escapeChar) = .ok cs := by
  induction cs with
  | nil => rfl
  | cons c cs ih =>
    rw [List.flatMap_cons, unescape_escapeChar, ih]
    rfl

/-! ## 3. Reading -/

variable {u v : EntityUid}

/-- What is read has a type with a valid name. -/
theorem isValid_of_parse {text : String} (h : parse text = .ok u) : u.type.IsValid := by
  unfold parse at h
  simp only at h
  split at h
  · cases h
  · split at h
    · cases h
    · obtain ⟨type, htype, h⟩ := bind_eq_ok_iff.mp h
      obtain ⟨id, -, h⟩ := bind_eq_ok_iff.mp h
      cases h
      exact (EntityType.parse_eq_ok_iff.mp htype).2

/-- A written uid neither starts nor ends with a blank. -/
theorem trim_pad_render (hu : u.type.IsValid) {before after : String}
    (hbefore : ∀ c ∈ before.toList, Text.isBlank c = true)
    (hafter : ∀ c ∈ after.toList, Text.isBlank c = true) :
    Text.trim (before ++ u.render ++ after) = u.render := by
  obtain ⟨c, r, hname, hstart⟩ := hu.exists_cons
  have hne : u.chars ≠ [] := List.append_ne_nil_of_right_ne_nil _ (List.cons_ne_nil _ _)
  have hhead : Text.isBlank (u.chars.head hne) = false := by
    simp only [chars, hname, List.cons_append, List.head_cons]
    exact EntityType.isBlank_of_isIdentifierRest (EntityType.isIdentifierRest_of_start hstart)
  have hlast : Text.isBlank (u.chars.getLast hne) = false := by
    simp only [chars, List.getLast_append_of_ne_nil _ (List.cons_ne_nil _ _),
      List.getLast_singleton]
    decide
  rw [Text.trim, String.toList_append, String.toList_append, render, String.toList_ofList,
    Text.trimBlanks_append hbefore hafter hne hhead hlast]

/-- **A uid whose type has a valid name is read back, blanks around it aside.** -/
theorem parse_pad_render (hu : u.type.IsValid) {before after : String}
    (hbefore : ∀ c ∈ before.toList, Text.isBlank c = true)
    (hafter : ∀ c ∈ after.toList, Text.isBlank c = true) :
    parse (before ++ u.render ++ after) = .ok u := by
  have hquote : '"' ∉ u.type.name.toList := by
    intro hmem
    rcases hu.eq_colon_or _ hmem with h | h
    · cases h
    · cases h
  have hcut : cutReference? u.render.toList
      = some (u.type.name.toList, u.id.toList.flatMap escapeChar ++ ['"']) := by
    have hcut := cutReference?_append hquote (u.id.toList.flatMap escapeChar ++ ['"'])
    simpa [render, chars] using hcut
  have htype : EntityType.parse u.type.name = .ok u.type :=
    EntityType.parse_eq_ok_iff.mpr ⟨rfl, hu⟩
  unfold parse
  simp only [trim_pad_render hu hbefore hafter, hcut, dropLastQuote?_append, String.ofList_toList,
    htype, unescape_escaped, ok_bind]
  rfl

theorem parse_render (hu : u.type.IsValid) : parse u.render = .ok u := by
  have hpad := @parse_pad_render u hu "" "" (by simp) (by simp)
  rwa [String.empty_append, String.append_empty] at hpad

/-- **The text of a uid is a faithful codec.**  When the name of its type is valid, a uid is read
back from its text whatever its id is, also with blanks around it (`Text.isBlank` has the ASCII ones
and others), and so it is told apart by its text from the other ones.  What is read from any text
has a type with a valid name, and so a uid is read back exactly when its type has one. -/
theorem render_faithful :
    (∀ (u : EntityUid) (before after : String), u.type.IsValid →
      (∀ c ∈ before.toList, Text.isBlank c = true) → (∀ c ∈ after.toList, Text.isBlank c = true) →
        parse (before ++ u.render ++ after) = .ok u) ∧
    (∀ u v : EntityUid, u.type.IsValid → v.type.IsValid → u.render = v.render → u = v) ∧
    (∀ text u, parse text = .ok u → u.type.IsValid) ∧
    (∀ u : EntityUid, parse u.render = .ok u ↔ u.type.IsValid) := by
  refine ⟨fun _ _ _ hu hbefore hafter => parse_pad_render hu hbefore hafter,
    fun u v hu hv h => ?_, fun _ _ => isValid_of_parse, fun _ => ⟨isValid_of_parse, parse_render⟩⟩
  have hread := parse_render hu
  rw [h, parse_render hv] at hread
  exact (Except.ok.inj hread).symm

/-! Ids with backslashes in front of quotes and at the end, one of them with what looks like the end
of a uid and the start of the next. -/

namespace Tangled

def uid : EntityUid := ⟨⟨"Photos::Album"⟩, "\\\"::\"\n\\"⟩

def other : EntityUid := ⟨⟨"Photos::Album"⟩, "\\\\\"::\"n\\"⟩

theorem isValid_uid : uid.type.IsValid := by decide +kernel

theorem render_faithful_tangled :
    uid.type.IsValid ∧ parse ("\t " ++ uid.render ++ "\r\n") = .ok uid ∧
      uid.render ≠ other.render ∧ parse uid.render = .ok uid := by
  obtain ⟨hpad, hinjective, hvalid, hread⟩ := render_faithful
  have hparse : parse "Photos::Album::\"\\\\\\\"::\\\"\\n\\\\\"" = .ok uid := rfl
  have hbefore : "\t ".toList.all Text.isBlank = true := by decide
  have hafter : "\r\n".toList.all Text.isBlank = true := by decide
  exact ⟨hvalid _ _ hparse,
    hpad uid _ _ isValid_uid (List.all_eq_true.mp hbefore) (List.all_eq_true.mp hafter),
    fun h => absurd (hinjective uid other isValid_uid isValid_uid h) (by decide),
    (hread uid).mpr isValid_uid⟩

end Tangled

end EntityUid

end Arbiter
