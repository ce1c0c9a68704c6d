/-
# Texts are read as what they were written from

The compact text of a value is read as that value (`parseRaw?_compact`), provided that its numbers
are integers that fit 64 bits (`Json.IsExact`): a double may be read with another last bit.  So two
such values with one text are the same (`compact_injective`).

A value is read up to a comma, a closing bracket or brace, or the end (`Ends`), so that one induction
goes through arrays and objects.  The fuel that the readers need is bounded by the length of the
text, in which every nested value takes at least one character more than its own text.
-/
import Arbiter.Json.Parser
import Arbiter.Json.Printer
import Arbiter.Proofs.Digits

namespace Arbiter.Json

/-! ## 1. Strings -/

theorem hexValue4?_hexDigit : ∀ n < 0x20,
    hexValue4? '0' '0' (hexDigit (n / 16)) (hexDigit n) = some n := by
  decide

/-- A character is read as it was written. -/
theorem scanString_escapeChar (acc : List Char) (c : Char) (r : List Char) :
    scanString (some acc) none (escapeChar c ++ r) = scanString (some (c :: acc)) none r := by
  unfold escapeChar
  split
  case h_8 hquote hslash _ _ _ _ _ =>
    split
    · rename_i hlow
      have hhex := hexValue4?_hexDigit c.toNat hlow
      have hhigh : isHighSurrogate c.toNat = false := by
        simp only [isHighSurrogate, Bool.and_eq_false_iff, decide_eq_false_iff_not]
        omega
      have hlowSurrogate : isLowSurrogate c.toNat = false := by
        simp only [isLowSurrogate, Bool.and_eq_false_iff, decide_eq_false_iff_not]
        omega
      simp [scanString, hhex, hhigh, hlowSurrogate]
    · rename_i hlow
      rw [List.singleton_append, scanString, if_neg hlow]
      · rfl
      · exact fun h => hquote h
      · exact fun _ _ _ _ _ h _ => hslash h
      · exact fun _ _ h _ => hslash h
      · exact fun h _ => hslash h
  all_goals rfl

/-- A string is read up to its closing quote. -/
theorem scanString_escaped (cs acc r : List Char) :
    scanString (some acc) none (cs.flatMap escapeChar ++ '"' :: r)
      = some (some (String.ofList (acc.reverse ++ cs)), r) := by
  induction cs generalizing acc with
  | nil =>
    rw [List.append_nil]
    rfl
  | cons c cs ih =>
    rw [List.flatMap_cons, List.append_assoc, scanString_escapeChar, ih, List.reverse_cons,
      List.append_assoc, List.singleton_append]

/-! ## 2. Numbers -/

/-- What stands behind a value: a comma, a closing bracket or brace, or nothing. -/
def Ends (r : List Char) : Prop := ∀ c ∈ r.head?, c = ',' ∨ c = ']' ∨ c = '}'

theorem ends_nil : Ends [] := nofun

theorem ends_cons {c : Char} {r : List Char} (h : c = ',' ∨ c = ']' ∨ c = '}') : Ends (c :: r) := by
  rintro _ ⟨rfl⟩
  exact h

theorem digit?_digitChar : ∀ d < 10, digit? (Nat.digitChar d) = some d := by decide

theorem scanDigits_of_ends {r : List Char} (hr : Ends r) : scanDigits r = ([], r) := by
  cases r with
  | nil => rfl
  | cons c r =>
    have hc : digit? c = none := by
      rcases hr c rfl with rfl | rfl | rfl <;> decide
    rw [scanDigits, hc]

theorem scanDigits_map {r : List Char} (hr : Ends r) :
    ∀ {ds : List Nat}, (∀ d ∈ ds, d < 10) → scanDigits (ds.map Nat.digitChar ++ r) = (ds, r)
  | [], _ => scanDigits_of_ends hr
  | d :: ds, h => by
    obtain ⟨hd, hds⟩ := List.forall_mem_cons.mp h
    rw [List.map_cons, List.cons_append, scanDigits, digit?_digitChar d hd, scanDigits_map hr hds]

/-- The digits of a numeral are all that is read. -/
theorem scanNumeral?_digits {ds : List Nat} (hne : ds ≠ []) (hlt : ∀ d ∈ ds, d < 10)
    (hzero : ds.head? = some 0 → ds.length = 1) (negative : Bool) {r : List Char} (hr : Ends r) :
    scanNumeral? ((if negative then ['-'] else []) ++ (ds.map Nat.digitChar ++ r))
      = some (⟨negative, ds, none, none⟩, r) := by
  have hwhole : scanWhole? (ds.map Nat.digitChar ++ r) = some (ds, r) := by
    rw [scanWhole?, scanDigits_map hr hlt]
    rcases ds with _ | ⟨_ | d, _ | ⟨_, ds⟩⟩
    · exact absurd rfl hne
    · rfl
    · exact absurd (hzero rfl) (by simp)
    · rfl
    · rfl
  have hfraction : scanFraction? r = some (none, r) := by
    cases r with
    | nil => rfl
    | cons c r => rcases hr c rfl with rfl | rfl | rfl <;> rfl
  have hexponent : scanExponent? r = some (none, r) := by
    cases r with
    | nil => rfl
    | cons c r => rcases hr c rfl with rfl | rfl | rfl <;> rfl
  cases negative with
  | true => simp [scanNumeral?, hwhole, hfraction, hexponent]
  | false =>
    obtain ⟨d, ds, rfl⟩ := List.exists_cons_of_ne_nil hne
    have hsign : Nat.digitChar d ≠ '-' := Nat.digitChar_ne '-' (by decide)
    rw [List.map_cons, List.cons_append] at hwhole ⊢
    simp only [scanNumeral?, Bool.false_eq_true, if_false, List.nil_append]
    split
    · rename_i heq
      exact absurd (List.cons.inj heq).1 hsign
    · simp [hwhole, hfraction, hexponent]

/-- Digits of a number below the limit are gathered without loss. -/
theorem gatherDigits_eq {limit : Nat} : ∀ {ds : List Nat} {n : Nat},
    ds.foldl (fun n d => n * 10 + d) n < limit →
      gatherDigits limit n ds = (ds.foldl (fun n d => n * 10 + d) n, [])
  | [], _, _ => rfl
  | d :: ds, n, h => by
    have hle : ∀ (ds : List Nat) (m : Nat), m ≤ ds.foldl (fun n d => n * 10 + d) m := by
      intro ds
      induction ds with
      | nil => exact fun m => Nat.le_refl m
      | cons d ds ih =>
        intro m
        have hm := ih (m * 10 + d)
        rw [List.foldl_cons]
        omega
    have hlt : n * 10 + d < limit := Nat.lt_of_le_of_lt (hle ds _) h
    rw [gatherDigits, if_pos hlt]
    exact gatherDigits_eq h

/-- Whether a number is an integer whose numeral denotes it. -/
def IsExactNumber : JsonNumber → Prop
  | .int n => n.natAbs < significandLimit ∧ (n < 0 → (Long.ofInt? n).isSome)
  | .real _ => False

theorem toList_render_int (n : Int) : (JsonNumber.int n).render.toList
    = (if decide (n < 0) then ['-'] else []) ++ Nat.toDigits 10 n.natAbs := by
  cases n with
  | ofNat m =>
    have hsign : ¬ (Int.ofNat m < 0) := Int.not_lt.mpr (Int.natCast_nonneg m)
    have hrepr : (JsonNumber.int (.ofNat m)).render = m.repr := rfl
    rw [hrepr, Nat.repr_eq_ofList_toDigits, String.toList_ofList, decide_eq_false hsign]
    rfl
  | negSucc m =>
    have hrepr : (JsonNumber.int (.negSucc m)).render = "-" ++ m.succ.repr := rfl
    simp only [hrepr, Nat.repr_eq_ofList_toDigits, String.toList_append, String.toList_ofList,
      decide_eq_true (Int.negSucc_lt_zero m)]
    rfl

/-- A number is read up to where it ends. -/
theorem exists_scanNumeral? {n : JsonNumber} (hn : IsExactNumber n) {r : List Char}
    (hr : Ends r) : ∃ l, scanNumeral? (n.render.toList ++ r) = some (l, r) ∧ l.value? = some n := by
  cases n with
  | real x => cases hn
  | int n =>
    obtain ⟨hlimit, hlong⟩ := hn
    obtain ⟨ds, hds, hlt, hvalue, hzero⟩ := Digits.exists_digits (show 1 < 10 by decide) n.natAbs
    have hne : ds ≠ [] := by
      rintro rfl
      exact Nat.toDigits_ne_nil hds
    refine ⟨⟨decide (n < 0), ds, none, none⟩, ?_, ?_⟩
    · rw [toList_render_int, hds, List.append_assoc]
      exact scanNumeral?_digits hne hlt hzero _ hr
    · have hgather : gatherDigits significandLimit 0 ds = (n.natAbs, []) := by
        rw [gatherDigits_eq (hvalue.symm ▸ hlimit), hvalue]
      rw [Numeral.value?, hgather]
      by_cases hsign : n < 0
      · have habs : -(n.natAbs : Int) = n := by omega
        have hpos : n.natAbs ≠ 0 := by omega
        simp only [decide_eq_true hsign, Bool.not_true, Bool.false_eq_true, if_false, habs]
        exact if_pos ⟨hpos, hlong hsign⟩
      · have habs : (n.natAbs : Int) = n := by omega
        simp [hsign, habs]

/-- A number starts with a sign or a digit. -/
theorem exists_cons_of_number {n : JsonNumber} (hn : IsExactNumber n) :
    ∃ c cs, n.render.toList = c :: cs ∧ (c == '-' || (digit? c).isSome) = true := by
  cases n with
  | real x => cases hn
  | int n =>
    obtain ⟨ds, hds, hlt, -⟩ := Digits.exists_digits (show 1 < 10 by decide) n.natAbs
    rw [toList_render_int, hds]
    cases decide (n < 0) with
    | true => exact ⟨'-', _, rfl, rfl⟩
    | false =>
      cases ds with
      | nil => exact absurd hds Nat.toDigits_ne_nil
      | cons d ds =>
        refine ⟨_, _, rfl, ?_⟩
        rw [digit?_digitChar d (hlt d List.mem_cons_self)]
        exact Bool.or_true _

/-! ## 3. Values -/

mutual

/-- Whether every number is an integer whose numeral denotes it. -/
def IsExact : Json → Prop
  | .number n => IsExactNumber n
  | .array items => IsExactItems items
  | .object fields => IsExactFields fields
  | _ => True
termination_by structural j => j

/-- `IsExact` for the items of an array. -/
def IsExactItems : List Json → Prop
  | [] => True
  | j :: r => j.IsExact ∧ IsExactItems r
termination_by structural l => l

/-- `IsExact` for the values of the fields of an object. -/
def IsExactFields : List (String × Json) → Prop
  | [] => True
  | (_, j) :: r => j.IsExact ∧ IsExactFields r
termination_by structural l => l

end

theorem isExactItems_iff {items : List Json} : IsExactItems items ↔ ∀ j ∈ items, j.IsExact := by
  induction items with
  | nil => exact iff_of_true trivial nofun
  | cons j items ih => rw [IsExactItems, ih, List.forall_mem_cons]

theorem isExactFields_iff {fields : List (String × Json)} :
    IsExactFields fields ↔ ∀ f ∈ fields, f.2.IsExact := by
  induction fields with
  | nil => exact iff_of_true trivial nofun
  | cons f fields ih => rw [IsExactFields, ih, List.forall_mem_cons]

@[simp] theorem isExact_string (s : String) : (Json.string s).IsExact := trivial

@[simp] theorem isExact_object {fields : List (String × Json)} :
    (Json.object fields).IsExact ↔ IsExactFields fields := Iff.rfl

@[simp] theorem isExactFields_cons {f : String × Json} {fields : List (String × Json)} :
    IsExactFields (f :: fields) ↔ f.2.IsExact ∧ IsExactFields fields := Iff.rfl

@[simp] theorem isExactFields_nil : IsExactFields [] := trivial

@[simp] theorem isExactFields_append {l m : List (String × Json)} :
    IsExactFields (l ++ m) ↔ IsExactFields l ∧ IsExactFields m := by
  simp only [isExactFields_iff, List.forall_mem_append]

@[simp] theorem isExactFields_optionalField {name : String} {o : Option Json} :
    IsExactFields (optionalField name o) ↔ ∀ j ∈ o, j.IsExact := by
  cases o <;> simp [optionalField]

theorem isExact_array_map {α : Type} {write : α → Json} {l : List α}
    (h : ∀ a ∈ l, (write a).IsExact) : (Json.array (l.map write)).IsExact :=
  isExactItems_iff.mpr (List.forall_mem_map.mpr h)

theorem isExact_object_map {α : Type} {name : α → String} {write : α → Json} {l : List α}
    (h : ∀ a ∈ l, (write a).IsExact) : (Json.object (l.map fun a => (name a, write a))).IsExact :=
  isExactFields_iff.mpr (List.forall_mem_map.mpr h)

/-- The texts of items with commas between them. -/
def itemsChars (items : List Json) : List Char :=
  [','].intercalate (items.map fun j => j.compact.toList)

/-- The text of a field. -/
def fieldChars (f : String × Json) : List Char :=
  (renderString f.1).toList ++ ':' :: f.2.compact.toList

/-- The texts of fields with commas between them. -/
def fieldsChars (fields : List (String × Json)) : List Char :=
  [','].intercalate (fields.map fieldChars)

theorem toList_compact_array (items : List Json) :
    (Json.array items).compact.toList = '[' :: (itemsChars items ++ [']']) := by
  have hitems : ∀ items : List Json,
      (compactItems items).map String.toList = items.map fun j => j.compact.toList := by
    intro items
    induction items with
    | nil => rfl
    | cons j items ih => rw [compactItems, List.map_cons, List.map_cons, ih]
  rw [compact, String.toList_append, String.toList_append, String.toList_intercalate, hitems]
  rfl

theorem toList_compact_object (fields : List (String × Json)) :
    (Json.object fields).compact.toList = '\x7b' :: (fieldsChars fields ++ ['\x7d']) := by
  have hfields : ∀ fields : List (String × Json),
      (compactFields fields).map String.toList = fields.map fieldChars := by
    intro fields
    induction fields with
    | nil => rfl
    | cons f fields ih =>
      rw [compactFields, List.map_cons, List.map_cons, ih]
      simp [fieldChars]
  rw [compact, String.toList_append, String.toList_append, String.toList_intercalate, hfields]
  rfl

theorem isBlank_of_number {c : Char} (h : (c == '-' || (digit? c).isSome) = true) :
    isBlank c = false := by
  rw [← Bool.not_eq_true]
  intro hblank
  simp only [isBlank, Bool.or_eq_true, beq_iff_eq] at hblank
  rcases hblank with ((rfl | rfl) | rfl) | rfl <;> exact absurd h (by decide)

/-- A text starts with a character that is no blank and closes nothing. -/
theorem exists_cons_of_compact {j : Json} (hj : j.IsExact) :
    ∃ c cs, j.compact.toList = c :: cs ∧ isBlank c = false ∧ c ≠ ']' := by
  cases j with
  | null => exact ⟨'n', _, rfl, rfl, by decide⟩
  | bool b =>
    cases b with
    | true => exact ⟨'t', _, rfl, rfl, by decide⟩
    | false => exact ⟨'f', _, rfl, rfl, by decide⟩
  | number n =>
    obtain ⟨c, cs, hcs, hc⟩ := exists_cons_of_number hj
    refine ⟨c, cs, hcs, isBlank_of_number hc, ?_⟩
    rintro rfl
    cases hc
  | string s => exact ⟨'"', _, String.toList_ofList, rfl, by decide⟩
  | array items => exact ⟨'[', _, toList_compact_array items, rfl, by decide⟩
  | object fields => exact ⟨'\x7b', _, toList_compact_object fields, rfl, by decide⟩

theorem skipBlanks_cons {c : Char} (h : isBlank c = false) (cs : List Char) :
    skipBlanks (c :: cs) = c :: cs := by
  rw [skipBlanks, List.dropWhile_cons_of_neg (Bool.eq_false_iff.mp h)]

theorem scanValue_number {c : Char} (h : (c == '-' || (digit? c).isSome) = true) (fuel : Nat)
    {cs r : List Char} {l : Numeral} (hl : scanNumeral? (c :: cs) = some (l, r)) :
    scanValue (fuel + 1) (c :: cs) = (.number l.value?, some r) := by
  rw [scanValue, skipBlanks_cons (isBlank_of_number h)]
  split
  case h_7 heq =>
    obtain ⟨rfl, rfl⟩ := List.cons.inj heq
    rw [if_pos h, hl]
  case h_8 heq => cases heq
  all_goals
    rename_i heq
    obtain ⟨rfl, -⟩ := List.cons.inj heq
    exact absurd h (by decide)

/-- A string starts with a quote, behind which it is read. -/
theorem exists_scanString (s : String) (r : List Char) :
    ∃ cs, (renderString s).toList ++ r = '"' :: cs ∧ scanString (some []) none cs = some (some s, r) := by
  refine ⟨s.toList.flatMap escapeChar ++ '"' :: r, ?_, ?_⟩
  · simp [renderString]
  · rw [scanString_escaped, List.reverse_nil, List.nil_append, String.ofList_toList]

theorem scanValue_string (fuel : Nat) (s : String) (r : List Char) :
    scanValue (fuel + 1) ((renderString s).toList ++ r) = (.string s, some r) := by
  obtain ⟨cs, hcs, hs⟩ := exists_scanString s r
  rw [hcs, scanValue, skipBlanks_cons rfl]
  simp only [hs]

theorem scanValue_array (fuel : Nat) {c : Char} (h : isBlank c = false) (hc : c ≠ ']')
    (cs : List Char) : scanValue (fuel + 1) ('[' :: c :: cs)
      = (.array (scanItems fuel (c :: cs)).1 (scanItems fuel (c :: cs)).2.isSome,
          (scanItems fuel (c :: cs)).2) := by
  rw [scanValue, skipBlanks_cons rfl]
  simp only [skipBlanks_cons h]
  split
  · rename_i heq
    exact absurd (List.cons.inj heq).1 hc
  · rfl

theorem scanValue_object (fuel : Nat) (cs : List Char) :
    scanValue (fuel + 1) ('\x7b' :: '"' :: cs)
      = (.object (scanFields fuel ('"' :: cs)).1 (scanFields fuel ('"' :: cs)).2.isSome,
          (scanFields fuel ('"' :: cs)).2) := by
  rw [scanValue, skipBlanks_cons rfl]
  rfl

/-! ## 4. Reading what was written -/

theorem itemsChars_cons_cons (j j' : Json) (items : List Json) :
    itemsChars (j :: j' :: items) = j.compact.toList ++ ',' :: itemsChars (j' :: items) := by
  simp [itemsChars, List.intercalate_cons_cons]

theorem itemsChars_singleton (j : Json) : itemsChars [j] = j.compact.toList := by
  simp [itemsChars]

theorem fieldsChars_cons_cons (f f' : String × Json) (fields : List (String × Json)) :
    fieldsChars (f :: f' :: fields) = fieldChars f ++ ',' :: fieldsChars (f' :: fields) := by
  simp [fieldsChars, List.intercalate_cons_cons]

theorem fieldsChars_singleton (f : String × Json) : fieldsChars [f] = fieldChars f := by
  simp [fieldsChars]

theorem scanItems_last {fuel : Nat} {cs r : List Char} {d : Draft}
    (h : scanValue fuel cs = (d, some (']' :: r))) : scanItems (fuel + 1) cs = ([d], some r) := by
  rw [scanItems, h]
  rfl

theorem scanItems_more {fuel : Nat} {cs r : List Char} {d : Draft}
    (h : scanValue fuel cs = (d, some (',' :: r))) :
    scanItems (fuel + 1) cs = (d :: (scanItems fuel r).1, (scanItems fuel r).2) := by
  rw [scanItems, h]
  rfl

theorem scanFields_last {fuel : Nat} {name : String} {cs r : List Char} {d : Draft}
    (h : scanValue fuel cs = (d, some ('\x7d' :: r))) :
    scanFields (fuel + 1) ((renderString name).toList ++ ':' :: cs) = ([(some name, d)], some r) := by
  obtain ⟨cs', hcs, hs⟩ := exists_scanString name (':' :: cs)
  rw [hcs, scanFields, skipBlanks_cons rfl]
  simp only [hs, skipBlanks_cons (show isBlank ':' = false from rfl), h]
  rfl

theorem scanFields_more {fuel : Nat} {name : String} {cs r : List Char} {d : Draft}
    (h : scanValue fuel cs = (d, some (',' :: r))) :
    scanFields (fuel + 1) ((renderString name).toList ++ ':' :: cs)
      = ((some name, d) :: (scanFields fuel r).1, (scanFields fuel r).2) := by
  obtain ⟨cs', hcs, hs⟩ := exists_scanString name (':' :: cs)
  rw [hcs, scanFields, skipBlanks_cons rfl]
  simp only [hs, skipBlanks_cons (show isBlank ':' = false from rfl), h]
  rfl

/-- A field starts with a quote. -/
theorem exists_cons_of_fields {fields : List (String × Json)} (h : fields ≠ []) :
    ∃ cs, fieldsChars fields = '"' :: cs := by
  match fields, h with
  | [f], _ =>
    rw [fieldsChars_singleton, fieldChars, renderString, String.toList_ofList]
    exact ⟨_, rfl⟩
  | f :: _ :: _, _ =>
    rw [fieldsChars_cons_cons, fieldChars, renderString, String.toList_ofList]
    exact ⟨_, rfl⟩

theorem exists_cons_of_items {items : List Json} (h : items ≠ []) (hitems : IsExactItems items) :
    ∃ c cs, itemsChars items = c :: cs ∧ isBlank c = false ∧ c ≠ ']' := by
  match items, h with
  | [j], _ =>
    rw [itemsChars_singleton]
    exact exists_cons_of_compact hitems.1
  | j :: _ :: _, _ =>
    obtain ⟨c, cs, hcs, hc⟩ := exists_cons_of_compact hitems.1
    rw [itemsChars_cons_cons, hcs]
    exact ⟨c, _, rfl, hc⟩

/-- Whether the text of a value is read as that value up to where it ends, with fuel of twice its
length and as many levels as it has. -/
def IsRead (j : Json) : Prop :=
  ∀ ⦃fuel : Nat⦄ ⦃r : List Char⦄, Ends r → 2 * j.compact.toList.length ≤ fuel →
    ∃ d, scanValue fuel (j.compact.toList ++ r) = (d, some r) ∧
      ∀ depth, j.depth ≤ depth → d.value? depth = some j

/-- Items are read up to the closing bracket. -/
theorem exists_scanItems {items : List Json} (hread : ∀ j ∈ items, j.IsRead) (hne : items ≠ [])
    {fuel : Nat} {r : List Char} (hfuel : 2 * (itemsChars items).length + 1 ≤ fuel) :
    ∃ ds, scanItems fuel (itemsChars items ++ ']' :: r) = (ds, some r) ∧
      ∀ depth, depthItems items ≤ depth → Draft.values? depth ds = some items := by
  induction items generalizing fuel with
  | nil => exact absurd rfl hne
  | cons j items ih =>
    obtain ⟨fuel, rfl⟩ := Nat.exists_eq_add_of_le' (by omega : 1 ≤ fuel)
    obtain ⟨hj, hitems⟩ := List.forall_mem_cons.mp hread
    cases items with
    | nil =>
      rw [itemsChars_singleton] at hfuel ⊢
      obtain ⟨d, hd, hvalue⟩ := hj (ends_cons (.inr (.inl rfl)))
        (by omega : 2 * j.compact.toList.length ≤ fuel)
      refine ⟨_, scanItems_last hd, fun depth hdepth => ?_⟩
      rw [depthItems, Nat.max_le] at hdepth
      simp [Draft.values?, hvalue depth hdepth.1]
    | cons j' items =>
      rw [itemsChars_cons_cons] at hfuel ⊢
      rw [List.length_append, List.length_cons] at hfuel
      obtain ⟨d, hd, hvalue⟩ := hj (r := ',' :: (itemsChars (j' :: items) ++ ']' :: r))
        (ends_cons (.inl rfl)) (by omega : 2 * j.compact.toList.length ≤ fuel)
      obtain ⟨ds, hds, hvalues⟩ := ih hitems (List.cons_ne_nil j' items)
        (by omega : 2 * (itemsChars (j' :: items)).length + 1 ≤ fuel)
      refine ⟨d :: ds, ?_, fun depth hdepth => ?_⟩
      · rw [List.append_assoc, List.cons_append, scanItems_more hd, hds]
      · rw [depthItems, Nat.max_le] at hdepth
        simp [Draft.values?, hvalue depth hdepth.1, hvalues depth hdepth.2]

/-- Fields are read up to the closing brace. -/
theorem exists_scanFields {fields : List (String × Json)} (hread : ∀ f ∈ fields, f.2.IsRead)
    (hne : fields ≠ []) {fuel : Nat} {r : List Char}
    (hfuel : 2 * (fieldsChars fields).length + 1 ≤ fuel) :
    ∃ ds, scanFields fuel (fieldsChars fields ++ '\x7d' :: r) = (ds, some r) ∧
      ∀ depth, depthFields fields ≤ depth → Draft.fieldValues? depth ds = some fields := by
  induction fields generalizing fuel with
  | nil => exact absurd rfl hne
  | cons f fields ih =>
    obtain ⟨fuel, rfl⟩ := Nat.exists_eq_add_of_le' (by omega : 1 ≤ fuel)
    obtain ⟨hf, hfields⟩ := List.forall_mem_cons.mp hread
    cases fields with
    | nil =>
      rw [fieldsChars_singleton, fieldChars] at hfuel ⊢
      rw [List.length_append, List.length_cons] at hfuel
      obtain ⟨d, hd, hvalue⟩ := hf (ends_cons (.inr (.inr rfl)))
        (by omega : 2 * f.2.compact.toList.length ≤ fuel)
      refine ⟨[(some f.1, d)], ?_, fun depth hdepth => ?_⟩
      · rw [List.append_assoc, List.cons_append, scanFields_last hd]
      · rw [depthFields, Nat.max_le] at hdepth
        simp [Draft.fieldValues?, hvalue depth hdepth.1]
    | cons f' fields =>
      rw [fieldsChars_cons_cons, fieldChars] at hfuel ⊢
      rw [List.length_append, List.length_append, List.length_cons, List.length_cons] at hfuel
      obtain ⟨d, hd, hvalue⟩ := hf (r := ',' :: (fieldsChars (f' :: fields) ++ '\x7d' :: r))
        (ends_cons (.inl rfl)) (by omega : 2 * f.2.compact.toList.length ≤ fuel)
      obtain ⟨ds, hds, hvalues⟩ := ih hfields (List.cons_ne_nil f' fields)
        (by omega : 2 * (fieldsChars (f' :: fields)).length + 1 ≤ fuel)
      refine ⟨(some f.1, d) :: ds, ?_, fun depth hdepth => ?_⟩
      · rw [List.append_assoc, List.append_assoc, List.cons_append, List.cons_append,
          scanFields_more hd, hds]
      · rw [depthFields, Nat.max_le] at hdepth
        simp [Draft.fieldValues?, hvalue depth hdepth.1, hvalues depth hdepth.2]

theorem isRead_null : Json.null.IsRead := by
  intro fuel r _ hfuel
  have hone : 1 ≤ fuel := Nat.le_trans (by decide) hfuel
  obtain ⟨fuel, rfl⟩ := Nat.exists_eq_add_of_le' hone
  exact ⟨.null, rfl, fun _ _ => rfl⟩

theorem isRead_bool (b : Bool) : (Json.bool b).IsRead := by
  intro fuel r _ hfuel
  have hone : 1 ≤ fuel := Nat.le_trans (by cases b <;> decide) hfuel
  obtain ⟨fuel, rfl⟩ := Nat.exists_eq_add_of_le' hone
  refine ⟨.bool b, ?_, fun _ _ => rfl⟩
  cases b <;> rfl

theorem isRead_number {n : JsonNumber} (hn : IsExactNumber n) : (Json.number n).IsRead := by
  intro fuel r hr hfuel
  obtain ⟨c, cs, hcs, hc⟩ := exists_cons_of_number hn
  obtain ⟨l, hl, hvalue⟩ := exists_scanNumeral? hn hr
  rw [compact, hcs] at hfuel ⊢
  rw [hcs] at hl
  rw [List.length_cons] at hfuel
  obtain ⟨fuel, rfl⟩ := Nat.exists_eq_add_of_le' (by omega : 1 ≤ fuel)
  refine ⟨_, scanValue_number hc fuel hl, fun _ _ => ?_⟩
  rw [Draft.value?, hvalue, Option.map_some]

theorem isRead_string (s : String) : (Json.string s).IsRead := by
  intro fuel r _ hfuel
  rw [compact, renderString, String.toList_ofList, List.cons_append, List.length_cons] at hfuel
  obtain ⟨fuel, rfl⟩ := Nat.exists_eq_add_of_le' (by omega : 1 ≤ fuel)
  exact ⟨_, scanValue_string fuel s r, fun _ _ => rfl⟩

theorem isRead_array {items : List Json} (hexact : IsExactItems items)
    (hread : ∀ j ∈ items, j.IsRead) : (Json.array items).IsRead := by
  intro fuel r _ hfuel
  rw [toList_compact_array] at hfuel ⊢
  rw [List.length_cons, List.length_append] at hfuel
  obtain ⟨fuel, rfl⟩ := Nat.exists_eq_add_of_le' (by omega : 1 ≤ fuel)
  rcases eq_or_ne items [] with rfl | hne
  · refine ⟨.array [] true, rfl, fun d hd => ?_⟩
    rw [Json.depth] at hd
    rw [Draft.value?, if_neg (by simp; omega)]
    rfl
  · obtain ⟨c, cs, hcs, hc, hclose⟩ := exists_cons_of_items hne hexact
    obtain ⟨ds, hds, hvalues⟩ := exists_scanItems hread hne (r := r)
      (by omega : 2 * (itemsChars items).length + 1 ≤ fuel)
    refine ⟨.array ds true, ?_, fun d hd => ?_⟩
    · rw [hcs, List.cons_append] at hds
      rw [hcs, List.cons_append, List.cons_append, List.cons_append,
        scanValue_array fuel hc hclose, List.append_assoc, List.singleton_append, hds]
      rfl
    · rw [Json.depth] at hd
      rw [Draft.value?, if_neg (by simp; omega), hvalues _ (by omega)]
      rfl

theorem isRead_object {fields : List (String × Json)} (hread : ∀ f ∈ fields, f.2.IsRead) :
    (Json.object fields).IsRead := by
  intro fuel r _ hfuel
  rw [toList_compact_object] at hfuel ⊢
  rw [List.length_cons, List.length_append] at hfuel
  obtain ⟨fuel, rfl⟩ := Nat.exists_eq_add_of_le' (by omega : 1 ≤ fuel)
  rcases eq_or_ne fields [] with rfl | hne
  · refine ⟨.object [] true, rfl, fun d hd => ?_⟩
    rw [Json.depth] at hd
    rw [Draft.value?, if_neg (by simp; omega)]
    rfl
  · obtain ⟨cs, hcs⟩ := exists_cons_of_fields hne
    obtain ⟨ds, hds, hvalues⟩ := exists_scanFields hread hne (r := r)
      (by omega : 2 * (fieldsChars fields).length + 1 ≤ fuel)
    refine ⟨.object ds true, ?_, fun d hd => ?_⟩
    · rw [hcs, List.cons_append] at hds
      rw [hcs, List.cons_append, List.cons_append, List.cons_append, scanValue_object,
        List.append_assoc, List.singleton_append, hds]
      rfl
    · rw [Json.depth] at hd
      rw [Draft.value?, if_neg (by simp; omega), hvalues _ (by omega)]
      rfl

mutual

theorem IsExact.isRead : ∀ {j : Json}, j.IsExact → j.IsRead
  | .null, _ => isRead_null
  | .bool b, _ => isRead_bool b
  | .number _, h => isRead_number h
  | .string s, _ => isRead_string s
  | .array _, h => isRead_array h (IsExactItems.isRead h)
  | .object _, h => isRead_object (IsExactFields.isRead h)
termination_by structural j => j

theorem IsExactItems.isRead : ∀ {items : List Json}, IsExactItems items → ∀ j ∈ items, j.IsRead
  | [], _ => List.forall_mem_nil _
  | _ :: _, h => List.forall_mem_cons.mpr ⟨h.1.isRead, IsExactItems.isRead h.2⟩
termination_by structural items => items

theorem IsExactFields.isRead : ∀ {fields : List (String × Json)},
    IsExactFields fields → ∀ f ∈ fields, f.2.IsRead
  | [], _ => List.forall_mem_nil _
  | (_, _) :: _, h => List.forall_mem_cons.mpr ⟨h.1.isRead, IsExactFields.isRead h.2⟩
termination_by structural fields => fields

end

/-- **The text of a value is read as that value**, if no depth is in the way. -/
theorem parseRaw?_compact {j : Json} (hj : j.IsExact) {depth : Nat} (hdepth : j.depth ≤ depth) :
    parseRaw? depth j.compact = some j := by
  obtain ⟨d, hd, hvalue⟩ := hj.isRead ends_nil
    (by omega : 2 * j.compact.toList.length ≤ 2 * j.compact.toList.length + 2)
  rw [List.append_nil] at hd
  have hread : read j.compact = ⟨d, true⟩ := by
    rw [read, hd]
    rfl
  rw [parseRaw?, hread]
  exact hvalue depth hdepth

/-- **Two values with one text are the same.** -/
theorem compact_injective {j j' : Json} (hj : j.IsExact) (hj' : j'.IsExact)
    (h : j.compact = j'.compact) : j = j' := by
  have hread := parseRaw?_compact hj (Nat.le_max_left j.depth j'.depth)
  rw [h, parseRaw?_compact hj' (Nat.le_max_right j.depth j'.depth)] at hread
  exact (Option.some.inj hread).symm

end Arbiter.Json
