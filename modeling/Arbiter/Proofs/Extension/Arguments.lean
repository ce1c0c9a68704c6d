/-
# The text of an extension value tells its kind

The texts of each kind have marks of their own (`ExtensionKind.Marks`): a decimal has just one point
(`Decimal.count_dot_of_parse`), a 256-bit number nothing but digits, and an IP value a slash, a
colon or three points (`IpAddress.marks_of_parse?`).  So the text of a value is read as no other
kind (`ExtensionValue.ofArgument_argument_eq_ok_iff`), and its constructor is the only function that
makes a value from it (`ExtensionValue.construct_argument_eq_ok_iff`).
-/
import Arbiter.Proofs.Value.Codec

namespace Arbiter

open Outcome

/-! ## 1. Characters between quotes -/

namespace Text

/-- The character stands for itself between quotes. -/
def Unescaped (c : Char) : Prop := c ≠ '"' ∧ c ≠ '\\'

instance (c : Char) : Decidable (Unescaped c) := inferInstanceAs (Decidable (_ ∧ _))

theorem unescaped_of_all {cs : List Char} (h : cs.all (fun c => decide (Unescaped c)) = true) :
    ∀ c ∈ cs, Unescaped c :=
  fun c hc => of_decide_eq_true (List.all_eq_true.mp h c hc)

theorem unescaped_of_isDigit {c : Char} (h : c.isDigit = true) : Unescaped c := by
  refine ⟨?_, ?_⟩ <;> rintro rfl <;> cases h

end Text

/-! ## 2. Decimals -/

namespace Decimal

theorem mem_of_parse {text : String} {d : Decimal} (h : parse text = .ok d) :
    ∀ c ∈ text.toList, c.isDigit = true ∨ c = '-' ∨ c = '.' := by
  obtain ⟨l, hform, -, hchars, -⟩ := parse_eq_ok_iff.mp h
  intro c hc
  rw [← hchars, Literal.chars, List.append_assoc, List.mem_append, List.mem_append,
    List.mem_cons] at hc
  rcases hc with hc | hc | rfl | hc
  · split at hc
    · exact Or.inr (Or.inl (List.mem_singleton.mp hc))
    · cases hc
  · exact Or.inl (hform.whole_digits c hc)
  · exact Or.inr (Or.inr rfl)
  · exact Or.inl (hform.fraction_digits c hc)

/-- A decimal has just one point. -/
theorem count_dot_of_parse {text : String} {d : Decimal} (h : parse text = .ok d) :
    text.toList.count '.' = 1 := by
  obtain ⟨l, hform, -, hchars, -⟩ := parse_eq_ok_iff.mp h
  have hdigits {cs : List Char} (hcs : ∀ c ∈ cs, c.isDigit = true) : cs.count '.' = 0 :=
    List.count_eq_zero.mpr fun hmem => nomatch hcs '.' hmem
  have hsign : (if l.negative then ['-'] else []).count '.' = 0 := by
    cases l.negative <;> rfl
  rw [← hchars, Literal.chars, List.count_append, List.count_append, List.count_cons_self, hsign,
    hdigits hform.whole_digits, hdigits hform.fraction_digits]

end Decimal

/-! ## 3. IP values -/

namespace IpAddress

variable {rules : Rules}

theorem takeDigits_suffix (base : Nat) : ∀ cs : List Char, (takeDigits base cs).2 <:+ cs
  | [] => List.suffix_refl _
  | c :: cs => by
    rw [takeDigits]
    split
    · exact (takeDigits_suffix base cs).trans (List.suffix_cons c cs)
    · exact List.suffix_refl _

/-- What is left behind a numeral is an end of the text. -/
theorem suffix_of_readNumber? {base width limit n : Nat} {leadingZeros : Bool}
    {cs rest : List Char} (h : readNumber? base width limit leadingZeros cs = some (n, rest)) :
    rest <:+ cs :=
  snd_of_readNumber? h ▸ takeDigits_suffix base cs

theorem eq_cons_of_readChar? {c : Char} {cs rest : List Char} (h : readChar? c cs = some rest) :
    cs = c :: rest := by
  cases cs with
  | nil => cases h
  | cons d r =>
    rw [readChar?] at h
    split at h
    · rename_i heq
      cases h
      rw [heq]
    · cases h

/-- An octet behind a point. -/
theorem suffix_of_octet {cs cs' rest : List Char} {n : Nat} (hdot : readChar? '.' cs = some cs')
    (hoctet : readOctet? rules cs' = some (n, rest)) :
    rest <:+ cs ∧ rest.count '.' + 1 ≤ cs.count '.' := by
  have hsuffix : rest <:+ cs' := suffix_of_readNumber? hoctet
  rw [eq_cons_of_readChar? hdot, List.count_cons_self]
  exact ⟨hsuffix.trans (List.suffix_cons _ _), Nat.succ_le_succ (hsuffix.count_le '.')⟩

/-- Four octets have three points between them. -/
theorem suffix_of_readV4? {cs rest : List Char} {n : Nat} (h : readV4? rules cs = some (n, rest)) :
    rest <:+ cs ∧ 3 ≤ cs.count '.' := by
  unfold readV4? at h
  simp only [Option.bind_eq_bind, Option.bind_eq_some_iff] at h
  obtain ⟨_, h₀, _, hdot₁, _, h₁, _, hdot₂, _, h₂, _, hdot₃, _, h₃, h⟩ := h
  cases h
  have hsuffix₀ := suffix_of_readNumber? h₀
  obtain ⟨hsuffix₁, hcount₁⟩ := suffix_of_octet hdot₁ h₁
  obtain ⟨hsuffix₂, hcount₂⟩ := suffix_of_octet hdot₂ h₂
  obtain ⟨hsuffix₃, hcount₃⟩ := suffix_of_octet hdot₃ h₃
  have hcount₀ := hsuffix₀.count_le '.'
  exact ⟨hsuffix₃.trans (hsuffix₂.trans (hsuffix₁.trans hsuffix₀)), by omega⟩

theorem readChar?_of_notMem {c : Char} {cs : List Char} (h : c ∉ cs) : readChar? c cs = none := by
  cases hread : readChar? c cs with
  | none => rfl
  | some rest => exact absurd (eq_cons_of_readChar? hread ▸ List.mem_cons_self) h

/-- Without a colon there is no group but the first. -/
theorem readGroups_of_notMem {cs : List Char} (hcs : ':' ∉ cs) (room : Nat) :
    readGroups rules room false cs = ⟨[], false, cs⟩ := by
  cases room with
  | zero => rfl
  | succ room => simp [readGroups, beforeGroup?, readChar?_of_notMem hcs]

/-- Without a colon there are two groups at most, and no colon behind them. -/
theorem length_readGroups_le {cs : List Char} (hcs : ':' ∉ cs) (room : Nat) :
    (readGroups rules room true cs).values.length ≤ 2 ∧
      ':' ∉ (readGroups rules room true cs).rest := by
  cases room with
  | zero => exact ⟨Nat.zero_le 2, hcs⟩
  | succ room =>
    rw [readGroups]
    split
    · rename_i n rest hv4
      split at hv4
      · cases hv4
      · have hsuffix := (suffix_of_readV4? hv4).1
        exact ⟨Nat.le_refl 2, fun hmem => hcs (hsuffix.subset hmem)⟩
    · split
      · rename_i g rest hgroup
        have hrest : ':' ∉ rest := fun hmem => hcs ((suffix_of_readNumber? hgroup).subset hmem)
        rw [readGroups_of_notMem hrest]
        exact ⟨Nat.le_succ 1, hrest⟩
      · exact ⟨Nat.zero_le 2, hcs⟩

/-- Eight groups have a colon. -/
theorem colon_mem_of_readV6? {cs : List Char} {r : Nat × List Char}
    (h : readV6? rules cs = some r) : ':' ∈ cs := by
  by_contra hcs
  obtain ⟨hlen, hrest⟩ := length_readGroups_le hcs groupCount
  have hshort : (readGroups rules groupCount true cs).values.length ≠ groupCount :=
    Nat.ne_of_lt (Nat.lt_of_le_of_lt hlen (by decide))
  unfold readV6? at h
  simp only [if_neg hshort, readChar?_of_notMem hrest] at h
  split at h
  · cases h
  · cases h

/-- The text of an IP value has a slash, a colon or three points. -/
theorem marks_of_parse? {text : String} {a : IpAddress} (h : parse? text = some a) :
    '/' ∈ text.toList ∨ ':' ∈ text.toList ∨ 3 ≤ text.toList.count '.' := by
  unfold parse? at h
  simp only [List.contains_iff_mem] at h
  split at h
  · exact Or.inl ‹_›
  · unfold parseAddress? at h
    split at h
    · rename_i hv4
      exact Or.inr (Or.inr (suffix_of_readV4? hv4).2)
    · obtain ⟨r, hv6, -⟩ := Option.bind_eq_some_iff.mp h
      exact Or.inr (Or.inl (colon_mem_of_readV6? hv6))

/-! A written IP value has digits, points, colons and a slash. -/

theorem unescaped_toDigits {base : Nat} (h₁ : 1 < base) (h₁₆ : base ≤ 16) (n : Nat) :
    ∀ c ∈ Nat.toDigits base n, Text.Unescaped c := by
  have hdigit : ∀ d < 16, Text.Unescaped (Nat.digitChar d) := by decide
  obtain ⟨ds, hds, hlt, -⟩ := Digits.exists_digits h₁ n
  rw [hds, List.forall_mem_map]
  exact fun d hd => hdigit d (Nat.lt_of_lt_of_le (hlt d hd) h₁₆)

theorem unescaped_charsV4 (n : Nat) : ∀ c ∈ charsV4 n, Text.Unescaped c := by
  have hdot : Text.Unescaped '.' := by decide
  have hdecimal (k : Nat) : ∀ c ∈ decimal k, Text.Unescaped c :=
    unescaped_toDigits (by decide) (by decide) k
  simp only [charsV4, List.forall_mem_append, List.forall_mem_cons]
  exact ⟨⟨⟨hdecimal _, hdot, hdecimal _⟩, hdot, hdecimal _⟩, hdot, hdecimal _⟩

theorem unescaped_charsGroups (gs : List Nat) : ∀ c ∈ charsGroups gs, Text.Unescaped c := by
  have hdigits (g : Nat) : ∀ c ∈ Nat.toDigits 16 g, Text.Unescaped c :=
    unescaped_toDigits (by decide) (by decide) g
  cases gs with
  | nil => exact List.forall_mem_nil _
  | cons g gs =>
    rw [charsGroups_cons, List.forall_mem_append]
    refine ⟨hdigits g, fun c hc => ?_⟩
    obtain ⟨g', -, hc⟩ := List.mem_flatMap.mp hc
    rcases List.mem_cons.mp hc with rfl | hc
    · decide
    · exact hdigits g' c hc

theorem unescaped_charsV6 (n : Nat) : ∀ c ∈ charsV6 n, Text.Unescaped c := by
  have hcolon : Text.Unescaped ':' := by decide
  have hzero : ∀ c ∈ "::ffff:".toList, Text.Unescaped c :=
    Text.unescaped_of_all (by decide)
  unfold charsV6
  simp only
  split
  · exact List.forall_mem_append.mpr ⟨hzero, unescaped_charsV4 _⟩
  · split
    · simp only [List.forall_mem_append]
      refine ⟨⟨unescaped_charsGroups _, ?_⟩, unescaped_charsGroups _⟩
      exact List.forall_mem_cons.mpr ⟨hcolon, List.forall_mem_singleton.mpr hcolon⟩
    · exact unescaped_charsGroups _

theorem unescaped_render (a : IpAddress) : ∀ c ∈ a.render.toList, Text.Unescaped c := by
  rw [render, String.toList_ofList, List.forall_mem_append, List.forall_mem_cons]
  refine ⟨?_, by decide, unescaped_toDigits (by decide) (by decide) _⟩
  cases a with
  | v4 net => exact unescaped_charsV4 _
  | v6 net => exact unescaped_charsV6 _

end IpAddress

/-! ## 4. Extension values -/

/-- The marks of the texts of a kind. -/
def ExtensionKind.Marks : ExtensionKind → List Char → Prop
  | .decimal, cs => '/' ∉ cs ∧ ':' ∉ cs ∧ cs.count '.' = 1
  | .ipaddr, cs => '/' ∈ cs ∨ ':' ∈ cs ∨ 3 ≤ cs.count '.'
  | .u256, cs => '/' ∉ cs ∧ ':' ∉ cs ∧ cs.count '.' = 0

/-- No text has the marks of two kinds. -/
theorem ExtensionKind.Marks.eq {kind kind' : ExtensionKind} {cs : List Char} (h : kind.Marks cs)
    (h' : kind'.Marks cs) : kind = kind' := by
  cases kind <;> cases kind' <;> simp only [Marks] at h h' <;> first | rfl | grind

theorem ExtensionFunction.named_eq_ok_iff {name : String} {f : ExtensionFunction} :
    named name = .ok f ↔ f.name = name := by
  constructor
  · intro h
    unfold named at h
    split at h
    · rename_i hfind
      cases h
      unfold ofName? at hfind
      have hname := List.find?_some hfind
      exact beq_iff_eq.mp hname
    · cases h
  · rintro rfl
    rw [named, ofName?_name]

namespace ExtensionValue

variable {v w : ExtensionValue} {kind kind' : ExtensionKind} {name text : String}

/-- A text that is read as a value of a kind has the marks of the kind. -/
theorem marks_of_ofArgument (h : ofArgument kind text = .ok v) : kind.Marks text.toList := by
  cases kind with
  | decimal =>
    unfold ofArgument at h
    simp only at h
    split at h
    · rename_i d hd
      have hchars := Decimal.mem_of_parse hd
      refine ⟨fun hmem => ?_, fun hmem => ?_, Decimal.count_dot_of_parse hd⟩
      · simpa using hchars _ hmem
      · simpa using hchars _ hmem
    · cases h
  | ipaddr =>
    unfold ofArgument at h
    simp only at h
    split at h
    · exact IpAddress.marks_of_parse? ‹_›
    · cases h
  | u256 =>
    unfold ofArgument at h
    simp only at h
    split at h
    · rename_i n hn
      have hdigits := (U256.parse_eq_ok_iff.mp hn).2.1
      have hnone (c : Char) (hc : c.isDigit = false) : c ∉ text.toList := fun hmem =>
        Bool.false_ne_true (hc.symm.trans (hdigits c hmem))
      exact ⟨hnone _ rfl, hnone _ rfl, List.count_eq_zero.mpr (hnone _ rfl)⟩
    · cases h

/-- **The text of a value is the text of no value of another kind.** -/
theorem ofArgument_argument_eq_ok_iff :
    ofArgument kind v.argument = .ok w ↔ kind = v.kind ∧ w = v := by
  constructor
  · intro h
    obtain rfl : kind = v.kind :=
      (marks_of_ofArgument h).eq (marks_of_ofArgument v.ofArgument_argument)
    rw [ofArgument_argument] at h
    exact ⟨rfl, (Except.ok.inj h).symm⟩
  · rintro ⟨rfl, rfl⟩
    exact w.ofArgument_argument

/-- Only constructors make extension values from a text. -/
theorem call_string_eq_ext_iff {f : ExtensionFunction} :
    f.call [.string text] = .ok (.ext v) ↔
      ∃ kind, f = .make kind ∧ ofArgument kind text = .ok v := by
  cases f with
  | make kind =>
    have hcall : ExtensionFunction.call (.make kind) [.string text]
        = ExtensionFunction.construct kind text >>= fun v => .ok (.ext v) := rfl
    simp only [hcall, bind_eq_ok_iff, ExtensionFunction.construct, mapError_eq_ok_iff,
      Except.ok.injEq, Value.ext.injEq, exists_eq_right, ExtensionFunction.make.injEq,
      exists_eq_left']
  | _ =>
    constructor
    · intro h
      cases h
    · rintro ⟨kind, hf, -⟩
      cases hf

/-- A text makes a value by the constructor of a kind of which it is the text. -/
theorem construct_eq_ok_iff : construct name text = .ok v ↔
    ∃ kind, name = ExtensionFunction.makeName kind ∧ ofArgument kind text = .ok v := by
  constructor
  · intro h
    obtain ⟨f, hf, h⟩ := bind_eq_ok_iff.mp h
    obtain ⟨x, hx, h⟩ := bind_eq_ok_iff.mp h
    split at h
    · cases h
      obtain ⟨kind, rfl, hv⟩ := call_string_eq_ext_iff.mp hx
      exact ⟨kind, (ExtensionFunction.named_eq_ok_iff.mp hf).symm, hv⟩
    · cases h
  · rintro ⟨kind, rfl, hv⟩
    have hnamed : ExtensionFunction.named (ExtensionFunction.makeName kind) = .ok (.make kind) :=
      ExtensionFunction.named_eq_ok_iff.mpr rfl
    have hcall := call_string_eq_ext_iff.mpr ⟨kind, rfl, hv⟩
    unfold construct
    rw [hnamed, ok_bind, hcall]
    rfl

/-- The text of a value is taken by no constructor but its own. -/
theorem construct_argument_eq_ok_iff :
    construct name v.argument = .ok w ↔ name = ExtensionFunction.makeName v.kind ∧ w = v := by
  simp only [construct_eq_ok_iff, ofArgument_argument_eq_ok_iff]
  constructor
  · rintro ⟨kind, rfl, rfl, rfl⟩
    exact ⟨rfl, rfl⟩
  · rintro ⟨rfl, rfl⟩
    exact ⟨_, rfl, rfl, rfl⟩

/-- The text of a value has no quotes and no backslashes. -/
theorem unescaped_argument (v : ExtensionValue) : ∀ c ∈ v.argument.toList, Text.Unescaped c := by
  cases v with
  | decimal d =>
    intro c hc
    rcases Decimal.mem_of_parse (Decimal.parse_render d) c hc with hc | rfl | rfl
    · exact Text.unescaped_of_isDigit hc
    · decide
    · decide
  | ipaddr a => exact a.unescaped_render
  | u256 n =>
    intro c hc
    exact Text.unescaped_of_isDigit ((U256.parse_eq_ok_iff.mp (U256.parse_render n)).2.1 c hc)

end ExtensionValue

end Arbiter
