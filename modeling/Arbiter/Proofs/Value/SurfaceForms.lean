/-
# All documents of an extension value give the value

An extension value has many documents (`ExtensionValue.SurfaceForm`): its constructor with its text,
the call as text with blanks in the gaps, and its constructor with any document of the value as
argument.  All of them are read as the value (`ofJson_of_surfaceForm`), since the text of a value
stands between quotes as it is (`CallText.ofChars?_call`).  An argument that is read as a value
is taken by the constructor of that value alone (`ofJson_extension_eq_ok_iff`).

The text of an entity is never taken for a call, because behind the first identifier of its type
stands a colon (`CallText.ofChars?_render`).
-/
import Arbiter.Proofs.Entity.Text
import Arbiter.Proofs.Extension.Arguments

namespace Arbiter

open Outcome

/-! ## 1. Calls as text -/

/-- The call that makes a value, with something in the gaps between its parts and around them. -/
def ExtensionValue.spaced (v : ExtensionValue) (gap : Fin 5 → String) : String :=
  gap 0 ++ ExtensionFunction.makeName v.kind ++ gap 1 ++ "(" ++ gap 2 ++ "\"" ++ v.argument ++ "\""
    ++ gap 3 ++ ")" ++ gap 4

namespace Value

theorem untilQuote?_append {cs : List Char} (hcs : ∀ c ∈ cs, Text.Unescaped c) (rest : List Char) :
    untilQuote? (cs ++ '"' :: rest) = some (cs, rest) := by
  induction cs with
  | nil => rfl
  | cons c cs ih =>
    obtain ⟨⟨hquote, hslash⟩, hcs⟩ := List.forall_mem_cons.mp hcs
    rw [List.cons_append, untilQuote?, ih hcs]
    · rfl
    · exact hquote
    · exact fun _ _ h => absurd h hslash
    · exact fun h => absurd h hslash

theorem dropBackslash_of_unescaped {cs : List Char} (hcs : ∀ c ∈ cs, Text.Unescaped c) (c : Char) :
    dropBackslash c cs = cs := by
  induction cs with
  | nil => rfl
  | cons d cs ih =>
    obtain ⟨⟨-, hslash⟩, hcs⟩ := List.forall_mem_cons.mp hcs
    rw [dropBackslash, ih hcs]
    exact fun _ _ h => absurd h hslash

theorem afterMark?_append {before : List Char} (hbefore : ∀ c ∈ before, Text.isBlank c = true)
    {mark : Char} (hmark : Text.isBlank mark = false) (rest : List Char) :
    afterMark? mark (before ++ mark :: rest) = some rest := by
  unfold afterMark?
  rw [Text.dropWhile_isBlank_append hbefore hmark]
  exact if_pos rfl

namespace CallText

/-- The identifier at the start of a text. -/
theorem takeWhile_identifier {name rest : List Char}
    (hname : ∀ c ∈ name, EntityType.isIdentifierRest c = true)
    (hrest : ∀ c ∈ rest.head?, EntityType.isIdentifierRest c = false) :
    (name ++ rest).takeWhile EntityType.isIdentifierRest = name ∧
      (name ++ rest).dropWhile EntityType.isIdentifierRest = rest := by
  rw [List.takeWhile_append_of_pos hname, List.dropWhile_append_of_pos hname]
  cases rest with
  | nil => simp
  | cons c rest => simp [hrest c rfl]

/-- No identifier goes on with a blank or a parenthesis. -/
theorem isIdentifierRest_of_blanks {before : List Char}
    (hbefore : ∀ c ∈ before, Text.isBlank c = true) (rest : List Char) :
    ∀ c ∈ (before ++ '(' :: rest).head?, EntityType.isIdentifierRest c = false := by
  intro c hc
  cases before with
  | nil =>
    cases hc
    decide
  | cons d before =>
    obtain rfl : d = c := Option.some.inj hc
    by_contra h
    have hblank := EntityType.isBlank_of_isIdentifierRest (Bool.not_eq_false _ ▸ h)
    exact Bool.false_ne_true (hblank.symm.trans (hbefore d List.mem_cons_self))

/-- **A call is taken apart, whatever the blanks in its gaps are.** -/
theorem ofChars?_call {gap : Fin 5 → List Char} (hgap : ∀ i, ∀ c ∈ gap i, Text.isBlank c = true)
    {name argument : List Char} (hname : EntityType.isIdentifier name = true)
    (hargument : ∀ c ∈ argument, Text.Unescaped c) :
    ofChars? (gap 0 ++ (name ++ (gap 1 ++ '(' :: (gap 2 ++ '"' :: (argument ++ '"' ::
      (gap 3 ++ ')' :: gap 4)))))) = some ⟨name, argument⟩ := by
  have hrest := EntityType.isIdentifierRest_of_mem hname
  obtain ⟨c, r, rfl⟩ : ∃ c r, name = c :: r := by
    cases name with
    | nil => cases hname
    | cons c r => exact ⟨c, r, rfl⟩
  have hc : Text.isBlank c = false :=
    EntityType.isBlank_of_isIdentifierRest (hrest c List.mem_cons_self)
  have hstart := Text.dropWhile_isBlank_append (hgap 0) hc
  have hname' := takeWhile_identifier hrest (isIdentifierRest_of_blanks (hgap 1)
    (gap 2 ++ '"' :: (argument ++ '"' :: (gap 3 ++ ')' :: gap 4))))
  rw [List.cons_append] at hname'
  obtain ⟨htake, hdrop⟩ := hname'
  have hmark (i : Fin 5) {mark : Char} (h : Text.isBlank mark = false) (rest : List Char) :
      afterMark? mark (gap i ++ mark :: rest) = some rest := afterMark?_append (hgap i) h rest
  have hopen : Text.isBlank '(' = false := by decide
  have hquote : Text.isBlank '"' = false := by decide
  have hclose : Text.isBlank ')' = false := by decide
  have hend : (gap 4).all Text.isBlank = true := List.all_eq_true.mpr (hgap 4)
  unfold ofChars?
  simp only [List.cons_append, hstart, htake, hdrop, hname, hmark _ hopen, hmark _ hquote,
    hmark _ hclose, hend, untilQuote?_append hargument, Option.bind_eq_bind, Option.bind_some]
  rfl

/-- Behind the first identifier of a type stands a colon. -/
theorem exists_dropWhile_identifier {cs : List Char}
    (hcs : ∀ c ∈ cs, c = ':' ∨ EntityType.isIdentifierRest c = true) (rest : List Char) :
    ∃ r, (cs ++ ':' :: rest).dropWhile EntityType.isIdentifierRest = ':' :: r := by
  have hcolon : EntityType.isIdentifierRest ':' = false := by decide
  induction cs with
  | nil => exact ⟨rest, List.dropWhile_cons_of_neg (Bool.not_eq_true _ ▸ hcolon)⟩
  | cons c cs ih =>
    obtain ⟨rfl | hc, hcs⟩ := List.forall_mem_cons.mp hcs
    · exact ⟨_, List.dropWhile_cons_of_neg (Bool.not_eq_true _ ▸ hcolon)⟩
    · rw [List.cons_append, List.dropWhile_cons_of_pos hc]
      exact ih hcs

/-- **The text of an entity is no call.** -/
theorem ofChars?_render {u : EntityUid} (hu : u.type.IsValid) {before : List Char}
    (hbefore : ∀ c ∈ before, Text.isBlank c = true) (after : List Char) :
    ofChars? (before ++ (u.chars ++ after)) = none := by
  obtain ⟨r, hr⟩ := exists_dropWhile_identifier hu.eq_colon_or
    (':' :: '"' :: (u.id.toList.flatMap EntityUid.escapeChar ++ '"' :: after))
  have hchars : u.chars ++ after = u.type.name.toList ++ ':' :: ':' :: '"' ::
      (u.id.toList.flatMap EntityUid.escapeChar ++ '"' :: after) := by
    simp [EntityUid.chars]
  obtain ⟨c, name, hname, hstart⟩ := hu.exists_cons
  have hc : Text.isBlank c = false :=
    EntityType.isBlank_of_isIdentifierRest (EntityType.isIdentifierRest_of_start hstart)
  have hopen : afterMark? '(' (':' :: r) = none := by
    unfold afterMark?
    rw [List.dropWhile_cons_of_neg (by decide)]
    rfl
  rw [hname, List.cons_append] at hr hchars
  unfold ofChars?
  simp only [hchars, Text.dropWhile_isBlank_append hbefore hc, hr, hopen]
  split <;> rfl

end CallText

/-! ## 2. Values given as text -/

variable {v w : ExtensionValue} {u : Value} {fields : List (String × Json)} {j : Json}

theorem isIdentifier_makeName (kind : ExtensionKind) :
    EntityType.isIdentifier (ExtensionFunction.makeName kind).toList = true := by
  cases kind <;> decide

/-- A call is read with any blanks in its gaps. -/
theorem ofExprText_spaced {gap : Fin 5 → String}
    (hgap : ∀ i, ∀ c ∈ (gap i).toList, Text.isBlank c = true) :
    ofExprText (v.spaced gap) = .ok (.ext v) := by
  have hcall : CallText.ofChars? (v.spaced gap).toList
      = some ⟨(ExtensionFunction.makeName v.kind).toList, v.argument.toList⟩ := by
    simpa [ExtensionValue.spaced] using
      CallText.ofChars?_call hgap (isIdentifier_makeName v.kind) v.unescaped_argument
  have htext : CallText.text ⟨(ExtensionFunction.makeName v.kind).toList, v.argument.toList⟩
      = v.argument := by
    simp only [CallText.text, dropBackslash_of_unescaped v.unescaped_argument, String.ofList_toList]
  unfold ofExprText
  rw [hcall]
  simp only [htext, String.ofList_toList, ofCall, ExtensionValue.construct_argument]

theorem spaced_empty : (v.spaced fun _ => "") = v.render := by
  refine String.toList_injective ?_
  simp [ExtensionValue.spaced, ExtensionValue.render]

/-- The text of an entity is read as the entity, blanks around it aside. -/
theorem ofExprText_pad_render {uid : EntityUid} (huid : uid.type.IsValid) {before after : String}
    (hbefore : ∀ c ∈ before.toList, Text.isBlank c = true)
    (hafter : ∀ c ∈ after.toList, Text.isBlank c = true) :
    ofExprText (before ++ uid.render ++ after) = .ok (.entity uid) := by
  have hcall : CallText.ofChars? (before ++ uid.render ++ after).toList = none := by
    simpa [EntityUid.render] using CallText.ofChars?_render huid hbefore after.toList
  unfold ofExprText
  simp only [hcall, EntityUid.parse_pad_render huid hbefore hafter]

theorem ofExprText_render {uid : EntityUid} (huid : uid.type.IsValid) :
    ofExprText uid.render = .ok (.entity uid) := by
  have hpad := @ofExprText_pad_render uid huid "" "" (by simp) (by simp)
  rwa [String.empty_append, String.append_empty] at hpad

/-! ## 3. Constructors with documents as arguments -/

theorem argumentOfJson_of_lookup : ∀ {fields : List (String × Json)},
    fields.lookup "arg" = some j → argumentOfJson fields = ofJson j
  | [], h => nomatch h
  | (name, i) :: fields, h => by
    rw [List.lookup_cons] at h
    rw [argumentOfJson]
    split at h
    · rename_i hname
      cases h
      rw [if_pos hname]
    · rename_i hname
      rw [if_neg (Bool.not_eq_true _ ▸ hname)]
      exact argumentOfJson_of_lookup h

/-- A constructor takes what its argument is read as. -/
theorem ofJson_extension_of_argument {x : Value} {text : String}
    (harg : fields.lookup "arg" = some j) (hj : ofJson j = .ok x)
    (htext : argumentText x = .ok text) :
    ofJson (.single extensionKey (.object fields)) = .ok u ↔
      ∃ name, fields.lookup "fn" = some (.string name) ∧ ofCall name text = .ok u := by
  have hne : extensionKey ≠ EntityUid.escapeKey := by decide
  unfold Json.single ofJson
  rw [if_neg hne, if_pos rfl]
  simp only [harg, Option.isSome_some, argumentOfJson_of_lookup harg, hj, ok_bind, htext]
  split
  · rename_i name hname _
    simp only [hname, Option.some.injEq, Json.string.injEq, exists_eq_left']
  · rename_i hname
    constructor
    · intro h
      cases h
    · rintro ⟨name, h, -⟩
      exact absurd rfl (hname name h)

theorem ofCall_argument_eq_ok_iff {name : String} : ofCall name v.argument = .ok u ↔
    name = ExtensionFunction.makeName v.kind ∧ u = .ext v := by
  unfold ofCall
  cases hread : ExtensionValue.construct name v.argument with
  | error cause =>
    constructor
    · intro h
      cases h
    · rintro ⟨rfl, -⟩
      cases hread.symm.trans v.construct_argument
  | ok w =>
    obtain ⟨rfl, rfl⟩ := ExtensionValue.construct_argument_eq_ok_iff.mp hread
    simp [eq_comm]

/-- **An argument that is read as a value is taken by the constructor of that value alone.** -/
theorem ofJson_extension_eq_ok_iff (harg : fields.lookup "arg" = some j)
    (hj : ofJson j = .ok (.ext v)) :
    ofJson (.single extensionKey (.object fields)) = .ok u ↔
      fields.lookup "fn" = some (.string (ExtensionFunction.makeName v.kind)) ∧ u = .ext v := by
  rw [ofJson_extension_of_argument harg hj rfl]
  simp only [ofCall_argument_eq_ok_iff, ← and_assoc, exists_and_right, exists_eq_right]

end Value

/-! ## 4. Surface forms -/

/-- The documents of an extension value: its constructor with its text, the call as text, and its
constructor with a document of the value as argument. -/
inductive ExtensionValue.SurfaceForm (v : ExtensionValue) : Json → Prop
  | text {fields : List (String × Json)}
    (hfn : fields.lookup "fn" = some (.string (ExtensionFunction.makeName v.kind)))
    (harg : fields.lookup "arg" = some (.string v.argument)) :
    SurfaceForm v (.single Value.extensionKey (.object fields))
  | call {gap : Fin 5 → String} (hgap : ∀ i, ∀ c ∈ (gap i).toList, Text.isBlank c = true) :
    SurfaceForm v (.single Value.exprKey (.string (v.spaced gap)))
  | nested {fields : List (String × Json)} {j : Json}
    (hfn : fields.lookup "fn" = some (.string (ExtensionFunction.makeName v.kind)))
    (harg : fields.lookup "arg" = some j) (hj : SurfaceForm v j) :
    SurfaceForm v (.single Value.extensionKey (.object fields))

namespace Value

variable {v : ExtensionValue} {j : Json}

theorem ofJson_expr (text : String) :
    ofJson (.single exprKey (.string text)) = ofExprText text := by
  have hne : exprKey ≠ EntityUid.escapeKey ∧ exprKey ≠ extensionKey := by decide
  unfold Json.single ofJson
  rw [if_neg hne.1, if_neg hne.2, if_pos rfl]

/-- **Every surface form of an extension value is read as the value.** -/
theorem ofJson_of_surfaceForm (h : v.SurfaceForm j) : ofJson j = .ok (.ext v) := by
  induction h with
  | text hfn harg =>
    refine (ofJson_extension_of_argument harg rfl rfl).mpr ⟨_, hfn, ?_⟩
    exact ofCall_argument_eq_ok_iff.mpr ⟨rfl, rfl⟩
  | call hgap => rw [ofJson_expr, ofExprText_spaced hgap]
  | nested hfn harg _ ih => exact (ofJson_extension_eq_ok_iff harg ih).mpr ⟨hfn, rfl⟩

/-- The documents that are written are surface forms. -/
theorem surfaceForm_extensionJson (v : ExtensionValue) : v.SurfaceForm (extensionJson v) :=
  .text rfl rfl

theorem surfaceForm_render (v : ExtensionValue) :
    v.SurfaceForm (.single exprKey (.string v.render)) := by
  rw [← spaced_empty]
  exact .call (by simp)

/-- **All surface forms of a value are read as the value.**  The text, the call with any blanks in
its gaps and the nested documents of an extension value give the value.  An argument that is read as
an extension value is refused by every constructor but the one of that value, which gives the value
itself.  An entity whose type has a valid name is read by type and id and from its text. -/
theorem surface_forms_agree :
    (∀ v : ExtensionValue, v.SurfaceForm (extensionJson v) ∧
      v.SurfaceForm (.single exprKey (.string v.render)) ∧
      ∀ j : Json, v.SurfaceForm j → ofJson j = .ok (.ext v)) ∧
    (∀ (w : ExtensionValue) (fields : List (String × Json)) (j : Json) (u : Value),
      fields.lookup "arg" = some j → ofJson j = .ok (.ext w) →
        (ofJson (.single extensionKey (.object fields)) = .ok u ↔
          fields.lookup "fn" = some (.string (ExtensionFunction.makeName w.kind)) ∧
            u = .ext w)) ∧
    ∀ uid : EntityUid, uid.type.IsValid →
      ofJson (entityJson uid) = .ok (.entity uid) ∧
        ofJson (.single exprKey (.string uid.render)) = .ok (.entity uid) := by
  refine ⟨fun v => ⟨surfaceForm_extensionJson v, surfaceForm_render v, fun _ =>
    ofJson_of_surfaceForm⟩, fun _ _ _ _ => ofJson_extension_eq_ok_iff, fun uid huid =>
    ⟨ofJson_entityJson uid, ?_⟩⟩
  rw [ofJson_expr, ofExprText_render huid]

/-! One half, as a call with blanks in its gaps that is twice the argument of its constructor; and an
address given to the constructor of numbers. -/

namespace Half

def half : ExtensionValue := .decimal ⟨5000⟩

def gap (i : Fin 5) : String := if i = 1 then "" else "\t "

def call : Json := .single exprKey (.string "\t decimal(\t \"0.5\"\t )\t ")

def made (name : String) (arg : Json) : Json :=
  .single extensionKey (.object [("arg", arg), ("fn", .string name)])

def net : ExtensionValue := .ipaddr (.ofV4 0x0a000001#32)

def ann : EntityUid := ⟨⟨"User"⟩, "ann(\"\")"⟩

theorem spaced_half : half.spaced gap = "\t decimal(\t \"0.5\"\t )\t " := by decide +kernel

theorem surfaceForm_made : half.SurfaceForm (made "decimal" (made "decimal" call)) := by
  have hcall : half.SurfaceForm call := by
    unfold call
    rw [← spaced_half]
    have hgap : ∀ i, (gap i).toList.all Text.isBlank = true := by decide
    exact .call fun i => List.all_eq_true.mp (hgap i)
  exact .nested rfl rfl (.nested rfl rfl hcall)

theorem surface_forms_agree_half :
    ofJson (made "decimal" (made "decimal" call)) = .ok (.ext half) ∧
      ofJson (made "u256" (extensionJson net)) ≠ .ok (.ext net) ∧
      ofJson (.single exprKey (.string ann.render)) = .ok (.entity ann) := by
  obtain ⟨hforms, hargument, hentity⟩ := surface_forms_agree
  refine ⟨(hforms half).2.2 _ surfaceForm_made, fun h => ?_, (hentity ann (by decide +kernel)).2⟩
  have hnet := (hforms net).2.2 (extensionJson net) (hforms net).1
  obtain ⟨hname, -⟩ := (hargument net _ _ _ rfl hnet).mp h
  exact absurd (Json.string.inj (Option.some.inj hname)) (by decide)

end Half

end Value

end Arbiter
