/-
# Expressions are read back from their documents

The name of a call stands where the names of the operators stand, and the name of a type is looked at
when it is read.  An expression that respects both and has plain literals (`Expr.Documented`) is read
back from its document (`Expr.ofJson_toJson`), and every expression that a document gives is one
(`Expr.documented_of_ofJson`).

Nothing else is read back: an expression that is put together in order (`Expr.Canonical`) comes back
from its document exactly if its names and literals are plain (`Expr.Plain`,
`Expr.lossless_documents`).
-/
import Arbiter.Expr.Json
import Arbiter.Proofs.Expr.Parts
import Arbiter.Proofs.Pattern.Codec
import Arbiter.Proofs.Value.Codec

namespace Arbiter

open Outcome

/-! ## 1. Names -/

theorem BinaryOp.ofName?_eq_none_iff {name : String} :
    ofName? name = none ↔ ∀ op : BinaryOp, op.name ≠ name := by
  constructor
  · intro h op hname
    rw [← hname, ofName?_name] at h
    cases h
  · intro h
    refine List.find?_eq_none.mpr fun op _ hop => ?_
    exact h op (beq_iff_eq.mp hop)

theorem EntityType.parse_name {t : EntityType} (h : t.IsValid) : parse t.name = .ok t := by
  have hvalid : isValidName t.name = true := h
  rw [parse, parse?, if_pos hvalid]

theorem EntityType.isValid_of_parse {name : String} {t : EntityType} (h : parse name = .ok t) :
    t.IsValid := by
  unfold parse parse? at h
  split at h
  · rename_i hparse
    cases h
    split at hparse
    · rename_i hvalid
      cases hparse
      exact hvalid
    · cases hparse
  · cases h

namespace Expr

/-! ## 2. Expressions with documents -/

/-- The names of operators that have nodes of their own. -/
def nodeKeys : List String :=
  ["Value", "Var", "Slot", "!", "neg", "isEmpty", "&&", "||", "if-then-else", ".", "has", "like",
    "is", "Set", "Record"]

/-- Whether a node with this name is read as a call. -/
def IsCallName (name : String) : Prop := name ∉ nodeKeys ∧ BinaryOp.ofName? name = none

/-- What documents give at a node. -/
def NodeDocumented : Expr → Prop
  | .value v => v.Canonical ∧ v.Plain
  | .isType _ t | .isTypeIn _ t _ => t.IsValid
  | .record attrs => SortedList.Ascending attrs
  | .call name _ => IsCallName name
  | _ => True

/-- Whether every part is what documents give. -/
def Documented (e : Expr) : Prop := e.AllParts NodeDocumented

theorem documented_iff {e : Expr} :
    e.Documented ↔ e.NodeDocumented ∧ ∀ c ∈ e.children, c.Documented := by
  unfold Documented
  rw [allParts_iff, List.forall_iff_forall_mem]

/-- How a node is put together: a literal is canonical, the attributes of a record are in the order
of their names. -/
def NodeCanonical : Expr → Prop
  | .value v => v.Canonical
  | .record attrs => SortedList.Ascending attrs
  | _ => True

/-- Whether every part is put together like this. -/
def Canonical (e : Expr) : Prop := e.AllParts NodeCanonical

/-- Whether a node is written like no other one: a literal has no record shaped like an escape, a
type has a name of a type, and a call has neither the name of a node nor that of an operator. -/
def NodePlain : Expr → Prop
  | .value v => v.Plain
  | .isType _ t | .isTypeIn _ t _ => t.IsValid
  | .call name _ => name ∉ nodeKeys ∧ ∀ op : BinaryOp, op.name ≠ name
  | _ => True

/-- Whether every part is written like no other one. -/
def Plain (e : Expr) : Prop := e.AllParts NodePlain

theorem nodeDocumented_iff : ∀ e : Expr, e.NodeDocumented ↔ e.NodeCanonical ∧ e.NodePlain
  | .value _ => Iff.rfl
  | .isType _ _ | .isTypeIn _ _ _ => (and_iff_right trivial).symm
  | .record _ => (and_iff_left trivial).symm
  | .call _ _ => by
    rw [NodeDocumented, IsCallName, BinaryOp.ofName?_eq_none_iff]
    exact (and_iff_right trivial).symm
  | .var _ | .not _ | .neg _ | .isEmpty _ | .and _ _ | .or _ _ | .ite _ _ _ | .binary _ _ _
  | .getAttr _ _ | .hasAttr _ _ | .like _ _ | .set _ => (and_iff_left trivial).symm

theorem documented_iff_canonical_and_plain {e : Expr} :
    e.Documented ↔ e.Canonical ∧ e.Plain := by
  constructor
  · intro h
    exact ⟨fun x hx => (nodeDocumented_iff x).mp (h x hx) |>.1,
      fun x hx => (nodeDocumented_iff x).mp (h x hx) |>.2⟩
  · rintro ⟨hcanonical, hplain⟩ x hx
    exact (nodeDocumented_iff x).mpr ⟨hcanonical x hx, hplain x hx⟩

/-! ## 3. Writing -/

theorem listToJson_eq_map (es : List Expr) : listToJson es = es.map toJson := by
  induction es with
  | nil => rfl
  | cons e es ih => rw [listToJson, ih, List.map_cons]

theorem fieldsToJson_eq_map (attrs : List (String × Expr)) :
    fieldsToJson attrs = attrs.map fun a => (a.1, a.2.toJson) := by
  induction attrs with
  | nil => rfl
  | cons a attrs ih => rw [fieldsToJson, ih, List.map_cons]

theorem isSorted_single {key : String} {j : Json} (h : j.IsSorted) : (Json.single key j).IsSorted :=
  ⟨List.pairwise_singleton _ _, h, trivial⟩

theorem isSorted_unaryJson {key : String} {j : Json} (h : j.IsSorted) :
    (unaryJson key j).IsSorted :=
  isSorted_single (isSorted_single h)

theorem isSorted_pairJson {key : String} {l r : Json} (hl : l.IsSorted) (hr : r.IsSorted) :
    (pairJson key l r).IsSorted := by
  have hnames : compare "left" "right" = Ordering.lt := by decide
  refine isSorted_single ⟨?_, hl, hr, trivial⟩
  simp [SortedList.Ascending, hnames]

theorem isSorted_attrJson {key attr : String} {j : Json} (h : j.IsSorted) :
    (attrJson key attr j).IsSorted := by
  have hnames : compare "attr" "left" = Ordering.lt := by decide
  refine isSorted_single ⟨?_, trivial, h, trivial⟩
  simp [SortedList.Ascending, hnames]

/-- The document of an expression is in canonical form. -/
theorem isSorted_toJson {e : Expr} (h : e.Canonical) : e.toJson.IsSorted := by
  induction e using induction_children with
  | step e ih =>
    have hnode : e.NodeCanonical := h.self
    have hsorted : ∀ c ∈ e.children, c.toJson.IsSorted := fun c hc => ih c hc (h.child hc)
    cases e with
    | value v => exact isSorted_single (Value.isSorted_toJson hnode)
    | var v => exact isSorted_single trivial
    | not e | neg e | isEmpty e => exact isSorted_unaryJson (hsorted e (by simp [children]))
    | and l r | or l r | binary _ l r =>
      exact isSorted_pairJson (hsorted l (by simp [children])) (hsorted r (by simp [children]))
    | ite c y n =>
      have hei : compare "else" "if" = Ordering.lt := by decide
      have het : compare "else" "then" = Ordering.lt := by decide
      have hit : compare "if" "then" = Ordering.lt := by decide
      refine isSorted_single ⟨?_, hsorted n (by simp [children]), hsorted c (by simp [children]),
        hsorted y (by simp [children]), trivial⟩
      simp [SortedList.Ascending, hei, het, hit]
    | getAttr e attr | hasAttr e attr => exact isSorted_attrJson (hsorted e (by simp [children]))
    | like e p =>
      have hnames : compare "left" "pattern" = Ordering.lt := by decide
      refine isSorted_single ⟨?_, hsorted e (by simp [children]), p.isSorted_toJson, trivial⟩
      simp [SortedList.Ascending, hnames]
    | isType e t =>
      have hnames : compare "entity_type" "left" = Ordering.lt := by decide
      refine isSorted_single ⟨?_, trivial, hsorted e (by simp [children]), trivial⟩
      simp [SortedList.Ascending, hnames]
    | isTypeIn e t target =>
      have htl : compare "entity_type" "left" = Ordering.lt := by decide
      have hti : compare "entity_type" "in" = Ordering.lt := by decide
      have hil : compare "in" "left" = Ordering.lt := by decide
      refine isSorted_single ⟨?_, trivial, hsorted target (by simp [children]),
        hsorted e (by simp [children]), trivial⟩
      simp [SortedList.Ascending, htl, hti, hil]
    | set items =>
      refine isSorted_single (Json.isSortedItems_iff.mpr ?_)
      rw [listToJson_eq_map]
      exact List.forall_mem_map.mpr hsorted
    | call name args =>
      refine isSorted_single (Json.isSortedItems_iff.mpr ?_)
      rw [listToJson_eq_map]
      exact List.forall_mem_map.mpr hsorted
    | record attrs =>
      refine isSorted_single ⟨?_, Json.isSortedFields_iff.mpr ?_⟩
      · rw [fieldsToJson_eq_map, SortedList.ascending_iff_keys, List.map_map]
        exact SortedList.ascending_iff_keys.mp hnode
      · rw [fieldsToJson_eq_map]
        exact List.forall_mem_map.mpr fun a ha => hsorted a.2 (List.mem_map_of_mem ha)

/-! ## 4. Reading what was written -/

theorem operandIn?_of_lookup {name : String} {j : Json} {e : Expr} (he : ofJson j = .ok e) :
    ∀ {fields : List (String × Json)}, fields.lookup name = some j →
      operandIn? name fields = .ok (some e)
  | (key, j') :: fields, h => by
    rw [List.lookup_cons] at h
    rw [operandIn?]
    split at h
    · rename_i hkey
      cases h
      rw [if_pos hkey, he]
      rfl
    · rename_i hkey
      rw [if_neg (by simp [hkey])]
      exact operandIn?_of_lookup he h

theorem operand_of_lookup {name : String} {fields : List (String × Json)} {j : Json} {e : Expr}
    (h : fields.lookup name = some j) (he : ofJson j = .ok e) :
    operand name (.object fields) = .ok e := by
  rw [operand, operandIn?_of_lookup he h]
  rfl

/-- A node with one operand, `key` being the name of `f`. -/
theorem ofJson_unaryJson {key : String} {f : Expr → Expr}
    (hkey : ∀ inner, ofJson (.single key inner) = (operand "arg" inner).map f) {e : Expr}
    (he : ofJson e.toJson = .ok e) : ofJson (unaryJson key e.toJson) = .ok (f e) := by
  rw [unaryJson, hkey, operand_of_lookup rfl he]
  rfl

/-- A node with two operands, `key` being the name of `f`. -/
theorem ofJson_pairJson {key : String} {f : Expr → Expr → Expr}
    (hkey : ∀ inner, ofJson (.single key inner)
      = do return f (← operand "left" inner) (← operand "right" inner)) {l r : Expr}
    (hl : ofJson l.toJson = .ok l) (hr : ofJson r.toJson = .ok r) :
    ofJson (pairJson key l.toJson r.toJson) = .ok (f l r) := by
  rw [pairJson, hkey, operand_of_lookup rfl hl, operand_of_lookup rfl hr]
  rfl

/-- A node that looks at an attribute, `key` being the name of `f`. -/
theorem ofJson_attrJson {key : String} {f : Expr → String → Expr}
    (hkey : ∀ inner, ofJson (.single key inner)
      = do return f (← operand "left" inner) (← stringField "attr" inner)) {e : Expr}
    (he : ofJson e.toJson = .ok e) (attr : String) :
    ofJson (attrJson key attr e.toJson) = .ok (f e attr) := by
  rw [attrJson, hkey, operand_of_lookup rfl he]
  rfl

theorem listOfJson_listToJson {es : List Expr} (h : ∀ e ∈ es, ofJson e.toJson = .ok e) :
    listOfJson (listToJson es) = .ok es := by
  induction es with
  | nil => rfl
  | cons e es ih =>
    obtain ⟨he, hes⟩ := List.forall_mem_cons.mp h
    rw [listToJson, listOfJson, he, ih hes]
    rfl

theorem fieldsOfJson_fieldsToJson {attrs : List (String × Expr)}
    (h : ∀ a ∈ attrs, ofJson a.2.toJson = .ok a.2) :
    fieldsOfJson (fieldsToJson attrs) = .ok attrs := by
  induction attrs with
  | nil => rfl
  | cons a attrs ih =>
    obtain ⟨ha, hattrs⟩ := List.forall_mem_cons.mp h
    rw [fieldsToJson, fieldsOfJson, ha, ih hattrs]
    rfl

/-- A node whose name is no operator is a call. -/
theorem ofJson_call {name : String} (h : IsCallName name) (args : List Json) :
    ofJson (.single name (.array args)) = (listOfJson args).map (.call name) := by
  obtain ⟨hkeys, hop⟩ := h
  simp only [nodeKeys, List.mem_cons, List.not_mem_nil, or_false, not_or] at hkeys
  simp [Json.single, ofJson, hkeys, hop]

theorem ofJson_is (inner : Json) : ofJson (.single "is" inner) = do
    let e ← operand "left" inner
    let t ← (EntityType.parse (← stringField "entity_type" inner)).mapError .typeName
    match ← operand? "in" inner with
    | some target => return isTypeIn e t target
    | none => return isType e t := rfl

/-- **An expression is read back from its document.** -/
theorem ofJson_toJson {e : Expr} (h : e.Documented) : ofJson e.toJson = .ok e := by
  induction e using induction_children with
  | step e ih =>
    obtain ⟨hnode, hchildren⟩ := documented_iff.mp h
    have hread : ∀ c ∈ e.children, ofJson c.toJson = .ok c := fun c hc => ih c hc (hchildren c hc)
    cases e with
    | value v =>
      have hkey : ofJson (value v).toJson
        = ((Value.ofJson v.toJson).map value).mapError ExprError.value := rfl
      rw [hkey, Value.ofJson_toJson hnode.1 hnode.2]
      rfl
    | var v =>
      have hvar : varOfJson (.string v.name) = .ok v := by simp only [varOfJson, Var.ofName?_name]
      exact congrArg (Except.map var) hvar
    | not e | neg e | isEmpty e =>
      exact ofJson_unaryJson (fun _ => rfl) (hread e (by simp [children]))
    | and l r | or l r =>
      exact ofJson_pairJson (fun _ => rfl) (hread l (by simp [children]))
        (hread r (by simp [children]))
    | binary op l r =>
      exact ofJson_pairJson (by cases op <;> exact fun _ => rfl) (hread l (by simp [children]))
        (hread r (by simp [children]))
    | getAttr e attr | hasAttr e attr =>
      exact ofJson_attrJson (fun _ => rfl) (hread e (by simp [children])) attr
    | ite c y n =>
      have hkey (inner : Json) : ofJson (.single "if-then-else" inner) = do
        return ite (← operand "if" inner) (← operand "then" inner) (← operand "else" inner) := rfl
      rw [toJson, hkey, operand_of_lookup rfl (hread c (by simp [children])),
        operand_of_lookup rfl (hread y (by simp [children])),
        operand_of_lookup rfl (hread n (by simp [children]))]
      rfl
    | like e p =>
      have hkey (inner : Json) : ofJson (.single "like" inner) = do
        let pattern ← patternField inner
        let e ← operand "left" inner
        return like e (← (Pattern.ofJson pattern).mapError .pattern) := rfl
      have hpattern : patternField (.object [("left", e.toJson), ("pattern", p.toJson)])
        = .ok p.toJson := rfl
      rw [toJson, hkey, hpattern, ok_bind, operand_of_lookup rfl (hread e (by simp [children])),
        Pattern.ofJson_toJson]
      rfl
    | isType e t =>
      have htype : EntityType.parse t.name = .ok t := EntityType.parse_name hnode
      have hfield : stringField "entity_type" (.object [("entity_type", .string t.name),
        ("left", e.toJson)]) = .ok t.name := rfl
      rw [toJson, ofJson_is, operand_of_lookup rfl (hread e (by simp [children])), ok_bind, hfield,
        ok_bind, htype]
      rfl
    | isTypeIn e t target =>
      have htype : EntityType.parse t.name = .ok t := EntityType.parse_name hnode
      have hfield : stringField "entity_type" (.object [("entity_type", .string t.name),
        ("in", target.toJson), ("left", e.toJson)]) = .ok t.name := rfl
      have htarget : operand? "in" (.object [("entity_type", .string t.name),
          ("in", target.toJson), ("left", e.toJson)]) = .ok (some target) :=
        operandIn?_of_lookup (hread target (by simp [children])) rfl
      rw [toJson, ofJson_is, operand_of_lookup rfl (hread e (by simp [children])), ok_bind, hfield,
        ok_bind, htype]
      simp only [Except.mapError, ok_bind, htarget]
      rfl
    | set items => exact congrArg (Except.map set) (listOfJson_listToJson hread)
    | record attrs =>
      have hattrs : fieldsOfJson (fieldsToJson attrs) = .ok attrs :=
        fieldsOfJson_fieldsToJson fun a ha => hread a.2 (List.mem_map_of_mem ha)
      have hkey (fields : List (String × Json)) : ofJson (.single "Record" (.object fields))
        = (fieldsOfJson fields).map recordOf := rfl
      rw [toJson, hkey, hattrs]
      exact congrArg (fun l => Except.ok (record l)) (SortedList.ofPairs_of_ascending hnode)
    | call name args =>
      have hargs : listOfJson (listToJson args) = .ok args := listOfJson_listToJson hread
      rw [toJson, ofJson_call hnode, hargs]
      rfl

/-! ## 5. What documents give -/

mutual

/-- **A document in canonical form gives an expression that has a document.** -/
theorem documented_of_ofJson : ∀ {j : Json} {e : Expr}, j.IsSorted → ofJson j = .ok e → e.Documented
  | .null, _, _, h | .bool _, _, _, h | .number _, _, _, h | .string _, _, _, h
  | .array _, _, _, h | .object [], _, _, h | .object (_ :: _ :: _), _, _, h => nomatch h
  | .object [(key, inner)], e, hj, h => by
    obtain ⟨-, hinner, -⟩ := hj
    have hoperand {name : String} {c : Expr} (h : operand name inner = .ok c) : c.Documented :=
      documented_of_operand hinner h
    unfold ofJson at h
    split at h
    case h_1 => -- a literal
      obtain ⟨v, hv, rfl⟩ := map_eq_ok_iff.mp (mapError_eq_ok_iff.mp h)
      exact documented_iff.mpr ⟨Value.plain_of_ofJson hinner hv, nofun⟩
    case h_2 => -- a variable
      obtain ⟨v, -, rfl⟩ := map_eq_ok_iff.mp h
      exact documented_iff.mpr ⟨trivial, nofun⟩
    case h_3 => cases h
    case h_4 | h_5 | h_6 => -- one operand
      obtain ⟨c, hc, rfl⟩ := map_eq_ok_iff.mp h
      exact documented_iff.mpr ⟨trivial, List.forall_mem_singleton.mpr (hoperand hc)⟩
    case h_7 | h_8 => -- the connectives
      obtain ⟨l, hl, h⟩ := bind_eq_ok_iff.mp h
      obtain ⟨r, hr, h⟩ := bind_eq_ok_iff.mp h
      cases h
      exact documented_iff.mpr ⟨trivial, by simp [children, hoperand hl, hoperand hr]⟩
    case h_9 => -- the choice
      obtain ⟨c, hc, h⟩ := bind_eq_ok_iff.mp h
      obtain ⟨y, hy, h⟩ := bind_eq_ok_iff.mp h
      obtain ⟨n, hn, h⟩ := bind_eq_ok_iff.mp h
      cases h
      exact documented_iff.mpr
        ⟨trivial, by simp [children, hoperand hc, hoperand hy, hoperand hn]⟩
    case h_10 | h_11 => -- attributes
      obtain ⟨c, hc, h⟩ := bind_eq_ok_iff.mp h
      obtain ⟨attr, -, h⟩ := bind_eq_ok_iff.mp h
      cases h
      exact documented_iff.mpr ⟨trivial, List.forall_mem_singleton.mpr (hoperand hc)⟩
    case h_12 => -- a match
      obtain ⟨pattern, -, h⟩ := bind_eq_ok_iff.mp h
      obtain ⟨c, hc, h⟩ := bind_eq_ok_iff.mp h
      obtain ⟨p, -, h⟩ := bind_eq_ok_iff.mp h
      cases h
      exact documented_iff.mpr ⟨trivial, List.forall_mem_singleton.mpr (hoperand hc)⟩
    case h_13 => -- type tests
      obtain ⟨c, hc, h⟩ := bind_eq_ok_iff.mp h
      obtain ⟨name, -, h⟩ := bind_eq_ok_iff.mp h
      obtain ⟨t, ht, h⟩ := bind_eq_ok_iff.mp h
      have hvalid : t.IsValid := EntityType.isValid_of_parse (mapError_eq_ok_iff.mp ht)
      obtain ⟨target, htarget, h⟩ := bind_eq_ok_iff.mp h
      cases target with
      | none =>
        cases h
        exact documented_iff.mpr ⟨hvalid, List.forall_mem_singleton.mpr (hoperand hc)⟩
      | some target =>
        cases h
        exact documented_iff.mpr
          ⟨hvalid, by simp [children, hoperand hc, documented_of_operand? hinner htarget]⟩
    case h_14 => -- a set
      cases inner with
      | array items =>
        obtain ⟨es, hes, rfl⟩ := map_eq_ok_iff.mp h
        exact documented_iff.mpr ⟨trivial, documented_of_listOfJson hinner hes⟩
      | _ => cases h
    case h_15 => -- a record
      cases inner with
      | object fields =>
        obtain ⟨attrs, hattrs, rfl⟩ := map_eq_ok_iff.mp h
        refine documented_iff.mpr ⟨SortedList.ascending_ofPairs attrs, fun c hc => ?_⟩
        obtain ⟨a, ha, rfl⟩ := List.mem_map.mp hc
        exact documented_of_fieldsOfJson hinner.2 hattrs a (SortedList.mem_of_mem_ofPairs ha)
      | _ => cases h
    case h_16 => -- an operator on two values, or a call
      split at h
      · obtain ⟨l, hl, h⟩ := bind_eq_ok_iff.mp h
        obtain ⟨r, hr, h⟩ := bind_eq_ok_iff.mp h
        cases h
        exact documented_iff.mpr ⟨trivial, by simp [children, hoperand hl, hoperand hr]⟩
      · rename_i hop
        cases inner with
        | array args =>
          obtain ⟨es, hes, rfl⟩ := map_eq_ok_iff.mp h
          refine documented_iff.mpr ⟨⟨?_, hop⟩, documented_of_listOfJson hinner hes⟩
          simp only [nodeKeys, List.mem_cons, List.not_mem_nil, or_false, not_or]
          repeat' constructor
          all_goals assumption
        | _ => cases h

theorem documented_of_operandIn? {name : String} : ∀ {fields : List (String × Json)} {e : Expr},
    Json.IsSortedFields fields → operandIn? name fields = .ok (some e) → e.Documented
  | (key, j) :: fields, e, hj, h => by
    rw [operandIn?] at h
    split at h
    · obtain ⟨e', he', heq⟩ := map_eq_ok_iff.mp h
      cases heq
      exact documented_of_ofJson hj.1 he'
    · exact documented_of_operandIn? hj.2 h

theorem documented_of_operand? {name : String} : ∀ {j : Json} {e : Expr},
    j.IsSorted → operand? name j = .ok (some e) → e.Documented
  | .object _, _, hj, h => documented_of_operandIn? hj.2 h

theorem documented_of_operand {name : String} : ∀ {j : Json} {e : Expr},
    j.IsSorted → operand name j = .ok e → e.Documented
  | .object fields, e, hj, h => by
    rw [operand] at h
    obtain ⟨e', he', h⟩ := bind_eq_ok_iff.mp h
    split at h
    · cases h
      exact documented_of_operandIn? hj.2 he'
    · cases h

theorem documented_of_listOfJson : ∀ {items : List Json} {es : List Expr},
    Json.IsSortedItems items → listOfJson items = .ok es → ∀ e ∈ es, e.Documented
  | [], _, _, h => by
    cases h
    exact List.forall_mem_nil _
  | j :: items, _, hj, h => by
    rw [listOfJson] at h
    obtain ⟨e, he, h⟩ := bind_eq_ok_iff.mp h
    obtain ⟨es, hes, h⟩ := bind_eq_ok_iff.mp h
    cases h
    exact List.forall_mem_cons.mpr ⟨documented_of_ofJson hj.1 he, documented_of_listOfJson hj.2 hes⟩

theorem documented_of_fieldsOfJson : ∀ {fields : List (String × Json)}
    {attrs : List (String × Expr)}, Json.IsSortedFields fields → fieldsOfJson fields = .ok attrs →
      ∀ a ∈ attrs, a.2.Documented
  | [], _, _, h => by
    cases h
    exact List.forall_mem_nil _
  | (name, j) :: fields, _, hj, h => by
    rw [fieldsOfJson] at h
    obtain ⟨e, he, h⟩ := bind_eq_ok_iff.mp h
    obtain ⟨attrs, hattrs, h⟩ := bind_eq_ok_iff.mp h
    cases h
    exact List.forall_mem_cons.mpr
      ⟨documented_of_ofJson hj.1 he, documented_of_fieldsOfJson hj.2 hattrs⟩

end

/-! ## 6. What is lost -/

/-- **The expressions that are read back from their documents are those that are written like no
other ones**, and every expression that a document in canonical form gives is one of them. -/
theorem lossless_documents :
    (∀ e : Expr, e.Canonical → (ofJson e.toJson = .ok e ↔ e.Plain)) ∧
      ∀ (j : Json) (e : Expr), j.IsSorted → ofJson j = .ok e →
        e.Canonical ∧ e.Plain ∧ ofJson e.toJson = .ok e := by
  refine ⟨fun e hcanonical => ⟨fun hread => ?_, fun hplain => ?_⟩, fun j e hj hread => ?_⟩
  · -- The document is in canonical form, so what it gives is plain, and that is the expression.
    have hdocumented := documented_of_ofJson (isSorted_toJson hcanonical) hread
    exact (documented_iff_canonical_and_plain.mp hdocumented).2
  · exact ofJson_toJson (documented_iff_canonical_and_plain.mpr ⟨hcanonical, hplain⟩)
  · have hdocumented := documented_of_ofJson hj hread
    obtain ⟨hcanonical, hplain⟩ := documented_iff_canonical_and_plain.mp hdocumented
    exact ⟨hcanonical, hplain, ofJson_toJson hdocumented⟩

/-! A call that has the name of the node of a set is lost in the arm of a choice; with the name of a
function it is kept, beside a type test and a record. -/

namespace Lookalike

def cond : Expr := .isTypeIn (.var .principal) ⟨"Team::User"⟩ (.var .resource)

def lost : Expr := .ite cond (.call "Set" [.var .action]) (.record [("of", .value (.long 7))])

def found : Expr := .ite cond (.set [.var .action]) (.record [("of", .value (.long 7))])

def kept : Expr :=
  .ite cond (.call "isIpv4" [.var .action]) (.record [("of", .value (.long 7))])

theorem canonical_lost : lost.Canonical := by
  simp [lost, cond, Canonical, allParts_iff, children, NodeCanonical, Value.Canonical,
    SortedList.Ascending]

theorem canonical_kept : kept.Canonical := by
  simp [kept, cond, Canonical, allParts_iff, children, NodeCanonical, Value.Canonical,
    SortedList.Ascending]

theorem not_plain_lost : ¬ lost.Plain := by
  simp [lost, Plain, allParts_iff, children, NodePlain, nodeKeys]

theorem plain_kept : kept.Plain := by
  have htype : EntityType.IsValid ⟨"Team::User"⟩ := by decide
  have hname : "isIpv4" ∉ nodeKeys ∧ ∀ op : BinaryOp, op.name ≠ "isIpv4" :=
    ⟨by decide, by intro op; cases op <;> decide⟩
  simp [kept, cond, Plain, allParts_iff, children, NodePlain, htype, hname, Value.Plain]

theorem ofJson_lost : ofJson lost.toJson = .ok found := rfl

theorem lossless_documents_lookalike :
    (lost.Canonical ∧ ofJson lost.toJson ≠ .ok lost) ∧
      (kept.Canonical ∧ ofJson kept.toJson = .ok kept) ∧
      (lost.toJson.IsSorted ∧ ofJson lost.toJson = .ok found ∧
        ofJson found.toJson = .ok found) := by
  obtain ⟨hcodec, hdecoded⟩ := lossless_documents
  have hsorted : lost.toJson.IsSorted := isSorted_toJson canonical_lost
  refine ⟨⟨canonical_lost, ?_⟩, ⟨canonical_kept, ?_⟩, hsorted, ofJson_lost, ?_⟩
  · rw [ne_eq, hcodec lost canonical_lost]
    exact not_plain_lost
  · exact (hcodec kept canonical_kept).mpr plain_kept
  · exact (hdecoded lost.toJson found hsorted ofJson_lost).2.2

end Lookalike

end Expr

end Arbiter
