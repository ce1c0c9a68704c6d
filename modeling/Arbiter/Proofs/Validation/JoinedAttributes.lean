/-
# Attributes of joins

The checker takes it that all values of a type have an attribute (`Checker.Promises`) when it finds
one that is required.  A join of closed records has the attributes of both, and promises those that
both promise.  But when one record has a name that the other one lacks, the join is open, and an open
record is taken to have whatever is asked for: then the join also promises every attribute that one
of the two records lacks (`Checker.promises_join?_iff`).

So a join promises nothing but what both records do exactly when they have the same names
(`Checker.promises_join?_exact`).  Then a read of an attribute of a conditional expression that
passes without a test finds the attribute, whichever branch was taken.
-/
import Arbiter.Proofs.Evaluation
import Arbiter.Proofs.Validation.Joins

namespace Arbiter

open Outcome

/-- The records have attributes of the same names. -/
def Shape.SameNames {τ : Type} (a b : Shape τ) : Prop :=
  ∀ name, (∃ x, a.get? name = some x) ↔ ∃ y, b.get? name = some y

/-! ## 1. Promised attributes -/

namespace Checker

variable {s : Schema} {shape : Shape Ty} {attr : String}

/-- The attribute is taken to be there in all values of the type: looking it up has no fault, and it
need not be tested for. -/
def Promises (s : Schema) (t : Ty) (attr : String) : Prop :=
  ∃ a, attrOf s attr t = (some a, []) ∧ a.required = true

theorem promises_record_iff : Promises s (.record shape) attr ↔
    (∃ a, shape.get? attr = some a ∧ a.required = true) ∨
      shape.get? attr = none ∧ shape.isOpen = true := by
  unfold Promises attrOf attrOfShape
  cases hget : shape.get? attr with
  | some a => simp [hget]
  | none => cases hopen : shape.isOpen <;> simp [hget, hopen, unknownAttr]

/-- A closed record promises the attributes that it requires. -/
theorem promises_closed_iff (h : shape.isOpen = false) :
    Promises s (.record shape) attr ↔ ∃ a, shape.get? attr = some a ∧ a.required = true := by
  rw [promises_record_iff, h]
  simp

/-- An attribute of a record that was not tested for can be read only when it is promised. -/
theorem promises_of_getAttr {known : Facts} {owner : Expr}
    (h : (getAttr s known owner (.record shape) attr).2 = []) (howner : (owner, attr) ∉ known) :
    Promises s (.record shape) attr := by
  rw [promises_record_iff]
  unfold getAttr attrOf attrOfShape at h
  cases hget : shape.get? attr with
  | some a =>
    simp only [hget, List.nil_append] at h
    split at h
    · rename_i hread
      simp only [Bool.or_eq_true, List.contains_iff_mem] at hread
      exact Or.inl ⟨a, rfl, hread.resolve_right howner⟩
    · cases h
  | none =>
    cases hopen : shape.isOpen with
    | true => exact Or.inr ⟨rfl, rfl⟩
    | false =>
      simp only [hget, hopen, Bool.false_eq_true, if_false] at h
      cases h

end Checker

/-! ## 2. Joins of closed records -/

namespace Ty

variable {a b c : Shape Ty}

/-- A join has the names that both have. -/
theorem JoinsAt.exists_iff {x y z : Option (Attr Ty)} (h : JoinsAt x y z) :
    (∃ z', z = some z') ↔ (∃ x', x = some x') ∧ ∃ y', y = some y' := by
  cases h with
  | notLeft => exact iff_of_false nofun fun ⟨⟨_, h⟩, _⟩ => nomatch h
  | notRight => exact iff_of_false nofun fun ⟨_, _, h⟩ => nomatch h
  | both => exact iff_of_true ⟨_, rfl⟩ ⟨⟨_, rfl⟩, _, rfl⟩

/-- A join of closed records is closed when they have the same names, and only then. -/
theorem isOpen_eq_false_iff_sameNames (ha : a.isOpen = false) (hb : b.isOpen = false)
    (haa : SortedList.Ascending a.attrs) (hba : SortedList.Ascending b.attrs)
    (hca : SortedList.Ascending c.attrs)
    (hjoins : ∀ name, JoinsAt (a.get? name) (b.get? name) (c.get? name))
    (hopen : c.isOpen = (a.isOpen || b.isOpen || c.attrs.length != a.attrs.length
      || c.attrs.length != b.attrs.length)) :
    c.isOpen = false ↔ a.SameNames b := by
  let ma : SortedMap String (Attr Ty) := ⟨a.attrs, haa⟩
  let mb : SortedMap String (Attr Ty) := ⟨b.attrs, hba⟩
  let mc : SortedMap String (Attr Ty) := ⟨c.attrs, hca⟩
  have hsizes : c.isOpen = false ↔ mc.size = ma.size ∧ mc.size = mb.size := by
    rw [hopen, ha, hb]
    simp [ma, mb, mc, SortedMap.size]
  have hboth : ∀ name, (∃ z, mc.find? name = some z) ↔
      (∃ x, ma.find? name = some x) ∧ ∃ y, mb.find? name = some y :=
    fun name => (hjoins name).exists_iff
  rw [hsizes]
  constructor
  · rintro ⟨hsa, hsb⟩ name
    constructor
    · rintro ⟨x, hx⟩
      have hz := SortedMap.find?_of_size_eq (fun k z hz => ((hboth k).mp ⟨z, hz⟩).1) hsa hx
      exact ((hboth name).mp hz).2
    · rintro ⟨y, hy⟩
      have hz := SortedMap.find?_of_size_eq (fun k z hz => ((hboth k).mp ⟨z, hz⟩).2) hsb hy
      exact ((hboth name).mp hz).1
  · intro hsame
    refine ⟨SortedMap.size_eq fun name => ?_, SortedMap.size_eq fun name => ?_⟩
    · exact (hboth name).trans (and_iff_left_of_imp (hsame name).mp)
    · exact (hboth name).trans (and_iff_right_of_imp (hsame name).mpr)

end Ty

namespace Checker

variable {s : Schema} {a b c : Shape Ty}

/-- **What a join of closed records promises**: what both promise, and when their names differ all
that one of them lacks. -/
theorem promises_join?_iff (ha : a.isOpen = false) (hb : b.isOpen = false)
    (haa : SortedList.Ascending a.attrs) (hba : SortedList.Ascending b.attrs)
    (h : (Ty.record a).join? (.record b) = some (.record c)) (attr : String) :
    Promises s (.record c) attr ↔
      Promises s (.record a) attr ∧ Promises s (.record b) attr ∨
        ¬ a.SameNames b ∧ (a.get? attr = none ∨ b.get? attr = none) := by
  obtain ⟨c', heq, hca, hjoins, hopen⟩ := (Ty.join?_record_eq_some_iff haa).mp h
  cases heq
  have hclosed : c.isOpen = true ↔ ¬ a.SameNames b := by
    rw [← Ty.isOpen_eq_false_iff_sameNames ha hb haa hba hca hjoins hopen, Bool.not_eq_false]
  rw [promises_record_iff, promises_closed_iff ha, promises_closed_iff hb, hclosed]
  have hat := hjoins attr
  generalize a.get? attr = x at hat ⊢
  generalize b.get? attr = y at hat ⊢
  generalize c.get? attr = z at hat ⊢
  cases hat with
  | notLeft => simp
  | notRight => simp
  | both type required => simp [required]

/-- A join promises nothing but what both records do exactly when they have the same names. -/
theorem promises_of_join?_iff_sameNames (ha : a.isOpen = false) (hb : b.isOpen = false)
    (haa : SortedList.Ascending a.attrs) (hba : SortedList.Ascending b.attrs)
    (h : (Ty.record a).join? (.record b) = some (.record c)) :
    (∀ attr, Promises s (.record c) attr →
        Promises s (.record a) attr ∧ Promises s (.record b) attr) ↔ a.SameNames b := by
  constructor
  · intro hpromises
    by_contra hdiffer
    -- Whatever one of the two lacks would be promised by both.
    have hhas : ∀ attr, ¬ (a.get? attr = none ∨ b.get? attr = none) := by
      intro attr hlacks
      have hc : Promises s (.record c) attr :=
        (promises_join?_iff ha hb haa hba h attr).mpr (Or.inr ⟨hdiffer, hlacks⟩)
      obtain ⟨hpa, hpb⟩ := hpromises attr hc
      obtain ⟨x, hx, -⟩ := (promises_closed_iff ha).mp hpa
      obtain ⟨y, hy, -⟩ := (promises_closed_iff hb).mp hpb
      simp [hx, hy] at hlacks
    refine hdiffer fun name => ?_
    have hname := hhas name
    rw [not_or, ← ne_eq, ← ne_eq, Option.ne_none_iff_exists', Option.ne_none_iff_exists'] at hname
    exact iff_of_true hname.1 hname.2
  · intro hsame attr hc
    refine ((promises_join?_iff ha hb haa hba h attr).mp hc).resolve_right ?_
    exact fun hnot => hnot.1 hsame

/-- Two branches have the type of their join. -/
theorem joinAll_branches {t u v : Ty} (h : t.join? u = some v) : joinAll .never [t, u] = (v, []) := by
  simp only [joinAll, Ty.never_join?, h]

end Checker

/-! ## 3. Reads of attributes of conditional expressions -/

namespace Expr

open Checker

variable {s : Schema} {env : RequestEnv} {known : Facts} {request : Request} {store : EntityStore}
  {g y n : Expr} {a b c : Shape Ty} {attr : String}

/-- A read of an attribute that both branches promise finds it. -/
theorem exists_eval_getAttr_ite (ha : a.isOpen = false) (hb : b.isOpen = false)
    (hpromised : Promises s (.record a) attr ∧ Promises s (.record b) attr)
    (hy : ∀ v, y.eval request store = .ok v → v.HasType (.record a))
    (hn : ∀ v, n.eval request store = .ok v → v.HasType (.record b)) {v : Value}
    (hv : (Expr.ite g y n).eval request store = .ok v) :
    ∃ w, (Expr.getAttr (.ite g y n) attr).eval request store = .ok w := by
  have hthere : ∀ {shape : Shape Ty}, shape.isOpen = false → Promises s (.record shape) attr →
      v.HasType (.record shape) → ∃ w, Evaluation.getAttr store attr v = .ok w := by
    intro shape hclosed hpromises hv
    obtain ⟨x, hx, hrequired⟩ := (promises_closed_iff hclosed).mp hpromises
    cases hv with
    | record type present =>
      obtain ⟨w, hw⟩ := present attr x hx hrequired
      exact ⟨w, by simp only [Evaluation.getAttr, hw]⟩
  have heval : (Expr.getAttr (.ite g y n) attr).eval request store
      = Evaluation.getAttr store attr v := by
    simp only [eval] at hv ⊢
    rw [hv]
    rfl
  rw [heval]
  rw [eval_ite] at hv
  obtain ⟨t, -, hv⟩ := bind_eq_ok_iff.mp hv
  cases t with
  | true => exact hthere ha hpromised.1 (hy v hv)
  | false => exact hthere hb hpromised.2 (hn v hv)

/-- A read of an attribute of a conditional expression that has no fault and was not tested for is
one that the join of the branches promises. -/
theorem promises_of_check_getAttr_ite (hjoin : (Ty.record a).join? (.record b) = some (.record c))
    (hy : (y.check s env (known ++ (g.check s env known).facts)).type = .record a)
    (hn : (n.check s env known).type = .record b)
    (h : ((Expr.getAttr (.ite g y n) attr).check s env known).faults = [])
    (hknown : (Expr.ite g y n, attr) ∉ known) : Promises s (.record c) attr := by
  have htype : ((Expr.ite g y n).check s env known).type = .record c := by
    simp only [check, hy, hn, joinAll_branches hjoin]
  have hread : (Checker.getAttr s known (.ite g y n) ((Expr.ite g y n).check s env known).type
      attr).2 = [] := (List.append_eq_nil_iff.mp h).2
  rw [htype] at hread
  exact promises_of_getAttr hread hknown

end Expr

/-- **Attributes of joined records.**  A join of two closed records promises nothing but what both
promise exactly when they have the same names; when they do not, it promises also all that one of
them lacks.  When they do, an attribute of a conditional expression that may be read without a test
is there, whichever branch is taken. -/
theorem Checker.promises_join?_exact {s : Schema} {a b c : Shape Ty} (ha : a.isOpen = false)
    (hb : b.isOpen = false) (haa : SortedList.Ascending a.attrs)
    (hba : SortedList.Ascending b.attrs)
    (h : (Ty.record a).join? (.record b) = some (.record c)) :
    ((∀ attr, Promises s (.record c) attr →
        Promises s (.record a) attr ∧ Promises s (.record b) attr) ↔ a.SameNames b) ∧
    (∀ attr, Promises s (.record c) attr ↔
      Promises s (.record a) attr ∧ Promises s (.record b) attr ∨
        ¬ a.SameNames b ∧ (a.get? attr = none ∨ b.get? attr = none)) ∧
    (a.SameNames b → ∀ (env : RequestEnv) (known : Facts) (request : Request)
      (store : EntityStore) (g y n : Expr) (attr : String),
      (y.check s env (known ++ (g.check s env known).facts)).type = .record a →
      (n.check s env known).type = .record b →
      ((Expr.getAttr (.ite g y n) attr).check s env known).faults = [] →
      (Expr.ite g y n, attr) ∉ known →
      (∀ v, y.eval request store = .ok v → v.HasType (.record a)) →
      (∀ v, n.eval request store = .ok v → v.HasType (.record b)) →
      ∀ v, (Expr.ite g y n).eval request store = .ok v →
        ∃ w, (Expr.getAttr (.ite g y n) attr).eval request store = .ok w) := by
  have hnames := promises_of_join?_iff_sameNames (s := s) ha hb haa hba h
  refine ⟨hnames, promises_join?_iff ha hb haa hba h, ?_⟩
  intro hsame env known request store g y n attr hy hn hfaults hknown hyv hnv v hv
  have hc := Expr.promises_of_check_getAttr_ite h hy hn hfaults hknown
  exact Expr.exists_eval_getAttr_ite ha hb (hnames.mpr hsame attr hc) hyv hnv hv

/-! A person, who is one of two or nobody at all. -/

namespace Persons

open Checker

def env : RequestEnv :=
  { principal := ⟨"User"⟩, action := ⟨⟨"Action"⟩, "view"⟩, resource := ⟨"User"⟩
    context := .record .empty }

def request : Request :=
  { principal := ⟨⟨"User"⟩, "ann"⟩, action := ⟨⟨"Action"⟩, "view"⟩, resource := ⟨⟨"User"⟩, "bob"⟩ }

def themselves : Expr := .binary .eq (.var .principal) (.var .resource)

def ann : Expr := .record [("nick", .value (.string "Ann")), ("tags", .set [])]

def bob : Expr := .record [("nick", .value (.string "Bob")), ("tags", .set [.value (.string "x")])]

def nobody : Expr := .record []

/-- A person with tags of a type. -/
def person (t : Ty) : Shape Ty := ⟨[("nick", ⟨.string, true⟩), ("tags", ⟨.set t, true⟩)], false⟩

theorem ascending_person (t : Ty) : SortedList.Ascending (person t).attrs := by
  have hlt : compare "nick" "tags" = Ordering.lt := by decide
  simp [person, SortedList.Ascending, hlt]

theorem sameNames_person (t u : Ty) : (person t).SameNames (person u) := by
  intro name
  simp only [Shape.get?, person, SortedList.find?]
  split
  · simp
  · split <;> simp

theorem hasType_person {t : Ty} {nick : String} {tags : List Value}
    (htags : ∀ v ∈ tags, v.HasType t) :
    (Value.record [("nick", .string nick), ("tags", .set tags)]).HasType (.record (person t)) := by
  refine .record ?_ ?_
  · intro name a v ha hv
    simp only [Shape.get?, person, SortedList.find?] at ha hv
    split at ha
    · rename_i hname
      rw [if_pos hname] at hv
      cases ha
      cases hv
      exact .string
    · rename_i hname
      rw [if_neg hname] at hv
      split at ha
      · rename_i hname
        rw [if_pos hname] at hv
        cases ha
        cases hv
        exact .set htags
      · cases ha
  · intro name a ha _
    simp only [Shape.get?, person, SortedList.find?] at ha ⊢
    split
    · exact ⟨_, rfl⟩
    · rename_i hname
      rw [if_neg hname] at ha
      split
      · exact ⟨_, rfl⟩
      · rename_i hname
        rw [if_neg hname] at ha
        cases ha

/-- The tags of either person can be read. -/
theorem promises_tags : (person .never).SameNames (person .string) ∧
    ((Expr.getAttr (.ite themselves ann bob) "tags").check {} env []).faults = [] ∧
      ∃ w, (Expr.getAttr (.ite themselves ann bob) "tags").eval request .empty = .ok w := by
  have hjoin : (Ty.record (person .never)).join? (.record (person .string))
    = some (.record (person .string)) := rfl
  have hfaults : ((Expr.getAttr (.ite themselves ann bob) "tags").check {} env []).faults = [] := rfl
  obtain ⟨-, -, hread⟩ := promises_join?_exact (s := {}) rfl rfl (ascending_person _)
    (ascending_person _) hjoin
  refine ⟨sameNames_person _ _, hfaults, hread (sameNames_person _ _) env [] request .empty
    themselves ann bob "tags" rfl rfl hfaults nofun ?_ ?_ _ rfl⟩
  · intro v hv
    cases hv
    exact hasType_person (List.forall_mem_nil _)
  · intro v hv
    cases hv
    exact hasType_person (List.forall_mem_singleton.mpr .string)

/-- The name of a person or of nobody can be read as well, as far as the checker can tell: the join
of the two records promises a name, and one of them has none. -/
theorem promises_nick_of_nobody :
    (Ty.record (person .never)).join? (.record .empty) = some (.record ⟨[], true⟩) ∧
    Promises {} (.record ⟨[], true⟩) "nick" ∧ ¬ Promises {} (.record .empty) "nick" ∧
    ((Expr.getAttr (.ite themselves ann nobody) "nick").check {} env []).faults = [] ∧
    (Expr.getAttr (.ite themselves ann nobody) "nick").eval request .empty
      = .error (.attributeNotFound "record" "nick") := by
  refine ⟨rfl, ⟨unknownAttr, rfl, rfl⟩, ?_, rfl, rfl⟩
  rw [promises_closed_iff rfl]
  rintro ⟨a, ha, -⟩
  cases ha

end Persons

end Arbiter
