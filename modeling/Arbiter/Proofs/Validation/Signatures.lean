/-
# Signatures

A signature says what a function takes (`Signature.Takes`) and yields (`ReturnType.Yields`).  A call
does not look at it beyond the number of parameters: a function takes the arguments apart itself, and
what it looks at either is what it needs or is reported as a type error
(`ExtensionFunction.Decides`).  Still the signature tells which of its outcomes a call has
(`ExtensionFunction.answers_call`).

The checker goes by the signature alone, with the kind of the comparable arguments so far.  On
literals it finds no fault exactly when the call has a value (`Expr.call_literals_faults_iff`).
-/
import Arbiter.Proofs.Validation.Soundness

namespace Arbiter

open Outcome

/-! ## 1. What a signature says -/

/-- The value is an extension value of the kind. -/
def Value.HasKind (v : Value) (kind : ExtensionKind) : Prop := ∃ x, v = .ext x ∧ x.kind = kind

/-- The parameter takes the value, when `shared` is the kind of the comparable arguments. -/
def ParamType.Takes (shared : ExtensionKind) : ParamType → Value → Prop
  | .string, v => ∃ text, v = .string text
  | .extension kind, v => v.HasKind kind
  | .comparable, v => v.HasKind shared

/-- The kinds that the comparable arguments can have, by the kind of those in front. -/
def SharedKind : Option ExtensionKind → ExtensionKind → Prop
  | some kind, shared => shared = kind
  | none, shared => shared = .decimal ∨ shared = .u256

/-- The parameters take the arguments: those that are compared are two decimals or two 256-bit
numbers. -/
def Signature.Takes (sig : Signature) (args : List Value) : Prop :=
  ∃ shared, SharedKind none shared ∧ List.Forall₂ (ParamType.Takes shared) sig.params args

/-- The value is one that the function yields. -/
def ReturnType.Yields : ReturnType → Value → Prop
  | .bool, v => ∃ b, v = .bool b
  | .extension kind, v => v.HasKind kind

theorem Signature.Takes.length_eq {sig : Signature} {args : List Value} (h : sig.Takes args) :
    args.length = sig.params.length := by
  obtain ⟨shared, -, hargs⟩ := h
  exact hargs.length_eq.symm

namespace ExtensionFunction

/-! ## 2. Outcomes of calls -/

section

variable {α β : Type} {P Q : Prop} {x : Except EvalError α}

/-- The step succeeds when the condition holds, and is a type error when it does not. -/
structure Decides (P : Prop) (x : Except EvalError α) : Prop where
  ok : P → ∃ a, x = .ok a
  error : ¬ P → ∃ expected actual, x = .error (.typeError expected actual)

theorem Decides.of_ok (hP : P) {a : α} : Decides P (.ok a) where
  ok _ := ⟨a, rfl⟩
  error h := absurd hP h

theorem Decides.of_error (hP : ¬ P) {expected actual : String} :
    Decides P (.error (.typeError expected actual) : Except EvalError α) where
  ok h := absurd h hP
  error _ := ⟨expected, actual, rfl⟩

theorem Decides.congr (h : Decides P x) (hPQ : Q ↔ P) : Decides Q x where
  ok hQ := h.ok (hPQ.mp hQ)
  error hQ := h.error fun hP => hQ (hPQ.mpr hP)

theorem Decides.map (h : Decides P x) (g : α → β) : Decides P (x.map g) where
  ok hP := by
    obtain ⟨a, rfl⟩ := h.ok hP
    exact ⟨g a, rfl⟩
  error hP := by
    obtain ⟨expected, actual, rfl⟩ := h.error hP
    exact ⟨expected, actual, rfl⟩

/-- Two steps decide whether both conditions hold. -/
theorem Decides.bind (h : Decides P x) {f : α → Except EvalError β} (hf : ∀ a, Decides Q (f a)) :
    Decides (P ∧ Q) (x >>= f) where
  ok hPQ := by
    obtain ⟨a, rfl⟩ := h.ok hPQ.1
    exact (hf a).ok hPQ.2
  error hPQ := by
    by_cases hP : P
    · obtain ⟨a, rfl⟩ := h.ok hP
      exact (hf a).error fun hQ => hPQ ⟨hP, hQ⟩
    · obtain ⟨expected, actual, rfl⟩ := h.error hP
      exact ⟨expected, actual, rfl⟩

end

theorem decides_stringArg (v : Value) : Decides (∃ text, v = .string text) (stringArg v) := by
  cases v with
  | string text => exact .of_ok ⟨text, rfl⟩
  | _ => exact .of_error nofun

theorem decides_ipArg (v : Value) : Decides (v.HasKind .ipaddr) (ipArg v) := by
  cases v with
  | ext x =>
    cases x with
    | ipaddr a => exact .of_ok ⟨_, rfl, rfl⟩
    | _ => exact .of_error (by rintro ⟨_, ⟨⟩, ⟨⟩⟩)
  | _ => exact .of_error (by rintro ⟨_, ⟨⟩, -⟩)

/-- Two values are compared when both are decimals or both are 256-bit numbers. -/
theorem decides_compareArgs (v w : Value) :
    Decides (∃ shared, SharedKind none shared ∧ v.HasKind shared ∧ w.HasKind shared)
      (compareArgs v w) := by
  cases v with
  | ext x =>
    cases x with
    | ipaddr a =>
      refine .of_error ?_
      rintro ⟨_, hshared | hshared, ⟨_, ⟨⟩, ⟨⟩⟩, -⟩ <;> cases hshared
    | decimal a =>
      cases w with
      | ext y =>
        cases y with
        | decimal b => exact .of_ok ⟨.decimal, Or.inl rfl, ⟨_, rfl, rfl⟩, _, rfl, rfl⟩
        | _ => exact .of_error (by rintro ⟨_, -, ⟨_, ⟨⟩, ⟨⟩⟩, _, ⟨⟩, ⟨⟩⟩)
      | _ => exact .of_error (by rintro ⟨_, -, -, _, ⟨⟩, -⟩)
    | u256 a =>
      cases w with
      | ext y =>
        cases y with
        | u256 b => exact .of_ok ⟨.u256, Or.inr rfl, ⟨_, rfl, rfl⟩, _, rfl, rfl⟩
        | _ => exact .of_error (by rintro ⟨_, -, ⟨_, ⟨⟩, ⟨⟩⟩, _, ⟨⟩, ⟨⟩⟩)
      | _ => exact .of_error (by rintro ⟨_, -, -, _, ⟨⟩, -⟩)
  | _ => exact .of_error (by rintro ⟨_, -, ⟨_, ⟨⟩, -⟩, -⟩)

/-! What the parameters of each family of functions take. -/

theorem takes_string_iff {v : Value} {returns : ReturnType} :
    Signature.Takes ⟨[.string], returns⟩ [v] ↔ ∃ text, v = .string text := by
  simp [Signature.Takes, ParamType.Takes, SharedKind]

theorem takes_ip_iff {v : Value} {returns : ReturnType} :
    Signature.Takes ⟨[.extension .ipaddr], returns⟩ [v] ↔ v.HasKind .ipaddr := by
  simp [Signature.Takes, ParamType.Takes, SharedKind]

theorem takes_ip_ip_iff {v w : Value} {returns : ReturnType} :
    Signature.Takes ⟨[.extension .ipaddr, .extension .ipaddr], returns⟩ [v, w] ↔
      v.HasKind .ipaddr ∧ w.HasKind .ipaddr := by
  simp [Signature.Takes, ParamType.Takes, SharedKind]

theorem takes_comparable_iff {v w : Value} {returns : ReturnType} :
    Signature.Takes ⟨[.comparable, .comparable], returns⟩ [v, w] ↔
      ∃ shared, SharedKind none shared ∧ v.HasKind shared ∧ w.HasKind shared := by
  simp [Signature.Takes, ParamType.Takes]

section

variable {f : ExtensionFunction} {args : List Value}

/-- The call decides whether it is given what the signature says, and tells a truth value if so. -/
def Tests (f : ExtensionFunction) (args : List Value) : Prop :=
  ∃ x : Except EvalError Bool, Decides (f.signature.Takes args) x ∧ f.call args = x.map .bool

/-- Comparisons differ only in which orderings they hold for. -/
theorem tests_of_comparison {holds : Ordering → Bool}
    (hsig : f.signature = ⟨[.comparable, .comparable], .bool⟩)
    (hcall : ∀ v w, f.call [v, w] = compareArgs v w >>= fun o => .ok (.bool (holds o)))
    (hlen : args.length = f.signature.params.length) : f.Tests args := by
  rw [hsig] at hlen
  obtain ⟨v, w, rfl⟩ := List.length_eq_two.mp hlen
  refine ⟨(compareArgs v w).map holds, ?_, ?_⟩
  · rw [hsig]
    exact ((decides_compareArgs v w).congr takes_comparable_iff).map holds
  · rw [hcall]
    cases compareArgs v w <;> rfl

/-- Predicates on one network differ only in which networks they hold for. -/
theorem tests_of_ipPredicate {holds : IpAddress → Bool}
    (hsig : f.signature = ⟨[.extension .ipaddr], .bool⟩)
    (hcall : ∀ v, f.call [v] = ipArg v >>= fun a => .ok (.bool (holds a)))
    (hlen : args.length = f.signature.params.length) : f.Tests args := by
  rw [hsig] at hlen
  obtain ⟨v, rfl⟩ := List.length_eq_one_iff.mp hlen
  refine ⟨(ipArg v).map holds, ?_, ?_⟩
  · rw [hsig]
    exact ((decides_ipArg v).congr takes_ip_iff).map holds
  · rw [hcall]
    cases ipArg v <;> rfl

/-- Every function but the constructors tests its arguments. -/
theorem tests_of_not_isConstructor (hf : f.isConstructor = false)
    (hlen : args.length = f.signature.params.length) : f.Tests args := by
  cases f with
  | make kind => cases hf
  | lessThan | lessThanOrEqual | greaterThan | greaterThanOrEqual =>
    exact tests_of_comparison rfl (fun _ _ => rfl) hlen
  | isIpv4 | isIpv6 | isLoopback | isMulticast => exact tests_of_ipPredicate rfl (fun _ => rfl) hlen
  | isInRange =>
    obtain ⟨v, w, rfl⟩ := List.length_eq_two.mp hlen
    refine ⟨ipArg v >>= fun a => (ipArg w).map a.isInRange, ?_, ?_⟩
    · have hboth := (decides_ipArg v).bind fun a => (decides_ipArg w).map a.isInRange
      exact hboth.congr takes_ip_ip_iff
    · simp only [call]
      cases ipArg v with
      | error e => rfl
      | ok a => cases ipArg w <;> rfl

/-- What a call comes to: an error that tells why, or a value that the signature promises. -/
inductive Answers (f : ExtensionFunction) (args : List Value) : Except EvalError Value → Prop
  | arity (hlen : args.length ≠ f.signature.params.length) :
      Answers f args (.error (.wrongArity f.name f.signature.params.length args.length))
  | type {expected actual : String} (hlen : args.length = f.signature.params.length)
      (h : ¬ f.signature.Takes args) : Answers f args (.error (.typeError expected actual))
  | parse {cause : ExtensionError} (hf : f.isConstructor = true) (h : f.signature.Takes args) :
      Answers f args (.error (.extensionParse cause))
  | value {v : Value} (h : f.signature.Takes args) (hv : f.signature.returns.Yields v) :
      Answers f args (.ok v)

theorem call_of_length_ne (hlen : args.length ≠ f.signature.params.length) :
    f.call args = .error (.wrongArity f.name f.signature.params.length args.length) := by
  unfold call
  split
  case h_11 => rfl
  all_goals exact absurd rfl hlen

/-- A predicate yields truth values. -/
theorem yields_bool (hf : f.isConstructor = false) (b : Bool) :
    f.signature.returns.Yields (.bool b) := by
  cases f with
  | make kind => cases hf
  | _ => exact ⟨b, rfl⟩

/-- **What a call comes to is told by the signature.** -/
theorem answers_call (f : ExtensionFunction) (args : List Value) :
    f.Answers args (f.call args) := by
  by_cases hlen : args.length = f.signature.params.length
  · cases hf : f.isConstructor with
    | true =>
      cases f with
      | make kind =>
        obtain ⟨v, rfl⟩ := List.length_eq_one_iff.mp hlen
        have hdecides : Decides ((make kind).signature.Takes [v]) (stringArg v) :=
          (decides_stringArg v).congr takes_string_iff
        simp only [call]
        by_cases htakes : (make kind).signature.Takes [v]
        · obtain ⟨text, htext⟩ := hdecides.ok htakes
          rw [htext, ok_bind]
          cases hvalue : ExtensionValue.ofArgument kind text with
          | error cause =>
            have hconstruct : construct kind text = .error (.extensionParse cause) := by
              rw [construct, hvalue]
              rfl
            rw [hconstruct]
            exact .parse rfl htakes
          | ok x =>
            have hconstruct : construct kind text = .ok x := mapError_eq_ok_iff.mpr hvalue
            rw [hconstruct]
            exact .value htakes ⟨x, rfl, kind_of_construct hconstruct⟩
        · obtain ⟨expected, actual, herror⟩ := hdecides.error htakes
          rw [herror]
          exact .type hlen htakes
      | _ => cases hf
    | false =>
      obtain ⟨x, hdecides, hcall⟩ := tests_of_not_isConstructor hf hlen
      rw [hcall]
      by_cases htakes : f.signature.Takes args
      · obtain ⟨b, rfl⟩ := hdecides.ok htakes
        exact .value htakes (yields_bool hf b)
      · obtain ⟨expected, actual, rfl⟩ := hdecides.error htakes
        exact .type hlen htakes
  · rw [call_of_length_ne hlen]
    exact .arity hlen

theorem exists_wrongArity_iff :
    (∃ name expected actual, f.call args = .error (.wrongArity name expected actual)) ↔
      args.length ≠ f.signature.params.length := by
  refine ⟨?_, fun hlen => ⟨_, _, _, call_of_length_ne hlen⟩⟩
  rintro ⟨name, expected, actual, h⟩
  have hanswers := answers_call f args
  rw [h] at hanswers
  cases hanswers with
  | arity hlen => exact hlen

theorem exists_typeError_iff (hlen : args.length = f.signature.params.length) :
    (∃ expected actual, f.call args = .error (.typeError expected actual)) ↔
      ¬ f.signature.Takes args := by
  have hanswers := answers_call f args
  constructor
  · rintro ⟨expected, actual, h⟩
    rw [h] at hanswers
    cases hanswers with
    | type _ htakes => exact htakes
  · intro htakes
    generalize f.call args = r at hanswers
    cases hanswers with
    | arity h => exact absurd hlen h
    | type _ _ => exact ⟨_, _, rfl⟩
    | parse _ h => exact absurd h htakes
    | value h _ => exact absurd h htakes

/-- What the parameters take has a value that the signature promises, or cannot be read. -/
theorem yields_or_parse_of_takes (htakes : f.signature.Takes args) :
    (∃ v, f.call args = .ok v ∧ f.signature.returns.Yields v) ∨
      ∃ cause, f.call args = .error (.extensionParse cause) := by
  have hanswers := answers_call f args
  generalize f.call args = r at hanswers
  cases hanswers with
  | arity hlen => exact absurd htakes.length_eq hlen
  | type _ h => exact absurd htakes h
  | parse _ _ => exact Or.inr ⟨_, rfl⟩
  | value _ hv => exact Or.inl ⟨_, rfl, hv⟩

theorem exists_bool_of_takes (hf : f.isConstructor = false) (htakes : f.signature.Takes args) :
    ∃ b, f.call args = .ok (.bool b) := by
  obtain ⟨x, hdecides, hcall⟩ := tests_of_not_isConstructor hf htakes.length_eq
  obtain ⟨b, rfl⟩ := hdecides.ok htakes
  exact ⟨b, hcall⟩

theorem takes_of_call_eq_ok {v : Value} (h : f.call args = .ok v) : f.signature.Takes args := by
  have hanswers := answers_call f args
  rw [h] at hanswers
  cases hanswers with
  | value htakes _ => exact htakes

/-- When a predicate has a value. -/
theorem exists_call_eq_ok_iff (hf : f.isConstructor = false) :
    (∃ v, f.call args = .ok v) ↔ f.signature.Takes args := by
  constructor
  · rintro ⟨v, hv⟩
    exact takes_of_call_eq_ok hv
  · intro htakes
    obtain ⟨b, hb⟩ := exists_bool_of_takes hf htakes
    exact ⟨_, hb⟩

/-- When a constructor has a value. -/
theorem exists_call_make_eq_ok_iff {kind : ExtensionKind} :
    (∃ v, (make kind).call args = .ok v) ↔
      ∃ text x, args = [.string text] ∧ construct kind text = .ok x := by
  constructor
  · rintro ⟨v, hv⟩
    have htakes := takes_of_call_eq_ok hv
    obtain ⟨a, rfl⟩ := List.length_eq_one_iff.mp htakes.length_eq
    obtain ⟨text, rfl⟩ := takes_string_iff.mp htakes
    obtain ⟨_, ⟨⟩, hv⟩ := bind_eq_ok_iff.mp hv
    obtain ⟨x, hx, -⟩ := bind_eq_ok_iff.mp hv
    exact ⟨text, x, rfl, hx⟩
  · rintro ⟨text, x, rfl, hx⟩
    exact ⟨.ext x, by simp only [call, stringArg, ok_bind, hx, pure_eq_ok]⟩

end

/-! ## 3. Positions of arguments -/

section

variable {α β : Type} {v w : Value} {vs : List Value}

theorem argAt_zero_bind (k : Value → ExceptT EvalError Option α) :
    argAt (v :: vs) 0 >>= k = k v := rfl

theorem argAt_one_bind (k : Value → ExceptT EvalError Option α) :
    argAt (v :: w :: vs) 1 >>= k = k w := rfl

theorem run_given_bind {x : Except EvalError α} {k : α → ExceptT EvalError Option β}
    {k' : α → Except EvalError β} (h : ∀ a, (k a).run = some (k' a)) :
    (given x >>= k).run = some (x >>= k') := by
  cases x with
  | error e => rfl
  | ok a => exact h a

/-- A function that has as many arguments as it takes finds each of them. -/
theorem run_applyAt {f : ExtensionFunction} {args : List Value}
    (hlen : args.length = f.signature.params.length) :
    (f.applyAt args).run = some (f.call args) := by
  cases f with
  | make kind =>
    obtain ⟨v, rfl⟩ := List.length_eq_one_iff.mp hlen
    simp only [applyAt, argAt_zero_bind]
    exact run_given_bind fun text => run_given_bind fun x => rfl
  | lessThan | lessThanOrEqual | greaterThan | greaterThanOrEqual =>
    obtain ⟨v, w, rfl⟩ := List.length_eq_two.mp hlen
    simp only [applyAt, argAt_zero_bind, argAt_one_bind]
    exact run_given_bind fun o => rfl
  | isIpv4 | isIpv6 | isLoopback | isMulticast =>
    obtain ⟨v, rfl⟩ := List.length_eq_one_iff.mp hlen
    simp only [applyAt, argAt_zero_bind]
    exact run_given_bind fun a => rfl
  | isInRange =>
    obtain ⟨v, w, rfl⟩ := List.length_eq_two.mp hlen
    simp only [applyAt, argAt_zero_bind, argAt_one_bind]
    exact run_given_bind fun addr => run_given_bind fun range => rfl

/-- **No argument is looked up where there is none.** -/
theorem run_callIndexed (f : ExtensionFunction) (args : List Value) :
    (f.callIndexed args).run = some (f.call args) := by
  unfold callIndexed
  split
  · rename_i hlen
    rw [call_of_length_ne hlen]
    rfl
  · rename_i hlen
    exact run_applyAt (not_not.mp hlen)

end

end ExtensionFunction

/-! ## 4. Literal arguments -/

namespace Checker

variable {s : Schema} {v : Value}

theorem expectString_literal_iff :
    (literal s v).2 ++ expectString (literal s v).1 = [] ↔ ∃ text, v = .string text := by
  cases v with
  | string text => exact iff_of_true rfl ⟨text, rfl⟩
  | _ =>
    refine iff_of_false (fun h => ?_) nofun
    cases (List.append_eq_nil_iff.mp h).2

theorem expectExtension_literal_iff {kind : ExtensionKind} :
    (literal s v).2 ++ expect (Ty.isExtension kind) kind.name (literal s v).1 = [] ↔
      v.HasKind kind := by
  cases v with
  | ext x => simp [literal, expect, Ty.isExtension, Value.HasKind]
  | _ =>
    refine iff_of_false (fun h => ?_) (by rintro ⟨_, ⟨⟩, -⟩)
    cases (List.append_eq_nil_iff.mp h).2

theorem isComparable_iff {kind : ExtensionKind} :
    isComparable kind = true ↔ SharedKind none kind := by
  cases kind <;> simp [isComparable, SharedKind]

/-- A literal can be compared with those in front when it is of one of the kinds that are left. -/
theorem comparable_literal_iff {first : Option ExtensionKind} :
    (literal s v).2 ++ (comparable first (literal s v).1).2 = [] ↔
      ∃ shared, SharedKind first shared ∧ v.HasKind shared := by
  cases first with
  | some kind =>
    simp only [comparable, SharedKind, exists_eq_left]
    exact expectExtension_literal_iff
  | none =>
    cases v with
    | ext x =>
      simp only [literal, comparable, List.nil_append]
      split
      · rename_i hkind
        exact iff_of_true rfl ⟨x.kind, isComparable_iff.mp hkind, x, rfl, rfl⟩
      · rename_i hkind
        refine iff_of_false (List.cons_ne_nil _ _) ?_
        rintro ⟨shared, hshared, y, ⟨⟩, rfl⟩
        exact hkind (isComparable_iff.mpr hshared)
    | _ =>
      refine iff_of_false (fun h => ?_) (by rintro ⟨_, -, _, ⟨⟩, -⟩)
      cases (List.append_eq_nil_iff.mp h).2

/-- Then those behind have to be of its kind. -/
theorem comparable_literal_fst {first : Option ExtensionKind} {shared : ExtensionKind}
    (hshared : SharedKind first shared) (hv : v.HasKind shared) :
    (comparable first (literal s v).1).1 = some shared := by
  obtain ⟨x, rfl, rfl⟩ := hv
  cases first with
  | some kind => exact congrArg some (hshared : x.kind = kind).symm
  | none => simp only [literal, comparable, if_pos (isComparable_iff.mpr hshared)]

/-- What the checker finds out about a literal. -/
def ofLiteral (s : Schema) (v : Value) : Checked :=
  { type := (literal s v).1, faults := (literal s v).2 }

/-- **Literal arguments have no faults when the parameters take them.** -/
theorem argFaults_literals_iff : ∀ {vs : List Value} {ps : List ParamType}
    {first : Option ExtensionKind}, vs.length = ps.length →
      (argFaults first (vs.map (ofLiteral s)) ps = [] ↔
        ∃ shared, SharedKind first shared ∧ List.Forall₂ (ParamType.Takes shared) ps vs)
  | [], [], first, _ => by
    refine iff_of_true rfl ?_
    cases first with
    | some kind => exact ⟨kind, rfl, .nil⟩
    | none => exact ⟨.decimal, Or.inl rfl, .nil⟩
  | v :: vs, p :: ps, first, hlen => by
    have hrest : vs.length = ps.length := Nat.succ.inj hlen
    cases p with
    | string =>
      simp only [List.map_cons, argFaults, ofLiteral]
      rw [List.append_eq_nil_iff, expectString_literal_iff, argFaults_literals_iff hrest]
      simp only [List.forall₂_cons, ParamType.Takes]
      rw [← exists_and_left]
      exact exists_congr fun shared => and_left_comm
    | extension kind =>
      simp only [List.map_cons, argFaults, ofLiteral]
      rw [List.append_eq_nil_iff, expectExtension_literal_iff, argFaults_literals_iff hrest]
      simp only [List.forall₂_cons, ParamType.Takes]
      rw [← exists_and_left]
      exact exists_congr fun shared => and_left_comm
    | comparable =>
      simp only [List.map_cons, argFaults, ofLiteral]
      rw [List.append_eq_nil_iff, comparable_literal_iff]
      simp only [List.forall₂_cons, ParamType.Takes]
      constructor
      · rintro ⟨⟨shared, hshared, hv⟩, h⟩
        rw [comparable_literal_fst hshared hv, argFaults_literals_iff hrest] at h
        obtain ⟨kind, rfl, h⟩ := h
        exact ⟨kind, hshared, hv, h⟩
      · rintro ⟨shared, hshared, hv, h⟩
        refine ⟨⟨shared, hshared, hv⟩, ?_⟩
        rw [comparable_literal_fst hshared hv, argFaults_literals_iff hrest]
        exact ⟨shared, rfl, h⟩

end Checker

namespace Expr

open Checker

variable {s : Schema} {env : RequestEnv} {known : Facts} {f : ExtensionFunction}
  {args : List Value}

/-- The faults of a call on literals are those that the function finds. -/
theorem faults_call_literals : ((Expr.call f.name (args.map Expr.value)).check s env known).faults =
    (Checker.call f.name (args.map Expr.value) (args.map (ofLiteral s))).2 := by
  simp only [check, checkList_eq_map, List.map_map]
  rfl

theorem faults_call_predicate_iff (hf : f.isConstructor = false) :
    ((Expr.call f.name (args.map Expr.value)).check s env known).faults = [] ↔
      f.signature.Takes args := by
  rw [faults_call_literals]
  simp only [Checker.call, ExtensionFunction.ofName?_name, List.length_map]
  split
  · rename_i hlen
    exact iff_of_false (List.cons_ne_nil _ _) fun htakes => hlen htakes.length_eq
  · rename_i hlen
    split
    · cases hf
    · exact argFaults_literals_iff (not_not.mp hlen)

theorem faults_call_constructor_iff {kind : ExtensionKind} :
    ((Expr.call (ExtensionFunction.make kind).name (args.map Expr.value)).check s env known).faults
        = [] ↔
      ∃ text x, args = [.string text] ∧ ExtensionFunction.construct kind text = .ok x := by
  rw [faults_call_literals]
  simp only [Checker.call, ExtensionFunction.ofName?_name, List.length_map]
  split
  · rename_i hlen
    refine iff_of_false (List.cons_ne_nil _ _) ?_
    rintro ⟨text, x, rfl, -⟩
    exact hlen rfl
  · rename_i hlen
    obtain ⟨v, rfl⟩ := List.length_eq_one_iff.mp (not_not.mp hlen)
    cases v with
    | string text =>
      simp only [List.map_cons, List.map_nil, literalFaults]
      cases hconstruct : ExtensionFunction.construct kind text with
      | ok x => exact iff_of_true rfl ⟨text, x, rfl, hconstruct⟩
      | error e =>
        refine iff_of_false (List.cons_ne_nil _ _) ?_
        rintro ⟨text, x, ⟨⟩, hx⟩
        rw [hconstruct] at hx
        cases hx
    | _ => exact iff_of_false (by simp [literalFaults]) (by rintro ⟨_, _, ⟨⟩, -⟩)

/-- **A call on literals has no faults exactly when it has a value.** -/
theorem call_literals_faults_iff (f : ExtensionFunction) (args : List Value) :
    ((Expr.call f.name (args.map Expr.value)).check s env known).faults = [] ↔
      ∃ v, f.call args = .ok v := by
  cases hf : f.isConstructor with
  | true =>
    cases f with
    | make kind => rw [faults_call_constructor_iff, ExtensionFunction.exists_call_make_eq_ok_iff]
    | _ => cases hf
  | false => rw [faults_call_predicate_iff hf, ExtensionFunction.exists_call_eq_ok_iff hf]

end Expr

/-- **Signatures agree with the functions.**  A call has the wrong arity exactly when the number of
its arguments is not that of the parameters; otherwise it is a type error exactly when the parameters
do not take the arguments.  When they do, a constructor yields a value of its kind or cannot read
the text, and every other function yields a truth value.  No argument is looked up where there is
none, and the checker finds no fault in a call on literals exactly when it has a value. -/
theorem ExtensionFunction.call_agrees_with_signature (f : ExtensionFunction) (args : List Value) :
    ((∃ name expected actual, f.call args = .error (.wrongArity name expected actual)) ↔
      args.length ≠ f.signature.params.length) ∧
    (args.length = f.signature.params.length →
      ((∃ expected actual, f.call args = .error (.typeError expected actual)) ↔
        ¬ f.signature.Takes args)) ∧
    (f.signature.Takes args → f.isConstructor = true →
      (∃ v, f.call args = .ok v ∧ f.signature.returns.Yields v) ∨
        ∃ cause, f.call args = .error (.extensionParse cause)) ∧
    (f.signature.Takes args → f.isConstructor = false → ∃ b, f.call args = .ok (.bool b)) ∧
    (f.callIndexed args).run = some (f.call args) ∧
    ∀ (s : Schema) (env : RequestEnv) (known : Facts),
      ((Expr.call f.name (args.map Expr.value)).check s env known).faults = [] ↔
        ∃ v, f.call args = .ok v :=
  ⟨exists_wrongArity_iff, exists_typeError_iff, fun htakes _ => yields_or_parse_of_takes htakes,
    fun htakes hf => exists_bool_of_takes hf htakes, run_callIndexed f args,
    fun _ _ _ => Expr.call_literals_faults_iff f args⟩

/-! Limits that are whole numbers are not compared with one that is a decimal. -/

namespace Limits

def ten : Value := .ext (.u256 (.ofUInt64 10))

def twenty : Value := .ext (.u256 (.ofUInt64 20))

def half : Value := .ext (.decimal ⟨5000⟩)

theorem takes_ten_twenty : ExtensionFunction.lessThan.signature.Takes [ten, twenty] :=
  ExtensionFunction.takes_comparable_iff.mpr
    ⟨.u256, Or.inr rfl, ⟨_, rfl, rfl⟩, _, rfl, rfl⟩

theorem not_takes_ten_half : ¬ ExtensionFunction.lessThan.signature.Takes [ten, half] := by
  intro htakes
  obtain ⟨shared, -, ⟨x, ⟨⟩, rfl⟩, y, ⟨⟩, ⟨⟩⟩ := ExtensionFunction.takes_comparable_iff.mp htakes

/-- Two of the limits are compared, and a third one is refused, by the checker as well. -/
theorem lessThan_limits :
    (∃ b, ExtensionFunction.lessThan.call [ten, twenty] = .ok (.bool b)) ∧
    (∃ expected actual,
      ExtensionFunction.lessThan.call [ten, half] = .error (.typeError expected actual)) ∧
    ∀ (env : RequestEnv) (known : Facts),
      ((Expr.call "lessThan" [.value ten, .value half]).check .empty env known).faults ≠ [] := by
  obtain ⟨-, -, -, hbool, -, -⟩ :=
    ExtensionFunction.call_agrees_with_signature .lessThan [ten, twenty]
  obtain ⟨-, htype, -, -, -, hchecked⟩ :=
    ExtensionFunction.call_agrees_with_signature .lessThan [ten, half]
  have herror := (htype rfl).mpr not_takes_ten_half
  refine ⟨hbool takes_ten_twenty rfl, herror, fun env known hfaults => ?_⟩
  obtain ⟨expected, actual, herror⟩ := herror
  obtain ⟨v, hv⟩ := (hchecked .empty env known).mp hfaults
  rw [herror] at hv
  cases hv

end Limits

end Arbiter
