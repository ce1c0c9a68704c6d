/-
# Results that may fail

What it means that a computation of several steps succeeded or failed, said once for each way in
which the library puts steps together: one step after the other, the same step for each element of
a list, a state that is handed through a list, and a state that is changed in place.  Nothing else
takes a `do` block apart.
-/

namespace Arbiter.Outcome

universe u v

variable {ε : Type u} {α β : Type v}

/-! ## 1. One step after the other -/

theorem bind_eq_ok_iff {x : Except ε α} {f : α → Except ε β} {b : β} :
    (x >>= f) = .ok b ↔ ∃ a, x = .ok a ∧ f a = .ok b := by
  cases x with
  | error e => exact iff_of_false nofun fun ⟨_, h, _⟩ => nomatch h
  | ok a =>
    constructor
    · intro h
      exact ⟨a, rfl, h⟩
    · rintro ⟨_, ⟨rfl⟩, h⟩
      exact h

/-- A check that is made first. -/
theorem check_bind_eq_ok_iff {x : Except ε PUnit} {y : Except ε α} {a : α} :
    (x >>= fun _ => y) = .ok a ↔ x = .ok ⟨⟩ ∧ y = .ok a := by
  rw [bind_eq_ok_iff]
  constructor
  · rintro ⟨_, hx, hy⟩
    exact ⟨hx, hy⟩
  · rintro ⟨hx, hy⟩
    exact ⟨⟨⟩, hx, hy⟩

theorem bind_eq_error_iff {x : Except ε α} {f : α → Except ε β} {e : ε} :
    (x >>= f) = .error e ↔ x = .error e ∨ ∃ a, x = .ok a ∧ f a = .error e := by
  cases x with
  | error e' =>
    constructor
    · rintro ⟨rfl⟩
      exact Or.inl rfl
    · rintro (h | ⟨_, h, _⟩)
      · cases h
        rfl
      · cases h
  | ok a =>
    constructor
    · intro h
      exact Or.inr ⟨a, rfl, h⟩
    · rintro (h | ⟨_, ⟨rfl⟩, h⟩)
      · cases h
      · exact h

@[simp] theorem ok_bind (a : α) (f : α → Except ε β) : (Except.ok a >>= f) = f a := rfl

@[simp] theorem error_bind (e : ε) (f : α → Except ε β) :
    ((Except.error e : Except ε α) >>= f) = .error e := rfl

@[simp] theorem pure_eq_ok (a : α) : (pure a : Except ε α) = .ok a := rfl

theorem map_eq_ok_iff {x : Except ε α} {f : α → β} {b : β} :
    x.map f = .ok b ↔ ∃ a, x = .ok a ∧ f a = b := by
  cases x with
  | error e => exact iff_of_false nofun fun ⟨_, h, _⟩ => nomatch h
  | ok a =>
    constructor
    · rintro ⟨rfl⟩
      exact ⟨a, rfl, rfl⟩
    · rintro ⟨_, ⟨rfl⟩, rfl⟩
      rfl

theorem mapError_eq_ok_iff {ε' : Type u} {x : Except ε α} {f : ε → ε'} {a : α} :
    x.mapError f = .ok a ↔ x = .ok a := by
  cases x with
  | error e => exact iff_of_false nofun nofun
  | ok a' =>
    constructor
    · rintro ⟨rfl⟩
      rfl
    · rintro ⟨rfl⟩
      rfl

theorem eq_ok_of_toOption {x : Except ε α} {a : α} (h : x.toOption = some a) : x = .ok a := by
  cases x with
  | error e => cases h
  | ok a' => exact congrArg Except.ok (Option.some.inj h)

/-- Results that are the same whenever there is one. -/
theorem toOption_eq_of_ok_iff {x y : Except ε α} (h : ∀ a, x = .ok a ↔ y = .ok a) :
    x.toOption = y.toOption := by
  cases x with
  | ok a => rw [(h a).mp rfl]
  | error e =>
    cases y with
    | error e' => rfl
    | ok a => cases (h a).mpr rfl

/-! ## 2. The same step for each element -/

theorem forM_eq_ok_iff {γ : Type u} {f : γ → Except ε PUnit} :
    ∀ {l : List γ}, l.forM f = .ok ⟨⟩ ↔ ∀ a ∈ l, f a = .ok ⟨⟩
  | [] => iff_of_true rfl nofun
  | a :: l => by
    have hcons : (a :: l).forM f = f a >>= fun _ => l.forM f := rfl
    rw [hcons, bind_eq_ok_iff, List.forall_mem_cons]
    constructor
    · rintro ⟨_, ha, hl⟩
      exact ⟨ha, forM_eq_ok_iff.mp hl⟩
    · rintro ⟨ha, hl⟩
      exact ⟨⟨⟩, ha, forM_eq_ok_iff.mpr hl⟩

theorem mapM_map_eq_map {m : Type u → Type v} [Monad m] [LawfulMonad m] {α β γ : Type u}
    {f : β → m γ} {g : α → β} {k : α → γ} {l : List α} (h : ∀ a ∈ l, f (g a) = pure (k a)) :
    (l.map g).mapM f = pure (l.map k) := by
  induction l with
  | nil => rw [List.map_nil, List.mapM_nil, List.map_nil]
  | cons a l ih =>
    obtain ⟨ha, hl⟩ := List.forall_mem_cons.mp h
    rw [List.map_cons, List.mapM_cons, ha, ih hl, pure_bind, pure_bind, List.map_cons]

/-- What each element of a list is read back from, the list is read back from. -/
theorem mapM_map_eq_pure {m : Type u → Type v} [Monad m] [LawfulMonad m] {α β : Type u}
    {f : β → m α} {g : α → β} {l : List α} (h : ∀ a ∈ l, f (g a) = pure a) :
    (l.map g).mapM f = pure l := by
  rw [mapM_map_eq_map h, List.map_id']

theorem exists_of_mem_mapM {f : α → Except ε β} : ∀ {l : List α} {l' : List β},
    l.mapM f = .ok l' → ∀ b ∈ l', ∃ a ∈ l, f a = .ok b
  | [], _, h => by
    cases h
    exact List.forall_mem_nil _
  | a :: l, _, h => by
    rw [List.mapM_cons] at h
    obtain ⟨b, hb, h⟩ := bind_eq_ok_iff.mp h
    obtain ⟨l', hl', h⟩ := bind_eq_ok_iff.mp h
    cases h
    refine List.forall_mem_cons.mpr ⟨⟨a, List.mem_cons_self, hb⟩, fun b' hb' => ?_⟩
    obtain ⟨a', ha', h⟩ := exists_of_mem_mapM hl' b' hb'
    exact ⟨a', List.mem_cons_of_mem a ha', h⟩

theorem exists_mem_of_mapM {f : α → Except ε β} {a : α} : ∀ {l : List α} {l' : List β},
    l.mapM f = .ok l' → a ∈ l → ∃ b ∈ l', f a = .ok b
  | a₁ :: l, _, h, ha => by
    rw [List.mapM_cons] at h
    obtain ⟨b, hb, h⟩ := bind_eq_ok_iff.mp h
    obtain ⟨l', hl', h⟩ := bind_eq_ok_iff.mp h
    cases h
    rcases List.mem_cons.mp ha with rfl | ha
    · exact ⟨b, List.mem_cons_self, hb⟩
    · obtain ⟨b', hb', h⟩ := exists_mem_of_mapM hl' ha
      exact ⟨b', List.mem_cons_of_mem b hb', h⟩

/-! ## 3. A state that is handed through a list -/

/-- What every successful step keeps is kept by a successful run. -/
theorem foldlM_invariant {γ : Type u} {σ : Type v} {f : σ → γ → Except ε σ} {P : σ → Prop} :
    ∀ {l : List γ} {s s' : σ}, (∀ a ∈ l, ∀ s s', P s → f s a = .ok s' → P s') → P s →
      l.foldlM f s = .ok s' → P s'
  | [], _, _, _, hs, h => by
    cases h
    exact hs
  | a :: l, s, s', hstep, hs, h => by
    rw [List.foldlM_cons, bind_eq_ok_iff] at h
    obtain ⟨s₁, h₁, h⟩ := h
    exact foldlM_invariant (fun b hb => hstep b (List.mem_cons_of_mem _ hb))
      (hstep a List.mem_cons_self s s₁ hs h₁) h

/-- A run succeeds on the lists that a condition allows, when the condition says of each list what
its first step and the rest do. -/
theorem exists_foldlM_iff {γ : Type u} {σ : Type v} {f : σ → γ → Except ε σ}
    {P : σ → List γ → Prop} (hnil : ∀ s, P s [])
    (hcons : ∀ s a l, P s (a :: l) ↔ ∃ s', f s a = .ok s' ∧ P s' l) :
    ∀ {l : List γ} {s : σ}, (∃ s', l.foldlM f s = .ok s') ↔ P s l
  | [], s => iff_of_true ⟨s, rfl⟩ (hnil s)
  | a :: l, s => by
    rw [hcons]
    constructor
    · rintro ⟨s', h⟩
      rw [List.foldlM_cons, bind_eq_ok_iff] at h
      obtain ⟨s₁, h₁, h⟩ := h
      exact ⟨s₁, h₁, (exists_foldlM_iff hnil hcons).mp ⟨s', h⟩⟩
    · rintro ⟨s₁, h₁, h⟩
      obtain ⟨s', h⟩ := (exists_foldlM_iff hnil hcons).mpr h
      refine ⟨s', ?_⟩
      rw [List.foldlM_cons, h₁]
      exact h

/-! ## 4. A state that is changed in place -/

section

variable {ε σ α β : Type} {x : ExceptT ε (StateM σ) α} {f : α → ExceptT ε (StateM σ) β} {s s' : σ}

theorem run_bind_of_ok {a : α} (h : (ExceptT.run x).run s = (.ok a, s')) :
    (ExceptT.run (x >>= f)).run s = (ExceptT.run (f a)).run s' := by
  have hbind : (ExceptT.run (x >>= f)).run s
    = ExceptT.bindCont f ((ExceptT.run x).run s).1 ((ExceptT.run x).run s).2 := rfl
  rw [hbind, h]
  rfl

theorem run_bind_of_error {cause : ε} (h : (ExceptT.run x).run s = (.error cause, s')) :
    (ExceptT.run (x >>= f)).run s = (.error cause, s') := by
  have hbind : (ExceptT.run (x >>= f)).run s
    = ExceptT.bindCont f ((ExceptT.run x).run s).1 ((ExceptT.run x).run s).2 := rfl
  rw [hbind, h]
  rfl

end

end Arbiter.Outcome
