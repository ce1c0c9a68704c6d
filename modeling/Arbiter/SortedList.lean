/-
# Lists in strictly ascending order

Sets and maps are kept as lists in strictly ascending order, so that two of them are equal
exactly when they hold the same things, and walking one visits its elements in order.  The
operations here work on plain lists, because the nested types of the library (values,
expressions, record types) hold plain lists; `SortedMap` and `SortedSet` bundle a list with
the proof that it ascends.

Main statements:

* `put` and `add` keep a list ascending (`ascending_put`, `strict_add`);
* a look-up sees the last write, on any list at all (`find?_put`), and in an ascending list it
  finds every pair (`find?_eq_some_iff`);
* `add` adds just its element (`mem_add`).
-/

namespace Arbiter.SortedList

universe u v w

variable {κ : Type u} {α : Type v} [Ord κ]

/-! ## 1. Maps -/

/-- The keys ascend strictly, so no key occurs twice. -/
def Ascending (l : List (κ × α)) : Prop :=
  l.Pairwise fun a b => compare a.1 b.1 = .lt

/-- Writes `v` under `k`, in place of what was there. -/
def put (k : κ) (v : α) : List (κ × α) → List (κ × α)
  | [] => [(k, v)]
  | (k', v') :: r =>
    match compare k k' with
    | .lt => (k, v) :: (k', v') :: r
    | .eq => (k, v) :: r
    | .gt => (k', v') :: put k v r

/-- The first value written under `k`. -/
def find? (k : κ) : List (κ × α) → Option α
  | [] => none
  | (k', v') :: r => if compare k k' = .eq then some v' else find? k r

/-- Writes the pairs one after the other: of two under one key the later one stays. -/
def ofPairs (l : List (κ × α)) : List (κ × α) :=
  l.foldl (fun m e => put e.1 e.2 m) []

theorem key_of_mem_put {k : κ} {v : α} {e : κ × α} :
    ∀ {l : List (κ × α)}, e ∈ put k v l → e = (k, v) ∨ e ∈ l
  | [], h => by simpa [put] using h
  | (k', v') :: r, h => by
    simp only [put] at h
    split at h
    · simpa using h
    · rcases List.mem_cons.1 h with h | h
      · exact .inl h
      · exact .inr (List.mem_cons_of_mem _ h)
    · rcases List.mem_cons.1 h with h | h
      · exact .inr (h ▸ List.mem_cons_self)
      · exact (key_of_mem_put h).imp_right (List.mem_cons_of_mem _)

theorem ascending_put [Std.TransOrd κ] (k : κ) (v : α) :
    ∀ {l : List (κ × α)}, Ascending l → Ascending (put k v l)
  | [], _ => by simp [put, Ascending]
  | (k', v') :: r, h => by
    obtain ⟨hhead, htail⟩ := List.pairwise_cons.1 h
    simp only [put]
    split
    · rename_i hlt
      refine List.pairwise_cons.2 ⟨fun e he => ?_, h⟩
      rcases List.mem_cons.1 he with rfl | he
      · exact hlt
      · exact Std.TransCmp.lt_trans hlt (hhead e he)
    · rename_i heq
      refine List.pairwise_cons.2 ⟨fun e he => ?_, htail⟩
      exact Std.TransCmp.lt_of_eq_of_lt heq (hhead e he)
    · rename_i hgt
      refine List.pairwise_cons.2 ⟨fun e he => ?_, ascending_put k v htail⟩
      rcases key_of_mem_put he with rfl | he
      · exact Std.OrientedCmp.lt_of_gt hgt
      · exact hhead e he

theorem ascending_foldl_put [Std.TransOrd κ] :
    ∀ (l m : List (κ × α)), Ascending m → Ascending (l.foldl (fun m e => put e.1 e.2 m) m)
  | [], _, h => h
  | e :: l, _, h => ascending_foldl_put l _ (ascending_put e.1 e.2 h)

theorem ascending_ofPairs [Std.TransOrd κ] (l : List (κ × α)) : Ascending (ofPairs l) :=
  ascending_foldl_put l [] List.Pairwise.nil

theorem ascending_map {β : Type w} (f : α → β) {l : List (κ × α)} (h : Ascending l) :
    Ascending (l.map fun e => (e.1, f e.2)) := by
  unfold Ascending
  rw [List.pairwise_map]
  exact h

/-- A look-up after a write sees the write, whether or not the list ascends. -/
theorem find?_put [Std.TransOrd κ] [Std.LawfulEqOrd κ] (k j : κ) (v : α) :
    ∀ l : List (κ × α), find? j (put k v l) = if compare j k = .eq then some v else find? j l
  | [] => by simp [put, find?]
  | (k', v') :: r => by
    have ih := find?_put k j v r
    simp only [put]
    split
    · simp [find?]
    · rename_i h
      have hk : k = k' := Std.LawfulEqCmp.eq_of_compare h
      subst hk
      simp only [find?]
      split <;> simp
    · rename_i h
      simp only [find?, ih]
      by_cases hj : compare j k' = .eq
      · have : j = k' := Std.LawfulEqCmp.eq_of_compare hj
        subst this
        have hne : compare j k ≠ .eq := fun hjk => by
          have : j = k := Std.LawfulEqCmp.eq_of_compare hjk
          subst this
          simp [Std.ReflCmp.compare_self] at h
        simp [hne]
      · simp [hj]

theorem mem_of_find? [Std.LawfulEqOrd κ] {k : κ} {v : α} :
    ∀ {l : List (κ × α)}, find? k l = some v → (k, v) ∈ l
  | (k', v') :: r, h => by
    simp only [find?] at h
    split at h
    · rename_i hk
      cases Std.LawfulEqCmp.eq_of_compare hk
      cases h
      exact List.mem_cons_self
    · exact List.mem_cons_of_mem _ (mem_of_find? h)

/-- In an ascending list a look-up finds every pair. -/
theorem find?_eq_some_iff [Std.TransOrd κ] [Std.LawfulEqOrd κ] {k : κ} {v : α} :
    ∀ {l : List (κ × α)}, Ascending l → (find? k l = some v ↔ (k, v) ∈ l)
  | [], _ => by simp [find?]
  | (k', v') :: r, h => by
    obtain ⟨hhead, htail⟩ := List.pairwise_cons.1 h
    refine ⟨mem_of_find?, fun hm => ?_⟩
    simp only [find?]
    rcases List.mem_cons.1 hm with heq | htl
    · cases heq
      rw [if_pos Std.ReflCmp.compare_self]
    · have hlt : compare k' k = .lt := hhead (k, v) htl
      have hne : compare k k' ≠ .eq := by
        intro hk
        rw [Std.OrientedCmp.eq_comm.1 hk] at hlt
        cases hlt
      rw [if_neg hne]
      exact (find?_eq_some_iff htail).2 htl

theorem mem_of_mem_foldl_put {e : κ × α} : ∀ (l m : List (κ × α)),
    e ∈ l.foldl (fun m e => put e.1 e.2 m) m → e ∈ l ∨ e ∈ m
  | [], _, h => .inr h
  | e' :: l, m, h => by
    rcases mem_of_mem_foldl_put l (put e'.1 e'.2 m) h with h | h
    · exact .inl (List.mem_cons_of_mem _ h)
    · rcases key_of_mem_put h with rfl | h
      · exact .inl List.mem_cons_self
      · exact .inr h

theorem mem_of_mem_ofPairs {e : κ × α} {l : List (κ × α)} (h : e ∈ ofPairs l) : e ∈ l :=
  (mem_of_mem_foldl_put l [] h).resolve_right List.not_mem_nil

/-- A pair under a new key goes between two parts of the list and changes neither. -/
theorem exists_put_eq_append {k : κ} (v : α) :
    ∀ {l : List (κ × α)}, find? k l = none →
      ∃ l₁ l₂, l = l₁ ++ l₂ ∧ put k v l = l₁ ++ (k, v) :: l₂
  | [], _ => ⟨[], [], rfl, rfl⟩
  | (k', v') :: r, h => by
    simp only [find?] at h
    split at h
    · cases h
    · rename_i hk
      obtain ⟨l₁, l₂, hl, hput⟩ := exists_put_eq_append v h
      simp only [put]
      split
      · exact ⟨[], (k', v') :: r, rfl, rfl⟩
      · rename_i heq
        exact absurd heq hk
      · exact ⟨(k', v') :: l₁, l₂, by rw [hl]; rfl, by rw [hput]; rfl⟩

/-- A value that is looked at only through `f`, and left out unless `q` holds of it, can be replaced. -/
theorem map_filter_put {β : Type w} (q : α → Bool) (f : α → β) (k : κ) (v v' : α)
    (hq : q v = q v') (hf : q v = true → f v = f v') : ∀ l : List (κ × α),
      (((put k v l).map Prod.snd).filter q).map f = (((put k v' l).map Prod.snd).filter q).map f
  | [] => by
    cases hv : q v <;> simp_all [put]
  | (k', w) :: r => by
    simp only [put]
    cases compare k k' with
    | lt | eq => cases hv : q v <;> simp_all
    | gt =>
      simp only [List.map_cons, List.filter_cons]
      split <;> simp [map_filter_put q f k v v' hq hf r]

/-- A pair under a key above all others goes to the end. -/
theorem put_eq_append [Std.OrientedOrd κ] {k : κ} {v : α} :
    ∀ {l : List (κ × α)}, (∀ e ∈ l, compare e.1 k = .lt) → put k v l = l ++ [(k, v)]
  | [], _ => rfl
  | (k', v') :: r, h => by
    obtain ⟨hlt, hr⟩ := List.forall_mem_cons.mp h
    have hgt : compare k k' = .gt := Std.OrientedCmp.gt_of_lt hlt
    simp only [put, hgt, put_eq_append hr, List.cons_append]

theorem foldl_put_of_ascending [Std.OrientedOrd κ] :
    ∀ (l m : List (κ × α)), Ascending (m ++ l) → l.foldl (fun m e => put e.1 e.2 m) m = m ++ l
  | [], m, _ => (List.append_nil m).symm
  | e :: l, m, h => by
    have hlt : ∀ e' ∈ m, compare e'.1 e.1 = .lt := fun e' he' =>
      (List.pairwise_append.mp h).2.2 e' he' e List.mem_cons_self
    have hassoc : m ++ [e] ++ l = m ++ e :: l := (List.append_cons m e l).symm
    rw [List.foldl_cons, put_eq_append hlt, foldl_put_of_ascending l _ (hassoc ▸ h), hassoc]

/-- A list that ascends is the map of its pairs. -/
theorem ofPairs_of_ascending [Std.OrientedOrd κ] {l : List (κ × α)} (h : Ascending l) :
    ofPairs l = l :=
  foldl_put_of_ascending l [] h

/-- Below the first key there is nothing. -/
theorem find?_eq_none_of_lt [Std.TransOrd κ] {k : κ} :
    ∀ {l : List (κ × α)}, (∀ e ∈ l, compare k e.1 = .lt) → find? k l = none
  | [], _ => rfl
  | (k', v') :: r, h => by
    obtain ⟨hlt, hr⟩ := List.forall_mem_cons.mp h
    have hne : ¬ compare k k' = .eq := by
      intro heq
      rw [heq] at hlt
      cases hlt
    rw [find?, if_neg hne, find?_eq_none_of_lt hr]

/-- Two lists that ascend are equal when look-ups in them are. -/
theorem eq_of_find?_eq [Std.TransOrd κ] [Std.LawfulEqOrd κ] :
    ∀ {l m : List (κ × α)}, Ascending l → Ascending m → (∀ k, find? k l = find? k m) → l = m
  | [], [], _, _, _ => rfl
  | [], (k, v) :: m, _, _, h => by
    have hk := h k
    rw [find?, find?, if_pos Std.ReflCmp.compare_self] at hk
    cases hk
  | (k, v) :: l, [], _, _, h => by
    have hk := h k
    rw [find?, find?, if_pos Std.ReflCmp.compare_self] at hk
    cases hk
  | (k, v) :: l, (k', v') :: m, hl, hm, h => by
    obtain ⟨hkl, hltail⟩ := List.pairwise_cons.mp hl
    obtain ⟨hkm, hmtail⟩ := List.pairwise_cons.mp hm
    have hself (j : κ) : compare j j = .eq := Std.ReflCmp.compare_self
    have hk := h k
    have hk' := h k'
    cases hcmp : compare k k' with
    | lt =>
      have hnone : find? k ((k', v') :: m) = none := find?_eq_none_of_lt <|
        List.forall_mem_cons.mpr ⟨hcmp, fun e he => Std.TransCmp.lt_trans hcmp (hkm e he)⟩
      rw [hnone, find?, if_pos (hself k)] at hk
      cases hk
    | gt =>
      have hlt : compare k' k = .lt := Std.OrientedCmp.lt_of_gt hcmp
      have hnone : find? k' ((k, v) :: l) = none := find?_eq_none_of_lt <|
        List.forall_mem_cons.mpr ⟨hlt, fun e he => Std.TransCmp.lt_trans hlt (hkl e he)⟩
      rw [hnone, find?, if_pos (hself k')] at hk'
      cases hk'
    | eq =>
      cases Std.LawfulEqCmp.eq_of_compare hcmp
      rw [find?, find?, if_pos (hself k), if_pos (hself k)] at hk
      cases hk
      have htail : l = m := by
        refine eq_of_find?_eq hltail hmtail fun j => ?_
        by_cases hj : compare j k = .eq
        · cases Std.LawfulEqCmp.eq_of_compare hj
          rw [find?_eq_none_of_lt hkl, find?_eq_none_of_lt hkm]
        · have hj' := h j
          rw [find?, find?, if_neg hj, if_neg hj] at hj'
          exact hj'
      rw [htail]

theorem find?_eq_none_iff [Std.LawfulEqOrd κ] {k : κ} :
    ∀ {l : List (κ × α)}, find? k l = none ↔ ∀ e ∈ l, e.1 ≠ k
  | [] => iff_of_true rfl (List.forall_mem_nil _)
  | (k', v') :: r => by
    rw [find?, List.forall_mem_cons]
    split
    · rename_i heq
      exact iff_of_false nofun fun h => h.1 (Std.LawfulEqCmp.eq_of_compare heq).symm
    · rename_i hne
      refine find?_eq_none_iff.trans (and_iff_right ?_).symm
      rintro rfl
      exact hne Std.ReflCmp.compare_self

theorem foldl_put_perm [Std.LawfulEqOrd κ] : ∀ (l m : List (κ × α)),
    ((m ++ l).map Prod.fst).Nodup → (l.foldl (fun m e => put e.1 e.2 m) m).Perm (m ++ l)
  | [], m, _ => by rw [List.append_nil]; exact .refl m
  | e :: l, m, h => by
    have hfresh : ∀ e' ∈ m, e'.1 ≠ e.1 := by
      intro e' he'
      rw [List.map_append, List.map_cons, List.nodup_append] at h
      exact h.2.2 _ (List.mem_map_of_mem he') _ List.mem_cons_self
    have hput : (put e.1 e.2 m).Perm (e :: m) := by
      obtain ⟨m₁, m₂, hm, hput⟩ := exists_put_eq_append e.2 (find?_eq_none_iff.mpr hfresh)
      rw [hput, hm]
      exact List.perm_middle
    have hperm : (put e.1 e.2 m ++ l).Perm (m ++ e :: l) :=
      (hput.append_right l).trans List.perm_middle.symm
    exact (foldl_put_perm l _ ((hperm.map Prod.fst).nodup_iff.mpr h)).trans hperm

/-- Without repeated keys no pair is lost. -/
theorem ofPairs_perm [Std.LawfulEqOrd κ] {l : List (κ × α)} (h : (l.map Prod.fst).Nodup) :
    (ofPairs l).Perm l :=
  foldl_put_perm l [] h

/-! ## 2. Sets -/

/-- The elements ascend strictly. -/
def Strict (l : List κ) : Prop :=
  l.Pairwise fun a b => compare a b = .lt

/-- Whether a list ascends is a matter of its keys. -/
theorem ascending_iff_keys {l : List (κ × α)} : Ascending l ↔ Strict (l.map Prod.fst) := by
  unfold Ascending Strict
  rw [List.pairwise_map]

/-- No element occurs twice. -/
theorem Strict.nodup [Std.ReflOrd κ] {l : List κ} (h : Strict l) : l.Nodup := by
  refine List.Pairwise.imp ?_ h
  rintro x _ hlt rfl
  have hself : compare x x = .eq := Std.ReflCmp.compare_self
  rw [hself] at hlt
  cases hlt

/-- Puts `x` at its place, unless it is there. -/
def add (x : κ) : List κ → List κ
  | [] => [x]
  | y :: r =>
    match compare x y with
    | .lt => x :: y :: r
    | .eq => y :: r
    | .gt => y :: add x r

/-- The elements of `l`, each once, in order. -/
def ofElems (l : List κ) : List κ :=
  l.foldl (fun s x => add x s) []

/-- Whether `x` is an element. -/
def has (x : κ) (l : List κ) : Bool :=
  l.any fun y => compare x y == .eq

theorem mem_add [Std.LawfulEqOrd κ] {x y : κ} :
    ∀ {l : List κ}, y ∈ add x l ↔ y = x ∨ y ∈ l
  | [] => by simp [add]
  | z :: r => by
    simp only [add]
    split
    · simp
    · rename_i h
      have : x = z := Std.LawfulEqCmp.eq_of_compare h
      subst this
      simp
    · simp only [List.mem_cons, mem_add (l := r)]
      exact ⟨fun h => by rcases h with h | h | h <;> simp [h],
        fun h => by rcases h with h | h | h <;> simp [h]⟩

theorem strict_add [Std.TransOrd κ] [Std.LawfulEqOrd κ] (x : κ) :
    ∀ {l : List κ}, Strict l → Strict (add x l)
  | [], _ => by simp [add, Strict]
  | y :: r, h => by
    obtain ⟨hhead, htail⟩ := List.pairwise_cons.1 h
    simp only [add]
    split
    · rename_i hlt
      refine List.pairwise_cons.2 ⟨fun e he => ?_, h⟩
      rcases List.mem_cons.1 he with rfl | he
      · exact hlt
      · exact Std.TransCmp.lt_trans hlt (hhead e he)
    · exact h
    · rename_i hgt
      refine List.pairwise_cons.2 ⟨fun e he => ?_, strict_add x htail⟩
      rcases mem_add.1 he with rfl | he
      · exact Std.OrientedCmp.lt_of_gt hgt
      · exact hhead e he

theorem strict_foldl_add [Std.TransOrd κ] [Std.LawfulEqOrd κ] :
    ∀ (l s : List κ), Strict s → Strict (l.foldl (fun s x => add x s) s)
  | [], _, h => h
  | x :: l, _, h => strict_foldl_add l _ (strict_add x h)

theorem strict_ofElems [Std.TransOrd κ] [Std.LawfulEqOrd κ] (l : List κ) :
    Strict (ofElems l) :=
  strict_foldl_add l [] List.Pairwise.nil

theorem mem_foldl_add [Std.LawfulEqOrd κ] {y : κ} :
    ∀ {l s : List κ}, y ∈ l.foldl (fun s x => add x s) s ↔ y ∈ l ∨ y ∈ s
  | [], s => by simp
  | x :: l, s => by
    simp only [List.foldl_cons, mem_foldl_add (l := l), mem_add, List.mem_cons]
    exact ⟨fun h => by rcases h with h | h | h <;> simp [h],
      fun h => by rcases h with (h | h) | h <;> simp [h]⟩

theorem mem_ofElems [Std.LawfulEqOrd κ] {y : κ} {l : List κ} : y ∈ ofElems l ↔ y ∈ l := by
  simp [ofElems, mem_foldl_add]

/-- An element above all others goes to the end. -/
theorem add_eq_append [Std.OrientedOrd κ] {x : κ} :
    ∀ {l : List κ}, (∀ y ∈ l, compare y x = .lt) → add x l = l ++ [x]
  | [], _ => rfl
  | y :: r, h => by
    obtain ⟨hlt, hr⟩ := List.forall_mem_cons.mp h
    have hgt : compare x y = .gt := Std.OrientedCmp.gt_of_lt hlt
    simp only [add, hgt, add_eq_append hr, List.cons_append]

theorem foldl_add_of_strict [Std.OrientedOrd κ] :
    ∀ (l s : List κ), Strict (s ++ l) → l.foldl (fun s x => add x s) s = s ++ l
  | [], s, _ => (List.append_nil s).symm
  | x :: l, s, h => by
    have hlt : ∀ y ∈ s, compare y x = .lt := fun y hy =>
      (List.pairwise_append.mp h).2.2 y hy x List.mem_cons_self
    have hassoc : s ++ [x] ++ l = s ++ x :: l := (List.append_cons s x l).symm
    rw [List.foldl_cons, add_eq_append hlt, foldl_add_of_strict l _ (hassoc ▸ h), hassoc]

/-- A list that ascends is the set of its elements. -/
theorem ofElems_of_strict [Std.OrientedOrd κ] {l : List κ} (h : Strict l) : ofElems l = l :=
  foldl_add_of_strict l [] h

theorem has_iff [Std.LawfulEqOrd κ] {x : κ} {l : List κ} : has x l = true ↔ x ∈ l := by
  simp only [has, List.any_eq_true, beq_iff_eq, Std.LawfulEqCmp.compare_eq_iff_eq]
  exact ⟨fun ⟨y, hy, e⟩ => e ▸ hy, fun h => ⟨x, h, rfl⟩⟩

end Arbiter.SortedList
