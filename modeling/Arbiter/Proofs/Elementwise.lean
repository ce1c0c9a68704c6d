/-
# Lists, element by element

Two lists of which each two elements at one place go together.  A step that is made for each element
gives such lists (`Outcome.forall₂_of_mapM`), and what is made of them goes together again: what each
element is worth (`filterMap_eq_of_forall₂`), and the maps that pairs are written to
(`SortedList.related_ofPairs`).
-/
import Arbiter.Proofs.Outcome
import Arbiter.SortedList
import Mathlib.Data.List.Forall2

namespace Arbiter

open Outcome

/-- Each element of the result is what the step gives for the element in its place. -/
theorem Outcome.forall₂_of_mapM {ε α β : Type} {f : α → Except ε β} :
    ∀ {l : List α} {l' : List β}, l.mapM f = .ok l' →
      List.Forall₂ (fun a b => f a = .ok b) l l'
  | [], _, h => by
    cases h
    exact .nil
  | a :: l, _, h => by
    rw [List.mapM_cons] at h
    obtain ⟨b, hb, h⟩ := bind_eq_ok_iff.mp h
    obtain ⟨l', hl', h⟩ := bind_eq_ok_iff.mp h
    cases h
    exact .cons hb (forall₂_of_mapM hl')

/-- Each element of the result is what is read from the element in its place. -/
theorem forall₂_of_mapM_eq_some {α β : Type} {f : α → Option β} : ∀ {l : List α} {l' : List β},
    l.mapM f = some l' → List.Forall₂ (fun a b => f a = some b) l l'
  | [], _, h => by
    cases h
    exact .nil
  | a :: l, _, h => by
    rw [List.mapM_cons, Option.bind_eq_bind, Option.bind_eq_some_iff] at h
    obtain ⟨b, hb, h⟩ := h
    obtain ⟨l', hl', h⟩ := Option.bind_eq_some_iff.mp h
    cases h
    exact .cons hb (forall₂_of_mapM_eq_some hl')

theorem exists_mem_of_forall₂ {α β : Type} {R : α → β → Prop} {l : List α} {l' : List β} {a : α}
    (h : List.Forall₂ R l l') (ha : a ∈ l) : ∃ b ∈ l', R a b := by
  induction h with
  | nil => cases ha
  | @cons a₁ b l l' hab _ ih =>
    rcases List.mem_cons.mp ha with rfl | ha
    · exact ⟨b, List.mem_cons_self, hab⟩
    · obtain ⟨b', hb', h⟩ := ih ha
      exact ⟨b', List.mem_cons_of_mem b hb', h⟩

/-- What is made of lists element by element, when it is the same for each two of them. -/
theorem filterMap_eq_of_forall₂ {α β : Type} {f : α → Option β} {l l' : List α}
    (h : List.Forall₂ (fun a a' => f a' = f a) l l') : l'.filterMap f = l.filterMap f := by
  induction h with
  | nil => rfl
  | cons haa' _ ih => rw [List.filterMap_cons, List.filterMap_cons, haa', ih]

namespace SortedList

/-- The look-ups of two maps of the same names find related things, or both nothing. -/
def Related {α β : Type} (R : α → β → Prop) (m : List (String × α)) (n : List (String × β)) :
    Prop :=
  ∀ name, (∀ a, find? name m = some a → ∃ b, find? name n = some b) ∧
    ∀ a b, find? name m = some a → find? name n = some b → R a b

variable {α β : Type} {R : α → β → Prop} {l : List (String × α)} {k : List (String × β)}

theorem related_foldl_put (h : List.Forall₂ (fun x y => x.1 = y.1 ∧ R x.2 y.2) l k) :
    ∀ {m n}, Related R m n → Related R (l.foldl (fun m e => put e.1 e.2 m) m)
      (k.foldl (fun n e => put e.1 e.2 n) n) := by
  induction h with
  | nil => exact fun h => h
  | @cons x y l k hxy _ ih =>
    intro m n hmn
    obtain ⟨hname, hrel⟩ := hxy
    refine ih fun name => ?_
    simp only [find?_put, ← hname]
    by_cases heq : compare name x.1 = .eq
    · simp only [if_pos heq, Option.some.injEq]
      refine ⟨fun _ _ => ⟨_, rfl⟩, ?_⟩
      rintro _ _ rfl rfl
      exact hrel
    · simp only [if_neg heq]
      exact hmn name

/-- Pairs of the same names with related things make related maps. -/
theorem related_ofPairs (h : List.Forall₂ (fun x y => x.1 = y.1 ∧ R x.2 y.2) l k) :
    Related R (ofPairs l) (ofPairs k) :=
  related_foldl_put h fun _ => ⟨nofun, nofun⟩

end SortedList

end Arbiter
