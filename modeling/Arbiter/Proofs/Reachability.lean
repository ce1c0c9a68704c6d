/-
# What the search of a graph finds

`explore` walks a graph from a queue of nodes, and each of the nodes to expand leaves the list of
them when it is expanded, so that the list is another one at every step.  The two directions need
two statements about a state in the middle of a run:

* **soundness** (`mem_seen_or_path_of_mem_explore`): what is found was seen before, or there is a
  path to it from the queue;
* **completeness** (`Frontier.explore`): when each node that has been expanded has its successors
  in `seen` or in the queue, the nodes that are found are closed under successors.

Together they say that the search finds exactly the ends of the paths from its start
(`mem_reachable_iff`).  A path passes only through nodes that are expanded; its end need not be
one.
-/
import Arbiter.Reach
import Mathlib.Logic.Relation

namespace Arbiter

universe u v

variable {α : Type u} {next : α → List α} {nodes queue seen : List α} {x y : α}

/-- `b` is a successor of `a`, and `a` is among the nodes that are expanded. -/
def Expands (next : α → List α) (nodes : List α) (a b : α) : Prop := a ∈ nodes ∧ b ∈ next a

/-- There is a path from `a` to `b` through nodes that are expanded. -/
abbrev Path (next : α → List α) (nodes : List α) : α → α → Prop :=
  Relation.ReflTransGen (Expands next nodes)

theorem Path.mono {nodes' : List α} (hsub : nodes' ⊆ nodes) (h : Path next nodes' x y) :
    Path next nodes x y :=
  Relation.ReflTransGen.mono (fun _ _ hab => ⟨hsub hab.1, hab.2⟩) x y h

theorem path_iff_eq_or_exists :
    Path next nodes x y ↔ x = y ∨ ∃ z, Expands next nodes x z ∧ Path next nodes z y :=
  Relation.ReflTransGen.cases_head_iff

/-- What each step of a path keeps holds at its end. -/
theorem Path.invariant {I : α → Prop} (hstep : ∀ a b, I a → Expands next nodes a b → I b) (hx : I x)
    (h : Path next nodes x y) : I y := by
  induction h with
  | refl => exact hx
  | tail _ hbc ih => exact hstep _ _ ih hbc

/-- A path whose nodes keep an invariant goes along with a path in another graph, when each step
of it does. -/
theorem Path.simulate {β : Type v} {next' : β → List β} {nodes' : List β} {f : α → β}
    {I : α → Prop}
    (hstep : ∀ a b, I a → Expands next nodes a b → I b ∧ Expands next' nodes' (f a) (f b))
    (hx : I x) (h : Path next nodes x y) : I y ∧ Path next' nodes' (f x) (f y) := by
  induction h with
  | refl => exact ⟨hx, .refl⟩
  | tail _ hbc ih =>
    obtain ⟨hb, hpath⟩ := ih
    obtain ⟨hc, hedge⟩ := hstep _ _ hb hbc
    exact ⟨hc, hpath.tail hedge⟩

variable [DecidableEq α]

/-! ## 1. Soundness -/

theorem mem_seen_or_path_of_mem_explore (h : x ∈ explore next nodes queue seen) :
    x ∈ seen ∨ ∃ q ∈ queue, Path next nodes q x := by
  induction nodes, queue, seen using explore.induct next with
  | case1 nodes seen =>
    rw [explore] at h
    exact Or.inl h
  | case2 nodes seen q rest hseen ih =>
    rw [explore, if_pos hseen] at h
    rcases ih h with hx | ⟨p, hp, hpath⟩
    · exact Or.inl hx
    · exact Or.inr ⟨p, List.mem_cons_of_mem _ hp, hpath⟩
  | case3 nodes seen q rest hseen hnode ih =>
    rw [explore, if_neg hseen, if_pos hnode] at h
    rcases ih h with hx | ⟨p, hp, hpath⟩
    · rcases List.mem_cons.mp hx with rfl | hx
      · exact Or.inr ⟨x, List.mem_cons_self, .refl⟩
      · exact Or.inl hx
    · have hpath : Path next nodes p x := hpath.mono List.erase_subset
      rcases List.mem_append.mp hp with hp | hp
      · exact Or.inr ⟨p, List.mem_cons_of_mem _ hp, hpath⟩
      · exact Or.inr ⟨q, List.mem_cons_self, .head ⟨hnode, hp⟩ hpath⟩
  | case4 nodes seen q rest hseen hnode ih =>
    rw [explore, if_neg hseen, if_neg hnode] at h
    rcases ih h with hx | ⟨p, hp, hpath⟩
    · rcases List.mem_cons.mp hx with rfl | hx
      · exact Or.inr ⟨x, List.mem_cons_self, .refl⟩
      · exact Or.inl hx
    · exact Or.inr ⟨p, List.mem_cons_of_mem _ hp, hpath⟩

/-! ## 2. Completeness -/

/-- What holds between two steps of a search that set out to expand `all`: the nodes still to
expand are those that have not been seen, and the successors of the others are seen or queued. -/
structure Frontier (next : α → List α) (all nodes queue seen : List α) : Prop where
  unseen : ∀ a ∈ all, a ∉ seen → a ∈ nodes
  queued : ∀ a ∈ all, a ∈ seen → ∀ b ∈ next a, b ∈ seen ∨ b ∈ queue

theorem subset_explore (h : x ∈ seen ∨ x ∈ queue) : x ∈ explore next nodes queue seen := by
  induction nodes, queue, seen using explore.induct next with
  | case1 nodes seen =>
    rw [explore]
    exact h.resolve_right List.not_mem_nil
  | case2 nodes seen q rest hseen ih =>
    rw [explore, if_pos hseen]
    rcases h with h | h
    · exact ih (Or.inl h)
    · rcases List.mem_cons.mp h with rfl | h
      · exact ih (Or.inl hseen)
      · exact ih (Or.inr h)
  | case3 nodes seen q rest hseen hnode ih =>
    rw [explore, if_neg hseen, if_pos hnode]
    rcases h with h | h
    · exact ih (Or.inl (List.mem_cons_of_mem _ h))
    · rcases List.mem_cons.mp h with rfl | h
      · exact ih (Or.inl List.mem_cons_self)
      · exact ih (Or.inr (List.mem_append_left _ h))
  | case4 nodes seen q rest hseen hnode ih =>
    rw [explore, if_neg hseen, if_neg hnode]
    rcases h with h | h
    · exact ih (Or.inl (List.mem_cons_of_mem _ h))
    · rcases List.mem_cons.mp h with rfl | h
      · exact ih (Or.inl List.mem_cons_self)
      · exact ih (Or.inr h)

/-- **The nodes that are found are closed under successors.**  The frontier is kept by each of
the four steps; at the end the queue is empty. -/
theorem Frontier.explore {all : List α} (hf : Frontier next all nodes queue seen)
    (hall : x ∈ all) (hx : x ∈ Arbiter.explore next nodes queue seen) (hy : y ∈ next x) :
    y ∈ Arbiter.explore next nodes queue seen := by
  induction nodes, queue, seen using explore.induct next with
  | case1 nodes seen =>
    rw [Arbiter.explore] at hx ⊢
    exact (hf.queued x hall hx y hy).resolve_right List.not_mem_nil
  | case2 nodes seen q rest hseen ih =>
    rw [Arbiter.explore, if_pos hseen] at hx ⊢
    refine ih ⟨hf.unseen, fun a ha has b hb => ?_⟩ hx
    rcases hf.queued a ha has b hb with h | h
    · exact Or.inl h
    · rcases List.mem_cons.mp h with rfl | h
      · exact Or.inl hseen
      · exact Or.inr h
  | case3 nodes seen q rest hseen hnode ih =>
    rw [Arbiter.explore, if_neg hseen, if_pos hnode] at hx ⊢
    refine ih ⟨fun a ha hns => ?_, fun a ha has b hb => ?_⟩ hx
    · have hne : a ≠ q := fun e => hns (e ▸ List.mem_cons_self)
      exact (List.mem_erase_of_ne hne).mpr
        (hf.unseen a ha fun h => hns (List.mem_cons_of_mem _ h))
    · rcases List.mem_cons.mp has with rfl | has
      · exact Or.inr (List.mem_append_right _ hb)
      · rcases hf.queued a ha has b hb with h | h
        · exact Or.inl (List.mem_cons_of_mem _ h)
        · rcases List.mem_cons.mp h with rfl | h
          · exact Or.inl List.mem_cons_self
          · exact Or.inr (List.mem_append_left _ h)
  | case4 nodes seen q rest hseen hnode ih =>
    rw [Arbiter.explore, if_neg hseen, if_neg hnode] at hx ⊢
    -- `q` is new and not to be expanded any more, so it never was one of `all`
    have hq : q ∉ all := fun h => hnode (hf.unseen q h hseen)
    refine ih ⟨fun a ha hns => ?_, fun a ha has b hb => ?_⟩ hx
    · exact hf.unseen a ha fun h => hns (List.mem_cons_of_mem _ h)
    · rcases List.mem_cons.mp has with rfl | has
      · exact absurd ha hq
      · rcases hf.queued a ha has b hb with h | h
        · exact Or.inl (List.mem_cons_of_mem _ h)
        · rcases List.mem_cons.mp h with rfl | h
          · exact Or.inl List.mem_cons_self
          · exact Or.inr h

/-! ## 3. The search from a start -/

/-- **The search finds exactly the ends of the paths from its start.** -/
theorem mem_reachable_iff {start : List α} :
    x ∈ reachable next nodes start ↔ ∃ q ∈ start, Path next nodes q x := by
  have hf : Frontier next nodes nodes start [] :=
    ⟨fun _ ha _ => ha, fun _ _ h => absurd h List.not_mem_nil⟩
  constructor
  · intro h
    exact (mem_seen_or_path_of_mem_explore h).resolve_left List.not_mem_nil
  · rintro ⟨q, hq, hpath⟩
    induction hpath with
    | refl => exact subset_explore (Or.inr hq)
    | tail _ hbc ih => exact hf.explore hbc.1 ih hbc.2

end Arbiter
