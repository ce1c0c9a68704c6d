/-
# A search turn by turn

`reachable` says at once what a search finds.  A loop over a queue finds it turn by turn: it takes
the first node of the queue, passes over it when it has been seen, and otherwise sees it and queues
its successors, all of them or only those that it has not seen (`Search.turn`).  A loop that looks
for one node stops at it: a node is tested when it is taken, before it is seen (`Seek.turn`).  Two
things carry over to any such loop:

* **it ends** (`Search.exists_ended`): a node is seen once, so its successors are queued once, and
  what is left to do, the queue and the successors of the nodes not seen yet, gets less with every
  turn (`Search.work_turn_lt`);
* **it finds what `reachable` finds** (`Search.Progress.mem_seen_iff`): what has been seen or queued
  can be reached from the start, and the successors of what has been seen are never lost
  (`Search.Progress`); what has been seen was tested and is not the node that is looked for
  (`Seek.Progress`).
-/
import Arbiter.Proofs.Reachability
import Mathlib.Logic.Function.Iterate

namespace Arbiter

universe u

/-- A search under way. -/
structure Search (α : Type u) where
  /-- The nodes that wait for their turn. -/
  queue : List α
  /-- The nodes that had their turn. -/
  seen : List α

namespace Search

variable {α : Type u} [DecidableEq α] {next : α → List α} {keep : List α → α → Bool}
  {nodes start seen : List α} {s : Search α} {x : α}

/-- One turn of a search; `keep` tells which of the successors of a node are queued, given what has
been seen. -/
def turn (next : α → List α) (keep : List α → α → Bool) : Search α → Search α
  | ⟨[], seen⟩ => ⟨[], seen⟩
  | ⟨x :: rest, seen⟩ =>
    if x ∈ seen then ⟨rest, seen⟩
    else ⟨rest ++ (next x).filter (keep (x :: seen)), x :: seen⟩

/-- All successors are kept, whatever has been seen. -/
def keepAll (_ : List α) (_ : α) : Bool := true

/-- The successors that have not been seen are kept. -/
def keepUnseen (seen : List α) (x : α) : Bool := x ∉ seen

theorem turn_of_mem {rest : List α} (h : x ∈ seen) :
    turn next keep ⟨x :: rest, seen⟩ = ⟨rest, seen⟩ := if_pos h

theorem turn_of_notMem {rest : List α} (h : x ∉ seen) : turn next keep ⟨x :: rest, seen⟩
    = ⟨rest ++ (next x).filter (keep (x :: seen)), x :: seen⟩ := if_neg h

/-! ## 1. The end -/

/-- How many nodes may be queued yet, by those of the `nodes` that have not been seen. -/
def pending (next : α → List α) (nodes seen : List α) : Nat :=
  ((nodes.filter (· ∉ seen)).flatMap next).length

theorem pending_nil : pending next nodes [] = (nodes.flatMap next).length := by
  unfold pending
  rw [List.filter_eq_self.mpr fun a _ => by simp]

theorem pending_cons_le (x : α) :
    ∀ nodes : List α, pending next nodes (x :: seen) ≤ pending next nodes seen
  | [] => Nat.le_refl _
  | a :: nodes => by
    have hrest : pending next nodes (x :: seen) ≤ pending next nodes seen := pending_cons_le x nodes
    unfold pending at hrest ⊢
    by_cases hseen : a ∈ seen
    · simpa [hseen] using hrest
    · by_cases ha : a = x
      · rw [List.filter_cons_of_neg (by simp [ha]), List.filter_cons_of_pos (by simp [hseen]),
          List.flatMap_cons, List.length_append]
        omega
      · rw [List.filter_cons_of_pos (by simp [ha, hseen]),
          List.filter_cons_of_pos (by simp [hseen]), List.flatMap_cons, List.flatMap_cons,
          List.length_append, List.length_append]
        omega

/-- When a node is seen, its successors are not pending any more; one that is not among the nodes has
none. -/
theorem length_add_pending_le (hx : x ∉ seen) :
    ∀ {nodes : List α}, (x ∉ nodes → next x = []) →
      (next x).length + pending next nodes (x :: seen) ≤ pending next nodes seen
  | [], h => by simp [h List.not_mem_nil, pending]
  | a :: nodes, h => by
    by_cases ha : a = x
    · subst ha
      have hrest : pending next nodes (a :: seen) ≤ pending next nodes seen :=
        pending_cons_le a nodes
      simpa [pending, hx] using hrest
    · have hnone : x ∉ nodes → next x = [] := fun hn =>
        h (List.not_mem_cons_of_ne_of_not_mem (Ne.symm ha) hn)
      have hrest := length_add_pending_le hx hnone
      by_cases hseen : a ∈ seen
      · simpa [pending, ha, hseen] using hrest
      · simp only [pending, List.mem_cons, ha, hseen, or_self, not_false_eq_true, decide_true,
          List.filter_cons_of_pos, List.flatMap_cons, List.length_append] at hrest ⊢
        omega

/-- What is left to do. -/
def work (next : α → List α) (nodes : List α) (s : Search α) : Nat :=
  s.queue.length + pending next nodes s.seen

/-- With every turn less is left to do. -/
theorem work_turn_lt (hnodes : ∀ x, x ∉ nodes → next x = []) (h : s.queue ≠ []) :
    work next nodes (turn next keep s) < work next nodes s := by
  obtain ⟨queue, seen⟩ := s
  cases queue with
  | nil => exact absurd rfl h
  | cons x rest =>
    by_cases hx : x ∈ seen
    · rw [turn_of_mem hx]
      simp [work]
    · have hpending : (next x).length + pending next nodes (x :: seen) ≤ pending next nodes seen :=
        length_add_pending_le hx (hnodes x)
      have hkept := List.length_filter_le (keep (x :: seen)) (next x)
      rw [turn_of_notMem hx]
      simp only [work, List.length_append, List.length_cons]
      omega

/-- **A search ends**, after no more turns than there was to do. -/
theorem exists_ended (hnodes : ∀ x, x ∉ nodes → next x = []) (s : Search α) :
    ∃ n ≤ work next nodes s, ((turn next keep)^[n] s).queue = [] := by
  by_cases hqueue : s.queue = []
  · exact ⟨0, Nat.zero_le _, hqueue⟩
  · have hlt : work next nodes (turn next keep s) < work next nodes s :=
      work_turn_lt hnodes hqueue
    obtain ⟨n, hn, hended⟩ := exists_ended hnodes (turn next keep s)
    exact ⟨n + 1, by omega, hended⟩
termination_by work next nodes s

/-! ## 2. What is found -/

/-- What holds between two turns of a search from `start`: what has been seen or queued can be
reached, and nothing has been lost that can be reached in one step. -/
structure Progress (next : α → List α) (nodes start : List α) (s : Search α) : Prop where
  begun : ∀ q ∈ start, q ∈ s.seen ∨ q ∈ s.queue
  goesOn : ∀ a ∈ s.seen, ∀ b ∈ next a, b ∈ s.seen ∨ b ∈ s.queue
  reached : ∀ a, a ∈ s.seen ∨ a ∈ s.queue → ∃ q ∈ start, Path next nodes q a

omit [DecidableEq α] in
theorem progress_start : Progress next nodes start ⟨start, []⟩ where
  begun _ hq := Or.inr hq
  goesOn _ ha := absurd ha List.not_mem_nil
  reached a ha := ⟨a, ha.resolve_left List.not_mem_nil, .refl⟩

omit [DecidableEq α] in
/-- A node that has been seen may be passed over. -/
theorem Progress.pass {rest : List α} (hx : x ∈ seen)
    (hs : Progress next nodes start ⟨x :: rest, seen⟩) : Progress next nodes start ⟨rest, seen⟩ := by
  have hstays : ∀ a, a ∈ seen ∨ a ∈ x :: rest → a ∈ seen ∨ a ∈ rest := by
    rintro a (ha | ha)
    · exact Or.inl ha
    · rcases List.mem_cons.mp ha with rfl | ha
      · exact Or.inl hx
      · exact Or.inr ha
  exact {
    begun := fun q hq => hstays q (hs.begun q hq)
    goesOn := fun a ha b hb => hstays b (hs.goesOn a ha b hb)
    reached := fun a ha => hs.reached a (ha.imp_right (List.mem_cons_of_mem _)) }

/-- A node may be seen, when those of its successors that have not been seen are queued. -/
theorem Progress.see {rest l : List α} (hl : l ⊆ next x)
    (hall : ∀ b ∈ next x, b ∉ x :: seen → b ∈ l) (hnode : next x ≠ [] → x ∈ nodes)
    (hs : Progress next nodes start ⟨x :: rest, seen⟩) :
    Progress next nodes start ⟨rest ++ l, x :: seen⟩ := by
  have hstays : ∀ a, a ∈ seen ∨ a ∈ x :: rest → a ∈ x :: seen ∨ a ∈ rest ++ l := by
    rintro a (ha | ha)
    · exact Or.inl (List.mem_cons_of_mem _ ha)
    · rcases List.mem_cons.mp ha with rfl | ha
      · exact Or.inl List.mem_cons_self
      · exact Or.inr (List.mem_append_left _ ha)
  have hx : ∃ q ∈ start, Path next nodes q x := hs.reached x (Or.inr List.mem_cons_self)
  refine ⟨fun q hq => hstays q (hs.begun q hq), fun a ha b hb => ?_, fun a ha => ?_⟩
  · rcases List.mem_cons.mp ha with rfl | ha
    · by_cases hseen : b ∈ a :: seen
      · exact Or.inl hseen
      · exact Or.inr (List.mem_append_right _ (hall b hb hseen))
    · exact hstays b (hs.goesOn a ha b hb)
  · rcases ha with ha | ha
    · rcases List.mem_cons.mp ha with rfl | ha
      · exact hx
      · exact hs.reached a (Or.inl ha)
    · rcases List.mem_append.mp ha with ha | ha
      · exact hs.reached a (Or.inr (List.mem_cons_of_mem _ ha))
      · obtain ⟨q, hq, hpath⟩ := hx
        have hsome : next x ≠ [] := List.ne_nil_of_mem (hl ha)
        exact ⟨q, hq, hpath.tail ⟨hnode hsome, hl ha⟩⟩

/-- A turn loses nothing, when only successors are left out that have been seen. -/
theorem Progress.turn (hkeep : ∀ seen (x : α), x ∉ seen → keep seen x = true)
    (hnodes : ∀ x, x ∉ nodes → next x = []) (hs : Progress next nodes start s) :
    Progress next nodes start (s.turn next keep) := by
  obtain ⟨queue, seen⟩ := s
  cases queue with
  | nil => exact hs
  | cons x rest =>
    by_cases hx : x ∈ seen
    · rw [turn_of_mem hx]
      exact hs.pass hx
    · rw [turn_of_notMem hx]
      refine hs.see ((List.filter_sublist.subset)) (fun b hb hseen => ?_) fun hsome => ?_
      · exact List.mem_filter.mpr ⟨hb, hkeep _ b hseen⟩
      · exact not_imp_comm.mp (hnodes x) hsome

theorem Progress.iterate (hkeep : ∀ seen (x : α), x ∉ seen → keep seen x = true)
    (hnodes : ∀ x, x ∉ nodes → next x = []) (hs : Progress next nodes start s) (n : Nat) :
    Progress next nodes start ((Search.turn next keep)^[n] s) :=
  Function.Iterate.rec (Progress next nodes start) hs (fun _ hs => hs.turn hkeep hnodes) n

/-- When the queue is empty, what has been seen is what can be reached. -/
theorem Progress.mem_seen_iff (hs : Progress next nodes start s) (hended : s.queue = []) :
    x ∈ s.seen ↔ x ∈ reachable next nodes start := by
  rw [mem_reachable_iff]
  have hdone : ∀ {a}, a ∈ s.seen ∨ a ∈ s.queue → a ∈ s.seen := by
    rintro a (ha | ha)
    · exact ha
    · rw [hended] at ha
      cases ha
  constructor
  · intro hx
    exact hs.reached x (Or.inl hx)
  · rintro ⟨q, hq, hpath⟩
    induction hpath with
    | refl => exact hdone (hs.begun q hq)
    | tail _ hbc ih => exact hdone (hs.goesOn _ ih _ hbc.2)

/-- **A loop over a queue ends and finds what can be reached**, after no more turns than there are
nodes to start from and successors of nodes. -/
theorem exists_turns (hkeep : ∀ seen (x : α), x ∉ seen → keep seen x = true)
    (hnodes : ∀ x, x ∉ nodes → next x = []) (start : List α) :
    ∃ n ≤ start.length + (nodes.flatMap next).length, ∃ seen,
      (turn next keep)^[n] ⟨start, []⟩ = ⟨[], seen⟩ ∧
        ∀ x, x ∈ seen ↔ x ∈ reachable next nodes start := by
  obtain ⟨n, hn, hended⟩ : ∃ n ≤ work next nodes ⟨start, []⟩,
      ((turn next keep)^[n] ⟨start, []⟩).queue = [] := exists_ended hnodes _
  rw [work, pending_nil] at hn
  have hprogress : Progress next nodes start ((turn next keep)^[n] ⟨start, []⟩) :=
    progress_start.iterate hkeep hnodes n
  generalize hs : (turn next keep)^[n] ⟨start, []⟩ = s at hended hprogress
  obtain ⟨queue, seen⟩ := s
  obtain rfl : queue = [] := hended
  exact ⟨n, hn, seen, hs, fun x => hprogress.mem_seen_iff rfl⟩

end Search

/-! ## 3. Looking for one node -/

/-- A search for one node: it is under way, or it has its answer. -/
inductive Seek (α : Type u) where
  | underWay (s : Search α)
  | answered (found : Bool)

namespace Seek

variable {α : Type u} [DecidableEq α] {next : α → List α} {keep : List α → α → Bool}
  {nodes start : List α} {target : α} {k : Seek α}

/-- One turn of a search for `target`: the first node of the queue is tested before it is seen, and
when there is none the search was in vain. -/
def turn (next : α → List α) (keep : List α → α → Bool) (target : α) : Seek α → Seek α
  | .underWay ⟨[], _⟩ => .answered false
  | .underWay ⟨x :: rest, seen⟩ =>
    if x = target then .answered true else .underWay (Search.turn next keep ⟨x :: rest, seen⟩)
  | .answered found => .answered found

theorem turn_of_eq {rest seen : List α} :
    turn next keep target (.underWay ⟨target :: rest, seen⟩) = .answered true := if_pos rfl

theorem turn_of_ne {x : α} {rest seen : List α} (h : x ≠ target) :
    turn next keep target (.underWay ⟨x :: rest, seen⟩)
      = .underWay (Search.turn next keep ⟨x :: rest, seen⟩) := if_neg h

/-- **A search for one node comes to an answer**, at the latest in the turn after there is nothing
left to do. -/
theorem exists_answered (hnodes : ∀ x, x ∉ nodes → next x = []) (s : Search α) :
    ∃ n ≤ Search.work next nodes s + 1, ∃ found,
      (turn next keep target)^[n] (.underWay s) = .answered found := by
  obtain ⟨queue, seen⟩ := s
  cases queue with
  | nil => exact ⟨1, by omega, false, rfl⟩
  | cons x rest =>
    by_cases hx : x = target
    · subst hx
      exact ⟨1, by omega, true, turn_of_eq⟩
    · have hlt : Search.work next nodes (Search.turn next keep ⟨x :: rest, seen⟩)
          < Search.work next nodes ⟨x :: rest, seen⟩ :=
        Search.work_turn_lt hnodes (List.cons_ne_nil x rest)
      obtain ⟨n, hn, found, hfound⟩ :=
        exists_answered hnodes (Search.turn next keep ⟨x :: rest, seen⟩)
      refine ⟨n + 1, by omega, found, ?_⟩
      rw [Function.iterate_succ_apply, turn_of_ne hx]
      exact hfound
termination_by Search.work next nodes s

/-- What holds between two turns: a search that is under way has not seen the node that it is for,
and the answer of another one is right. -/
inductive Progress (next : α → List α) (nodes start : List α) (target : α) : Seek α → Prop
  | underWay {s : Search α} (hs : Search.Progress next nodes start s) (hnew : target ∉ s.seen) :
    Progress next nodes start target (.underWay s)
  | answered {found : Bool} (h : found = true ↔ target ∈ reachable next nodes start) :
    Progress next nodes start target (.answered found)

/-- A node is seen only after it was tested, so when the queue is empty the node that was not seen
cannot be reached; when it comes up in the queue it can. -/
theorem Progress.turn (hkeep : ∀ seen (x : α), x ∉ seen → keep seen x = true)
    (hnodes : ∀ x, x ∉ nodes → next x = []) (hk : Progress next nodes start target k) :
    Progress next nodes start target (k.turn next keep target) := by
  cases hk with
  | answered h => exact .answered h
  | @underWay s hs hnew =>
    obtain ⟨queue, seen⟩ := s
    cases queue with
    | nil =>
      refine .answered (iff_of_false Bool.false_ne_true fun hreach => hnew ?_)
      exact (hs.mem_seen_iff rfl).mpr hreach
    | cons x rest =>
      by_cases hx : x = target
      · subst hx
        rw [turn_of_eq]
        refine .answered (iff_of_true rfl (mem_reachable_iff.mpr ?_))
        exact hs.reached x (Or.inr List.mem_cons_self)
      · rw [turn_of_ne hx]
        refine .underWay (hs.turn hkeep hnodes) fun hseen => ?_
        by_cases hmem : x ∈ seen
        · rw [Search.turn_of_mem hmem] at hseen
          exact hnew hseen
        · rw [Search.turn_of_notMem hmem] at hseen
          rcases List.mem_cons.mp hseen with heq | hseen
          · exact hx heq.symm
          · exact hnew hseen

theorem Progress.iterate (hkeep : ∀ seen (x : α), x ∉ seen → keep seen x = true)
    (hnodes : ∀ x, x ∉ nodes → next x = []) (hk : Progress next nodes start target k) (n : Nat) :
    Progress next nodes start target ((Seek.turn next keep target)^[n] k) :=
  Function.Iterate.rec (Progress next nodes start target) hk (fun _ hk => hk.turn hkeep hnodes) n

/-- **A loop that looks for one node ends and tells whether the node can be reached**, after no more
turns than it takes to see all nodes, and one. -/
theorem exists_turns (hkeep : ∀ seen (x : α), x ∉ seen → keep seen x = true)
    (hnodes : ∀ x, x ∉ nodes → next x = []) (start : List α) (target : α) :
    ∃ n ≤ start.length + (nodes.flatMap next).length + 1,
      (turn next keep target)^[n] (.underWay ⟨start, []⟩)
        = .answered ((reachable next nodes start).contains target) := by
  obtain ⟨n, hn, found, hfound⟩ : ∃ n ≤ Search.work next nodes ⟨start, []⟩ + 1, ∃ found,
      (turn next keep target)^[n] (.underWay ⟨start, []⟩) = .answered found :=
    exists_answered hnodes _
  rw [Search.work, Search.pending_nil] at hn
  have hprogress : Progress next nodes start target
      ((turn next keep target)^[n] (.underWay ⟨start, []⟩)) :=
    (Progress.underWay Search.progress_start List.not_mem_nil).iterate hkeep hnodes n
  refine ⟨n, hn, ?_⟩
  rw [hfound] at hprogress ⊢
  cases hprogress with
  | answered h =>
    rw [← List.contains_iff_mem] at h
    rw [Bool.eq_iff_iff.mpr h]

end Seek

end Arbiter
