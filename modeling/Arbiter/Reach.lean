/-
# Reachability

Which nodes of a graph can be reached from given ones.  Only a finite list of nodes is ever
expanded; each of them once, so the search ends on every graph, cyclic ones included.
-/

namespace Arbiter

universe u

variable {α : Type u} [DecidableEq α]

/-- Adds to `seen` what can be reached from `queue`: a node that has been seen is passed over, any
other is now seen, and its successors are queued if it is among the `nodes` to expand. -/
def explore (next : α → List α) (nodes queue seen : List α) : List α :=
  match queue with
  | [] => seen
  | x :: rest =>
    if x ∈ seen then explore next nodes rest seen
    else if x ∈ nodes then explore next (nodes.erase x) (rest ++ next x) (x :: seen)
    else explore next nodes rest (x :: seen)
termination_by (nodes.length, queue.length)
decreasing_by
  · exact Prod.Lex.right _ (by simp)
  · rename_i h
    exact Prod.Lex.left _ _ (by
      have := List.length_pos_of_mem h
      rw [List.length_erase_of_mem h]
      omega)
  · exact Prod.Lex.right _ (by simp)

/-- The nodes that can be reached from `start`, where just `nodes` are expanded. -/
def reachable (next : α → List α) (nodes start : List α) : List α := explore next nodes start []

end Arbiter
