import Clausal.Digraph

/-!
Depth-first traversal with an explicit stack. `explore` runs a stack until it is empty, `finished`
lists the vertices of a graph by falling finishing time, and `finishOrder` by rising finishing time.
-/

set_option autoImplicit false

namespace Clausal.Digraph

/-- A vertex on the stack together with the successors that are still to be tried. -/
structure Visit where
  vertex : Nat
  untried : List Nat
  deriving DecidableEq

/-- The vertices not yet discovered, and the finished ones, latest first. -/
structure Progress where
  fresh : List Nat
  finished : List Nat
  deriving DecidableEq

/-- The steps that the stack still needs if nothing more is discovered. -/
def pendingSteps : List Visit → Nat
  | [] => 0
  | visit :: rest => visit.untried.length + 1 + pendingSteps rest

/-- Runs the stack. The vertex on top finishes when all its successors have been tried; a successor
that is still fresh is discovered and goes on top. -/
def explore (graph : Digraph) (progress : Progress) : List Visit → Progress
  | [] => progress
  | ⟨vertex, []⟩ :: rest =>
      explore graph { progress with finished := vertex :: progress.finished } rest
  | ⟨vertex, next :: others⟩ :: rest =>
      if next ∈ progress.fresh then
        explore graph { progress with fresh := progress.fresh.erase next }
          (⟨next, graph.successors next⟩ :: ⟨vertex, others⟩ :: rest)
      else explore graph progress (⟨vertex, others⟩ :: rest)
termination_by stack => (progress.fresh.length, pendingSteps stack)
decreasing_by
  · exact .right _ (by simp [pendingSteps])
  · next discovered =>
      refine .left _ _ ?_
      have positive := List.length_pos_of_mem discovered
      simp only [List.length_erase_of_mem discovered]
      omega
  · exact .right _ (by simp only [pendingSteps, List.length_cons]; omega)

/-- Starts a traversal at a root, unless the root has been discovered before. -/
def exploreFrom (graph : Digraph) (progress : Progress) (root : Nat) : Progress :=
  if root ∈ progress.fresh then
    explore graph { progress with fresh := progress.fresh.erase root }
      [⟨root, graph.successors root⟩]
  else progress

/-- All vertices, latest finisher first. The roots are taken in increasing order. -/
def finished (graph : Digraph) : List Nat :=
  ((List.range graph.order).foldl graph.exploreFrom ⟨List.range graph.order, []⟩).finished

/-- All vertices in post-order: each after the vertices that were discovered from it. -/
def finishOrder (graph : Digraph) : List Nat := graph.finished.reverse

end Clausal.Digraph
