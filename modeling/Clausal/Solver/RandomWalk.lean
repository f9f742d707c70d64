import Clausal.Environment
import Clausal.Random.Chooser

/-!
Incomplete local search: as long as some clause is unsatisfied and flips remain, one literal of the
first such clause is chosen and its variable is flipped. Undecided variables are made false when a scan
reads them. The walk finds satisfying environments and never proves that there is none.
-/

set_option autoImplicit false

namespace Clausal.RandomWalk

open Clausal.Random

def commit (environment : Environment) (atom : Variable) : Environment :=
  if environment.get atom = .undefined then environment.put atom .no else environment

/-- Reads the literals of a clause in order up to the first true one, committing each variable as it
is read. Says whether there was a true literal. -/
def scanLiterals (environment : Environment) : List Literal → Environment × Bool
  | [] => (environment, false)
  | literal :: rest =>
      let committed := commit environment literal.atom
      if committed.eval literal = .yes then (committed, true) else scanLiterals committed rest

/-- Reads the clauses in order up to the first one without a true literal, and returns that clause. -/
def scan (environment : Environment) : List Clause → Environment × Option Clause
  | [] => (environment, none)
  | clause :: rest =>
      match scanLiterals environment clause.literals with
      | (committed, true) => scan committed rest
      | (committed, false) => (committed, some clause)

def flip (environment : Environment) (literal : Literal) : Environment :=
  environment.put literal.atom (environment.get literal.atom).negate

inductive Answer where
  /-- Every clause is satisfied, after the given number of flips. -/
  | satisfied (environment : Environment) (flips : Nat)
  /-- The flips are used up. -/
  | exhausted (flips : Nat)
  /-- A clause without literals cannot be repaired; no walk is made. -/
  | emptyClause
  deriving DecidableEq

/-- Walks until every clause is satisfied or no flip remains. Variables that no scan has read are
false in the environment found. -/
def walk {State : Type} (chooser : Chooser State) (formula : Formula) :
    (remaining flips : Nat) → State → Environment → Answer
  | remaining, flips, state, environment =>
      match scan environment formula.clauses with
      | (scanned, none) => .satisfied (formula.atoms.foldl commit scanned) flips
      | (scanned, some clause) =>
          if nonempty : 0 < clause.literals.length then
            match remaining with
            | 0 => .exhausted flips
            | remaining + 1 =>
                let (position, state) := chooser.pick state clause.literals.length nonempty
                walk chooser formula remaining (flips + 1) state
                  (flip scanned (clause.literals.get position))
          else .emptyClause

/-- Walks from the empty environment with at most `limit` flips. -/
def solve {State : Type} (chooser : Chooser State) (start : State) (limit : Nat)
    (formula : Formula) : Answer :=
  if formula.hasEmptyClause then .emptyClause else walk chooser formula limit 0 start .empty

end Clausal.RandomWalk
