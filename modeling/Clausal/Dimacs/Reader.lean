import Clausal.Dimacs

/-!
Reading the DIMACS format line by line. A line that begins with the letter c is a comment, one that
begins with a percent sign ends the text, one that begins with the letter p declares the numbers of
variables and clauses, and every other line holds integers. Zeros end clauses; the last clause may go
without.
-/

set_option autoImplicit false

namespace Clausal.Dimacs

/-- The counts that a problem line declares. They may be negative. -/
structure Header where
  atomCount : Int
  clauseCount : Int
  deriving DecidableEq

/-- What has been read: comments and finished clauses in order, and the clause that is still open. -/
structure Progress where
  comments : List String := []
  header : Option Header := none
  finished : List (List Int) := []
  opened : List Int := []
  deriving DecidableEq

/-- Adds the integers of one line. A value beyond the declared variables is refused when its turn
comes. -/
def Progress.addValues (declared : Int) (progress : Progress) : List Int → Except Fault Progress
  | [] => .ok progress
  | value :: rest =>
      if value = 0 then
        addValues declared
          { progress with finished := progress.finished ++ [progress.opened], opened := [] } rest
      else if declared < value.natAbs then .error (.undeclared value declared)
      else addValues declared { progress with opened := progress.opened ++ [value] } rest

/-- Reads a problem line: four words, of which the second names the format and the others after the
first are the counts. -/
def readHeader (line : List Char) : Except Fault Header :=
  match Text.words line with
  | [_, format, atomCount, clauseCount] =>
      if format = "cnf".toList then
        match Text.readInteger? atomCount, Text.readInteger? clauseCount with
        | some atomCount, some clauseCount => .ok ⟨atomCount, clauseCount⟩
        | _, _ => .error (.badCounts (String.ofList line))
      else .error (.badHeader (String.ofList line))
  | _ => .error (.badHeader (String.ofList line))

def readValues (line : List Char) : Except Fault (List Int) :=
  match (Text.words line).mapM Text.readInteger? with
  | some values => .ok values
  | none => .error (.badLiteral (String.ofList line))

/-- Reads one line that is neither empty nor a comment nor the end of the text. -/
def Progress.addLine (progress : Progress) (line : List Char) : Except Fault Progress :=
  if line.head? = some 'p' then
    match progress.header with
    | some _ => .error .repeatedHeader
    | none => do
        let header ← readHeader line
        return { progress with header := some header }
  else
    match progress.header with
    | none => .error (.earlyClause (String.ofList line))
    | some header => do
        let values ← readValues line
        progress.addValues header.atomCount values

def readLines (progress : Progress) : List (List Char) → Except Fault Progress
  | [] => .ok progress
  | line :: rest =>
      match line with
      | [] => readLines progress rest
      | 'c' :: comment =>
          readLines
            { progress with
              comments := progress.comments ++ [String.ofList (Text.strip comment)] }
            rest
      | '%' :: _ => .ok progress
      | _ => do
          let later ← progress.addLine line
          readLines later rest

/-- A formula that was read, with the declared counts and the comments. -/
structure Document where
  formula : Formula
  atomCount : Int
  clauseCount : Int
  comments : List String
  deriving DecidableEq

def Document.width (document : Document) : Nat := document.formula.width

def Progress.finish (progress : Progress) : Except Fault Document :=
  let clauses :=
    if progress.opened.isEmpty then progress.finished else progress.finished ++ [progress.opened]
  match progress.header with
  | none => .error .noHeader
  | some header =>
      if header.clauseCount = clauses.length then
        .ok
          { formula := .ofLists (clauses.map fun clause => clause.map literalOf)
            atomCount := header.atomCount
            clauseCount := header.clauseCount
            comments := progress.comments }
      else .error (.clauseCount header.clauseCount clauses.length)

def ofLines (lines : List (List Char)) : Except Fault Document := do
  let progress ← readLines {} (lines.map Text.strip)
  progress.finish

def parse (text : String) : Except Fault Document :=
  ofLines (Text.lines (Text.strip text.toList))

def parseStream (text : String) : Except Fault Document :=
  ofLines (Text.lines text.toList)

/-- Reads a document from the characters of a file, whose line ends are unified first. -/
def parseFile (text : String) : Except Fault Document :=
  ofLines (Text.lines (Text.unifyLineEnds text.toList))

end Clausal.Dimacs
