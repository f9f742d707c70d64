import Clausal.Assoc
import Clausal.Clause
import Clausal.Command
import Clausal.Command.Arguments
import Clausal.Config
import Clausal.Datum
import Clausal.Datum.Arithmetic
import Clausal.Datum.Display
import Clausal.Datum.Element
import Clausal.Datum.Json
import Clausal.Datum.Tree
import Clausal.Decimal.Fixed
import Clausal.Decimal.Shortest
import Clausal.Digraph
import Clausal.Digraph.Components
import Clausal.Digraph.DepthFirst
import Clausal.Dimacs
import Clausal.Dimacs.Reader
import Clausal.Dimacs.Writer
import Clausal.Display
import Clausal.Environment
import Clausal.EventLog
import Clausal.Fault
import Clausal.Files
import Clausal.Files.Path
import Clausal.Formula
import Clausal.ImplicationGraph
import Clausal.Instant
import Clausal.Literal
import Clausal.Logging
import Clausal.Logging.Format
import Clausal.Logging.Level
import Clausal.Main
import Clausal.Outcome
import Clausal.Position
import Clausal.Quantity
import Clausal.Random.Chooser
import Clausal.Random.Twister
import Clausal.Registry
import Clausal.Report
import Clausal.Session
import Clausal.Session.Fault
import Clausal.Solver
import Clausal.Solver.Dpll
import Clausal.Solver.RandomWalk
import Clausal.Solver.TwoSat
import Clausal.Text.Blank
import Clausal.Text.Digit
import Clausal.Text.Integer
import Clausal.Text.Printable
import Clausal.Text.Quoted
import Clausal.Text.Utf8
import Clausal.Valuation
import Clausal.Yaml.Reader
import Clausal.Yaml.Scalar
import Clausal.Yaml.Writer
import Clausal.Proofs.Digraph.FinishingTimes
import Clausal.Proofs.Digraph.PostOrder
import Clausal.Proofs.Digraph.Components
import Clausal.Proofs.Digraph.Transpose
import Clausal.Proofs.ImplicationGraph.Construction
import Clausal.Proofs.ImplicationGraph.Contradictions
import Clausal.Proofs.ImplicationGraph.FinishOrder
import Clausal.Proofs.Fallible
import Clausal.Proofs.Implication
import Clausal.Proofs.ImplicationGraph.OfFormula
import Clausal.Proofs.ImplicationGraph.Clauses
import Clausal.Proofs.ImplicationGraph.Representation
import Clausal.Proofs.Environment
import Clausal.Proofs.TwoSat.TruthWalk
import Clausal.Proofs.TwoSat.Decision
import Clausal.Proofs.Verdict
import Clausal.Proofs.TwoSat.Run
import Clausal.Proofs.Dpll.Search
import Clausal.Proofs.Dpll.Run
import Clausal.Proofs.Dpll.Descent
import Clausal.Proofs.RandomWalk.Walk
import Clausal.Proofs.RandomWalk.Run
import Clausal.Proofs.RandomWalk.Course
import Clausal.Proofs.RandomWalk.Agreement
import Clausal.Proofs.RandomWalk.Repair
import Clausal.Proofs.Session.Action
import Clausal.Proofs.Session.Dispatch
import Clausal.Proofs.Registry
import Clausal.Proofs.Session.Selection
import Clausal.Proofs.Text.Cutting
import Clausal.Proofs.Text.Numeral
import Clausal.Proofs.Dimacs.Numbered
import Clausal.Proofs.Dimacs.Grammar
import Clausal.Proofs.Dimacs.Document
import Clausal.Proofs.Dimacs.RoundTrip
import Clausal.Proofs.Dimacs.Meaning
import Clausal.Proofs.Report.Lines
import Clausal.Proofs.Report.Solutions
import Clausal.Proofs.Config
import Clausal.Proofs.Datum.Equality
import Clausal.Proofs.Datum.Merging
import Clausal.Proofs.Config.Reloading
import Clausal.Proofs.Files
import Clausal.Proofs.Logging
import Clausal.Proofs.Session.Standard
import Clausal.Proofs.Command.Arguments
import Clausal.Proofs.Command.Choice
import Clausal.Proofs.Command.Stages
import Clausal.Proofs.Command.ExitCode
import Clausal.Proofs.Renaming.Formula
import Clausal.Proofs.Renaming.Environment
import Clausal.Proofs.Renaming.Descent
import Clausal.Proofs.Renaming.Decision
import Clausal.Proofs.Renaming.Walk
import Clausal.Proofs.Renaming.Run
import Clausal.Proofs.Dpll.Accounting
import Clausal.Proofs.Dpll.Propagation
import Clausal.Proofs.Dpll.Completion
import Clausal.Proofs.RandomWalk.Budget
import Clausal.Proofs.Evaluation
import Clausal.Proofs.TwoSat.Mirror
import Clausal.Proofs.TwoSat.Journal
import Clausal.Proofs.Session.Sources
import Clausal.Proofs.Assoc
import Clausal.Proofs.Quantity
import Clausal.Proofs.Registry.History
import Clausal.Proofs.Registry.Narrowest
import Clausal.Proofs.Session.Resolution
import Clausal.Proofs.Session.Naming
import Clausal.Proofs.Text.Name
import Clausal.Proofs.Report.Order
import Clausal.Proofs.Dimacs.Comments
import Clausal.Proofs.Dimacs.Header
import Clausal.Proofs.Solver.Configuration
import Clausal.Proofs.Datum.Json
import Clausal.Proofs.EventLog.Fields
import Clausal.Proofs.EventLog.Holdings
import Clausal.Proofs.EventLog.History
import Clausal.Proofs.EventLog.Retention
import Clausal.Proofs.Files.Standing
import Clausal.Proofs.EventLog.Single
import Clausal.Proofs.Session.Continuation
import Clausal.Proofs.Command.Recording
