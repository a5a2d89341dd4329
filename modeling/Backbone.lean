import Backbone.Analysis
import Backbone.AtomicSets
import Backbone.CommandLine.Arguments
import Backbone.CommandLine.Files
import Backbone.CommandLine.Invocation
import Backbone.CommandLine.Path
import Backbone.CommandLine.Run
import Backbone.Dimacs.Line
import Backbone.Dimacs.Reader
import Backbone.Dimacs.Writer
import Backbone.Fault
import Backbone.Formula
import Backbone.Literal
import Backbone.LiteralSets
import Backbone.Names
import Backbone.Oracle.Basic
import Backbone.Oracle.Dialogue
import Backbone.Oracle.Enumeration
import Backbone.Oracle.External
import Backbone.Semantics
import Backbone.Session
import Backbone.Text.Blank
import Backbone.Text.Csv
import Backbone.Text.JsonString
import Backbone.Text.Lines
import Backbone.Text.Numeral
import Backbone.Text.Utf8
import Backbone.Main
import Backbone.Proofs.Contract
import Backbone.Proofs.Equivalence
import Backbone.Proofs.AtomicSets.Steps
import Backbone.Proofs.AtomicSets.Soundness
import Backbone.Proofs.Enumeration.Core
import Backbone.Proofs.AtomicSets.Exactness
import Backbone.Proofs.Text.Lines
import Backbone.Proofs.Text.Numeral
import Backbone.Proofs.Dimacs.Grammar
import Backbone.Proofs.Dimacs.Lexing
import Backbone.Proofs.Dimacs.RoundTrip
import Backbone.Proofs.Dimacs.Accepted
import Backbone.Proofs.External
import Backbone.Proofs.AtomicSets.Agreement
import Backbone.Proofs.Exchanges
import Backbone.Proofs.AtomicSets.Walk
import Backbone.Proofs.AtomicSets.Disjointness
import Backbone.Proofs.AtomicSets.Queries
import Backbone.Proofs.Dimacs.Tokens
import Backbone.Proofs.Dimacs.Refusal
import Backbone.Proofs.Sessions
import Backbone.Proofs.CommandLine.Assumptions
import Backbone.Proofs.Sparing
import Backbone.Proofs.AtomicSets.Heuristic
import Backbone.Proofs.AtomicSets.Omission
import Backbone.Proofs.Enumeration.Solutions
import Backbone.Proofs.Enumeration.Closure
import Backbone.Proofs.Enumeration.Assignments
import Backbone.Proofs.AtomicSets.Reordering
import Backbone.Proofs.Names
import Backbone.Proofs.CommandLine.Labels
import Backbone.Proofs.External.CoreOutput
import Backbone.Proofs.Text.Csv
import Backbone.Proofs.LiteralSets.Table
import Backbone.Proofs.AtomicSets.Redundancy
import Backbone.Proofs.Text.Words
import Backbone.Proofs.External.SolutionOutput
import Backbone.Proofs.Dimacs.Layout
import Backbone.Proofs.Dimacs.Prefix
import Backbone.Proofs.CommandLine.TextOutput
import Backbone.Proofs.CommandLine.Delivery
import Backbone.Proofs.CommandLine.Solution
import Backbone.Proofs.CommandLine.AllOrNothing
