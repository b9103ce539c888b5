import Haybuild.BuildFile.Context
import Haybuild.BuildFile.Load
import Haybuild.CommandLine
import Haybuild.Console
import Haybuild.Console.Event
import Haybuild.Console.Style
import Haybuild.Derivation.Basic
import Haybuild.Derivation.Builtin
import Haybuild.Derivation.Expand
import Haybuild.Derivation.Highlight
import Haybuild.Derivation.Piece
import Haybuild.Derivation.Words
import Haybuild.Error
import Haybuild.Execution
import Haybuild.Fault
import Haybuild.FilePattern
import Haybuild.FileTree
import Haybuild.Graph.Basic
import Haybuild.Graph.Build
import Haybuild.Graph.Drain
import Haybuild.Graph.Node
import Haybuild.Graph.Plan
import Haybuild.Graph.Pool
import Haybuild.Halt
import Haybuild.Host
import Haybuild.Line
import Haybuild.Main
import Haybuild.NameMap
import Haybuild.Path
import Haybuild.Proofs.BuildFile.Assignment
import Haybuild.Proofs.BuildFile.Depth
import Haybuild.Proofs.BuildFile.File
import Haybuild.Proofs.BuildFile.Handed
import Haybuild.Proofs.BuildFile.Inlining
import Haybuild.Proofs.BuildFile.Invariant
import Haybuild.Proofs.BuildFile.Likeness
import Haybuild.Proofs.BuildFile.Loaded
import Haybuild.Proofs.BuildFile.Marker
import Haybuild.Proofs.BuildFile.Moment
import Haybuild.Proofs.BuildFile.Neglect
import Haybuild.Proofs.BuildFile.Nesting
import Haybuild.Proofs.BuildFile.Pointing
import Haybuild.Proofs.BuildFile.Section
import Haybuild.Proofs.BuildFile.Sequence
import Haybuild.Proofs.BuildFile.Step
import Haybuild.Proofs.BuildFile.Stop
import Haybuild.Proofs.BuildFile.Voice
import Haybuild.Proofs.BuildFile.Written
import Haybuild.Proofs.CommandLine
import Haybuild.Proofs.Console.Block
import Haybuild.Proofs.Console.Recipe
import Haybuild.Proofs.Console.Screen
import Haybuild.Proofs.Console.Style
import Haybuild.Proofs.Console.Summary
import Haybuild.Proofs.Derivation.Alike
import Haybuild.Proofs.Derivation.Always
import Haybuild.Proofs.Derivation.Argument
import Haybuild.Proofs.Derivation.Bracket
import Haybuild.Proofs.Derivation.Branch
import Haybuild.Proofs.Derivation.Call
import Haybuild.Proofs.Derivation.Case
import Haybuild.Proofs.Derivation.Closer
import Haybuild.Proofs.Derivation.Congruence
import Haybuild.Proofs.Derivation.Convergence
import Haybuild.Proofs.Derivation.Culprit
import Haybuild.Proofs.Derivation.DebugMode
import Haybuild.Proofs.Derivation.Doubled
import Haybuild.Proofs.Derivation.Escape
import Haybuild.Proofs.Derivation.Feed
import Haybuild.Proofs.Derivation.Highlight
import Haybuild.Proofs.Derivation.Idempotence
import Haybuild.Proofs.Derivation.MoreVariables
import Haybuild.Proofs.Derivation.Named
import Haybuild.Proofs.Derivation.Origin
import Haybuild.Proofs.Derivation.Piece
import Haybuild.Proofs.Derivation.Piecewise
import Haybuild.Proofs.Derivation.Room
import Haybuild.Proofs.Derivation.Separator
import Haybuild.Proofs.Derivation.Settled
import Haybuild.Proofs.Derivation.Span
import Haybuild.Proofs.Derivation.Splitting
import Haybuild.Proofs.Derivation.Value
import Haybuild.Proofs.Drain.Agreement
import Haybuild.Proofs.Drain.Complete
import Haybuild.Proofs.Drain.Drop
import Haybuild.Proofs.Drain.FailFast
import Haybuild.Proofs.Drain.History
import Haybuild.Proofs.Drain.InTurn
import Haybuild.Proofs.Drain.KeepGoing
import Haybuild.Proofs.Drain.Log
import Haybuild.Proofs.Drain.Pool
import Haybuild.Proofs.Drain.Progress
import Haybuild.Proofs.Drain.Remove
import Haybuild.Proofs.Drain.Round
import Haybuild.Proofs.Drain.Run
import Haybuild.Proofs.Execution
import Haybuild.Proofs.Graph.Build
import Haybuild.Proofs.Graph.Calls
import Haybuild.Proofs.Graph.Clash
import Haybuild.Proofs.Graph.Counting
import Haybuild.Proofs.Graph.Failure
import Haybuild.Proofs.Graph.Label
import Haybuild.Proofs.Graph.Level
import Haybuild.Proofs.Graph.Part
import Haybuild.Proofs.Graph.Plan
import Haybuild.Proofs.Graph.Provide
import Haybuild.Proofs.Graph.Valid
import Haybuild.Proofs.Host
import Haybuild.Proofs.Line
import Haybuild.Proofs.LoadFailure
import Haybuild.Proofs.NameMap
import Haybuild.Proofs.NodeMap
import Haybuild.Proofs.Path
import Haybuild.Proofs.Record
import Haybuild.Proofs.Rule
import Haybuild.Proofs.Rule.Language
import Haybuild.Proofs.Rule.Viable
import Haybuild.Proofs.Stage
import Haybuild.Proofs.Text.Balanced
import Haybuild.Proofs.Text.Comment
import Haybuild.Proofs.Text.Escaped
import Haybuild.Proofs.Text.Find
import Haybuild.Proofs.Text.Integer
import Haybuild.Proofs.Text.Lines
import Haybuild.Proofs.Text.Order
import Haybuild.Proofs.Text.Parts
import Haybuild.Proofs.Text.Plain
import Haybuild.Proofs.Text.Words
import Haybuild.Proofs.Transcript
import Haybuild.Proofs.Variables
import Haybuild.Proofs.Words.Numbering
import Haybuild.Proofs.Words.Path
import Haybuild.Proofs.Words.Pattern
import Haybuild.Proofs.Words.Suffix
import Haybuild.Recipe
import Haybuild.Rule
import Haybuild.Settings
import Haybuild.Shell.Apart
import Haybuild.Shell.Arithmetic
import Haybuild.Shell.Builtin
import Haybuild.Shell.Command
import Haybuild.Shell.Decimal
import Haybuild.Shell.Expand
import Haybuild.Shell.Fields
import Haybuild.Shell.Find
import Haybuild.Shell.Launch
import Haybuild.Shell.Pattern
import Haybuild.Shell.Printf
import Haybuild.Shell.Program.Basic
import Haybuild.Shell.Program.Dump
import Haybuild.Shell.Program.Edit
import Haybuild.Shell.Program.Files
import Haybuild.Shell.Program.Lines
import Haybuild.Shell.Program.Search
import Haybuild.Shell.Program.Sort
import Haybuild.Shell.Program.Table
import Haybuild.Shell.Program.Values
import Haybuild.Shell.Raw
import Haybuild.Shell.Reader.Braces
import Haybuild.Shell.Reader.Command
import Haybuild.Shell.Reader.Source
import Haybuild.Shell.Reader.Word
import Haybuild.Shell.Redirect
import Haybuild.Shell.Regex
import Haybuild.Shell.Run
import Haybuild.Shell.Script
import Haybuild.Shell.Session
import Haybuild.Shell.Start
import Haybuild.Shell.Test
import Haybuild.Text.Basic
import Haybuild.Text.Blank
import Haybuild.Text.Case.Lower
import Haybuild.Text.Case.Upper
import Haybuild.Text.CodeRange
import Haybuild.Text.Comment
import Haybuild.Text.Digit
import Haybuild.Text.Escaped
import Haybuild.Text.Integer
import Haybuild.Text.Lines
import Haybuild.Text.Literal
import Haybuild.Text.Order
import Haybuild.Text.Printable
import Haybuild.Text.Quoting
import Haybuild.Text.Replace
import Haybuild.Text.Utf8
import Haybuild.Variables
import Haybuild.World
