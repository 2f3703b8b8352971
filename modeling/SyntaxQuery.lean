import SyntaxQuery.CommandLine.Arguments
import SyntaxQuery.CommandLine.Run
import SyntaxQuery.Disk.Basic
import SyntaxQuery.Disk.Path
import SyntaxQuery.Grammar.Cache
import SyntaxQuery.Grammar.Language
import SyntaxQuery.Journal.Basic
import SyntaxQuery.Journal.Layout
import SyntaxQuery.Journal.Loggers
import SyntaxQuery.Journal.Timer
import SyntaxQuery.Json.Basic
import SyntaxQuery.Json.Printer
import SyntaxQuery.Json.Reader
import SyntaxQuery.Main
import SyntaxQuery.Number.Double
import SyntaxQuery.Number.Integer
import SyntaxQuery.Number.Shortest
import SyntaxQuery.Query.Comparison
import SyntaxQuery.Query.Run
import SyntaxQuery.Query.Walk
import SyntaxQuery.Scalar
import SyntaxQuery.Selector.Escape
import SyntaxQuery.Selector.Fault
import SyntaxQuery.Selector.Lexeme
import SyntaxQuery.Selector.Lexer
import SyntaxQuery.Selector.Reader
import SyntaxQuery.Selector.Render
import SyntaxQuery.Selector.Token
import SyntaxQuery.Settings.Basic
import SyntaxQuery.Settings.Store
import SyntaxQuery.Table
import SyntaxQuery.Text.Basic
import SyntaxQuery.Text.Lowercase
import SyntaxQuery.Text.Quoted
import SyntaxQuery.Text.Utf8
import SyntaxQuery.Tree.Located
import SyntaxQuery.Tree.Node
import SyntaxQuery.Tree.Outline
import SyntaxQuery.Tree.Property
import SyntaxQuery.Tree.Traversal
import SyntaxQuery.Proofs.Tree.PostOrder
import SyntaxQuery.Proofs.Query.Path
import SyntaxQuery.Proofs.Query.Search
import SyntaxQuery.Proofs.Selector.Completeness
import SyntaxQuery.Proofs.Selector.Names
import SyntaxQuery.Proofs.Selector.Numbers
import SyntaxQuery.Proofs.Selector.Quoted
import SyntaxQuery.Proofs.Selector.Lexing
import SyntaxQuery.Proofs.Selector.RoundTrip
import SyntaxQuery.Proofs.Selector.Weight
import SyntaxQuery.Proofs.Selector.Tight
import SyntaxQuery.Proofs.Selector.Faithful
import SyntaxQuery.Proofs.Query.Composition
import SyntaxQuery.Proofs.Settings.Path
import SyntaxQuery.Proofs.Query.Attempt
import SyntaxQuery.Proofs.Query.Refusal
import SyntaxQuery.Proofs.Json.Proper
import SyntaxQuery.Proofs.Number.Double
import SyntaxQuery.Proofs.Settings.Overlay
import SyntaxQuery.Proofs.Disk.Write
import SyntaxQuery.Proofs.Settings.Change
import SyntaxQuery.Proofs.Settings.Reopening
import SyntaxQuery.Proofs.Number.Rounding
import SyntaxQuery.Proofs.Number.Shortest
import SyntaxQuery.Proofs.Json.Number
import SyntaxQuery.Proofs.Json.Text
import SyntaxQuery.Proofs.Text.Utf8
import SyntaxQuery.Proofs.Json.RoundTrip
import SyntaxQuery.Proofs.Tree.Below
import SyntaxQuery.Proofs.Query.Downward
import SyntaxQuery.Proofs.Selector.InOrder
import SyntaxQuery.Proofs.Query.Orderly
import SyntaxQuery.Proofs.Grammar.Loading
import SyntaxQuery.Proofs.CommandLine.Files
import SyntaxQuery.Proofs.CommandLine.Ending
import SyntaxQuery.Proofs.CommandLine.Modes
import SyntaxQuery.Proofs.Selector.Stage
import SyntaxQuery.Proofs.Selector.Blame
import SyntaxQuery.Proofs.Selector.Hopeless
import SyntaxQuery.Proofs.Tree.Turns
import SyntaxQuery.Proofs.Journal.Entries
import SyntaxQuery.Proofs.Query.Tracing
import SyntaxQuery.Proofs.Grammar.Keeping
import SyntaxQuery.Proofs.Grammar.Session
import SyntaxQuery.Proofs.Query.Narrowing
import SyntaxQuery.Proofs.Query.Descent
import SyntaxQuery.Proofs.Query.Distinct
import SyntaxQuery.Proofs.Query.Place
import SyntaxQuery.Proofs.Text.Lowercase
import SyntaxQuery.Proofs.Query.Caseless
import SyntaxQuery.Proofs.Number.Decimal
import SyntaxQuery.Proofs.Query.Respelling
import SyntaxQuery.Proofs.Query.Warnings
import SyntaxQuery.Proofs.Settings.Loading
import SyntaxQuery.Proofs.Disk.Room
import SyntaxQuery.Proofs.Settings.Settling
import SyntaxQuery.Proofs.Settings.Reading
import SyntaxQuery.Proofs.Journal.Calls
import SyntaxQuery.Proofs.Number.Leading
import SyntaxQuery.Proofs.Query.Textual
import SyntaxQuery.Proofs.Query.Integral
import SyntaxQuery.Proofs.Query.Absent
import SyntaxQuery.Proofs.CommandLine.Lines
