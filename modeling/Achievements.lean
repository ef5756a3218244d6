import Achievements.Binary64.Basic
import Achievements.Binary64.Rounding
import Achievements.Clause.Pattern
import Achievements.Clause.Rule
import Achievements.Command
import Achievements.Condition
import Achievements.Decimal.Basic
import Achievements.Decimal.Layout
import Achievements.Decimal.Literal
import Achievements.Decimal.Shortest
import Achievements.Document
import Achievements.Expression
import Achievements.FileTree
import Achievements.Json.Basic
import Achievements.Json.Fault
import Achievements.Json.Numeral
import Achievements.Json.Printer
import Achievements.Json.Quoted
import Achievements.Json.Reader
import Achievements.Json.Record
import Achievements.Log
import Achievements.Log.Filter
import Achievements.Main
import Achievements.Migration
import Achievements.Number
import Achievements.Row
import Achievements.Score
import Achievements.Settings.Basic
import Achievements.Settings.Environment
import Achievements.Settings.KeyPath
import Achievements.Settings.Load
import Achievements.Settings.Value
import Achievements.Settings.Variables
import Achievements.Store.Basic
import Achievements.Store.Config
import Achievements.Text.Alphanumeric
import Achievements.Text.Blank
import Achievements.Text.Pattern
import Achievements.Text.Printable
import Achievements.Text.Quoted
import Achievements.Text.Runs
import Achievements.Text.Utf8
import Achievements.Toml.Key
import Achievements.Toml.Line
import Achievements.Toml.Moment
import Achievements.Toml.Quoted
import Achievements.Toml.Reader
import Achievements.Toml.Scalar
import Achievements.Toml.Table
import Achievements.Proofs.Text.Scanner
import Achievements.Proofs.Text.Trim
import Achievements.Proofs.Clause.Grammar
import Achievements.Proofs.Clause.Classification
import Achievements.Proofs.Expression.Splitting
import Achievements.Proofs.Clause.Written
import Achievements.Proofs.Clause.Recognition
import Achievements.Proofs.Clause.Remnants
import Achievements.Proofs.Expression.Composition
import Achievements.Proofs.Expression.Completeness
import Achievements.Proofs.Expression.Parentheses
import Achievements.Proofs.Expression.WellFormed
import Achievements.Proofs.Binary64.Rounding
import Achievements.Proofs.Decimal.Digits
import Achievements.Proofs.Decimal.Product
import Achievements.Proofs.Document.Decoding
import Achievements.Proofs.Document.ReadBack
import Achievements.Proofs.Document.Finiteness
import Achievements.Proofs.Document.Schema
import Achievements.Proofs.Document.Acceptance
import Achievements.Proofs.FileTree
import Achievements.Proofs.Migration.Protocol
import Achievements.Proofs.Migration.Files
import Achievements.Proofs.Expression.Blanks
import Achievements.Proofs.Migration.DryRun
import Achievements.Proofs.Migration.Accounting
import Achievements.Proofs.Json.Order
import Achievements.Proofs.Json.Record
import Achievements.Proofs.Row
import Achievements.Proofs.Store.History
import Achievements.Proofs.Migration.Sharing
import Achievements.Proofs.Expression.Exactness
import Achievements.Proofs.Clause.Order
import Achievements.Proofs.Clause.Signed
import Achievements.Proofs.Settings.Overlay
import Achievements.Proofs.Clause.Surroundings
import Achievements.Proofs.Binary64.Order
import Achievements.Proofs.Score.Counts
import Achievements.Proofs.Score.Tiling
import Achievements.Proofs.Json.Written
import Achievements.Proofs.Json.Reading
import Achievements.Proofs.Json.Rearrangement
import Achievements.Proofs.Document.Agreement
import Achievements.Proofs.Number.Limits
import Achievements.Proofs.Decimal.Plain
import Achievements.Proofs.Settings.Assignments
import Achievements.Proofs.Settings.Leaves
import Achievements.Proofs.Settings.Verbatim
