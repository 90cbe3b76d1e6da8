import Conform.Dialect
import Conform.Document
import Conform.Engine
import Conform.Finding
import Conform.Interruption
import Conform.Json.Basic
import Conform.Json.Printer
import Conform.Json.Quoted
import Conform.Json.Reader
import Conform.Members
import Conform.Number.Basic
import Conform.Number.Binary64
import Conform.Number.Numeral
import Conform.Number.Shortest
import Conform.Outcome
import Conform.Path
import Conform.Pattern.Basic
import Conform.Pattern.Escape
import Conform.Pattern.Fault
import Conform.Pattern.Matcher
import Conform.Pattern.Opening
import Conform.Pattern.Reader
import Conform.Pattern.Syntax
import Conform.Pattern.Token
import Conform.Proofs.Document
import Conform.Proofs.Engine
import Conform.Proofs.Fallible
import Conform.Proofs.Json.LongInteger
import Conform.Proofs.Json.Numbers
import Conform.Proofs.Json.Quoted
import Conform.Proofs.Json.Reached
import Conform.Proofs.Json.Reading
import Conform.Proofs.Native
import Conform.Proofs.Number.Exact
import Conform.Proofs.Number.Multiple
import Conform.Proofs.Number.Order
import Conform.Proofs.Number.Respelled
import Conform.Proofs.Number.Rounding
import Conform.Proofs.Outcome.Report
import Conform.Proofs.Outcome.Tally
import Conform.Proofs.Path
import Conform.Proofs.Pattern.Keeps
import Conform.Proofs.Pattern.Unbroken
import Conform.Proofs.Presented
import Conform.Proofs.Reported
import Conform.Proofs.Sample.Entries
import Conform.Proofs.Sample.Memory
import Conform.Proofs.Sample.Transparency
import Conform.Proofs.Schema.Extended
import Conform.Proofs.Schema.Keywords
import Conform.Proofs.Schema.Nodes
import Conform.Proofs.Schema.Rearranged
import Conform.Proofs.Schema.Renamed
import Conform.Proofs.Schema.Steps
import Conform.Proofs.Schema.Stripped
import Conform.Proofs.Service.Samples
import Conform.Proofs.Temporal.Calendar
import Conform.Proofs.Temporal.Forms
import Conform.Proofs.Text.Unbroken
import Conform.Proofs.Text.Utf8
import Conform.Proofs.Validator.Below
import Conform.Proofs.Validator.Bounds
import Conform.Proofs.Validator.Checked
import Conform.Proofs.Validator.Cut
import Conform.Proofs.Validator.Deeper
import Conform.Proofs.Validator.Depth
import Conform.Proofs.Validator.Descent
import Conform.Proofs.Validator.Dialects
import Conform.Proofs.Validator.Distinct
import Conform.Proofs.Validator.Divisors
import Conform.Proofs.Validator.Entry
import Conform.Proofs.Validator.Extended
import Conform.Proofs.Validator.FailSoft
import Conform.Proofs.Validator.Findings
import Conform.Proofs.Validator.Influence
import Conform.Proofs.Validator.Located
import Conform.Proofs.Validator.Malformed
import Conform.Proofs.Validator.Modular
import Conform.Proofs.Validator.Order
import Conform.Proofs.Validator.Paired
import Conform.Proofs.Validator.PathText
import Conform.Proofs.Validator.Rearranged
import Conform.Proofs.Validator.Renamed
import Conform.Proofs.Validator.Respelled
import Conform.Proofs.Validator.Simulation
import Conform.Proofs.Validator.Violation
import Conform.Proofs.Validator.Walk
import Conform.Proofs.Validator.Words
import Conform.Proofs.Value.Data
import Conform.Proofs.Value.Equality
import Conform.Proofs.Value.Nodes
import Conform.Proofs.Value.Pairwise
import Conform.Proofs.Value.Positions
import Conform.Proofs.Value.Respelled
import Conform.Sample.Basic
import Conform.Sample.Bundled
import Conform.Sample.Shelf
import Conform.Schema
import Conform.Service.Basic
import Conform.Service.Reply
import Conform.Service.Request
import Conform.Service.Submission
import Conform.Settings
import Conform.Temporal
import Conform.Text.Blank
import Conform.Text.Case
import Conform.Text.CharacterName
import Conform.Text.Digit
import Conform.Text.Hex
import Conform.Text.Identifier
import Conform.Text.Letter
import Conform.Text.Position
import Conform.Text.Quoted
import Conform.Text.Ranges
import Conform.Text.Utf8
import Conform.Toml.Basic
import Conform.Toml.Reader
import Conform.Toml.Scalar
import Conform.Toml.Table
import Conform.Validator.Leaf
import Conform.Validator.Walk
import Conform.Value.Basic
import Conform.Value.OfToml
