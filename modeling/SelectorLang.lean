import SelectorLang.BareText
import SelectorLang.Clause.Basic
import SelectorLang.Clause.Reader
import SelectorLang.Clause.Stage
import SelectorLang.Combinator
import SelectorLang.Command.Arguments
import SelectorLang.Command.Files
import SelectorLang.Command.Run
import SelectorLang.Compiler
import SelectorLang.Config.Basic
import SelectorLang.Config.Sample
import SelectorLang.Directive
import SelectorLang.Error
import SelectorLang.Escape
import SelectorLang.Group
import SelectorLang.Json.Basic
import SelectorLang.Json.Printer
import SelectorLang.Json.Reader
import SelectorLang.Literal
import SelectorLang.Main
import SelectorLang.Number.Basic
import SelectorLang.Number.Double
import SelectorLang.Number.Scaled
import SelectorLang.Number.Shortest
import SelectorLang.Selector.Basic
import SelectorLang.Selector.Decoding
import SelectorLang.Selector.Equality
import SelectorLang.Selector.Resolution
import SelectorLang.Selector.Transport
import SelectorLang.Session
import SelectorLang.Text.Blank
import SelectorLang.Text.Fold
import SelectorLang.Text.Hidden
import SelectorLang.Text.Quoted
import SelectorLang.Text.Reader
import SelectorLang.Text.Span
import SelectorLang.Text.Word
import SelectorLang.Time.Calendar
import SelectorLang.Time.Expression
import SelectorLang.Time.Instant
import SelectorLang.Time.Timestamp
import SelectorLang.Token
import SelectorLang.Toml.Basic
import SelectorLang.Toml.Document
import SelectorLang.Toml.Scalar
import SelectorLang.Proofs.Delimited
import SelectorLang.Proofs.Removal
import SelectorLang.Proofs.Scanning
import SelectorLang.Proofs.ClauseLists
import SelectorLang.Proofs.ClauseTokens
import SelectorLang.Proofs.Conservation
import SelectorLang.Proofs.Filling
import SelectorLang.Proofs.NormalForm
import SelectorLang.Proofs.Slots
import SelectorLang.Proofs.Hiding
import SelectorLang.Proofs.Forms
import SelectorLang.Proofs.FormReading
import SelectorLang.Proofs.PrintedTexts
import SelectorLang.Proofs.Layout
import SelectorLang.Proofs.Printing
import SelectorLang.Proofs.RoundTrip
import SelectorLang.Proofs.LeadingBlanks
import SelectorLang.Proofs.EscapedBodies
import SelectorLang.Proofs.Embedding
import SelectorLang.Proofs.Matching
import SelectorLang.Proofs.Nesting
import SelectorLang.Proofs.JsonReading
import SelectorLang.Proofs.JsonValues
import SelectorLang.Proofs.Columns
import SelectorLang.Proofs.Transport
import SelectorLang.Proofs.CompiledTransport
import SelectorLang.Proofs.LiteralSpans
import SelectorLang.Proofs.LiteralTokens
import SelectorLang.Proofs.BoundedPatterns
import SelectorLang.Proofs.Seams
import SelectorLang.Proofs.ReferenceRegions
import SelectorLang.Proofs.Assembly
import SelectorLang.Proofs.Operands
import SelectorLang.Proofs.Depth
import SelectorLang.Proofs.Meaning
import SelectorLang.Proofs.Saturation
import SelectorLang.Proofs.Histories
import SelectorLang.Proofs.LoneTokens
import SelectorLang.Proofs.Remainders
import SelectorLang.Proofs.RegexTexts
import SelectorLang.Proofs.AngleTexts
import SelectorLang.Proofs.Words
import SelectorLang.Proofs.Pruning
import SelectorLang.Proofs.Directives
import SelectorLang.Proofs.ByteScan
import SelectorLang.Proofs.Partition
import SelectorLang.Proofs.Wrapping
import SelectorLang.Proofs.BareDelimiters
import SelectorLang.Proofs.JsonOperands
import SelectorLang.Proofs.PlainWords
import SelectorLang.Proofs.MixedTexts
import SelectorLang.Proofs.Squeezing
import SelectorLang.Proofs.TimeOffsets
import SelectorLang.Proofs.Calendar
import SelectorLang.Proofs.Days
import SelectorLang.Proofs.TrailingBlanks
import SelectorLang.Proofs.Rounding
import SelectorLang.Proofs.Comparisons
import SelectorLang.Proofs.Numerals
import SelectorLang.Proofs.Milliseconds
import SelectorLang.Proofs.Layering
import SelectorLang.Proofs.CompileCommand
import SelectorLang.Proofs.PlacedWords
import SelectorLang.Proofs.CursorLoop
import SelectorLang.Proofs.WordPasses
