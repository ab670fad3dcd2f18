import Scribe.CommandLine
import Scribe.Format
import Scribe.Java.Binding
import Scribe.Java.Comment
import Scribe.Java.Fragment
import Scribe.Java.Literal
import Scribe.Java.Member
import Scribe.Java.Modifiers
import Scribe.Java.Reference
import Scribe.Java.TypeDecl
import Scribe.Java.Value
import Scribe.Json.Lexeme
import Scribe.Json.Printer
import Scribe.Json.Reader
import Scribe.Json.Schema
import Scribe.Json.Tree
import Scribe.Main
import Scribe.Markup.Binding
import Scribe.Model.Builder
import Scribe.Model.Codec
import Scribe.Model.Datum.Basic
import Scribe.Model.Datum.Markup
import Scribe.Model.Datum.TypeDecl
import Scribe.Model.Datum.Value
import Scribe.Model.Kind
import Scribe.Model.Markup
import Scribe.Model.Modifier
import Scribe.Model.Node
import Scribe.Model.Order
import Scribe.Model.Schema
import Scribe.Model.TypeDecl
import Scribe.Model.TypeRef
import Scribe.Model.Validation
import Scribe.Model.Value
import Scribe.Name
import Scribe.Number.Binary
import Scribe.Number.Numeral
import Scribe.Number.Scaled
import Scribe.Number.Shortest
import Scribe.Pattern.Automaton.Basic
import Scribe.Pattern.Automaton.Chars
import Scribe.Pattern.Automaton.Words
import Scribe.Pattern.Basic
import Scribe.Pattern.CharSet
import Scribe.Pattern.Class
import Scribe.Pattern.Escape
import Scribe.Pattern.Flags
import Scribe.Pattern.Reader
import Scribe.Pattern.Room
import Scribe.Pattern.Search
import Scribe.Probe
import Scribe.Proofs.Java.Balance
import Scribe.Proofs.Java.Bare
import Scribe.Proofs.Java.Bracket
import Scribe.Proofs.Java.Chain
import Scribe.Proofs.Java.Clashes
import Scribe.Proofs.Java.Clauses
import Scribe.Proofs.Java.Closing
import Scribe.Proofs.Java.Collisions
import Scribe.Proofs.Java.Complete
import Scribe.Proofs.Java.Descent
import Scribe.Proofs.Java.Fallback
import Scribe.Proofs.Java.File
import Scribe.Proofs.Java.Growth
import Scribe.Proofs.Java.Ignored
import Scribe.Proofs.Java.Implied
import Scribe.Proofs.Java.Imports
import Scribe.Proofs.Java.Integers
import Scribe.Proofs.Java.Layout
import Scribe.Proofs.Java.Nesting
import Scribe.Proofs.Java.OneLine
import Scribe.Proofs.Java.Order
import Scribe.Proofs.Java.Overflow
import Scribe.Proofs.Java.Owners
import Scribe.Proofs.Java.Page
import Scribe.Proofs.Java.Parent
import Scribe.Proofs.Java.Plain
import Scribe.Proofs.Java.Quiet
import Scribe.Proofs.Java.Quote
import Scribe.Proofs.Java.Readable
import Scribe.Proofs.Java.References
import Scribe.Proofs.Java.Reordered
import Scribe.Proofs.Java.Repeat
import Scribe.Proofs.Java.Runs
import Scribe.Proofs.Java.Session
import Scribe.Proofs.Java.Spelling
import Scribe.Proofs.Java.Varargs
import Scribe.Proofs.Java.Words
import Scribe.Proofs.Java.Written
import Scribe.Proofs.Json.Inversion
import Scribe.Proofs.Json.Lexeme
import Scribe.Proofs.Json.Reader
import Scribe.Proofs.Json.Record
import Scribe.Proofs.Json.Reread
import Scribe.Proofs.Json.Schema
import Scribe.Proofs.Json.Tree
import Scribe.Proofs.Json.Writer
import Scribe.Proofs.Layout
import Scribe.Proofs.Layout.Formats
import Scribe.Proofs.Layout.Indent
import Scribe.Proofs.Layout.Line
import Scribe.Proofs.Layout.Margin
import Scribe.Proofs.Layout.Passage
import Scribe.Proofs.Layout.Spaced
import Scribe.Proofs.Layout.Uniform
import Scribe.Proofs.Markup.Complete
import Scribe.Proofs.Markup.Content
import Scribe.Proofs.Markup.Escape
import Scribe.Proofs.Markup.Indented
import Scribe.Proofs.Markup.Layout
import Scribe.Proofs.Markup.Mark
import Scribe.Proofs.Markup.Structure
import Scribe.Proofs.Markup.Token
import Scribe.Proofs.Model.Datum
import Scribe.Proofs.Model.Declared
import Scribe.Proofs.Model.Inside
import Scribe.Proofs.Model.Offender
import Scribe.Proofs.Model.Rearranged
import Scribe.Proofs.Model.Reread
import Scribe.Proofs.Model.RoundTrip
import Scribe.Proofs.Model.Schema
import Scribe.Proofs.Model.Source
import Scribe.Proofs.Model.Strings
import Scribe.Proofs.Model.Validity
import Scribe.Proofs.Name
import Scribe.Proofs.Number.Integer
import Scribe.Proofs.Render.Binding
import Scribe.Proofs.Render.Dependencies
import Scribe.Proofs.Render.Depth
import Scribe.Proofs.Render.Dispatch
import Scribe.Proofs.Render.Each
import Scribe.Proofs.Render.Fallback
import Scribe.Proofs.Render.Handle
import Scribe.Proofs.Render.History
import Scribe.Proofs.Render.Overflow
import Scribe.Proofs.Render.Quiet
import Scribe.Proofs.Render.Registry
import Scribe.Proofs.Render.Snapshot
import Scribe.Proofs.Render.Trace
import Scribe.Proofs.Render.Yields
import Scribe.Proofs.Spacing
import Scribe.Proofs.Text.Bytes
import Scribe.Proofs.Text.Chars
import Scribe.Proofs.Text.Split
import Scribe.Proofs.Whole
import Scribe.Render.Dependencies
import Scribe.Render.Factory
import Scribe.Render.Generator
import Scribe.Render.IgnorePattern
import Scribe.Render.Overflow
import Scribe.Render.Script
import Scribe.Render.Stack
import Scribe.Settings
import Scribe.Text.Alphabetic
import Scribe.Text.Blank
import Scribe.Text.CaseFold
import Scribe.Text.Digit
import Scribe.Text.Numeric
import Scribe.Text.Ranges
import Scribe.Text.Split
import Scribe.Text.Utf8
import Scribe.Text.Word
import Scribe.Toml.Reader
import Scribe.Toml.Table
