import CodeTidy.Backend.Basic
import CodeTidy.Backend.Builtin
import CodeTidy.Backend.Module
import CodeTidy.Backend.Plugin
import CodeTidy.Blake3
import CodeTidy.Brace.Layout
import CodeTidy.Brace.Lexeme
import CodeTidy.Cache.Basic
import CodeTidy.Cache.Key
import CodeTidy.Cli.Arguments
import CodeTidy.Cli.Help
import CodeTidy.Cli.Run
import CodeTidy.Configuration.Basic
import CodeTidy.Configuration.Discovery
import CodeTidy.Configuration.Reading
import CodeTidy.Data.Datum
import CodeTidy.Decimal.Nearest
import CodeTidy.Decimal.Shortest
import CodeTidy.Detect.Basic
import CodeTidy.Detect.Page
import CodeTidy.Detect.Rules
import CodeTidy.Failure
import CodeTidy.Json.Basic
import CodeTidy.Json.Error
import CodeTidy.Json.Printer
import CodeTidy.Json.Reader
import CodeTidy.Language
import CodeTidy.Limiter
import CodeTidy.Main
import CodeTidy.Markup.Layout
import CodeTidy.Markup.Token
import CodeTidy.Memo.Basic
import CodeTidy.Memo.Group
import CodeTidy.Pattern.Basic
import CodeTidy.Pattern.Reader
import CodeTidy.Proofs.Backend.Loading
import CodeTidy.Proofs.Backend.Supply
import CodeTidy.Proofs.Brace.Comments
import CodeTidy.Proofs.Brace.Conservation
import CodeTidy.Proofs.Brace.Data
import CodeTidy.Proofs.Brace.Lexing
import CodeTidy.Proofs.Brace.Names
import CodeTidy.Proofs.Cache.Key
import CodeTidy.Proofs.Cache.Queue
import CodeTidy.Proofs.Cache.Residency
import CodeTidy.Proofs.Cache.Store
import CodeTidy.Proofs.Cli.Formatting
import CodeTidy.Proofs.Cli.Given
import CodeTidy.Proofs.Configuration.Discovery
import CodeTidy.Proofs.Decimal.Value
import CodeTidy.Proofs.Detect.Languages
import CodeTidy.Proofs.Detect.Ranking
import CodeTidy.Proofs.Detect.Sample
import CodeTidy.Proofs.Detect.Urls
import CodeTidy.Proofs.Json.Agreement
import CodeTidy.Proofs.Json.Decimal
import CodeTidy.Proofs.Json.Document
import CodeTidy.Proofs.Json.Fidelity
import CodeTidy.Proofs.Json.Layout
import CodeTidy.Proofs.Json.Literal
import CodeTidy.Proofs.Json.Printing
import CodeTidy.Proofs.Json.Quoted
import CodeTidy.Proofs.Json.Reading
import CodeTidy.Proofs.Language.Canonical
import CodeTidy.Proofs.Language.Normalize
import CodeTidy.Proofs.Limiter.Admission
import CodeTidy.Proofs.Limiter.Isolation
import CodeTidy.Proofs.Limiter.Windows
import CodeTidy.Proofs.Markup.Conservation
import CodeTidy.Proofs.Markup.Cutting
import CodeTidy.Proofs.Markup.Laying
import CodeTidy.Proofs.Markup.Preformatted
import CodeTidy.Proofs.Markup.Reflowing
import CodeTidy.Proofs.Markup.Stability
import CodeTidy.Proofs.Markup.Tokens
import CodeTidy.Proofs.Memo.Cells
import CodeTidy.Proofs.Memo.Rounds
import CodeTidy.Proofs.Memo.Serving
import CodeTidy.Proofs.Memo.SingleFlight
import CodeTidy.Proofs.Memo.Turns
import CodeTidy.Proofs.Pattern.Visible
import CodeTidy.Proofs.Registry.Bindings
import CodeTidy.Proofs.Registry.Builtin
import CodeTidy.Proofs.Registry.Coverage
import CodeTidy.Proofs.Registry.Refusal
import CodeTidy.Proofs.Registry.Registration
import CodeTidy.Proofs.Service.Asking
import CodeTidy.Proofs.Service.Failing
import CodeTidy.Proofs.Service.Handling
import CodeTidy.Proofs.Service.Lookups
import CodeTidy.Proofs.Service.Quota
import CodeTidy.Proofs.Service.Recording
import CodeTidy.Proofs.Service.Stages
import CodeTidy.Proofs.Service.Transparency
import CodeTidy.Proofs.Settings.Bag
import CodeTidy.Proofs.Settings.Indent
import CodeTidy.Proofs.Settings.Layers
import CodeTidy.Proofs.Settings.Slots
import CodeTidy.Proofs.Settings.Text
import CodeTidy.Proofs.Settings.Token
import CodeTidy.Proofs.Sql.Conditions
import CodeTidy.Proofs.Sql.Conservation
import CodeTidy.Proofs.Sql.Growth
import CodeTidy.Proofs.Sql.Laying
import CodeTidy.Proofs.Sql.Phrases
import CodeTidy.Proofs.Sql.Reading
import CodeTidy.Proofs.Sql.Recasing
import CodeTidy.Proofs.Sql.RoundTrip
import CodeTidy.Proofs.Sql.Spelling
import CodeTidy.Proofs.Table
import CodeTidy.Proofs.Text.Ascii
import CodeTidy.Proofs.Text.Blank
import CodeTidy.Proofs.Text.Letter
import CodeTidy.Proofs.Text.Lowercase
import CodeTidy.Proofs.Text.Respacing
import CodeTidy.Proofs.Text.Strip
import CodeTidy.Proofs.Whitespace.Conservation
import CodeTidy.Proofs.Whitespace.Indentation
import CodeTidy.Proofs.Whitespace.Lines
import CodeTidy.Proofs.Whitespace.Literals
import CodeTidy.Proofs.Whitespace.Rescanning
import CodeTidy.Proofs.Whitespace.Scanning
import CodeTidy.Proofs.Whitespace.Stability
import CodeTidy.Proofs.Yaml.Comments
import CodeTidy.Registry
import CodeTidy.Service
import CodeTidy.Settings.Basic
import CodeTidy.Settings.Reading
import CodeTidy.Settings.Resolve
import CodeTidy.Settings.Widths
import CodeTidy.Sql.Layout
import CodeTidy.Sql.Token
import CodeTidy.Text.Blank
import CodeTidy.Text.Letter
import CodeTidy.Text.Lowercase
import CodeTidy.Text.Quoted
import CodeTidy.Text.RangeTable
import CodeTidy.Text.Utf8
import CodeTidy.Ticket
import CodeTidy.Toml.Cursor
import CodeTidy.Toml.Excerpt
import CodeTidy.Toml.Quoted
import CodeTidy.Toml.Reader
import CodeTidy.Toml.Scalar
import CodeTidy.Toml.Tree
import CodeTidy.Whitespace.Layout
import CodeTidy.Whitespace.Lexicon
import CodeTidy.Whitespace.Scan
import CodeTidy.Yaml.Cursor
import CodeTidy.Yaml.Layout
import CodeTidy.Yaml.Node
import CodeTidy.Yaml.Printer
import CodeTidy.Yaml.Scalar
import CodeTidy.Yaml.Tag
import CodeTidy.Yaml.Token
import CodeTidy.Yaml.Value
