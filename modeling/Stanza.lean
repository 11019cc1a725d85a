import Stanza.Command.Arguments
import Stanza.Command.Dump
import Stanza.Command.Exit
import Stanza.Command.Run
import Stanza.Config.Basic
import Stanza.Config.Frozen
import Stanza.Config.Resolution
import Stanza.Database.Profile
import Stanza.Database.Resolution
import Stanza.Decimal.Layout
import Stanza.Decimal.Reading
import Stanza.Decimal.Rounded
import Stanza.Decimal.Shortest
import Stanza.Error.Config
import Stanza.Error.Fault
import Stanza.Error.Load
import Stanza.Error.Rejection
import Stanza.File.Ini
import Stanza.File.Path
import Stanza.File.Toml.Document
import Stanza.File.Toml.Scalar
import Stanza.File.Tree
import Stanza.File.Yaml.Binary
import Stanza.File.Yaml.Cursor
import Stanza.File.Yaml.Document
import Stanza.File.Yaml.Label
import Stanza.File.Yaml.Node
import Stanza.File.Yaml.Tag
import Stanza.File.Yaml.Text
import Stanza.File.Yaml.Token
import Stanza.Header
import Stanza.Load
import Stanza.Log.Level
import Stanza.Log.Record
import Stanza.Log.Redaction
import Stanza.Log.Registry
import Stanza.Log.Template
import Stanza.Logged
import Stanza.Main
import Stanza.Pattern.Basic
import Stanza.Pattern.Error
import Stanza.Pattern.Escape
import Stanza.Pattern.Matching
import Stanza.Pattern.Reading
import Stanza.Pattern.Source
import Stanza.Pattern.Syntax
import Stanza.Proofs.Command.Accepted
import Stanza.Proofs.Command.Arguments
import Stanza.Proofs.Command.Dump
import Stanza.Proofs.Command.Exit
import Stanza.Proofs.Command.Rendered
import Stanza.Proofs.Command.Sections
import Stanza.Proofs.Config.Copy
import Stanza.Proofs.Config.Failure
import Stanza.Proofs.Config.Frozen
import Stanza.Proofs.Config.Reload
import Stanza.Proofs.Config.Reordered
import Stanza.Proofs.Config.Resolution
import Stanza.Proofs.Config.Written
import Stanza.Proofs.Database.Cascade
import Stanza.Proofs.Database.Failure
import Stanza.Proofs.Database.Grouping
import Stanza.Proofs.Database.Invariant
import Stanza.Proofs.Database.Named
import Stanza.Proofs.Database.Origin
import Stanza.Proofs.Database.Profile
import Stanza.Proofs.Database.Reading
import Stanza.Proofs.Database.Reload
import Stanza.Proofs.Database.Reordered
import Stanza.Proofs.Database.Resolution
import Stanza.Proofs.Database.Resolved
import Stanza.Proofs.Database.Synthesized
import Stanza.Proofs.Database.WellFormed
import Stanza.Proofs.File.Ini
import Stanza.Proofs.File.Reader
import Stanza.Proofs.File.Toml
import Stanza.Proofs.File.Yaml.Document
import Stanza.Proofs.File.Yaml.Node
import Stanza.Proofs.File.Yaml.Token
import Stanza.Proofs.Header
import Stanza.Proofs.Header.Canonical
import Stanza.Proofs.Header.Grammar
import Stanza.Proofs.Load
import Stanza.Proofs.Load.Failure
import Stanza.Proofs.Load.File
import Stanza.Proofs.Load.Grouped
import Stanza.Proofs.Load.Nested
import Stanza.Proofs.Load.Simple
import Stanza.Proofs.Load.Written
import Stanza.Proofs.Log.Redacted
import Stanza.Proofs.Log.Registry
import Stanza.Proofs.Log.Sensitive
import Stanza.Proofs.Logged
import Stanza.Proofs.Logged.Failure
import Stanza.Proofs.Logged.Success
import Stanza.Proofs.Redaction.Concealed
import Stanza.Proofs.Redaction.Database
import Stanza.Proofs.Redaction.Document
import Stanza.Proofs.Redaction.Dump
import Stanza.Proofs.Redaction.Resolution
import Stanza.Proofs.Redaction.Schema
import Stanza.Proofs.Retirement
import Stanza.Proofs.Schema.Catalogue
import Stanza.Proofs.Schema.Convert
import Stanza.Proofs.Schema.Extension
import Stanza.Proofs.Schema.Failure
import Stanza.Proofs.Schema.Origin
import Stanza.Proofs.Schema.Relevant
import Stanza.Proofs.Schema.Reported
import Stanza.Proofs.Schema.RoundTrip
import Stanza.Proofs.Schema.Stages
import Stanza.Proofs.Schema.TextList
import Stanza.Proofs.Section
import Stanza.Proofs.Section.Gathered
import Stanza.Proofs.Settings
import Stanza.Proofs.Text.Blank
import Stanza.Proofs.Text.Integer
import Stanza.Proofs.Text.Lines
import Stanza.Proofs.Text.Utf8
import Stanza.Proofs.Time.PeriodGrammar
import Stanza.Proofs.Time.PeriodLength
import Stanza.Proofs.Time.PeriodText
import Stanza.Proofs.Time.Span
import Stanza.Proofs.Value
import Stanza.Proofs.Value.Leaves
import Stanza.Proofs.Value.Rendered
import Stanza.Redaction
import Stanza.Retirement
import Stanza.Schema.Catalogue
import Stanza.Schema.Check
import Stanza.Schema.Convert
import Stanza.Schema.Spec
import Stanza.Section
import Stanza.Text.Blank
import Stanza.Text.Case
import Stanza.Text.Integer
import Stanza.Text.Literal
import Stanza.Text.Quoted
import Stanza.Text.Unprintable
import Stanza.Text.Utf8
import Stanza.Text.Word
import Stanza.Time.Calendar
import Stanza.Time.Period
import Stanza.Time.PeriodText
import Stanza.Time.Span
import Stanza.Value.Basic
import Stanza.Value.Json
import Stanza.Value.Same
import Stanza.Value.Settings
import Stanza.Value.Text
