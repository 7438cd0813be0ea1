import PercentTemplate.Calendar
import PercentTemplate.Command.Arguments
import PercentTemplate.Command.Console
import PercentTemplate.Command.Input
import PercentTemplate.Command.Run
import PercentTemplate.Command.Settings
import PercentTemplate.Document.Basic
import PercentTemplate.Document.Text
import PercentTemplate.Files.Obstacle
import PercentTemplate.Files.Path
import PercentTemplate.Files.Tree
import PercentTemplate.Files.Write
import PercentTemplate.Json.Basic
import PercentTemplate.Json.Emission
import PercentTemplate.Json.Reader
import PercentTemplate.Json.Token
import PercentTemplate.Json.Writer
import PercentTemplate.Keyed
import PercentTemplate.Log.Logger
import PercentTemplate.Log.Record
import PercentTemplate.Main
import PercentTemplate.Mapping
import PercentTemplate.Mapping.Assignment
import PercentTemplate.Mapping.Host
import PercentTemplate.Mapping.Load
import PercentTemplate.Number.FloatText
import PercentTemplate.Number.Integer
import PercentTemplate.Number.Shortest
import PercentTemplate.Proofs.Command.Agreement
import PercentTemplate.Proofs.Command.Arguments
import PercentTemplate.Proofs.Command.Delivery
import PercentTemplate.Proofs.Command.Destination
import PercentTemplate.Proofs.Command.Failure
import PercentTemplate.Proofs.Command.Input
import PercentTemplate.Proofs.Command.Merging
import PercentTemplate.Proofs.Command.Values
import PercentTemplate.Proofs.Document.Json
import PercentTemplate.Proofs.Document.Text
import PercentTemplate.Proofs.Files.Stranding
import PercentTemplate.Proofs.Files.Tree
import PercentTemplate.Proofs.Files.Way
import PercentTemplate.Proofs.Files.Write
import PercentTemplate.Proofs.Json.Emission
import PercentTemplate.Proofs.Json.Grammar
import PercentTemplate.Proofs.Json.Nesting
import PercentTemplate.Proofs.Json.RoundTrip
import PercentTemplate.Proofs.Json.Token
import PercentTemplate.Proofs.Json.Words
import PercentTemplate.Proofs.Json.Writing
import PercentTemplate.Proofs.Keyed
import PercentTemplate.Proofs.Log.Configuration
import PercentTemplate.Proofs.Mapping.Assignment
import PercentTemplate.Proofs.Mapping.Objects
import PercentTemplate.Proofs.Mapping.Reporting
import PercentTemplate.Proofs.Mapping.RoundTrip
import PercentTemplate.Proofs.Mapping.Superset
import PercentTemplate.Proofs.Number.Digits
import PercentTemplate.Proofs.Report.Consistency
import PercentTemplate.Proofs.Report.Dependence
import PercentTemplate.Proofs.Report.Summary
import PercentTemplate.Proofs.Report.Validation
import PercentTemplate.Proofs.Template.Attempt
import PercentTemplate.Proofs.Template.Composition
import PercentTemplate.Proofs.Template.Conservation
import PercentTemplate.Proofs.Template.Course
import PercentTemplate.Proofs.Template.Cursor
import PercentTemplate.Proofs.Template.Language
import PercentTemplate.Proofs.Template.Lap
import PercentTemplate.Proofs.Template.Layout
import PercentTemplate.Proofs.Template.Lockstep
import PercentTemplate.Proofs.Template.Lookahead
import PercentTemplate.Proofs.Template.Pending
import PercentTemplate.Proofs.Template.Prediction
import PercentTemplate.Proofs.Template.Quoting
import PercentTemplate.Proofs.Template.Reading
import PercentTemplate.Proofs.Template.Recovery
import PercentTemplate.Proofs.Template.Refusal
import PercentTemplate.Proofs.Template.Register
import PercentTemplate.Proofs.Template.Stream
import PercentTemplate.Proofs.Template.Trace
import PercentTemplate.Proofs.Text.Run
import PercentTemplate.Proofs.Text.Terminal
import PercentTemplate.Proofs.Text.Utf8
import PercentTemplate.Proofs.Yaml.Completion
import PercentTemplate.Proofs.Yaml.Flow
import PercentTemplate.Proofs.Yaml.Lexer
import PercentTemplate.Proofs.Yaml.Node
import PercentTemplate.Proofs.Yaml.Plain
import PercentTemplate.Proofs.Yaml.Portable
import PercentTemplate.Proofs.Yaml.Quoted
import PercentTemplate.Proofs.Yaml.Scalar
import PercentTemplate.Proofs.Yaml.Source
import PercentTemplate.Proofs.Yaml.Value
import PercentTemplate.Report.Measure
import PercentTemplate.Report.Schema
import PercentTemplate.Report.Summary
import PercentTemplate.Template.Cursor
import PercentTemplate.Template.Cursor.Plain
import PercentTemplate.Template.Cursor.Rest
import PercentTemplate.Template.Event
import PercentTemplate.Template.Format
import PercentTemplate.Template.Fragment
import PercentTemplate.Template.Interpretation
import PercentTemplate.Template.Layout
import PercentTemplate.Template.Outline
import PercentTemplate.Template.Placeholder
import PercentTemplate.Template.Quote
import PercentTemplate.Template.Scan
import PercentTemplate.Template.Session
import PercentTemplate.Template.Token
import PercentTemplate.Text.Blank
import PercentTemplate.Text.DecimalDigit
import PercentTemplate.Text.Hex
import PercentTemplate.Text.Newline
import PercentTemplate.Text.Point
import PercentTemplate.Text.Printable
import PercentTemplate.Text.Quoted
import PercentTemplate.Text.Slice
import PercentTemplate.Text.Terminal
import PercentTemplate.Text.UpperCase
import PercentTemplate.Text.Utf8
import PercentTemplate.Yaml.Node
import PercentTemplate.Yaml.Scalar
import PercentTemplate.Yaml.Source
import PercentTemplate.Yaml.Tag
import PercentTemplate.Yaml.Timestamp
import PercentTemplate.Yaml.Token.Basic
import PercentTemplate.Yaml.Token.Block
import PercentTemplate.Yaml.Token.Lexer
import PercentTemplate.Yaml.Token.Plain
import PercentTemplate.Yaml.Token.Property
import PercentTemplate.Yaml.Token.Quoted
import PercentTemplate.Yaml.Value
