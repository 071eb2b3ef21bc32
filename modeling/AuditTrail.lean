import AuditTrail.Calendar.Date
import AuditTrail.Calendar.Instant
import AuditTrail.Cluster
import AuditTrail.Command.Arguments
import AuditTrail.Command.Grammar
import AuditTrail.Command.Run
import AuditTrail.Content.Conversion
import AuditTrail.Content.Octets
import AuditTrail.Digest.Sha256
import AuditTrail.Exception.Basic
import AuditTrail.Exception.Construction
import AuditTrail.Fault
import AuditTrail.Files.Delivery
import AuditTrail.Files.Fingerprint
import AuditTrail.Files.Path
import AuditTrail.Files.Tree
import AuditTrail.Filter.Basic
import AuditTrail.Filter.Load
import AuditTrail.Filter.Options
import AuditTrail.Host
import AuditTrail.Json.Reader
import AuditTrail.Json.Writer
import AuditTrail.Log
import AuditTrail.Main
import AuditTrail.Number.Double
import AuditTrail.Number.Numeral
import AuditTrail.Proofs.Calendar.Date
import AuditTrail.Proofs.Calendar.Instant
import AuditTrail.Proofs.Calendar.Seconds
import AuditTrail.Proofs.Command.Ending
import AuditTrail.Proofs.Command.FileArguments
import AuditTrail.Proofs.Command.Fingerprints
import AuditTrail.Proofs.Command.Rendering
import AuditTrail.Proofs.Content.Canonical
import AuditTrail.Proofs.Content.Ending
import AuditTrail.Proofs.Content.Lines
import AuditTrail.Proofs.Digest.Sha256
import AuditTrail.Proofs.Faults
import AuditTrail.Proofs.Files.Fingerprint
import AuditTrail.Proofs.Files.Tree
import AuditTrail.Proofs.Filter.Channels
import AuditTrail.Proofs.Filter.Fallback
import AuditTrail.Proofs.Filter.Wildcards
import AuditTrail.Proofs.Json.Cut
import AuditTrail.Proofs.Json.Decimal
import AuditTrail.Proofs.Json.Layout
import AuditTrail.Proofs.Json.Number
import AuditTrail.Proofs.Json.Parsed
import AuditTrail.Proofs.Json.Parts
import AuditTrail.Proofs.Json.ReadBack
import AuditTrail.Proofs.Json.Writable
import AuditTrail.Proofs.Keyed
import AuditTrail.Proofs.Number.Exact
import AuditTrail.Proofs.Number.ReadsBack
import AuditTrail.Proofs.Number.Rounding
import AuditTrail.Proofs.Number.Shortest
import AuditTrail.Proofs.Record.Atomicity
import AuditTrail.Proofs.Record.Bodies
import AuditTrail.Proofs.Record.BodyChannels
import AuditTrail.Proofs.Record.BodyForms
import AuditTrail.Proofs.Record.Confidentiality
import AuditTrail.Proofs.Record.Differences
import AuditTrail.Proofs.Record.Document
import AuditTrail.Proofs.Record.Fields
import AuditTrail.Proofs.Record.HiddenBody
import AuditTrail.Proofs.Record.Invariant
import AuditTrail.Proofs.Record.Layouts
import AuditTrail.Proofs.Record.Noninterference
import AuditTrail.Proofs.Record.NormalForm
import AuditTrail.Proofs.Record.Projections
import AuditTrail.Proofs.Record.Query
import AuditTrail.Proofs.Record.RequestBody
import AuditTrail.Proofs.Record.RoundTrip
import AuditTrail.Proofs.Record.SourceParam
import AuditTrail.Proofs.Record.StricterFilter
import AuditTrail.Proofs.Record.TextLines
import AuditTrail.Proofs.Record.Timestamps
import AuditTrail.Proofs.Record.TypedRequest
import AuditTrail.Proofs.Record.UsersContent
import AuditTrail.Proofs.Record.Writes
import AuditTrail.Proofs.Redaction.Backtracking
import AuditTrail.Proofs.Redaction.Body
import AuditTrail.Proofs.Redaction.HashFree
import AuditTrail.Proofs.Redaction.Header
import AuditTrail.Proofs.Redaction.Language
import AuditTrail.Proofs.Redaction.Quoted
import AuditTrail.Proofs.Redaction.Scan
import AuditTrail.Proofs.Redaction.Spans
import AuditTrail.Proofs.Results
import AuditTrail.Proofs.Settings.Unreadable
import AuditTrail.Proofs.Text.Blank
import AuditTrail.Proofs.Text.Form
import AuditTrail.Proofs.Text.Glob
import AuditTrail.Proofs.Text.Padded
import AuditTrail.Proofs.Text.Pieces
import AuditTrail.Proofs.Text.Utf8
import AuditTrail.Proofs.Value.Presence
import AuditTrail.Proofs.Value.Texts
import AuditTrail.Proofs.Value.Typed
import AuditTrail.Proofs.Vocabulary
import AuditTrail.Proofs.Yaml.Faults
import AuditTrail.Proofs.Yaml.Nodes
import AuditTrail.Proofs.Yaml.Outcome
import AuditTrail.Proofs.Yaml.Tokens
import AuditTrail.Record.Argument
import AuditTrail.Record.Basic
import AuditTrail.Record.Call
import AuditTrail.Record.Projection
import AuditTrail.Record.Reading
import AuditTrail.Record.Script
import AuditTrail.Redaction.Body
import AuditTrail.Redaction.Hash
import AuditTrail.Redaction.Header
import AuditTrail.Request
import AuditTrail.Settings.Basic
import AuditTrail.Settings.EnvFile
import AuditTrail.Signature
import AuditTrail.Text.Basic
import AuditTrail.Text.Blank
import AuditTrail.Text.Digit
import AuditTrail.Text.Form
import AuditTrail.Text.Glob
import AuditTrail.Text.Hex
import AuditTrail.Text.Lines
import AuditTrail.Text.Lower
import AuditTrail.Text.Printable
import AuditTrail.Text.Quoted
import AuditTrail.Text.Utf8
import AuditTrail.Value.Basic
import AuditTrail.Value.Equality
import AuditTrail.Value.Sequence
import AuditTrail.Value.SetOrder
import AuditTrail.Value.Show
import AuditTrail.Value.Silence
import AuditTrail.Vocabulary
import AuditTrail.Yaml.Error
import AuditTrail.Yaml.Input
import AuditTrail.Yaml.Node
import AuditTrail.Yaml.Reader
import AuditTrail.Yaml.Scalar
import AuditTrail.Yaml.Source
import AuditTrail.Yaml.Tag
import AuditTrail.Yaml.Token
import AuditTrail.Yaml.Token.Lexer
import AuditTrail.Yaml.Token.Scalar
