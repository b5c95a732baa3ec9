import HttpContract.Admin.Handle
import HttpContract.Admin.Reply
import HttpContract.Admin.Route
import HttpContract.Admin.View
import HttpContract.Binary64.Basic
import HttpContract.Binary64.Decimal
import HttpContract.Calendar.Day
import HttpContract.Calendar.Fields
import HttpContract.Calendar.Instant
import HttpContract.Calendar.Item
import HttpContract.Calendar.Moment
import HttpContract.Calendar.Names
import HttpContract.Calendar.Read
import HttpContract.Calendar.Render
import HttpContract.CharSet
import HttpContract.CommandLine
import HttpContract.Console
import HttpContract.Constraint.Basic
import HttpContract.Constraint.Bounds
import HttpContract.Constraint.Compare
import HttpContract.Constraint.Date
import HttpContract.Constraint.Error
import HttpContract.Constraint.Evaluate
import HttpContract.Constraint.Matcher
import HttpContract.Constraint.Mock
import HttpContract.Constraint.Number
import HttpContract.Constraint.Printer
import HttpContract.Constraint.Text
import HttpContract.Constraint.Uuid
import HttpContract.Contract.Basic
import HttpContract.Contract.Compile
import HttpContract.Contract.Match
import HttpContract.Contract.Respond
import HttpContract.Http.Message
import HttpContract.Json.Basic
import HttpContract.Json.Equality
import HttpContract.Json.Number
import HttpContract.Json.Parser
import HttpContract.Json.Printer
import HttpContract.Json.Record
import HttpContract.JsonPath.Basic
import HttpContract.JsonPath.Parser
import HttpContract.JsonPath.Select
import HttpContract.Library
import HttpContract.Library.Simple
import HttpContract.Pattern.Basic
import HttpContract.Pattern.Expr
import HttpContract.Pattern.Lower
import HttpContract.Pattern.Match
import HttpContract.Pattern.Parser
import HttpContract.Proofs.Basic
import HttpContract.Proofs.Binary64.Rounding
import HttpContract.Proofs.Binary64.Shortest
import HttpContract.Proofs.Binary64.Written
import HttpContract.Proofs.Constraint.Reread
import HttpContract.Proofs.Constraint.Scripted
import HttpContract.Proofs.Constraint.Settled
import HttpContract.Proofs.Contract.Canonical
import HttpContract.Proofs.Contract.Derive
import HttpContract.Proofs.Contract.Evaluate
import HttpContract.Proofs.Contract.Reread
import HttpContract.Proofs.Contract.Roundtrip
import HttpContract.Proofs.Contract.Settled
import HttpContract.Proofs.Script.Builtin
import HttpContract.Proofs.Script.Complete
import HttpContract.Proofs.Script.Expression
import HttpContract.Proofs.Script.Layout
import HttpContract.Proofs.Script.Literal
import HttpContract.Proofs.Script.Numeral
import HttpContract.Proofs.Script.Reader
import HttpContract.Proofs.Script.Run
import HttpContract.Proofs.Script.Scan
import HttpContract.Proofs.Script.Sound
import HttpContract.Random
import HttpContract.Request.Basic
import HttpContract.Request.Form
import HttpContract.Routing
import HttpContract.Script.Builtin
import HttpContract.Script.Error
import HttpContract.Script.Lexer
import HttpContract.Script.Parser
import HttpContract.Script.Token
import HttpContract.Service.Job
import HttpContract.Service.Loopback
import HttpContract.Service.Traffic
import HttpContract.Settings.Basic
import HttpContract.Settings.LogFilter
import HttpContract.Settings.Outline
import HttpContract.Settings.Reader
import HttpContract.Store.App
import HttpContract.Store.Basic
import HttpContract.Store.Call
import HttpContract.Store.Operation
import HttpContract.Store.Table
import HttpContract.Stub.Answer
import HttpContract.Stub.Basic
import HttpContract.Text.Percent
import HttpContract.Text.Quoted
import HttpContract.Text.Utf8
import HttpContract.Unicode.CaseFolding
import HttpContract.Unicode.Category
import HttpContract.Unicode.Derived
import HttpContract.Unicode.Property
import HttpContract.Unicode.WritingSystem
import HttpContract.WireTest.Dialogue
import HttpContract.WireTest.Message
import HttpContract.WireTest.Record
import HttpContract.WireTest.Run
import HttpContract.WireTest.Template
import HttpContract.WireTest.Verify
import HttpContract.Main
import HttpContract.Proofs.Constraint.OneSide
import HttpContract.Proofs.Contract.OneSide
import HttpContract.Proofs.WireTest.OneSide
import HttpContract.Proofs.Pattern.CharSet
import HttpContract.Proofs.Pattern.Spans
import HttpContract.Proofs.Pattern.Lowered
import HttpContract.Proofs.Pattern.Suffix
import HttpContract.Proofs.Pattern.Rows
import HttpContract.Proofs.Pattern.Whole
import HttpContract.Proofs.Binary64.Whole
import HttpContract.Proofs.Constraint.DrawnNumber
import HttpContract.Proofs.Constraint.Drawn
import HttpContract.Proofs.Json.Numeral
import HttpContract.Proofs.Json.Reread
import HttpContract.Proofs.Constraint.Closed
import HttpContract.Proofs.Contract.Closed
import HttpContract.Proofs.WireTest.OwnResponse
import HttpContract.Proofs.Request.Form
import HttpContract.Proofs.WireTest.OwnRequest
import HttpContract.Proofs.Store.Refinement
import HttpContract.Proofs.Store.Invariant
import HttpContract.Proofs.Store.Concurrent
import HttpContract.Proofs.JsonPath.Agreement
import HttpContract.Proofs.Json.Shorter
import HttpContract.Proofs.Request.Received
import HttpContract.Proofs.WireTest.Document
import HttpContract.Proofs.WireTest.Report
import HttpContract.Proofs.WireTest.Isolation
import HttpContract.Proofs.Script.Derivation
import HttpContract.Proofs.Contract.Limits
import HttpContract.Proofs.Routing
import HttpContract.Proofs.Service.Lifecycle
import HttpContract.Proofs.Admin.Unchanged
import HttpContract.Proofs.Admin.Path
import HttpContract.Proofs.Admin.Created
import HttpContract.Proofs.Constraint.Evaluated
import HttpContract.Proofs.Constraint.Extent
import HttpContract.Proofs.Script.Nesting
import HttpContract.Proofs.Script.Limits
import HttpContract.Proofs.Script.Grammar
import HttpContract.Proofs.Json.Grammar
import HttpContract.Proofs.Json.Agreement
import HttpContract.Proofs.Script.JsonValue
import HttpContract.Proofs.Script.JsonText
import HttpContract.Proofs.Constraint.Queryless
import HttpContract.Proofs.Constraint.Open
import HttpContract.Proofs.Contract.Declared
import HttpContract.Proofs.Binary64.Order
import HttpContract.Proofs.Json.Number
import HttpContract.Proofs.Json.Reordered
import HttpContract.Proofs.Json.Parted
import HttpContract.Proofs.Constraint.Range
import HttpContract.Proofs.Constraint.Window
import HttpContract.Proofs.Calendar.Day
import HttpContract.Proofs.Calendar.Instant
import HttpContract.Proofs.Calendar.Fields
import HttpContract.Proofs.Constraint.DateWindow
import HttpContract.Proofs.Constraint.DateReread
import HttpContract.Proofs.Pattern.Language
import HttpContract.Proofs.Constraint.Unreached
import HttpContract.Proofs.Request.Grouped
import HttpContract.Proofs.Admin.Address
import HttpContract.Proofs.Contract.Respond
import HttpContract.Proofs.WireTest.Mismatches
import HttpContract.Proofs.Calendar.Moment
import HttpContract.Proofs.Script.Lexed
import HttpContract.Proofs.Script.Steps
import HttpContract.Proofs.JsonPath.Selected
import HttpContract.Proofs.Constraint.WellFormed
