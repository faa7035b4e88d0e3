import Flowchart.Action
import Flowchart.Assistant.Call
import Flowchart.Assistant.Conversation
import Flowchart.Assistant.Plan
import Flowchart.Assistant.Planner
import Flowchart.Assistant.Prompt
import Flowchart.Assistant.Session
import Flowchart.Catalog.Basic
import Flowchart.Catalog.Builtin
import Flowchart.Catalog.Create
import Flowchart.Catalog.DataSchema
import Flowchart.Command.Arguments
import Flowchart.Command.Command
import Flowchart.Command.Run
import Flowchart.Decimal.Layout
import Flowchart.Decimal.Nearest
import Flowchart.Decimal.Shortest
import Flowchart.Document.Basic
import Flowchart.Document.Check
import Flowchart.Document.Codec
import Flowchart.Document.Kind
import Flowchart.Document.Wire
import Flowchart.Edit.Batch
import Flowchart.Edit.EditError
import Flowchart.Edit.Editor
import Flowchart.Edit.Grammar
import Flowchart.Edit.Loose
import Flowchart.Edit.Operation
import Flowchart.Error
import Flowchart.Graph.Basic
import Flowchart.Graph.Components
import Flowchart.Graph.Cycles
import Flowchart.Graph.Reachability
import Flowchart.Http.Message
import Flowchart.Http.Route
import Flowchart.Http.Server
import Flowchart.Json.Bytes
import Flowchart.Json.Literal
import Flowchart.Json.Measure
import Flowchart.Json.MergePatch
import Flowchart.Json.Numeral
import Flowchart.Json.Reader
import Flowchart.Json.Strain
import Flowchart.Json.Value
import Flowchart.Json.Writer
import Flowchart.Legacy
import Flowchart.Logging
import Flowchart.Main
import Flowchart.Proofs.Actions
import Flowchart.Proofs.Assistant.Chat
import Flowchart.Proofs.Assistant.OneShot
import Flowchart.Proofs.Assistant.Turns
import Flowchart.Proofs.Decimal.Bits
import Flowchart.Proofs.Decimal.Rounding
import Flowchart.Proofs.Decimal.Shortest
import Flowchart.Proofs.Document.Layout
import Flowchart.Proofs.Document.Respelling
import Flowchart.Proofs.Document.RoundTrip
import Flowchart.Proofs.Document.Sound
import Flowchart.Proofs.Edit.Annotated
import Flowchart.Proofs.Edit.BatchRun
import Flowchart.Proofs.Edit.Comparison
import Flowchart.Proofs.Edit.Effect
import Flowchart.Proofs.Edit.Failures
import Flowchart.Proofs.Edit.FreshId
import Flowchart.Proofs.Edit.Index
import Flowchart.Proofs.Edit.Preservation
import Flowchart.Proofs.Edit.Replay
import Flowchart.Proofs.Edit.RoundTrip
import Flowchart.Proofs.Edit.Soundness
import Flowchart.Proofs.Edit.Splitting
import Flowchart.Proofs.Edit.Wire
import Flowchart.Proofs.Graph.Components
import Flowchart.Proofs.Http.Refusals
import Flowchart.Proofs.Json.Fields
import Flowchart.Proofs.Json.Fits
import Flowchart.Proofs.Json.Keys
import Flowchart.Proofs.Json.Numeral
import Flowchart.Proofs.Json.Quoted
import Flowchart.Proofs.Json.RoundTrip
import Flowchart.Proofs.Keyed
import Flowchart.Proofs.Results
import Flowchart.Proofs.Service.Books
import Flowchart.Proofs.Service.Calls
import Flowchart.Proofs.Service.Desk
import Flowchart.Proofs.Service.Discarding
import Flowchart.Proofs.Service.History
import Flowchart.Proofs.Service.Readable
import Flowchart.Proofs.Service.Refusals
import Flowchart.Proofs.Service.Sessions
import Flowchart.Proofs.Service.Showing
import Flowchart.Proofs.Service.Upkeep
import Flowchart.Proofs.Service.Validity
import Flowchart.Proofs.Storage.Calls
import Flowchart.Proofs.Storage.Failures
import Flowchart.Proofs.Storage.Paths
import Flowchart.Proofs.Storage.Records
import Flowchart.Proofs.Storage.Shelf
import Flowchart.Proofs.Storage.StoredText
import Flowchart.Proofs.Storage.Timestamps
import Flowchart.Proofs.Storage.Upkeep
import Flowchart.Proofs.Validation.Derived
import Flowchart.Proofs.Validation.WellFormed
import Flowchart.Proofs.Versions.Audit
import Flowchart.Proofs.Versions.Calls
import Flowchart.Proofs.Versions.Order
import Flowchart.Proofs.Versions.UndoHistory
import Flowchart.Schema.Checked
import Flowchart.Schema.Issue
import Flowchart.Schema.Record
import Flowchart.Schema.Scalar
import Flowchart.Service.Bus
import Flowchart.Service.Event
import Flowchart.Service.Service
import Flowchart.Settings
import Flowchart.Storage.DocumentFile
import Flowchart.Storage.Files
import Flowchart.Storage.Store
import Flowchart.Storage.StoredDocument
import Flowchart.Storage.Timestamp
import Flowchart.Text.Blank
import Flowchart.Text.Digit
import Flowchart.Text.Numeral
import Flowchart.Text.Printable
import Flowchart.Text.Quoted
import Flowchart.Validation.Annotate
import Flowchart.Validation.Finding
import Flowchart.Validation.Validate
import Flowchart.Versions.Timeline
import Flowchart.Proofs.Graph.Cycles
import Flowchart.Proofs.Validation.Passes
import Flowchart.Proofs.Validation.ExecutionCycles
import Flowchart.Proofs.Edit.Connecting
import Flowchart.Proofs.Json.Extension
import Flowchart.Proofs.Json.MergePatch
import Flowchart.Proofs.Assistant.Fences
import Flowchart.Proofs.Graph.Reachability
import Flowchart.Proofs.Validation.Reachability
import Flowchart.Proofs.Edit.Removal
import Flowchart.Proofs.Edit.Scripts
import Flowchart.Proofs.Edit.Primitives
import Flowchart.Proofs.Legacy
import Flowchart.Proofs.Assistant.Accounts
import Flowchart.Proofs.Storage.Confinement
import Flowchart.Proofs.Document.Payloads
import Flowchart.Proofs.Legacy.Refusals
import Flowchart.Proofs.Json.Frame
import Flowchart.Proofs.Graph.ComponentSearch
