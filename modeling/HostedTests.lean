import HostedTests.Channel.Basic
import HostedTests.Channel.Frame
import HostedTests.Channel.Sink
import HostedTests.Chunks
import HostedTests.Clock.Date
import HostedTests.Clock.Instant
import HostedTests.Clock.TimeSpan
import HostedTests.Clock.Timestamp
import HostedTests.Console.Basic
import HostedTests.Console.Program
import HostedTests.Console.Seconds
import HostedTests.Dictionary
import HostedTests.Fault
import HostedTests.Files.Path
import HostedTests.Files.Tree
import HostedTests.Host.Capture
import HostedTests.Host.Command
import HostedTests.Host.Network
import HostedTests.Host.Process
import HostedTests.Host.Reference
import HostedTests.Host.Shell
import HostedTests.Host.Source
import HostedTests.Json.Fault
import HostedTests.Json.Numeral
import HostedTests.Json.Printer
import HostedTests.Json.Reader
import HostedTests.Json.Skipper
import HostedTests.Json.StringReader
import HostedTests.Json.Value
import HostedTests.Main
import HostedTests.Message.Envelope
import HostedTests.Message.Kind
import HostedTests.Message.Normal
import HostedTests.Message.Reader
import HostedTests.Number.Binary64
import HostedTests.Number.Shortest
import HostedTests.Operation
import HostedTests.Payload.Basic
import HostedTests.Payload.Bind
import HostedTests.Payload.Completion
import HostedTests.Payload.Criteria
import HostedTests.Payload.Fault
import HostedTests.Payload.Outcome
import HostedTests.Payload.Print
import HostedTests.Payload.Shape
import HostedTests.Payload.TestCase
import HostedTests.Proofs.Channel.Frame
import HostedTests.Proofs.Channel.Sending
import HostedTests.Proofs.Chunks
import HostedTests.Proofs.Clock.Numerals
import HostedTests.Proofs.Clock.TimeSpan
import HostedTests.Proofs.Clock.Timestamp
import HostedTests.Proofs.Console.Printing
import HostedTests.Proofs.Console.Program
import HostedTests.Proofs.Console.Tasks
import HostedTests.Proofs.Console.Verdict
import HostedTests.Proofs.Files.Place
import HostedTests.Proofs.Host.Loading
import HostedTests.Proofs.Host.Prescribing
import HostedTests.Proofs.Host.Reporting
import HostedTests.Proofs.Host.Serving
import HostedTests.Proofs.Json.Numerals
import HostedTests.Proofs.Json.Sorted
import HostedTests.Proofs.Json.Strings
import HostedTests.Proofs.Json.Values
import HostedTests.Proofs.Message.Carrying
import HostedTests.Proofs.Message.Exchanged
import HostedTests.Proofs.Message.Normal
import HostedTests.Proofs.Message.Reading
import HostedTests.Proofs.Payload.Bound
import HostedTests.Proofs.Payload.Exact
import HostedTests.Proofs.Payload.Extent
import HostedTests.Proofs.Payload.Leaves
import HostedTests.Proofs.Payload.Reading
import HostedTests.Proofs.Session.Attaching
import HostedTests.Proofs.Session.Attachments
import HostedTests.Proofs.Session.Blocks
import HostedTests.Proofs.Session.Calls
import HostedTests.Proofs.Session.Closing
import HostedTests.Proofs.Session.Collecting
import HostedTests.Proofs.Session.Completion
import HostedTests.Proofs.Session.Confinement
import HostedTests.Proofs.Session.Connection
import HostedTests.Proofs.Session.Crashing
import HostedTests.Proofs.Session.Decorated
import HostedTests.Proofs.Session.Echoes
import HostedTests.Proofs.Session.Endings
import HostedTests.Proofs.Session.Exchange
import HostedTests.Proofs.Session.Hearing
import HostedTests.Proofs.Session.InFlight
import HostedTests.Proofs.Session.Ledger
import HostedTests.Proofs.Session.Listening
import HostedTests.Proofs.Session.Managed
import HostedTests.Proofs.Session.Managing
import HostedTests.Proofs.Session.Mute
import HostedTests.Proofs.Session.Outcome
import HostedTests.Proofs.Session.Overdue
import HostedTests.Proofs.Session.Progress
import HostedTests.Proofs.Session.Readying
import HostedTests.Proofs.Session.Replacing
import HostedTests.Proofs.Session.Requests
import HostedTests.Proofs.Session.Schedules
import HostedTests.Proofs.Session.Settling
import HostedTests.Proofs.Session.Starting
import HostedTests.Proofs.Session.Telling
import HostedTests.Proofs.Session.Trail
import HostedTests.Proofs.Session.Transcript
import HostedTests.Proofs.Session.Twins
import HostedTests.Proofs.Session.Wiring
import HostedTests.Proofs.Statistics
import HostedTests.Proofs.Text.Digits
import HostedTests.Proofs.Text.Utf8
import HostedTests.Proofs.Uuid
import HostedTests.Session.Behaviour
import HostedTests.Session.Conversation
import HostedTests.Session.Delivery
import HostedTests.Session.Dispatch
import HostedTests.Session.Listener
import HostedTests.Session.Management
import HostedTests.Session.Notice
import HostedTests.Session.Request
import HostedTests.Session.Run
import HostedTests.Session.Served
import HostedTests.Session.State
import HostedTests.Session.Step
import HostedTests.Settings.Basic
import HostedTests.Settings.Document
import HostedTests.Settings.Printer
import HostedTests.Settings.Store
import HostedTests.Text.Blank
import HostedTests.Text.Decimal
import HostedTests.Text.Quoted
import HostedTests.Text.Utf8
import HostedTests.Text.Visible
import HostedTests.Toml.Document
import HostedTests.Toml.Quoted
import HostedTests.Toml.Scalar
import HostedTests.Toml.Token
import HostedTests.Toml.Value
import HostedTests.Uuid
import HostedTests.Proofs.Channel.Parsing
import HostedTests.Proofs.Session.Freshness
import HostedTests.Proofs.Session.Releasing
import HostedTests.Proofs.Channel.Waiting
import HostedTests.Proofs.Session.Turns
import HostedTests.Proofs.Session.Restarts
import HostedTests.Proofs.Channel.Receiving
import HostedTests.Proofs.Agreement
import HostedTests.Proofs.Clock.Elapsed
import HostedTests.Proofs.Clock.Leniency
import HostedTests.Proofs.Json.Reading
import HostedTests.Proofs.Message.Timing
import HostedTests.Proofs.Message.Environment
import HostedTests.Proofs.Message.Reencoding
import HostedTests.Proofs.Payload.Stray
import HostedTests.Proofs.Message.Stray
import HostedTests.Proofs.Host.Portioning
import HostedTests.Proofs.Text.Words
import HostedTests.Proofs.Host.Launching
import HostedTests.Proofs.Session.Speaking
import HostedTests.Proofs.Session.Answering
import HostedTests.Proofs.Files.Distinct
import HostedTests.Proofs.Files.Spelling
import HostedTests.Proofs.Host.Selecting
import HostedTests.Proofs.Host.Ending
import HostedTests.Proofs.Host.Adapters
import HostedTests.Proofs.Toml.Quoted
import HostedTests.Proofs.Toml.Document
import HostedTests.Proofs.Settings.Document
import HostedTests.Proofs.Files.Walking
import HostedTests.Proofs.Files.Making
import HostedTests.Proofs.Files.Naming
import HostedTests.Proofs.Files.Directory
import HostedTests.Proofs.Files.Replacing
import HostedTests.Proofs.Settings.Saving
import HostedTests.Proofs.Text.Trim
import HostedTests.Proofs.Host.Capturing
import HostedTests.Proofs.Host.Layout
import HostedTests.Proofs.Host.Visiting
