import VirtualPostgreSQL.Machinery.Run
import VirtualPostgreSQL.Machinery.Bounded
import VirtualPostgreSQL.Machinery.Count
import VirtualPostgreSQL.Machinery.Outcome
import VirtualPostgreSQL.Machinery.Lists
import VirtualPostgreSQL.Machinery.Ascii
import VirtualPostgreSQL.Machinery.Decimal
import VirtualPostgreSQL.Machinery.Wire
import VirtualPostgreSQL.Transaction.Coordinator
import VirtualPostgreSQL.Server.Block
import VirtualPostgreSQL.Server.Value
import VirtualPostgreSQL.Transaction.Savepoint
import VirtualPostgreSQL.Transaction.SavepointRefinement
import VirtualPostgreSQL.Pool.Pool
import VirtualPostgreSQL.Pool.Accounting
import VirtualPostgreSQL.Pool.Interleaving
import VirtualPostgreSQL.Pool.Fairness
import VirtualPostgreSQL.Sqlite.Value
import VirtualPostgreSQL.Types.Codec
import VirtualPostgreSQL.Planner.Compile
import VirtualPostgreSQL.Planner.BestIndex
import VirtualPostgreSQL.Planner.Wire
import VirtualPostgreSQL.Planner.WireCodec
import VirtualPostgreSQL.Planner.RoundTrip
import VirtualPostgreSQL.Planner.Limit
import VirtualPostgreSQL.Planner.Execution
import VirtualPostgreSQL.Planner.Exact
import VirtualPostgreSQL.Planner.Verdict
import VirtualPostgreSQL.Planner.Pushdown
import VirtualPostgreSQL.Planner.Order
import VirtualPostgreSQL.Planner.Honest
import VirtualPostgreSQL.Query.Lexer
import VirtualPostgreSQL.Query.Scan
import VirtualPostgreSQL.Query.LexCut
import VirtualPostgreSQL.Query.LexAppend
import VirtualPostgreSQL.Query.ScanAgreement
import VirtualPostgreSQL.Query.ScanSound
import VirtualPostgreSQL.Query.Wrapper
import VirtualPostgreSQL.Row.Token
import VirtualPostgreSQL.Row.TokenCodec
import VirtualPostgreSQL.Types.Registry
import VirtualPostgreSQL.Dml.Policy
import VirtualPostgreSQL.Dml.Plan
import VirtualPostgreSQL.Dml.Statement
import VirtualPostgreSQL.Dml.Legible
import VirtualPostgreSQL.Dml.Safety
import VirtualPostgreSQL.Dml.Parameters
import VirtualPostgreSQL.Dml.KeyRoundTrip
import VirtualPostgreSQL.Machinery.Flat
import VirtualPostgreSQL.Machinery.Frame
import VirtualPostgreSQL.Machinery.Trim
import VirtualPostgreSQL.Identity.Normalize
import VirtualPostgreSQL.Identity.Build
import VirtualPostgreSQL.Identity.SearchPath
import VirtualPostgreSQL.Identity.Sound
import VirtualPostgreSQL.Cursor.Machine
import VirtualPostgreSQL.Cursor.Scan
import VirtualPostgreSQL.Cursor.Protocol
import VirtualPostgreSQL.Machinery.Mix
import VirtualPostgreSQL.Metadata.Snapshot
import VirtualPostgreSQL.Metadata.SnapshotCodec
import VirtualPostgreSQL.Metadata.Catalog
import VirtualPostgreSQL.Metadata.Key
import VirtualPostgreSQL.Metadata.Permission
import VirtualPostgreSQL.Metadata.Indexes
import VirtualPostgreSQL.Metadata.Table
import VirtualPostgreSQL.Metadata.Width
import VirtualPostgreSQL.Transaction.Gate
import VirtualPostgreSQL.Client.Conninfo
import VirtualPostgreSQL.Query.Cache
import VirtualPostgreSQL.Row.SnapshotToken
import VirtualPostgreSQL.Machinery.Utf8
import VirtualPostgreSQL.Arguments.Parse
import VirtualPostgreSQL.Arguments.Quoting
import VirtualPostgreSQL.Client.Port
import VirtualPostgreSQL.Client.PortSound
import VirtualPostgreSQL.Spatial.Basic
import VirtualPostgreSQL.Spatial.Wkt
import VirtualPostgreSQL.Spatial.Wkb
import VirtualPostgreSQL.Spatial.Geometry
import VirtualPostgreSQL.Spatial.Spelling
import VirtualPostgreSQL.Spatial.TextVerdict
import VirtualPostgreSQL.Spatial.BinaryVerdict
import VirtualPostgreSQL.Spatial.Agreement
import VirtualPostgreSQL.Metadata.Drift
import VirtualPostgreSQL.Machinery.Reading
import VirtualPostgreSQL.Planner.Projection
import VirtualPostgreSQL.Planner.Reads
import VirtualPostgreSQL.Planner.Numbering
import VirtualPostgreSQL.Planner.QueryText
import VirtualPostgreSQL.Embedded.ScanFaithful
import VirtualPostgreSQL.Spatial.BinaryLimits
import VirtualPostgreSQL.Platform.Deadline
import VirtualPostgreSQL.Query.Boundary
import VirtualPostgreSQL.Logging.Built
import VirtualPostgreSQL.Logging.Clean
import VirtualPostgreSQL.Logging.Redaction
import VirtualPostgreSQL.Logging.Storage
import VirtualPostgreSQL.Session.SearchPath
import VirtualPostgreSQL.Metadata.RowSet
import VirtualPostgreSQL.Query.Indexes
import VirtualPostgreSQL.Machinery.Resolve
import VirtualPostgreSQL.Identity.Path
import VirtualPostgreSQL.Spatial.Numeral
import VirtualPostgreSQL.Spatial.Lexing
import VirtualPostgreSQL.Spatial.Grammar
import VirtualPostgreSQL.Spatial.TextAcceptance
import VirtualPostgreSQL.Spatial.WkbGrammar
import VirtualPostgreSQL.Spatial.BinaryAcceptance
import VirtualPostgreSQL.Machinery.Buffer
import VirtualPostgreSQL.Query.Rounds
import VirtualPostgreSQL.Session.Plan
import VirtualPostgreSQL.Session.Timeout
import VirtualPostgreSQL.Identity.Canonical
import VirtualPostgreSQL.Text.Utf8
import VirtualPostgreSQL.Machinery.Mask
import VirtualPostgreSQL.Machinery.Layout
import VirtualPostgreSQL.Credential.WinCred
import VirtualPostgreSQL.Credential.WinCredFormat
import VirtualPostgreSQL.Credential.WinCredValidate
import VirtualPostgreSQL.Credential.WinCredDecode
import VirtualPostgreSQL.Machinery.Ledger
import VirtualPostgreSQL.Machinery.Broker
import VirtualPostgreSQL.Machinery.Linked
import VirtualPostgreSQL.Machinery.Asking
import VirtualPostgreSQL.Memory.Memory
import VirtualPostgreSQL.Memory.Ownership
import VirtualPostgreSQL.Memory.Buffer
import VirtualPostgreSQL.Credential.Config
import VirtualPostgreSQL.Credential.Registry
import VirtualPostgreSQL.Credential.Resolved
import VirtualPostgreSQL.Credential.Protocol
import VirtualPostgreSQL.Query.Profile
import VirtualPostgreSQL.Query.ProfileProtocol
import VirtualPostgreSQL.Arguments.Storage
import VirtualPostgreSQL.Arguments.Stored
import VirtualPostgreSQL.Arguments.Combination
import VirtualPostgreSQL.Arguments.Contract
import VirtualPostgreSQL.Connection.Resolve
import VirtualPostgreSQL.Connection.Copy
import VirtualPostgreSQL.Connection.Offer
import VirtualPostgreSQL.Connection.Environment
import VirtualPostgreSQL.Connection.Contract
import VirtualPostgreSQL.Connection.Protocol
import VirtualPostgreSQL.Cancel.Registry
import VirtualPostgreSQL.Cancel.Protocol
import VirtualPostgreSQL.Libpq.Interface
import VirtualPostgreSQL.Libpq.Connection
import VirtualPostgreSQL.Libpq.Books
import VirtualPostgreSQL.Libpq.Polled
import VirtualPostgreSQL.Libpq.Health
import VirtualPostgreSQL.Libpq.Statement
import VirtualPostgreSQL.Libpq.Served
import VirtualPostgreSQL.Libpq.Spoken
import VirtualPostgreSQL.Libpq.Exchange
import VirtualPostgreSQL.Libpq.Opened
import VirtualPostgreSQL.Libpq.Sound
import VirtualPostgreSQL.Libpq.Protocol
