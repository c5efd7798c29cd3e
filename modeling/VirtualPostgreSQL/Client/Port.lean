import VirtualPostgreSQL.Machinery.Run
import VirtualPostgreSQL.Query.Wrapper

/-!
# Client/Port — the client layer over an arbitrary backend

A client connection and its statement are state machines.  A backend does the work: each call of the
layer checks its state, asks the backend at most a few questions, and moves on with what it answers.
Here the answers are part of the call, so that a run of calls is a run against any backend at all; a
value that a backend returns outside of an enumeration is `none`.

The layer keeps a history of what passed between it and the backend, the newest event first.  It is
read by no call.
-/

namespace Vps

open Machinery

/-! ## The enumerations -/

/-- `VpsClientStatus` -/
inductive ClientStatus
  | ok | invalidArgument | invalidState | unsupported | outOfMemory | limitExceeded | backendError
  | controlSignal
  deriving DecidableEq, Repr

/-- `VpsClientOperation`; a number that is no operation is refused as `none` is. -/
inductive ClientOperation
  | none | connect | prepare | execute | fetch | begin | commit | rollback | reset | ping | cancel
  deriving DecidableEq, Repr

/-- `VpsClientConnectionState` -/
inductive ClientConnectionState
  | new | connecting | ready | transactionStarting | transactionActive | transactionEnding
  | resetting | pinging | cancelling | failed
  deriving DecidableEq, Repr

/-- `VpsClientStatementState` -/
inductive ClientStatementState
  | new | preparing | prepared | executing | fetching | rowReady | complete | cancelling | failed
  deriving DecidableEq, Repr

/-- `VpsClientPollOutcome` -/
inductive ClientPollOutcome
  | wait | complete | rowReady | failed
  deriving DecidableEq, Repr

/-- `VpsClientWaitInterest` -/
inductive ClientWaitInterest
  | read | write | readWrite
  deriving DecidableEq, Repr

/-- `VpsClientWaitPhase` -/
inductive ClientWaitPhase
  | connect | prepare | execute | fetch | transaction | reset | ping | cancel
  deriving DecidableEq, Repr

/-- `VpsClientValueFormat` -/
inductive ClientValueFormat
  | text | binary
  deriving DecidableEq, Repr

/-- `VPS_CLIENT_CAP_*` -/
def operationCapability : ClientOperation → UInt64
  | .connect => 0x01
  | .prepare => 0x02
  | .execute => 0x04
  | .fetch => 0x08
  | .begin | .commit | .rollback => 0x10
  | .reset => 0x20
  | .ping => 0x40
  | .cancel => 0x80
  | .none => 0

/-- `VPS_CLIENT_CAP_ALL` -/
def clientCapAll : UInt64 := 0xff

/-- `vps_client_operation_wait_phase` -/
def operationWaitPhase : ClientOperation → ClientWaitPhase
  | .connect | .none => .connect
  | .prepare => .prepare
  | .execute => .execute
  | .fetch => .fetch
  | .begin | .commit | .rollback => .transaction
  | .reset => .reset
  | .ping => .ping
  | .cancel => .cancel

/-- `VpsClientWaitRequest` -/
structure ClientWaitRequest where
  interest : Option ClientWaitInterest
  phase : Option ClientWaitPhase
  maxSliceMs : UInt32
  deriving DecidableEq, Repr

/-- `vps_client_wait_valid` -/
def clientWaitValid (wait : ClientWaitRequest) (operation : ClientOperation) : Bool :=
  wait.interest.isSome && wait.phase == some (operationWaitPhase operation) &&
    decide (0 < wait.maxSliceMs) && decide (wait.maxSliceMs ≤ 1000)

/-! ## What a backend answers -/

/-- The status of a callback; `vps_client_status_valid` turns what is none into an error. -/
def observedStatus (raw : Option ClientStatus) : ClientStatus := raw.getD .backendError

/-- A create callback: a status, and a handle that need not be there. -/
structure ClientCreateReply where
  status : Option ClientStatus
  handle : Option ℕ
  deriving DecidableEq, Repr

/-- A poll callback. -/
structure ClientPollReply where
  status : Option ClientStatus
  outcome : Option ClientPollOutcome
  wait : ClientWaitRequest := ⟨none, none, 0⟩
  deriving DecidableEq, Repr

/-- The row callback. -/
structure ClientRowReply where
  status : Option ClientStatus
  columnCount : ℕ
  deriving DecidableEq, Repr

/-! ## A statement's description -/

/-- `VpsClientParameterView`; the value is `none` for a null pointer. -/
structure ClientParameterView where
  value : Option (List UInt8)
  length : ℕ
  format : Option ClientValueFormat
  isNull : ℤ
  deriving DecidableEq, Repr

/-- `VpsClientResultFieldExpectation` -/
structure ClientResultFieldExpectation where
  typeOid : UInt32
  format : Option ClientValueFormat
  deriving DecidableEq, Repr

/-- `VpsClientStatementSpec`; a pointer is `none` when it is null, and a text goes on behind its
length. -/
structure ClientStatementSpec where
  query : Option (List UInt8)
  queryLength : ℕ
  parameters : Option (List ClientParameterView) := none
  parameterCount : ℕ := 0
  resultFields : Option (List ClientResultFieldExpectation) := none
  resultFieldCount : ℕ := 0
  timeoutMs : ℕ
  prepare : ℤ := 0
  singleRow : ℤ := 0
  discoverResultFields : ℤ := 0
  deriving DecidableEq, Repr

/-- `VPS_CLIENT_MAX_PARAMETER_COUNT` -/
def clientMaxParameterCount : ℕ := 65535

/-- `VPS_CLIENT_MAX_RESULT_FIELD_COUNT` -/
def clientMaxResultFieldCount : ℕ := 4096

/-- A flag of the description. -/
def isFlag (value : ℤ) : Bool := value == 0 || value == 1

/-- One parameter of `vps_client_statement_spec_valid`. -/
def clientParameterValid (parameter : ClientParameterView) : Bool :=
  parameter.format.isSome && isFlag parameter.isNull && decide (parameter.length ≤ 2147483647) &&
    if parameter.isNull = 0 then parameter.value.isSome
    else parameter.value.isNone && parameter.length == 0

/-- `vps_client_statement_spec_valid` -/
def clientStatementSpecValid (spec : ClientStatementSpec) : Bool :=
  match spec.query with
  | none => false
  | some query =>
    let parameters := (spec.parameters.getD []).take spec.parameterCount
    let fields := (spec.resultFields.getD []).take spec.resultFieldCount
    spec.queryLength != 0 && decide (spec.queryLength ≤ clientMaxQueryBytes) &&
    query[spec.queryLength]? == some 0 && decide (spec.parameterCount ≤ clientMaxParameterCount) &&
    (spec.parameterCount == 0 || spec.parameters.isSome) &&
    decide (spec.resultFieldCount ≤ clientMaxResultFieldCount) &&
    (spec.resultFieldCount == 0 || spec.resultFields.isSome) &&
    spec.timeoutMs != 0 && decide (spec.timeoutMs ≤ clientMaxStatementTimeoutMs) &&
    isFlag spec.prepare && isFlag spec.singleRow && isFlag spec.discoverResultFields &&
    (spec.discoverResultFields == 0 ||
      (spec.prepare != 0 && spec.singleRow == 0 && spec.resultFieldCount == 0)) &&
    !(query.take spec.queryLength).contains 0 && parameters.all clientParameterValid &&
    fields.all fun field => field.typeOid != 0 && field.format.isSome &&
      field.format == (fields.head?.bind (·.format))

/-! ## The objects -/

/-- `VpsClientRowView`; it lies inside its statement, and is zeroed when its row is consumed. -/
structure ClientRowView where
  statement : Option ℕ := none
  generation : UInt64 := 0
  columnCount : ℕ := 0
  deriving DecidableEq, Repr

/-- `VpsClientStatement`, known by its address. -/
structure ClientStatement where
  address : ℕ
  backendStatement : ℕ
  state : ClientStatementState := .new
  activeOperation : ClientOperation := .none
  rowGeneration : UInt64 := 0
  rowView : ClientRowView := {}
  deriving DecidableEq, Repr

/-- `VpsClientConnection` -/
structure ClientConnection where
  backendConnection : ℕ
  state : ClientConnectionState := .new
  activeOperation : ClientOperation := .none
  statementCount : ℕ := 0
  deriving DecidableEq, Repr

/-- What passes between the layer and the backend. -/
inductive ClientEvent
  | connectionCreated (handle : ℕ)
  | connectionDestroyed (handle : ℕ)
  | completed (operation : ClientOperation)
  | statementCreated (handle : ℕ)
  | statementDestroyed (handle : ℕ)
  | statementStarted (address : ℕ) (operation : ClientOperation)
  | statementFailed (address : ℕ)
  | published (address : ℕ) (generation : UInt64)
  | rowConsumed (address : ℕ)
  deriving DecidableEq, Repr

/-- A `VpsClient` with the connection and the statements that were opened on it; the addresses below
`nextAddress` have been given out. -/
structure ClientLayer where
  initialized : Bool := true
  capabilities : UInt64
  connectionCount : ℕ := 0
  connection : Option ClientConnection := none
  statements : List ClientStatement := []
  nextAddress : ℕ := 0
  history : List ClientEvent := []

namespace ClientLayer

/-- An event passes. -/
def log (layer : ClientLayer) (event : ClientEvent) : ClientLayer :=
  { layer with history := event :: layer.history }

/-- The connection moves on. -/
def setConnection (layer : ClientLayer) (connection : ClientConnection) : ClientLayer :=
  { layer with connection := some connection }

/-- The statement at an address. -/
def statementAt (layer : ClientLayer) (address : ℕ) : Option ClientStatement :=
  layer.statements.find? fun statement => statement.address == address

/-- A statement moves on. -/
def setStatement (layer : ClientLayer) (statement : ClientStatement) : ClientLayer :=
  { layer with statements := layer.statements.map fun other =>
      if other.address = statement.address then statement else other }

/-- A statement is freed. -/
def freeStatement (layer : ClientLayer) (address : ℕ) : ClientLayer :=
  { layer with statements := layer.statements.filter fun other => other.address != address }

end ClientLayer

/-- `vps_client_fail`; an error that cannot be stored is an error of its own. -/
def clientFail (stored : Bool) (status : ClientStatus) : ClientStatus :=
  if stored then status else .outOfMemory

/-- The status of a callback that failed or broke its contract. -/
def brokenStatus (result : ClientStatus) : ClientStatus :=
  if result = .ok then .backendError else result

/-! ## The connection -/

section Connection

variable (layer : ClientLayer) (stored : Bool)

/-- `vps_client_cleanup` -/
def clientCleanup : ClientLayer × ClientStatus :=
  if !layer.initialized then (layer, .ok)
  else if layer.connectionCount ≠ 0 then (layer, .invalidState)
  else ({ layer with initialized := false, capabilities := 0, connectionCount := 0 }, .ok)

/-- `vps_client_connection_open` -/
def clientConnectionOpen (memory : Bool) (reply : ClientCreateReply) : ClientLayer × ClientStatus :=
  if !layer.initialized || layer.connection.isSome then (layer, clientFail stored .invalidArgument)
  else if !memory then (layer, clientFail stored .outOfMemory)
  else
    let result := observedStatus reply.status
    match reply.handle with
    | none => (layer, brokenStatus result)
    | some handle =>
      if result ≠ .ok then
        ((layer.log (.connectionCreated handle)).log (.connectionDestroyed handle),
          brokenStatus result)
      else
        ({ layer.log (.connectionCreated handle) with
            connectionCount := layer.connectionCount + 1
            connection := some { backendConnection := handle } }, .ok)

/-- `vps_client_connection_start_allowed` -/
def connectionStartAllowed (connection : ClientConnection) (operation : ClientOperation) : Bool :=
  if connection.activeOperation ≠ .none then
    operation == .cancel && connection.state == .connecting
  else match operation with
  | .connect => connection.state == .new
  | .begin | .reset | .ping => connection.state == .ready
  | .commit => connection.state == .transactionActive
  | .rollback => connection.state == .transactionActive || connection.state == .failed
  | _ => false

/-- `vps_client_connection_running_state` -/
def connectionRunningState : ClientOperation → ClientConnectionState
  | .connect => .connecting
  | .begin => .transactionStarting
  | .commit | .rollback => .transactionEnding
  | .reset => .resetting
  | .ping => .pinging
  | .cancel => .cancelling
  | _ => .failed

/-- `vps_client_connection_terminal_state` -/
def connectionTerminalState : ClientOperation → ClientConnectionState
  | .connect | .commit | .rollback | .reset | .ping => .ready
  | .begin => .transactionActive
  | _ => .failed

/-- A connection that failed. -/
def ClientConnection.fail (connection : ClientConnection) : ClientConnection :=
  { connection with state := .failed, activeOperation := .none }

/-- `vps_client_connection_start` -/
def clientConnectionStart (operation : ClientOperation) (reply : Option ClientStatus) :
    ClientLayer × ClientStatus :=
  match layer.connection with
  | none => (layer, clientFail stored .invalidArgument)
  | some connection =>
    if operation = .none then (layer, clientFail stored .invalidArgument)
    else if layer.capabilities &&& operationCapability operation = 0 then
      (layer, clientFail stored .unsupported)
    else if connection.statementCount ≠ 0 ∨ !connectionStartAllowed connection operation then
      (layer, clientFail stored .invalidState)
    else if observedStatus reply ≠ .ok then
      (layer.setConnection connection.fail, observedStatus reply)
    else
      (layer.setConnection
        { connection with
          activeOperation := operation
          state := connectionRunningState operation }, .ok)

/-- A poll of the backend that is no answer to the operation. -/
def connectionPollBroken (reply : ClientPollReply) (operation : ClientOperation) : Bool :=
  observedStatus reply.status != .ok || reply.outcome.isNone || reply.outcome == some .rowReady ||
    (reply.outcome == some .wait && !clientWaitValid reply.wait operation)

/-- `vps_client_connection_poll` -/
def clientConnectionPoll (reply : ClientPollReply) : ClientLayer × ClientStatus :=
  match layer.connection with
  | none => (layer, clientFail stored .invalidArgument)
  | some connection =>
    let operation := connection.activeOperation
    if operation = .none then (layer, clientFail stored .invalidState)
    else if connectionPollBroken reply operation then
      (layer.setConnection connection.fail, brokenStatus (observedStatus reply.status))
    else if reply.outcome = some .wait then (layer, .ok)
    else if reply.outcome = some .failed then (layer.setConnection connection.fail, .backendError)
    else
      ((layer.setConnection
        { connection with
          activeOperation := .none
          state := connectionTerminalState operation }).log (.completed operation), .ok)

/-- `vps_client_connection_wait` -/
def clientConnectionWait (wait : ClientWaitRequest) (reply : Option ClientStatus) :
    ClientLayer × ClientStatus :=
  match layer.connection with
  | none => (layer, clientFail stored .invalidArgument)
  | some connection =>
    if connection.activeOperation = .none ∨ !clientWaitValid wait connection.activeOperation then
      (layer, clientFail stored .invalidState)
    else if observedStatus reply ≠ .ok then
      (layer.setConnection connection.fail, observedStatus reply)
    else (layer, .ok)

/-- `vps_client_connection_close` -/
def clientConnectionClose : ClientLayer × ClientStatus :=
  match layer.connection with
  | none => (layer, .ok)
  | some connection =>
    if connection.statementCount ≠ 0 then (layer, .invalidState)
    else
      ({ layer.log (.connectionDestroyed connection.backendConnection) with
          connectionCount := layer.connectionCount - 1
          connection := none }, .ok)

end Connection

/-! ## The statements -/

section Statement

variable (layer : ClientLayer) (stored : Bool)

/-- `vps_client_statement_open`; `holds` says that the caller's variable already holds one. -/
def clientStatementOpen (spec : ClientStatementSpec) (holds memory : Bool)
    (reply : ClientCreateReply) : ClientLayer × ClientStatus :=
  match layer.connection with
  | none => (layer, clientFail stored .invalidArgument)
  | some connection =>
    if !clientStatementSpecValid spec || holds then (layer, clientFail stored .invalidArgument)
    else if (connection.state ≠ .ready ∧ connection.state ≠ .transactionActive ∧
        connection.state ≠ .failed) ∨ connection.activeOperation ≠ .none ∨
        connection.statementCount ≠ 0 then
      (layer, clientFail stored .invalidState)
    else if !memory then (layer, clientFail stored .outOfMemory)
    else
      let result := observedStatus reply.status
      match reply.handle with
      | none => (layer, brokenStatus result)
      | some handle =>
        if result ≠ .ok then
          ((layer.log (.statementCreated handle)).log (.statementDestroyed handle),
            brokenStatus result)
        else
          ({ (layer.setConnection
                { connection with statementCount := connection.statementCount + 1 }).log
                (.statementCreated handle) with
              statements :=
                { address := layer.nextAddress, backendStatement := handle } :: layer.statements
              nextAddress := layer.nextAddress + 1 }, .ok)

/-- `vps_client_statement_start_allowed` -/
def statementStartAllowed (statement : ClientStatement) (operation : ClientOperation) : Bool :=
  if operation = .cancel then
    statement.state == .preparing || statement.state == .executing ||
      statement.state == .fetching || statement.state == .rowReady
  else if statement.activeOperation ≠ .none then false
  else match operation with
  | .prepare => statement.state == .new
  | .execute => statement.state == .new || statement.state == .prepared
  | .fetch => statement.state == .fetching
  | _ => false

/-- `vps_client_statement_running_state` -/
def statementRunningState : ClientOperation → ClientStatementState
  | .prepare => .preparing
  | .execute => .executing
  | .fetch => .fetching
  | .cancel => .cancelling
  | _ => .failed

/-- A statement that failed. -/
def ClientStatement.fail (statement : ClientStatement) : ClientStatement :=
  { statement with state := .failed, activeOperation := .none }

/-- A statement fails. -/
def ClientLayer.failStatement (layer : ClientLayer) (statement : ClientStatement) : ClientLayer :=
  (layer.setStatement statement.fail).log (.statementFailed statement.address)

/-- `vps_client_statement_start` -/
def clientStatementStart (address : ℕ) (operation : ClientOperation) (reply : Option ClientStatus) :
    ClientLayer × ClientStatus :=
  match layer.statementAt address with
  | none => (layer, clientFail stored .invalidArgument)
  | some statement =>
    if operation = .none then (layer, clientFail stored .invalidArgument)
    else if layer.capabilities &&& operationCapability operation = 0 then
      (layer, clientFail stored .unsupported)
    else if !statementStartAllowed statement operation then
      (layer, clientFail stored .invalidState)
    else if observedStatus reply ≠ .ok then
      (layer.failStatement statement, observedStatus reply)
    else
      ((layer.setStatement
        { statement with
          activeOperation := operation
          state := statementRunningState operation }).log
            (.statementStarted address operation), .ok)

/-- `vps_client_statement_publish_row` -/
def clientStatementPublishRow (statement : ClientStatement) (row : ClientRowReply) :
    ClientLayer × ClientStatus :=
  let result := observedStatus row.status
  if result ≠ .ok ∨ row.columnCount > clientMaxResultFieldCount then
    (layer.failStatement statement, brokenStatus result)
  else if statement.rowGeneration = 0xffffffffffffffff then
    (layer.failStatement statement, clientFail stored .limitExceeded)
  else
    let generation := statement.rowGeneration + 1
    ((layer.setStatement
      { statement with
        rowGeneration := generation
        activeOperation := .none
        state := .rowReady
        rowView := ⟨some statement.address, generation, row.columnCount⟩ }).log
      (.published statement.address generation), .ok)

/-- The operations that a statement can be polled for. -/
def isStatementOperation : ClientOperation → Bool
  | .prepare | .execute | .fetch | .cancel => true
  | _ => false

/-- A poll of the backend that is no answer to the operation. -/
def statementPollBroken (reply : ClientPollReply) (operation : ClientOperation) : Bool :=
  observedStatus reply.status != .ok || reply.outcome.isNone ||
    (reply.outcome == some .wait && !clientWaitValid reply.wait operation) ||
    (reply.outcome == some .rowReady && operation != .fetch)

/-- The state of a statement whose operation completed. -/
def statementTerminalState : ClientOperation → ClientStatementState
  | .prepare => .prepared
  | .execute => .fetching
  | .fetch | .cancel => .complete
  | _ => .failed

/-- A statement completed; a connection that had failed is taken to be in its transaction again. -/
def ClientConnection.mend (connection : ClientConnection) : ClientConnection :=
  if connection.state = .failed then { connection with state := .transactionActive } else connection

/-- `vps_client_statement_poll` -/
def clientStatementPoll (address : ℕ) (reply : ClientPollReply) (row : ClientRowReply) :
    ClientLayer × ClientStatus :=
  match layer.statementAt address with
  | none => (layer, clientFail stored .invalidArgument)
  | some statement =>
    let operation := statement.activeOperation
    if !isStatementOperation operation then (layer, clientFail stored .invalidState)
    else if statementPollBroken reply operation then
      (layer.failStatement statement, brokenStatus (observedStatus reply.status))
    else match reply.outcome with
    | some .wait => (layer, .ok)
    | some .rowReady => clientStatementPublishRow layer stored statement row
    | some .complete =>
      ({ layer.setStatement
          { statement with
            activeOperation := .none
            state := statementTerminalState operation } with
          connection := layer.connection.map ClientConnection.mend }, .ok)
    | _ => (layer.failStatement statement, .backendError)

/-- `vps_client_statement_wait`; a control signal leaves the operation running. -/
def clientStatementWait (address : ℕ) (wait : ClientWaitRequest) (reply : Option ClientStatus) :
    ClientLayer × ClientStatus :=
  match layer.statementAt address with
  | none => (layer, clientFail stored .invalidArgument)
  | some statement =>
    if !isStatementOperation statement.activeOperation ||
        !clientWaitValid wait statement.activeOperation then
      (layer, clientFail stored .invalidState)
    else match observedStatus reply with
    | .ok => (layer, .ok)
    | .controlSignal => (layer, .controlSignal)
    | status => (layer.failStatement statement, status)

/-- `vps_client_statement_metadata` -/
def clientStatementMetadata (address : ℕ) (reply : Option ClientStatus) : ClientStatus :=
  match layer.statementAt address with
  | none => clientFail stored .invalidArgument
  | some statement =>
    match statement.state with
    | .new | .preparing | .failed | .cancelling => clientFail stored .invalidState
    | _ => observedStatus reply

/-- `vps_client_statement_result_field`; the metadata counts `fieldCount` fields. -/
def clientStatementResultField (address fieldIndex : ℕ) (metadata : Option ClientStatus)
    (fieldCount : ℕ) (reply : Option ClientStatus) : ClientStatus :=
  let result := clientStatementMetadata layer stored address metadata
  if result ≠ .ok then result
  else if fieldIndex ≥ fieldCount then clientFail stored .invalidArgument
  else observedStatus reply

/-- `vps_client_statement_current_row` -/
def clientStatementCurrentRow (address : ℕ) (holds : Bool) : ClientStatus :=
  match layer.statementAt address with
  | none => clientFail stored .invalidArgument
  | some statement =>
    if holds then clientFail stored .invalidArgument
    else if statement.state ≠ .rowReady ∨ statement.rowView.statement ≠ some statement.address ∨
        statement.rowView.generation ≠ statement.rowGeneration then
      clientFail stored .invalidState
    else .ok

/-- `vps_client_statement_row_is_current` -/
def clientStatementRowIsCurrent (statement : ClientStatement) (generation : UInt64) : Bool :=
  statement.state == .rowReady && generation != 0 && statement.rowGeneration == generation

/-- `vps_client_row_column`, on the row view of the statement at an address. -/
def clientRowColumn (address : ℕ) (columnIndex : ℕ) (reply : Option ClientStatus) : ClientStatus :=
  match layer.statementAt address with
  | none => clientFail stored .invalidArgument
  | some statement =>
    if statement.rowView.statement.isNone ∨ columnIndex ≥ statement.rowView.columnCount then
      clientFail stored .invalidArgument
    else if !clientStatementRowIsCurrent statement statement.rowView.generation then
      clientFail stored .invalidState
    else observedStatus reply

/-- `vps_client_statement_row_consumed` -/
def clientStatementRowConsumed (address : ℕ) : ClientLayer × ClientStatus :=
  match layer.statementAt address with
  | none => (layer, clientFail stored .invalidArgument)
  | some statement =>
    if statement.state ≠ .rowReady ∨ statement.activeOperation ≠ .none then
      (layer, clientFail stored .invalidState)
    else if statement.rowGeneration = 0xffffffffffffffff then
      (layer.failStatement statement, clientFail stored .limitExceeded)
    else
      ((layer.setStatement
        { statement with
          rowGeneration := statement.rowGeneration + 1
          state := .fetching
          rowView := {} }).log (.rowConsumed address), .ok)

/-- `vps_client_statement_close` -/
def clientStatementClose (address : ℕ) : ClientLayer × ClientStatus :=
  match layer.statementAt address with
  | none => (layer, .ok)
  | some statement =>
    ({ (layer.freeStatement address).log (.statementDestroyed statement.backendStatement) with
        connection := layer.connection.map fun connection =>
          { connection with statementCount := connection.statementCount - 1 } }, .ok)

end Statement

/-! ## Runs -/

/-- A call with what the backend, the allocator and the caller's variable have to say to it. -/
inductive ClientCall
  | cleanup
  | connectionOpen (memory : Bool) (reply : ClientCreateReply)
  | connectionStart (operation : ClientOperation) (reply : Option ClientStatus)
  | connectionPoll (reply : ClientPollReply)
  | connectionWait (wait : ClientWaitRequest) (reply : Option ClientStatus)
  | connectionClose
  | statementOpen (spec : ClientStatementSpec) (holds memory : Bool) (reply : ClientCreateReply)
  | statementStart (address : ℕ) (operation : ClientOperation) (reply : Option ClientStatus)
  | statementPoll (address : ℕ) (reply : ClientPollReply) (row : ClientRowReply)
  | statementWait (address : ℕ) (wait : ClientWaitRequest) (reply : Option ClientStatus)
  | statementMetadata (address : ℕ) (reply : Option ClientStatus)
  | statementResultField (address fieldIndex : ℕ) (metadata : Option ClientStatus) (fieldCount : ℕ)
      (reply : Option ClientStatus)
  | statementCurrentRow (address : ℕ) (holds : Bool)
  | rowColumn (address columnIndex : ℕ) (reply : Option ClientStatus)
  | rowConsumed (address : ℕ)
  | statementClose (address : ℕ)
  deriving DecidableEq, Repr

/-- One call; `stored` says whether an error of the layer can be stored. -/
def clientStep (layer : ClientLayer) (stored : Bool) : ClientCall → ClientLayer × ClientStatus
  | .cleanup => clientCleanup layer
  | .connectionOpen memory reply => clientConnectionOpen layer stored memory reply
  | .connectionStart operation reply => clientConnectionStart layer stored operation reply
  | .connectionPoll reply => clientConnectionPoll layer stored reply
  | .connectionWait wait reply => clientConnectionWait layer stored wait reply
  | .connectionClose => clientConnectionClose layer
  | .statementOpen spec holds memory reply =>
    clientStatementOpen layer stored spec holds memory reply
  | .statementStart address operation reply =>
    clientStatementStart layer stored address operation reply
  | .statementPoll address reply row => clientStatementPoll layer stored address reply row
  | .statementWait address wait reply => clientStatementWait layer stored address wait reply
  | .statementMetadata address reply => (layer, clientStatementMetadata layer stored address reply)
  | .statementResultField address fieldIndex metadata fieldCount reply =>
    (layer, clientStatementResultField layer stored address fieldIndex metadata fieldCount reply)
  | .statementCurrentRow address holds =>
    (layer, clientStatementCurrentRow layer stored address holds)
  | .rowColumn address columnIndex reply =>
    (layer, clientRowColumn layer stored address columnIndex reply)
  | .rowConsumed address => clientStatementRowConsumed layer stored address
  | .statementClose address => clientStatementClose layer address

end Vps
