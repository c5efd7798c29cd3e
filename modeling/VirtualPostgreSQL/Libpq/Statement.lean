import VirtualPostgreSQL.Libpq.Connection
import VirtualPostgreSQL.Metadata.Indexes

/-!
# Libpq/Statement — a statement on a connection

`vps_libpq_client_statement.c`.  A statement is prepared and described, or sent as it is; its rows
come one by one, each checked before it is shown; and while it runs it can be cancelled.  What fails
other than by an error of the server takes the connection with it.
-/

namespace Vps

open Machinery

/-! ## Names -/

/-- `vps_libpq_hash_lane` -/
def libpqHashLane (value : List UInt8) (seed : UInt64) : UInt64 :=
  value.foldl (fun hash byte => (hash ^^^ byte.toUInt64) * 1099511628211) seed

/-- A digit of `%x`. -/
def hexDigitByte (digit : ℕ) : UInt8 :=
  if digit < 10 then (48 + digit).toUInt8 else (87 + digit).toUInt8

/-- `%016x` -/
def hexText (value : UInt64) : List UInt8 :=
  (List.range 16).map fun place => hexDigitByte (value.toNat / 16 ^ (15 - place) % 16)

/-- The first lane of `vps_libpq_statement_fingerprint`; the others are for the log. -/
def statementQueryHash (query : List UInt8) : UInt64 := libpqHashLane query 14695981039346656037

/-- `"vps_%016x_%.16s"` -/
def statementPreparedName (serial queryHash : UInt64) : List UInt8 :=
  ascii "vps_" ++ hexText serial ++ ascii "_" ++ hexText queryHash

/-! ## Arguments -/

/-- `INT_MAX` -/
def intMax : ℕ := 2147483647

/-- The number of a format. -/
def ClientValueFormat.number : ClientValueFormat → ℤ
  | .text => 0
  | .binary => 1

namespace LibpqStatementSpec

variable (spec : LibpqStatementSpec)

def parameterTypes : List UInt32 := spec.parameters.map (·.typeOid)

def parameterValues : List (Option (List UInt8)) :=
  spec.parameters.map fun parameter => if parameter.isNull then none else some parameter.value

def parameterLengths : List ℤ := spec.parameters.map (·.length)

def parameterFormats : List ℤ := spec.parameters.map (·.format.number)

/-- `vps_libpq_statement_result_format` -/
def resultFormat : ℤ := (spec.resultFields.head?.elim ClientValueFormat.text (·.format)).number

end LibpqStatementSpec

/-- What an execution sends. -/
def LibpqStatement.executeCommand (statement : LibpqStatement) : LibpqCommand :=
  let spec := statement.spec
  if spec.prepare then
    .queryPrepared statement.preparedName spec.parameterValues spec.parameterLengths
      spec.parameterFormats spec.resultFormat
  else
    .queryParams spec.query spec.parameterTypes spec.parameterValues spec.parameterLengths
      spec.parameterFormats spec.resultFormat

/-! ## What results show -/

/-- `VPS_CLIENT_MAX_COLUMN_BYTES` -/
def clientMaxColumnBytes : ℕ := 16777216

/-- `VPS_CLIENT_MAX_ROW_BYTES` -/
def clientMaxRowBytes : ℕ := 67108864

/-- A field of a result that is not the one that is expected. -/
def fieldFault (result : LibpqResult) (field : LibpqExpectedField × ℕ) : Option ErrorClass :=
  if result.fieldType field.2 ≠ field.1.typeOid then some .metadata
  else if result.fieldFormat field.2 ≠ field.1.format.number then some .conversion
  else none

/-- A parameter whose type is another one. -/
def parameterFault (result : LibpqResult) (parameter : LibpqParameter × ℕ) : Bool :=
  parameter.1.typeOid != 0 && result.parameterType parameter.2 != parameter.1.typeOid

/-- **`vps_libpq_statement_check_metadata`**; none if the result is as it should be. -/
def metadataFault (spec : LibpqStatementSpec) (result : LibpqResult) (checkParameters : Bool) :
    Option ErrorClass :=
  if result.fieldCount < 0 ∨ result.fieldCount > clientMaxResultFieldCount ∨
      (!spec.discoverResultFields ∧ result.fieldCount ≠ spec.resultFields.length) then some .schema
  else if checkParameters && (result.parameterCount != spec.parameters.length ||
      spec.parameters.zipIdx.any (parameterFault result)) then some .schema
  else if spec.discoverResultFields then none
  else spec.resultFields.zipIdx.findSome? (fieldFault result)

/-- A field that is described. -/
def describedField (result : LibpqResult) (index : ℕ) : Option LibpqDescribedField :=
  match result.fieldName index with
  | none => none
  | some name =>
    if name.bytes.length = 0 ∨ name.bytes.length > clientMaxFieldNameBytes then none
    else if result.fieldType index = 0 then none
    else (if result.fieldFormat index = 0 then some .text
      else if result.fieldFormat index = 1 then some .binary else none).map fun format =>
        { name := name.bytes
          typeOid := result.fieldType index
          typeModifier := result.fieldModifier index
          originRelationOid := result.fieldRelation index
          originAttributeNumber := result.fieldAttribute index
          format }

/-- The loop over the values of a row: their bytes, unless one is not to be read or is too much. -/
def rowBytesLoop (result : LibpqResult) : List ℕ → ℕ → Option ℕ
  | [], rowBytes => some rowBytes
  | index :: rest, rowBytes =>
    if result.valueIsNull index then rowBytesLoop result rest rowBytes
    else
      let length := result.valueLength index
      if length < 0 ∨ length > clientMaxColumnBytes ∨ rowBytes + length.toNat > clientMaxRowBytes ∨
          (result.value index).isNone then none
      else rowBytesLoop result rest (rowBytes + length.toNat)

/-- The bytes of a row. -/
def rowBytes (spec : LibpqStatementSpec) (result : LibpqResult) : Option ℕ :=
  rowBytesLoop result (List.range spec.resultFields.length) 0

/-- What the values of a row have together, as the lengths are given. -/
def LibpqResult.rowLength (result : LibpqResult) (fields : ℕ) : ℕ :=
  ((List.range fields).map fun index =>
    if result.valueIsNull index then 0 else (result.valueLength index).toNat).sum

/-- The loop over the digits of `command_tuples`. -/
def affectedLoop : UInt64 → List UInt8 → Option UInt64
  | affected, [] => some affected
  | affected, digit :: rest =>
    if digit < 48 ∨ digit > 57 ∨ affected > (0xffffffffffffffff - (digit - 48).toUInt64) / 10 then
      none
    else affectedLoop (affected * 10 + (digit - 48).toUInt64) rest

/-- The rows that a command says to have affected, if it says anything. -/
def affectedRows (tuples : Option CString) : Option (Option UInt64) :=
  match tuples with
  | none => some none
  | some text => if text.bytes = [] then some none else (affectedLoop 0 text.bytes).map some

/-! ## Failures -/

section Functions

variable {W : Type} (api : LibpqApi W)

/-- The cancel connection is finished. -/
def statementFinishCancel : LibpqM W Unit := do
  let s ← Asking.look
  match s.statement.cancelConnection with
  | some key =>
    apiCancelFinish key
    changeStatement fun st => { st with cancelConnection := none }
  | none => pure ()

/-- The result is cleared. -/
def statementClearResult : LibpqM W Unit := do
  let s ← Asking.look
  match s.statement.currentResult with
  | some (key, _) =>
    apiClearResult key
    changeStatement fun st => { st with currentResult := none }
  | none => pure ()

/-- **`vps_libpq_statement_error`** -/
def statementError (errorClass : ErrorClass) : LibpqM W ClientStatus := do
  statementFinishCancel
  changeStatement fun st => { st with phase := .failed }
  -- a server error that is drained leaves the connection for what may follow
  changeConnection fun c => { c with phase := if errorClass = .sql then .ready else .failed }
  if !(← Asking.ask api.storeError) then return .outOfMemory
  else return match errorClass with
    | .memory => .outOfMemory
    | .config => .limitExceeded
    | _ => .backendError

/-- `vps_libpq_statement_control_signal` -/
def statementControlSignal : LibpqM W ClientStatus := do
  if !(← Asking.ask api.storeError) then return .outOfMemory
  else return .controlSignal

/-- `vps_libpq_statement_drain_results`, with the results that it still takes. -/
def statementDrainResults : ℕ → LibpqM W Unit
  | 0 => changeConnection fun c => { c with phase := .failed }
  | count + 1 => do
    match ← apiGetResult api with
    | none => pure ()
    | some (key, _) =>
      apiClearResult key
      statementDrainResults count

/-- `vps_libpq_statement_deadline`; none if there is time left. -/
def statementDeadline : LibpqM W (Option ClientStatus) := do
  let s ← Asking.look
  if !s.statement.deadlineStarted then return some (← statementError api .connection)
  else match ← Asking.ask api.nowMs with
  | none => return some (← statementError api .connection)
  | some nowMs =>
    match waitDeadlineRemainingAt s.statement.deadline nowMs with
    | .error _ => return some (← statementError api .connection)
    | .ok none => return some (← statementError api .timeout)
    | .ok (some _) => return none

/-! ## Opening -/

/-- The arrays of `vps_libpq_statement_build_parameters`, so many. -/
def statementAllocateArrays : ℕ → LibpqM W Bool
  | 0 => return true
  | arrays + 1 => do
    if !(← Asking.ask api.allocate) then return false
    else statementAllocateArrays arrays

/-- `vps_libpq_statement_build_parameters` -/
def statementBuildParameters (spec : LibpqStatementSpec) : LibpqM W ClientStatus := do
  if spec.parameters.length > intMax then statementError api .config
  else if spec.parameters.length = 0 then return .ok
  else if !(← statementAllocateArrays api 4) then statementError api .memory
  else if spec.parameters.any fun parameter => parameter.length > intMax then
    statementError api .config
  else return .ok

/-- A statement is given its name and its parameters. -/
def statementInit (spec : LibpqStatementSpec) (queryHash : UInt64) : LibpqM W ClientStatus := do
  let s ← Asking.look
  if s.client.statementSerial = 0xffffffffffffffff then statementError api .config
  else
    let serial := s.client.statementSerial + 1
    Asking.change fun s => { s with client := { s.client with statementSerial := serial } }
    changeStatement fun st => { st with preparedName := statementPreparedName serial queryHash }
    statementBuildParameters api spec

/-- **`vps_libpq_statement_create`** -/
def statementCreate (spec : LibpqStatementSpec) : LibpqM W ClientStatus := do
  let s ← Asking.look
  if s.connection.phase ≠ .ready ∨ s.connection.statementCount ≠ 0 ∨ s.statementLive = true then
    return .invalidState
  else if !(← Asking.ask api.allocate) then return .outOfMemory
  else
    let queryHash := statementQueryHash spec.query
    changeStatement fun _ => { spec, queryHash }
    let result ← statementInit api spec queryHash
    if result ≠ .ok then
      changeStatement fun _ => {}
      return result
    else
      noteEvent (.opened spec)
      changeConnection fun c => { c with statementCount := c.statementCount + 1 }
      Asking.change fun s => { s with statementLive := true }
      return .ok

/-! ## Starting -/

/-- The end of `vps_libpq_statement_start`: a command is sent. -/
def statementSend (command : LibpqCommand) (flush : LibpqStatementPhase) (singleRow : Bool) :
    LibpqM W ClientStatus := do
  let s ← Asking.look
  match ← deadlineStart api s.statement.spec.timeoutMs with
  | none => statementError api .connection
  | some deadline =>
    changeStatement fun st => { st with deadline, deadlineStarted := true }
    let sent ← apiSend api command
    changeStatement fun st => { st with phase := flush }
    if sent ≠ 1 then statementError api .connection
    else if singleRow then
      if (← Asking.ask api.setSingleRowMode) ≠ 1 then statementError api .connection
      else return .ok
    else return .ok

/-- The phases in which nothing of a statement runs. -/
def LibpqStatementPhase.resting : LibpqStatementPhase → Bool
  | .created | .prepared | .complete | .failed => true
  | _ => false

/-- The phases in which a statement cannot be cancelled. -/
def LibpqStatementPhase.uncancellable : LibpqStatementPhase → Bool
  | .cancelPoll | .cancelDrain => true
  | phase => phase.resting

/-- `VPS_CLIENT_OPERATION_CANCEL` -/
def statementCancel : LibpqM W ClientStatus := do
  statementClearResult
  let s ← Asking.look
  match ← deadlineStart api s.client.cancelTimeoutMs with
  | none => statementError api .connection
  | some deadline =>
    changeStatement fun st => { st with deadline, deadlineStarted := true }
    match ← apiCancelCreate api with
    | none => statementError api .connection
    | some key =>
      changeStatement fun st => { st with cancelConnection := some key }
      if (← Asking.ask api.cancelStart) ≠ 1 then statementError api .connection
      else
        changeStatement fun st => { st with
          cancelSqlstateSeen := false
          cancelTerminalSeen := false
          phase := .cancelPoll }
        return .ok

/-- **`vps_libpq_statement_start`** -/
def statementStart (operation : ClientOperation) : LibpqM W ClientStatus := do
  let s ← Asking.look
  let st := s.statement
  if s.connection.phase ≠ .ready then return .invalidState
  else match operation with
  | .prepare =>
    if !st.spec.prepare ∨ st.phase ≠ .created then return .invalidState
    else
      statementSend api (.prepare st.preparedName st.spec.query st.spec.parameterTypes)
        .prepareFlush false
  | .execute =>
    if st.phase ≠ (if st.spec.prepare then .prepared else .created) then return .invalidState
    else statementSend api st.executeCommand .executeFlush st.spec.singleRow
  | .fetch =>
    if !st.spec.singleRow && st.phase == .complete then return .ok
    else if !st.spec.singleRow ∨ st.phase ≠ .fetchWait then return .invalidState
    else return .ok
  | .cancel =>
    if st.phase.uncancellable then return .invalidState
    else statementCancel api
  | _ => return .unsupported

/-! ## Results -/

/-- The `mode` of `vps_libpq_statement_finish_result`. -/
inductive FinishMode
  | prepare | describe | execute
  deriving DecidableEq, Repr

/-- The status that a finished command has. -/
def FinishMode.expects (mode : FinishMode) (status : LibpqResultStatus) : Bool :=
  status == .commandOk || (mode == .execute && status == .tuplesOk)

/-- `vps_libpq_statement_capture_metadata` -/
def statementCaptureMetadata (result : LibpqResult) : LibpqM W ClientStatus := do
  let s ← Asking.look
  if !s.statement.spec.discoverResultFields then return .ok
  else if result.fieldCount ≤ 0 ∨ result.fieldCount > clientMaxResultFieldCount then
    statementError api .memory
  else if !(← Asking.ask api.allocate) then statementError api .memory
  else match (List.range result.fieldCount.toNat).mapM (describedField result) with
  | none => statementError api .metadata
  | some describedFields =>
    changeStatement fun st => { st with describedFields }
    return .ok

/-- What is checked of a finished command. -/
def statementCheck (mode : FinishMode) (result : LibpqResult) : LibpqM W ClientStatus := do
  let s ← Asking.look
  if mode = .prepare then return .ok
  else match metadataFault s.statement.spec result (mode == .describe) with
  | some errorClass => statementError api errorClass
  | none => if mode = .describe then statementCaptureMetadata api result else return .ok

/-- A server error, with what is left of it. -/
def statementServerError : LibpqM W ClientStatus := do
  let failure ← statementError api .sql
  statementClearResult
  statementDrainResults api 16
  return failure

/-- `current_result = get_result(…)` -/
def statementTakeResult : LibpqM W (Option LibpqResult) := do
  match ← apiGetResult api with
  | none => return none
  | some (key, result) =>
    changeStatement fun st => { st with currentResult := some (key, result) }
    return some result

/-- There must be no other result. -/
def statementNoMore : LibpqM W ClientStatus := do
  match ← statementTakeResult api with
  | none => return .ok
  | some _ =>
    statementClearResult
    statementError api .invariant

/-- **`vps_libpq_statement_finish_result`** -/
def statementFinishResult (mode : FinishMode) : LibpqM W ClientStatus := do
  match ← statementTakeResult api with
  | none => statementError api .connection
  | some result =>
    if !mode.expects result.status then statementServerError api
    else
      let check ← statementCheck api mode result
      statementClearResult
      if check ≠ .ok then return check
      else statementNoMore api

/-- A row is shown. -/
def statementPublish (result : LibpqResult) (rowBytes : ℕ) : LibpqM W ClientPollReply := do
  let s ← Asking.look
  if s.statement.publishedRowCount = 0xffffffffffffffff ∨
      0xffffffffffffffff - s.statement.publishedByteCount.toNat < rowBytes then
    statementClearResult
    return pollFailed (← statementError api .config)
  else
    noteEvent (.published s.statement.spec result)
    changeStatement fun st => { st with
      publishedRowCount := st.publishedRowCount + 1
      publishedByteCount := st.publishedByteCount + rowBytes.toUInt64
      phase := .rowReady }
    return pollRowReady

/-- `VPS_LIBPQ_RESULT_SINGLE_TUPLE` -/
def statementFetchRow (result : LibpqResult) : LibpqM W ClientPollReply := do
  let s ← Asking.look
  match metadataFault s.statement.spec result false with
  | some errorClass =>
    let status ← statementError api errorClass
    statementClearResult
    return pollFailed status
  | none =>
    if result.rowCount ≠ 1 then
      statementClearResult
      return pollFailed (← statementError api .invariant)
    else match rowBytes s.statement.spec result with
    | none =>
      statementClearResult
      return pollFailed (← statementError api .conversion)
    | some rowBytes => statementPublish api result rowBytes

/-- The metadata of a result that is fetched. -/
def statementFetchCheck (result : LibpqResult) : LibpqM W ClientStatus := do
  let s ← Asking.look
  match metadataFault s.statement.spec result false with
  | some errorClass => statementError api errorClass
  | none => return .ok

/-- `VPS_LIBPQ_RESULT_TUPLES_OK` -/
def statementFetchEnd (result : LibpqResult) : LibpqM W ClientPollReply := do
  let check ← statementFetchCheck api result
  statementClearResult
  if check ≠ .ok then return pollFailed check
  else match affectedRows result.commandTuples with
  | none => return pollFailed (← statementError api .invariant)
  | some affected =>
    changeStatement fun st => { st with
      affectedCount := affected.getD st.affectedCount
      affectedCountValid := st.affectedCountValid || affected.isSome }
    if result.rowCount ≠ 0 then return pollFailed (← statementError api .invariant)
    else
      let status ← statementNoMore api
      if status ≠ .ok then return pollFailed status
      else
        changeStatement fun st => { st with phase := .complete }
        return pollComplete

/-- **`vps_libpq_statement_fetch_result`** -/
def statementFetchResult : LibpqM W ClientPollReply := do
  match ← statementTakeResult api with
  | none => return pollFailed (← statementError api .invariant)
  | some result =>
    match result.status with
    | .singleTuple => statementFetchRow api result
    | .tuplesOk => statementFetchEnd api result
    | _ => return pollFailed (← statementServerError api)

/-! ## Polling -/

/-- **`vps_libpq_statement_wait_result`** -/
def statementWaitResult (interest : ClientWaitInterest) (phase : ClientWaitPhase) :
    LibpqM W ClientPollReply := do
  let s ← Asking.look
  let socketHandle ← Asking.ask
    (if s.statement.phase = .cancelPoll then api.cancelSocket else api.socketHandle)
  changeStatement fun st => { st with socketHandle }
  if socketHandle < 0 then return pollFailed .backendError
  else
    changeStatement fun st => { st with waitInterest := some interest, waitPhase := phase }
    return pollWait (some interest) phase s.client.waitSliceMs

/-- The operation whose phases these are. -/
def LibpqStatementPhase.operation : LibpqStatementPhase → ClientOperation
  | .prepareFlush | .prepareWait | .prepareResult | .describeFlush | .describeWait |
    .describeResult =>
    .prepare
  | .executeFlush | .executeWait | .executeResult => .execute
  | .fetchWait => .fetch
  | .cancelPoll | .cancelDrain => .cancel
  | _ => .none

/-- `VPS_LIBPQ_STATEMENT_CANCEL_POLL` -/
def statementPollCancel : LibpqM W (Option ClientPollReply) := do
  match ← Asking.ask api.cancelPoll with
  | some .active => return none
  | some .reading => return some (← statementWaitResult api .read .cancel)
  | some .writing => return some (← statementWaitResult api .write .cancel)
  | some .ok =>
    statementFinishCancel
    changeStatement fun st => { st with phase := .cancelDrain }
    return none
  | some .failed | none => return some (pollFailed (← statementError api .cancel))

/-- The SQLSTATE of a query that was cancelled. -/
def sqlstateCancelled : List UInt8 := ascii "57014"

/-- A cancelled query is an error that is kept, though nothing has failed. -/
def statementStoreCancelled : LibpqM W Unit := do
  let s ← Asking.look
  if s.statement.cancelSqlstateSeen then
    let _ ← Asking.ask api.storeError
  else pure ()

/-- `VPS_LIBPQ_STATEMENT_CANCEL_DRAIN` -/
def statementPollDrain : LibpqM W (Option ClientPollReply) := do
  if (← Asking.ask api.consumeInput) ≠ 1 then
    return some (pollFailed (← statementError api .connection))
  else if ← Asking.ask api.isBusy then return some (← statementWaitResult api .read .cancel)
  else match ← apiGetResult api with
  | none =>
    let s ← Asking.look
    if !s.statement.cancelSqlstateSeen && !s.statement.cancelTerminalSeen then
      return some (pollFailed (← statementError api .invariant))
    else
      statementStoreCancelled api
      changeStatement fun st => { st with phase := .complete }
      return some pollComplete
  | some (key, result) =>
    changeStatement fun st => { st with
      cancelSqlstateSeen := st.cancelSqlstateSeen || (result.status == .fatalError &&
        result.sqlstate.map CString.bytes == some sqlstateCancelled)
      cancelTerminalSeen := st.cancelTerminalSeen || result.status == .tuplesOk }
    apiClearResult key
    return none

/-- `VPS_LIBPQ_STATEMENT_PREPARE_FLUSH`, `…_DESCRIBE_FLUSH`, `…_EXECUTE_FLUSH` -/
def statementPollFlush (next : LibpqStatementPhase) (wait : ClientWaitPhase) :
    LibpqM W (Option ClientPollReply) := do
  let flush ← Asking.ask api.flush
  if flush < 0 then return some (pollFailed (← statementError api .connection))
  else if flush = 1 then return some (← statementWaitResult api .write wait)
  else
    changeStatement fun st => { st with phase := next }
    return if next = .fetchWait then some pollComplete else none

/-- `VPS_LIBPQ_STATEMENT_PREPARE_WAIT`, `…_DESCRIBE_WAIT`, `…_EXECUTE_WAIT` -/
def statementPollWait (next : LibpqStatementPhase) (wait : ClientWaitPhase) :
    LibpqM W (Option ClientPollReply) := do
  if (← Asking.ask api.consumeInput) ≠ 1 then
    return some (pollFailed (← statementError api .connection))
  else if ← Asking.ask api.isBusy then return some (← statementWaitResult api .read wait)
  else
    changeStatement fun st => { st with phase := next }
    return none

/-- `VPS_LIBPQ_STATEMENT_FETCH_WAIT` -/
def statementPollFetch : LibpqM W (Option ClientPollReply) := do
  if (← Asking.ask api.consumeInput) ≠ 1 then
    return some (pollFailed (← statementError api .connection))
  else if ← Asking.ask api.isBusy then return some (← statementWaitResult api .read .fetch)
  else return some (← statementFetchResult api)

/-- `VPS_LIBPQ_STATEMENT_PREPARE_RESULT` -/
def statementPollPrepared : LibpqM W (Option ClientPollReply) := do
  let status ← statementFinishResult api .prepare
  if status ≠ .ok then return some (pollFailed status)
  else
    let s ← Asking.look
    if (← apiSend api (.describePrepared s.statement.preparedName)) ≠ 1 then
      return some (pollFailed (← statementError api .connection))
    else
      changeStatement fun st => { st with phase := .describeFlush }
      return none

/-- `VPS_LIBPQ_STATEMENT_DESCRIBE_RESULT`, `VPS_LIBPQ_STATEMENT_EXECUTE_RESULT` -/
def statementPollFinished (mode : FinishMode) (next : LibpqStatementPhase) :
    LibpqM W (Option ClientPollReply) := do
  let status ← statementFinishResult api mode
  if status ≠ .ok then return some (pollFailed status)
  else
    changeStatement fun st => { st with described := true, phase := next }
    return some pollComplete

/-- One round of the poll's loop; none where it goes on. -/
def statementPollTurn : LibpqM W (Option ClientPollReply) := do
  let s ← Asking.look
  match s.statement.phase with
  | .complete => return some pollComplete
  | .cancelPoll => statementPollCancel api
  | .cancelDrain => statementPollDrain api
  | .prepareFlush => statementPollFlush api .prepareWait .prepare
  | .describeFlush => statementPollFlush api .describeWait .prepare
  | .executeFlush =>
    statementPollFlush api
      (if s.statement.spec.singleRow then .fetchWait else .executeWait) .execute
  | .fetchWait => statementPollFetch api
  | .prepareWait => statementPollWait api .prepareResult .prepare
  | .describeWait => statementPollWait api .describeResult .prepare
  | .executeWait => statementPollWait api .executeResult .execute
  | .prepareResult => statementPollPrepared api
  | .describeResult => statementPollFinished api .describe .prepared
  | .executeResult => statementPollFinished api .execute .complete
  | .created | .prepared | .rowReady | .failed => return some (pollFailed .invalidState)

/-- The phase of the wait when the rounds of a poll are used up. -/
def LibpqStatementPhase.lastWait : LibpqStatementPhase → ClientWaitPhase
  | .cancelPoll | .cancelDrain => .cancel
  | .created | .prepareFlush | .prepareWait | .prepareResult | .describeFlush | .describeWait
  | .describeResult => .prepare
  | _ => .execute

/-- `VPS_LIBPQ_STATEMENT_MAX_INTERNAL_POLLS` -/
def statementMaxInternalPolls : ℕ := 8

/-- The loop of `vps_libpq_statement_poll`, with the rounds that are left. -/
def statementPollLoop : ℕ → LibpqM W ClientPollReply
  | 0 => do
    let s ← Asking.look
    statementWaitResult api .readWrite s.statement.phase.lastWait
  | rounds + 1 => do
    match ← statementPollTurn api with
    | some reply => return reply
    | none =>
      match ← statementDeadline api with
      | some status => return pollFailed status
      | none => statementPollLoop rounds

/-- **`vps_libpq_statement_poll`** -/
def statementPoll : LibpqM W ClientPollReply := do
  let s ← Asking.look
  if s.connection.phase ≠ .ready then return pollFailed .invalidState
  else match ← statementDeadline api with
  | some status => return pollFailed status
  | none => statementPollLoop api statementMaxInternalPolls

/-- **`vps_libpq_statement_wait`**; a wait that runs out, or is interrupted, is a signal. -/
def statementWait (wait : ClientWaitRequest) : LibpqM W ClientStatus := do
  let s ← Asking.look
  if s.connection.phase ≠ .ready ∨ wait.interest ≠ s.statement.waitInterest ∨
      wait.phase ≠ some s.statement.waitPhase then return .invalidState
  else
    let hasProbe := s.statement.waitPhase ≠ .cancel ∧
      (s.statement.spec.hasInterruptProbe || s.client.hasInterruptProbe) = true
    let (status, result) ← Asking.ask (api.socketWait
      ⟨wait.interest.isSome, platformInterest wait.interest, s.statement.deadline,
        wait.maxSliceMs.toNat, decide hasProbe⟩)
    if status = .ok ∧ result.outcome = .ready then return .ok
    else if status = .ok ∧ (result.outcome = .deadlineExpired ∨ result.outcome = .interrupted) then
      statementControlSignal api
    else statementError api .connection

/-! ## Rows -/

/-- `vps_libpq_statement_row_release` -/
def statementRowRelease : LibpqM W Unit := do
  let s ← Asking.look
  if s.statement.phase ≠ .rowReady ∨ s.statement.currentResult.isNone = true then pure ()
  else
    statementClearResult
    changeStatement fun st => { st with phase := .fetchWait }

/-- `VpsClientColumnView` -/
structure LibpqColumn where
  typeOid : UInt32
  format : ℤ
  isNull : Bool
  data : Option (List UInt8)
  length : ℕ

/-- `vps_libpq_statement_row` -/
def statementRow (s : LibpqSession) : Except ClientStatus ℕ :=
  if s.statement.phase ≠ .rowReady ∨ s.statement.currentResult.isNone = true then
    .error .invalidState
  else .ok s.statement.spec.resultFields.length

/-- **`vps_libpq_statement_column`** -/
def statementColumn (s : LibpqSession) (index : ℕ) : Except ClientStatus LibpqColumn :=
  match s.statement.currentResult with
  | none => .error .invalidArgument
  | some (_, result) =>
    if s.statement.phase ≠ .rowReady ∨ index ≥ s.statement.spec.resultFields.length then
      .error .invalidArgument
    else
      let column :=
        ⟨result.fieldType index, result.fieldFormat index, result.valueIsNull index, none, 0⟩
      if result.valueIsNull index then .ok column
      else if result.valueLength index < 0 ∨ result.valueLength index > clientMaxColumnBytes then
        .error .limitExceeded
      else match result.value index with
      | none => .error .backendError
      | some data =>
        .ok { column with data := some data, length := (result.valueLength index).toNat }

/-- `VpsClientStatementMetadata` -/
structure LibpqStatementMetadata where
  parameterCount : ℕ
  resultFieldCount : ℕ
  queryFingerprint : UInt64
  publishedRowCount : UInt64
  affectedCount : UInt64
  affectedCountValid : Bool
  described : Bool

/-- `vps_libpq_statement_metadata` -/
def statementMetadata (s : LibpqSession) : Except ClientStatus LibpqStatementMetadata :=
  let st := s.statement
  if st.spec.discoverResultFields && !st.described then .error .invalidState
  else .ok
    { parameterCount := st.spec.parameters.length
      resultFieldCount :=
        if st.spec.discoverResultFields then st.describedFields.length
        else st.spec.resultFields.length
      queryFingerprint := st.queryHash
      publishedRowCount := st.publishedRowCount
      affectedCount := st.affectedCount
      affectedCountValid := st.affectedCountValid
      described := st.described || !st.spec.discoverResultFields }

/-- `vps_libpq_statement_result_field` -/
def statementResultField (s : LibpqSession) (index : ℕ) : Except ClientStatus LibpqDescribedField :=
  if !s.statement.described || !s.statement.spec.discoverResultFields then .error .invalidArgument
  else match s.statement.describedFields[index]? with
  | none => .error .invalidArgument
  | some field => .ok field

/-- **`vps_libpq_statement_destroy`** -/
def statementDestroy : LibpqM W Unit := do
  let s ← Asking.look
  statementClearResult
  statementFinishCancel
  changeConnection fun c => { c with
    phase := if s.statement.phase.resting then c.phase else .failed
    statementCount := c.statementCount - 1 }
  noteEvent .closed
  Asking.change fun s => { s with statement := {}, statementLive := false }

end Functions

end Vps
