import VirtualPostgreSQL.Libpq.Interface

/-!
# Libpq/Health — the commands of a connection

`vps_libpq_client_health.c`.  When a connection is opened, reset or pinged, and at the ends of a
transaction, it sends commands, one after the other, and looks at what comes back.  A poll goes on
with that until it has to wait, or is done.
-/

namespace Vps

open Machinery

/-! ## Commands -/

/-- `vps_session_parameter_name` -/
def sessionParameterName : SessionParameter → List UInt8
  | .clientEncoding => ascii "client_encoding"
  | .datestyle => ascii "DateStyle"
  | .intervalstyle => ascii "IntervalStyle"
  | .timezone => ascii "TimeZone"
  | .standardStrings => ascii "standard_conforming_strings"
  | .applicationName => ascii "application_name"
  | .searchPath => ascii "search_path"
  | .statementTimeout => ascii "statement_timeout"
  | .lockTimeout => ascii "lock_timeout"
  | .idleTransactionTimeout => ascii "idle_in_transaction_session_timeout"
  | .defaultReadOnly => ascii "default_transaction_read_only"

/-- `vps_session_setting_at` -/
def sessionSettingAt (plan : SessionPlan) (index : ℕ) : Option SessionSetting :=
  if plan.built then plan.settings[index]? else none

/-- The operations that begin and end a transaction. -/
def isTransactionOperation : ClientOperation → Bool
  | .begin | .commit | .rollback => true
  | _ => false

/-- A query without parameters. -/
def plainCommand (query : List UInt8) : LibpqCommand := .queryParams query [] [] [] [] 0

/-- `vps_health_set_config_query`, with its parameters. -/
def setConfigCommand (parameter value : List UInt8) : LibpqCommand :=
  .queryParams (ascii "SELECT pg_catalog.set_config($1, $2, false)") []
    [some parameter, some value] [] [] 0

/-- `DISCARD ALL` is still to come. -/
def healthDiscards (client : LibpqClient) (connection : LibpqConnection) : Bool :=
  connection.activeOperation == .reset && client.resetMode == .discardAll &&
    !connection.resetDiscardComplete

/-- `sizeof(connection->session_value)` -/
def sessionValueSize : ℕ := 4097

/-- What `vps_health_send` sends, or that there is nothing more, or that the plan is not to be
sent. -/
def healthCommand (client : LibpqClient) (connection : LibpqConnection) :
    Except ErrorClass (Option LibpqCommand) :=
  match connection.activeOperation with
  | .begin => .ok (some (plainCommand (ascii "BEGIN")))
  | .commit => .ok (some (plainCommand (ascii "COMMIT")))
  | .rollback => .ok (some (plainCommand (ascii "ROLLBACK")))
  | operation =>
    if healthDiscards client connection then .ok (some (plainCommand (ascii "DISCARD ALL")))
    else if operation = .ping then .ok (some (plainCommand (ascii "SELECT 1")))
    else match sessionSettingAt client.sessionPlan connection.sessionIndex with
    | none => .ok none
    | some setting =>
      match sessionSettingValue client.sessionPlan setting with
      | none => .error .config
      | some value =>
        if setting.valueLength ≥ sessionValueSize then .error .config
        else .ok (some (setConfigCommand (sessionParameterName setting.parameter) value))

/-- `vps_health_result_valid` -/
def healthResultValid (client : LibpqClient) (connection : LibpqConnection)
    (result : LibpqResult) : Bool :=
  if isTransactionOperation connection.activeOperation || healthDiscards client connection then
    result.status == .commandOk
  else if result.status != .tuplesOk || result.rowCount != 1 || result.fieldCount != 1 ||
      result.valueIsNull 0 then false
  else if connection.activeOperation == .ping then true
  else match sessionSettingAt client.sessionPlan connection.sessionIndex, result.value 0 with
  | some setting, some value =>
    decide (0 ≤ result.valueLength 0) && sessionSettingMatches client.sessionPlan setting value
  | _, _ => false

/-! ## Replies -/

/-- A poll that fails. -/
def pollFailed (status : ClientStatus) : ClientPollReply := ⟨some status, none, ⟨none, none, 0⟩⟩

/-- A poll that is done. -/
def pollComplete : ClientPollReply := ⟨some .ok, some .complete, ⟨none, none, 0⟩⟩

/-- A poll that has a row. -/
def pollRowReady : ClientPollReply := ⟨some .ok, some .rowReady, ⟨none, none, 0⟩⟩

/-- A poll that has to wait. -/
def pollWait (interest : Option ClientWaitInterest) (phase : ClientWaitPhase)
    (maxSliceMs : UInt32) :
    ClientPollReply :=
  ⟨some .ok, some .wait, ⟨interest, some phase, maxSliceMs⟩⟩

/-- What a round of the poll's loop ends with: its answer, or a wait, or another round. -/
inductive HealthTurn
  | reply (reply : ClientPollReply)
  | wait
  | again

section Functions

variable {W : Type} (api : LibpqApi W)

/-- `vps_health_fail` -/
def healthFail (errorClass : ErrorClass) : LibpqM W ClientStatus := do
  changeConnection fun c => { c with phase := .failed, healthPhase := .idle }
  libpqSetError api errorClass

/-- The state of a transaction that an operation needs. -/
def healthTransactionFits (operation : ClientOperation) (status : LibpqTransactionStatus) : Bool :=
  match operation with
  | .begin | .reset | .ping => status == .idle
  | .commit | .rollback => status == .active || status == .inError
  | _ => true

/-- `vps_health_preflight` -/
def healthPreflight (operation : ClientOperation) : LibpqM W Bool := do
  let transactionStatus ← Asking.ask api.transactionStatus
  if !(← Asking.ask api.connectionOk) then return false
  else if !(← Asking.ask api.pipelineOff) then return false
  else
    let s ← Asking.look
    if s.connection.statementCount ≠ 0 then return false
    else if ← Asking.ask api.isBusy then return false
    else if !healthTransactionFits operation transactionStatus then return false
    else match ← apiGetResult api with
    | some (key, _) =>
      apiClearResult key
      return false
    | none => return true

/-- An operation is admitted; a connection that is being opened need not be looked at. -/
def healthAdmit (operation : ClientOperation) : LibpqM W Bool := do
  if operation ≠ .connect then healthPreflight api operation
  else return true

/-- **`vps_libpq_health_begin`** -/
def healthBegin (operation : ClientOperation) : LibpqM W ClientStatus := do
  if !(← healthAdmit api operation) then healthFail api .connection
  else
    noteEvent (.began operation)
    changeConnection fun c => { c with
      activeOperation := operation
      sessionIndex := 0
      healthResultSeen := false
      resetDiscardComplete := false
      healthPhase := .send
      phase := .health }
    return .ok

/-- The operation is done. -/
def healthReady : LibpqM W Unit := do
  let s ← Asking.look
  noteEvent (.completed s.connection.activeOperation)
  changeConnection fun c =>
    { c with phase := .ready, healthPhase := .idle, activeOperation := .none }

/-- `vps_health_send` -/
def healthSend : LibpqM W ClientStatus := do
  let s ← Asking.look
  match healthCommand s.client s.connection with
  | .error errorClass => healthFail api errorClass
  | .ok none =>
    healthReady
    return .ok
  | .ok (some command) =>
    if (← apiSend api command) ≠ 1 then healthFail api .connection
    else
      changeConnection fun c => { c with healthResultSeen := false, healthPhase := .flush }
      return .ok

/-- `vps_health_command_complete` -/
def healthCommandComplete : LibpqM W Unit := do
  let s ← Asking.look
  if isTransactionOperation s.connection.activeOperation ||
    s.connection.activeOperation == .ping then
    healthReady
  else if healthDiscards s.client s.connection then
    changeConnection fun c => { c with resetDiscardComplete := true, healthPhase := .send }
  else changeConnection fun c => { c with sessionIndex := c.sessionIndex + 1, healthPhase := .send }

/-- An error of the server is kept with its SQLSTATE. -/
def healthSqlstate (result : LibpqResult) : LibpqM W Unit := do
  if result.sqlstate.isSome then
    let _ ← Asking.ask api.storeError
  else pure ()

/-- A result of the poll's loop is refused. -/
def healthRefuse (key : ℕ) (result : LibpqResult) : LibpqM W ClientStatus := do
  let s ← Asking.look
  healthSqlstate api result
  apiClearResult key
  healthFail api (if s.connection.activeOperation = .ping then .connection else .config)

/-- `VPS_LIBPQ_HEALTH_RECEIVE` -/
def healthReceive : LibpqM W HealthTurn := do
  if (← Asking.ask api.consumeInput) = 0 then
    return .reply (pollFailed (← healthFail api .connection))
  else if ← Asking.ask api.isBusy then
    changeConnection fun c => { c with waitInterest := some .read }
    return .wait
  else match ← apiGetResult api with
  | none =>
    let s ← Asking.look
    if !s.connection.healthResultSeen then return .reply (pollFailed (← healthFail api .connection))
    else
      healthCommandComplete
      let s ← Asking.look
      return if s.connection.phase = .ready then .reply pollComplete else .again
  | some (key, result) =>
    let s ← Asking.look
    if s.connection.healthResultSeen || !healthResultValid s.client s.connection result then
      return .reply (pollFailed (← healthRefuse api key result))
    else
      apiClearResult key
      changeConnection fun c => { c with healthResultSeen := true }
      return .again

/-- `VPS_LIBPQ_HEALTH_FLUSH`, and what is behind it; in the idle phase a round does nothing. -/
def healthFlush : LibpqM W HealthTurn := do
  let s ← Asking.look
  match s.connection.healthPhase with
  | .flush =>
    let flush ← Asking.ask api.flush
    if flush < 0 then return .reply (pollFailed (← healthFail api .connection))
    else if flush = 1 then
      changeConnection fun c => { c with waitInterest := some .write }
      return .wait
    else
      changeConnection fun c => { c with healthPhase := .receive }
      healthReceive api
  | .receive => healthReceive api
  | .idle | .send => return .again

/-- One round of the poll's loop. -/
def healthTurn : LibpqM W HealthTurn := do
  let s ← Asking.look
  if s.connection.healthPhase = .send then
    let status ← healthSend api
    if status ≠ .ok then return .reply (pollFailed status)
    else
      let s ← Asking.look
      if s.connection.phase = .ready then return .reply pollComplete
      else healthFlush api
  else healthFlush api

/-- The phase of a wait, by the operation. -/
def healthWaitPhase : ClientOperation → ClientWaitPhase
  | .reset => .reset
  | .ping => .ping
  | .begin | .commit | .rollback => .transaction
  | _ => .connect

/-- What the poll answers when it has to wait. -/
def healthWait : LibpqM W ClientPollReply := do
  let socketHandle ← Asking.ask api.socketHandle
  changeConnection fun c => { c with socketHandle }
  if socketHandle < 0 then return pollFailed (← healthFail api .connection)
  else
    let s ← Asking.look
    return pollWait s.connection.waitInterest (healthWaitPhase s.connection.activeOperation)
      s.client.waitSliceMs

/-- The loop of the poll, in a number of rounds; none if they do not suffice. -/
def healthLoop : ℕ → LibpqM W (Option ClientPollReply)
  | 0 => return none
  | rounds + 1 => do
    match ← healthTurn api with
    | .reply reply => return some reply
    | .wait => return some (← healthWait api)
    | .again => healthLoop rounds

/-- **`vps_libpq_health_poll`** -/
def healthPoll (rounds : ℕ) : LibpqM W (Option ClientPollReply) := do
  let s ← Asking.look
  if s.connection.phase ≠ .health then return some (pollFailed .invalidState)
  else healthLoop api rounds

end Functions

end Vps
