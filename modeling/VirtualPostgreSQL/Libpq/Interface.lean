import VirtualPostgreSQL.Client.Port
import VirtualPostgreSQL.Credential.Config
import VirtualPostgreSQL.Machinery.Asking
import VirtualPostgreSQL.Machinery.Ledger
import VirtualPostgreSQL.Platform.Deadline
import VirtualPostgreSQL.Session.Plan

/-!
# Libpq/Interface — the adapter to libpq and what it asks

`vps_libpq_client.c`, `…_health.c` and `…_statement.c` are the backend of the client layer.  They
drive a connection and its statement through the asynchronous calls of libpq, which are a table of
functions; so any table is an environment, and the adapter a program that asks it.  Each thing that
libpq hands out is given a key when it is handed out.  A session notes what passes between the two,
the newest event first; no function of the adapter reads that.
-/

namespace Vps

open Machinery

/-! ## Enumerations -/

/-- `VpsErrorClass` -/
inductive ErrorClass
  | none | config | auth | tls | connection | timeout | cancel | pool | sql | querySource | metadata
  | schema | constraint | serialization | deadlock | lock | conversion | spatial | memory
  | transaction | invariant | unsupported
  deriving DecidableEq, Repr

/-- `VpsLibpqPollingStatus` -/
inductive LibpqPollingStatus
  | failed | reading | writing | ok | active
  deriving DecidableEq, Repr

/-- `VpsLibpqTransactionStatus` -/
inductive LibpqTransactionStatus
  | idle | active | inError | unknown
  deriving DecidableEq, Repr

/-- `VpsLibpqResetMode` -/
inductive LibpqResetMode
  | discardAll | strict
  deriving DecidableEq, Repr

/-- `VpsLibpqResultStatus` -/
inductive LibpqResultStatus
  | empty | commandOk | tuplesOk | singleTuple | fatalError | other
  deriving DecidableEq, Repr

/-- `VpsTlsMode` -/
inductive TlsMode
  | verifyFull | verifyCa | require | prefer | disable
  deriving DecidableEq, Repr

/-- `VpsChannelBindingMode` -/
inductive ChannelBindingMode
  | prefer | require | disable
  deriving DecidableEq, Repr

/-- `vps_tls_mode_name` -/
def tlsModeName : TlsMode → List UInt8
  | .verifyFull => ascii "verify-full"
  | .verifyCa => ascii "verify-ca"
  | .require => ascii "require"
  | .prefer => ascii "prefer"
  | .disable => ascii "disable"

/-- `vps_channel_binding_mode_name` -/
def channelBindingModeName : ChannelBindingMode → List UInt8
  | .prefer => ascii "prefer"
  | .require => ascii "require"
  | .disable => ascii "disable"

/-! ## What libpq is asked -/

/-- A result, as the functions of the table show it; of its rows only the first is looked at, and a
value is the bytes that its length counts. -/
structure LibpqResult where
  status : LibpqResultStatus
  parameterCount : ℤ
  parameterType : ℕ → UInt32
  fieldCount : ℤ
  fieldType : ℕ → UInt32
  fieldName : ℕ → Option CString
  fieldModifier : ℕ → ℤ
  fieldRelation : ℕ → UInt32
  fieldAttribute : ℕ → ℤ
  fieldFormat : ℕ → ℤ
  rowCount : ℤ
  commandTuples : Option CString
  valueIsNull : ℕ → Bool
  valueLength : ℕ → ℤ
  value : ℕ → Option (List UInt8)
  sqlstate : Option CString

/-- What is sent, with the arguments of the call; an array that is a null pointer is empty. -/
inductive LibpqCommand
  | prepare (name query : List UInt8) (types : List UInt32)
  | describePrepared (name : List UInt8)
  | queryPrepared (name : List UInt8) (values : List (Option (List UInt8)))
    (lengths formats : List ℤ)
      (resultFormat : ℤ)
  | queryParams (query : List UInt8) (types : List UInt32) (values : List (Option (List UInt8)))
      (lengths formats : List ℤ) (resultFormat : ℤ)
  deriving DecidableEq, Repr

/-- `VpsLibpqClientApi`, with the platform, the allocator and the error object beside it: functions
of an environment of which nothing is known.  A handle is there or not, and an enumeration may hold
anything. -/
structure LibpqApi (W : Type) where
  connectStart : List (List UInt8 × Option (List UInt8)) → W → Bool × W
  setNonblocking : W → ℤ × W
  connectPoll : W → Option LibpqPollingStatus × W
  socketHandle : W → ℤ × W
  connectionOk : W → Bool × W
  transactionStatus : W → LibpqTransactionStatus × W
  pipelineOff : W → Bool × W
  connectionErrorClass : W → Option ErrorClass × W
  tlsVerify : W → Bool × W
  identityVerify : W → Bool × W
  send : LibpqCommand → W → ℤ × W
  setSingleRowMode : W → ℤ × W
  cancelCreate : W → Bool × W
  cancelStart : W → ℤ × W
  cancelPoll : W → Option LibpqPollingStatus × W
  cancelSocket : W → ℤ × W
  flush : W → ℤ × W
  consumeInput : W → ℤ × W
  isBusy : W → Bool × W
  getResult : W → Option LibpqResult × W
  /-- `vps_platform_monotonic_now_ms` -/
  nowMs : W → Option ℕ × W
  /-- `vps_socket_wait_execute` -/
  socketWait : SocketWaitRequest → W → (DeadlineStatus × SocketWaitResult) × W
  /-- `vps_memory_allocate` -/
  allocate : W → Bool × W
  /-- `vps_error_set_local` and `vps_error_set_sqlstate` -/
  storeError : W → Bool × W

/-! ## The adapter -/

/-- `VpsLibpqClient`, as `vps_libpq_client_init` has filled it. -/
structure LibpqClient where
  config : CredentialConfigView
  tlsMode : TlsMode
  channelBinding : ChannelBindingMode
  sessionPlan : SessionPlan
  hasInterruptProbe : Bool
  connectTimeoutMs : ℕ
  cancelTimeoutMs : ℕ
  waitSliceMs : UInt32
  resetMode : LibpqResetMode
  statementSerial : UInt64

/-- `VpsLibpqConnectionPhase` -/
inductive LibpqConnectionPhase
  | created | connecting | health | ready | failed
  deriving DecidableEq, Repr

/-- `VpsLibpqHealthPhase` -/
inductive LibpqHealthPhase
  | idle | send | flush | receive
  deriving DecidableEq, Repr

/-- `VpsLibpqConnection`; the handle is known by its key. -/
structure LibpqConnection where
  postgresqlConnection : Option ℕ := none
  deadline : WaitDeadline := ⟨0, 0⟩
  socketHandle : ℤ := -1
  waitInterest : Option ClientWaitInterest := none
  statementCount : ℕ := 0
  phase : LibpqConnectionPhase := .created
  healthPhase : LibpqHealthPhase := .idle
  activeOperation : ClientOperation := .none
  sessionIndex : ℕ := 0
  healthResultSeen : Bool := false
  resetDiscardComplete : Bool := false

/-- `VpsLibpqStatementPhase` -/
inductive LibpqStatementPhase
  | created | prepareFlush | prepareWait | prepareResult | describeFlush | describeWait
  | describeResult | prepared | executeFlush | executeWait | executeResult | fetchWait | rowReady
  | complete | cancelPoll | cancelDrain | failed
  deriving DecidableEq, Repr

/-- `VpsClientParameterView`, of a statement that the client layer has accepted. -/
structure LibpqParameter where
  value : List UInt8
  length : ℕ
  typeOid : UInt32
  format : ClientValueFormat
  isNull : Bool
  deriving DecidableEq, Repr

/-- `VpsClientResultFieldExpectation` -/
structure LibpqExpectedField where
  typeOid : UInt32
  format : ClientValueFormat
  deriving DecidableEq, Repr

/-- `VpsClientStatementSpec`, as `vps_client_statement_spec_valid` has accepted it. -/
structure LibpqStatementSpec where
  query : List UInt8
  parameters : List LibpqParameter := []
  resultFields : List LibpqExpectedField := []
  timeoutMs : ℕ
  prepare : Bool := false
  singleRow : Bool := false
  discoverResultFields : Bool := false
  hasInterruptProbe : Bool := false
  deriving DecidableEq, Repr

/-- `VpsClientResultFieldMetadata`, with the name that it points to. -/
structure LibpqDescribedField where
  name : List UInt8
  typeOid : UInt32
  typeModifier : ℤ
  originRelationOid : UInt32
  originAttributeNumber : ℤ
  format : ClientValueFormat
  deriving DecidableEq, Repr

/-- `VpsLibpqStatement`; the result and the cancel connection that it holds are known by their
keys. -/
structure LibpqStatement where
  spec : LibpqStatementSpec := { query := [], timeoutMs := 0 }
  describedFields : List LibpqDescribedField := []
  deadline : WaitDeadline := ⟨0, 0⟩
  deadlineStarted : Bool := false
  currentResult : Option (ℕ × LibpqResult) := none
  cancelConnection : Option ℕ := none
  socketHandle : ℤ := -1
  waitInterest : Option ClientWaitInterest := none
  waitPhase : ClientWaitPhase := .connect
  phase : LibpqStatementPhase := .created
  queryHash : UInt64 := 0
  publishedRowCount : UInt64 := 0
  publishedByteCount : UInt64 := 0
  affectedCount : UInt64 := 0
  preparedName : List UInt8 := []
  described : Bool := false
  affectedCountValid : Bool := false
  cancelSqlstateSeen : Bool := false
  cancelTerminalSeen : Bool := false

/-! ## Sessions -/

/-- A thing that libpq hands out, and that is given back. -/
inductive LibpqHandle
  | connection (key : ℕ)
  | result (key : ℕ)
  | cancel (key : ℕ)
  deriving DecidableEq, Repr

/-- The key of a handle. -/
def LibpqHandle.key : LibpqHandle → ℕ
  | .connection key | .result key | .cancel key => key

/-- What passes between the adapter and libpq, and where the adapter begins and ends what it
does. -/
inductive LibpqEvent
  | connected (key : ℕ) (keywords : List (List UInt8 × Option (List UInt8)))
  | finished (key : ℕ)
  /-- The connection is as the policy wants it, and with whom. -/
  | tlsVerified
  | identityVerified
  | sent (command : LibpqCommand)
  | got (key : ℕ) (result : LibpqResult)
  | cleared (key : ℕ)
  /-- `get_result` has nothing more. -/
  | drained
  | cancelCreated (key : ℕ)
  | cancelFinished (key : ℕ)
  | began (operation : ClientOperation)
  | completed (operation : ClientOperation)
  | opened (spec : LibpqStatementSpec)
  | closed
  | published (spec : LibpqStatementSpec) (result : LibpqResult)

/-- **A client with one connection and its statement.**  An object that is not there is as `memset`
would leave it. -/
structure LibpqSession where
  client : LibpqClient
  connection : LibpqConnection := {}
  connectionLive : Bool := false
  statement : LibpqStatement := {}
  statementLive : Bool := false
  nextKey : ℕ := 0
  log : List LibpqEvent := []

/-- A program of the adapter. -/
abbrev LibpqM (W : Type) (α : Type) := Asking LibpqSession W α

namespace LibpqSession

/-- The connection moves on. -/
def setConnection (s : LibpqSession) (connection : LibpqConnection) : LibpqSession :=
  { s with connection }

/-- The statement moves on. -/
def setStatement (s : LibpqSession) (statement : LibpqStatement) : LibpqSession :=
  { s with statement }

/-- An event is noted. -/
def note (s : LibpqSession) (event : LibpqEvent) : LibpqSession := { s with log := event :: s.log }

/-- A key is given out with an event. -/
def take (s : LibpqSession) (event : ℕ → LibpqEvent) : LibpqSession :=
  { s with nextKey := s.nextKey + 1, log := event s.nextKey :: s.log }

end LibpqSession

/-! ## The calls -/

section Calls

variable {W : Type} (api : LibpqApi W)

/-- The connection is changed. -/
def changeConnection (f : LibpqConnection → LibpqConnection) : LibpqM W Unit :=
  Asking.change fun s => s.setConnection (f s.connection)

/-- The statement is changed. -/
def changeStatement (f : LibpqStatement → LibpqStatement) : LibpqM W Unit :=
  Asking.change fun s => s.setStatement (f s.statement)

/-- An event is noted. -/
def noteEvent (event : LibpqEvent) : LibpqM W Unit := Asking.change (·.note event)

/-- `send_prepare`, `send_describe_prepared`, `send_query_prepared`, `send_query_params` -/
def apiSend (command : LibpqCommand) : LibpqM W ℤ := do
  noteEvent (.sent command)
  Asking.ask (api.send command)

/-- `get_result` -/
def apiGetResult : LibpqM W (Option (ℕ × LibpqResult)) := do
  match ← Asking.ask api.getResult with
  | none =>
    noteEvent .drained
    return none
  | some result =>
    let s ← Asking.look
    Asking.change (·.take fun key => .got key result)
    return some (s.nextKey, result)

/-- `clear_result` -/
def apiClearResult (key : ℕ) : LibpqM W Unit := noteEvent (.cleared key)

/-- `cancel_create` -/
def apiCancelCreate : LibpqM W (Option ℕ) := do
  if ← Asking.ask api.cancelCreate then
    let s ← Asking.look
    Asking.change (·.take .cancelCreated)
    return some s.nextKey
  else return none

/-- `cancel_finish` -/
def apiCancelFinish (key : ℕ) : LibpqM W Unit := noteEvent (.cancelFinished key)

/-- `vps_deadline_start` -/
def deadlineStart (durationMs : ℕ) : LibpqM W (Option WaitDeadline) := do
  match ← Asking.ask api.nowMs with
  | none => return none
  | some nowMs =>
    -- `UINT64_MAX`
    if durationMs + nowMs > 0xffffffffffffffff then return none
    else return some ⟨nowMs, nowMs + durationMs⟩

/-- `vps_libpq_set_error` -/
def libpqSetError (errorClass : ErrorClass) : LibpqM W ClientStatus := do
  if !(← Asking.ask api.storeError) then return .outOfMemory
  else return if errorClass = .memory then .outOfMemory else .backendError

end Calls

/-! ## Running through -/

section Rules

variable {W β : Type} {api : LibpqApi W} {s : LibpqSession} {R : β → LibpqSession → Prop}

/-- To change the connection is to go on with the changed one. -/
theorem always_changeConnection {f : LibpqConnection → LibpqConnection} {k : Unit → LibpqM W β}
    (h : Always (k ()) (s.setConnection (f s.connection)) R) :
    Always (changeConnection f >>= k) s R := h

/-- To change the statement is, too. -/
theorem always_changeStatement {f : LibpqStatement → LibpqStatement} {k : Unit → LibpqM W β}
    (h : Always (k ()) (s.setStatement (f s.statement)) R) :
    Always (changeStatement f >>= k) s R := h

theorem always_changeConnection_last {f : LibpqConnection → LibpqConnection}
    {Q : Unit → LibpqSession → Prop} (h : Q () (s.setConnection (f s.connection))) :
    Always (changeConnection f : LibpqM W Unit) s Q := fun _ => h

theorem always_changeStatement_last {f : LibpqStatement → LibpqStatement}
    {Q : Unit → LibpqSession → Prop} (h : Q () (s.setStatement (f s.statement))) :
    Always (changeStatement f : LibpqM W Unit) s Q := fun _ => h

/-- A note is one more event in the log. -/
theorem always_noteEvent {event : LibpqEvent} {k : Unit → LibpqM W β}
    (h : Always (k ()) (s.note event) R) :
    Always (noteEvent event >>= k) s R := h

/-- A command that is sent is noted, and libpq may answer anything. -/
theorem always_apiSend {command : LibpqCommand} {k : ℤ → LibpqM W β}
    (h : ∀ sent, Always (k sent) (s.note (.sent command)) R) :
    Always (apiSend api command >>= k) s R :=
  fun _ => h _ _

/-- A result is got, or there is nothing more. -/
theorem always_apiGetResult {k : Option (ℕ × LibpqResult) → LibpqM W β}
    (hnone : Always (k none) (s.note .drained) R)
    (hsome : ∀ result,
    Always (k (some (s.nextKey, result))) (s.take fun key => .got key result) R) :
    Always (apiGetResult api >>= k) s R := by
  refine Always.bind (P := fun got s' => (got = none ∧ s' = s.note .drained) ∨
    ∃ result, got = some (s.nextKey, result) ∧ s' = s.take fun key => .got key result)
    (Always.ask fun got => ?_) ?_
  · cases got with
    | none => exact fun _ => .inl ⟨rfl, rfl⟩
    | some result => exact fun _ => .inr ⟨result, rfl, rfl⟩
  · rintro got s' (⟨rfl, rfl⟩ | ⟨result, rfl, rfl⟩)
    · exact hnone
    · exact hsome result

/-- A cancel object is got under a new key, or there is none. -/
theorem always_apiCancelCreate {k : Option ℕ → LibpqM W β} (hnone : Always (k none) s R)
    (hsome : Always (k (some s.nextKey)) (s.take .cancelCreated) R) :
    Always (apiCancelCreate api >>= k) s R := by
  refine Always.bind (P := fun created s' => (created = none ∧ s' = s) ∨
    (created = some s.nextKey ∧ s' = s.take .cancelCreated)) (Always.ask fun created => ?_) ?_
  · cases created with
    | false => exact fun _ => .inl ⟨rfl, rfl⟩
    | true => exact fun _ => .inr ⟨rfl, rfl⟩
  · rintro created s' (⟨rfl, rfl⟩ | ⟨rfl, rfl⟩)
    · exact hnone
    · exact hsome

/-- A deadline is started, or the clock fails. -/
theorem always_deadlineStart {durationMs : ℕ} {k : Option WaitDeadline → LibpqM W β}
    (hnone : Always (k none) s R) (hsome : ∀ deadline, Always (k (some deadline)) s R) :
    Always (deadlineStart api durationMs >>= k) s R := by
  refine Always.bind (P := fun _ s' => s' = s) (Always.ask fun nowMs => ?_) ?_
  · cases nowMs with
    | none => exact fun _ => rfl
    | some nowMs => exact .ite (fun _ _ => rfl) (fun _ _ => rfl)
  · rintro (_ | deadline) s' rfl
    · exact hnone
    · exact hsome deadline

/-- An error is never a success. -/
theorem libpqSetError_spec {errorClass : ErrorClass} :
    Always (libpqSetError api errorClass) s fun status s' => status ≠ .ok ∧ s' = s := by
  refine Always.ask fun stored =>
    .ite (fun _ _ => ⟨ClientStatus.noConfusion, rfl⟩) fun _ _ => ⟨?_, rfl⟩
  dsimp only [pure]
  split <;> exact ClientStatus.noConfusion

end Rules

end Vps
