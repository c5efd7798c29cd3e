import VirtualPostgreSQL.Libpq.Health

/-!
# Libpq/Connection — opening a connection, and waiting for it

`vps_libpq_client.c`.  A connection is started with the keywords of its configuration, polled until
libpq has it, checked against the policies, and then set up.  What becomes of it is its phase.
-/

namespace Vps

open Machinery

/-! ## The keywords -/

/-- `vps_libpq_keyword_fields` -/
def libpqKeywordFields : List (List UInt8 × CredentialMember) :=
  [(ascii "host", .hosts), (ascii "port", .ports), (ascii "user", .user),
    (ascii "password", .password),
    (ascii "dbname", .dbname), (ascii "service", .service), (ascii "servicefile", .serviceFile),
    (ascii "sslrootcert", .sslrootcert), (ascii "sslcert", .sslcert), (ascii "sslkey", .sslkey),
    (ascii "sslcrl", .sslcrl), (ascii "target_session_attrs", .targetSessionAttrs),
    (ascii "connect_timeout", .connectTimeout), (ascii "application_name", .applicationName)]

/-- `VPS_LIBPQ_CLIENT_MAX_KEYWORDS` -/
def libpqClientMaxKeywords : ℕ := 20

/-- The loop of `vps_libpq_keyword_view`. -/
def libpqKeywordLoop (config : CredentialConfigView) :
    List (List UInt8 × CredentialMember) → List (List UInt8 × Option (List UInt8)) →
      Option (List (List UInt8 × Option (List UInt8)))
  | [], view => some view
  | (keyword, member) :: rest, view =>
    if config.header.presentFields &&& member.field ≠ 0 then
      if view.length + 1 ≥ libpqClientMaxKeywords then none
      else libpqKeywordLoop config rest
        (view ++ [(keyword, (config.members member).map CString.bytes)])
    else libpqKeywordLoop config rest view

/-- **`vps_libpq_keyword_view`** -/
def libpqKeywordView (client : LibpqClient) : Option (List (List UInt8 × Option (List UInt8))) :=
  (libpqKeywordLoop client.config libpqKeywordFields []).map fun view => view ++
    [(ascii "sslmode", some (tlsModeName client.tlsMode)),
      (ascii "channel_binding", some (channelBindingModeName client.channelBinding)),
      (ascii "client_encoding", some (ascii "UTF8"))]

/-! ## The functions -/

section Functions

variable {W : Type} (api : LibpqApi W)

/-- The connection fails. -/
def connectionFail (errorClass : ErrorClass) : LibpqM W ClientStatus := do
  changeConnection fun c => { c with phase := .failed }
  libpqSetError api errorClass

/-- `vps_libpq_connection_create` -/
def libpqConnectionCreate : LibpqM W ClientStatus := do
  let s ← Asking.look
  if s.connectionLive then return .invalidArgument
  else if !(← Asking.ask api.allocate) then libpqSetError api .memory
  else
    Asking.change fun s => { s with connection := {}, connectionLive := true }
    return .ok

/-- What is left of a connect start when libpq has a handle. -/
def connectionStarted : LibpqM W ClientStatus := do
  if (← Asking.ask api.setNonblocking) ≠ 0 then connectionFail api .connection
  else
    changeConnection fun c => { c with phase := .connecting }
    return .ok

/-- **`vps_libpq_connection_start`** -/
def libpqConnectionStart (operation : ClientOperation) : LibpqM W ClientStatus := do
  let s ← Asking.look
  if (operation = .reset ∨ operation = .ping ∨ isTransactionOperation operation = true) ∧
      s.connection.phase = .ready then
    match ← deadlineStart api s.client.connectTimeoutMs with
    | none => connectionFail api .connection
    | some deadline =>
      changeConnection fun c => { c with deadline }
      healthBegin api operation
  else if operation ≠ .connect ∨ s.connection.phase ≠ .created then return .invalidState
  else match libpqKeywordView s.client with
  | none => connectionFail api .config
  | some keywords =>
    match ← deadlineStart api s.client.connectTimeoutMs with
    | none => connectionFail api .connection
    | some deadline =>
      changeConnection fun c => { c with deadline }
      if !(← Asking.ask (api.connectStart keywords)) then connectionFail api .memory
      else
        changeConnection fun c => { c with postgresqlConnection := some s.nextKey }
        Asking.change (·.take (.connected · keywords))
        connectionStarted api

/-- `vps_libpq_deadline_expired`; none if there is time left. -/
def libpqDeadlineExpired : LibpqM W (Option ClientStatus) := do
  match ← Asking.ask api.nowMs with
  | none => return some (← connectionFail api .connection)
  | some nowMs =>
    let s ← Asking.look
    match waitDeadlineRemainingAt s.connection.deadline nowMs with
    | .error _ => return some (← connectionFail api .connection)
    | .ok none => return some (← connectionFail api .timeout)
    | .ok (some _) => return none

/-- `vps_libpq_readiness` -/
def libpqReadiness : LibpqM W ClientStatus := do
  if !(← Asking.ask api.connectionOk) then libpqSetError api .connection
  else match ← libpqDeadlineExpired api with
  | some status => return status
  | none =>
    if !(← Asking.ask api.tlsVerify) then connectionFail api .tls
    else
      noteEvent .tlsVerified
      if !(← Asking.ask api.identityVerify) then connectionFail api .config
      else
        noteEvent .identityVerified
        match ← libpqDeadlineExpired api with
        | some status => return status
        | none => healthBegin api .connect

/-- What the poll answers when a connection that is being opened has to wait. -/
def connectionPollWait (interest : ClientWaitInterest) : LibpqM W ClientPollReply := do
  let socketHandle ← Asking.ask api.socketHandle
  changeConnection fun c => { c with socketHandle }
  if socketHandle < 0 then return pollFailed (← connectionFail api .connection)
  else
    changeConnection fun c => { c with waitInterest := some interest }
    let s ← Asking.look
    return pollWait (some interest) .connect s.client.waitSliceMs

/-- What the poll answers when libpq has failed; a class that is out of range is that of a
connection. -/
def connectionPollFailed : LibpqM W ClientPollReply := do
  let errorClass ← Asking.ask api.connectionErrorClass
  return pollFailed (← connectionFail api (match errorClass with
    | some .none | none => .connection
    | some errorClass => errorClass))

/-- What the poll answers to a status of libpq, when it is not to poll again. -/
def connectionPollAnswer (rounds : ℕ) (status : Option LibpqPollingStatus) :
    LibpqM W (Option ClientPollReply) := do
  match status with
  | some .ok =>
    let status ← libpqReadiness api
    if status ≠ .ok then return some (pollFailed status)
    else healthPoll api rounds
  | some .reading => return some (← connectionPollWait api .read)
  | some .writing => return some (← connectionPollWait api .write)
  | some .active => return some (← connectionPollWait api .readWrite)
  | some .failed | none => return some (← connectionPollFailed api)

/-- `VPS_LIBPQ_CLIENT_MAX_ACTIVE_POLLS` -/
def libpqClientMaxActivePolls : ℕ := 16

/-- The loop of `vps_libpq_connection_poll`, with the active polls that are left. -/
def connectionPollLoop (rounds : ℕ) : ℕ → LibpqM W (Option ClientPollReply)
  | 0 => do connectionPollAnswer api rounds (← Asking.ask api.connectPoll)
  | active + 1 => do
    let status ← Asking.ask api.connectPoll
    if status = some .active then
      match ← libpqDeadlineExpired api with
      | some status => return some (pollFailed status)
      | none => connectionPollLoop rounds active
    else connectionPollAnswer api rounds status

/-- **`vps_libpq_connection_poll`** -/
def libpqConnectionPoll (rounds : ℕ) : LibpqM W (Option ClientPollReply) := do
  let s ← Asking.look
  if s.connection.phase ≠ .connecting ∧ s.connection.phase ≠ .health then
    return some (pollFailed .invalidState)
  else match ← libpqDeadlineExpired api with
  | some status => return some (pollFailed status)
  | none =>
    if s.connection.phase = .health then healthPoll api rounds
    else connectionPollLoop api rounds libpqClientMaxActivePolls

/-- An interest of the client layer, as the platform has it; a request without one is not usable. -/
def platformInterest : Option ClientWaitInterest → WaitInterest
  | some .write => .write
  | some .readWrite => .readWrite
  | some .read | none => .read

/-- The phase of the wait that a connection is in. -/
def connectionWaitPhase (connection : LibpqConnection) : ClientWaitPhase :=
  if connection.phase = .connecting then .connect else healthWaitPhase connection.activeOperation

/-- The class of a wait that has ended otherwise than ready. -/
def waitErrorClass (status : DeadlineStatus) (outcome : SocketWaitOutcome) : ErrorClass :=
  if status = .ok then
    match outcome with
    | .deadlineExpired => .timeout
    | .interrupted => .cancel
    | _ => .connection
  else .connection

/-- **`vps_libpq_connection_wait`** -/
def libpqConnectionWait (wait : ClientWaitRequest) : LibpqM W ClientStatus := do
  let s ← Asking.look
  if (s.connection.phase ≠ .connecting ∧ s.connection.phase ≠ .health) ∨
      wait.phase ≠ some (connectionWaitPhase s.connection) ∨
      wait.interest ≠ s.connection.waitInterest then return .invalidState
  else
    let (status, result) ← Asking.ask (api.socketWait
      ⟨wait.interest.isSome, platformInterest wait.interest, s.connection.deadline,
        wait.maxSliceMs.toNat, s.client.hasInterruptProbe⟩)
    if status = .ok ∧ result.outcome = .ready then return .ok
    else connectionFail api (waitErrorClass status result.outcome)

/-- `vps_libpq_connection_destroy` -/
def libpqConnectionDestroy : LibpqM W Unit := do
  let s ← Asking.look
  match s.connection.postgresqlConnection with
  | some key => noteEvent (.finished key)
  | none => pure ()
  Asking.change fun s => { s with connection := {}, connectionLive := false }

end Functions

end Vps
