import VirtualPostgreSQL.Libpq.Statement

/-!
# Libpq/Books — what a session notes

The notes of a session tell what it may do next: what it holds of libpq, whether a command is
outstanding, which names are taken, and how far an exchange has come.  `LibpqSession.Books` says
that the notes are in order; each call of the table keeps it (`Books.sent`, `Books.got`,
`Books.cleared`, …).
-/

namespace Vps

open Machinery

/-! ## Handles and commands -/

/-- What an event does to the handles. -/
def LibpqEvent.ledger : LibpqEvent → Option (LedgerEvent LibpqHandle)
  | .connected key _ => some (.acquired (.connection key))
  | .finished key => some (.released (.connection key))
  | .got key _ => some (.acquired (.result key))
  | .cleared key => some (.released (.result key))
  | .cancelCreated key => some (.acquired (.cancel key))
  | .cancelFinished key => some (.released (.cancel key))
  | _ => none

/-- The history of the handles. -/
def handleLog (log : List LibpqEvent) : List (LedgerEvent LibpqHandle) :=
  log.filterMap LibpqEvent.ledger

/-- **A command is outstanding**: it has been sent, and libpq has not said since that it has nothing
more. -/
def outstanding : List LibpqEvent → Bool
  | [] => false
  | .sent _ :: _ => true
  | .drained :: _ | .connected _ _ :: _ => false
  | _ :: log => outstanding log

/-- The TLS policy has been verified since there is a connection. -/
def tlsTrusted : List LibpqEvent → Bool
  | [] => false
  | .tlsVerified :: _ => true
  | .connected _ _ :: _ => false
  | _ :: log => tlsTrusted log

/-- The identity has been verified since there is a connection. -/
def identityTrusted : List LibpqEvent → Bool
  | [] => false
  | .identityVerified :: _ => true
  | .connected _ _ :: _ => false
  | _ :: log => identityTrusted log

/-- **The connection is to be trusted.** -/
def trusted (log : List LibpqEvent) : Bool := tlsTrusted log && identityTrusted log

/-- **No command was sent while another was outstanding**, or before its connection was verified. -/
def Orderly (log : List LibpqEvent) : Prop :=
  ∀ later command earlier, log = later ++ .sent command :: earlier →
    outstanding earlier = false ∧ trusted earlier = true

/-- The name that a command gives to a statement. -/
def LibpqEvent.preparedName : LibpqEvent → Option (List UInt8)
  | .sent (.prepare name _ _) => some name
  | _ => none

/-- The names that have been given. -/
def preparedNames (log : List LibpqEvent) : List (List UInt8) :=
  log.filterMap LibpqEvent.preparedName

/-- The bytes of the rows that the open statement has shown. -/
def publishedRows : List LibpqEvent → List ℕ
  | [] => []
  | .published spec result :: log => result.rowLength spec.resultFields.length :: publishedRows log
  | .opened _ :: _ | .closed :: _ => []
  | _ :: log => publishedRows log

/-! ## Exchanges -/

/-- A command of an exchange, and the results that are an answer to it. -/
structure HealthRequest where
  command : LibpqCommand
  accepts : LibpqResult → Bool

/-- A command that gives nothing back. -/
def commandRequest (query : List UInt8) : HealthRequest :=
  ⟨plainCommand query, (·.status == .commandOk)⟩

/-- One value. -/
def LibpqResult.oneValue (result : LibpqResult) : Bool :=
  result.status == .tuplesOk && result.rowCount == 1 && result.fieldCount == 1 &&
    !result.valueIsNull 0

/-- A setting, which must be shown as it was set. -/
def settingRequest (plan : SessionPlan) (setting : SessionSetting) : HealthRequest where
  command := setConfigCommand (sessionParameterName setting.parameter)
    ((sessionSettingValue plan setting).getD [])
  accepts result := result.oneValue && (result.value 0).any fun value =>
    decide (0 ≤ result.valueLength 0) && sessionSettingMatches plan setting value

/-- The settings of a plan. -/
def planRequests (plan : SessionPlan) : List HealthRequest :=
  if plan.built then plan.settings.map (settingRequest plan) else []

/-- **What an operation of a connection has to say.** -/
def healthRequests (plan : SessionPlan) (resetMode : LibpqResetMode) :
    ClientOperation → List HealthRequest
  | .begin => [commandRequest (ascii "BEGIN")]
  | .commit => [commandRequest (ascii "COMMIT")]
  | .rollback => [commandRequest (ascii "ROLLBACK")]
  | .ping => [⟨plainCommand (ascii "SELECT 1"), LibpqResult.oneValue⟩]
  | .reset =>
    (if resetMode = .discardAll then [commandRequest (ascii "DISCARD ALL")] else []) ++
      planRequests plan
  | _ => planRequests plan

/-- **Requests that were answered**: sent one after the other, each with one result, which is
accepted and cleared, and nothing more. -/
inductive Answered : List HealthRequest → List LibpqEvent → Prop
  | nil : Answered [] []
  | snoc {requests : List HealthRequest} {log : List LibpqEvent} {request : HealthRequest} {key : ℕ}
      {result : LibpqResult} (h : Answered requests log)
        (haccepts : request.accepts result = true) :
      Answered (requests ++ [request])
        (.drained :: .cleared key :: .got key result :: .sent request.command :: log)

/-- **An operation that is completed has said all that it had to say**, since it began, and nothing
else. -/
def Exchanged (plan : SessionPlan) (resetMode : LibpqResetMode) (log : List LibpqEvent) : Prop :=
  ∀ later operation earlier, log = later ++ .completed operation :: earlier →
    ∃ exchange before, earlier = exchange ++ .began operation :: before ∧
      Answered (healthRequests plan resetMode operation) exchange

/-! ## Books -/

namespace LibpqSession

/-- What a session holds. -/
def held (s : LibpqSession) : List LibpqHandle :=
  s.connection.postgresqlConnection.toList.map .connection ++
    ((s.statement.currentResult.map Prod.fst).toList.map .result ++
      s.statement.cancelConnection.toList.map .cancel)

/-- **The notes are in order**, with something in hand beside what the session holds. -/
structure Books (s : LibpqSession) (inHand : List LibpqHandle) : Prop where
  ledger : Ledger (handleLog s.log) (inHand ++ s.held)
  fresh : ∀ handle, .acquired handle ∈ handleLog s.log → handle.key < s.nextKey
  orderly : Orderly s.log
  exchanged : Exchanged s.client.sessionPlan s.client.resetMode s.log
  names : (preparedNames s.log).Nodup
  named : ∀ name ∈ preparedNames s.log, ∃ serial queryHash,
    name = statementPreparedName serial queryHash ∧ serial ≤ s.client.statementSerial
  rows : s.statement.publishedRowCount.toNat = (publishedRows s.log).length
  bytes : s.statement.publishedByteCount.toNat = (publishedRows s.log).sum
  limit : ∀ bytes ∈ publishedRows s.log, bytes ≤ clientMaxRowBytes

end LibpqSession

section Notes

variable {log : List LibpqEvent} {e : LibpqEvent}

theorem Orderly.cons (h : Orderly log)
    (hsent : ∀ command, e = .sent command → outstanding log = false ∧ trusted log = true) :
    Orderly (e :: log) := by
  intro later command earlier heq
  cases later with
  | nil =>
    obtain ⟨rfl, rfl⟩ := List.cons.inj heq
    exact hsent command rfl
  | cons first later => exact h later command earlier (List.cons.inj heq).2

theorem Exchanged.cons {plan : SessionPlan} {resetMode : LibpqResetMode}
    (h : Exchanged plan resetMode log)
    (hdone : ∀ operation, e = .completed operation → ∃ exchange before,
      log = exchange ++ .began operation :: before ∧
        Answered (healthRequests plan resetMode operation) exchange) :
    Exchanged plan resetMode (e :: log) := by
  intro later operation earlier heq
  cases later with
  | nil =>
    obtain ⟨rfl, rfl⟩ := List.cons.inj heq
    exact hdone operation rfl
  | cons first later => exact h later operation earlier (List.cons.inj heq).2

end Notes

/-! ## Keeping the books -/

namespace LibpqSession.Books

variable {s : LibpqSession} {inHand inHand' : List LibpqHandle}

/-- The order in which things are held does not matter. -/
theorem perm (h : s.Books inHand) (hperm : inHand'.Perm inHand) : s.Books inHand' :=
  { h with ledger := h.ledger.perm (hperm.append_right s.held) }

/-- **Things change hands**: what is in hand and what the session holds is the same together. -/
theorem moved {s' : LibpqSession} (h : s.Books inHand) (hlog : s'.log = s.log)
    (hkey : s'.nextKey = s.nextKey)
    (hclient : s'.client = s.client) (hheld : (inHand' ++ s'.held).Perm (inHand ++ s.held))
    (hrows : s'.statement.publishedRowCount = s.statement.publishedRowCount)
    (hbytes : s'.statement.publishedByteCount = s.statement.publishedByteCount) :
    s'.Books inHand' where
  ledger := by rw [hlog]; exact h.ledger.perm hheld
  fresh := by rw [hlog, hkey]; exact h.fresh
  orderly := by rw [hlog]; exact h.orderly
  exchanged := by rw [hlog, hclient]; exact h.exchanged
  names := by rw [hlog]; exact h.names
  named := by rw [hlog, hclient]; exact h.named
  rows := by rw [hlog, hrows]; exact h.rows
  bytes := by rw [hlog, hbytes]; exact h.bytes
  limit := by rw [hlog]; exact h.limit

/-- The connection moves on. -/
theorem setConnection (h : s.Books inHand) {connection : LibpqConnection}
    (hhandle : connection.postgresqlConnection = s.connection.postgresqlConnection) :
    (s.setConnection connection).Books inHand := by
  refine h.moved rfl rfl rfl (.of_eq ?_) rfl rfl
  rw [held, held, ← hhandle]
  rfl

/-- The statement moves on. -/
theorem setStatement (h : s.Books inHand) {statement : LibpqStatement}
    (hresult : statement.currentResult = s.statement.currentResult)
    (hcancel : statement.cancelConnection = s.statement.cancelConnection)
    (hrows : statement.publishedRowCount = s.statement.publishedRowCount)
    (hbytes : statement.publishedByteCount = s.statement.publishedByteCount) :
    (s.setStatement statement).Books inHand := by
  refine h.moved rfl rfl rfl (.of_eq ?_) hrows hbytes
  rw [held, held, ← hresult, ← hcancel]
  rfl

section Hands

variable {key : ℕ} {result : LibpqResult}

/-- A result is kept in the statement. -/
theorem keepResult (h : s.Books (.result key :: inHand))
    (hnone : s.statement.currentResult = none) :
    (s.setStatement { s.statement with currentResult := some (key, result) }).Books inHand := by
  refine h.moved rfl rfl rfl (List.perm_iff_count.mpr fun handle => ?_) rfl rfl
  simp [held, LibpqSession.setStatement, hnone, List.count_cons]
  omega

/-- The result is taken out of the statement. -/
theorem dropResult (h : s.Books inHand) (hsome : s.statement.currentResult = some (key, result)) :
    (s.setStatement { s.statement with currentResult := none }).Books (.result key :: inHand) := by
  refine h.moved rfl rfl rfl (List.perm_iff_count.mpr fun handle => ?_) rfl rfl
  simp [held, LibpqSession.setStatement, hsome, List.count_cons]
  omega

/-- A cancel connection is kept in the statement. -/
theorem keepCancel (h : s.Books (.cancel key :: inHand))
    (hnone : s.statement.cancelConnection = none) :
    (s.setStatement { s.statement with cancelConnection := some key }).Books inHand := by
  refine h.moved rfl rfl rfl (List.perm_iff_count.mpr fun handle => ?_) rfl rfl
  simp [held, LibpqSession.setStatement, hnone, List.count_cons]
  omega

/-- The cancel connection is taken out of the statement. -/
theorem dropCancel (h : s.Books inHand) (hsome : s.statement.cancelConnection = some key) :
    (s.setStatement { s.statement with cancelConnection := none }).Books
      (.cancel key :: inHand) := by
  refine h.moved rfl rfl rfl (List.perm_iff_count.mpr fun handle => ?_) rfl rfl
  simp [held, LibpqSession.setStatement, hsome, List.count_cons]
  omega

end Hands

/-- **An event is noted**, and the session may have moved on with it. -/
theorem noted {s' : LibpqSession} {e : LibpqEvent} (h : s.Books inHand) (hlog : s'.log = e :: s.log)
    (hclient : s'.client = s.client)
    (hledger : Ledger (handleLog (e :: s.log)) (inHand' ++ s'.held)) (hkey : s.nextKey ≤ s'.nextKey)
    (hfresh : ∀ handle, e.ledger = some (.acquired handle) → handle.key < s'.nextKey)
    (hsent : ∀ command, e = .sent command → outstanding s.log = false ∧ trusted s.log = true)
    (hdone : ∀ operation, e = .completed operation → ∃ exchange before,
      s.log = exchange ++ .began operation :: before ∧
        Answered (healthRequests s.client.sessionPlan s.client.resetMode operation) exchange)
    (hname : ∀ name, e.preparedName = some name → name ∉ preparedNames s.log ∧
      ∃ serial queryHash, name = statementPreparedName serial queryHash ∧
        serial ≤ s.client.statementSerial)
    (hrows : s'.statement.publishedRowCount.toNat = (publishedRows (e :: s.log)).length)
    (hbytes : s'.statement.publishedByteCount.toNat = (publishedRows (e :: s.log)).sum)
    (hlimit : ∀ bytes ∈ publishedRows (e :: s.log), bytes ≤ clientMaxRowBytes) :
    s'.Books inHand' where
  ledger := by rw [hlog]; exact hledger
  fresh handle hhandle := by
    rw [hlog, handleLog, List.filterMap_cons] at hhandle
    cases hevent : e.ledger with
    | none =>
      rw [hevent] at hhandle
      exact (h.fresh handle hhandle).trans_le hkey
    | some event =>
      rw [hevent] at hhandle
      rcases List.mem_cons.mp hhandle with rfl | hhandle
      · exact hfresh handle hevent
      · exact (h.fresh handle hhandle).trans_le hkey
  orderly := by rw [hlog]; exact h.orderly.cons hsent
  exchanged := by rw [hlog, hclient]; exact h.exchanged.cons hdone
  names := by
    rw [hlog, preparedNames, List.filterMap_cons]
    cases hevent : e.preparedName with
    | none => exact h.names
    | some name => exact List.nodup_cons.mpr ⟨(hname name hevent).1, h.names⟩
  named := by
    rw [hlog, hclient, preparedNames, List.filterMap_cons]
    cases hevent : e.preparedName with
    | none => exact h.named
    | some name => exact List.forall_mem_cons.mpr ⟨(hname name hevent).2, h.named⟩
  rows := by rw [hlog]; exact hrows
  bytes := by rw [hlog]; exact hbytes
  limit := by rw [hlog]; exact hlimit

/-- An event that is of no account is noted. -/
theorem other {e : LibpqEvent} (h : s.Books inHand) (hledger : e.ledger = none)
    (hnosent : ∀ command, e ≠ .sent command) (hnodone : ∀ operation, e ≠ .completed operation)
    (hnorows : publishedRows (e :: s.log) = publishedRows s.log) : (s.note e).Books inHand := by
  refine h.noted rfl rfl ?_ le_rfl (fun handle he => ?_)
    (fun command he => absurd he (hnosent command))
    (fun operation he => absurd he (hnodone operation)) (fun name he => ?_) ?_ ?_ ?_
  · rw [handleLog, List.filterMap_cons, hledger]
    exact h.ledger
  · rw [hledger] at he
    cases he
  · cases hcase : e with
    | sent command => exact absurd hcase (hnosent command)
    | _ => rw [hcase] at he; cases he
  · rw [hnorows]
    exact h.rows
  · rw [hnorows]
    exact h.bytes
  · rw [hnorows]
    exact h.limit

/-- libpq has nothing more. -/
theorem drained (h : s.Books inHand) : (s.note .drained).Books inHand :=
  h.other rfl (fun _ he => by cases he) (fun _ he => by cases he) rfl

/-- An exchange begins. -/
theorem began (h : s.Books inHand) (operation : ClientOperation) :
    (s.note (.began operation)).Books inHand :=
  h.other rfl (fun _ he => by cases he) (fun _ he => by cases he) rfl

/-- An exchange is completed. -/
theorem completed (h : s.Books inHand) {operation : ClientOperation}
    {exchange before : List LibpqEvent} (hlog : s.log = exchange ++ .began operation :: before)
    (hanswered : Answered
    (healthRequests s.client.sessionPlan s.client.resetMode operation) exchange) :
    (s.note (.completed operation)).Books inHand :=
  h.noted rfl rfl h.ledger le_rfl (fun _ he => by cases he) (fun _ he => by cases he)
    (fun _ he => by cases he; exact ⟨exchange, before, hlog, hanswered⟩) (fun _ he => by cases he)
    h.rows h.bytes h.limit

/-- A command is sent. -/
theorem sent (h : s.Books inHand) {command : LibpqCommand} (hquiet : outstanding s.log = false)
    (htrusted : trusted s.log = true)
    (hname : ∀ name, (LibpqEvent.sent command).preparedName = some name →
    name ∉ preparedNames s.log ∧
      ∃ serial queryHash, name = statementPreparedName serial queryHash ∧
        serial ≤ s.client.statementSerial) :
    (s.note (.sent command)).Books inHand :=
  h.noted rfl rfl h.ledger le_rfl (fun _ he => by cases he) (fun _ _ => ⟨hquiet, htrusted⟩)
    (fun _ he => by cases he) hname h.rows h.bytes h.limit

/-- A handle that is new is in no history. -/
theorem not_acquired (h : s.Books inHand) {handle : LibpqHandle} (hkey : handle.key = s.nextKey) :
    .acquired handle ∉ handleLog s.log :=
  fun hmem => absurd (h.fresh handle hmem) (by omega)

/-- Something is handed out. -/
theorem take (h : s.Books inHand) {event : ℕ → LibpqEvent} {handle : LibpqHandle}
    (hkey : handle.key = s.nextKey) (hevent : (event s.nextKey).ledger = some (.acquired handle))
    (hnosent : ∀ command, event s.nextKey ≠ .sent command)
    (hnodone : ∀ operation, event s.nextKey ≠ .completed operation)
    (hnorows : publishedRows (event s.nextKey :: s.log) = publishedRows s.log) :
    (s.take event).Books (handle :: inHand) := by
  refine h.noted rfl rfl ?_ (Nat.le_succ _) (fun other he => ?_)
    (fun command he => absurd he (hnosent command))
    (fun operation he => absurd he (hnodone operation)) (fun name he => ?_) ?_ ?_ ?_
  · rw [handleLog, List.filterMap_cons, hevent]
    exact .acquire handle h.ledger (h.not_acquired hkey) (List.Perm.refl _)
  · rw [hevent] at he
    cases he
    exact hkey ▸ Nat.lt_succ_self _
  · cases hcase : event s.nextKey with
    | sent command => exact absurd hcase (hnosent command)
    | _ => rw [hcase] at he; cases he
  · rw [hnorows]
    exact h.rows
  · rw [hnorows]
    exact h.bytes
  · rw [hnorows]
    exact h.limit

/-- A result is got. -/
theorem got (h : s.Books inHand) (result : LibpqResult) :
    (s.take fun key => .got key result).Books (.result s.nextKey :: inHand) :=
  h.take rfl rfl (fun _ he => by cases he) (fun _ he => by cases he) rfl

/-- A cancel connection is made. -/
theorem cancelCreated (h : s.Books inHand) :
    (s.take .cancelCreated).Books (.cancel s.nextKey :: inHand) :=
  h.take rfl rfl (fun _ he => by cases he) (fun _ he => by cases he) rfl

/-- A connection is made. -/
theorem connected (h : s.Books inHand) (keywords : List (List UInt8 × Option (List UInt8))) :
    (s.take (.connected · keywords)).Books (.connection s.nextKey :: inHand) :=
  h.take rfl rfl (fun _ he => by cases he) (fun _ he => by cases he) rfl

/-- What is in hand is given back. -/
theorem giveBack {e : LibpqEvent} {handle : LibpqHandle} (h : s.Books (handle :: inHand))
    (hevent : e.ledger = some (.released handle)) (hnosent : ∀ command, e ≠ .sent command)
    (hnodone : ∀ operation, e ≠ .completed operation)
    (hnorows : publishedRows (e :: s.log) = publishedRows s.log) : (s.note e).Books inHand := by
  refine h.noted rfl rfl ?_ le_rfl (fun other he => ?_)
    (fun command he => absurd he (hnosent command))
    (fun operation he => absurd he (hnodone operation)) (fun name he => ?_) ?_ ?_ ?_
  · rw [handleLog, List.filterMap_cons, hevent]
    exact .release handle h.ledger (List.Perm.refl _)
  · rw [hevent] at he
    cases he
  · cases hcase : e with
    | sent command => exact absurd hcase (hnosent command)
    | _ => rw [hcase] at he; cases he
  · rw [hnorows]
    exact h.rows
  · rw [hnorows]
    exact h.bytes
  · rw [hnorows]
    exact h.limit

/-- A result is cleared. -/
theorem cleared {key : ℕ} (h : s.Books (.result key :: inHand)) :
    (s.note (.cleared key)).Books inHand :=
  h.giveBack rfl (fun _ he => by cases he) (fun _ he => by cases he) rfl

/-- A cancel connection is finished. -/
theorem cancelFinished {key : ℕ} (h : s.Books (.cancel key :: inHand)) :
    (s.note (.cancelFinished key)).Books inHand :=
  h.giveBack rfl (fun _ he => by cases he) (fun _ he => by cases he) rfl

/-- A connection is finished. -/
theorem finished {key : ℕ} (h : s.Books (.connection key :: inHand)) :
    (s.note (.finished key)).Books inHand :=
  h.giveBack rfl (fun _ he => by cases he) (fun _ he => by cases he) rfl

/-- A handle is kept in the connection. -/
theorem keepConnection {key : ℕ} (h : s.Books (.connection key :: inHand))
    (hnone : s.connection.postgresqlConnection = none) :
    (s.setConnection { s.connection with postgresqlConnection := some key }).Books inHand := by
  refine h.moved rfl rfl rfl (List.perm_iff_count.mpr fun handle => ?_) rfl rfl
  simp [held, LibpqSession.setConnection, hnone, List.count_cons]
  omega

/-- The handle is taken out of the connection. -/
theorem dropConnection {key : ℕ} (h : s.Books inHand)
    (hsome : s.connection.postgresqlConnection = some key) :
    (s.setConnection { s.connection with postgresqlConnection := none }).Books
      (.connection key :: inHand) := by
  refine h.moved rfl rfl rfl (List.perm_iff_count.mpr fun handle => ?_) rfl rfl
  simp [held, LibpqSession.setConnection, hsome, List.count_cons]
  omega

/-- A row is shown. -/
theorem published (h : s.Books inHand) {statement : LibpqStatement} {spec : LibpqStatementSpec}
    {result : LibpqResult} (hlimit : result.rowLength spec.resultFields.length ≤ clientMaxRowBytes)
    (hresult : statement.currentResult = s.statement.currentResult)
    (hcancel : statement.cancelConnection = s.statement.cancelConnection)
    (hrows : statement.publishedRowCount.toNat = s.statement.publishedRowCount.toNat + 1)
    (hbytes : statement.publishedByteCount.toNat =
      result.rowLength spec.resultFields.length + s.statement.publishedByteCount.toNat) :
    ((s.note (.published spec result)).setStatement statement).Books inHand := by
  refine h.noted rfl rfl ?_ le_rfl (fun _ he => by cases he) (fun _ he => by cases he)
    (fun _ he => by cases he) (fun _ he => by cases he) ?_ ?_ ?_
  · have hheld : held ((s.note (.published spec result)).setStatement statement) = s.held := by
      rw [held, held, ← hresult, ← hcancel]
      rfl
    rw [hheld]
    exact h.ledger
  · exact hrows.trans (by rw [h.rows, publishedRows, List.length_cons])
  · exact hbytes.trans (by rw [h.bytes, publishedRows, List.sum_cons])
  · exact List.forall_mem_cons.mpr ⟨hlimit, h.limit⟩

/-- A statement begins or ends, with nothing shown. -/
theorem bounded {e : LibpqEvent} {statement : LibpqStatement} (h : s.Books inHand)
    (hevent : (∃ spec, e = .opened spec) ∨ e = .closed) (hresult : s.statement.currentResult = none)
    (hcancel : s.statement.cancelConnection = none) (hresult' : statement.currentResult = none)
    (hcancel' : statement.cancelConnection = none) (hrows : statement.publishedRowCount = 0)
    (hbytes : statement.publishedByteCount = 0) :
    ((s.note e).setStatement statement).Books inHand := by
  have hheld : held ((s.note e).setStatement statement) = s.held := by
    rw [held, held, hresult, hcancel]
    simp only [LibpqSession.setStatement, LibpqSession.note, hresult', hcancel']
  have hledger : Ledger (handleLog s.log) (inHand ++ held ((s.note e).setStatement statement)) :=
    hheld ▸ h.ledger
  rcases hevent with ⟨spec, rfl⟩ | rfl
  all_goals
    exact h.noted rfl rfl hledger le_rfl (fun _ he => by cases he) (fun _ he => by cases he)
      (fun _ he => by cases he) (fun _ he => by cases he)
        (by simp [LibpqSession.setStatement, hrows, publishedRows])
      (by simp [LibpqSession.setStatement, hbytes, publishedRows]) (fun _ hmem => by cases hmem)

/-- The client gives out another serial number. -/
theorem serial (h : s.Books inHand) {serial : UInt64}
    (hserial : s.client.statementSerial ≤ serial) :
    ({ s with client := { s.client with statementSerial := serial } } : LibpqSession).Books
      inHand where
  ledger := h.ledger
  fresh := h.fresh
  orderly := h.orderly
  exchanged := h.exchanged
  names := h.names
  named name hname := by
    obtain ⟨serial', queryHash, heq, hle⟩ := h.named name hname
    exact ⟨serial', queryHash, heq, UInt64.le_trans hle hserial⟩
  rows := h.rows
  bytes := h.bytes
  limit := h.limit

end LibpqSession.Books

end Vps
