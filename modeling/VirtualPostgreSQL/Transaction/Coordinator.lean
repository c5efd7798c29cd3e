import VirtualPostgreSQL.Machinery.Bounded

/-!
# Transaction/Coordinator — the transaction coordinator shared by the tables of one database

One coordinator is owned by each `sqlite3*` context.  It decides, for every transaction callback of
every virtual table of that context, whether a command has to be sent to PostgreSQL
(`commandRequired`), whether the callback is already satisfied (`ok`), or why it is refused.  The
functions are those of `vps_transaction.c`, in its order, each returning the new coordinator with
the result code.
-/

namespace Vps

open Machinery

/-! ## The data model -/

/-- `VpsTransactionState`. -/
inductive TransactionState
  | idle | beginning | active | failed | ending | ambiguous
  deriving DecidableEq, Repr

/-- `VpsTransactionResult`. -/
inductive TransactionResult
  | ok | commandRequired | busy | identityMismatch | invalidState | aborted | ambiguousOutcome
  | limitExceeded | outOfMemory | invalidArgument
  deriving DecidableEq, Repr

/-- `VpsTransactionEndOperation`. -/
inductive EndOperation
  | commit | rollback
  deriving DecidableEq, Repr

/-- What the coordinator reads of a `VpsConnectionIdentity`. -/
structure ConnectionIdentity where
  canonical : List UInt8
  credentialGeneration : UInt64
  configurationGeneration : UInt64
  fingerprint : String
  built : Bool
  deriving DecidableEq

/-- `VPS_TRANSACTION_MAX_PARTICIPANTS`. -/
abbrev transactionMaxParticipants : ℕ := 64

/-- `VPS_TRANSACTION_MAX_SAVEPOINTS`. -/
abbrev transactionMaxSavepoints : ℕ := 64

/-- `VPS_SQLSTATE_LENGTH`. -/
def sqlstateLength : ℕ := 5

/-- `VpsTransactionCoordinator`, less the allocator and the logger.  The two arrays carry the proof
that their fill counts stay inside them. -/
structure Coordinator where
  identity : List UInt8
  credentialGeneration : UInt64
  configurationGeneration : UInt64
  generation : UInt64
  participants : Bounded UInt64 transactionMaxParticipants
  savepoints : Bounded ℤ transactionMaxSavepoints
  activeStreamCount : ℕ
  state : TransactionState
  endingOperation : Option EndOperation
  identityFingerprint : String
  lastSqlstate : String
  initialized : Bool
  deriving DecidableEq

/-! ## Initialisation and reset -/

/-- `memset(coordinator, 0, sizeof *coordinator)`. -/
def Coordinator.zero : Coordinator where
  identity := []
  credentialGeneration := 0
  configurationGeneration := 0
  generation := 0
  participants := .empty
  savepoints := .empty
  activeStreamCount := 0
  state := .idle
  endingOperation := none
  identityFingerprint := ""
  lastSqlstate := ""
  initialized := false

/-- `vps_transaction_init` with a valid allocator. -/
def transactionInit : Coordinator := { Coordinator.zero with initialized := true }

/-- `vps_transaction_cleanup`. -/
def transactionCleanup (_ : Coordinator) : Coordinator := Coordinator.zero

/-- `vps_transaction_reset_active`: everything about the transaction is forgotten, the generation
counter survives. -/
def transactionResetActive (c : Coordinator) : Coordinator :=
  { c with
    identity := []
    credentialGeneration := 0
    configurationGeneration := 0
    participants := .empty
    savepoints := .empty
    activeStreamCount := 0
    endingOperation := none
    identityFingerprint := ""
    lastSqlstate := ""
    state := .idle }

/-! ## Joining a transaction -/

/-- `vps_transaction_has_participant`. -/
def transactionHasParticipant (c : Coordinator) (participantId : UInt64) : Bool :=
  c.participants.toList.contains participantId

/-- `vps_transaction_identity_matches`. -/
def transactionIdentityMatches (c : Coordinator) (identity : ConnectionIdentity) : Bool :=
  identity.built && c.identity.length == identity.canonical.length &&
    c.credentialGeneration == identity.credentialGeneration &&
    c.configurationGeneration == identity.configurationGeneration &&
    (identity.canonical.length == 0 || c.identity == identity.canonical)

/-- The part of `vps_transaction_begin` that adds a table to a started transaction. -/
def transactionJoin (c : Coordinator) (identity : ConnectionIdentity) (participantId : UInt64) :
    Coordinator × TransactionResult :=
  if !transactionIdentityMatches c identity then
    (c, .identityMismatch)
  else if transactionHasParticipant c participantId then
    (c, .ok)
  else match c.participants.push? participantId with
  | none => (c, .limitExceeded)
  | some participants => ({ c with participants := participants }, .ok)

/-- Joining changes at most the participants, and never asks for a command. -/
theorem transactionJoin_spec (c : Coordinator) (identity : ConnectionIdentity)
    (participantId : UInt64) :
    (∃ participants, (transactionJoin c identity participantId).1 =
        { c with participants := participants }) ∧
      (transactionJoin c identity participantId).2 ≠ .commandRequired := by
  unfold transactionJoin
  split
  · exact ⟨⟨c.participants, rfl⟩, by simp⟩
  · split
    · exact ⟨⟨c.participants, rfl⟩, by simp⟩
    · split
      · exact ⟨⟨c.participants, rfl⟩, by simp⟩
      · exact ⟨⟨_, rfl⟩, by simp⟩

/-- `vps_transaction_begin`.  `appendOk` is the outcome of copying the canonical identity into the
coordinator's buffer (memory, or the canonical size limit). -/
def transactionBegin (c : Coordinator) (identity : ConnectionIdentity) (participantId : UInt64)
    (appendOk : Bool) : Coordinator × TransactionResult :=
  if !c.initialized || !identity.built || participantId == 0 then
    (c, .invalidArgument)
  else match c.state with
  | .ambiguous => (c, .ambiguousOutcome)
  | .idle =>
    if !appendOk then
      (c, .outOfMemory)
    else
      ({ c with
          identity := c.identity ++ identity.canonical
          credentialGeneration := identity.credentialGeneration
          configurationGeneration := identity.configurationGeneration
          identityFingerprint := identity.fingerprint
          participants := .single participantId (by decide)
          generation := c.generation + 1
          state := .beginning }, .commandRequired)
  | .active | .failed => transactionJoin c identity participantId
  | .beginning | .ending => (c, .invalidState)

/-- Inversion: only an idle coordinator asks for `BEGIN`, and is then beginning. -/
theorem transactionBegin_commandRequired {c c' : Coordinator} {identity : ConnectionIdentity}
    {participantId : UInt64} {appendOk : Bool}
    (h : transactionBegin c identity participantId appendOk = (c', .commandRequired)) :
    c.initialized = true ∧ c.state = .idle ∧
      c' = { c with
        identity := c.identity ++ identity.canonical
        credentialGeneration := identity.credentialGeneration
        configurationGeneration := identity.configurationGeneration
        identityFingerprint := identity.fingerprint
        participants := .single participantId (by decide)
        generation := c.generation + 1
        state := .beginning } := by
  unfold transactionBegin at h
  split at h
  · cases h
  · rename_i hargs
    split at h
    · cases h
    · rename_i hstate
      split at h
      · cases h
      · exact ⟨by simp at hargs; exact hargs.1.1, hstate, (Prod.mk.inj h).1.symm⟩
    · exact absurd (congrArg Prod.snd h) (transactionJoin_spec c identity participantId).2
    · exact absurd (congrArg Prod.snd h) (transactionJoin_spec c identity participantId).2
    · cases h
    · cases h

/-- Inversion: a table joins a started transaction, changing at most the participants. -/
theorem transactionBegin_ok {c c' : Coordinator} {identity : ConnectionIdentity}
    {participantId : UInt64} {appendOk : Bool}
    (h : transactionBegin c identity participantId appendOk = (c', .ok)) :
    (c.state = .active ∨ c.state = .failed) ∧
      ∃ participants, c' = { c with participants := participants } := by
  have hjoin := (transactionJoin_spec c identity participantId).1
  unfold transactionBegin at h
  split at h
  · cases h
  · split at h
    · cases h
    · split at h <;> cases h
    · rw [h] at hjoin
      exact ⟨Or.inl ‹_›, hjoin⟩
    · rw [h] at hjoin
      exact ⟨Or.inr ‹_›, hjoin⟩
    · cases h
    · cases h

/-- `vps_transaction_begin_complete`. -/
def transactionBeginComplete (c : Coordinator) (success : Bool) :
    Coordinator × TransactionResult :=
  if c.state ≠ .beginning then
    (c, .invalidState)
  else if !success then
    (transactionResetActive c, .invalidState)
  else
    ({ c with state := .active }, .ok)

/-! ## The stream gate and the command gate -/

/-- `vps_transaction_stream_begin`. -/
def transactionStreamBegin (c : Coordinator) : Coordinator × TransactionResult :=
  if !c.initialized then
    (c, .invalidArgument)
  else if c.state = .failed then
    (c, .aborted)
  else if c.state ≠ .active then
    (c, .invalidState)
  else if c.activeStreamCount ≠ 0 then
    (c, .busy)
  else
    ({ c with activeStreamCount := 1 }, .ok)

/-- `vps_transaction_stream_end`. -/
def transactionStreamEnd (c : Coordinator) : Coordinator × TransactionResult :=
  if !c.initialized || c.activeStreamCount == 0 then
    (c, .invalidState)
  else
    ({ c with activeStreamCount := 0 }, .ok)

/-- `vps_transaction_command_allowed`. -/
def transactionCommandAllowed (c : Coordinator) : TransactionResult :=
  if !c.initialized then .invalidArgument
  else if c.state = .failed then .aborted
  else if c.state = .ambiguous then .ambiguousOutcome
  else if c.state ≠ .active then .invalidState
  else if c.activeStreamCount = 0 then .ok
  else .busy

/-- `vps_transaction_mark_failed`; the SQLSTATE is kept only at its full length. -/
def transactionMarkFailed (c : Coordinator) (sqlstate : Option String) :
    Coordinator × TransactionResult :=
  if !c.initialized || (c.state ≠ .active && c.state ≠ .failed) then
    (c, .invalidState)
  else
    ({ c with
        state := .failed
        lastSqlstate := match sqlstate with
          | some text => if text.length = sqlstateLength then text else c.lastSqlstate
          | none => c.lastSqlstate }, .ok)

/-! ## Savepoints -/

/-- `vps_transaction_find_savepoint`: the index of a level on the list, `none` for the source's
`-1`. -/
def transactionFindSavepoint (c : Coordinator) (level : ℤ) : Option ℕ :=
  c.savepoints.toList.findIdx? (· == level)

/-- `vps_transaction_savepoint`. -/
def transactionSavepoint (c : Coordinator) (level : ℤ) : Coordinator × TransactionResult :=
  if level < 0 then
    (c, .invalidArgument)
  else if transactionCommandAllowed c ≠ .ok then
    (c, transactionCommandAllowed c)
  else if (transactionFindSavepoint c level).isSome then
    (c, .ok)
  else match c.savepoints.push? level with
  | none => (c, .limitExceeded)
  | some savepoints => ({ c with savepoints := savepoints }, .commandRequired)

/-- `vps_transaction_rollback_to`: also the way out of `failed`. -/
def transactionRollbackTo (c : Coordinator) (level : ℤ) : Coordinator × TransactionResult :=
  if !c.initialized || level < 0 then
    (c, .invalidArgument)
  else if c.activeStreamCount ≠ 0 then
    (c, .busy)
  else if c.state ≠ .active ∧ c.state ≠ .failed then
    (c, .invalidState)
  else match transactionFindSavepoint c level with
  | none => (c, .invalidState)
  | some found =>
    ({ c with
        savepoints := c.savepoints.take (found + 1)
        state := .active
        lastSqlstate := "" }, .commandRequired)

/-- `vps_transaction_release`: a level that is not on the list is taken as already released. -/
def transactionRelease (c : Coordinator) (level : ℤ) : Coordinator × TransactionResult :=
  if level < 0 then
    (c, .invalidArgument)
  else if transactionCommandAllowed c ≠ .ok then
    (c, transactionCommandAllowed c)
  else match transactionFindSavepoint c level with
  | none => (c, .ok)
  | some found => ({ c with savepoints := c.savepoints.take found }, .commandRequired)

/-! ## Ending -/

/-- `vps_transaction_end`. -/
def transactionEnd (c : Coordinator) (operation : EndOperation) :
    Coordinator × TransactionResult :=
  if !c.initialized then
    (c, .invalidArgument)
  else if c.state = .idle then
    (c, .ok)
  else if c.state = .ambiguous then
    (c, .ambiguousOutcome)
  else if c.activeStreamCount ≠ 0 then
    (c, .busy)
  else if operation = .commit ∧ c.state = .failed then
    (c, .aborted)
  else if c.state ≠ .active ∧ ¬(operation = .rollback ∧ c.state = .failed) then
    (c, .invalidState)
  else
    ({ c with state := .ending, endingOperation := some operation }, .commandRequired)

/-- `vps_transaction_end_complete`. -/
def transactionEndComplete (c : Coordinator) (success connectionLost : Bool) :
    Coordinator × TransactionResult :=
  if c.state ≠ .ending then
    (c, .invalidState)
  else if success then
    (transactionResetActive c, .ok)
  else if connectionLost then
    ({ c with state := .ambiguous, activeStreamCount := 0 }, .ambiguousOutcome)
  else
    ({ c with state := .failed }, .aborted)

end Vps
