import Mathlib.Data.List.Nodup
import VirtualPostgreSQL.Transaction.Coordinator

/-!
# Transaction/Gate — what holds of the coordinator in every run

The tables of a database context call the coordinator in any order, and also out of turn: each
operation has its own guards, and nothing outside them keeps the order right.  `Move` says once what
a call can do — a refusal that leaves the coordinator alone, or one of the transitions with the
guards it went through — and every invariant is read off it.  A run starts at `vps_transaction_init`
and may initialise and clean up again at any point.
-/

namespace Vps

open Machinery

/-! ## The calls -/

/-- A call of the coordinator, with what its caller supplies. -/
inductive CoordinatorCall
  | init
  | cleanup
  | begin (identity : ConnectionIdentity) (participantId : UInt64) (appendOk : Bool)
  | beginComplete (success : Bool)
  | streamBegin
  | streamEnd
  | commandAllowed
  | markFailed (sqlstate : Option String)
  | savepoint (level : ℤ)
  | rollbackTo (level : ℤ)
  | release (level : ℤ)
  | finish (operation : EndOperation)
  | endComplete (success connectionLost : Bool)
  deriving DecidableEq

namespace CoordinatorCall

/-- The coordinator after the call, with the call's result; `vps_transaction_cleanup` has none, and
is given `ok`. -/
def answer (c : Coordinator) : CoordinatorCall → Coordinator × TransactionResult
  | init => (transactionInit, .ok)
  | cleanup => (transactionCleanup c, .ok)
  | begin identity participantId appendOk => transactionBegin c identity participantId appendOk
  | beginComplete success => transactionBeginComplete c success
  | streamBegin => transactionStreamBegin c
  | streamEnd => transactionStreamEnd c
  | commandAllowed => (c, transactionCommandAllowed c)
  | markFailed sqlstate => transactionMarkFailed c sqlstate
  | savepoint level => transactionSavepoint c level
  | rollbackTo level => transactionRollbackTo c level
  | release level => transactionRelease c level
  | finish operation => transactionEnd c operation
  | endComplete success connectionLost => transactionEndComplete c success connectionLost

/-- The calls that start over. -/
def Resets (call : CoordinatorCall) : Prop := call = init ∨ call = cleanup

/-- It is one of two calls. -/
instance (call : CoordinatorCall) : Decidable call.Resets := inferInstanceAs (Decidable (_ ∨ _))

/-- The calls that hand a command to the connection of a running transaction. -/
def Commands : CoordinatorCall → Prop
  | savepoint _ | release _ | rollbackTo _ | finish _ => True
  | _ => False

end CoordinatorCall

/-- A result that lets the caller go on. -/
def TransactionResult.Permits (r : TransactionResult) : Prop := r = .ok ∨ r = .commandRequired

/-- It is one of two answers. -/
instance (r : TransactionResult) : Decidable r.Permits := inferInstanceAs (Decidable (_ ∨ _))

/-! ## What a call can do -/

open CoordinatorCall in
/-- **The transitions**, each with the guards its call went through. -/
inductive Move (c : Coordinator) : CoordinatorCall → Coordinator × TransactionResult → Prop
  | refuse {call r} (hr : ¬r.Permits) : Move c call (c, r)
  | init : Move c init (transactionInit, .ok)
  | cleanup : Move c cleanup (.zero, .ok)
  | start {identity participantId} (hstate : c.state = .idle) (hbuilt : identity.built = true) :
      Move c (begin identity participantId true)
        ({ c with
            identity := c.identity ++ identity.canonical
            credentialGeneration := identity.credentialGeneration
            configurationGeneration := identity.configurationGeneration
            identityFingerprint := identity.fingerprint
            participants := .single participantId (by decide)
            generation := c.generation + 1
            state := .beginning }, .commandRequired)
  | rejoin {identity participantId appendOk} (hstate : c.state = .active ∨ c.state = .failed)
      (hmatches : transactionIdentityMatches c identity = true)
      (hmem : participantId ∈ c.participants.toList) :
      Move c (begin identity participantId appendOk) (c, .ok)
  | join {identity participantId appendOk participants}
      (hstate : c.state = .active ∨ c.state = .failed)
      (hmatches : transactionIdentityMatches c identity = true)
      (hmem : participantId ∉ c.participants.toList)
      (hlist : participants.toList = c.participants.toList ++ [participantId]) :
      Move c (begin identity participantId appendOk) ({ c with participants := participants }, .ok)
  | started (hstate : c.state = .beginning) :
      Move c (beginComplete true) ({ c with state := .active }, .ok)
  | notStarted (hstate : c.state = .beginning) :
      Move c (beginComplete false) (transactionResetActive c, .invalidState)
  | streamBegin (hstate : c.state = .active) :
      Move c streamBegin ({ c with activeStreamCount := 1 }, .ok)
  | streamEnd (hcount : c.activeStreamCount ≠ 0) :
      Move c streamEnd ({ c with activeStreamCount := 0 }, .ok)
  | allowed (hstate : c.state = .active) : Move c commandAllowed (c, .ok)
  | markFailed {sqlstate lastSqlstate} (hstate : c.state = .active ∨ c.state = .failed) :
      Move c (markFailed sqlstate) ({ c with state := .failed, lastSqlstate := lastSqlstate }, .ok)
  | savepoint {level r savepoints} (hstate : c.state = .active) (hcount : c.activeStreamCount = 0) :
      Move c (savepoint level) ({ c with savepoints := savepoints }, r)
  | rollbackTo {level savepoints} (hstate : c.state = .active ∨ c.state = .failed)
      (hcount : c.activeStreamCount = 0) :
      Move c (rollbackTo level)
        ({ c with savepoints := savepoints, state := .active, lastSqlstate := "" },
          .commandRequired)
  | release {level r savepoints} (hstate : c.state = .active) (hcount : c.activeStreamCount = 0) :
      Move c (release level) ({ c with savepoints := savepoints }, r)
  | nothing {operation} (hstate : c.state = .idle) : Move c (finish operation) (c, .ok)
  | finish {operation} (hcount : c.activeStreamCount = 0)
      (hstate : c.state = .active ∨ operation = .rollback ∧ c.state = .failed) :
      Move c (finish operation)
        ({ c with state := .ending, endingOperation := some operation }, .commandRequired)
  | ended {connectionLost} (hstate : c.state = .ending) :
      Move c (endComplete true connectionLost) (transactionResetActive c, .ok)
  | lost (hstate : c.state = .ending) :
      Move c (endComplete false true)
        ({ c with state := .ambiguous, activeStreamCount := 0 }, .ambiguousOutcome)
  | notEnded (hstate : c.state = .ending) :
      Move c (endComplete false false) ({ c with state := .failed }, .aborted)

section Transitions

variable (c : Coordinator)

/-- A command is allowed in an active transaction without a stream. -/
theorem transactionCommandAllowed_ok {c : Coordinator} (h : transactionCommandAllowed c = .ok) :
    c.state = .active ∧ c.activeStreamCount = 0 := by
  unfold transactionCommandAllowed at h
  split_ifs at h with _ _ _ hstate hcount
  exact ⟨not_not.mp hstate, hcount⟩

theorem transactionCommandAllowed_ne (c : Coordinator) :
    transactionCommandAllowed c ≠ .commandRequired := by
  unfold transactionCommandAllowed
  split_ifs <;> simp

/-- **Every call moves the coordinator** as `Move` says, as joining a transaction does. -/
theorem transactionJoin_move {identity : ConnectionIdentity} (participantId : UInt64)
    (appendOk : Bool) (hstate : c.state = .active ∨ c.state = .failed) :
    Move c (.begin identity participantId appendOk) (transactionJoin c identity participantId) := by
  unfold transactionJoin
  split_ifs with hmatches hmem
  · exact .refuse (by decide)
  · exact .rejoin hstate (by simpa using hmatches) (by simpa [transactionHasParticipant] using hmem)
  · split
    · exact .refuse (by decide)
    · exact .join hstate (by simpa using hmatches) (by simpa [transactionHasParticipant] using hmem)
        (Bounded.push?_eq_some ‹_›)

/-- A BEGIN moves it so. -/
theorem transactionBegin_move (identity : ConnectionIdentity) (participantId : UInt64)
    (appendOk : Bool) :
    Move c (.begin identity participantId appendOk)
      (transactionBegin c identity participantId appendOk) := by
  unfold transactionBegin
  split
  · exact .refuse (by decide)
  · rename_i hargs
    have hbuilt : identity.built = true := by simp at hargs; exact hargs.1.2
    split
    · exact .refuse (by decide)
    · cases appendOk
      · exact .refuse (by decide)
      · exact .start ‹_› hbuilt
    · exact transactionJoin_move c participantId appendOk (.inl ‹_›)
    · exact transactionJoin_move c participantId appendOk (.inr ‹_›)
    · exact .refuse (by decide)
    · exact .refuse (by decide)

/-- Hearing how BEGIN went moves it so. -/
theorem transactionBeginComplete_move (success : Bool) :
    Move c (.beginComplete success) (transactionBeginComplete c success) := by
  unfold transactionBeginComplete
  split_ifs with hstate hsuccess
  · exact .refuse (by decide)
  · obtain rfl : success = false := by simpa using hsuccess
    exact .notStarted (not_not.mp hstate)
  · obtain rfl : success = true := by simpa using hsuccess
    exact .started (not_not.mp hstate)

/-- A stream that begins moves it so. -/
theorem transactionStreamBegin_move :
    Move c .streamBegin (transactionStreamBegin c) := by
  unfold transactionStreamBegin
  split_ifs with _ _ hstate
  · exact .refuse (by decide)
  · exact .refuse (by decide)
  · exact .refuse (by decide)
  · exact .refuse (by decide)
  · exact .streamBegin (not_not.mp hstate)

/-- A stream that ends moves it so. -/
theorem transactionStreamEnd_move :
    Move c .streamEnd (transactionStreamEnd c) := by
  unfold transactionStreamEnd
  split_ifs with hcount
  · exact .refuse (by decide)
  · simp only [Bool.or_eq_true, beq_iff_eq, not_or] at hcount
    exact .streamEnd hcount.2

theorem transactionCommandAllowed_move :
    Move c .commandAllowed (c, transactionCommandAllowed c) := by
  by_cases hok : transactionCommandAllowed c = .ok
  · rw [hok]
    exact .allowed (transactionCommandAllowed_ok hok).1
  · exact .refuse (not_or.mpr ⟨hok, transactionCommandAllowed_ne c⟩)

/-- A failure moves it so. -/
theorem transactionMarkFailed_move (sqlstate : Option String) :
    Move c (.markFailed sqlstate) (transactionMarkFailed c sqlstate) := by
  unfold transactionMarkFailed
  split_ifs with hstate
  · exact .refuse (by decide)
  · refine .markFailed ?_
    simp only [Bool.or_eq_true, Bool.and_eq_true, decide_eq_true_eq, not_or] at hstate
    exact or_iff_not_imp_left.mpr fun hactive => not_not.mp fun hfailed =>
      hstate.2 ⟨hactive, hfailed⟩

/-- A savepoint moves it so. -/
theorem transactionSavepoint_move (level : ℤ) :
    Move c (.savepoint level) (transactionSavepoint c level) := by
  unfold transactionSavepoint
  split_ifs with _ hok
  · exact .refuse (by decide)
  · exact .refuse (not_or.mpr ⟨hok, transactionCommandAllowed_ne c⟩)
  · obtain ⟨hstate, hcount⟩ := transactionCommandAllowed_ok (not_not.mp hok)
    exact @Move.savepoint c level _ c.savepoints hstate hcount
  · obtain ⟨hstate, hcount⟩ := transactionCommandAllowed_ok (not_not.mp hok)
    split
    · exact .refuse (by decide)
    · exact .savepoint hstate hcount

/-- A rollback to a savepoint moves it so. -/
theorem transactionRollbackTo_move (level : ℤ) :
    Move c (.rollbackTo level) (transactionRollbackTo c level) := by
  unfold transactionRollbackTo
  split_ifs with _ hcount hstate
  · exact .refuse (by decide)
  · exact .refuse (by decide)
  · exact .refuse (by decide)
  · split
    · exact .refuse (by decide)
    · refine .rollbackTo ?_ (not_not.mp hcount)
      exact or_iff_not_imp_left.mpr fun hactive => not_not.mp fun hfailed =>
        hstate ⟨hactive, hfailed⟩

/-- A release moves it so. -/
theorem transactionRelease_move (level : ℤ) :
    Move c (.release level) (transactionRelease c level) := by
  unfold transactionRelease
  split_ifs with _ hok
  · exact .refuse (by decide)
  · exact .refuse (not_or.mpr ⟨hok, transactionCommandAllowed_ne c⟩)
  · obtain ⟨hstate, hcount⟩ := transactionCommandAllowed_ok (not_not.mp hok)
    split
    · exact @Move.release c level _ c.savepoints hstate hcount
    · exact .release hstate hcount

/-- The end of a transaction moves it so. -/
theorem transactionEnd_move (operation : EndOperation) :
    Move c (.finish operation) (transactionEnd c operation) := by
  unfold transactionEnd
  split_ifs with _ hidle _ hcount _ hstate
  · exact .refuse (by decide)
  · exact .nothing hidle
  · exact .refuse (by decide)
  · exact .refuse (by decide)
  · exact .refuse (by decide)
  · exact .refuse (by decide)
  · refine .finish (not_not.mp hcount) ?_
    exact or_iff_not_imp_left.mpr fun hactive => not_not.mp fun hfailed =>
      hstate ⟨hactive, hfailed⟩

/-- Hearing how the end went moves it so. -/
theorem transactionEndComplete_move (success connectionLost : Bool) :
    Move c (.endComplete success connectionLost)
      (transactionEndComplete c success connectionLost) := by
  unfold transactionEndComplete
  split_ifs with hstate hsuccess hlost
  · exact .refuse (by decide)
  · rw [hsuccess]
    exact .ended (not_not.mp hstate)
  · obtain rfl : success = false := by simpa using hsuccess
    rw [hlost]
    exact .lost (not_not.mp hstate)
  · obtain rfl : success = false := by simpa using hsuccess
    obtain rfl : connectionLost = false := by simpa using hlost
    exact .notEnded (not_not.mp hstate)

/-- **A call makes one of the moves.** -/
theorem answer_move (call : CoordinatorCall) : Move c call (call.answer c) := by
  cases call with
  | init => exact .init
  | cleanup => exact .cleanup
  | begin identity participantId appendOk =>
    exact transactionBegin_move c identity participantId appendOk
  | beginComplete success => exact transactionBeginComplete_move c success
  | streamBegin => exact transactionStreamBegin_move c
  | streamEnd => exact transactionStreamEnd_move c
  | commandAllowed => exact transactionCommandAllowed_move c
  | markFailed sqlstate => exact transactionMarkFailed_move c sqlstate
  | savepoint level => exact transactionSavepoint_move c level
  | rollbackTo level => exact transactionRollbackTo_move c level
  | release level => exact transactionRelease_move c level
  | finish operation => exact transactionEnd_move c operation
  | endComplete success connectionLost =>
    exact transactionEndComplete_move c success connectionLost

end Transitions

/-! ## The run -/

/-- A coordinator with the record of the tables it let in: one entry for every `begin` it permitted
since it was last idle. -/
structure Attendance where
  coordinator : Coordinator
  joins : List (UInt64 × ConnectionIdentity)
  deriving DecidableEq

/-- The identity is the one the coordinator has on record. -/
def Coordinator.Records (c : Coordinator) (identity : ConnectionIdentity) : Prop :=
  c.identity = identity.canonical ∧ c.credentialGeneration = identity.credentialGeneration ∧
    c.configurationGeneration = identity.configurationGeneration

/-- An identity that matches is the one that was recorded. -/
theorem records_of_matches {c : Coordinator} {identity : ConnectionIdentity}
    (h : transactionIdentityMatches c identity = true) : c.Records identity := by
  simp only [transactionIdentityMatches, Bool.and_eq_true, Bool.or_eq_true, beq_iff_eq,
    List.length_eq_zero_iff] at h
  obtain ⟨⟨⟨⟨-, hlength⟩, hcredential⟩, hconfiguration⟩, hbytes⟩ := h
  refine ⟨?_, hcredential, hconfiguration⟩
  obtain hempty | hbytes := hbytes
  · rw [hempty, List.length_nil, List.length_eq_zero_iff] at hlength
    rw [hlength, hempty]
  · exact hbytes

namespace Attendance

/-- The entry a call adds to the record. -/
def entry : CoordinatorCall → TransactionResult → List (UInt64 × ConnectionIdentity)
  | .begin identity participantId _, r => if r.Permits then [(participantId, identity)] else []
  | _, _ => []

/-- One call; an idle coordinator has let nobody in. -/
def step (s : Attendance) (call : CoordinatorCall) : Attendance :=
  let answer := call.answer s.coordinator
  { coordinator := answer.1
    joins := if answer.1.state = .idle then [] else s.joins ++ entry call answer.2 }

/-- The state a run of calls ends in. -/
def reached (calls : List CoordinatorCall) : Attendance := calls.foldl step ⟨transactionInit, []⟩

end Attendance

/-- **The gate**: what holds between any two calls. -/
structure Gate (s : Attendance) : Prop where
  joined : ∀ participant, participant ∈ s.coordinator.participants.toList ↔
    participant ∈ s.joins.map Prod.fst
  agreed : ∀ entry ∈ s.joins, s.coordinator.Records entry.2
  distinct : s.coordinator.participants.toList.Nodup
  single : s.coordinator.activeStreamCount ≤ 1
  blank : s.coordinator.state = .idle → s.coordinator.identity = [] ∧ s.joins = []
  still : s.coordinator.state ≠ .active → s.coordinator.state ≠ .failed →
    s.coordinator.activeStreamCount = 0

namespace Gate

variable {s : Attendance}

theorem zero (initialized : Bool) :
    Gate ⟨{ Coordinator.zero with initialized := initialized }, []⟩ where
  joined := by simp [Coordinator.zero]
  agreed := by simp
  distinct := List.nodup_nil
  single := Nat.zero_le 1
  blank := fun _ => ⟨rfl, rfl⟩
  still := fun _ _ => rfl

theorem resetActive (c : Coordinator) : Gate ⟨transactionResetActive c, []⟩ where
  joined := by simp [transactionResetActive]
  agreed := by simp
  distinct := List.nodup_nil
  single := Nat.zero_le 1
  blank := fun _ => ⟨rfl, rfl⟩
  still := fun _ _ => rfl

/-- A call that touches neither the participants nor the identity keeps the record. -/
theorem frame (h : Gate s) {c : Coordinator}
    (hparticipants : c.participants = s.coordinator.participants)
    (hidentity : c.identity = s.coordinator.identity)
    (hcredential : c.credentialGeneration = s.coordinator.credentialGeneration)
    (hconfiguration : c.configurationGeneration = s.coordinator.configurationGeneration)
    (hidle : c.state = .idle → s.coordinator.state = .idle) (hsingle : c.activeStreamCount ≤ 1)
    (hstill : c.state ≠ .active → c.state ≠ .failed → c.activeStreamCount = 0) :
    Gate ⟨c, if c.state = .idle then [] else s.joins ++ []⟩ := by
  have hjoins : (if c.state = .idle then [] else s.joins ++ []) = s.joins := by
    split
    · exact (h.blank (hidle ‹_›)).2.symm
    · exact List.append_nil _
  rw [hjoins]
  constructor
  · rw [hparticipants]
    exact h.joined
  · intro entry hentry
    obtain ⟨hbytes, hcredential', hconfiguration'⟩ := h.agreed entry hentry
    exact ⟨hidentity.trans hbytes, hcredential.trans hcredential',
      hconfiguration.trans hconfiguration'⟩
  · rw [hparticipants]
    exact h.distinct
  · exact hsingle
  · intro hstate
    obtain ⟨hblank, hnone⟩ := h.blank (hidle hstate)
    exact ⟨hidentity.trans hblank, hnone⟩
  · exact hstill

/-- The first table of a transaction. -/
theorem start (h : Gate s) {identity : ConnectionIdentity} (participantId : UInt64)
    (hstate : s.coordinator.state = .idle) {c : Coordinator}
    (hparticipants : c.participants.toList = [participantId])
    (hidentity : c.identity = s.coordinator.identity ++ identity.canonical)
    (hcredential : c.credentialGeneration = identity.credentialGeneration)
    (hconfiguration : c.configurationGeneration = identity.configurationGeneration)
    (hbeginning : c.state = .beginning)
    (hstreams : c.activeStreamCount = s.coordinator.activeStreamCount) :
    Gate ⟨c, s.joins ++ [(participantId, identity)]⟩ := by
  obtain ⟨hblank, hjoins⟩ := h.blank hstate
  have hzero : c.activeStreamCount = 0 := by
    rw [hstreams]
    exact h.still (by simp [hstate]) (by simp [hstate])
  constructor
  · simp [hparticipants, hjoins]
  · intro entry hentry
    rw [hjoins, List.nil_append, List.mem_singleton] at hentry
    rw [hentry]
    exact ⟨by rw [hidentity, hblank, List.nil_append], hcredential, hconfiguration⟩
  · simp [hparticipants]
  · exact hzero.trans_le zero_le_one
  · simp [hbeginning]
  · exact fun _ _ => hzero

/-- A further table, or a table that joins again. -/
theorem join (h : Gate s) {identity : ConnectionIdentity} {participantId : UInt64}
    (hstate : s.coordinator.state = .active ∨ s.coordinator.state = .failed)
    (hmatches : transactionIdentityMatches s.coordinator identity = true)
    {participants : Bounded UInt64 transactionMaxParticipants}
    (hmem : ∀ participant, participant ∈ participants.toList ↔
      participant ∈ s.coordinator.participants.toList ∨ participant = participantId)
    (hdistinct : participants.toList.Nodup) :
    Gate ⟨{ s.coordinator with participants := participants },
      if s.coordinator.state = .idle then [] else s.joins ++ [(participantId, identity)]⟩ := by
  have hbusy : s.coordinator.state ≠ .idle := by
    obtain hstate | hstate := hstate <;> simp [hstate]
  rw [if_neg hbusy]
  constructor
  · intro participant
    rw [hmem, h.joined, List.map_append, List.mem_append, List.map_singleton, List.mem_singleton]
  · intro entry hentry
    obtain hentry | hentry := List.mem_append.mp hentry
    · exact h.agreed entry hentry
    · rw [List.mem_singleton.mp hentry]
      exact records_of_matches hmatches
  · exact hdistinct
  · exact h.single
  · exact fun hidle => absurd hidle hbusy
  · exact h.still

/-- **One call keeps the gate.** -/
theorem step (h : Gate s) (call : CoordinatorCall) : Gate (s.step call) := by
  have hmove := answer_move s.coordinator call
  unfold Attendance.step
  generalize call.answer s.coordinator = answer at hmove ⊢
  cases hmove with
  | @refuse _ r hr =>
    have hentry : Attendance.entry call r = [] := by
      cases call <;> simp [Attendance.entry, hr]
    dsimp only
    rw [hentry]
    exact h.frame rfl rfl rfl rfl id h.single h.still
  | init => exact .zero true
  | cleanup => exact .zero false
  | start hstate hbuilt => exact h.start _ hstate rfl rfl rfl rfl rfl rfl
  | rejoin hstate hmatches hmem =>
    refine h.join hstate hmatches (fun participant => ⟨.inl, ?_⟩) h.distinct
    rintro (hjoined | rfl)
    exacts [hjoined, hmem]
  | join hstate hmatches hmem hlist =>
    refine h.join hstate hmatches (fun participant => ?_) ?_
    · rw [hlist, List.mem_append, List.mem_singleton]
    · rw [hlist, List.nodup_append]
      refine ⟨h.distinct, List.nodup_singleton _, fun participant hjoined other hother => ?_⟩
      rintro rfl
      exact hmem (List.mem_singleton.mp hother ▸ hjoined)
  | started hstate =>
    exact h.frame rfl rfl rfl rfl nofun h.single fun hactive => absurd rfl hactive
  | notStarted hstate => exact .resetActive _
  | streamBegin hstate =>
    exact h.frame rfl rfl rfl rfl id le_rfl fun hactive => absurd hstate hactive
  | streamEnd hcount => exact h.frame rfl rfl rfl rfl id (Nat.zero_le 1) fun _ _ => rfl
  | allowed hstate => exact h.frame rfl rfl rfl rfl id h.single h.still
  | markFailed hstate =>
    exact h.frame rfl rfl rfl rfl nofun h.single fun _ hfailed => absurd rfl hfailed
  | savepoint hstate hcount => exact h.frame rfl rfl rfl rfl id h.single h.still
  | rollbackTo hstate hcount =>
    exact h.frame rfl rfl rfl rfl nofun h.single fun hactive => absurd rfl hactive
  | release hstate hcount => exact h.frame rfl rfl rfl rfl id h.single h.still
  | nothing hstate => exact h.frame rfl rfl rfl rfl id h.single h.still
  | finish hcount hstate => exact h.frame rfl rfl rfl rfl nofun h.single fun _ _ => hcount
  | ended hstate => exact .resetActive _
  | lost hstate => exact h.frame rfl rfl rfl rfl nofun (Nat.zero_le 1) fun _ _ => rfl
  | notEnded hstate =>
    exact h.frame rfl rfl rfl rfl nofun h.single fun _ hfailed => absurd rfl hfailed

/-- **Every run keeps the gate.** -/
theorem reached (calls : List CoordinatorCall) : Gate (Attendance.reached calls) :=
  List.foldlRecOn calls Attendance.step (.zero true) fun _ h call _ => h.step call

end Gate

/-! ## The answers -/

section Answers

variable {c : Coordinator} {call : CoordinatorCall} {answer : Coordinator × TransactionResult}

/-- A command is handed out only between two streams. -/
theorem not_commandRequired_of_stream (hmove : Move c call answer) (hcall : call.Commands)
    (hcount : c.activeStreamCount ≠ 0) : answer.2 ≠ .commandRequired := by
  cases hmove with
  | refuse hr => exact fun hrequired => hr (.inr hrequired)
  | savepoint _ hzero => exact absurd hzero hcount
  | rollbackTo _ hzero => exact absurd hzero hcount
  | release _ hzero => exact absurd hzero hcount
  | nothing _ => simp
  | finish hzero _ => exact absurd hzero hcount
  | _ => exact hcall.elim

/-- A failed transaction is not committed. -/
theorem not_commandRequired_of_failed (hmove : Move c (.finish .commit) answer)
    (hfailed : c.state = .failed) : answer.2 ≠ .commandRequired := by
  cases hmove with
  | refuse hr => exact fun hrequired => hr (.inr hrequired)
  | nothing _ => simp
  | finish _ hstate => simp [hfailed] at hstate

/-- **An ambiguous outcome is final**: nothing is permitted any more, and the state stays. -/
theorem ambiguous_final (hmove : Move c call answer) (hcall : ¬call.Resets)
    (hstate : c.state = .ambiguous) (hcount : c.activeStreamCount = 0) :
    answer.1 = c ∧ ¬answer.2.Permits := by
  cases hmove with
  | refuse hr => exact ⟨rfl, hr⟩
  | init => exact absurd (.inl rfl) hcall
  | cleanup => exact absurd (.inr rfl) hcall
  | streamEnd hne => exact absurd hcount hne
  | _ => simp_all

end Answers

namespace Attendance

/-- **An ambiguous outcome is final in every run** that does not start over. -/
theorem step_ambiguous {s : Attendance} (h : Gate s) {call : CoordinatorCall}
    (hcall : ¬call.Resets) (hstate : s.coordinator.state = .ambiguous) :
    (s.step call).coordinator = s.coordinator :=
  (ambiguous_final (answer_move s.coordinator call) hcall hstate
    (h.still (by simp [hstate]) (by simp [hstate]))).1

/-- **An ambiguous transaction stays as it is** until it is reset. -/
theorem foldl_ambiguous {s : Attendance} (h : Gate s) (hstate : s.coordinator.state = .ambiguous)
    {calls : List CoordinatorCall} (hcalls : ∀ call ∈ calls, ¬call.Resets) :
    (calls.foldl step s).coordinator = s.coordinator := by
  induction calls generalizing s with
  | nil => rfl
  | cons call calls ih =>
    have hstep := step_ambiguous h (hcalls call List.mem_cons_self) hstate
    rw [List.foldl_cons, ih (h.step call) (hstep ▸ hstate)
      fun call hcall => hcalls call (List.mem_cons_of_mem _ hcall), hstep]

end Attendance

/-- **The transaction gate.**  After every run of calls: the tables on record are those let in since
the coordinator was last idle, each of them once and all under the identity on record; at most one
stream is open; while it is, no savepoint call and no end asks for a command; a failed transaction
is never to be committed; and from an ambiguous outcome no calls but `init` and `cleanup` lead away,
nor is any of them permitted. -/
theorem transaction_gate (calls : List CoordinatorCall) :
    let s := Attendance.reached calls
    (∀ participant ∈ s.coordinator.participants.toList,
        ∃ identity, (participant, identity) ∈ s.joins) ∧
      (∀ entry ∈ s.joins, s.coordinator.Records entry.2) ∧
      s.coordinator.participants.toList.Nodup ∧
      (s.coordinator.activeStreamCount = 0 ∨ s.coordinator.activeStreamCount = 1) ∧
      (s.coordinator.activeStreamCount ≠ 0 → ∀ call : CoordinatorCall, call.Commands →
        (call.answer s.coordinator).2 ≠ .commandRequired) ∧
      (s.coordinator.state = .failed →
        (transactionEnd s.coordinator .commit).2 ≠ .commandRequired) ∧
      (s.coordinator.state = .ambiguous → ∀ further : List CoordinatorCall,
        (∀ call ∈ further, ¬call.Resets) →
        (Attendance.reached (calls ++ further)).coordinator.state = .ambiguous ∧
          ∀ call : CoordinatorCall, ¬call.Resets →
            ¬(call.answer (Attendance.reached (calls ++ further)).coordinator).2.Permits) := by
  intro s
  have hgate : Gate s := .reached calls
  refine ⟨?_, hgate.agreed, hgate.distinct, Nat.le_one_iff_eq_zero_or_eq_one.mp hgate.single, ?_,
    ?_, ?_⟩
  · intro participant hparticipant
    obtain ⟨entry, hentry, rfl⟩ := List.mem_map.mp ((hgate.joined participant).mp hparticipant)
    exact ⟨entry.2, hentry⟩
  · exact fun hstream call hcall =>
      not_commandRequired_of_stream (answer_move s.coordinator call) hcall hstream
  · exact fun hfailed =>
      not_commandRequired_of_failed (answer_move s.coordinator (.finish .commit)) hfailed
  · intro hstate further hfurther
    have hsame : (Attendance.reached (calls ++ further)).coordinator = s.coordinator := by
      rw [Attendance.reached, List.foldl_append]
      exact Attendance.foldl_ambiguous hgate hstate hfurther
    have hcount := hgate.still (by simp [hstate]) (by simp [hstate])
    rw [hsame]
    exact ⟨hstate, fun call hcall =>
      (ambiguous_final (answer_move s.coordinator call) hcall hstate hcount).2⟩

/-- A `COMMIT` whose connection is lost before the answer. -/
def lostCommit : List CoordinatorCall :=
  [.begin ⟨[112], 1, 1, "p", true⟩ 7 true, .beginComplete true, .streamBegin, .streamEnd,
    .finish .commit, .endComplete false true]

theorem transaction_gate_lostCommit :
    (Attendance.reached lostCommit).coordinator.state = .ambiguous ∧
      ¬(CoordinatorCall.answer (Attendance.reached (lostCommit ++ [.streamEnd])).coordinator
        (.finish .rollback)).2.Permits := by
  have hstate : (Attendance.reached lostCommit).coordinator.state = .ambiguous := rfl
  obtain ⟨-, -, -, -, -, -, hfinal⟩ := transaction_gate lostCommit
  exact ⟨hstate, (hfinal hstate [.streamEnd] (by decide)).2 (.finish .rollback) (by decide)⟩

end Vps
