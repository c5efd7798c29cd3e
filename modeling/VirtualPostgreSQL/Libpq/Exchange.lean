import VirtualPostgreSQL.Libpq.Books

/-!
# Libpq/Exchange — how far an operation has come

While an operation of a connection runs, the notes end in what it has said since it began
(`LibpqSession.Exchanging`): requests that were answered, and then the one that is underway.  Each
round of the poll's loop leads on; so a number of rounds suffices (`healthLoop_spec`).
-/

namespace Vps

open Machinery

/-! ## Requests -/

/-- The requests of the operation that runs. -/
def runningRequests (client : LibpqClient) (c : LibpqConnection) : List HealthRequest :=
  healthRequests client.sessionPlan client.resetMode c.activeOperation

/-- How many requests have been answered. -/
def healthIndex (c : LibpqConnection) : ℕ :=
  c.sessionIndex + if c.resetDiscardComplete then 1 else 0

/-- **A place in an operation.** -/
structure Positioned (client : LibpqClient) (c : LibpqConnection) : Prop where
  single : isTransactionOperation c.activeOperation = true ∨ c.activeOperation = .ping →
    c.sessionIndex = 0
  discarded : c.resetDiscardComplete = true → c.activeOperation = .reset ∧
    client.resetMode = .discardAll
  discards : healthDiscards client c = true → c.sessionIndex = 0

section Requests

variable {client : LibpqClient} {c : LibpqConnection}

theorem Positioned.first (h : Positioned client c)
    (hone : isTransactionOperation c.activeOperation = true ∨ c.activeOperation = .ping) :
    healthIndex c = 0 := by
  have hnot : c.resetDiscardComplete = false := by
    cases hdone : c.resetDiscardComplete with
    | false => rfl
    | true =>
      obtain ⟨hreset, -⟩ := h.discarded hdone
      rw [hreset] at hone
      exact hone.elim Bool.noConfusion ClientOperation.noConfusion
  rw [healthIndex, h.single hone, hnot]
  rfl

theorem healthDiscards_iff : healthDiscards client c = true ↔
    c.activeOperation = .reset ∧ client.resetMode = .discardAll ∧
      c.resetDiscardComplete = false := by
  simp [healthDiscards, and_assoc]

/-- **The requests of a plan**, behind the discard that stands before them. -/
theorem Positioned.settings (h : Positioned client c)
    (hone : isTransactionOperation c.activeOperation = false) (hping : c.activeOperation ≠ .ping)
    (hdiscards : healthDiscards client c = false) (n : ℕ) :
    (runningRequests client c)[healthIndex c + n]? =
      (planRequests client.sessionPlan)[c.sessionIndex + n]? := by
  have hother : c.activeOperation ≠ .reset → c.resetDiscardComplete = false := fun hreset =>
    Bool.eq_false_iff.mpr fun hdone => hreset (h.discarded hdone).1
  unfold runningRequests healthIndex
  cases hop : c.activeOperation with
  | begin | commit | rollback => rw [hop] at hone; cases hone
  | ping => exact absurd hop hping
  | reset =>
    cases hdone : c.resetDiscardComplete with
    | true =>
      rw [healthRequests, if_pos (h.discarded hdone).2, if_pos rfl, Nat.add_right_comm,
        List.singleton_append, List.getElem?_cons_succ]
    | false =>
      have hmode : client.resetMode ≠ .discardAll := fun hmode =>
        Bool.noConfusion (hdiscards.symm.trans (healthDiscards_iff.mpr ⟨hop, hmode, hdone⟩))
      rw [healthRequests, if_neg hmode, if_neg Bool.false_ne_true]
      rfl
  | none | connect | prepare | execute | fetch | cancel =>
    rw [hother (by rw [hop]; exact ClientOperation.noConfusion)]
    rfl

theorem Positioned.discardRequest (h : Positioned client c)
    (hdiscards : healthDiscards client c = true) :
    (runningRequests client c)[healthIndex c]? = some (commandRequest (ascii "DISCARD ALL")) := by
  obtain ⟨hop, hmode, hdone⟩ := healthDiscards_iff.mp hdiscards
  rw [runningRequests, healthIndex, h.discards hdiscards, hdone, hop, healthRequests, if_pos hmode]
  rfl

theorem planRequests_at {plan : SessionPlan} {index : ℕ} :
    (planRequests plan)[index]? = (sessionSettingAt plan index).map (settingRequest plan) := by
  unfold planRequests sessionSettingAt
  split
  · exact List.getElem?_map
  · rfl

/-- The command of a setting of the plan. -/
def settingCommand (plan : SessionPlan) (index : ℕ) : Except ErrorClass (Option LibpqCommand) :=
  match sessionSettingAt plan index with
  | none => .ok none
  | some setting =>
    match sessionSettingValue plan setting with
    | none => .error .config
    | some value =>
      if setting.valueLength ≥ sessionValueSize then .error .config
      else .ok (some (setConfigCommand (sessionParameterName setting.parameter) value))

theorem healthCommand_other (hone : isTransactionOperation c.activeOperation = false) :
    healthCommand client c =
      if healthDiscards client c then .ok (some (plainCommand (ascii "DISCARD ALL")))
      else if c.activeOperation = .ping then .ok (some (plainCommand (ascii "SELECT 1")))
      else settingCommand client.sessionPlan c.sessionIndex := by
  unfold healthCommand
  split
  case h_1 hop | h_2 hop | h_3 hop => rw [hop] at hone; cases hone
  case h_4 => rfl

theorem healthResultValid_other {result : LibpqResult}
    (hone : isTransactionOperation c.activeOperation = false)
    (hdiscards : healthDiscards client c = false) :
    healthResultValid client c result = (result.oneValue && (c.activeOperation == .ping ||
      (sessionSettingAt client.sessionPlan c.sessionIndex).any fun setting =>
        (result.value 0).any fun value =>
        decide (0 ≤ result.valueLength 0) &&
          sessionSettingMatches client.sessionPlan setting value)) := by
  unfold healthResultValid LibpqResult.oneValue
  rw [hone, hdiscards, Bool.or_false, if_neg Bool.false_ne_true]
  cases sessionSettingAt client.sessionPlan c.sessionIndex <;> cases result.value 0 <;>
    cases hstatus : result.status == .tuplesOk <;> cases hrows : result.rowCount == 1 <;>
    cases hfields : result.fieldCount == 1 <;> cases hnull : result.valueIsNull 0 <;>
    cases hping : c.activeOperation == .ping <;> simp [bne, hstatus, hrows, hfields]

theorem settingCommand_request {plan : SessionPlan} {index : ℕ} {command : LibpqCommand}
    (h : settingCommand plan index = .ok (some command)) :
    ∃ setting, sessionSettingAt plan index = some setting ∧
      (settingRequest plan setting).command = command := by
  unfold settingCommand at h
  split at h
  · cases h
  · rename_i setting hsetting
    split at h
    · cases h
    · rename_i value hvalue
      split at h
      · cases h
      · cases h
        refine ⟨setting, hsetting, ?_⟩
        rw [settingRequest, hvalue]
        rfl

theorem settingCommand_none {plan : SessionPlan} {index : ℕ}
    (h : settingCommand plan index = .ok none) :
    sessionSettingAt plan index = none := by
  unfold settingCommand at h
  split at h
  · assumption
  · split at h
    · cases h
    · split at h <;> cases h

/-- **What is sent is the next request.** -/
theorem Positioned.request (h : Positioned client c) {command : LibpqCommand}
    (hcommand : healthCommand client c = .ok (some command)) :
    ∃ request, (runningRequests client c)[healthIndex c]? = some request ∧
      request.command = command := by
  cases hone : isTransactionOperation c.activeOperation with
  | true =>
    rw [h.first (.inl hone)]
    unfold healthCommand at hcommand
    unfold runningRequests
    split at hcommand
    case h_4 hbegin hcommit hrollback =>
      cases hop : c.activeOperation <;> rw [hop] at hone <;>
        first
          | exact (hbegin hop).elim
          | exact (hcommit hop).elim
          | exact (hrollback hop).elim
          | cases hone
    all_goals
      rename_i hop
      cases hcommand
      rw [hop]
      exact ⟨_, rfl, rfl⟩
  | false =>
    rw [healthCommand_other hone] at hcommand
    split at hcommand
    · rename_i hdiscards
      cases hcommand
      exact ⟨_, h.discardRequest hdiscards, rfl⟩
    · rename_i hdiscards
      split at hcommand
      · rename_i hop
        cases hcommand
        rw [h.first (.inr hop), runningRequests, hop]
        exact ⟨_, rfl, rfl⟩
      · rename_i hping
        obtain ⟨setting, hsetting, hsent⟩ := settingCommand_request hcommand
        refine ⟨settingRequest client.sessionPlan setting, ?_, hsent⟩
        have hplan := h.settings hone hping (Bool.eq_false_iff.mpr hdiscards) 0
        rw [Nat.add_zero, Nat.add_zero, planRequests_at, hsetting] at hplan
        exact hplan

/-- **A result that is held to be valid is accepted.** -/
theorem Positioned.accepts (h : Positioned client c) {request : HealthRequest}
    {result : LibpqResult} (hrequest : (runningRequests client c)[healthIndex c]? = some request)
    (hvalid : healthResultValid client c result = true) : request.accepts result = true := by
  cases hone : isTransactionOperation c.activeOperation with
  | true =>
    rw [healthResultValid, hone, Bool.true_or, if_pos rfl] at hvalid
    rw [h.first (.inl hone), runningRequests] at hrequest
    cases hop : c.activeOperation <;> rw [hop] at hone hrequest <;>
      first | (cases hrequest; exact hvalid) | exact Bool.noConfusion hone
  | false =>
    cases hdiscards : healthDiscards client c with
    | true =>
      rw [h.discardRequest hdiscards] at hrequest
      rw [healthResultValid, hdiscards, Bool.or_true, if_pos rfl] at hvalid
      cases hrequest
      exact hvalid
    | false =>
      rw [healthResultValid_other hone hdiscards] at hvalid
      by_cases hop : c.activeOperation = .ping
      · rw [h.first (.inr hop), runningRequests, hop] at hrequest
        cases hrequest
        exact (Bool.and_eq_true_iff.mp hvalid).1
      · have hplan := h.settings hone hop hdiscards 0
        rw [Nat.add_zero, Nat.add_zero, planRequests_at, hrequest] at hplan
        obtain ⟨setting, hsetting, rfl⟩ := Option.map_eq_some_iff.mp hplan.symm
        rw [hsetting, beq_eq_false_iff_ne.mpr hop, Bool.false_or] at hvalid
        exact hvalid

/-- **When nothing is sent, all has been said.** -/
theorem Positioned.done (h : Positioned client c)
    (hle : healthIndex c ≤ (runningRequests client c).length)
    (hcommand : healthCommand client c = .ok none) :
    healthIndex c = (runningRequests client c).length := by
  refine le_antisymm hle (List.getElem?_eq_none_iff.mp ?_)
  cases hone : isTransactionOperation c.activeOperation with
  | true =>
    unfold healthCommand at hcommand
    split at hcommand
    case h_4 hbegin hcommit hrollback =>
      cases hop : c.activeOperation <;> rw [hop] at hone <;>
        first
          | exact (hbegin hop).elim
          | exact (hcommit hop).elim
          | exact (hrollback hop).elim
          | cases hone
    all_goals cases hcommand
  | false =>
    rw [healthCommand_other hone] at hcommand
    split at hcommand
    · cases hcommand
    · rename_i hdiscards
      split at hcommand
      · cases hcommand
      · rename_i hping
        have hplan := h.settings hone hping (Bool.eq_false_iff.mpr hdiscards) 0
        rw [Nat.add_zero, Nat.add_zero, planRequests_at, settingCommand_none hcommand] at hplan
        exact hplan

theorem runningRequests_single
    (hone : isTransactionOperation c.activeOperation = true ∨ c.activeOperation = .ping) :
    (runningRequests client c).length = 1 := by
  unfold runningRequests
  rcases hone with hone | hop
  · cases hop : c.activeOperation <;> rw [hop] at hone <;> first | rfl | cases hone
  · rw [hop]
    rfl

/-- The commands of a connection give no names. -/
theorem preparedName_of_request {request : HealthRequest} (h : request ∈ runningRequests client c) :
    (LibpqEvent.sent request.command).preparedName = none := by
  have hplan : ∀ request ∈ planRequests client.sessionPlan,
      (LibpqEvent.sent request.command).preparedName = none := by
    intro request hmem
    unfold planRequests at hmem
    split at hmem
    · obtain ⟨setting, -, rfl⟩ := List.mem_map.mp hmem
      rfl
    · cases hmem
  unfold runningRequests healthRequests at h
  split at h
  case h_5 =>
    rcases List.mem_append.mp h with h | h
    · split at h
      · rw [List.mem_singleton.mp h]
        rfl
      · cases h
    · exact hplan request h
  case h_6 => exact hplan request h
  all_goals
    rw [List.mem_singleton.mp h]
    rfl

end Requests

/-! ## Operations that run -/

/-- **The request that is underway**, and what has been noted of it. -/
inductive Underway (requests : List HealthRequest) (index : ℕ) :
    LibpqHealthPhase → Bool → List LibpqEvent → Prop
  | send {seen : Bool} : Underway requests index .send seen []
  | flush {request : HealthRequest} (h : requests[index]? = some request) :
    Underway requests index .flush false [.sent request.command]
  | receive {request : HealthRequest} (h : requests[index]? = some request) :
    Underway requests index .receive false [.sent request.command]
  | seen {request : HealthRequest} {key : ℕ} {result : LibpqResult}
    (h : requests[index]? = some request) (haccepts : request.accepts result = true) :
    Underway requests index .receive true [.cleared key, .got key result, .sent request.command]

/-- **An operation that runs** has said what its place says, and nothing else. -/
structure LibpqSession.Exchanging (s : LibpqSession) : Prop where
  positioned : Positioned s.client s.connection
  within : healthIndex s.connection ≤ (runningRequests s.client s.connection).length
  log : ∃ before exchange underway,
    s.log = underway ++ (exchange ++ .began s.connection.activeOperation :: before) ∧
      Answered ((runningRequests s.client s.connection).take (healthIndex s.connection)) exchange ∧
      Underway (runningRequests s.client s.connection) (healthIndex s.connection)
        s.connection.healthPhase s.connection.healthResultSeen underway
  quiet : s.connection.healthPhase = .send → outstanding s.log = false
  trusted : Vps.trusted s.log = true

/-- What no function of a connection changes, once it has a handle. -/
structure LibpqSession.Link where
  client : LibpqClient
  connectionLive : Bool
  statementLive : Bool
  statement : LibpqStatement
  statementCount : ℕ
  handle : Option ℕ
  names : List (List UInt8)
  rows : List ℕ

def LibpqSession.link (s : LibpqSession) : LibpqSession.Link where
  client := s.client
  connectionLive := s.connectionLive
  statementLive := s.statementLive
  statement := s.statement
  statementCount := s.connection.statementCount
  handle := s.connection.postgresqlConnection
  names := preparedNames s.log
  rows := publishedRows s.log

/-- **A connection that has failed.** -/
structure Down (s s' : LibpqSession) : Prop where
  link : s'.link = s.link
  books : s'.Books []
  phase : s'.connection.phase = .failed

/-- **A connection that is ready.** -/
structure Up (s s' : LibpqSession) : Prop where
  link : s'.link = s.link
  books : s'.Books []
  phase : s'.connection.phase = .ready
  quiet : outstanding s'.log = false
  trusted : Vps.trusted s'.log = true

/-- **A connection whose operation runs.** -/
structure Ongoing (s s' : LibpqSession) : Prop where
  link : s'.link = s.link
  books : s'.Books []
  phase : s'.connection.phase = .health
  exchanging : s'.Exchanging
  operation : s'.connection.activeOperation = s.connection.activeOperation

/-- What is left of an operation. -/
def healthLeft (s : LibpqSession) : ℕ :=
  2 * ((runningRequests s.client s.connection).length - healthIndex s.connection) +
    if s.connection.healthPhase = .receive ∧ s.connection.healthResultSeen = true then 0 else 1

/-- **A round of the poll's loop.** -/
inductive HealthTurns (s : LibpqSession) : HealthTurn → LibpqSession → Prop
  | failed {status : ClientStatus} {s' : LibpqSession} (hstatus : status ≠ .ok) (down : Down s s') :
    HealthTurns s (.reply (pollFailed status)) s'
  | complete {s' : LibpqSession} (up : Up s s') : HealthTurns s (.reply pollComplete) s'
  | wait {s' : LibpqSession} (ongoing : Ongoing s s')
    (interest : s'.connection.waitInterest.isSome) :
    HealthTurns s .wait s'
  | again {s' : LibpqSession} (ongoing : Ongoing s s') (less : healthLeft s' < healthLeft s) :
    HealthTurns s .again s'

section Specs

variable {W : Type} {api : LibpqApi W} {s t : LibpqSession}

theorem Down.after (hlink : t.link = s.link) {u : LibpqSession} (h : Down t u) : Down s u :=
  { h with link := h.link.trans hlink }

/-- **A failure fails the connection.** -/
theorem healthFail_spec {errorClass : ErrorClass} (hlink : t.link = s.link) (hbooks : t.Books []) :
    Always (healthFail api errorClass) t fun status s' => status ≠ .ok ∧ Down s s' := by
  refine always_changeConnection (libpqSetError_spec.mono fun status s' h => ?_)
  obtain ⟨hstatus, rfl⟩ := h
  exact ⟨hstatus, hlink, hbooks.setConnection rfl, rfl⟩

theorem healthFail_turns {errorClass : ErrorClass} (hlink : t.link = s.link) (hbooks : t.Books []) :
    Always (healthFail api errorClass >>= fun status =>
      (pure (.reply (pollFailed status)) : LibpqM W HealthTurn)) t (HealthTurns s) :=
  (healthFail_spec hlink hbooks).bind fun _ _ h => Always.done (.failed h.1 h.2)

/-- **An operation that has said all** is completed. -/
theorem healthReady_spec {exchange before : List LibpqEvent} (hbooks : t.Books [])
    (hlink : t.link = s.link)
    (hlog : t.log = exchange ++ .began t.connection.activeOperation :: before)
    (hanswered : Answered (runningRequests t.client t.connection) exchange)
    (hquiet : outstanding t.log = false)
    (htrusted : trusted t.log = true) : Always (healthReady : LibpqM W Unit) t fun _ => Up s :=
  fun _ => ⟨hlink, (hbooks.completed hlog hanswered).setConnection rfl, rfl, hquiet, htrusted⟩

/-- **The next command is sent**, or there is none. -/
theorem healthSend_spec (h : Ongoing s s) (hphase : s.connection.healthPhase = .send) :
    Always (healthSend api) s fun status s' => (status ≠ .ok ∧ Down s s') ∨
      (status = .ok ∧ Up s s') ∨
      (status = .ok ∧ Ongoing s s' ∧ s'.connection.healthPhase = .flush ∧
        healthLeft s' = healthLeft s) := by
  obtain ⟨before, exchange, underway, hlog, hanswered, hunderway⟩ := h.exchanging.log
  have hnone : underway = [] := by
    rw [hphase] at hunderway
    cases hunderway
    rfl
  subst hnone
  rw [List.nil_append] at hlog
  unfold healthSend
  refine Always.look ?_
  split
  · exact (healthFail_spec rfl h.books).mono fun _ _ => .inl
  · rename_i hcommand
    have hall := h.exchanging.positioned.done h.exchanging.within hcommand
    rw [hall, List.take_length] at hanswered
    exact (healthReady_spec h.books rfl hlog hanswered (h.exchanging.quiet hphase)
      h.exchanging.trusted).bind fun _ _ hup => Always.done (.inr (.inl ⟨rfl, hup⟩))
  · rename_i command hcommand
    obtain ⟨request, hrequest, rfl⟩ := h.exchanging.positioned.request hcommand
    have hname := preparedName_of_request (List.mem_of_getElem? hrequest)
    have hbooks : (s.note (.sent request.command)).Books [] :=
      h.books.sent (h.exchanging.quiet hphase) h.exchanging.trusted fun name he => by
        rw [hname] at he; cases he
    have hlink : (s.note (.sent request.command)).link = s.link := by
      simp only [LibpqSession.link, LibpqSession.note, preparedNames, List.filterMap_cons, hname,
        publishedRows]
    refine always_apiSend fun sent => .ite (fun _ => ?_) fun _ =>
      always_changeConnection (Always.done ?_)
    · exact (healthFail_spec hlink hbooks).mono fun _ _ => .inl
    · refine .inr (.inr ⟨rfl, ⟨hlink, hbooks.setConnection rfl, h.phase, ?_, rfl⟩, rfl, ?_⟩)
      · exact
          { positioned := ⟨h.exchanging.positioned.single, h.exchanging.positioned.discarded,
              h.exchanging.positioned.discards⟩
            within := h.exchanging.within
            log := ⟨before, exchange, [.sent request.command], congrArg _ hlog, hanswered,
              .flush hrequest⟩
            quiet := fun he => by cases he
            trusted := h.exchanging.trusted }
      · unfold healthLeft
        rw [if_neg (fun he => by cases he.1), if_neg (fun he => by cases hphase.symm.trans he.1)]
        rfl

/-- **The next request comes**: the connection moves on by one place. -/
theorem Ongoing.next {c : LibpqConnection} {exchange before : List LibpqEvent} (h : Ongoing s s)
    (hphase : s.connection.healthPhase = .receive) (hseen : s.connection.healthResultSeen = true)
    (hlt : healthIndex s.connection < (runningRequests s.client s.connection).length)
    (hlog : (s.note .drained).log = exchange ++ .began s.connection.activeOperation :: before)
    (hanswered : Answered
    ((runningRequests s.client s.connection).take (healthIndex s.connection + 1)) exchange)
    (hop : c.activeOperation = s.connection.activeOperation)
    (hcphase : c.phase = s.connection.phase)
    (hhandle : c.postgresqlConnection = s.connection.postgresqlConnection)
    (hcount : c.statementCount = s.connection.statementCount) (hsend : c.healthPhase = .send)
    (hindex : healthIndex c = healthIndex s.connection + 1) (hposition : Positioned s.client c) :
    Ongoing s ((s.note .drained).setConnection c) ∧
      healthLeft ((s.note .drained).setConnection c) < healthLeft s := by
  have hrequests : runningRequests s.client c = runningRequests s.client s.connection := by
    rw [runningRequests, runningRequests, hop]
  refine ⟨⟨?_, h.books.drained.setConnection hhandle, hcphase.trans h.phase, ?_, hop⟩, ?_⟩
  · simp only [LibpqSession.link, LibpqSession.setConnection, LibpqSession.note, hcount, hhandle]
    rfl
  · refine ⟨hposition, ?_, ⟨before, exchange, [], ?_, ?_, ?_⟩, fun _ => rfl, h.exchanging.trusted⟩
    · show healthIndex c ≤ (runningRequests s.client c).length
      rw [hrequests, hindex]
      exact hlt
    · rw [LibpqSession.setConnection, hop]
      exact hlog
    · show Answered ((runningRequests s.client c).take (healthIndex c)) _
      rw [hrequests, hindex]
      exact hanswered
    · rw [LibpqSession.setConnection, hsend]
      exact .send
  · unfold healthLeft
    rw [if_neg (fun he => by cases hsend.symm.trans he.1), if_pos ⟨hphase, hseen⟩]
    show 2 * ((runningRequests s.client c).length - healthIndex c) + 1 < _
    rw [hrequests, hindex]
    omega

/-- **A command that was answered** leads to the next, or completes its operation. -/
theorem healthCommandComplete_spec (h : Ongoing s s) (hphase : s.connection.healthPhase = .receive)
    (hseen : s.connection.healthResultSeen = true) :
    Always (healthCommandComplete : LibpqM W Unit) (s.note .drained) fun _ s' => Up s s' ∨
      (Ongoing s s' ∧ healthLeft s' < healthLeft s) := by
  obtain ⟨before, exchange, underway, hlog, hanswered, hunderway⟩ := h.exchanging.log
  rw [hphase, hseen] at hunderway
  cases hunderway with
  | @seen request key result hrequest haccepts =>
    have hposition := h.exchanging.positioned
    have hlt : healthIndex s.connection < (runningRequests s.client s.connection).length :=
      (List.getElem?_eq_some_iff.mp hrequest).1
    have hnext :
      Answered ((runningRequests s.client s.connection).take (healthIndex s.connection + 1))
        (.drained :: .cleared key :: .got key result :: .sent request.command :: exchange) := by
      rw [List.take_add_one, hrequest]
      exact hanswered.snoc haccepts
    have hlog' : (s.note .drained).log =
      (.drained :: .cleared key :: .got key result :: .sent request.command ::
        exchange) ++ .began s.connection.activeOperation :: before := congrArg _ hlog
    have hgo := fun c => h.next (c := c) hphase hseen hlt hlog' hnext
    unfold healthCommandComplete
    refine Always.look
      (.ite (fun hone => ?_) fun hone => .ite (fun hdiscards => ?_) fun hdiscards => ?_)
    · have hsingle : isTransactionOperation s.connection.activeOperation = true ∨
          s.connection.activeOperation = .ping := by simpa [LibpqSession.note] using hone
      have hall : (runningRequests s.client s.connection).length =
        healthIndex s.connection + 1 := by
        rw [runningRequests_single hsingle, hposition.first hsingle]
      rw [← hall, List.take_length] at hnext
      exact (healthReady_spec (s := s) h.books.drained rfl hlog' hnext rfl
        h.exchanging.trusted).mono fun _ _ => .inl
    · obtain ⟨hop, hmode, hdone⟩ := healthDiscards_iff.mp hdiscards
      refine always_changeConnection_last (.inr (hgo _ rfl rfl rfl rfl rfl ?_ ?_))
      · show s.connection.sessionIndex + 1 = s.connection.sessionIndex + _ + 1
        rw [show s.connection.resetDiscardComplete = false from hdone]
        rfl
      · refine ⟨hposition.single, fun _ => ⟨hop, hmode⟩, fun he => ?_⟩
        exact Bool.noConfusion (healthDiscards_iff.mp he).2.2
    · refine always_changeConnection_last (.inr (hgo _ rfl rfl rfl rfl rfl ?_ ?_))
      · exact Nat.add_right_comm _ _ _
      · refine ⟨fun hsingle => ?_, hposition.discarded, fun he => absurd he hdiscards⟩
        exact absurd (by simpa [LibpqSession.note] using hsingle) hone

/-- The connection is the same but for what it waits for. -/
theorem Ongoing.touch {c : LibpqConnection} (h : Ongoing s s)
    (hop : c.activeOperation = s.connection.activeOperation) (hphase : c.phase = s.connection.phase)
    (hhandle : c.postgresqlConnection = s.connection.postgresqlConnection)
    (hcount : c.statementCount = s.connection.statementCount)
    (hindex : c.sessionIndex = s.connection.sessionIndex)
    (hdone : c.resetDiscardComplete = s.connection.resetDiscardComplete)
    (hhealth : c.healthPhase = s.connection.healthPhase)
    (hseen : c.healthResultSeen = s.connection.healthResultSeen) :
    Ongoing s (s.setConnection c) := by
  have hrequests : runningRequests s.client c = runningRequests s.client s.connection := by
    rw [runningRequests, runningRequests, hop]
  have hplace :
    healthIndex c = healthIndex s.connection := by rw [healthIndex, healthIndex, hindex, hdone]
  have hdiscards : healthDiscards s.client c = healthDiscards s.client s.connection := by
    rw [healthDiscards, healthDiscards, hop, hdone]
  obtain ⟨before, exchange, underway, hlog, hanswered, hunderway⟩ := h.exchanging.log
  refine ⟨?_, h.books.setConnection hhandle, hphase.trans h.phase,
    ⟨⟨?_, ?_, ?_⟩, ?_, ⟨before, exchange, underway, ?_, ?_, ?_⟩,
      fun hsend => h.exchanging.quiet (hhealth.symm.trans hsend), h.exchanging.trusted⟩, hop⟩
  · simp only [LibpqSession.link, LibpqSession.setConnection, hcount, hhandle]
  · rw [LibpqSession.setConnection, hop, hindex]
    exact h.exchanging.positioned.single
  · rw [LibpqSession.setConnection, hop, hdone]
    exact h.exchanging.positioned.discarded
  · rw [LibpqSession.setConnection, hdiscards, hindex]
    exact h.exchanging.positioned.discards
  · rw [LibpqSession.setConnection, hrequests, hplace]
    exact h.exchanging.within
  · rw [LibpqSession.setConnection, hop]
    exact hlog
  · rw [LibpqSession.setConnection, hrequests, hplace]
    exact hanswered
  · rw [LibpqSession.setConnection, hrequests, hplace, hhealth, hseen]
    exact hunderway

/-- A result that is refused is cleared, and the connection fails. -/
theorem healthRefuse_spec {key : ℕ} {result : LibpqResult} (hlink : t.link = s.link)
    (hbooks : t.Books [.result key]) :
    Always (healthRefuse api key result) t fun status s' => status ≠ .ok ∧ Down s s' := by
  have hcleared : ∀ errorClass, Always (apiClearResult key >>= fun _ => healthFail api errorClass) t
      fun status s' => status ≠ .ok ∧ Down s s' := fun _ =>
    always_noteEvent (healthFail_spec (s := s) hlink hbooks.cleared)
  refine Always.look (Always.bind (P := fun _ u => u = t) ?_ ?_)
  · exact .ite (fun _ => Always.ask fun _ => Always.done rfl) fun _ => Always.done rfl
  · rintro _ u rfl
    exact hcleared _

/-- **What comes back is looked at.** -/
theorem healthReceive_spec (h : Ongoing s s) (hphase : s.connection.healthPhase = .receive) :
    Always (healthReceive api) s (HealthTurns s) := by
  refine Always.ask fun consumed => .ite (fun _ => healthFail_turns rfl h.books) fun _ =>
    Always.ask fun busy => .ite (fun _ => ?_) fun _ => always_apiGetResult ?_ fun result => ?_
  · exact always_changeConnection
      (Always.done (.wait (h.touch rfl rfl rfl rfl rfl rfl rfl rfl) rfl))
  · refine Always.look
      (.ite (fun _ => healthFail_turns (t := s.note .drained) rfl h.books.drained) fun hseen => ?_)
    have hseen : s.connection.healthResultSeen = true := by simpa [LibpqSession.note] using hseen
    refine (healthCommandComplete_spec h hphase hseen).bind fun _ t ht => Always.look ?_
    rcases ht with hup | ⟨hongoing, hless⟩
    · rw [if_pos hup.phase]
      exact Always.done (.complete hup)
    · rw [if_neg (by rw [hongoing.phase]; exact LibpqConnectionPhase.noConfusion)]
      exact Always.done (.again hongoing hless)
  · refine Always.look
      (.ite (fun _ => ?_) fun hvalid => always_noteEvent (always_changeConnection (Always.done ?_)))
    · exact (healthRefuse_spec (s := s) (t := s.take fun key => .got key result) rfl
        (h.books.got result)).bind fun _ _ hdown => Always.done (.failed hdown.1 hdown.2)
    · have hnot : s.connection.healthResultSeen = false ∧
          healthResultValid s.client s.connection result = true := by
        simpa [LibpqSession.take] using hvalid
      obtain ⟨before, exchange, underway, hlog, hanswered, hunderway⟩ := h.exchanging.log
      rw [hphase, hnot.1] at hunderway
      cases hunderway with
      | @receive request hrequest =>
        have hbooks : ((s.take fun key => .got key result).note (.cleared s.nextKey)).Books [] :=
          (h.books.got result).cleared
        refine .again ⟨rfl, hbooks.setConnection rfl, h.phase, ?_, rfl⟩ ?_
        · exact
            { positioned := ⟨h.exchanging.positioned.single, h.exchanging.positioned.discarded,
                h.exchanging.positioned.discards⟩
              within := h.exchanging.within
              log := ⟨before, exchange,
                [.cleared s.nextKey, .got s.nextKey result, .sent request.command],
                congrArg (fun log => LibpqEvent.cleared s.nextKey :: LibpqEvent.got s.nextKey
                  result :: log) hlog,
                hanswered,
                show Underway _ _ s.connection.healthPhase true _ from
                  hphase ▸ .seen hrequest (h.exchanging.positioned.accepts hrequest hnot.2)⟩
              quiet := fun hsend => by cases hphase.symm.trans hsend
              trusted := h.exchanging.trusted }
        · unfold healthLeft
          rw [if_pos ⟨hphase, rfl⟩, if_neg (fun he => Bool.noConfusion (hnot.1.symm.trans he.2))]
          exact Nat.lt_succ_self _

end Specs

end Vps
