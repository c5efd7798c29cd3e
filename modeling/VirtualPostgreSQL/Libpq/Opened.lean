import VirtualPostgreSQL.Libpq.Connection
import VirtualPostgreSQL.Libpq.Exchange

/-!
# Libpq/Opened — what a poll of a connection answers

A poll goes through the rounds of an operation until it is complete, or has to wait, or fails; it
never goes on for ever (`healthLoop_spec`).  Before it is ready a connection is verified, and only
then are commands sent.
-/

namespace Vps

open Machinery

/-- **A poll's answer**: it failed, it is complete, or it waits in the phase of its operation. -/
inductive HealthReplies (s : LibpqSession) : Option ClientPollReply → LibpqSession → Prop
  | failed {status : ClientStatus} {s' : LibpqSession} (hstatus : status ≠ .ok) (down : Down s s') :
    HealthReplies s (some (pollFailed status)) s'
  | complete {s' : LibpqSession} (up : Up s s') : HealthReplies s (some pollComplete) s'
  | wait {s' : LibpqSession} {interest : ClientWaitInterest} (ongoing : Ongoing s s') :
    HealthReplies s (some (pollWait (some interest) (healthWaitPhase s.connection.activeOperation)
      s.client.waitSliceMs)) s'

section Specs

variable {W : Type} {api : LibpqApi W} {s t : LibpqSession}

/-! ## Rounds -/

/-- What goes up from a session with the same link goes up from this one. -/
theorem Up.after (hlink : t.link = s.link) {u : LibpqSession} (h : Up t u) : Up s u :=
  { h with link := h.link.trans hlink }

/-- An operation that goes on twice goes on. -/
theorem Ongoing.trans {u : LibpqSession} (h : Ongoing s t) (h' : Ongoing t u) : Ongoing s u :=
  { h' with link := h'.link.trans h.link, operation := h'.operation.trans h.operation }

theorem Ongoing.self (h : Ongoing s t) : Ongoing t t :=
  { h with link := rfl, operation := rfl }

theorem HealthTurns.after {turn : HealthTurn} {u : LibpqSession} (hongoing : Ongoing s t)
    (hleft : healthLeft t ≤ healthLeft s) (h : HealthTurns t turn u) : HealthTurns s turn u := by
  cases h with
  | failed hstatus down => exact .failed hstatus (down.after hongoing.link)
  | complete up => exact .complete (up.after hongoing.link)
  | wait ongoing interest => exact .wait (hongoing.trans ongoing) interest
  | again ongoing less => exact .again (hongoing.trans ongoing) (less.trans_le hleft)

/-- What is written is flushed before anything is read. -/
theorem healthFlush_spec (h : Ongoing s s)
    (hphase : s.connection.healthPhase = .flush ∨ s.connection.healthPhase = .receive) :
    Always (healthFlush api) s (HealthTurns s) := by
  unfold healthFlush
  refine Always.look ?_
  split
  · rename_i hflush
    refine Always.ask fun flush => .ite (fun _ => healthFail_turns rfl h.books) fun _ =>
      .ite (fun _ => ?_) fun _ => ?_
    · exact always_changeConnection
        (Always.done (.wait (h.touch rfl rfl rfl rfl rfl rfl rfl rfl) rfl))
    · obtain ⟨before, exchange, underway, hlog, hanswered, hunderway⟩ := h.exchanging.log
      rw [hflush] at hunderway
      generalize hseen : s.connection.healthResultSeen = seen at hunderway
      cases hunderway with
      | @flush request hrequest =>
        have hnext : Ongoing s (s.setConnection { s.connection with healthPhase := .receive }) :=
          { link := rfl
            books := h.books.setConnection rfl
            phase := h.phase
            exchanging :=
              { positioned := ⟨h.exchanging.positioned.single, h.exchanging.positioned.discarded,
                  h.exchanging.positioned.discards⟩
                within := h.exchanging.within
                log := ⟨before, exchange, [.sent request.command], hlog, hanswered,
                  show Underway _ _ .receive s.connection.healthResultSeen _ from hseen ▸
                    .receive hrequest⟩
                quiet := fun hsend => by cases hsend
                trusted := h.exchanging.trusted }
            operation := rfl }
        have hleft : healthLeft (s.setConnection { s.connection with healthPhase := .receive }) ≤
          healthLeft s := by
          unfold healthLeft
          rw [if_neg (fun he => Bool.noConfusion (hseen.symm.trans he.2)),
            if_neg (fun he => by cases hflush.symm.trans he.1)]
          exact le_rfl
        exact always_changeConnection
          ((healthReceive_spec hnext.self rfl).mono fun _ _ => .after hnext hleft)
  · exact healthReceive_spec h ‹_›
  · rename_i hidle
    exact hphase.elim (fun he => by cases hidle.symm.trans he) fun he => by
      cases hidle.symm.trans he
  · rename_i hsend
    exact hphase.elim (fun he => by cases hsend.symm.trans he) fun he => by
      cases hsend.symm.trans he

/-- **Every round** fails, completes, waits, or leads on. -/
theorem healthTurn_spec (h : Ongoing s s) : Always (healthTurn api) s (HealthTurns s) := by
  refine Always.look (.ite (fun hsend => ?_) fun hsend => healthFlush_spec h ?_)
  · refine (healthSend_spec h hsend).bind fun status t ht => .ite (fun hstatus => ?_) fun hstatus =>
      Always.look ?_
    · obtain ⟨-, hdown⟩ := ht.resolve_right fun hok => hstatus (hok.elim And.left And.left)
      exact Always.done (.failed hstatus hdown)
    · rcases ht.resolve_left fun hnot => hnot.1 (not_not.mp hstatus) with
        ⟨-, hup⟩ | ⟨-, hongoing, hflush, hleft⟩
      · rw [if_pos hup.phase]
        exact Always.done (.complete hup)
      · rw [if_neg (by rw [hongoing.phase]; exact LibpqConnectionPhase.noConfusion)]
        exact (healthFlush_spec hongoing.self (.inl hflush)).mono fun _ _ =>
          .after hongoing hleft.le
  · obtain ⟨before, exchange, underway, -, -, hunderway⟩ := h.exchanging.log
    cases hphase : s.connection.healthPhase with
    | idle => rw [hphase] at hunderway; cases hunderway
    | send => exact absurd hphase hsend
    | flush => exact .inl rfl
    | receive => exact .inr rfl

/-- The wait of an operation that goes on is one of its replies. -/
theorem healthWait_spec (h : Ongoing s t) (hinterest : t.connection.waitInterest.isSome) :
    Always (healthWait api >>= fun reply => (pure (some reply) : LibpqM W (Option ClientPollReply)))
      t (HealthReplies s) := by
  refine Always.bind (P := fun reply u => HealthReplies s (some reply) u)
    (Always.ask fun socketHandle => always_changeConnection
      (.ite (fun _ => ?_) fun _ => Always.look (Always.done ?_)))
    fun _ _ hreply => Always.done hreply
  · exact (healthFail_spec (s := s) (t := t.setConnection { t.connection with socketHandle }) h.link
      (h.books.setConnection rfl)).bind fun _ _ hdown => Always.done (.failed hdown.1 hdown.2)
  · obtain ⟨interest, hsome⟩ := Option.isSome_iff_exists.mp hinterest
    have hclient : t.client = s.client := congrArg LibpqSession.Link.client h.link
    have hwait : pollWait t.connection.waitInterest (healthWaitPhase t.connection.activeOperation)
        t.client.waitSliceMs =
        pollWait (some interest) (healthWaitPhase s.connection.activeOperation)
          s.client.waitSliceMs := by
      rw [hsome, h.operation, hclient]
    show HealthReplies s
      (some (pollWait t.connection.waitInterest (healthWaitPhase t.connection.activeOperation)
      t.client.waitSliceMs)) _
    rw [hwait]
    exact .wait (h.trans (h.self.touch rfl rfl rfl rfl rfl rfl rfl rfl))

/-- **The loop of the poll ends**: each round leaves less than the one before. -/
theorem healthLoop_spec (rounds : ℕ) (h : Ongoing s t) (hrounds : healthLeft t < rounds) :
    Always (healthLoop api rounds) t (HealthReplies s) := by
  induction rounds generalizing t with
  | zero => exact absurd hrounds (Nat.not_lt_zero _)
  | succ rounds ih =>
    refine (healthTurn_spec h.self).bind fun turn u hu => ?_
    cases hu with
    | failed hstatus down => exact Always.done (.failed hstatus (down.after h.link))
    | complete up => exact Always.done (.complete (up.after h.link))
    | wait ongoing interest => exact healthWait_spec (h.trans ongoing) interest
    | again ongoing less => exact ih (h.trans ongoing) (by omega)

theorem planRequests_length (plan : SessionPlan) :
    (planRequests plan).length ≤ plan.settings.length := by
  unfold planRequests
  split
  · exact (List.length_map _).le
  · exact Nat.zero_le _

/-- **An operation has no more requests than the plan has settings**, and one for DISCARD ALL. -/
theorem healthRequests_length (plan : SessionPlan) (resetMode : LibpqResetMode)
    (operation : ClientOperation) :
    (healthRequests plan resetMode operation).length ≤ plan.settings.length + 1 := by
  have hplan := planRequests_length plan
  unfold healthRequests
  split
  case h_5 =>
    rw [List.length_append]
    split
    · rw [List.length_singleton]
      omega
    · rw [List.length_nil]
      omega
  case h_6 => omega
  all_goals exact Nat.le_add_left 1 _

/-- **As many rounds suffice** as there are settings, twice. -/
theorem healthPoll_spec {rounds : ℕ} (h : Ongoing s s)
    (hrounds : 2 * s.client.sessionPlan.settings.length + 4 ≤ rounds) :
    Always (healthPoll api rounds) s (HealthReplies s) := by
  refine Always.look
    (.ite (fun hphase => absurd h.phase hphase) fun _ => healthLoop_spec rounds h ?_)
  have hlength :
    (runningRequests s.client s.connection).length ≤ s.client.sessionPlan.settings.length + 1 :=
    healthRequests_length _ _ _
  unfold healthLeft
  split <;> omega

/-! ## Beginning -/

/-- **An operation has begun.** -/
structure Begun (s : LibpqSession) (operation : ClientOperation) (s' : LibpqSession) : Prop where
  link : s'.link = s.link
  books : s'.Books []
  phase : s'.connection.phase = .health
  exchanging : s'.Exchanging
  operation : s'.connection.activeOperation = operation
  single : s.connection.statementCount = 0

theorem Begun.ongoing {operation : ClientOperation} (h : Begun s operation t) : Ongoing t t :=
  ⟨rfl, h.books, h.phase, h.exchanging, rfl⟩

theorem Begun.after {operation : ClientOperation} (hlink : t.link = s.link) {u : LibpqSession}
    (h : Begun t operation u) : Begun s operation u where
  link := h.link.trans hlink
  books := h.books
  phase := h.phase
  exchanging := h.exchanging
  operation := h.operation
  single := (congrArg LibpqSession.Link.statementCount hlink).symm.trans h.single

/-- **What is looked at before**: there is no statement, and libpq has nothing more. -/
theorem healthPreflight_spec {operation : ClientOperation} (hbooks : s.Books []) :
    Always (healthPreflight api operation) s fun admitted s' =>
      (admitted = false ∧ s'.link = s.link ∧ s'.Books []) ∨
        (admitted = true ∧ s' = s.note .drained ∧ s.connection.statementCount = 0) := by
  have hno : Always (pure false : LibpqM W Bool) s fun admitted s' =>
      (admitted = false ∧ s'.link = s.link ∧ s'.Books []) ∨
        (admitted = true ∧ s' = s.note .drained ∧ s.connection.statementCount = 0) :=
    Always.done (.inl ⟨rfl, rfl, hbooks⟩)
  refine Always.ask fun transactionStatus => Always.ask fun connected =>
    .ite (fun _ => hno) fun _ =>
    Always.ask fun pipelineOff => .ite (fun _ => hno) fun _ =>
      Always.look (.ite (fun _ => hno) fun hcount =>
      Always.ask fun busy => .ite (fun _ => hno) fun _ => .ite (fun _ => hno) fun _ =>
        always_apiGetResult ?_ ?_)
  · exact Always.done (.inr ⟨rfl, rfl, not_not.mp hcount⟩)
  · exact fun result =>
      always_noteEvent (Always.done (.inl ⟨rfl, rfl, (hbooks.got result).cleared⟩))

/-- **An operation begins** on a connection that is to be trusted, and on which nothing is
outstanding. -/
theorem healthBegin_spec {operation : ClientOperation} (hbooks : s.Books [])
    (htrusted : trusted s.log = true)
    (hconnect : operation = .connect → outstanding s.log = false ∧
    s.connection.statementCount = 0) :
    Always (healthBegin api operation) s fun status s' => (status ≠ .ok ∧ Down s s') ∨
      (status = .ok ∧ Begun s operation s') := by
  refine Always.bind (P := fun admitted s' => (admitted = false ∧ s'.link = s.link ∧ s'.Books []) ∨
    (admitted = true ∧ s'.link = s.link ∧ s'.Books [] ∧ outstanding s'.log = false ∧
      trusted s'.log = true ∧
      s.connection.statementCount = 0)) (.ite (fun _ => ?_) fun hop => ?_) ?_
  · refine (healthPreflight_spec hbooks).mono fun admitted s' h => h.imp id ?_
    rintro ⟨hadmitted, rfl, hcount⟩
    exact ⟨hadmitted, rfl, hbooks.drained, rfl, htrusted, hcount⟩
  · obtain ⟨hquiet, hcount⟩ := hconnect (not_not.mp hop)
    exact Always.done (.inr ⟨rfl, rfl, hbooks, hquiet, htrusted, hcount⟩)
  · rintro admitted t (⟨rfl, hlink, hbooks⟩ | ⟨rfl, hlink, hbooks, hquiet, htrusted, hcount⟩)
    · exact (healthFail_spec hlink hbooks).mono fun _ _ => .inl
    · refine always_noteEvent (always_changeConnection (Always.done
        (.inr ⟨rfl, hlink, ?_, rfl, ?_, rfl, hcount⟩)))
      · exact (hbooks.began operation).setConnection rfl
      · exact
          { positioned := ⟨fun _ => rfl, fun he => Bool.noConfusion he, fun _ => rfl⟩
            within := Nat.zero_le _
            log := ⟨t.log, [], [], rfl, .nil, .send⟩
            quiet := fun _ => hquiet
            trusted := htrusted }

/-! ## Opening -/

/-- A connection that fails reports it and goes down. -/
theorem connectionFail_spec {errorClass : ErrorClass} (hlink : t.link = s.link)
    (hbooks : t.Books []) :
    Always (connectionFail api errorClass) t fun status s' => status ≠ .ok ∧ Down s s' := by
  refine always_changeConnection (libpqSetError_spec.mono fun status s' h => ?_)
  obtain ⟨hstatus, rfl⟩ := h
  exact ⟨hstatus, hlink, hbooks.setConnection rfl, rfl⟩

/-- A deadline that has passed takes the connection down; one that has not changes nothing. -/
theorem libpqDeadlineExpired_spec (hlink : t.link = s.link) (hbooks : t.Books []) :
    Always (libpqDeadlineExpired api) t fun status s' => (status = none ∧ s' = t) ∨
      ∃ failure, status = some failure ∧ failure ≠ .ok ∧ Down s s' := by
  have hfail : ∀ errorClass, Always (connectionFail api errorClass >>= fun failure =>
      (pure (some failure) : LibpqM W (Option ClientStatus))) t fun status s' =>
        (status = none ∧ s' = t) ∨
        ∃ failure, status = some failure ∧ failure ≠ .ok ∧ Down s s' := fun errorClass =>
    (connectionFail_spec hlink hbooks).bind fun failure s' h =>
      Always.done (.inr ⟨failure, rfl, h.1, h.2⟩)
  refine Always.ask fun nowMs => ?_
  cases nowMs with
  | none => exact hfail _
  | some nowMs =>
    refine Always.look ?_
    split
    · exact hfail _
    · exact hfail _
    · exact Always.done (.inl ⟨rfl, rfl⟩)

/-- **A connection is verified before its first operation begins.** -/
theorem libpqReadiness_spec (hbooks : s.Books []) (hquiet : outstanding s.log = false)
    (hcount : s.connection.statementCount = 0) :
    Always (libpqReadiness api) s fun status s' => (status ≠ .ok ∧ (s' = s ∨ Down s s')) ∨
      (status = .ok ∧ Begun s .connect s') := by
  have hfail : ∀ {errorClass t}, t.link = s.link → t.Books [] →
    Always (connectionFail api errorClass) t
      fun status s' => (status ≠ .ok ∧ (s' = s ∨ Down s s')) ∨
        (status = .ok ∧ Begun s .connect s') :=
    fun hlink hbooks => (connectionFail_spec hlink hbooks).mono fun _ _ h => .inl ⟨h.1, .inr h.2⟩
  refine Always.ask fun connected => .ite (fun _ => ?_) fun _ => ?_
  · exact libpqSetError_spec.mono fun _ _ h => .inl ⟨h.1, .inl h.2⟩
  refine (libpqDeadlineExpired_spec (s := s) rfl hbooks).bind fun expired t ht => ?_
  rcases ht with ⟨rfl, rfl⟩ | ⟨failure, rfl, hfailure, hdown⟩
  · refine Always.ask fun tls => .ite (fun _ => hfail rfl hbooks) fun _ => always_noteEvent ?_
    have htls : (t.note .tlsVerified).Books [] :=
      hbooks.other rfl (fun _ he => by cases he) (fun _ he => by cases he) rfl
    refine Always.ask fun identity => .ite (fun _ => hfail rfl htls) fun _ => always_noteEvent ?_
    have hidentity : ((t.note .tlsVerified).note .identityVerified).Books [] :=
      htls.other rfl (fun _ he => by cases he) (fun _ he => by cases he) rfl
    have hverified : ((t.note .tlsVerified).note .identityVerified).link = t.link := rfl
    refine (libpqDeadlineExpired_spec hverified hidentity).bind fun expired u hu => ?_
    rcases hu with ⟨rfl, rfl⟩ | ⟨failure, rfl, hfailure, hdown⟩
    · refine (healthBegin_spec hidentity rfl fun _ => ⟨hquiet, hcount⟩).mono fun status v hv => ?_
      rcases hv with ⟨hstatus, hdown⟩ | ⟨hstatus, hbegun⟩
      · exact .inl ⟨hstatus, .inr (hdown.after hverified)⟩
      · exact .inr ⟨hstatus, hbegun.after hverified⟩
    · exact Always.done (.inl ⟨hfailure, .inr hdown⟩)
  · exact Always.done (.inl ⟨hfailure, .inr hdown⟩)

/-- **A connection that is on its way**: it is being opened, or an operation runs. -/
structure Runs (s s' : LibpqSession) : Prop where
  link : s'.link = s.link
  books : s'.Books []
  phase : s'.connection.phase = .connecting ∧ outstanding s'.log = false ∨
    s'.connection.phase = .health ∧ s'.Exchanging

/-- **What a poll of a connection answers.** -/
inductive ConnectionReplies (s : LibpqSession) (wait : ClientWaitPhase) :
    Option ClientPollReply → LibpqSession → Prop
  | failed {status : ClientStatus} {s' : LibpqSession} (hstatus : status ≠ .ok)
    (down : s' = s ∨ Down s s') :
    ConnectionReplies s wait (some (pollFailed status)) s'
  | complete {s' : LibpqSession} (up : Up s s') : ConnectionReplies s wait (some pollComplete) s'
  | wait {s' : LibpqSession} {interest : ClientWaitInterest} (runs : Runs s s') :
    ConnectionReplies s wait (some (pollWait (some interest) wait s.client.waitSliceMs)) s'

theorem HealthReplies.connection {reply : Option ClientPollReply} {u : LibpqSession}
    {wait : ClientWaitPhase}
    (hlink : t.link = s.link) (hwait : healthWaitPhase t.connection.activeOperation = wait)
    (h : HealthReplies t reply u) : ConnectionReplies s wait reply u := by
  cases h with
  | failed hstatus down => exact .failed hstatus (.inr (down.after hlink))
  | complete up => exact .complete (up.after hlink)
  | @wait _ interest ongoing =>
    have hclient : t.client = s.client := congrArg LibpqSession.Link.client hlink
    rw [hwait, hclient]
    exact .wait ⟨ongoing.link.trans hlink, ongoing.books, .inr ⟨ongoing.phase, ongoing.exchanging⟩⟩

section Polls

variable {rounds : ℕ} (hrounds : 2 * s.client.sessionPlan.settings.length + 4 ≤ rounds)
  (hbooks : s.Books []) (hphase : s.connection.phase = .connecting)
  (hquiet : outstanding s.log = false) (hcount : s.connection.statementCount = 0)

include hbooks

theorem connectionFail_replies {errorClass : ErrorClass} :
    Always (connectionFail api errorClass >>= fun status =>
      (pure (pollFailed status) : LibpqM W ClientPollReply)) s
      fun reply => ConnectionReplies s .connect (some reply) :=
  (connectionFail_spec rfl hbooks).bind fun _ _ h => Always.done (.failed h.1 (.inr h.2))

include hphase hquiet

/-- Waiting for the socket is a reply of a connection that is opened. -/
theorem connectionPollWait_spec {interest : ClientWaitInterest} :
    Always (connectionPollWait api interest) s fun reply =>
      ConnectionReplies s .connect (some reply) := by
  refine Always.ask fun socketHandle => always_changeConnection (.ite (fun _ => ?_) fun _ =>
    always_changeConnection (Always.look (Always.done (.wait ?_))))
  · exact (connectionFail_spec (s := s)
      (t := s.setConnection { s.connection with socketHandle }) rfl
      (hbooks.setConnection rfl)).bind fun _ _ h => Always.done (.failed h.1 (.inr h.2))
  · have htouched : (s.setConnection { s.connection with socketHandle }).Books [] :=
      hbooks.setConnection rfl
    exact ⟨rfl, htouched.setConnection rfl, .inl ⟨hphase, hquiet⟩⟩

include hrounds hcount

/-- **Whatever libpq answers to a poll** leads to such a reply. -/
theorem connectionPollAnswer_spec (status : Option LibpqPollingStatus) :
    Always (connectionPollAnswer api rounds status) s (ConnectionReplies s .connect) := by
  have hlift : ∀ {m : LibpqM W ClientPollReply},
      Always m s (fun reply => ConnectionReplies s .connect (some reply)) →
      Always (m >>= fun reply => (pure (some reply) : LibpqM W (Option ClientPollReply))) s
        (ConnectionReplies s .connect) := fun hm => hm.bind fun _ _ h => Always.done h
  have hfailed :
    Always (connectionPollFailed api) s fun reply => ConnectionReplies s .connect (some reply) :=
    Always.ask fun errorClass => connectionFail_replies hbooks
  unfold connectionPollAnswer
  split
  · refine (libpqReadiness_spec hbooks hquiet hcount).bind fun status t ht =>
      .ite (fun hstatus => ?_) fun hstatus => ?_
    · exact Always.done (.failed hstatus (ht.resolve_right fun hok => hstatus hok.1).2)
    · obtain ⟨-, hbegun⟩ := ht.resolve_left fun hnot => hstatus hnot.1
      have hclient : t.client = s.client := congrArg LibpqSession.Link.client hbegun.link
      exact (healthPoll_spec hbegun.ongoing (hclient ▸ hrounds)).mono fun _ _ h =>
        h.connection hbegun.link (by rw [hbegun.operation]; rfl)
  · exact hlift (connectionPollWait_spec hbooks hphase hquiet)
  · exact hlift (connectionPollWait_spec hbooks hphase hquiet)
  · exact hlift (connectionPollWait_spec hbooks hphase hquiet)
  · exact hlift hfailed
  · exact hlift hfailed

/-- So does any number of rounds. -/
theorem connectionPollLoop_spec (active : ℕ) :
    Always (connectionPollLoop api rounds active) s (ConnectionReplies s .connect) := by
  induction active with
  | zero => exact Always.ask fun status =>
    connectionPollAnswer_spec hrounds hbooks hphase hquiet hcount status
  | succ active ih =>
    refine Always.ask fun status => .ite (fun _ => ?_) fun _ =>
      connectionPollAnswer_spec hrounds hbooks hphase hquiet hcount status
    refine (libpqDeadlineExpired_spec (s := s) rfl hbooks).bind fun expired t ht => ?_
    rcases ht with ⟨rfl, rfl⟩ | ⟨failure, rfl, hfailure, hdown⟩
    · exact ih
    · exact Always.done (.failed hfailure (.inr hdown))

end Polls

end Specs

end Vps
