import VirtualPostgreSQL.Libpq.Opened
import VirtualPostgreSQL.Libpq.Spoken

/-!
# Libpq/Sound — what holds of a session, whatever is called

A session is sound (`LibpqSession.Sound`) if its notes are in order and its connection and its
statement are as their phases say.  Every call keeps that.
-/

namespace Vps

open Machinery

/-- **A connection without a statement.** -/
structure LibpqSession.Alone (s : LibpqSession) : Prop where
  created : s.connection.phase = .created → s.connection.postgresqlConnection = none
  connecting : s.connection.phase = .connecting → outstanding s.log = false
  health : s.connection.phase = .health → s.Exchanging
  ready : s.connection.phase = .ready → outstanding s.log = false ∧ trusted s.log = true

/-- **A session that is sound.** -/
structure LibpqSession.Sound (s : LibpqSession) : Prop where
  books : s.Books []
  gone : s.connectionLive = false → s.connection = {} ∧ s.statementLive = false
  closed : s.statementLive = false → s.statement = {}
  count : s.connection.statementCount = if s.statementLive then 1 else 0
  alone : s.statementLive = false → s.Alone
  serves : s.statementLive = true → s.Serves

/-- A client without the number that it counts. -/
def LibpqClient.fixed (client : LibpqClient) : LibpqClient := { client with statementSerial := 0 }

/-- **What a call does**: the session stays sound, and its client the same. -/
structure Stays (s s' : LibpqSession) : Prop where
  sound : s'.Sound
  client : s'.client.fixed = s.client.fixed

section Invariants

variable {s t : LibpqSession}

theorem Stays.refl (h : s.Sound) : Stays s s := ⟨h, rfl⟩

/-- A statement is on a connection that is ready, or has failed. -/
theorem LibpqSession.Sound.dead (h : s.Sound)
    (hphase : s.connection.phase ≠ .ready ∧ s.connection.phase ≠ .failed) :
    s.statementLive = false :=
  Bool.eq_false_iff.mpr fun hlive => (h.serves hlive).phase.elim hphase.1 hphase.2

/-- Without a statement the connection counts none. -/
theorem LibpqSession.Sound.count_eq_zero (h : s.Sound) (hdead : s.statementLive = false) :
    s.connection.statementCount = 0 := by
  rw [h.count, hdead]
  rfl

/-- …and where it counts none there is none. -/
theorem LibpqSession.Sound.dead_of_count (h : s.Sound) (hcount : s.connection.statementCount = 0) :
    s.statementLive = false :=
  Bool.eq_false_iff.mpr fun hlive => by
    rw [h.count, hlive] at hcount
    cases hcount

/-- A connection that failed is alone. -/
theorem LibpqSession.Alone.of_failed (h : s.connection.phase = .failed) : s.Alone where
  created := fun he => by cases h.symm.trans he
  connecting := fun he => by cases h.symm.trans he
  health := fun he => by cases h.symm.trans he
  ready := fun he => by cases h.symm.trans he

/-- So is one that is opened, with nothing outstanding. -/
theorem LibpqSession.Alone.of_connecting (h : s.connection.phase = .connecting)
    (hquiet : outstanding s.log = false) :
    s.Alone where
  created := fun he => by cases h.symm.trans he
  connecting := fun _ => hquiet
  health := fun he => by cases h.symm.trans he
  ready := fun he => by cases h.symm.trans he

/-- So is one that works, in the middle of an exchange. -/
theorem LibpqSession.Alone.of_health (h : s.connection.phase = .health)
    (hexchanging : s.Exchanging) : s.Alone where
  created := fun he => by cases h.symm.trans he
  connecting := fun he => by cases h.symm.trans he
  health := fun _ => hexchanging
  ready := fun he => by cases h.symm.trans he

/-- So is one that is ready and trusted. -/
theorem LibpqSession.Alone.of_ready (h : s.connection.phase = .ready)
    (hquiet : outstanding s.log = false) (htrusted : trusted s.log = true) : s.Alone where
  created := fun he => by cases h.symm.trans he
  connecting := fun he => by cases h.symm.trans he
  health := fun he => by cases h.symm.trans he
  ready := fun _ => ⟨hquiet, htrusted⟩

/-- **What a statement's function does** leaves the session sound. -/
theorem Goes.stays (hgoes : Goes s t) (h : s.Sound) (hlive : s.statementLive = true) :
    Stays s t := by
  have hconnectionLive : t.connectionLive = s.connectionLive :=
    congrArg LibpqSession.Frame.connectionLive hgoes.frame
  have hstatementLive : t.statementLive = s.statementLive :=
    congrArg LibpqSession.Frame.statementLive hgoes.frame
  have hcount : t.connection.statementCount = s.connection.statementCount :=
    congrArg LibpqSession.Frame.statementCount hgoes.frame
  have hserved : t.statementLive ≠ false := by
    rw [hstatementLive, hlive]
    exact Bool.noConfusion
  exact
    { sound :=
        { books := hgoes.serves.books
          gone := fun hgone => by
            have hdead := (h.gone (hconnectionLive.symm.trans hgone)).2
            exact absurd (hstatementLive.trans hdead) hserved
          closed := fun hdead => absurd hdead hserved
          count := by
            rw [hcount, hstatementLive]
            exact h.count
          alone := fun hdead => absurd hdead hserved
          serves := fun _ => hgoes.serves }
      client := congrArg (fun frame => frame.client.fixed) hgoes.frame }

/-- **What a connection's function does** leaves the session sound. -/
theorem LibpqSession.Sound.linked (h : s.Sound) (hlive : s.connectionLive = true)
    (hclient : s.statementLive = true → t.client = s.client)
    (hfixed : t.client.fixed = s.client.fixed) (hlive' : t.connectionLive = s.connectionLive)
    (hstatementLive : t.statementLive = s.statementLive)
    (hstatement : t.statement = s.statement)
    (hcount : t.connection.statementCount = s.connection.statementCount)
    (hnames : preparedNames t.log = preparedNames s.log)
    (hrows : publishedRows t.log = publishedRows s.log) (hbooks : t.Books [])
    (hphase : t.connection.phase = .failed ∨ s.statementLive = false ∧ t.Alone) : Stays s t where
  sound :=
    { books := hbooks
      gone := fun hgone => Bool.noConfusion (hlive.symm.trans (hlive'.symm.trans hgone))
      closed := fun hdead => hstatement.trans (h.closed (hstatementLive.symm.trans hdead))
      count := by
        rw [hcount, hstatementLive]
        exact h.count
      alone := fun _ => hphase.elim .of_failed And.right
      serves := fun hserved => by
        have hserves := h.serves (hstatementLive.symm.trans hserved)
        have hfailed : t.connection.phase = .failed := hphase.resolve_right fun hdead =>
          Bool.noConfusion (hserved.symm.trans (hstatementLive.trans hdead.1))
        exact
          { books := hbooks
            formed := hstatement ▸ hserves.formed
            phase := .inr hfailed
            trusted := fun hready => by cases hfailed.symm.trans hready
            quiet := fun hready => by cases hfailed.symm.trans hready
            named := by
              rw [hstatement, hclient (hstatementLive.symm.trans hserved)]
              exact hserves.named
            fresh := fun hcreated => by
              rw [hstatement, hnames]
              exact hserves.fresh (hstatement ▸ hcreated)
            shown := by
              rw [hstatement, hrows]
              exact hserves.shown } }
  client := hfixed

/-- A session stays sound if its notes are in order and its connection is down or alone. -/
theorem LibpqSession.Sound.stays (h : s.Sound) (hlive : s.connectionLive = true)
    (hlink : t.link = s.link) (hbooks : t.Books [])
    (hphase : t.connection.phase = .failed ∨ s.statementLive = false ∧ t.Alone) :
    Stays s t :=
  h.linked hlive (fun _ => congrArg LibpqSession.Link.client hlink)
    (congrArg (fun link => link.client.fixed) hlink)
      (congrArg LibpqSession.Link.connectionLive hlink)
    (congrArg LibpqSession.Link.statementLive hlink) (congrArg LibpqSession.Link.statement hlink)
    (congrArg LibpqSession.Link.statementCount hlink) (congrArg LibpqSession.Link.names hlink)
    (congrArg LibpqSession.Link.rows hlink) hbooks hphase

/-- A session stays sound when its connection goes down. -/
theorem Down.stays (hdown : Down s t) (h : s.Sound) (hlive : s.connectionLive = true) : Stays s t :=
  h.stays hlive hdown.link hdown.books (.inl hdown.phase)

/-- It stays sound when the connection comes up. -/
theorem Up.stays (hup : Up s t) (h : s.Sound) (hlive : s.connectionLive = true)
    (hdead : s.statementLive = false) :
    Stays s t :=
  h.stays hlive hup.link hup.books (.inr ⟨hdead, .of_ready hup.phase hup.quiet hup.trusted⟩)

/-- It stays sound when the connection goes on. -/
theorem Runs.stays (hruns : Runs s t) (h : s.Sound) (hlive : s.connectionLive = true)
    (hdead : s.statementLive = false) : Stays s t := by
  refine h.stays hlive hruns.link hruns.books (.inr ⟨hdead, ?_⟩)
  rcases hruns.phase with ⟨hphase, hquiet⟩ | ⟨hphase, hexchanging⟩
  · exact .of_connecting hphase hquiet
  · exact .of_health hphase hexchanging

/-- It stays sound when an operation begins. -/
theorem Begun.stays {operation : ClientOperation} (hbegun : Begun s operation t) (h : s.Sound)
    (hlive : s.connectionLive = true) : Stays s t :=
  Runs.stays ⟨hbegun.link, hbegun.books, .inr ⟨hbegun.phase, hbegun.exchanging⟩⟩ h hlive
    (h.dead_of_count hbegun.single)

end Invariants

section Specs

variable {W : Type} {api : LibpqApi W} {s t : LibpqSession}

/-! ## The connection's calls -/

/-- **Every call keeps the session sound**, as creating a connection does. -/
theorem libpqConnectionCreate_spec (h : s.Sound) :
    Always (libpqConnectionCreate api) s fun _ s' => Stays s s' := by
  refine Always.look (.ite (fun _ => Always.done (.refl h)) fun hlive => Always.ask fun allocated =>
    .ite (fun _ => ?_) fun _ => ?_)
  · refine libpqSetError_spec.mono fun _ s' hset => ?_
    rw [hset.2]
    exact .refl h
  rw [Bool.not_eq_true] at hlive
  obtain ⟨hconnection, hdead⟩ := h.gone hlive
  refine Always.change (Always.done ⟨?_, rfl⟩)
  exact
    { books := h.books.moved rfl rfl rfl
        (.of_eq (by simp only [LibpqSession.held, hconnection])) rfl rfl
      gone := fun hgone => Bool.noConfusion hgone
      closed := h.closed
      count := by
        show 0 = if s.statementLive then 1 else 0
        rw [hdead]
        rfl
      alone := fun _ => ⟨fun _ => rfl, fun he => LibpqConnectionPhase.noConfusion he,
        fun he => LibpqConnectionPhase.noConfusion he,
          fun he => LibpqConnectionPhase.noConfusion he⟩
      serves := fun hserved => Bool.noConfusion (hdead.symm.trans hserved) }

/-- A connection that is ready is to be trusted. -/
theorem LibpqSession.Sound.trusted (h : s.Sound) (hready : s.connection.phase = .ready) :
    Vps.trusted s.log = true := by
  cases hlive : s.statementLive with
  | true => exact (h.serves hlive).trusted hready
  | false => exact ((h.alone hlive).ready hready).2

/-- The start of an operation keeps it sound. -/
theorem libpqConnectionStart_spec (operation : ClientOperation) (h : s.Sound)
    (hlive : s.connectionLive = true) :
    Always (libpqConnectionStart api operation) s fun _ s' => Stays s s' := by
  have hfail : ∀ {errorClass t}, t.link = s.link → t.Books [] →
      Always (connectionFail api errorClass) t fun _ s' => Stays s s' := fun hlink hbooks =>
    (connectionFail_spec hlink hbooks).mono fun _ _ hdown => hdown.2.stays h hlive
  refine Always.look
    (.ite (fun hagain => ?_) fun _ => .ite (fun _ => Always.done (.refl h)) fun hstart => ?_)
  · refine always_deadlineStart (hfail rfl h.books) fun deadline => always_changeConnection ?_
    have hlink : (s.setConnection { s.connection with deadline }).link = s.link := rfl
    have hbooks : (s.setConnection { s.connection with deadline }).Books [] :=
      h.books.setConnection rfl
    refine (healthBegin_spec hbooks (h.trusted hagain.2) fun hconnect => ?_).mono
      fun status u hu => ?_
    · rw [hconnect] at hagain
      rcases hagain.1 with he | he | he <;> cases he
    · rcases hu with ⟨-, hdown⟩ | ⟨-, hbegun⟩
      · exact (hdown.after hlink).stays h hlive
      · exact (hbegun.after hlink).stays h hlive
  rw [not_or, not_not, not_not] at hstart
  have hdead : s.statementLive = false :=
    h.dead (by rw [hstart.2]; exact ⟨LibpqConnectionPhase.noConfusion,
      LibpqConnectionPhase.noConfusion⟩)
  split
  · exact hfail rfl h.books
  rename_i keywords _
  refine always_deadlineStart (hfail rfl h.books) fun deadline => always_changeConnection ?_
  have hbooks : (s.setConnection { s.connection with deadline }).Books [] :=
    h.books.setConnection rfl
  refine Always.ask fun started => .ite
    (fun _ => hfail (t := s.setConnection { s.connection with deadline }) rfl hbooks)
    fun _ => always_changeConnection (Always.change (Always.ask fun nonblocking => ?_))
  have hkept := (hbooks.connected keywords).keepConnection ((h.alone hdead).created hstart.2)
  refine .ite (fun _ => ?_) fun _ => always_changeConnection (Always.done ?_)
  · refine (connectionFail_spec rfl hkept).mono fun _ u hu => ?_
    exact h.linked hlive (fun _ => congrArg LibpqSession.Link.client hu.2.link)
      (congrArg (fun link => link.client.fixed) hu.2.link)
        (congrArg LibpqSession.Link.connectionLive hu.2.link)
      (congrArg LibpqSession.Link.statementLive hu.2.link)
        (congrArg LibpqSession.Link.statement hu.2.link)
      (congrArg LibpqSession.Link.statementCount hu.2.link)
        (congrArg LibpqSession.Link.names hu.2.link)
      (congrArg LibpqSession.Link.rows hu.2.link) hu.2.books (.inl hu.2.phase)
  · exact h.linked hlive (fun _ => rfl) rfl rfl rfl rfl rfl rfl rfl
      (hkept.setConnection rfl) (.inr ⟨hdead,
      fun he => LibpqConnectionPhase.noConfusion he, fun _ => rfl,
        fun he => LibpqConnectionPhase.noConfusion he,
      fun he => LibpqConnectionPhase.noConfusion he⟩)

theorem ConnectionReplies.stays {wait : ClientWaitPhase} {reply : Option ClientPollReply}
    (hreply : ConnectionReplies s wait reply t) (h : s.Sound) (hlive : s.connectionLive = true)
    (hdead : s.statementLive = false) : Stays s t := by
  cases hreply with
  | failed hstatus down =>
    rcases down with rfl | hdown
    · exact .refl h
    · exact hdown.stays h hlive
  | complete up => exact up.stays h hlive hdead
  | wait runs => exact runs.stays h hlive hdead

/-- **A poll of a connection** fails, is complete, or waits in its phase. -/
theorem libpqConnectionPoll_spec {rounds : ℕ} (h : s.Sound) (hlive : s.connectionLive = true)
    (hrounds : 2 * s.client.sessionPlan.settings.length + 4 ≤ rounds) :
    Always (libpqConnectionPoll api rounds) s fun reply s' => Stays s s' ∧
      ConnectionReplies s (connectionWaitPhase s.connection) reply s' := by
  refine Always.look
    (.ite (fun _ => Always.done ⟨.refl h, .failed ClientStatus.noConfusion (.inl rfl)⟩)
    fun hphase => ?_)
  rw [not_and_or, not_not, not_not] at hphase
  have hdead : s.statementLive = false := h.dead (by
    rcases hphase with hphase | hphase <;> rw [hphase] <;>
      exact ⟨LibpqConnectionPhase.noConfusion, LibpqConnectionPhase.noConfusion⟩)
  have hlift : ∀ {m : LibpqM W (Option ClientPollReply)},
      Always m s (ConnectionReplies s (connectionWaitPhase s.connection)) →
        Always m s fun reply s' => Stays s s' ∧
          ConnectionReplies s (connectionWaitPhase s.connection) reply s' := fun hm =>
    hm.mono fun _ _ hreply => ⟨hreply.stays h hlive hdead, hreply⟩
  refine hlift ((libpqDeadlineExpired_spec (s := s) rfl h.books).bind fun expired t ht => ?_)
  rcases ht with ⟨rfl, rfl⟩ | ⟨failure, rfl, hfailure, hdown⟩
  · refine .ite (fun hhealth => ?_) fun hnot => ?_
    · have hongoing : Ongoing t t := ⟨rfl, h.books, hhealth, (h.alone hdead).health hhealth, rfl⟩
      refine (healthPoll_spec hongoing hrounds).mono fun _ _ hreply => hreply.connection rfl ?_
      rw [connectionWaitPhase, if_neg (by rw [hhealth]; exact LibpqConnectionPhase.noConfusion)]
    · have hconnecting := hphase.resolve_right hnot
      rw [connectionWaitPhase, if_pos hconnecting]
      exact connectionPollLoop_spec hrounds h.books hconnecting
        ((h.alone hdead).connecting hconnecting) (h.count_eq_zero hdead) _
  · exact Always.done (.failed hfailure (.inr hdown))

/-- So does a wait. -/
theorem libpqConnectionWait_spec (wait : ClientWaitRequest) (h : s.Sound)
    (hlive : s.connectionLive = true) :
    Always (libpqConnectionWait api wait) s fun _ s' => Stays s s' := by
  refine Always.look (.ite (fun _ => Always.done (.refl h)) fun _ => Always.ask fun answer => ?_)
  dsimp only
  refine .ite (fun _ => Always.done (.refl h)) fun _ => ?_
  exact (connectionFail_spec (s := s) rfl h.books).mono fun _ _ hdown => hdown.2.stays h hlive

/-- **A connection that is destroyed** gives back its handle. -/
theorem libpqConnectionDestroy_spec (h : s.Sound) (hdead : s.statementLive = false) :
    Always (libpqConnectionDestroy : LibpqM W Unit) s fun _ s' => Stays s s' := by
  have hgone : ∀ u : LibpqSession, u.Books [] → u.client = s.client → u.statement = s.statement →
      u.statementLive = s.statementLive → u.connection.postgresqlConnection = none →
      Stays s { u with connection := {}, connectionLive := false } := by
    intro u hbooks hclient hstatement hstatementLive hhandle
    refine ⟨?_, congrArg LibpqClient.fixed hclient⟩
    exact
      { books := hbooks.moved rfl rfl rfl
          (.of_eq (by simp only [LibpqSession.held, hhandle])) rfl rfl
        gone := fun _ => ⟨rfl, hstatementLive.trans hdead⟩
        closed := fun _ => hstatement.trans (h.closed hdead)
        count := by
          show 0 = if u.statementLive then 1 else 0
          rw [hstatementLive, hdead]
          rfl
        alone := fun _ => ⟨fun _ => rfl, fun he => LibpqConnectionPhase.noConfusion he,
          fun he => LibpqConnectionPhase.noConfusion he,
            fun he => LibpqConnectionPhase.noConfusion he⟩
        serves := fun hserved =>
          Bool.noConfusion ((hstatementLive.trans hdead).symm.trans hserved) }
  refine Always.look ?_
  split
  · rename_i key hsome
    refine always_noteEvent ?_
    have hfinished :=
      hgone _ (LibpqSession.Books.finished (h.books.dropConnection hsome)) rfl rfl rfl rfl
    exact fun _ => hfinished
  · rename_i hnone
    exact fun _ => hgone s h.books rfl rfl rfl hnone

/-! ## The statement's life -/

/-- A statement that is being made. -/
structure Made (s t : LibpqSession) : Prop where
  books : t.Books []
  client : t.client.fixed = s.client.fixed
  connectionLive : t.connectionLive = s.connectionLive
  statementLive : t.statementLive = s.statementLive
  connection : t.connection = s.connection
  log : t.log = s.log
  result : t.statement.currentResult = none
  cancel : t.statement.cancelConnection = none
  rows : t.statement.publishedRowCount = 0
  bytes : t.statement.publishedByteCount = 0

theorem statementAllocateArrays_spec (arrays : ℕ) :
    Always (statementAllocateArrays api arrays) s fun _ s' => s' = s := by
  induction arrays with
  | zero => exact fun _ => rfl
  | succ arrays ih => exact Always.ask fun allocated => .ite (fun _ _ => rfl) fun _ => ih

/-- The parameters are built, or the connection is given up. -/
theorem statementBuildParameters_spec (spec : LibpqStatementSpec) :
    Always (statementBuildParameters api spec) s fun status s' => (status = .ok ∧ s' = s) ∨
      (status ≠ .ok ∧ ∃ errorClass, errorClass ≠ .sql ∧ s' = s.broken errorClass) := by
  have hfail : ∀ {errorClass}, errorClass ≠ .sql →
    Always (statementError api errorClass) s fun status s' =>
      (status = .ok ∧ s' = s) ∨
        (status ≠ .ok ∧ ∃ errorClass, errorClass ≠ .sql ∧ s' = s.broken errorClass) :=
    fun hclass => statementError_spec.mono fun _ _ h => .inr ⟨h.1, _, hclass, h.2⟩
  refine .ite (fun _ => hfail ErrorClass.noConfusion) fun _ =>
    .ite (fun _ => Always.done (.inl ⟨rfl, rfl⟩)) fun _ => ?_
  refine (statementAllocateArrays_spec 4).bind fun allocated t ht => ?_
  subst ht
  exact .ite (fun _ => hfail ErrorClass.noConfusion) fun _ =>
    .ite (fun _ => hfail ErrorClass.noConfusion) fun _ =>
    Always.done (.inl ⟨rfl, rfl⟩)

/-- **A statement gets a name that is new**, or the connection is given up. -/
theorem statementInit_spec {spec : LibpqStatementSpec} {queryHash : UInt64} (h : Made s t)
    (hclient : t.client = s.client) :
    Always (statementInit api spec queryHash) t fun status s' =>
      (status = .ok ∧ ∃ serial, s.client.statementSerial < serial ∧
        s'.client.statementSerial = serial ∧ s'.statement =
          { t.statement with preparedName := statementPreparedName serial queryHash } ∧ Made s s') ∨
      (status ≠ .ok ∧ ∃ u errorClass, Made s u ∧ errorClass ≠ .sql ∧ s' = u.broken errorClass) := by
  refine Always.look (.ite (fun _ => ?_) fun hserial => Always.change (always_changeStatement ?_))
  · exact statementError_spec.mono fun _ _ herror =>
      .inr ⟨herror.1, t, .config, h, ErrorClass.noConfusion, herror.2⟩
  have hlt : s.client.statementSerial < t.client.statementSerial + 1 := by
    rw [hclient] at hserial ⊢
    rw [UInt64.lt_iff_toNat_lt, toNat_succ hserial]
    exact Nat.lt_succ_self _
  have hle : t.client.statementSerial ≤ t.client.statementSerial + 1 := by
    rw [← hclient] at hlt
    exact UInt64.le_of_lt hlt
  refine (statementBuildParameters_spec spec).mono fun status u hu => ?_
  have hmade : Made s
    ((({ t with client := { t.client with statementSerial := t.client.statementSerial + 1 } } :
      LibpqSession)).setStatement { t.statement with
        preparedName := statementPreparedName (t.client.statementSerial + 1) queryHash }) :=
    { h with books := (h.books.serial hle).setStatement rfl rfl rfl rfl }
  rcases hu with ⟨hstatus, rfl⟩ | ⟨hstatus, errorClass, hclass, rfl⟩
  · exact .inl ⟨hstatus, _, hlt, rfl, rfl, hmade⟩
  · exact .inr ⟨hstatus, _, errorClass, hmade, hclass, rfl⟩

/-- What is left of a statement that could not be made is cleared. -/
theorem Made.broken_stays {errorClass : ErrorClass} (hmade : Made s t) (h : s.Sound)
    (hlive : s.connectionLive = true) (hdead : s.statementLive = false)
    (hclass : errorClass ≠ .sql) :
    Stays s ((t.broken errorClass).setStatement {}) := by
  have hbroken :
    t.broken errorClass = (t.setStatement { t.statement with phase := .failed }).setConnection
      { t.connection with phase := .failed } := by
    unfold LibpqSession.broken
    rw [LibpqSession.uncancel_none hmade.cancel, if_neg hclass]
  have hbooks : (t.broken errorClass).Books [] := hmade.books.broken
  rw [hbroken] at hbooks ⊢
  refine h.linked hlive (fun hlive' => Bool.noConfusion (hdead.symm.trans hlive')) hmade.client
    hmade.connectionLive hmade.statementLive (h.closed hdead).symm ?_ ?_ ?_ ?_ (.inl rfl)
  · show t.connection.statementCount = s.connection.statementCount
    rw [hmade.connection]
  · exact congrArg preparedNames hmade.log
  · exact congrArg publishedRows hmade.log
  · exact hbooks.setStatement hmade.result.symm hmade.cancel.symm hmade.rows.symm hmade.bytes.symm

/-- **A statement is opened** on a connection that is ready, under a name that is new. -/
theorem statementCreate_spec (spec : LibpqStatementSpec) (h : s.Sound)
    (hlive : s.connectionLive = true) :
    Always (statementCreate api spec) s fun _ s' => Stays s s' := by
  refine Always.look (.ite (fun _ => Always.done (.refl h)) fun hidle => Always.ask fun allocated =>
    .ite (fun _ => Always.done (.refl h)) fun _ => always_changeStatement ?_)
  rw [not_or, not_or, not_not, not_not, Bool.not_eq_true] at hidle
  obtain ⟨hready, hcount, hdead⟩ := hidle
  have hclosed := h.closed hdead
  have hmade : Made s (s.setStatement { spec, queryHash := statementQueryHash spec.query }) :=
    { books := h.books.setStatement (by rw [hclosed]) (by rw [hclosed]) (by rw [hclosed])
        (by rw [hclosed])
      client := rfl
      connectionLive := rfl
      statementLive := rfl
      connection := rfl
      log := rfl
      result := rfl
      cancel := rfl
      rows := rfl
      bytes := rfl }
  refine (statementInit_spec hmade rfl).bind fun status t ht =>
    .ite (fun hstatus => ?_) fun hstatus => ?_
  · obtain ⟨-, u, errorClass, hu, hclass, rfl⟩ := ht.resolve_left fun hok => hstatus hok.1
    exact always_changeStatement (Always.done (hu.broken_stays h hlive hdead hclass))
  · obtain ⟨-, serial, hlt, hserial, hstatement, ht⟩ :=
      ht.resolve_right fun hnot => hnot.1 (not_not.mp hstatus)
    obtain ⟨hquiet, htrusted⟩ := (h.alone hdead).ready hready
    have hphase : t.statement.phase = .created := by rw [hstatement]; rfl
    have hname :
      t.statement.preparedName = statementPreparedName serial (statementQueryHash spec.query) := by
      rw [hstatement]
    have hopened : ((t.note (.opened spec)).setStatement t.statement).Books [] :=
      ht.books.bounded (.inl ⟨spec, rfl⟩) ht.result ht.cancel ht.result ht.cancel ht.rows ht.bytes
    have hcounted :
      (((t.note (.opened spec)).setStatement t.statement).setConnection { t.connection with
        statementCount := t.connection.statementCount + 1 }).Books [] := hopened.setConnection rfl
    refine always_noteEvent (always_changeConnection (Always.change (Always.done ⟨?_, ht.client⟩)))
    refine
      { books := hcounted.moved rfl rfl rfl (.refl _) rfl rfl
        gone := fun hgone =>
          Bool.noConfusion (hlive.symm.trans (ht.connectionLive.symm.trans hgone))
        closed := fun hclosed => Bool.noConfusion hclosed
        count := ?_
        alone := fun hclosed => Bool.noConfusion hclosed
        serves := fun _ => ?_ }
    · show t.connection.statementCount + 1 = 1
      rw [ht.connection, hcount]
    · exact
        { books := hcounted.moved rfl rfl rfl (.refl _) rfl rfl
          formed := ⟨.inl ht.result, .inl ht.cancel,
            fun hrow => LibpqStatementPhase.noConfusion (hphase.symm.trans hrow)⟩
          phase := .inl (by
            show t.connection.phase = .ready
            rw [ht.connection]
            exact hready)
          trusted := fun _ => (congrArg Vps.trusted ht.log).trans htrusted
          quiet := fun _ _ => (congrArg outstanding ht.log).trans hquiet
          named := ⟨serial, statementQueryHash spec.query, hname, by
            show serial ≤ t.client.statementSerial
            rw [hserial]
            exact UInt64.le_refl _⟩
          fresh := fun _ => by
            show t.statement.preparedName ∉ preparedNames t.log
            rw [ht.log, hname]
            intro hmem
            obtain ⟨serial', queryHash', hsame, hle⟩ := h.books.named _ hmem
            obtain rfl := statementPreparedName_inj hsame
            exact absurd hlt (UInt64.not_lt.mpr hle)
          shown := fun hrow => LibpqStatementPhase.noConfusion (hphase.symm.trans hrow) }

/-- **A statement that is destroyed** gives back what it holds; if it was not at rest, its
connection is given up. -/
theorem statementDestroy_spec (h : s.Sound) (hlive : s.statementLive = true) :
    Always (statementDestroy : LibpqM W Unit) s fun _ s' => Stays s s' := by
  have hserves := h.serves hlive
  refine Always.look
    (statementClearResult_spec.bind fun _ t ht => statementFinishCancel_spec.bind fun _ u hu => ?_)
  subst ht hu
  have hframe : s.clear.uncancel.frame = s.frame :=
    LibpqSession.uncancel_frame.trans LibpqSession.clear_frame
  have hconnection : s.clear.uncancel.connection = s.connection :=
    LibpqSession.uncancel_connection.trans LibpqSession.clear_connection
  have hbooks : s.clear.uncancel.Books [] := h.books.clear.uncancel
  have hresult : s.clear.uncancel.statement.currentResult = none := by
    rw [LibpqSession.uncancel_statement, LibpqSession.clear_statement]
  have hcancel :
    s.clear.uncancel.statement.cancelConnection = none := by rw [LibpqSession.uncancel_statement]
  have hclosed : ((s.clear.uncancel.note .closed).setStatement {}).Books [] :=
    hbooks.bounded (.inr rfl) hresult hcancel rfl rfl rfl rfl
  have hcounted : (((s.clear.uncancel.note .closed).setStatement {}).setConnection
    { s.clear.uncancel.connection with
      phase := if s.statement.phase.resting then s.clear.uncancel.connection.phase else .failed
      statementCount := s.clear.uncancel.connection.statementCount - 1 }).Books
        [] := hclosed.setConnection rfl
  refine always_changeConnection (always_noteEvent fun _ =>
    ⟨?_, congrArg (fun frame => frame.client.fixed) hframe⟩)
  refine
    { books := hcounted.moved rfl rfl rfl (.refl _) rfl rfl
      gone := fun hgone => ?_
      closed := fun _ => rfl
      count := ?_
      alone := fun _ => ?_
      serves := fun hserved => Bool.noConfusion hserved }
  · have hsame : s.clear.uncancel.connectionLive = s.connectionLive :=
      congrArg LibpqSession.Frame.connectionLive hframe
    exact Bool.noConfusion (hlive.symm.trans (h.gone (hsame.symm.trans hgone)).2)
  · show s.clear.uncancel.connection.statementCount - 1 = 0
    rw [hconnection, h.count, hlive]
    rfl
  · cases hresting : s.statement.phase.resting with
    | false => exact .of_failed rfl
    | true =>
      have hsame : s.clear.uncancel.connection.phase = s.connection.phase := by rw [hconnection]
      rcases hserves.phase with hready | hfailed
      · have hphase : s.clear.uncancel.connection.phase = .ready := hsame.trans hready
        refine ⟨fun he => LibpqConnectionPhase.noConfusion (hphase.symm.trans he),
          fun he => LibpqConnectionPhase.noConfusion (hphase.symm.trans he),
          fun he => LibpqConnectionPhase.noConfusion (hphase.symm.trans he), fun _ => ⟨?_, ?_⟩⟩
        · show outstanding s.clear.uncancel.log = false
          rw [LibpqSession.uncancel_outstanding, LibpqSession.clear_outstanding]
          exact hserves.quiet hready hresting
        · exact (congrArg LibpqSession.Frame.trusted hframe).trans (hserves.trusted hready)
      · exact .of_failed (hsame.trans hfailed)

end Specs

end Vps
