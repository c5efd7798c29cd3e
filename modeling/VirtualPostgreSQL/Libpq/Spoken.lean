import VirtualPostgreSQL.Libpq.Polled

/-!
# Libpq/Spoken — the calls of a statement

A poll goes through its rounds; a start sends the command of its operation; and whatever is called,
the statement stays served (`Goes`).
-/

namespace Vps

open Machinery

section Specs

variable {W : Type} {api : LibpqApi W} {s t : LibpqSession}

/-! ## Polls -/

/-- A statement in a phase that works, works. -/
theorem LibpqSession.Serves.works_of {phase : LibpqStatementPhase} (h : s.Serves)
    (hready : s.connection.phase = .ready) (hphase : s.statement.phase = phase)
    (hother : phase ≠ .rowReady ∧ phase ≠ .failed ∧ phase ≠ .cancelPoll) : Works s s := by
  subst hphase
  obtain ⟨hrow, hfailed, hcancel⟩ := hother
  exact h.works hready hrow hfailed hcancel

/-- **Every round of a poll** answers, or goes on with its operation. -/
theorem statementPollTurn_spec (h : s.Serves) (hready : s.connection.phase = .ready) :
    Always (statementPollTurn api) s (Turns s) := by
  have hidle : Always (pure (some (pollFailed .invalidState)) : LibpqM W (Option ClientPollReply))
    s (Turns s) :=
    Always.done (.reply ⟨.refl h, fits_failed ClientStatus.noConfusion⟩)
  refine Always.look ?_
  split
  case h_1 hphase => exact Always.done (.reply ⟨.refl h, fun _ => .inl rfl⟩)
  case h_2 hphase => exact statementPollCancel_spec h hready hphase
  case h_3 hphase => exact statementPollDrain_spec h hready hphase
  case h_4 hphase | h_5 hphase =>
    exact statementPollFlush_spec h hready (h.works_of hready hphase (by decide))
      (by rw [hphase]; rfl) (.inr ⟨by rw [hphase]; rfl, by decide, by decide⟩)
  case h_6 hphase =>
    refine statementPollFlush_spec h hready (h.works_of hready hphase (by decide))
      (by rw [hphase]; rfl) ?_
    cases s.statement.spec.singleRow with
    | true => exact .inl rfl
    | false => exact .inr ⟨by rw [hphase]; rfl, by decide, by decide⟩
  case h_7 hphase => exact statementPollFetch_spec h hready hphase
  case h_8 hphase | h_9 hphase | h_10 hphase =>
    exact statementPollWait_spec h hready (h.works_of hready hphase (by decide))
      (by rw [hphase]; rfl) (by rw [hphase]; rfl) (by decide) (by decide)
  case h_11 hphase =>
    exact statementPollPrepared_spec h hready hphase (h.works_of hready hphase (by decide))
  case h_12 hphase =>
    exact statementPollFinished_spec h hready (h.works_of hready hphase (by decide)) (.inl rfl)
  case h_13 hphase =>
    exact statementPollFinished_spec h hready (h.works_of hready hphase (by decide)) (.inr rfl)
  all_goals exact hidle

theorem LibpqStatementPhase.lastWait_eq {phase : LibpqStatementPhase}
    (hrunning : phase.operation ≠ .none)
    (hother : phase ≠ .fetchWait) : phase.lastWait = operationWaitPhase phase.operation := by
  cases phase <;> first | rfl | exact absurd rfl hrunning | exact absurd rfl hother

/-- A reply to what a statement went on to is a reply to the statement. -/
theorem Replies.after {reply : ClientPollReply} {u : LibpqSession} (hgoes : Goes s t)
    (hoperation : t.statement.phase.operation = s.statement.phase.operation)
    (h : Replies t reply u) :
    Replies s reply u := by
  refine ⟨hgoes.trans h.goes, ?_⟩
  have hclient : t.client = s.client := congrArg LibpqSession.Frame.client hgoes.frame
  rw [← hclient, ← hoperation]
  exact h.fits

/-- **A poll ends with a reply**, after any number of rounds that is enough. -/
theorem statementPollLoop_spec (rounds : ℕ) (h : s.Serves) (hready : s.connection.phase = .ready)
    (hrunning : rounds = 0 → s.statement.phase.operation ≠ .none ∧ s.statement.phase ≠ .fetchWait) :
    Always (statementPollLoop api rounds) s (Replies s) := by
  induction rounds generalizing s with
  | zero =>
    obtain ⟨hoperation, hother⟩ := hrunning rfl
    exact Always.look
      (statementWaitResult_spec h (LibpqStatementPhase.lastWait_eq hoperation hother))
  | succ rounds ih =>
    refine (statementPollTurn_spec h hready).bind fun turn t ht => ?_
    cases ht with
    | reply hreply => exact Always.done hreply
    | again goes ready operation running other =>
      refine (statementDeadline_spec goes.serves.books).bind fun status u hu => ?_
      rcases hu with ⟨rfl, rfl⟩ | ⟨failure, rfl, hfailure, hstop⟩
      · exact (ih goes.serves ready fun _ => ⟨operation.trans_ne running, other⟩).mono fun _ _ =>
          .after goes operation
      · exact Always.done (.after goes operation (.stopped goes.serves ready hfailure hstop))

/-- **A poll of a statement** answers what fits its operation. -/
theorem statementPoll_spec (h : s.Serves) : Always (statementPoll api) s (Replies s) := by
  refine Always.look (.ite (fun _ => ?_) fun hready => ?_)
  · exact Always.done ⟨.refl h, fits_failed ClientStatus.noConfusion⟩
  rw [not_not] at hready
  refine (statementDeadline_spec h.books).bind fun status t ht => ?_
  rcases ht with ⟨rfl, rfl⟩ | ⟨failure, rfl, hfailure, hstop⟩
  · exact statementPollLoop_spec _ h hready fun hzero => absurd hzero (by decide)
  · exact Always.done (.stopped h hready hfailure hstop)

/-! ## Starts -/

/-- **A command is sent**, when nothing is outstanding and its name is not taken. -/
theorem statementSend_spec {command : LibpqCommand} {flush : LibpqStatementPhase} {singleRow : Bool}
    (h : s.Serves) (hready : s.connection.phase = .ready) (hworks : Works s s)
    (hresting : s.statement.phase.resting = true) (hflush : flush.operation ≠ .none)
    (hname : ∀ name, (LibpqEvent.sent command).preparedName = some name →
    name ∉ preparedNames s.log ∧
      ∃ serial queryHash, name = statementPreparedName serial queryHash ∧
        serial ≤ s.client.statementSerial) :
    Always (statementSend api command flush singleRow) s fun _ => Goes s := by
  refine Always.look
    (always_deadlineStart ?_ fun deadline => always_changeStatement (always_apiSend fun sent =>
    always_changeStatement ?_))
  · exact (statementError_stops (s := s) rfl h.books ErrorClass.noConfusion).mono fun _ _ hstop =>
      .of_stopped h hready hstop.2
  have hbooks : (s.setStatement { s.statement with deadline, deadlineStarted := true }).Books [] :=
    h.books.setStatement rfl rfl rfl rfl
  have hsent :
    Works s (((s.setStatement { s.statement with deadline, deadlineStarted := true }).note
      (.sent command)).setStatement
        { s.statement with deadline, deadlineStarted := true, phase := flush }) :=
    { hworks with
      books := (hbooks.sent (h.quiet hready hresting) (h.trusted hready) hname).setStatement
        rfl rfl rfl rfl }
  have hfail : Always (statementError api .connection) (((s.setStatement { s.statement with
      deadline, deadlineStarted := true }).note (.sent command)).setStatement { s.statement with
        deadline, deadlineStarted := true, phase := flush }) fun _ => Goes s :=
    (statementError_stops hsent.frame hsent.books ErrorClass.noConfusion).mono fun _ _ hstop =>
      .of_stopped h hready hstop.2
  have hgoes : Goes s (((s.setStatement { s.statement with deadline, deadlineStarted := true }).note
      (.sent command)).setStatement
        { s.statement with deadline, deadlineStarted := true, phase := flush }) :=
    .of_works h hready hsent (fun hrow => hflush (congrArg LibpqStatementPhase.operation hrow))
      (fun hcreated => hflush (congrArg LibpqStatementPhase.operation hcreated))
      fun hrest => absurd (LibpqStatementPhase.operation_of_resting hrest) hflush
  refine .ite (fun _ => hfail) fun _ => .ite (fun _ => Always.ask fun mode => ?_) fun _ =>
    Always.done hgoes
  exact .ite (fun _ => hfail) fun _ => Always.done hgoes

theorem executeCommand_preparedName (st : LibpqStatement) :
    (LibpqEvent.sent st.executeCommand).preparedName = none := by
  unfold LibpqStatement.executeCommand
  dsimp only
  split <;> rfl

/-- **A cancel** gives the row back that is shown, and goes on beside the command. -/
theorem statementCancel_spec (h : s.Serves) (hready : s.connection.phase = .ready)
    (hphase : s.statement.phase.uncancellable = false) :
    Always (statementCancel api) s fun _ => Goes s := by
  have hcancel : s.statement.cancelConnection = none :=
    h.formed.cancel.resolve_right fun hother => by
    rw [hother] at hphase
    cases hphase
  refine statementClearResult_spec.bind fun _ t ht => ?_
  subst ht
  have hworks : Works s s.clear :=
    { frame := LibpqSession.clear_frame
      books := h.books.clear
      connection := by rw [LibpqSession.clear_connection]; exact hready
      result := by rw [LibpqSession.clear_statement]
      cancel := by rw [LibpqSession.clear_statement]; exact hcancel }
  refine Always.look (always_deadlineStart ?_ fun deadline => always_changeStatement ?_)
  · exact (statementError_stops hworks.frame hworks.books ErrorClass.noConfusion).mono
      fun _ _ hstop =>
      .of_stopped h hready hstop.2
  have hstarted :
    Works s (s.clear.setStatement { s.clear.statement with deadline, deadlineStarted := true }) :=
    { hworks with books := hworks.books.setStatement rfl rfl rfl rfl }
  refine always_apiCancelCreate ?_
    (always_changeStatement (Always.ask fun started => .ite (fun _ => ?_) fun _ =>
    always_changeStatement (Always.done ⟨hworks.frame, ?_⟩)))
  · exact (statementError_stops hstarted.frame hstarted.books ErrorClass.noConfusion).mono
      fun _ _ hstop =>
      .of_stopped h hready hstop.2
  · refine (statementError_stops (s := s) ?_ (hstarted.books.cancelCreated.keepCancel hworks.cancel)
      ErrorClass.noConfusion).mono fun _ _ hstop => .of_stopped h hready hstop.2
    exact hworks.frame
  · exact
      { books := (hstarted.books.cancelCreated.keepCancel hworks.cancel).setStatement
          rfl rfl rfl rfl
        formed := ⟨.inl hworks.result, .inr rfl, fun hrow => by cases hrow⟩
        phase := .inl hworks.connection
        trusted := fun _ =>
          (congrArg LibpqSession.Frame.trusted hworks.frame).trans (h.trusted hready)
        quiet := fun _ hresting => by cases hresting
        named := h.named_of_frame hworks.frame
        fresh := fun hcreated => by cases hcreated
        shown := fun hrow => by cases hrow }

/-- **A start of an operation.** -/
theorem statementStart_spec (operation : ClientOperation) (h : s.Serves) :
    Always (statementStart api operation) s fun _ => Goes s := by
  have hrefl : ∀ status, Always (pure status : LibpqM W ClientStatus) s fun _ => Goes s :=
    fun _ => Always.done (.refl h)
  unfold statementStart
  refine Always.look ?_
  dsimp only
  refine .ite (fun _ => hrefl _) fun hready => ?_
  rw [not_not] at hready
  split
  · refine .ite (fun _ => hrefl _) fun hphase => ?_
    rw [not_or, not_not] at hphase
    refine statementSend_spec h hready (h.works_of hready hphase.2 (by decide))
      (by rw [hphase.2]; rfl) (by decide) fun name he => ?_
    cases he
    exact ⟨h.fresh hphase.2, h.named⟩
  · refine .ite (fun _ => hrefl _) fun hphase => ?_
    rw [not_not] at hphase
    refine statementSend_spec h hready ?_ ?_ (by decide) fun name he => ?_
    · split at hphase
      · exact h.works_of hready hphase (by decide)
      · exact h.works_of hready hphase (by decide)
    · rw [hphase]
      split <;> rfl
    · rw [executeCommand_preparedName] at he
      cases he
  · exact .ite (fun _ => hrefl _) fun _ => .ite (fun _ => hrefl _) fun _ => hrefl _
  · refine .ite (fun _ => hrefl _) fun hphase => ?_
    exact statementCancel_spec h hready (Bool.eq_false_iff.mpr hphase)
  · exact hrefl _

/-! ## Waits and rows -/

theorem statementWait_spec (wait : ClientWaitRequest) (h : s.Serves) :
    Always (statementWait api wait) s fun _ => Goes s := by
  refine Always.look
    (.ite (fun _ => Always.done (.refl h)) fun hready => Always.ask fun answer => ?_)
  rw [not_or, not_not] at hready
  dsimp only
  refine .ite (fun _ => Always.done (.refl h)) fun _ =>
    .ite (fun _ => Always.ask fun stored => ?_) fun _ => ?_
  · exact .ite (fun _ => Always.done (.refl h)) fun _ => Always.done (.refl h)
  · exact (statementError_stops (s := s) rfl h.books ErrorClass.noConfusion).mono fun _ _ hstop =>
      .of_stopped h hready.1 hstop.2

/-- **A row is given back**, and the statement waits for the next. -/
theorem statementRowRelease_spec (h : s.Serves) :
    Always (statementRowRelease : LibpqM W Unit) s fun _ => Goes s := by
  refine Always.look (.ite (fun _ => Always.done (.refl h)) fun hrow => ?_)
  rw [not_or, not_not] at hrow
  have hcancel : s.statement.cancelConnection = none := h.formed.cancel.resolve_right fun hother =>
    LibpqStatementPhase.noConfusion (hrow.1.symm.trans hother)
  refine statementClearResult_spec.bind fun _ t ht => ?_
  subst ht
  refine always_changeStatement_last ⟨LibpqSession.clear_frame, ?_⟩
  exact
    { books := h.books.clear.setStatement rfl rfl rfl rfl
      formed := ⟨.inl (by rw [LibpqSession.clear_statement]; rfl), .inl (by
        rw [LibpqSession.clear_statement]; exact hcancel), fun hphase => by cases hphase⟩
      phase := by
        show s.clear.connection.phase = .ready ∨ s.clear.connection.phase = .failed
        rw [LibpqSession.clear_connection]
        exact h.phase
      trusted := fun hready => (congrArg LibpqSession.Frame.trusted LibpqSession.clear_frame).trans
        (h.trusted (LibpqSession.clear_connection ▸ hready))
      quiet := fun _ hresting => by cases hresting
      named := h.named_of_frame LibpqSession.clear_frame
      fresh := fun hcreated => by cases hcreated
      shown := fun hwait => by cases hwait }

end Specs

end Vps
