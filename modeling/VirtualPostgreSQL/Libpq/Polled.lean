import VirtualPostgreSQL.Libpq.Served
import VirtualPostgreSQL.Machinery.Count

/-!
# Libpq/Polled — what a statement answers

A poll of a statement goes on from phase to phase, and answers what the client layer can take
(`ClientPollReply.Fits`): that it is complete, that a row is ready, which only a fetch may say, or
that it has to wait, in the phase of its operation.
-/

namespace Vps

open Machinery

/-- **An answer that fits an operation.** -/
def ClientPollReply.Fits (reply : ClientPollReply) (maxSliceMs : UInt32)
    (operation : ClientOperation) : Prop :=
  reply.status = some .ok → reply.outcome = some .complete ∨
    (reply.outcome = some .rowReady ∧ operation = .fetch) ∨
    ∃ interest, reply = pollWait (some interest) (operationWaitPhase operation) maxSliceMs

/-- A failed poll asks for nothing. -/
theorem fits_failed {status : ClientStatus} {maxSliceMs : UInt32} {operation : ClientOperation}
    (h : status ≠ .ok) : (pollFailed status).Fits maxSliceMs operation :=
  fun heq => absurd (Option.some.inj heq) h

/-- **A poll's answer**, and what it leaves. -/
structure Replies (s : LibpqSession) (reply : ClientPollReply) (s' : LibpqSession) : Prop where
  goes : Goes s s'
  fits : reply.Fits s.client.waitSliceMs s.statement.phase.operation

/-- **A round of the poll's loop**: an answer, or another phase of the same operation. -/
inductive Turns (s : LibpqSession) : Option ClientPollReply → LibpqSession → Prop
  | reply {reply : ClientPollReply} {s' : LibpqSession} (h : Replies s reply s') :
    Turns s (some reply) s'
  | again {s' : LibpqSession} (goes : Goes s s') (ready : s'.connection.phase = .ready)
      (operation : s'.statement.phase.operation = s.statement.phase.operation)
      (running : s.statement.phase.operation ≠ .none) (other : s'.statement.phase ≠ .fetchWait) :
        Turns s none s'

section Specs

variable {W : Type} {api : LibpqApi W} {s t : LibpqSession} {errorClass : ErrorClass}

/-! ## Answers -/

/-- A statement that is stopped replies with its failure. -/
theorem Replies.stopped {status : ClientStatus} (h : s.Serves)
    (hready : s.connection.phase = .ready)
    (hstatus : status ≠ .ok) (hstop : Stopped s t) : Replies s (pollFailed status) t :=
  ⟨.of_stopped h hready hstop, fits_failed hstatus⟩

/-- A poll that fails. -/
theorem statementError_replies (h : s.Serves) (hready : s.connection.phase = .ready)
    (hframe : t.frame = s.frame) (hbooks : t.Books []) (hclass : errorClass ≠ .sql) :
    Always (statementError api errorClass >>= fun status =>
      (pure (pollFailed status) : LibpqM W ClientPollReply)) t
      (Replies s) :=
  (statementError_stops hframe hbooks hclass).bind fun _ _ hstop =>
    Always.done (.stopped h hready hstop.1 hstop.2)

/-- A round that fails. -/
theorem statementError_turns (h : s.Serves) (hready : s.connection.phase = .ready)
    (hframe : t.frame = s.frame) (hbooks : t.Books []) (hclass : errorClass ≠ .sql) :
    Always (statementError api errorClass >>= fun status =>
      (pure (some (pollFailed status)) : LibpqM W (Option ClientPollReply))) t (Turns s) :=
  (statementError_stops hframe hbooks hclass).bind fun _ _ hstop =>
    Always.done (.reply (.stopped h hready hstop.1 hstop.2))

/-! ## Rows -/

section Rows

variable {key : ℕ} {result : LibpqResult}

/-- The counter of the bytes does not wrap, since it was checked. -/
theorem toNat_add_row {bytes : UInt64} {rowBytes : ℕ}
    (h : ¬0xffffffffffffffff - bytes.toNat < rowBytes) :
    (bytes + rowBytes.toUInt64).toNat = rowBytes + bytes.toNat := by
  have hlt := bytes.toNat_lt
  have hrow : rowBytes.toUInt64.toNat = rowBytes :=
    UInt64.toNat_ofNat_of_lt' (by simp only [UInt64.size]; omega)
  rw [UInt64.toNat_add, hrow, Nat.mod_eq_of_lt (by omega), Nat.add_comm]

/-- **A row that is shown** is counted, and stays. -/
theorem statementPublish_spec (h : s.Serves) (hready : s.connection.phase = .ready)
    (hfetch : s.statement.phase = .fetchWait) (hbooks : (s.holding result).Books [])
    (hmetadata : metadataFault s.statement.spec result false = none) {bytes : ℕ}
    (hbytes : rowBytes s.statement.spec result = some bytes) :
    Always (statementPublish api result bytes) (s.holding result) (Replies s) := by
  refine Always.look (.ite (fun _ => ?_) fun hroom => ?_)
  · refine statementClearResult_spec.bind fun _ u hu => ?_
    subst hu
    exact statementError_replies h hready LibpqSession.clear_frame hbooks.clear
      ErrorClass.noConfusion
  rw [not_or] at hroom
  obtain ⟨hlimit, hlength⟩ := rowBytes_eq hbytes
  rw [hlength] at hlimit
  have hcount := toNat_add_row hroom.2
  refine always_noteEvent (always_changeStatement (Always.done
    ⟨⟨rfl, ?_⟩, fun _ => .inr (.inl ⟨rfl, ?_⟩)⟩))
  · exact
      { books := hbooks.published hlimit rfl rfl (toNat_succ hroom.1) (hcount.trans (hlength ▸ rfl))
        formed := ⟨.inr (.inl rfl),
          h.formed.cancel.imp id fun hphase => (by rw [hfetch] at hphase; cases hphase),
          fun _ => ⟨s.nextKey, result, rfl, hmetadata, Option.isSome_of_mem hbytes⟩⟩
        phase := .inl hready
        trusted := fun _ => h.trusted hready
        quiet := fun _ hresting => by cases hresting
        named := h.named
        fresh := fun hphase => by cases hphase
        shown := fun _ key shown hshown => by
          obtain rfl : result = shown := congrArg Prod.snd (Option.some.inj hshown)
          rfl }
  · rw [hfetch]
    rfl

/-- **A row that is fetched** is shown, or the statement is stopped. -/
theorem statementFetchRow_spec (h : s.Serves) (hready : s.connection.phase = .ready)
    (hfetch : s.statement.phase = .fetchWait) (hbooks : (s.holding result).Books []) :
    Always (statementFetchRow api result) (s.holding result) (Replies s) := by
  unfold statementFetchRow
  refine Always.look ?_
  split
  · rename_i hfault
    refine (statementError_stops (t := s.holding result) LibpqSession.holding_frame hbooks
      (metadataFault_ne_sql hfault)).bind fun status u hu => ?_
    refine statementClearResult_spec.bind fun _ v hv => Always.done ?_
    subst hv
    exact .stopped h hready hu.1 hu.2.clear
  · rename_i hmetadata
    have hclear : ∀ {errorClass}, errorClass ≠ .sql →
        Always ((statementClearResult : LibpqM W Unit) >>= fun _ =>
          statementError api errorClass >>=
          fun status => (pure (pollFailed status) : LibpqM W ClientPollReply))
        (s.holding result) (Replies s) := fun hclass =>
          statementClearResult_spec.bind fun _ u hu => by
      subst hu
      exact statementError_replies h hready LibpqSession.clear_frame hbooks.clear hclass
    refine .ite (fun _ => hclear ErrorClass.noConfusion) fun _ => ?_
    split
    · exact hclear ErrorClass.noConfusion
    · rename_i hrow
      exact statementPublish_spec h hready hfetch hbooks hmetadata hrow

/-- The check of a result lets it pass or stops the statement. -/
theorem statementFetchCheck_spec (hbooks : (s.holding result).Books []) :
    Always (statementFetchCheck api result) (s.holding result) fun check u =>
      (check = .ok ∧ u = s.holding result) ∨ (check ≠ .ok ∧ Stopped s u) := by
  unfold statementFetchCheck
  refine Always.look ?_
  split
  · rename_i hfault
    exact (statementError_stops (t := s.holding result) LibpqSession.holding_frame hbooks
      (metadataFault_ne_sql hfault)).mono fun _ _ => .inr
  · exact Always.done (.inl ⟨rfl, rfl⟩)

/-- **The end of the rows**: what was affected is noted, and there is nothing more. -/
theorem statementFetchEnd_spec (h : s.Serves) (hready : s.connection.phase = .ready)
    (hfetch : s.statement.phase = .fetchWait) (hbooks : (s.holding result).Books []) :
    Always (statementFetchEnd api result) (s.holding result) (Replies s) := by
  have hcancel : s.statement.cancelConnection = none :=
    h.formed.cancel.resolve_right fun hphase => by
    rw [hfetch] at hphase
    cases hphase
  refine (statementFetchCheck_spec hbooks).bind fun check u hu =>
    statementClearResult_spec.bind fun _ v hv => ?_
  subst hv
  refine .ite (fun hcheck => ?_) fun hcheck => ?_
  · rcases hu with ⟨hok, -⟩ | ⟨hnot, hstop⟩
    · exact absurd hok hcheck
    · exact Always.done (.stopped h hready hnot hstop.clear)
  obtain rfl : u = s.holding result := (hu.resolve_right fun hnot => hcheck hnot.1).2
  split
  · exact statementError_replies h hready LibpqSession.clear_frame hbooks.clear
      ErrorClass.noConfusion
  rename_i affected _
  refine always_changeStatement ?_
  have hworks :
    Works s ((s.holding result).clear.setStatement { (s.holding result).clear.statement with
      affectedCount := affected.getD (s.holding result).clear.statement.affectedCount
      affectedCountValid := (s.holding result).clear.statement.affectedCountValid ||
        affected.isSome }) :=
    { frame := LibpqSession.clear_frame
      books := hbooks.clear.setStatement rfl rfl rfl rfl
      connection := by
        show (s.holding result).clear.connection.phase = .ready
        rw [LibpqSession.clear_connection]
        exact hready
      result := by simp [LibpqSession.setStatement, LibpqSession.clear_statement]
      cancel := by
        rw [LibpqSession.clear_statement]
        exact hcancel }
  refine .ite (fun _ => ?_) fun _ => ?_
  · exact statementError_replies h hready hworks.frame hworks.books ErrorClass.noConfusion
  refine (statementNoMore_spec hworks).bind fun status v hv =>
    .ite (fun hstatus => ?_) fun hstatus => ?_
  · rcases hv with ⟨hok, -⟩ | ⟨hnot, hstop⟩
    · exact absurd hok hstatus
    · exact Always.done (.stopped h hready hnot hstop)
  obtain rfl := (hv.resolve_right fun hnot => hstatus hnot.1).2
  refine always_changeStatement (Always.done ⟨.of_works h hready ?_ (fun hphase => by cases hphase)
    (fun hphase => by cases hphase) (fun _ => rfl), fun _ => .inl rfl⟩)
  exact { hworks with books := hworks.books.drained.setStatement rfl rfl rfl rfl }

/-- **What a fetch makes of a result.** -/
theorem statementFetchResult_spec (h : s.Serves) (hready : s.connection.phase = .ready)
    (hfetch : s.statement.phase = .fetchWait) :
    Always (statementFetchResult api) s (Replies s) := by
  have hworks := h.works hready (by rw [hfetch]; exact LibpqStatementPhase.noConfusion)
    (by rw [hfetch]; exact LibpqStatementPhase.noConfusion)
      (by rw [hfetch]; exact LibpqStatementPhase.noConfusion)
  refine always_statementTakeResult ?_ fun result => ?_
  · exact statementError_replies (t := s.note .drained) h hready rfl h.books.drained
      ErrorClass.noConfusion
  have hbooks : (s.holding result).Books [] := h.books.holding hworks.result
  dsimp only
  split
  · exact statementFetchRow_spec h hready hfetch hbooks
  · exact statementFetchEnd_spec h hready hfetch hbooks
  · exact (statementServerError_spec hbooks).bind fun status u hu =>
      Always.done (.stopped h hready hu.1 (hu.2.after LibpqSession.holding_frame))

end Rows

/-! ## Waits -/

/-- The statement is the same but for what is its own. -/
theorem Goes.touch {statement : LibpqStatement} (h : s.Serves)
    (hresult : statement.currentResult = s.statement.currentResult)
    (hcancel : statement.cancelConnection = s.statement.cancelConnection)
    (hphase : statement.phase = s.statement.phase) (hspec : statement.spec = s.statement.spec)
    (hname : statement.preparedName = s.statement.preparedName)
    (hrows : statement.publishedRowCount = s.statement.publishedRowCount)
    (hbytes : statement.publishedByteCount = s.statement.publishedByteCount) :
    Goes s (s.setStatement statement) where
  frame := by
    simp only [LibpqSession.frame, LibpqSession.setStatement, hspec, hname]
  serves :=
    { books := h.books.setStatement hresult hcancel hrows hbytes
      formed := ⟨by rw [LibpqSession.setStatement, hresult, hphase]; exact h.formed.result,
        by rw [LibpqSession.setStatement, hcancel, hphase]; exact h.formed.cancel,
        by rw [LibpqSession.setStatement, hresult, hphase, hspec]; exact h.formed.readable⟩
      phase := h.phase
      trusted := h.trusted
      quiet := fun hready hresting => h.quiet hready (hphase ▸ hresting)
      named := by rw [LibpqSession.setStatement, hname]; exact h.named
      fresh := fun hcreated => by
        show statement.preparedName ∉ _
        rw [hname]
        exact h.fresh (hphase ▸ hcreated)
      shown := by rw [LibpqSession.setStatement, hphase, hresult, hspec]; exact h.shown }

/-- **A poll that has to wait.** -/
theorem statementWaitResult_spec {interest : ClientWaitInterest} {wait : ClientWaitPhase}
    (h : s.Serves) (hwait : wait = operationWaitPhase s.statement.phase.operation) :
    Always (statementWaitResult api interest wait) s (Replies s) := by
  refine Always.look
    (Always.ask fun socketHandle => always_changeStatement (.ite (fun _ => ?_) fun _ => ?_))
  · exact Always.done ⟨.touch h rfl rfl rfl rfl rfl rfl rfl, fits_failed ClientStatus.noConfusion⟩
  · refine always_changeStatement (Always.done ⟨?_, fun _ => .inr (.inr ⟨interest, hwait ▸ rfl⟩)⟩)
    exact .touch h rfl rfl rfl rfl rfl rfl rfl

theorem statementWaitResult_turns {interest : ClientWaitInterest} {wait : ClientWaitPhase}
    (h : s.Serves) (hwait : wait = operationWaitPhase s.statement.phase.operation) :
    Always (statementWaitResult api interest wait >>= fun reply =>
      (pure (some reply) : LibpqM W (Option ClientPollReply))) s (Turns s) :=
  (statementWaitResult_spec h hwait).bind fun _ _ hreply => Always.done (.reply hreply)

/-! ## Rounds -/

theorem LibpqStatementPhase.operation_of_resting {phase : LibpqStatementPhase}
    (h : phase.resting = true) :
    phase.operation = .none := by
  cases phase <;> first | rfl | cases h

section Rounds

variable (h : s.Serves) (hready : s.connection.phase = .ready)

include h hready

/-- **Another phase of the same operation.** -/
theorem turns_phase {phase : LibpqStatementPhase} (hworks : Works s t)
    (hoperation : phase.operation = s.statement.phase.operation)
    (hrunning : phase.operation ≠ .none)
    (hother : phase ≠ .fetchWait) : Turns s none (t.setStatement { t.statement with phase }) := by
  refine .again (.of_works h hready ?_ (fun hrow => ?_) (fun hcreated => ?_) fun hresting => ?_)
    hworks.connection hoperation (hoperation ▸ hrunning) hother
  · exact { hworks with books := hworks.books.setStatement rfl rfl rfl rfl }
  · exact hrunning (congrArg LibpqStatementPhase.operation hrow)
  · exact hrunning (congrArg LibpqStatementPhase.operation hcreated)
  · exact absurd (LibpqStatementPhase.operation_of_resting hresting) hrunning

/-- **Every phase of a poll leads on**, as asking to cancel does. -/
theorem statementPollCancel_spec (hphase : s.statement.phase = .cancelPoll) :
    Always (statementPollCancel api) s (Turns s) := by
  have hresult : s.statement.currentResult = none := h.formed.result.resolve_right fun hother => by
    rw [hphase] at hother
    exact hother.elim LibpqStatementPhase.noConfusion LibpqStatementPhase.noConfusion
  refine Always.ask fun status => ?_
  split
  · exact Always.done
      (.again (.refl h) hready rfl (by rw [hphase]; exact ClientOperation.noConfusion)
      (by rw [hphase]; exact LibpqStatementPhase.noConfusion))
  · exact statementWaitResult_turns h (by rw [hphase]; rfl)
  · exact statementWaitResult_turns h (by rw [hphase]; rfl)
  · refine statementFinishCancel_spec.bind fun _ t ht => ?_
    subst ht
    refine always_changeStatement (Always.done (turns_phase h hready ?_ (by rw [hphase]; rfl)
      ClientOperation.noConfusion LibpqStatementPhase.noConfusion))
    exact
      { frame := LibpqSession.uncancel_frame
        books := h.books.uncancel
        connection := by rw [LibpqSession.uncancel_connection]; exact hready
        result := by rw [LibpqSession.uncancel_statement]; exact hresult
        cancel := by rw [LibpqSession.uncancel_statement] }
  · exact statementError_turns h hready rfl h.books ErrorClass.noConfusion
  · exact statementError_turns h hready rfl h.books ErrorClass.noConfusion

/-- Draining what is left leads on. -/
theorem statementPollDrain_spec (hphase : s.statement.phase = .cancelDrain) :
    Always (statementPollDrain api) s (Turns s) := by
  have hworks := h.works hready (by rw [hphase]; exact LibpqStatementPhase.noConfusion)
    (by rw [hphase]; exact LibpqStatementPhase.noConfusion)
      (by rw [hphase]; exact LibpqStatementPhase.noConfusion)
  refine Always.ask fun consumed => .ite (fun _ => ?_) fun _ => Always.ask fun busy =>
    .ite (fun _ => ?_) fun _ => ?_
  · exact statementError_turns h hready rfl h.books ErrorClass.noConfusion
  · exact statementWaitResult_turns h (by rw [hphase]; rfl)
  refine always_apiGetResult ?_ fun result => ?_
  · refine Always.look (.ite (fun _ => ?_) fun _ => ?_)
    · exact statementError_turns (t := s.note .drained) h hready rfl h.books.drained
        ErrorClass.noConfusion
    refine Always.bind (P := fun _ u => u = s.note .drained)
      (Always.look (.ite (fun _ => ?_) fun _ => ?_)) ?_
    · exact Always.ask fun _ => Always.done rfl
    · exact Always.done rfl
    · rintro _ u rfl
      refine always_changeStatement
        (Always.done (.reply ⟨.of_works h hready ?_ (fun hrow => by cases hrow)
        (fun hcreated => by cases hcreated) (fun _ => rfl), fun _ => .inl rfl⟩))
      exact { hworks with books := h.books.drained.setStatement rfl rfl rfl rfl }
  · refine always_changeStatement (always_noteEvent (Always.done ?_))
    have hnext : Works s (((s.take fun key => .got key result).setStatement { s.statement with
        cancelSqlstateSeen := s.statement.cancelSqlstateSeen || (result.status == .fatalError &&
          result.sqlstate.map CString.bytes == some sqlstateCancelled)
        cancelTerminalSeen := s.statement.cancelTerminalSeen || result.status == .tuplesOk }).note
          (.cleared s.nextKey)) :=
      { hworks with
        books := LibpqSession.Books.cleared ((h.books.got result).setStatement rfl rfl rfl rfl) }
    refine .again (.of_works h hready hnext ?_ ?_ ?_) hready rfl ?_ ?_
    all_goals
      intro hother
      first
      | exact LibpqStatementPhase.noConfusion (hphase.symm.trans hother)
      | (have hresting : s.statement.phase.resting = true := hother
         rw [hphase] at hresting
         cases hresting)
      | (rw [hphase] at hother
         cases hother)

/-- Sending on leads on. -/
theorem statementPollFlush_spec {next : LibpqStatementPhase} {wait : ClientWaitPhase}
    (hworks : Works s s) (hwait : wait = operationWaitPhase s.statement.phase.operation)
    (hnext : next = .fetchWait ∨ next.operation = s.statement.phase.operation ∧
    next.operation ≠ .none ∧
      next ≠ .fetchWait) : Always (statementPollFlush api next wait) s (Turns s) := by
  refine Always.ask fun flush => .ite (fun _ => ?_) fun _ => .ite (fun _ => ?_) fun _ =>
    always_changeStatement ?_
  · exact statementError_turns h hready rfl h.books ErrorClass.noConfusion
  · exact statementWaitResult_turns h hwait
  · refine Always.done ?_
    rcases hnext with rfl | ⟨hoperation, hrunning, hother⟩
    · rw [if_pos rfl]
      refine .reply
        ⟨.of_works h hready ?_ (fun hrow => by cases hrow) (fun hcreated => by cases hcreated)
        (fun hresting => by cases hresting), fun _ => .inl rfl⟩
      exact { hworks with books := hworks.books.setStatement rfl rfl rfl rfl }
    · rw [if_neg hother]
      exact turns_phase h hready hworks hoperation hrunning hother

/-- Waiting for an answer leads on. -/
theorem statementPollWait_spec {next : LibpqStatementPhase} {wait : ClientWaitPhase}
    (hworks : Works s s) (hwait : wait = operationWaitPhase s.statement.phase.operation)
    (hoperation : next.operation = s.statement.phase.operation) (hrunning : next.operation ≠ .none)
    (hother : next ≠ .fetchWait) : Always (statementPollWait api next wait) s (Turns s) := by
  refine Always.ask fun consumed => .ite (fun _ => ?_) fun _ => Always.ask fun busy =>
    .ite (fun _ => ?_) fun _ => ?_
  · exact statementError_turns h hready rfl h.books ErrorClass.noConfusion
  · exact statementWaitResult_turns h hwait
  · exact always_changeStatement
      (Always.done (turns_phase h hready hworks hoperation hrunning hother))

/-- Fetching leads on. -/
theorem statementPollFetch_spec (hphase : s.statement.phase = .fetchWait) :
    Always (statementPollFetch api) s (Turns s) := by
  refine Always.ask fun consumed => .ite (fun _ => ?_) fun _ => Always.ask fun busy =>
    .ite (fun _ => ?_) fun _ => ?_
  · exact statementError_turns h hready rfl h.books ErrorClass.noConfusion
  · exact statementWaitResult_turns h (by rw [hphase]; rfl)
  · exact (statementFetchResult_spec h hready hphase).bind fun _ _ hreply =>
      Always.done (.reply hreply)

/-- **A statement that has been prepared is described**: the next command is sent when nothing is
outstanding. -/
theorem statementPollPrepared_spec (hphase : s.statement.phase = .prepareResult)
    (hworks : Works s s) :
    Always (statementPollPrepared api) s (Turns s) := by
  refine (statementFinishResult_spec hworks).bind fun status t ht =>
    .ite (fun hstatus => ?_) fun hstatus => ?_
  · rcases ht with ⟨hok, -⟩ | ⟨hnot, hstop⟩
    · exact absurd hok hstatus
    · exact Always.done (.reply (.stopped h hready hnot hstop))
  obtain ⟨-, hdrained⟩ := ht.resolve_right fun hnot => hstatus hnot.1
  refine Always.look (always_apiSend fun sent => ?_)
  have hsent : Works s (t.note (.sent (.describePrepared t.statement.preparedName))) :=
    { hdrained.toWorks with
      books := hdrained.books.sent hdrained.quiet
        ((congrArg LibpqSession.Frame.trusted hdrained.frame).trans (h.trusted hready))
          fun _ he => by cases he }
  refine .ite (fun _ => ?_) fun _ => ?_
  · exact statementError_turns h hready hsent.frame hsent.books ErrorClass.noConfusion
  · exact always_changeStatement (Always.done (turns_phase h hready hsent (by rw [hphase]; rfl)
      ClientOperation.noConfusion LibpqStatementPhase.noConfusion))

/-- Hearing that it is over leads on. -/
theorem statementPollFinished_spec {mode : FinishMode} {next : LibpqStatementPhase}
    (hworks : Works s s) (hnext : next = .prepared ∨ next = .complete) :
    Always (statementPollFinished api mode next) s (Turns s) := by
  refine (statementFinishResult_spec hworks).bind fun status t ht =>
    .ite (fun hstatus => ?_) fun hstatus => ?_
  · rcases ht with ⟨hok, -⟩ | ⟨hnot, hstop⟩
    · exact absurd hok hstatus
    · exact Always.done (.reply (.stopped h hready hnot hstop))
  obtain ⟨-, hdrained⟩ := ht.resolve_right fun hnot => hstatus hnot.1
  refine always_changeStatement
    (Always.done (.reply ⟨.of_works h hready ?_ (fun hrow => ?_) (fun hcreated => ?_)
    (fun _ => hdrained.quiet), fun _ => .inl rfl⟩))
  · exact { hdrained.toWorks with books := hdrained.books.setStatement rfl rfl rfl rfl }
  · exact hnext.elim (fun heq => by cases heq.symm.trans hrow) fun heq => by
      cases heq.symm.trans hrow
  · exact hnext.elim (fun heq => by cases heq.symm.trans hcreated) fun heq => by
      cases heq.symm.trans hcreated

end Rounds

end Specs

end Vps
