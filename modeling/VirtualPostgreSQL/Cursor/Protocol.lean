import VirtualPostgreSQL.Cursor.Scan
import VirtualPostgreSQL.Machinery.Outcome
import VirtualPostgreSQL.Machinery.Run

/-!
# Cursor/Protocol — a cursor under SQLite's calls

SQLite may filter a cursor again at any time after a filter that went well, and asks for rows only
where there are some.  A filter meets that protocol unless the cursor is still on a row; and a
failed call leaves the machine failed unless it returns before the event is fired:
`cursor_protocol_iff`.
-/

namespace Vps

open Machinery

/-! ## Sessions -/

/-- A call of SQLite on a cursor. -/
inductive CursorCall
  | filter (call : FilterCall)
  | next (call : NextCall)
  | eof
  | column
  | rowid

/-- What SQLite remembers of a cursor: whether a filter went well, and whether a call failed. -/
inductive SessionPhase
  | opened | scanning | ended
  deriving DecidableEq, Repr

/-- A cursor in the hands of SQLite. -/
structure CursorSession where
  cursor : ScanCursor
  phase : SessionPhase
  deriving DecidableEq, Repr

/-- The session that `xOpen` starts. -/
def CursorSession.init : CursorSession := ⟨moduleOpen, .opened⟩

/-- The session after a call that moves the cursor. -/
def CursorSession.after (result : CursorCode × ScanCursor) : CursorSession :=
  ⟨result.2, if result.1 = .ok then .scanning else .ended⟩

/-- A call. -/
def CursorSession.step (session : CursorSession) : CursorCall → CursorSession
  | .filter call => .after (moduleFilter call session.cursor)
  | .next call => .after (moduleNext call session.cursor)
  | .eof | .column | .rowid => session

/-- The arguments are those that `xBestIndex` gave to SQLite. -/
def FilterCall.WellFormed (call : FilterCall) : Prop :=
  call.indexNumber = filterIndexNumber ∧ call.indexString ≠ none ∧ 0 ≤ call.argumentCount

/-- **The calls that SQLite's protocol allows.** -/
def CursorSession.Permits (session : CursorSession) : CursorCall → Prop
  | .filter call => session.phase ≠ .ended ∧ call.WellFormed
  | .eof => session.phase = .scanning
  | .next _ | .column | .rowid => session.phase = .scanning ∧ moduleEof session.cursor = false

/-- A call that failed has left the machine failed. -/
def FailsClosed (result : CursorCode × ScanCursor) : Prop :=
  result.1 ≠ .ok → result.2.machine.state = .failed

/-- **What is promised of a call**: a filter is not refused, and a failure shows in the machine. -/
def CursorSession.Meets (session : CursorSession) : CursorCall → Prop
  | .filter call => (moduleFilter call session.cursor).1 ≠ .misuse ∧
      FailsClosed (moduleFilter call session.cursor)
  | .next call => FailsClosed (moduleNext call session.cursor)
  | .eof | .column | .rowid => True

/-- Once its plan is read, a filter takes none of the early returns: the snapshot of a materialized
table opens with the arguments of the plan, and the transaction lets a live scan in. -/
def FilterCall.PlanClean (call : FilterCall) : Prop :=
  ∀ argumentCount ∈ call.planArgumentCount,
    if call.materialized then
      (argumentCount : ℤ) = call.argumentCount ∧ call.valuesConvert ∧ call.snapshotAcquired ∧
        call.scanOpens
    else call.executionBuilt → call.withinBudget → call.stream = .idle ∨ call.stream = .joined

/-- A filter that takes none of the early returns: the cursor is not on a row, and cached metadata
is valid. -/
def FilterCall.Clean (call : FilterCall) (cursor : ScanCursor) : Prop :=
  cursor.machine.state ≠ .rowReady ∧ (call.cacheFallback → call.validation = .ok) ∧ call.PlanClean

/-- **The calls on which the promise holds.** -/
def CursorSession.Clean (session : CursorSession) : CursorCall → Prop
  | .filter call => call.Clean session.cursor
  | .next call => session.cursor.snapshotScan ∨ call.errorInitialized
  | .eof | .column | .rowid => True

/-! ## Calls that settle -/

/-- The cursor is on a row or behind the last one if the call went well, and failed if not. -/
structure Settled (result : CursorCode × ScanCursor) : Prop where
  live : result.2.machine.Live
  ok : result.1 = .ok → result.2.machine.state = .rowReady ∨ result.2.machine.state = .eof
  failed : FailsClosed result
  accepted : result.1 ≠ .misuse

/-- A call that fails leaves a cursor that failed. -/
theorem Settled.of_fail {code : CursorCode} (hok : code ≠ .ok) (hmisuse : code ≠ .misuse)
    {cursor : ScanCursor} (h : cursor.machine.Live) : Settled (code, cursor.fire .fail) where
  live := h.fire (by decide)
  ok hcode := absurd hcode hok
  failed _ := h.fire_fail
  accepted := hmisuse

theorem reportedCode_ne (sqliteCode : Option ℤ) :
    reportedCode sqliteCode ≠ .ok ∧ reportedCode sqliteCode ≠ .misuse := by
  cases sqliteCode <;> simp [reportedCode]

/-- Behind the last row the cursor is at the end… -/
theorem state_of_complete {machine next : CursorMachine}
    (h : cursorTransition machine .complete = some next) : next.state = .eof := by
  obtain ⟨hstate, -⟩ := cursorTransition_eq_some h
  simp only [cursorNextState, reduceCtorEq, false_and, if_false] at hstate
  unfold CursorMachine.switch at hstate
  split at hstate <;> simp_all

/-- …and with a row, at the row. -/
theorem state_of_row {machine next : CursorMachine}
    (h : cursorTransition machine .row = some next) : next.state = .rowReady := by
  obtain ⟨hstate, -⟩ := cursorTransition_eq_some h
  simp only [cursorNextState, reduceCtorEq, false_and, if_false] at hstate
  unfold CursorMachine.switch at hstate
  split at hstate <;> simp_all

/-! ## The live path -/

section Live

variable {world : FetchWorld} {cursor : ScanCursor}

/-- **Every step leaves the cursor live or failed**, as leaving a row does. -/
theorem settles_leaveRow (h : cursor.machine.Live) :
    Settles (·.machine.Live) (·.machine.Live) (cursorLeaveRow world cursor) := by
  unfold cursorLeaveRow
  by_cases hrow : cursor.row
  · rw [if_neg (by simp [hrow])]
    cases hmachine : cursorTransition cursor.machine .fetch with
    | none => exact h
    | some machine =>
      have hlive : machine.Live := h.transition hmachine (by decide)
      by_cases hconsumed : world.rowConsumed
      · simpa [hconsumed, Settles] using hlive
      · simpa [hconsumed, Settles] using hlive
  · rw [if_pos (by simp [hrow])]
    exact h

/-- A fetch leaves the cursor live or failed. -/
theorem settles_fetch (h : cursor.machine.Live) :
    Settles (·.machine.Live) (·.machine.Live) (cursorFetch world cursor) := by
  have hlive := @CursorMachine.Live.driveStatement world.polls vtabDriveLimit 0 cursor.machine h
  unfold cursorFetch
  simp only
  split_ifs
  · exact h
  · exact hlive
  · exact hlive
  · exact hlive

/-- What is received leaves it at a row or at the end, or failed. -/
theorem settles_receive (h : cursor.machine.Live) :
    Settles (·.machine.Live) (fun c => c.machine.Live ∧
      (c.machine.state = .rowReady ∨ c.machine.state = .eof)) (cursorReceive world cursor) := by
  unfold cursorReceive
  by_cases hcomplete : world.statementComplete
  · rw [if_pos hcomplete]
    cases hmachine : cursorTransition cursor.machine .complete with
    | none => exact h
    | some machine =>
      have hlive : machine.Live := h.transition hmachine (by decide)
      by_cases hcloses : world.statementCloses
      · simpa [hcloses, Settles] using ⟨hlive, .inr (state_of_complete hmachine)⟩
      · simpa [hcloses, Settles] using hlive
  · rw [if_neg hcomplete]
    by_cases haccepted : world.rowAccepted
    · rw [if_neg (by simp [haccepted])]
      cases hmachine : cursorTransition cursor.machine .row with
      | none => exact h
      | some machine =>
        exact ⟨h.transition hmachine (by decide), .inl (state_of_row hmachine)⟩
    · rw [if_pos (by simp [haccepted])]
      exact h

/-- **Every fetch settles.** -/
theorem settled_advance (h : cursor.machine.Live) : Settled (cursorAdvance world cursor) := by
  have hsettles : Settles (·.machine.Live) (fun c => c.machine.Live ∧
      (c.machine.state = .rowReady ∨ c.machine.state = .eof))
      (cursorLeaveRow world cursor >>= cursorFetch world >>= cursorReceive world) :=
    ((settles_leaveRow h).bind fun _ hleft => settles_fetch hleft).bind fun _ hfetched =>
      settles_receive hfetched
  unfold cursorAdvance
  split
  · rename_i c hc
    rw [hc] at hsettles
    exact ⟨hsettles.1, fun _ => hsettles.2, fun hne => absurd rfl hne, by simp⟩
  · rename_i c hc
    rw [hc] at hsettles
    exact .of_fail (reportedCode_ne _).1 (reportedCode_ne _).2 hsettles

end Live

/-! ## The snapshot path -/

section Snapshot

variable {world : SnapshotWorld} {cursor : ScanCursor}

theorem settled_snapshotFailed (h : cursor.machine.Live) : Settled (snapshotFailed cursor) :=
  .of_fail (by simp) (by simp) h

/-- A step through a snapshot leaves it at a row or at the end, or failed. -/
theorem settled_snapshotStep (h : cursor.machine.Live) : Settled (snapshotStep world cursor) := by
  unfold snapshotStep
  split
  · exact settled_snapshotFailed h
  · split
    · exact settled_snapshotFailed h
    · rename_i machine hmachine
      exact ⟨h.transition hmachine (by decide), fun _ => .inr (state_of_complete hmachine),
        fun hne => absurd rfl hne, by simp⟩
  · split_ifs
    · exact settled_snapshotFailed h
    · split
      · exact settled_snapshotFailed h
      · rename_i machine hmachine
        exact ⟨h.transition hmachine (by decide), fun _ => .inl (state_of_row hmachine),
          fun hne => absurd rfl hne, by simp⟩

/-- **Every step of a snapshot settles** if the cursor has no row or is on one. -/
theorem settled_snapshotAdvance (h : cursor.machine.Live)
    (hrow : cursor.snapshotRow → cursor.machine.state = .rowReady) :
    Settled (snapshotAdvance world cursor) := by
  unfold snapshotAdvance
  by_cases hsnapshot : cursor.snapshotRow
  · rw [if_neg (by simp [hsnapshot])]
    have hfetch : cursorTransition cursor.machine .fetch ≠ none := by
      simp [cursorTransition, cursorNextState, CursorMachine.switch, hrow hsnapshot]
    split
    · exact absurd ‹_› hfetch
    · rename_i machine hmachine
      have hlive : machine.Live := h.transition hmachine (by decide)
      exact settled_snapshotStep hlive
  · rw [if_pos (by simp [hsnapshot])]
    exact settled_snapshotStep h

end Snapshot

/-! ## Filters -/

section Filter

variable (call : FilterCall) {cursor : ScanCursor}

theorem settled_filterStatement (ready : Bool) (h : cursor.machine.Live) :
    Settled (filterStatement call ready cursor) := by
  have hfailed {c : ScanCursor} (hc : c.machine.Live) :
      Settled (reportedCode call.sqliteCode, c.fire .fail) :=
    .of_fail (reportedCode_ne _).1 (reportedCode_ne _).2 hc
  have hdriven := @CursorMachine.Live.driveStatement call.polls vtabDriveLimit 0 cursor.machine h
  unfold filterStatement
  simp only
  split_ifs
  · exact hfailed h
  · exact hfailed h
  · exact settled_advance hdriven
  · exact hfailed hdriven

/-- A filter of a materialized table settles, unless it returns before it has a scan. -/
theorem snapshotFilter_cases (argumentCount : ℕ) (h : cursor.machine.Live)
    (hrow : cursor.snapshotRow = false) :
    if (argumentCount : ℤ) = call.argumentCount ∧ call.valuesConvert ∧ call.snapshotAcquired ∧
        call.scanOpens then Settled (snapshotFilter call argumentCount cursor)
    else (snapshotFilter call argumentCount cursor).1 ≠ .ok ∧
      (snapshotFilter call argumentCount cursor).2 = cursor := by
  unfold snapshotFilter
  by_cases hcount : (argumentCount : ℤ) = call.argumentCount
  swap
  · simp [hcount]
  by_cases hvalues : call.valuesConvert
  swap
  · simp [hcount, hvalues]
  by_cases hacquired : call.snapshotAcquired
  swap
  · simp [hcount, hvalues, hacquired]
  by_cases hopens : call.scanOpens
  swap
  · simp [hcount, hvalues, hacquired, hopens]
  simp only [hcount, hvalues, hacquired, hopens, and_self, if_true, ne_eq, not_true_eq_false,
    if_false, Bool.not_true, Bool.false_eq_true]
  exact settled_snapshotAdvance h (by simp [hrow])

/-- A live filter settles, unless the transaction does not let it in. -/
theorem liveFilter_cases (h : cursor.machine.Live) :
    if call.executionBuilt → call.withinBudget → call.stream = .idle ∨ call.stream = .joined then
      Settled (liveFilter call cursor)
    else (liveFilter call cursor).1 ≠ .ok ∧ (liveFilter call cursor).2 = cursor := by
  unfold liveFilter
  by_cases hbuilt : call.executionBuilt
  swap
  · simpa [hbuilt] using Settled.of_fail (by simp) (by simp) h
  by_cases hbudget : call.withinBudget
  swap
  · simpa [hbuilt, hbudget] using Settled.of_fail (by simp) (by simp) h
  cases hstream : call.stream with
  | idle => simpa [hbuilt, hbudget] using settled_filterStatement call call.leaseAcquired h
  | joined =>
    have hjoined : { cursor with transactionStream := true }.machine.Live := h
    simpa [hbuilt, hbudget] using settled_filterStatement call true hjoined
  | busy => simp [hbuilt, hbudget]
  | refused => simp [hbuilt, hbudget]

/-- **Behind its transition a filter settles, or leaves the cursor filtering.** -/
theorem filterPlan_cases (h : cursor.machine.Live) (hrow : cursor.snapshotRow = false) :
    (call.PlanClean → Settled (filterPlan call cursor)) ∧
      (¬ call.PlanClean → (filterPlan call cursor).1 ≠ .ok ∧
        (filterPlan call cursor).2 = cursor) := by
  unfold filterPlan FilterCall.PlanClean
  cases call.planArgumentCount with
  | none => simpa using Settled.of_fail (by simp) (by simp) h
  | some argumentCount =>
    have hsnapshot := snapshotFilter_cases call argumentCount h hrow
    have hlive := liveFilter_cases call h
    simp only [Option.mem_def, Option.some.injEq, forall_eq']
    by_cases hmaterialized : call.materialized
    · simp only [hmaterialized, if_true]
      refine ⟨fun hclean => ?_, fun hclean => ?_⟩
      · rwa [if_pos hclean] at hsnapshot
      · rwa [if_neg hclean] at hsnapshot
    · simp only [hmaterialized, if_false, Bool.false_eq_true]
      refine ⟨fun hclean => ?_, fun hclean => ?_⟩
      · rwa [if_pos hclean] at hlive
      · rwa [if_neg hclean] at hlive

theorem release_of_idle (world : ReleaseWorld)
    (h : cursor.machine.state = .opened ∨ cursor.machine.state = .eof) :
    (cursorRelease world cursor).machine = cursor.machine ∧
      (cursorRelease world cursor).snapshotRow = false := by
  have hruns : ¬ (cursor.machine.state = .filtering ∨ cursor.machine.state = .waiting ∨
      cursor.machine.state = .rowReady) := by
    rcases h with h | h <;> simp [h]
  simp [cursorRelease, hruns, ScanCursor.rowReset]

/-- A filter of a cursor that is not on a row passes the guard of `vps_module_filter`. -/
theorem passes_guard (hwell : call.WellFormed)
    (hidle : cursor.machine.state = .opened ∨ cursor.machine.state = .eof) :
    ¬ (call.indexNumber ≠ filterIndexNumber ∨ call.indexString = none ∨ call.argumentCount < 0 ∨
      (cursor.machine.state ≠ .opened ∧ cursor.machine.state ≠ .eof)) := by
  obtain ⟨hnumber, hstring, hcount⟩ := hwell
  rintro (h | h | h | ⟨hopened, heof⟩)
  · exact h hnumber
  · exact hstring h
  · exact absurd hcount (Int.not_le.2 h)
  · exact hidle.elim hopened heof

/-- A filter of a cursor that is not on a row runs its plan from the filtering state. -/
theorem moduleFilter_eq (hwell : call.WellFormed)
    (hidle : cursor.machine.state = .opened ∨ cursor.machine.state = .eof)
    (hvalid : call.cacheFallback → call.validation = .ok) (hlive : cursor.machine.Live) :
    ∃ filtering : ScanCursor, filtering.machine.state = .filtering ∧ filtering.machine.Live ∧
      filtering.snapshotRow = false ∧ moduleFilter call cursor = filterPlan call filtering := by
  obtain ⟨hmachine, hrow⟩ := release_of_idle call.release hidle
  obtain ⟨machine, hfilter⟩ :
    ∃ machine, cursorTransition cursor.machine .filter = some machine := by
    rcases hidle with h | h <;> simp [cursorTransition, cursorNextState, CursorMachine.switch, h]
  have hstate : machine.state = .filtering := by
    obtain ⟨hnext, -⟩ := cursorTransition_eq_some hfilter
    rcases hidle with h | h <;>
      simpa [cursorNextState, CursorMachine.switch, h, eq_comm] using hnext
  refine ⟨{ cursorRelease call.release cursor with machine }, hstate,
    hlive.transition hfilter (by decide), hrow, ?_⟩
  rw [moduleFilter, if_neg (passes_guard call hwell hidle), if_neg fun h => h.2 (hvalid h.1)]
  simp only [hmachine, hfilter]

/-- **A filter keeps the promise if and only if it is clean.** -/
theorem moduleFilter_meets_iff (hwell : call.WellFormed) (hlive : cursor.machine.Live)
    (hstate : cursor.machine.state = .opened ∨ cursor.machine.state = .rowReady ∨
      cursor.machine.state = .eof) :
    ((moduleFilter call cursor).1 ≠ .misuse ∧ FailsClosed (moduleFilter call cursor)) ↔
      call.Clean cursor := by
  by_cases hrow : cursor.machine.state = .rowReady
  · have hmisuse : (moduleFilter call cursor).1 = .misuse := by
      rw [moduleFilter, if_pos (by simp [hrow])]
    simp [FilterCall.Clean, hrow, hmisuse]
  have hidle : cursor.machine.state = .opened ∨ cursor.machine.state = .eof :=
    hstate.imp_right fun h => h.resolve_left hrow
  by_cases hvalid : call.cacheFallback → call.validation = .ok
  swap
  · -- the validation returns with the machine as it was
    obtain ⟨hfallback, hinvalid⟩ := Classical.not_imp.1 hvalid
    have hresult : moduleFilter call cursor = (call.validation, cursor) := by
      rw [moduleFilter, if_neg (passes_guard call hwell hidle), if_pos ⟨hfallback, hinvalid⟩]
    have hnot : ¬ FailsClosed (moduleFilter call cursor) := by
      rw [hresult]
      intro hcloses
      have hfailed : cursor.machine.state = .failed := hcloses hinvalid
      rcases hidle with h | h <;> rw [h] at hfailed <;> cases hfailed
    exact ⟨fun hmeets => absurd hmeets.2 hnot, fun hclean => absurd hclean.2.1 hvalid⟩
  obtain ⟨filtering, hfiltering, hlive', hrow', heq⟩ :=
    moduleFilter_eq call hwell hidle hvalid hlive
  obtain ⟨hsettled, hearly⟩ := filterPlan_cases call hlive' hrow'
  rw [heq]
  refine ⟨fun hmeets => ⟨hrow, hvalid, ?_⟩, fun hclean => ?_⟩
  · by_contra hplan
    obtain ⟨hne, hsame⟩ := hearly hplan
    have := hmeets.2 hne
    rw [hsame, hfiltering] at this
    cases this
  · have h := hsettled hclean.2.2
    exact ⟨h.accepted, h.failed⟩

/-- A filter that went well leaves the cursor on a row or behind the last one. -/
theorem moduleFilter_ok (hwell : call.WellFormed) (hlive : cursor.machine.Live)
    (hok : (moduleFilter call cursor).1 = .ok) :
    (moduleFilter call cursor).2.machine.Live ∧
      ((moduleFilter call cursor).2.machine.state = .rowReady ∨
        (moduleFilter call cursor).2.machine.state = .eof) := by
  have hidle : cursor.machine.state = .opened ∨ cursor.machine.state = .eof := by
    by_contra hnot
    rw [moduleFilter, if_pos (.inr (.inr (.inr (not_or.1 hnot))))] at hok
    cases hok
  have hvalid : call.cacheFallback → call.validation = .ok := by
    intro hfallback
    by_contra hne
    rw [moduleFilter] at hok
    split at hok
    · cases hok
    · rw [if_pos ⟨hfallback, hne⟩] at hok
      exact hne hok
  obtain ⟨filtering, -, hlive', hrow', heq⟩ := moduleFilter_eq call hwell hidle hvalid hlive
  obtain ⟨hsettled, hearly⟩ := filterPlan_cases call hlive' hrow'
  rw [heq] at hok ⊢
  have hclean : call.PlanClean := by
    by_contra hplan
    exact (hearly hplan).1 hok
  exact ⟨(hsettled hclean).live, (hsettled hclean).ok hok⟩

end Filter

/-! ## Rows -/

section Next

variable (call : NextCall) {cursor : ScanCursor}

/-- **The next row settles**, unless there is no memory for the error record. -/
theorem moduleNext_cases (hlive : cursor.machine.Live) (hrow : cursor.machine.state = .rowReady) :
    (cursor.snapshotScan ∨ call.errorInitialized → Settled (moduleNext call cursor)) ∧
      (¬ (cursor.snapshotScan ∨ call.errorInitialized) →
        moduleNext call cursor = (.nomem, cursor)) := by
  unfold moduleNext
  rw [if_neg (by simp [hrow])]
  by_cases hsnapshot : cursor.snapshotScan
  · simpa [hsnapshot] using settled_snapshotAdvance hlive fun _ => hrow
  by_cases herror : call.errorInitialized
  · simpa [hsnapshot, herror] using settled_advance hlive
  · simp [hsnapshot, herror]

end Next

/-! ## The protocol -/

/-- **What holds between two calls of a session.** -/
structure CursorSession.Inv (session : CursorSession) : Prop where
  live : session.phase ≠ .ended → session.cursor.machine.Live
  opened : session.phase = .opened → session.cursor.machine.state = .opened
  scanning : session.phase = .scanning →
    session.cursor.machine.state = .rowReady ∨ session.cursor.machine.state = .eof

/-- A new session is in order. -/
theorem CursorSession.inv_init : CursorSession.init.Inv where
  live _ := ⟨by decide, by decide⟩
  opened _ := by decide
  scanning h := by cases h

theorem CursorSession.inv_after {result : CursorCode × ScanCursor}
    (h : result.1 = .ok → result.2.machine.Live ∧
      (result.2.machine.state = .rowReady ∨ result.2.machine.state = .eof)) :
    (CursorSession.after result).Inv := by
  by_cases hok : result.1 = .ok
  · refine ⟨fun _ => (h hok).1, fun hphase => ?_, fun _ => (h hok).2⟩
    simp [CursorSession.after, hok] at hphase
  · refine ⟨fun hphase => ?_, fun hphase => ?_, fun hphase => ?_⟩
    all_goals simp [CursorSession.after, hok] at hphase

/-- A `next` is only permitted at a row. -/
theorem CursorSession.rowReady_of_next {session : CursorSession} (hinv : session.Inv)
    {call : NextCall} (h : session.Permits (.next call)) :
    session.cursor.machine.state = .rowReady := by
  refine (hinv.scanning h.1).resolve_right fun heof => ?_
  simpa [moduleEof, heof] using h.2

/-- **A permitted call keeps the invariant.** -/
theorem CursorSession.inv_step {session : CursorSession} {call : CursorCall} (hinv : session.Inv)
    (h : session.Permits call) : (session.step call).Inv := by
  cases call with
  | filter call => exact inv_after (moduleFilter_ok call h.2 (hinv.live h.1))
  | next call =>
    have hrow := rowReady_of_next hinv h
    have hlive := hinv.live (by simp [h.1])
    obtain ⟨hsettled, hearly⟩ := moduleNext_cases call hlive hrow
    refine inv_after fun hok => ?_
    by_cases hclean : session.cursor.snapshotScan ∨ call.errorInitialized
    · exact ⟨(hsettled hclean).live, (hsettled hclean).ok hok⟩
    · rw [hearly hclean] at hok
      cases hok
  | eof => exact hinv
  | column => exact hinv
  | rowid => exact hinv

/-- **A permitted call keeps the promise if and only if it is clean.** -/
theorem CursorSession.meets_iff {session : CursorSession} {call : CursorCall} (hinv : session.Inv)
    (h : session.Permits call) : session.Meets call ↔ session.Clean call := by
  cases call with
  | filter call =>
    refine moduleFilter_meets_iff call h.2 (hinv.live h.1) ?_
    cases hphase : session.phase with
    | opened => exact .inl (hinv.opened hphase)
    | scanning => exact .inr (hinv.scanning hphase)
    | ended => exact absurd hphase h.1
  | next call =>
    have hrow := rowReady_of_next hinv h
    obtain ⟨hsettled, hearly⟩ := moduleNext_cases call (hinv.live (by simp [h.1])) hrow
    refine ⟨fun hmeets => ?_, fun hclean => (hsettled hclean).failed⟩
    by_contra hclean
    have hfailed : session.cursor.machine.state = .failed := by
      have := hmeets
      simp only [CursorSession.Meets, hearly hclean] at this
      exact this (by simp)
    rw [hrow] at hfailed
    cases hfailed
  | eof => exact Iff.rfl
  | column => exact Iff.rfl
  | rowid => exact Iff.rfl

/-- **The cursor protocol**: in every run of calls that SQLite's protocol allows, no filter is
refused for the state of the cursor and every failure leaves the machine failed, if and only if
every call of the run is clean. -/
theorem cursor_protocol_iff {calls : List CursorCall}
    (hcalls : Along CursorSession.Permits CursorSession.step .init calls) :
    Along CursorSession.Meets CursorSession.step .init calls ↔
      Along CursorSession.Clean CursorSession.step .init calls :=
  Along.iff_of_invariant CursorSession.Inv (fun _ _ => CursorSession.inv_step)
    (fun _ _ => CursorSession.meets_iff) hcalls CursorSession.inv_init

/-- A fetch that gets a row, or the end of the rows. -/
def plainFetch (complete : Bool) : FetchWorld where
  rowConsumed := true
  fetchStarts := true
  polls _ := .rowReady
  errorInitialized := true
  interrupted := false
  statementComplete := complete
  statementCloses := true
  rowAccepted := true
  sqliteCode := none

/-- A live filter on which nothing fails. -/
def plainFilter (complete : Bool) : FilterCall where
  indexNumber := filterIndexNumber
  indexString := some []
  argumentCount := 0
  cacheFallback := false
  validation := .ok
  release := ⟨true, true, fun _ => .complete⟩
  planArgumentCount := some 0
  materialized := false
  valuesConvert := true
  snapshotAcquired := true
  scanOpens := true
  snapshot := ⟨some true, true⟩
  executionBuilt := true
  withinBudget := true
  stream := .idle
  leaseAcquired := true
  statementOpens := true
  executeStarts := true
  polls _ := .complete
  sqliteCode := none
  fetch := plainFetch complete

/-- The next row of a live scan, on which nothing fails. -/
def plainNext (complete : Bool) : NextCall := ⟨true, ⟨some true, true⟩, plainFetch complete⟩

theorem wellFormed_plainFilter (complete : Bool) : (plainFilter complete).WellFormed :=
  ⟨rfl, by simp [plainFilter], by simp [plainFilter]⟩

/-- A scan to its end and a second one keep the promise. -/
theorem cursor_protocol_rescan :
    Along CursorSession.Permits CursorSession.step .init
        [.filter (plainFilter false), .next (plainNext true), .filter (plainFilter true)] ∧
      Along CursorSession.Meets CursorSession.step .init
        [.filter (plainFilter false), .next (plainNext true), .filter (plainFilter true)] := by
  have hpermits : Along CursorSession.Permits CursorSession.step .init
      [.filter (plainFilter false), .next (plainNext true), .filter (plainFilter true)] :=
    ⟨⟨by decide +kernel, wellFormed_plainFilter _⟩, ⟨by decide +kernel, by decide +kernel⟩,
      ⟨by decide +kernel, wellFormed_plainFilter _⟩, trivial⟩
  refine ⟨hpermits, (cursor_protocol_iff hpermits).2 ⟨⟨by decide +kernel, ?_, ?_⟩, .inr rfl,
    ⟨by decide +kernel, ?_, ?_⟩, trivial⟩⟩
  all_goals simp [plainFilter, FilterCall.PlanClean]

/-- **A cursor that is on a row is not filtered again.** -/
theorem cursor_refilter_refused :
    Along CursorSession.Permits CursorSession.step .init
        [.filter (plainFilter false), .filter (plainFilter false)] ∧
      ¬ Along CursorSession.Meets CursorSession.step .init
        [.filter (plainFilter false), .filter (plainFilter false)] := by
  refine ⟨⟨⟨by decide +kernel, wellFormed_plainFilter _⟩,
    ⟨by decide +kernel, wellFormed_plainFilter _⟩, trivial⟩, ?_⟩
  rintro ⟨-, ⟨hmisuse, -⟩, -⟩
  exact hmisuse (by decide +kernel)

-- a filter whose snapshot cannot be built leaves the machine filtering
example :
    (moduleFilter { plainFilter false with materialized := true, snapshotAcquired := false }
      moduleOpen).2.machine.state = .filtering := by
  decide +kernel

end Vps
