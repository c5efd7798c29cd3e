import Mathlib.Data.Nat.Notation
import Mathlib.Data.Option.Basic
import Mathlib.Tactic.SplitIfs

/-!
# Cursor/Machine — the states of a cursor

`vps_cursor_transition` moves a cursor between nine states by ten events and refuses an event that
its state does not take.  `vps_drive_statement` fires the events of waiting while it polls the
statement of the cursor.
-/

namespace Vps

/-! ## The machine -/

/-- `VpsCursorState` -/
inductive CursorState
  | new | opened | filtering | waiting | rowReady | eof | cancelling | failed | closed
  deriving DecidableEq, Repr

/-- `VpsCursorEvent` -/
inductive CursorEvent
  | opened | filter | fetch | wait | resume | row | complete | cancel | fail | close
  deriving DecidableEq, Repr

/-- `VpsCursorMachine` without its logger. -/
structure CursorMachine where
  state : CursorState
  waitingFrom : CursorState
  transitionCount : ℕ
  deriving DecidableEq, Repr

/-- `vps_cursor_machine_init` -/
def cursorMachineInit : CursorMachine := ⟨.new, .new, 0⟩

/-- The `switch` of `vps_cursor_next_state`. -/
def CursorMachine.switch (machine : CursorMachine) (event : CursorEvent) : Option CursorState :=
  match machine.state, event with
  | .new, .opened => some .opened
  | .opened, .filter => some .filtering
  | .eof, .filter => some .filtering
  | .filtering, .wait => some .waiting
  | .filtering, .row => some .rowReady
  | .filtering, .complete => some .eof
  | .filtering, .cancel => some .cancelling
  | .waiting, .resume => some machine.waitingFrom
  | .waiting, .cancel => some .cancelling
  | .rowReady, .fetch => some .filtering
  | .rowReady, .cancel => some .cancelling
  | .cancelling, .wait => some .waiting
  | .cancelling, .complete => some .eof
  | _, _ => none

/-- `vps_cursor_next_state` -/
def cursorNextState (machine : CursorMachine) (event : CursorEvent) : Option CursorState :=
  if event = .fail ∧ machine.state ≠ .closed then some .failed
  else if event = .close ∧ machine.state ≠ .closed then some .closed
  else machine.switch event

/-- **`vps_cursor_transition`**; a refused event leaves the machine as it is. -/
def cursorTransition (machine : CursorMachine) (event : CursorEvent) : Option CursorMachine :=
  (cursorNextState machine event).map fun next =>
    { state := next
      waitingFrom := if event = .wait then machine.state else machine.waitingFrom
      transitionCount := machine.transitionCount + 1 }

/-- An event whose refusal nobody looks at. -/
def CursorMachine.fire (machine : CursorMachine) (event : CursorEvent) : CursorMachine :=
  (cursorTransition machine event).getD machine

/-! ## Driving a statement -/

/-- What `vps_client_statement_wait` answers; an interrupt, a timeout or a cancellation is followed
by the start of a cancel request. -/
inductive WaitOutcome
  | ready
  | interrupted (cancelStarts : Bool)
  | failed
  deriving DecidableEq, Repr

/-- What `vps_client_statement_poll` answers, and the wait after it. -/
inductive PollOutcome
  | failed
  | complete
  | rowReady
  | wait (outcome : WaitOutcome)
  | other
  deriving DecidableEq, Repr

/-- `VPS_VTAB_DRIVE_LIMIT` -/
def vtabDriveLimit : ℕ := 65536

/-- **`vps_drive_statement`**, from an attempt on: whether the statement got there. -/
def driveStatement (polls : ℕ → PollOutcome) : ℕ → ℕ → CursorMachine → Bool × CursorMachine
  | 0, _, machine => (false, machine)
  | left + 1, attempt, machine =>
    match polls attempt with
    | .failed | .other => (false, machine)
    | .complete | .rowReady =>
      if machine.state = .waiting then
        match cursorTransition machine .resume with
        | none => (false, machine)
        | some machine => (true, machine)
      else (true, machine)
    | .wait outcome =>
      match cursorTransition machine .wait with
      | none => (false, machine)
      | some machine =>
        match outcome with
        | .interrupted cancelStarts =>
          match cursorTransition machine .cancel with
          | none => (false, machine)
          | some machine =>
            if cancelStarts then driveStatement polls left (attempt + 1) machine
            else (false, machine)
        | .ready =>
          match cursorTransition machine .resume with
          | none => (false, machine)
          | some machine => driveStatement polls left (attempt + 1) machine
        | .failed => (false, machine.fire .resume)

/-! ## What a transition does -/

/-- A machine that was not closed, and does not wait to be. -/
def CursorMachine.Live (machine : CursorMachine) : Prop :=
  machine.state ≠ .closed ∧ machine.waitingFrom ≠ .closed

theorem cursorTransition_eq_some {machine next : CursorMachine} {event : CursorEvent}
    (h : cursorTransition machine event = some next) :
    cursorNextState machine event = some next.state ∧
      next.waitingFrom = if event = .wait then machine.state else machine.waitingFrom := by
  obtain ⟨state, hstate, rfl⟩ := Option.map_eq_some_iff.1 h
  exact ⟨hstate, rfl⟩

theorem CursorMachine.switch_ne_closed {machine : CursorMachine} (h : machine.waitingFrom ≠ .closed)
    (event : CursorEvent) : machine.switch event ≠ some .closed := by
  unfold CursorMachine.switch
  split <;> simp [h]

/-- Only a close closes. -/
theorem CursorMachine.Live.transition {machine next : CursorMachine} (h : machine.Live)
    {event : CursorEvent} (hnext : cursorTransition machine event = some next)
    (hevent : event ≠ .close) : next.Live := by
  obtain ⟨hstate, hwaiting⟩ := cursorTransition_eq_some hnext
  refine ⟨?_, ?_⟩
  · intro hclosed
    rw [hclosed, cursorNextState] at hstate
    split at hstate
    · cases hstate
    · rw [if_neg fun hclose => hevent hclose.1] at hstate
      exact CursorMachine.switch_ne_closed h.2 event hstate
  · rw [hwaiting]
    split_ifs
    · exact h.1
    · exact h.2

theorem CursorMachine.Live.fire {machine : CursorMachine} (h : machine.Live) {event : CursorEvent}
    (hevent : event ≠ .close) : (machine.fire event).Live := by
  unfold CursorMachine.fire
  cases hnext : cursorTransition machine event with
  | none => exact h
  | some next => exact h.transition hnext hevent

/-- **A failure is taken in every state but the last.** -/
theorem CursorMachine.Live.fire_fail {machine : CursorMachine} (h : machine.Live) :
    (machine.fire .fail).state = .failed := by
  simp [CursorMachine.fire, cursorTransition, cursorNextState, h.1]

/-- **Driving a statement keeps the cursor from closing.** -/
theorem CursorMachine.Live.driveStatement {polls : ℕ → PollOutcome} {left attempt : ℕ}
    {machine : CursorMachine} (h : machine.Live) :
    (Vps.driveStatement polls left attempt machine).2.Live := by
  induction left generalizing attempt machine with
  | zero => exact h
  | succ left ih =>
    unfold Vps.driveStatement
    cases polls attempt with
    | failed => exact h
    | other => exact h
    | complete | rowReady =>
      simp only
      split_ifs
      · split
        · exact h
        · exact h.transition ‹_› (by decide)
      · exact h
    | wait outcome =>
      simp only
      split
      · exact h
      rename_i waiting hwaiting
      have hlive := h.transition hwaiting (by decide)
      cases outcome with
      | ready =>
        simp only
        split
        · exact hlive
        · exact ih (hlive.transition ‹_› (by decide))
      | interrupted cancelStarts =>
        simp only
        split
        · exact hlive
        rename_i cancelling hcancelling
        have hcancelled := hlive.transition hcancelling (by decide)
        split_ifs
        · exact ih hcancelled
        · exact hcancelled
      | failed => exact hlive.fire (by decide)

end Vps
