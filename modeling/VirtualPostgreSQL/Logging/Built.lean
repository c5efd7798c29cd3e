import VirtualPostgreSQL.Logging.Storage
import VirtualPostgreSQL.Machinery.Run

/-!
# Logging/Built — events that are built while their strings are spared

A call that adds a field asks all its questions before it changes anything, except that a primary
message is in its storage by then.  So an event stays clean, and a call that is refused leaves it as
it is, as long as no message is written over a string of the event: `log_event_runs`.
`log_event_overwritten` is a call that answers `DUPLICATE_FIELD` and puts a password where the event
has a redacted message.
-/

namespace Vps

open Machinery

/-! ## Calls that are refused -/

/-- The result says that a field was added, or left out for its secrets. -/
def LogResult.IsTaken (result : LogResult) : Prop := result = .ok ∨ result = .redacted

section Refused

variable {debug : Bool} {memory : ℕ → UInt8} {event : LogEventView}

theorem init_refused {level : LogLevel} (h : ¬(event.init level).1.IsTaken) :
    (event.init level).2 = event := by
  revert h
  unfold LogEventView.init
  split
  · exact fun _ => rfl
  · exact fun h => absurd (.inl rfl) h

theorem addString_refused {key : LogFieldKey} {value : LogPointer}
    (h : ¬(event.addString debug memory key value).1.IsTaken) :
    (event.addString debug memory key value).2 = event := by
  revert h
  unfold LogEventView.addString
  split
  · exact fun _ => rfl
  · cases value.data with
    | none => exact fun _ => rfl
    | some data =>
      simp only [LogEventView.addBytes]
      generalize (if key = .argument then false
        else logValueIsSensitive (cellsAt memory data value.length)) = sensitive
      repeat' split
      all_goals first | exact fun _ => rfl | exact fun h => absurd (by simp [LogResult.IsTaken]) h

theorem addUint64_refused {key : LogFieldKey} {value : UInt64}
    (h : ¬(event.addUint64 key value).1.IsTaken) : (event.addUint64 key value).2 = event := by
  revert h
  unfold LogEventView.addUint64
  repeat' split
  all_goals first | exact fun _ => rfl | exact fun h => absurd (.inl rfl) h

theorem addDebugSql_refused {sql : LogPointer} (h : ¬(event.addDebugSql debug sql).1.IsTaken) :
    (event.addDebugSql debug sql).2 = event := by
  revert h
  unfold LogEventView.addDebugSql
  cases sql.data with
  | none => exact fun _ => rfl
  | some data =>
    dsimp only
    split
    · exact fun _ => rfl
    · repeat' split
      all_goals first | exact fun _ => rfl | exact fun h => absurd (.inl rfl) h

end Refused

/-! ## Calls -/

/-- An event, and the memory that its strings lie in. -/
structure LogSystem where
  memory : ℕ → UInt8
  event : LogEventView

/-- The calls on an event. -/
inductive LogCall
  | init (level : LogLevel)
  | addString (key : LogFieldKey) (value : LogPointer)
  | addUint64 (key : LogFieldKey) (value : UInt64)
  | addPrimaryMessage (value : LogPointer) (storage : Option ℕ) (storageSize : ℕ)
  | addDebugSql (sql : LogPointer)
  deriving DecidableEq, Repr

namespace LogSystem

variable (debug : Bool) (s : LogSystem)

/-- The event that the sink would read now. -/
def shown : LogEvent := s.event.shown s.memory

/-- A function that leaves the memory as it is has answered. -/
def answer (result : LogResult × LogEventView) : LogResult × LogSystem :=
  (result.1, { s with event := result.2 })

/-- A call, with its result. -/
def call (s : LogSystem) : LogCall → LogResult × LogSystem
  | .init level => s.answer (s.event.init level)
  | .addString key value => s.answer (s.event.addString debug s.memory key value)
  | .addUint64 key value => s.answer (s.event.addUint64 key value)
  | .addPrimaryMessage value storage storageSize =>
    let result := s.event.addPrimaryMessage debug s.memory value storage storageSize
    (result.1, ⟨result.2.1, result.2.2⟩)
  | .addDebugSql sql => s.answer (s.event.addDebugSql debug sql)

/-- What a call leaves. -/
def next (s : LogSystem) (call : LogCall) : LogSystem := (s.call debug call).2

end LogSystem

/-! ## Strings that stay -/

/-- **A call spares the strings of the event**: a primary message whose arguments are taken is
written where none of them lies. -/
def SparesStrings (s : LogSystem) : LogCall → Prop
  | .addPrimaryMessage value (some storage) storageSize =>
    (s.event.level = .debug ∧ value.data.isSome ∧ value.length ≠ 0 ∧ 2 ≤ storageSize) →
      s.event.ApartFrom storage (storageWritten value.length storageSize)
  | _ => True

/-- Only the strings that the event has are looked at, so it can be decided. -/
instance (s : LogSystem) : ∀ call, Decidable (SparesStrings s call)
  | .addPrimaryMessage value (some storage) storageSize =>
    inferInstanceAs
      (Decidable (_ → s.event.ApartFrom storage (storageWritten value.length storageSize)))
  | .init _ | .addString .. | .addUint64 .. | .addPrimaryMessage _ none _ | .addDebugSql _ =>
    isTrue trivial

section Calls

variable {debug : Bool} {s : LogSystem}

/-- What a function that leaves the memory does to the event that is shown. -/
theorem LogSystem.answer_shown {result : LogResult × LogEventView} {shown : LogResult × LogEvent}
    (h : shownResult s.memory result = shown) :
    (s.answer result).1 = shown.1 ∧ (s.answer result).2.shown = shown.2 :=
  ⟨congrArg Prod.fst h, congrArg Prod.snd h⟩

/-- **A primary message** whose storage is spared is added as a string, or leaves the event. -/
theorem addPrimaryMessage_spared (debug : Bool) {value : LogPointer} {storage : Option ℕ}
    {storageSize : ℕ} (h : SparesStrings s (.addPrimaryMessage value storage storageSize)) :
    (¬(s.call debug (.addPrimaryMessage value storage storageSize)).1.IsTaken ∧
        (s.next debug (.addPrimaryMessage value storage storageSize)).event = s.event ∧
        (s.next debug (.addPrimaryMessage value storage storageSize)).shown = s.shown) ∨
      ∃ memory' value', s.event.shown memory' = s.shown ∧
        s.call debug (.addPrimaryMessage value storage storageSize) =
          LogSystem.answer ⟨memory', s.event⟩
            (s.event.addString debug memory' .primaryMessage value') := by
  obtain hrefused | ⟨target, memory', rfl, hargument, hwritten, hadded⟩ :=
    addPrimaryMessage_cases debug s.memory s.event value storage storageSize
  · refine .inl ?_
    unfold LogSystem.next LogSystem.call
    dsimp only
    rw [hrefused]
    exact ⟨by simp [LogResult.IsTaken], rfl, rfl⟩
  · have hshown : s.event.shown memory' = s.shown := (h hargument).shown_eq hwritten
    obtain hmalformed | ⟨outputLength, hadded⟩ := hadded
    · refine .inl ?_
      unfold LogSystem.next LogSystem.call
      dsimp only
      rw [hmalformed]
      exact ⟨by simp [LogResult.IsTaken], rfl, hshown⟩
    · refine .inr ⟨memory', ⟨some target, outputLength⟩, hshown, ?_⟩
      unfold LogSystem.call
      dsimp only
      rw [hadded]
      rfl

/-- An answer without a new event. -/
theorem LogSystem.answer_same {result : LogResult × LogEventView} (h : result.2 = s.event) :
    (s.answer result).2 = s := by
  rw [LogSystem.answer, h]

/-- A call that is refused leaves the event as it is, and what is shown of it where its strings are
spared. -/
theorem LogSystem.call_refused {call : LogCall} (hspares : SparesStrings s call)
    (h : ¬(s.call debug call).1.IsTaken) :
    (s.next debug call).event = s.event ∧ (s.next debug call).shown = s.shown := by
  cases call with
  | init level =>
    rw [LogSystem.next, LogSystem.call, LogSystem.answer_same (init_refused h)]
    exact ⟨rfl, rfl⟩
  | addString key value =>
    rw [LogSystem.next, LogSystem.call, LogSystem.answer_same (addString_refused h)]
    exact ⟨rfl, rfl⟩
  | addUint64 key value =>
    rw [LogSystem.next, LogSystem.call, LogSystem.answer_same (addUint64_refused h)]
    exact ⟨rfl, rfl⟩
  | addPrimaryMessage value storage storageSize =>
    obtain ⟨-, hevent, hsame⟩ | ⟨memory', value', hshown, hadded⟩ :=
      addPrimaryMessage_spared debug hspares
    · exact ⟨hevent, hsame⟩
    · rw [hadded] at h
      have hsame := LogSystem.answer_same (s := ⟨memory', s.event⟩) (addString_refused h)
      rw [LogSystem.next, hadded, hsame]
      exact ⟨rfl, hshown⟩
  | addDebugSql sql =>
    rw [LogSystem.next, LogSystem.call, LogSystem.answer_same (addDebugSql_refused h)]
    exact ⟨rfl, rfl⟩

/-- **A call keeps the event clean** where it spares its strings. -/
theorem LogSystem.call_clean {call : LogCall} (hspares : SparesStrings s call)
    (h : s.shown.Clean debug) : (s.next debug call).shown.Clean debug := by
  cases call with
  | init level =>
    rw [LogSystem.next, LogSystem.call, (LogSystem.answer_shown (init_shown level)).2]
    exact h.init level
  | addString key value =>
    rw [LogSystem.next, LogSystem.call, (LogSystem.answer_shown (addString_shown key value)).2]
    exact h.addString key _
  | addUint64 key value =>
    rw [LogSystem.next, LogSystem.call, (LogSystem.answer_shown (addUint64_shown key value)).2]
    exact h.addUint64 key value
  | addPrimaryMessage value storage storageSize =>
    obtain ⟨-, -, hsame⟩ | ⟨memory', value', hshown, hadded⟩ :=
      addPrimaryMessage_spared debug hspares
    · rw [hsame]
      exact h
    · rw [LogSystem.next, hadded, (LogSystem.answer_shown (addString_shown _ value')).2]
      exact (hshown ▸ h : (s.event.shown memory').Clean debug).addString _ _
  | addDebugSql sql =>
    rw [LogSystem.next, LogSystem.call, (LogSystem.answer_shown (addDebugSql_shown sql)).2]
    exact h.addDebugSql _

end Calls

/-! ## Runs -/

/-- **Events are clean by construction**, while their strings are spared.  Whatever is called on an
event once it is initialised, with whatever results, the event that is shown is clean; and the call
that comes next leaves it as it is, the event and what is shown of it, unless it is taken. -/
theorem log_event_runs (debug : Bool) (memory : ℕ → UInt8) (event : LogEventView) (level : LogLevel)
    {calls : List LogCall} (hinit : (event.init level).1 = .ok)
    (hspares : Along SparesStrings (LogSystem.next debug) ⟨memory, (event.init level).2⟩ calls) :
    let built := calls.foldl (LogSystem.next debug) ⟨memory, (event.init level).2⟩
    built.shown.Clean debug ∧
      ∀ call, SparesStrings built call → ¬(built.call debug call).1.IsTaken →
        (built.next debug call).event = built.event ∧ (built.next debug call).shown =
          built.shown := by
  refine ⟨hspares.invariant (fun s => s.shown.Clean debug)
    (fun _ _ hclean hcall => LogSystem.call_clean hcall hclean) ?_,
    fun call => LogSystem.call_refused⟩
  revert hinit
  unfold LogEventView.init
  split
  · exact fun h => by cases h
  · rename_i hlevel
    exact fun _ => .new (by simpa using hlevel)

/-- The memory of the runs below: two messages, and room for storages behind them. -/
def messageMemory : ℕ → UInt8 := fun address => (ascii "relationPassWord").getD address 0

/-- A message is stored, a second one is refused in a storage of its own, and a secret is left
out. -/
def sparedCalls : List LogCall :=
  [.addPrimaryMessage ⟨some 0, 8⟩ (some 100) 64, .addPrimaryMessage ⟨some 8, 8⟩ (some 200) 64,
    .addString .status ⟨some 8, 8⟩, .addUint64 .rowCount 1]

theorem log_event_runs_spared :
    let built := sparedCalls.foldl (LogSystem.next true)
      ⟨messageMemory, (LogEventView.init ⟨.off, [], 3⟩ .debug).2⟩
    built.shown.Clean true ∧ built.shown.fields.length = 3 := by
  have hspares : Along SparesStrings (LogSystem.next true)
      ⟨messageMemory, (LogEventView.init ⟨.off, [], 3⟩ .debug).2⟩ sparedCalls := by decide +kernel
  exact ⟨(log_event_runs true messageMemory ⟨.off, [], 3⟩ .debug rfl hspares).1, by decide +kernel⟩

/-- An event with a primary message. -/
def messageSystem : LogSystem :=
  LogSystem.next true ⟨messageMemory, (LogEventView.init ⟨.off, [], 3⟩ .debug).2⟩
    (.addPrimaryMessage ⟨some 0, 8⟩ (some 100) 64)

/-- A second message is given the storage of the first one. -/
def overwritingCall : LogCall := .addPrimaryMessage ⟨some 8, 8⟩ (some 100) 64

/-- **A call that is refused overwrites the event**: it answers `DUPLICATE_FIELD`, and the primary
message is the password now, in an event that is valid. -/
theorem log_event_overwritten :
    (messageSystem.call true overwritingCall).1 = .duplicateField ∧
      messageSystem.shown =
        ⟨.debug, [⟨.primaryMessage, false, .string (.view (ascii "relation"))⟩], 0⟩ ∧
      (messageSystem.next true overwritingCall).shown =
        ⟨.debug, [⟨.primaryMessage, false, .string (.view (ascii "PassWord"))⟩], 0⟩ ∧
      logEventIsValid true (messageSystem.next true overwritingCall).shown ∧
      ¬(messageSystem.next true overwritingCall).shown.Clean true := by
  have hshown : (messageSystem.next true overwritingCall).shown =
      ⟨.debug, [⟨.primaryMessage, false, .string (.view (ascii "PassWord"))⟩], 0⟩ := by
        decide +kernel
  refine ⟨by decide +kernel, by decide +kernel, hshown, by decide +kernel, fun hclean => ?_⟩
  rw [hshown] at hclean
  exact hclean.free _ (List.mem_singleton_self _) _ rfl (by decide) (by decide)
    (ascii "password") (by decide) (by decide)

end Vps
