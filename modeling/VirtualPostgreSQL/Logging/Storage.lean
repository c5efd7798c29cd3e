import VirtualPostgreSQL.Logging.Clean
import VirtualPostgreSQL.Machinery.Flat

/-!
# Logging/Storage — an event is a view of the memory

An event holds the addresses of its strings, and its sink reads them when the event is emitted:
`LogEventView.shown` is the event that is read.  Of the functions that build an event only
`vps_log_event_add_primary_message` writes to the memory: it leaves a text in the storage of its
caller, and does so before it asks whether the field can be added.
-/

namespace Vps

open Machinery

/-! ## Views -/

/-- A `const char *` with its length; a null pointer has a length as well. -/
structure LogPointer where
  data : Option ℕ
  length : ℕ
  deriving DecidableEq, Repr

/-- The text that a pointer hands over. -/
def LogPointer.text (memory : ℕ → UInt8) (pointer : LogPointer) : LogText :=
  match pointer.data with
  | none => .missing pointer.length
  | some data => .given (cellsAt memory data pointer.length)

/-- `VpsLogString`: the address of `vps_log_redacted_value`, or one of the caller. -/
inductive LogStringView
  | redactedValue
  | view (data length : ℕ)
  deriving DecidableEq, Repr

/-- The type of a field with its value. -/
inductive LogFieldViewValue
  | string (value : LogStringView)
  | uint64 (value : UInt64)
  deriving DecidableEq, Repr

/-- `VpsLogField` -/
structure LogFieldView where
  key : LogFieldKey
  redacted : Bool
  value : LogFieldViewValue
  deriving DecidableEq, Repr

/-- `VpsLogEvent`, with the fields below `field_count`. -/
structure LogEventView where
  level : LogLevel
  fields : List LogFieldView
  redactedFieldCount : ℕ
  deriving DecidableEq, Repr

section Shown

variable (memory : ℕ → UInt8)

/-- What a string reads as. -/
def LogStringView.shown : LogStringView → LogString
  | redactedValue => .redactedValue
  | view data length => .view (cellsAt memory data length)

def LogFieldViewValue.shown : LogFieldViewValue → LogFieldValue
  | string value => .string (value.shown memory)
  | uint64 value => .uint64 value

def LogFieldView.shown (field : LogFieldView) : LogField :=
  ⟨field.key, field.redacted, field.value.shown memory⟩

/-- **The event that the sink reads.** -/
def LogEventView.shown (event : LogEventView) : LogEvent :=
  ⟨event.level, event.fields.map (·.shown memory), event.redactedFieldCount⟩

@[simp] theorem LogEventView.shown_level (event : LogEventView) :
    (event.shown memory).level = event.level := rfl

@[simp] theorem LogEventView.length_shown (event : LogEventView) :
    (event.shown memory).fields.length = event.fields.length := List.length_map _

end Shown

/-! ## The functions that build an event -/

namespace LogEventView

/-- `vps_log_event_has_key` -/
def hasKey (event : LogEventView) (key : LogFieldKey) : Bool :=
  event.fields.any fun field => field.key == key

/-- A field is written behind the others. -/
def push (event : LogEventView) (field : LogFieldView) : LogEventView :=
  { event with
    fields := event.fields ++ [field]
    redactedFieldCount := event.redactedFieldCount + if field.redacted then 1 else 0 }

/-- `vps_log_event_init` -/
def init (event : LogEventView) (level : LogLevel) : LogResult × LogEventView :=
  if !logEventLevelIsValid level then (.invalidArgument, event)
  else (.ok, { level, fields := [], redactedFieldCount := 0 })

/-- `vps_log_event_add_string` behind the check of its arguments -/
def addBytes (debug : Bool) (memory : ℕ → UInt8) (event : LogEventView) (key : LogFieldKey)
    (data length : ℕ) : LogResult × LogEventView :=
  if length > logMaxStringLength then (.limitExceeded, event)
  else if event.fields.length ≥ logMaxFields then (.limitExceeded, event)
  else if event.hasKey key then (.duplicateField, event)
  else
    let value := cellsAt memory data length
    let sensitive := if key = .argument then false else logValueIsSensitive value
    if !sensitive && !logStringMatchesKey debug key (.view value) false then
      (.malformedValue, event)
    else if sensitive then (.redacted, event.push ⟨key, true, .string .redactedValue⟩)
    else (.ok, event.push ⟨key, false, .string (.view data length)⟩)

/-- `vps_log_event_add_string` -/
def addString (debug : Bool) (memory : ℕ → UInt8) (event : LogEventView) (key : LogFieldKey)
    (value : LogPointer) : LogResult × LogEventView :=
  if !logEventLevelIsValid event.level || !logFieldKeyIsValid key ||
      !logFieldRequiresString debug key || decide (key = .sqlText) then (.invalidArgument, event)
  else
    match value.data with
    | none => (.invalidArgument, event)
    | some data => event.addBytes debug memory key data value.length

/-- `vps_log_event_add_uint64` -/
def addUint64 (event : LogEventView) (key : LogFieldKey) (value : UInt64) :
    LogResult × LogEventView :=
  if !logEventLevelIsValid event.level || !logFieldKeyIsValid key ||
      !logFieldRequiresUint64 key then (.invalidArgument, event)
  else if event.fields.length ≥ logMaxFields then (.limitExceeded, event)
  else if event.hasKey key then (.duplicateField, event)
  else (.ok, event.push ⟨key, false, .uint64 value⟩)

/-- `vps_log_event_add_debug_sql` -/
def addDebugSql (debug : Bool) (event : LogEventView) (sql : LogPointer) :
    LogResult × LogEventView :=
  match sql.data with
  | none => (if sql.length > logMaxSqlTextLength then .limitExceeded else .invalidArgument, event)
  | some data =>
    if event.level ≠ .debug ∨ sql.length = 0 ∨ sql.length > logMaxSqlTextLength then
      (if sql.length > logMaxSqlTextLength then .limitExceeded else .invalidArgument, event)
    else if !debug then (.redacted, event)
    else if event.fields.length ≥ logMaxFields then (.limitExceeded, event)
    else if event.hasKey .sqlText then (.duplicateField, event)
    else (.ok, event.push ⟨.sqlText, false, .string (.view data sql.length)⟩)

end LogEventView

/-! ## The storage -/

/-- The variables of the loop of `vps_log_event_add_primary_message` beside the memory that it
writes; no quote is 0. -/
structure StorageRedactor where
  memory : ℕ → UInt8
  outputLength : ℕ := 0
  quote : UInt8 := 0
  quoteMarkerWritten : Bool := false

/-- `storage[output_length++] = byte` -/
def StorageRedactor.write (r : StorageRedactor) (storage : ℕ) (byte : UInt8) : StorageRedactor :=
  { r with
    memory := Function.update r.memory (storage + r.outputLength) byte
    outputLength := r.outputLength + 1 }

/-- The body of that loop. -/
def storeByte (storage : ℕ) (r : StorageRedactor) (current : UInt8) : StorageRedactor :=
  if r.quote ≠ 0 then
    if current = r.quote then { r with quote := 0, quoteMarkerWritten := false }
    else if !r.quoteMarkerWritten then { r.write storage 63 with quoteMarkerWritten := true }
    else r
  else if current = 39 ∨ current = 34 then
    { r.write storage 63 with quote := current, quoteMarkerWritten := true }
  else if current < 0x20 ∨ 0x7e < current then r.write storage 63
  else r.write storage current

/-- The loop of `vps_log_event_add_primary_message` over the bytes that are left of the value; each
is read when its turn comes. -/
def storeLoop (storage storageSize : ℕ) : ℕ → ℕ → StorageRedactor → StorageRedactor
  | _, 0, r => r
  | value, left + 1, r =>
    if r.outputLength + 1 < storageSize ∧ r.outputLength < logMaxStringLength then
      storeLoop storage storageSize (value + 1) left (storeByte storage r (r.memory value))
    else r

/-- The second loop: the blanks at the end are left out. -/
def trimmedLength (memory : ℕ → UInt8) (storage : ℕ) : ℕ → ℕ
  | 0 => 0
  | outputLength + 1 =>
    if memory (storage + outputLength) = 32 then trimmedLength memory storage outputLength
    else outputLength + 1

/-- What both loops leave: the length of the text, and the memory with the NUL behind it. -/
def storeMessage (memory : ℕ → UInt8) (data length storage storageSize : ℕ) : ℕ × (ℕ → UInt8) :=
  let stored := storeLoop storage storageSize data length { memory }
  let outputLength := trimmedLength stored.memory storage stored.outputLength
  (outputLength, Function.update stored.memory (storage + outputLength) 0)

/-- `vps_log_event_add_primary_message`, with the memory that it leaves -/
def LogEventView.addPrimaryMessage (debug : Bool) (memory : ℕ → UInt8) (event : LogEventView)
    (value : LogPointer) (storage : Option ℕ) (storageSize : ℕ) :
    LogResult × (ℕ → UInt8) × LogEventView :=
  match value.data, storage with
  | some data, some storage =>
    if event.level ≠ .debug ∨ value.length = 0 ∨ storageSize < 2 then
      (.invalidArgument, memory, event)
    else
      let stored := storeMessage memory data value.length storage storageSize
      if stored.1 = 0 then (.malformedValue, stored.2, event)
      else
        let added := event.addString debug stored.2 .primaryMessage ⟨some storage, stored.1⟩
        (added.1, stored.2, added.2)
  | _, _ => (.invalidArgument, memory, event)

/-! ## What the views show

A function that leaves the memory as it is does to the event that is shown what the function on
events says. -/

section Shows

variable {debug : Bool} {memory : ℕ → UInt8} {event : LogEventView}

/-- The event is shown, beside the result. -/
abbrev shownResult (memory : ℕ → UInt8) (answer : LogResult × LogEventView) :
    LogResult × LogEvent :=
  (answer.1, answer.2.shown memory)

@[simp] theorem logEventHasKey_shown {key : LogFieldKey} :
    logEventHasKey (event.shown memory) key = event.hasKey key := by
  simp [logEventHasKey, LogEventView.hasKey, LogEventView.shown, LogFieldView.shown,
    Function.comp_def]

/-- What an event shows with one more field is that field behind what it showed. -/
@[simp] theorem LogEventView.shown_push (field : LogFieldView) :
    (event.push field).shown memory = (event.shown memory).push (field.shown memory) := by
  simp only [LogEventView.push, LogEvent.push, LogEventView.shown, List.map_append]
  rfl

/-- An init is the init of what is shown. -/
theorem init_shown (level : LogLevel) :
    shownResult memory (event.init level) = logEventInit (event.shown memory) level := by
  unfold LogEventView.init logEventInit
  split <;> rfl

/-- Adding bytes is adding what they show. -/
theorem addBytes_shown (key : LogFieldKey) (data length : ℕ) :
    shownResult memory (event.addBytes debug memory key data length) =
      logEventAddBytes debug (event.shown memory) key (cellsAt memory data length) := by
  unfold LogEventView.addBytes logEventAddBytes
  simp only [length_cellsAt, LogEventView.length_shown, logEventHasKey_shown]
  generalize (if key = .argument then false else logValueIsSensitive (cellsAt memory data length)) =
    sensitive
  split_ifs
  all_goals first | rfl | rw [shownResult, LogEventView.shown_push]; rfl

/-- So is adding a string. -/
theorem addString_shown (key : LogFieldKey) (value : LogPointer) :
    shownResult memory (event.addString debug memory key value) =
      logEventAddString debug (event.shown memory) key (value.text memory) := by
  unfold LogEventView.addString logEventAddString
  rw [apply_ite (shownResult memory)]
  refine if_congr Iff.rfl rfl ?_
  obtain ⟨_ | data, length⟩ := value
  · rfl
  · exact addBytes_shown key data length

/-- So is adding a number. -/
theorem addUint64_shown (key : LogFieldKey) (value : UInt64) :
    shownResult memory (event.addUint64 key value) =
      logEventAddUint64 (event.shown memory) key value := by
  unfold LogEventView.addUint64 logEventAddUint64
  simp only [LogEventView.shown_level, LogEventView.length_shown, logEventHasKey_shown]
  split_ifs
  all_goals first | rfl | rw [shownResult, LogEventView.shown_push]; rfl

/-- So is adding the SQL of a debug event. -/
theorem addDebugSql_shown (sql : LogPointer) :
    shownResult memory (event.addDebugSql debug sql) =
      logEventAddDebugSql debug (event.shown memory) (sql.text memory) := by
  obtain ⟨_ | data, length⟩ := sql
  · rfl
  · unfold LogEventView.addDebugSql logEventAddDebugSql LogPointer.text
    simp only [length_cellsAt, LogEventView.shown_level, LogEventView.length_shown,
      logEventHasKey_shown]
    split_ifs
    all_goals first | rfl | rw [shownResult, LogEventView.shown_push]; rfl

end Shows

/-! ## What is written -/

/-- The bytes of the storage that a message of a length may be written to, with the NUL behind
it. -/
def storageWritten (length storageSize : ℕ) : ℕ :=
  min (min length logMaxStringLength + 1) storageSize

section Written

variable {storage storageSize : ℕ} {r : StorageRedactor}

/-- A byte of the value moves the output by a byte at most… -/
theorem storeByte_outputLength (storage : ℕ) (r : StorageRedactor) (current : UInt8) :
    r.outputLength ≤ (storeByte storage r current).outputLength ∧
      (storeByte storage r current).outputLength ≤ r.outputLength + 1 := by
  unfold storeByte StorageRedactor.write
  split_ifs <;> exact ⟨by simp, by simp⟩

/-- …and writes that one. -/
theorem storeByte_memory {current : UInt8} {i : ℕ} (h : i < storage + r.outputLength ∨
    storage + (storeByte storage r current).outputLength ≤ i) :
    (storeByte storage r current).memory i = r.memory i := by
  revert h
  unfold storeByte StorageRedactor.write
  split_ifs
  all_goals
    first
    | exact fun _ => rfl
    | exact fun h => Function.update_of_ne (by simp at h; omega) _ _

theorem storeLoop_outputLength (left : ℕ) : ∀ (value : ℕ) (r : StorageRedactor),
    r.outputLength ≤ (storeLoop storage storageSize value left r).outputLength ∧
      (storeLoop storage storageSize value left r).outputLength ≤ r.outputLength + left ∧
      ((storeLoop storage storageSize value left r).outputLength = r.outputLength ∨
        (storeLoop storage storageSize value left r).outputLength + 1 ≤ storageSize ∧
          (storeLoop storage storageSize value left r).outputLength ≤ logMaxStringLength) := by
  induction left with
  | zero => exact fun _ r => ⟨le_rfl, le_rfl, .inl rfl⟩
  | succ left ih =>
    intro value r
    rw [storeLoop]
    split
    · rename_i hroom
      obtain ⟨hle, hlt⟩ := storeByte_outputLength storage r (r.memory value)
      obtain ⟨hgrows, hleft, hbound⟩ := ih (value + 1) (storeByte storage r (r.memory value))
      refine ⟨hle.trans hgrows, by omega, .inr ?_⟩
      obtain hsame | hbound := hbound
      · exact ⟨by omega, by omega⟩
      · exact hbound
    · exact ⟨le_rfl, Nat.le_add_right _ _, .inl rfl⟩

/-- **The loop writes its output, and nothing else.** -/
theorem storeLoop_memory (left : ℕ) : ∀ (value : ℕ) (r : StorageRedactor) {i : ℕ},
    i < storage + r.outputLength ∨
      storage + (storeLoop storage storageSize value left r).outputLength ≤ i →
    (storeLoop storage storageSize value left r).memory i = r.memory i := by
  induction left with
  | zero => exact fun _ _ _ _ => rfl
  | succ left ih =>
    intro value r i
    rw [storeLoop]
    split
    · intro h
      obtain ⟨hle, -⟩ := storeByte_outputLength storage r (r.memory value)
      obtain ⟨hgrows, -⟩ := @storeLoop_outputLength storage storageSize left (value + 1)
        (storeByte storage r (r.memory value))
      rw [ih _ _ (by omega), storeByte_memory (by omega)]
    · exact fun _ => rfl

/-- Without the blanks at its end, the output is no longer than it was. -/
theorem trimmedLength_le (memory : ℕ → UInt8) (storage : ℕ) :
    ∀ outputLength, trimmedLength memory storage outputLength ≤ outputLength
  | 0 => le_rfl
  | outputLength + 1 => by
    rw [trimmedLength]
    split
    · exact (trimmedLength_le memory storage outputLength).trans (Nat.le_succ _)
    · exact le_rfl

/-- **A message is written into the storage alone.** -/
theorem storeMessage_memory {memory : ℕ → UInt8} {data length : ℕ} (hsize : 2 ≤ storageSize) {i : ℕ}
    (hi : i < storage ∨ storage + storageWritten length storageSize ≤ i) :
    (storeMessage memory data length storage storageSize).2 i = memory i := by
  unfold storageWritten at hi
  have hloop := @storeLoop_outputLength storage storageSize length data { memory }
  have htrimmed := trimmedLength_le (storeLoop storage storageSize data length { memory }).memory
    storage (storeLoop storage storageSize data length { memory }).outputLength
  simp only [Nat.zero_add] at hloop
  unfold storeMessage
  dsimp only
  rw [Function.update_of_ne (by omega)]
  exact storeLoop_memory length data _ (by simp only [Nat.add_zero]; omega)

/-- **What a call can leave**: it refuses its arguments, or writes its storage, and then leaves the
event as it is or adds what is in the storage. -/
theorem addPrimaryMessage_cases (debug : Bool) (memory : ℕ → UInt8) (event : LogEventView)
    (value : LogPointer) (storage : Option ℕ) (storageSize : ℕ) :
    event.addPrimaryMessage debug memory value storage storageSize =
        (.invalidArgument, memory, event) ∨
      ∃ target memory', storage = some target ∧
        (event.level = .debug ∧ value.data.isSome ∧ value.length ≠ 0 ∧ 2 ≤ storageSize) ∧
        (∀ i, i < target ∨ target + storageWritten value.length storageSize ≤ i →
          memory' i = memory i) ∧
        (event.addPrimaryMessage debug memory value storage storageSize =
            (.malformedValue, memory', event) ∨
          ∃ outputLength, event.addPrimaryMessage debug memory value storage storageSize =
            ((event.addString debug memory' .primaryMessage ⟨some target, outputLength⟩).1, memory',
              (event.addString debug memory' .primaryMessage ⟨some target, outputLength⟩).2)) := by
  unfold LogEventView.addPrimaryMessage
  split
  · rename_i data target hdata
    by_cases hargument : event.level ≠ .debug ∨ value.length = 0 ∨ storageSize < 2
    · exact .inl (if_pos hargument)
    rw [if_neg hargument]
    simp only [not_or, not_not, Nat.not_lt] at hargument
    refine .inr ⟨target, (storeMessage memory data value.length target storageSize).2, rfl,
      ⟨hargument.1, by simp [hdata], hargument.2⟩,
      fun i hi => storeMessage_memory hargument.2.2 hi, ?_⟩
    dsimp only
    split
    · exact .inl rfl
    · exact .inr ⟨_, rfl⟩
  · exact .inl rfl

end Written

/-! ## A storage of its own

Where the storage lies apart from the strings of the event, and is not ahead of the value that is
read into it, the call does to the event that is shown what `logEventAddPrimaryMessage` does. -/

section Own

variable {storage storageSize : ℕ}

/-- The loop has put into the storage what the loop over bytes has put out. -/
structure StorageRedactor.Holds (storage : ℕ) (r : StorageRedactor) (output : Redactor) : Prop where
  quote : r.quote = output.quote
  quoteMarkerWritten : r.quoteMarkerWritten = output.quoteMarkerWritten
  output : cellsAt r.memory storage r.outputLength = output.output

theorem StorageRedactor.Holds.length {r : StorageRedactor} {output : Redactor}
    (h : r.Holds storage output) : r.outputLength = output.output.length := by
  rw [← h.output, length_cellsAt]

/-- A byte that is written stands behind those that were. -/
theorem StorageRedactor.cellsAt_write (r : StorageRedactor) (storage : ℕ) (byte : UInt8) :
    cellsAt (r.write storage byte).memory storage (r.write storage byte).outputLength =
      cellsAt r.memory storage r.outputLength ++ [byte] := by
  unfold StorageRedactor.write
  dsimp only
  rw [cellsAt_concat, cellsAt_update (.inr le_rfl), Function.update_self]

/-- **A byte that is stored is the byte that is redacted.** -/
theorem storeByte_holds {r : StorageRedactor} {output : Redactor} (h : r.Holds storage output)
    (current : UInt8) :
    (storeByte storage r current).Holds storage (redactByte output current) := by
  obtain ⟨hquote, hmarker, houtput⟩ := h
  unfold storeByte redactByte
  rw [hquote, hmarker]
  split_ifs
  all_goals
    first
    | exact ⟨rfl, rfl, houtput⟩
    | exact ⟨hquote, hmarker, houtput⟩
    | exact ⟨hquote, rfl, (r.cellsAt_write storage _).trans (by rw [houtput])⟩
    | exact ⟨rfl, rfl, (r.cellsAt_write storage _).trans (by rw [houtput])⟩
    | exact ⟨hquote, hmarker, (r.cellsAt_write storage _).trans (by rw [houtput])⟩

/-- The bytes that are still to be read are not those that are written. -/
theorem storeLoop_holds (left : ℕ) : ∀ (value : ℕ) {r : StorageRedactor} {output : Redactor},
    r.Holds storage output → storage + r.outputLength ≤ value ∨ value + left ≤ storage →
    (storeLoop storage storageSize value left r).Holds storage
      (redactLoop storageSize output (cellsAt r.memory value left)) := by
  induction left with
  | zero => exact fun _ _ _ h _ => h
  | succ left ih =>
    intro value r output h hvalue
    rw [cellsAt_succ, storeLoop, redactLoop, h.length]
    split
    · obtain ⟨-, hlt⟩ := storeByte_outputLength storage r (r.memory value)
      have hunread : cellsAt (storeByte storage r (r.memory value)).memory (value + 1) left =
          cellsAt r.memory (value + 1) left :=
        cellsAt_congr fun i hle hi => storeByte_memory (by omega)
      rw [← hunread]
      exact ih (value + 1) (storeByte_holds h _) (by omega)
    · exact h

/-- The blanks at the end are left out. -/
theorem cellsAt_trimmedLength (memory : ℕ → UInt8) (storage : ℕ) : ∀ outputLength,
    cellsAt memory storage (trimmedLength memory storage outputLength) =
      (cellsAt memory storage outputLength).rdropWhile (· == 32)
  | 0 => rfl
  | outputLength + 1 => by
    rw [cellsAt_concat, List.rdropWhile_concat, trimmedLength]
    by_cases hblank : memory (storage + outputLength) = 32
    · rw [if_pos hblank, if_pos (by simp [hblank]),
      cellsAt_trimmedLength memory storage outputLength]
    · rw [if_neg hblank, if_neg (by simpa using hblank), cellsAt_concat]

/-- **What is in the storage** is the message as it is redacted. -/
theorem cellsAt_storeMessage {memory : ℕ → UInt8} {data length : ℕ}
    (hvalue : storage ≤ data ∨ data + length ≤ storage) :
    cellsAt (storeMessage memory data length storage storageSize).2 storage
        (storeMessage memory data length storage storageSize).1 =
      redactedMessage storageSize (cellsAt memory data length) := by
  have hholds : (storeLoop storage storageSize data length { memory }).Holds storage
      (redactLoop storageSize {} (cellsAt memory data length)) :=
    storeLoop_holds length data ⟨rfl, rfl, rfl⟩ hvalue
  unfold storeMessage redactedMessage
  dsimp only
  rw [cellsAt_update (.inr le_rfl), cellsAt_trimmedLength, hholds.output]

end Own

/-! ## Strings that are spared -/

/-- The string does not lie where something is written. -/
def LogFieldViewValue.ApartFrom (target count : ℕ) : LogFieldViewValue → Prop
  | .string (.view data length) => Apart data length target count
  | _ => True

instance (target count : ℕ) : ∀ value : LogFieldViewValue, Decidable (value.ApartFrom target count)
  | .string (.view data length) => inferInstanceAs (Decidable (Apart data length target count))
  | .string .redactedValue | .uint64 _ => isTrue trivial

/-- **No string of the event lies where something is written.** -/
def LogEventView.ApartFrom (event : LogEventView) (target count : ℕ) : Prop :=
  ∀ field ∈ event.fields, field.value.ApartFrom target count

/-- An event has finitely many strings, so it can be decided. -/
instance (event : LogEventView) (target count : ℕ) : Decidable (event.ApartFrom target count) :=
  inferInstanceAs (Decidable (∀ field ∈ event.fields, field.value.ApartFrom target count))

/-- An event is shown the same when none of its strings is written. -/
theorem LogEventView.ApartFrom.shown_eq {event : LogEventView} {target count : ℕ}
    {memory memory' : ℕ → UInt8} (h : event.ApartFrom target count)
    (hwritten : ∀ i, i < target ∨ target + count ≤ i → memory' i = memory i) :
    event.shown memory' = event.shown memory := by
  have hfields : event.fields.map (·.shown memory') = event.fields.map (·.shown memory) := by
    refine List.map_congr_left fun field hfield => ?_
    have hfield := h field hfield
    obtain ⟨key, redacted, (_ | ⟨data, length⟩) | value⟩ := field
    · rfl
    · have hcells : cellsAt memory' data length = cellsAt memory data length :=
        Apart.cellsAt_eq hfield hwritten
      simp only [LogFieldView.shown, LogFieldViewValue.shown, LogStringView.shown, hcells]
    · rfl
  rw [LogEventView.shown, LogEventView.shown, hfields]

/-- **A call with a storage of its own** does to the event that is shown what the function on events
does. -/
theorem addPrimaryMessage_shown {debug : Bool} {memory : ℕ → UInt8} {event : LogEventView}
    {data length storage storageSize : ℕ} (hvalue : storage ≤ data ∨ data + length ≤ storage)
    (hapart : event.ApartFrom storage (storageWritten length storageSize)) :
    let answer :=
      event.addPrimaryMessage debug memory ⟨some data, length⟩ (some storage) storageSize
    shownResult answer.2.1 (answer.1, answer.2.2) =
      logEventAddPrimaryMessage debug (event.shown memory) (.given (cellsAt memory data length))
        (some storageSize) := by
  have hmessage : cellsAt (storeMessage memory data length storage storageSize).2 storage
      (storeMessage memory data length storage storageSize).1 =
        redactedMessage storageSize (cellsAt memory data length) := cellsAt_storeMessage hvalue
  have hlength : (redactedMessage storageSize (cellsAt memory data length)).length =
      (storeMessage memory data length storage storageSize).1 := by
    rw [← hmessage, length_cellsAt]
  unfold LogEventView.addPrimaryMessage logEventAddPrimaryMessage
  dsimp only
  rw [length_cellsAt, LogEventView.shown_level]
  by_cases hargument : event.level ≠ .debug ∨ length = 0 ∨ storageSize < 2
  · rw [if_pos hargument, if_pos hargument]
  · rw [if_neg hargument, if_neg hargument]
    simp only [not_or, not_not, Nat.not_lt] at hargument
    have hshown : event.shown (storeMessage memory data length storage storageSize).2 =
        event.shown memory := hapart.shown_eq fun i hi => storeMessage_memory hargument.2.2 hi
    have htext : LogPointer.text (storeMessage memory data length storage storageSize).2
        ⟨some storage, (storeMessage memory data length storage storageSize).1⟩ =
          .given (redactedMessage storageSize (cellsAt memory data length)) :=
      congrArg LogText.given hmessage
    rw [hlength]
    split
    · rw [shownResult, hshown]
    · rw [← hshown, ← htext]
      exact addString_shown _ _

end Vps
