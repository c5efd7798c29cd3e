import Mathlib.Data.List.DropRight
import Mathlib.Data.List.Infix
import VirtualPostgreSQL.Machinery.Ascii

/-!
# Logging/Event — log events and the fields that they take

Here a string of an event is its bytes, as the sink reads them; where they lie is the subject of
`Logging/Storage`.  The functions that add a field and `vps_log_event_is_valid` state the rules of
the fields twice.
-/

namespace Vps

open Machinery

/-! ## The event -/

/-- `VpsLogLevel`; an `outside` value is none of the enumeration. -/
inductive LogLevel
  | debug | info | warn | error | off
  | outside (value : ℤ)
  deriving DecidableEq, Repr

/-- `VpsLogResult` -/
inductive LogResult
  | ok | redacted | invalidArgument | limitExceeded | duplicateField | malformedValue
  deriving DecidableEq, Repr

/-- `VpsLogFieldKey`; an `outside` value is none of the enumeration. -/
inductive LogFieldKey
  | operation | phase | durationMs | rowCount | byteCount | sqlstate | errorClass |
    profile | service
  | connectionFingerprint | queryFingerprint | poolActive | poolIdle | poolWaiting |
    participantCount
  | snapshotMode | architecture | version | status | sizeClass | argument |
    presenceMask | providerId
  | generation | configurationGeneration | tlsMode | sslInUse | certificateStatus
  | channelBindingStatus | parameter | expectedClass | pollCount | waitCount | parameterCount
  | resultFieldCount | retryAttempt | backoffMs | primaryMessage | sqlText | typeOid | relationOid
  | namespaceOid | indexOid | codecId | keyCount | flags | changeClass | formatVersion
  | outside (value : ℤ)
  deriving DecidableEq, Repr

/-- `VpsLogString`: `vps_log_redacted_value`, known by its address, or a view of the caller's
bytes. -/
inductive LogString
  | redactedValue
  | view (bytes : List UInt8)
  deriving DecidableEq, Repr

/-- `vps_log_redacted_value` -/
def logRedactedValue : List UInt8 := ascii "[redacted]"

namespace LogString

def bytes : LogString → List UInt8
  | redactedValue => logRedactedValue
  | view bytes => bytes

end LogString

/-- The type of a field with its value. -/
inductive LogFieldValue
  | string (value : LogString)
  | uint64 (value : UInt64)
  deriving DecidableEq, Repr

/-- `VpsLogField` -/
structure LogField where
  key : LogFieldKey
  redacted : Bool
  value : LogFieldValue
  deriving DecidableEq, Repr

/-- `VpsLogEvent`, with the fields below `field_count`. -/
structure LogEvent where
  level : LogLevel
  fields : List LogField
  redactedFieldCount : ℕ
  deriving DecidableEq, Repr

/-- `VPS_LOG_MAX_FIELDS` -/
def logMaxFields : ℕ := 16

/-- `VPS_LOG_MAX_STRING_LENGTH` -/
def logMaxStringLength : ℕ := 128

/-- `VPS_LOG_MAX_SQL_TEXT_LENGTH` -/
def logMaxSqlTextLength : ℕ := 4096

/-! ## The rules of the fields

`debug` is `VPS_DEBUG`. -/

/-- `vps_log_event_level_is_valid` -/
def logEventLevelIsValid : LogLevel → Bool
  | .debug | .info | .warn | .error => true
  | .off | .outside _ => false

/-- `vps_log_field_key_is_valid` -/
def logFieldKeyIsValid : LogFieldKey → Bool
  | .outside _ => false
  | _ => true

/-- `vps_log_field_requires_string` -/
def logFieldRequiresString (debug : Bool) : LogFieldKey → Bool
  | .operation | .phase | .sqlstate | .errorClass | .profile | .service | .connectionFingerprint
  | .queryFingerprint | .snapshotMode | .architecture | .version | .status | .sizeClass | .argument
  | .tlsMode | .certificateStatus | .channelBindingStatus | .parameter | .expectedClass
  | .primaryMessage | .changeClass => true
  | .sqlText => debug
  | _ => false

/-- `vps_log_field_requires_uint64` -/
def logFieldRequiresUint64 : LogFieldKey → Bool
  | .durationMs | .rowCount | .byteCount | .poolActive | .poolIdle | .poolWaiting |
    .participantCount
  | .presenceMask | .providerId | .generation | .configurationGeneration | .sslInUse | .pollCount
  | .waitCount | .parameterCount | .resultFieldCount | .retryAttempt | .backoffMs | .typeOid
  | .relationOid | .namespaceOid | .indexOid | .codecId | .keyCount | .flags | .formatVersion =>
    true
  | _ => false

/-- The inner loop of `vps_log_contains_token`: the value begins with the token. -/
def logTokenAt : List UInt8 → List UInt8 → Bool
  | _, [] => true
  | [], _ :: _ => false
  | current :: value, letter :: token => toLower current == letter && logTokenAt value token

/-- `vps_log_contains_token` -/
def logContainsToken (value token : List UInt8) : Bool :=
  if token.length > value.length then false
  else (List.range (value.length - token.length + 1)).any fun start =>
    logTokenAt (value.drop start) token

/-- The tokens of `vps_log_value_is_sensitive`. -/
def logSensitiveTokens : List (List UInt8) :=
  [ascii "password", ascii "passwd", ascii "token", ascii "secret", ascii "privatekey",
    ascii "private_key", ascii "connstr", ascii "conninfo", ascii "authorization", ascii "bearer",
    ascii "certificate", ascii "wkt", ascii "wkb"]

/-- `vps_log_value_is_sensitive` -/
def logValueIsSensitive (value : List UInt8) : Bool :=
  logSensitiveTokens.any (logContainsToken value)

/-- `vps_log_value_is_safe_token` -/
def logValueIsSafeToken (value : List UInt8) : Bool :=
  value.length != 0 && value.all fun current =>
    isAlnum current || (ascii "_-.:/@+").contains current

/-- `vps_log_sqlstate_is_valid` -/
def logSqlstateIsValid (value : List UInt8) : Bool :=
  value.length == 5 && value.all fun current => isDigit current || (65 ≤ current && current ≤ 90)

/-- `vps_log_fingerprint_is_valid` -/
def logFingerprintIsValid (value : List UInt8) : Bool :=
  value.length == 64 && value.all fun current => isDigit current || (97 ≤ current && current ≤ 102)

/-- A byte that a primary message may hold. -/
def isMessageByte (current : UInt8) : Bool :=
  !(current < 0x20 || 0x7e < current || current == 39 || current == 34)

/-- `vps_log_string_matches_key` -/
def logStringMatchesKey (debug : Bool) (key : LogFieldKey) (value : LogString) (redacted : Bool) :
    Bool :=
  if redacted then value == .redactedValue
  else if key = .sqlstate then logSqlstateIsValid value.bytes
  else if key = .connectionFingerprint ∨ key = .queryFingerprint then
    logFingerprintIsValid value.bytes
  else if key = .primaryMessage then
    value.bytes.length != 0 && value.bytes.all isMessageByte
  else if debug && decide (key = .sqlText) then value.bytes.length != 0
  else logValueIsSafeToken value.bytes

/-- `vps_log_event_has_key` -/
def logEventHasKey (event : LogEvent) (key : LogFieldKey) : Bool :=
  event.fields.any fun field => field.key == key

/-- What `vps_log_event_is_valid` asks of the value of a field. -/
def logFieldValueIsValid (debug : Bool) (level : LogLevel) (field : LogField) : Bool :=
  match field.value with
  | .string value =>
    logFieldRequiresString debug field.key &&
      (if field.key = .sqlText then
        value.bytes.length != 0 && decide (value.bytes.length ≤ logMaxSqlTextLength) &&
          decide (level = .debug)
      else decide (value.bytes.length ≤ logMaxStringLength)) &&
      logStringMatchesKey debug field.key value field.redacted
  | .uint64 _ => logFieldRequiresUint64 field.key && !field.redacted

/-- The loop of `vps_log_event_is_valid` over the fields, behind those of `prior`. -/
def logFieldsAreValid (debug : Bool) (level : LogLevel) : List LogField → List LogField → Bool
  | _, [] => true
  | prior, field :: fields =>
    logFieldKeyIsValid field.key && !(prior.any fun earlier => earlier.key == field.key) &&
      logFieldValueIsValid debug level field &&
        logFieldsAreValid debug level (prior ++ [field]) fields

/-- The fields that `vps_log_event_is_valid` counts as redacted. -/
def logCountsRedacted (field : LogField) : Bool :=
  match field.value with
  | .string _ => field.redacted
  | .uint64 _ => false

/-- `vps_log_event_is_valid` -/
def logEventIsValid (debug : Bool) (event : LogEvent) : Bool :=
  logEventLevelIsValid event.level && decide (event.fields.length ≤ logMaxFields) &&
    logFieldsAreValid debug event.level [] event.fields &&
    event.fields.countP logCountsRedacted == event.redactedFieldCount

/-! ## The functions that build an event -/

/-- A text that is handed over, with its length; a missing one has a length as well. -/
inductive LogText
  | missing (length : ℕ)
  | given (value : List UInt8)
  deriving DecidableEq, Repr

/-- `vps_log_event_init` -/
def logEventInit (event : LogEvent) (level : LogLevel) : LogResult × LogEvent :=
  if !logEventLevelIsValid level then (.invalidArgument, event)
  else (.ok, { level, fields := [], redactedFieldCount := 0 })

/-- A field is written behind the others. -/
def LogEvent.push (event : LogEvent) (field : LogField) : LogEvent :=
  { event with
    fields := event.fields ++ [field]
    redactedFieldCount := event.redactedFieldCount + if field.redacted then 1 else 0 }

/-- `vps_log_event_add_string` of bytes that are there -/
def logEventAddBytes (debug : Bool) (event : LogEvent) (key : LogFieldKey) (value : List UInt8) :
    LogResult × LogEvent :=
  if value.length > logMaxStringLength then (.limitExceeded, event)
  else if event.fields.length ≥ logMaxFields then (.limitExceeded, event)
  else if logEventHasKey event key then (.duplicateField, event)
  else
    let sensitive := if key = .argument then false else logValueIsSensitive value
    if !sensitive && !logStringMatchesKey debug key (.view value) false then
      (.malformedValue, event)
    else if sensitive then (.redacted, event.push ⟨key, true, .string .redactedValue⟩)
    else (.ok, event.push ⟨key, false, .string (.view value)⟩)

/-- `vps_log_event_add_string` -/
def logEventAddString (debug : Bool) (event : LogEvent) (key : LogFieldKey) (value : LogText) :
    LogResult × LogEvent :=
  if !logEventLevelIsValid event.level || !logFieldKeyIsValid key ||
      !logFieldRequiresString debug key || decide (key = .sqlText) then (.invalidArgument, event)
  else
    match value with
    | .missing _ => (.invalidArgument, event)
    | .given value => logEventAddBytes debug event key value

/-- `vps_log_event_add_uint64` -/
def logEventAddUint64 (event : LogEvent) (key : LogFieldKey) (value : UInt64) :
    LogResult × LogEvent :=
  if !logEventLevelIsValid event.level || !logFieldKeyIsValid key ||
      !logFieldRequiresUint64 key then (.invalidArgument, event)
  else if event.fields.length ≥ logMaxFields then (.limitExceeded, event)
  else if logEventHasKey event key then (.duplicateField, event)
  else (.ok, event.push ⟨key, false, .uint64 value⟩)

/-- The variables of the loop of `vps_log_event_add_primary_message`; no quote is 0. -/
structure Redactor where
  quote : UInt8 := 0
  quoteMarkerWritten : Bool := false
  output : List UInt8 := []
  deriving DecidableEq, Repr

/-- The body of that loop. -/
def redactByte (r : Redactor) (current : UInt8) : Redactor :=
  if r.quote ≠ 0 then
    if current = r.quote then { r with quote := 0, quoteMarkerWritten := false }
    else if !r.quoteMarkerWritten then
      { r with output := r.output ++ [63], quoteMarkerWritten := true }
    else r
  else if current = 39 ∨ current = 34 then
    { quote := current, quoteMarkerWritten := true, output := r.output ++ [63] }
  else if current < 0x20 ∨ 0x7e < current then { r with output := r.output ++ [63] }
  else { r with output := r.output ++ [current] }

/-- The loop of `vps_log_event_add_primary_message`. -/
def redactLoop (storageSize : ℕ) : Redactor → List UInt8 → Redactor
  | r, [] => r
  | r, current :: value =>
    if r.output.length + 1 < storageSize ∧ r.output.length < logMaxStringLength then
      redactLoop storageSize (redactByte r current) value
    else r

/-- What that loop leaves in the storage, without the blanks behind it. -/
def redactedMessage (storageSize : ℕ) (value : List UInt8) : List UInt8 :=
  (redactLoop storageSize {} value).output.rdropWhile (· == 32)

/-- `vps_log_event_add_primary_message` with a storage of its own, which is its size: the storage is
not ahead of the message that is read into it, and no string of the event lies in it. -/
def logEventAddPrimaryMessage (debug : Bool) (event : LogEvent) (value : LogText)
    (storage : Option ℕ) : LogResult × LogEvent :=
  match value, storage with
  | .given value, some storageSize =>
    if event.level ≠ .debug ∨ value.length = 0 ∨ storageSize < 2 then (.invalidArgument, event)
    else
      let message := redactedMessage storageSize value
      if message.length = 0 then (.malformedValue, event)
      else logEventAddString debug event .primaryMessage (.given message)
  | _, _ => (.invalidArgument, event)

/-- `vps_log_event_add_debug_sql` -/
def logEventAddDebugSql (debug : Bool) (event : LogEvent) (sql : LogText) : LogResult × LogEvent :=
  match sql with
  | .missing length =>
    (if length > logMaxSqlTextLength then .limitExceeded else .invalidArgument, event)
  | .given sql =>
    if event.level ≠ .debug ∨ sql.length = 0 ∨ sql.length > logMaxSqlTextLength then
      (if sql.length > logMaxSqlTextLength then .limitExceeded else .invalidArgument, event)
    else if !debug then (.redacted, event)
    else if event.fields.length ≥ logMaxFields then (.limitExceeded, event)
    else if logEventHasKey event .sqlText then (.duplicateField, event)
    else (.ok, event.push ⟨.sqlText, false, .string (.view sql)⟩)

end Vps
