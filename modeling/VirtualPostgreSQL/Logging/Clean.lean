import VirtualPostgreSQL.Logging.Event

/-!
# Logging/Clean — every event that is built is valid and without secrets

What a function adds satisfies the rules that `vps_log_event_is_valid` states again; a string that
holds a sensitive token in any letter case is replaced before it is stored.
-/

namespace Vps

open Machinery

/-! ## Sensitive tokens -/

theorem logTokenAt_iff : ∀ {token value : List UInt8},
    logTokenAt value token ↔ token <+: value.map toLower
  | [], _ => by simp [logTokenAt]
  | _ :: _, [] => by simp [logTokenAt]
  | letter :: token, current :: value => by
    rw [logTokenAt, Bool.and_eq_true, beq_iff_eq, logTokenAt_iff, List.map_cons,
      List.cons_prefix_cons, eq_comm]

/-- A token is found where the value holds it in any letter case. -/
theorem logContainsToken_iff {value token : List UInt8} :
    logContainsToken value token ↔ token <:+: value.map toLower := by
  unfold logContainsToken
  split
  next hlong =>
    have : ¬token <:+: value.map toLower := fun h => by
      have := h.length_le
      rw [List.length_map] at this
      omega
    simp [this]
  next hshort =>
    simp only [List.any_eq_true, List.mem_range, logTokenAt_iff, List.map_drop]
    constructor
    · rintro ⟨start, -, h⟩
      exact h.isInfix.trans (List.drop_suffix start _).isInfix
    · rintro ⟨before, behind, h⟩
      refine ⟨before.length, ?_, ?_⟩
      · have := congrArg List.length h
        simp only [List.length_append, List.length_map] at this
        omega
      · rw [← h, List.append_assoc, List.drop_left]
        exact List.prefix_append _ _

/-- No sensitive token, in any letter case. -/
def FreeOfSecrets (value : List UInt8) : Prop :=
  ∀ token ∈ logSensitiveTokens, ¬token <:+: value.map toLower

/-- A value is free of secrets just when the code finds it not sensitive. -/
theorem freeOfSecrets_iff {value : List UInt8} :
    FreeOfSecrets value ↔ logValueIsSensitive value = false := by
  simp only [FreeOfSecrets, logValueIsSensitive, List.any_eq_false, logContainsToken_iff]

/-- What stands for a redacted value is free of them. -/
theorem freeOfSecrets_redactedValue : FreeOfSecrets logRedactedValue :=
  freeOfSecrets_iff.mpr (by rfl)

/-! ## Clean events -/

/-- **A clean event**: it is valid, its keys are distinct, its redacted fields are counted, and no
string but the name of an argument and the text of a query holds a sensitive token. -/
structure LogEvent.Clean (debug : Bool) (event : LogEvent) : Prop where
  valid : logEventIsValid debug event
  distinct : (event.fields.map LogField.key).Nodup
  counted : event.redactedFieldCount = event.fields.countP LogField.redacted
  free : ∀ field ∈ event.fields, ∀ value, field.value = .string value → field.key ≠ .argument →
    field.key ≠ .sqlText → FreeOfSecrets value.bytes

/-- What a field is that may stand in an event of a level. -/
structure LogField.Fits (debug : Bool) (level : LogLevel) (field : LogField) : Prop where
  key : logFieldKeyIsValid field.key
  value : logFieldValueIsValid debug level field
  free : ∀ value, field.value = .string value → field.key ≠ .argument → field.key ≠ .sqlText →
    FreeOfSecrets value.bytes

theorem LogField.Fits.counts {debug : Bool} {level : LogLevel} {field : LogField}
    (h : field.Fits debug level) : logCountsRedacted field = field.redacted := by
  have hvalue := h.value
  rw [logCountsRedacted]
  rw [logFieldValueIsValid] at hvalue
  cases hfield : field.value with
  | string => rfl
  | uint64 =>
    rw [hfield] at hvalue
    simp only [Bool.and_eq_true, Bool.not_eq_true'] at hvalue
    exact hvalue.2.symm

/-- **A field more is valid** if it is behind the ones there are. -/
theorem logFieldsAreValid_append {debug : Bool} {level : LogLevel} {field : LogField} :
    ∀ {prior fields : List LogField},
      logFieldsAreValid debug level prior (fields ++ [field]) ↔
        logFieldsAreValid debug level prior fields ∧
          logFieldsAreValid debug level (prior ++ fields) [field]
  | prior, [] => by simp [logFieldsAreValid]
  | prior, first :: fields => by
    simp only [List.cons_append, logFieldsAreValid, Bool.and_eq_true]
    rw [logFieldsAreValid_append]
    simp [logFieldsAreValid, and_assoc]

/-- A key is not found just when no field has it. -/
theorem logEventHasKey_eq_false {event : LogEvent} {key : LogFieldKey} :
    logEventHasKey event key = false ↔ key ∉ event.fields.map LogField.key := by
  simp [logEventHasKey]

namespace LogEvent.Clean

variable {debug : Bool} {event : LogEvent} {level : LogLevel} {field : LogField}

theorem new (hlevel : logEventLevelIsValid level) :
    LogEvent.Clean debug { level, fields := [], redactedFieldCount := 0 } where
  valid := by simp [logEventIsValid, hlevel, logFieldsAreValid]
  distinct := .nil
  counted := rfl
  free := by simp

/-- A field that fits is written behind the others, under a key of its own. -/
theorem push (h : event.Clean debug) (hroom : event.fields.length < logMaxFields)
    (hkey : logEventHasKey event field.key = false) (hfits : field.Fits debug event.level) :
    (event.push field).Clean debug where
  valid := by
    have hvalid := h.valid
    simp only [logEventIsValid, Bool.and_eq_true, decide_eq_true_eq, beq_iff_eq] at hvalid
    obtain ⟨⟨⟨hlevel, -⟩, hfields⟩, hcount⟩ := hvalid
    have hfield : logFieldsAreValid debug event.level event.fields [field] := by
      simpa [logFieldsAreValid, hfits.key, hfits.value, logEventHasKey] using hkey
    have hcounts : (event.fields ++ [field]).countP logCountsRedacted =
        event.redactedFieldCount + if field.redacted then 1 else 0 := by
      rw [List.countP_append, hcount, List.countP_singleton, hfits.counts]
    have hlength : event.fields.length + 1 ≤ logMaxFields := hroom
    simp [logEventIsValid, LogEvent.push, hlevel, hcounts, hlength,
      logFieldsAreValid_append.mpr ⟨hfields, hfield⟩]
  distinct := by
    rw [LogEvent.push, List.map_append]
    refine List.nodup_append.mpr ⟨h.distinct, List.nodup_singleton _, fun key hmem key' hmem' => ?_⟩
    rintro rfl
    rw [List.map_singleton, List.mem_singleton] at hmem'
    exact logEventHasKey_eq_false.mp hkey (hmem' ▸ hmem)
  counted := by
    rw [LogEvent.push, List.countP_append, List.countP_singleton, h.counted]
  free := by
    intro other hmem
    rcases List.mem_append.mp hmem with hmem | hmem
    · exact h.free other hmem
    · rw [List.mem_singleton.mp hmem]
      exact hfits.free

/-! ## What the functions add -/

/-- `vps_log_event_init` -/
theorem init (h : event.Clean debug) (level : LogLevel) :
    (logEventInit event level).2.Clean debug := by
  unfold logEventInit
  split
  · exact h
  next hlevel => exact .new (by simpa using hlevel)

/-- `vps_log_event_add_string` -/
theorem addString (h : event.Clean debug) (key : LogFieldKey) (value : LogText) :
    (logEventAddString debug event key value).2.Clean debug := by
  unfold logEventAddString
  split
  · exact h
  next hkey =>
    simp only [Bool.or_eq_true, Bool.not_eq_true', decide_eq_true_eq, not_or,
      Bool.not_eq_false] at hkey
    obtain ⟨⟨⟨-, hkeyValid⟩, hstring⟩, hsql⟩ := hkey
    cases value with
    | missing => exact h
    | given value =>
      simp only [logEventAddBytes]
      split
      · exact h
      next hlength =>
      split
      · exact h
      next hroom =>
      split
      · exact h
      next hfresh =>
        rw [Bool.not_eq_true] at hfresh
        cases hsensitive : if key = .argument then false else logValueIsSensitive value with
        | true =>
          refine h.push (by omega) hfresh ⟨hkeyValid, ?_, ?_⟩
          · simp [logFieldValueIsValid, hstring, hsql, logStringMatchesKey, LogString.bytes,
              logMaxStringLength, logRedactedValue, ascii]
          · rintro _ ⟨⟩ - -
            exact freeOfSecrets_redactedValue
        | false =>
          simp only [Bool.not_false, Bool.true_and, Bool.not_eq_true', Bool.false_eq_true, if_false]
          split
          · exact h
          next hmatches =>
            refine h.push (by omega) hfresh ⟨hkeyValid, ?_, ?_⟩
            · have hlimit : value.length ≤ logMaxStringLength := by omega
              simp [logFieldValueIsValid, hstring, hsql, LogString.bytes, hlimit,
                Bool.not_eq_false _ ▸ hmatches]
            · rintro _ ⟨⟩ hargument -
              rw [if_neg hargument] at hsensitive
              exact freeOfSecrets_iff.mpr hsensitive

/-- `vps_log_event_add_uint64` -/
theorem addUint64 (h : event.Clean debug) (key : LogFieldKey) (value : UInt64) :
    (logEventAddUint64 event key value).2.Clean debug := by
  unfold logEventAddUint64
  split
  · exact h
  next hkey =>
  split
  · exact h
  next hroom =>
  split
  · exact h
  next hfresh =>
    simp only [Bool.or_eq_true, Bool.not_eq_true', not_or, Bool.not_eq_false] at hkey
    refine h.push (by omega) (by simpa using hfresh) ⟨hkey.1.2, ?_, ?_⟩
    · simp [logFieldValueIsValid, hkey.2]
    · rintro _ ⟨⟩

/-- `vps_log_event_add_debug_sql` -/
theorem addDebugSql (h : event.Clean debug) (sql : LogText) :
    (logEventAddDebugSql debug event sql).2.Clean debug := by
  cases sql with
  | missing => exact h
  | given sql =>
    unfold logEventAddDebugSql
    dsimp only
    split
    · exact h
    next hsql =>
    split
    · exact h
    next hdebug =>
    split
    · exact h
    next hroom =>
    split
    · exact h
    next hfresh =>
      simp only [not_or, not_not, Bool.not_eq_true', Bool.not_eq_false] at hsql hdebug
      obtain ⟨hlevel, hlength, hlimit⟩ := hsql
      refine h.push (by omega) (by simpa using hfresh) ⟨rfl, ?_, ?_⟩
      · have hshort : sql.length ≤ logMaxSqlTextLength := by omega
        have hnonempty : sql ≠ [] := fun hnil => hlength (congrArg List.length hnil)
        simp [logFieldValueIsValid, logFieldRequiresString, hdebug, hlevel, LogString.bytes,
          logStringMatchesKey, hnonempty, hshort]
      · rintro _ ⟨⟩ - habsurd
        exact absurd rfl habsurd

end LogEvent.Clean

end Vps
