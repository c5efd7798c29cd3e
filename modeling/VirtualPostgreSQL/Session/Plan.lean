import VirtualPostgreSQL.Identity.Build
import VirtualPostgreSQL.Machinery.Decimal
import VirtualPostgreSQL.Machinery.Lists
import VirtualPostgreSQL.Machinery.Outcome
import VirtualPostgreSQL.Machinery.Wire
import VirtualPostgreSQL.Session.SearchPath

/-!
# Session/Plan — the settings of a session

`vps_session_plan_build` collects the settings a connection must have, one after the other, as
offsets into one storage; `sessionPlanBuild_stores` reads all of them back.
`vps_session_setting_matches` compares a setting with the text that the server shows for it.
-/

namespace Vps

open Machinery

/-! ## The data model -/

/-- `VpsSessionParameter` -/
inductive SessionParameter
  | clientEncoding | datestyle | intervalstyle | timezone | standardStrings | applicationName
  | searchPath | statementTimeout | lockTimeout | idleTransactionTimeout | defaultReadOnly
  deriving DecidableEq, Repr

/-- `VpsSessionExpectedClass` -/
inductive SessionExpectedClass
  | exact | timeoutMs
  deriving DecidableEq, Repr

/-- `VpsSessionResult`, the failures of a build. -/
inductive SessionError
  | invalidValue | limitExceeded
  deriving DecidableEq, Repr

/-- What is read of a `VpsConnectionConfig`. -/
structure SessionConfig where
  applicationName : Option (List UInt8) := none
  searchPath : Option (List UInt8) := none
  statementTimeout : Option (List UInt8) := none
  lockTimeout : Option (List UInt8) := none
  deriving DecidableEq

/-- `VpsSessionBuildOptions` -/
structure SessionBuildOptions where
  timezone : Option (List UInt8) := none
  idleInTransactionTimeoutMs : UInt32 := 0
  deriving DecidableEq

/-- `VpsSessionSetting` -/
structure SessionSetting where
  parameter : SessionParameter
  expectedClass : SessionExpectedClass
  valueOffset : ℕ
  valueLength : ℕ
  deriving DecidableEq, Repr

/-- `VpsSessionPlan`; `storage` holds the bytes below `storage_size`. -/
structure SessionPlan where
  storage : List UInt8 := []
  settings : List SessionSetting := []
  built : Bool := false
  deriving DecidableEq

/-! ## Numbers -/

/-- One more digit of a `uint64_t` that stays a `uint32_t`. -/
def sessionDigit (parsed : UInt64) (byte : UInt8) : Option UInt64 :=
  let parsed := parsed * 10 + (byte - 48).toUInt64
  if parsed > 0xffffffff then none else some parsed

/-- The loop of `vps_session_parse_uint32`. -/
def sessionParseLoop : UInt64 → List UInt8 → Option UInt64
  | parsed, [] => some parsed
  | parsed, current :: rest =>
    if !isDigit current then none
    else (sessionDigit parsed current).bind (sessionParseLoop · rest)

/-- `vps_session_parse_uint32` of a text without its NUL. -/
def sessionParseUint32 (value : List UInt8) : Option UInt32 :=
  if value = [] then none else (sessionParseLoop 0 value).map (·.toUInt32)

/-- `vps_session_timeout`; `none` where the configured text is not valid. -/
def sessionTimeout (argument : Option UInt32) (configured : Option (List UInt8)) : Option UInt32 :=
  match argument, configured with
  | some value, _ => some value
  | none, none => some 0
  | none, some text => sessionParseUint32 text

/-! ## Building a plan -/

/-- `VPS_SESSION_SETTING_COUNT` -/
def sessionSettingCount : ℕ := 11

/-- `VPS_SESSION_STORAGE_LIMIT` -/
def sessionStorageLimit : ℕ := 8192

/-- `vps_session_add` -/
def sessionAdd (plan : SessionPlan) (parameter : SessionParameter) (expected : SessionExpectedClass)
    (value : List UInt8) : Except SessionError SessionPlan :=
  if plan.settings.length ≥ sessionSettingCount ∨
      value.length > sessionStorageLimit - plan.storage.length then .error .limitExceeded
  else .ok { plan with
    settings := plan.settings ++ [⟨parameter, expected, plan.storage.length, value.length⟩]
    storage := plan.storage ++ value }

/-- `vps_session_add_timeout` -/
def sessionAddTimeout (plan : SessionPlan) (parameter : SessionParameter) (milliseconds : UInt32) :
    Except SessionError SessionPlan :=
  let text := decimal milliseconds.toNat
  if text.length = 0 ∨ text.length ≥ 11 then .error .invalidValue
  else sessionAdd plan parameter .timeoutMs text

/-- A setting that is added: a text, or a timeout. -/
inductive SessionAddition
  | text (parameter : SessionParameter) (value : List UInt8)
  | timeout (parameter : SessionParameter) (milliseconds : UInt32)
  deriving DecidableEq

/-- One `VPS_SESSION_ADD`. -/
def SessionPlan.add (plan : SessionPlan) : SessionAddition → Except SessionError SessionPlan
  | .text parameter value => sessionAdd plan parameter .exact value
  | .timeout parameter milliseconds => sessionAddTimeout plan parameter milliseconds

/-- What is added, in order. -/
def sessionAdditions (timezone applicationName searchPath : List UInt8)
    (statementTimeout lockTimeout idleTimeout : UInt32) (mode : Option ArgumentMode) :
    List SessionAddition :=
  [.text .clientEncoding (ascii "UTF8"),
    .text .datestyle (ascii "ISO, YMD"),
    .text .intervalstyle (ascii "iso_8601"),
    .text .timezone timezone,
    .text .standardStrings (ascii "on"),
    .text .applicationName applicationName,
    .text .searchPath searchPath,
    .timeout .statementTimeout statementTimeout,
    .timeout .lockTimeout lockTimeout,
    .timeout .idleTransactionTimeout idleTimeout,
    .text .defaultReadOnly (if mode = some .rw then ascii "off" else ascii "on")]

/-- **`vps_session_plan_build`.** -/
def sessionPlanBuild (config : SessionConfig) (arguments : ParsedArguments)
    (options : SessionBuildOptions) : Except SessionError SessionPlan :=
  let timezone := options.timezone.getD (ascii "UTC")
  let applicationName := config.applicationName.getD (ascii "VirtualPostgreSQL/0.1.0")
  let searchPath := config.searchPath.getD (ascii "pg_catalog")
  if !sessionTextIsBounded timezone 255 || !sessionTextIsBounded applicationName 63 ||
      !sessionSearchPathValid searchPath then .error .invalidValue
  else
    match sessionTimeout arguments.statementTimeout config.statementTimeout,
      sessionTimeout arguments.lockTimeout config.lockTimeout with
    | some statementTimeout, some lockTimeout => do
      let replacement ← (sessionAdditions timezone applicationName searchPath statementTimeout
        lockTimeout options.idleInTransactionTimeoutMs arguments.mode).foldlM SessionPlan.add {}
      return { replacement with built := true }
    | _, _ => .error .invalidValue

/-! ## Looking at a plan -/

/-- `vps_session_setting_value`, with the bytes it points at. -/
def sessionSettingValue (plan : SessionPlan) (setting : SessionSetting) : Option (List UInt8) :=
  if !plan.built ∨ setting.valueOffset > plan.storage.length ∨
      setting.valueLength > plan.storage.length - setting.valueOffset then none
  else some (slice plan.storage setting.valueOffset setting.valueLength)

/-- The loop of `vps_session_observed_timeout` over the digits: the number, and what is behind
it. -/
def sessionObservedLoop : UInt64 → List UInt8 → Option (UInt64 × List UInt8)
  | parsed, [] => some (parsed, [])
  | parsed, byte :: rest =>
    if isDigit byte then (sessionDigit parsed byte).bind (sessionObservedLoop · rest)
    else some (parsed, byte :: rest)

/-- The multiplier of a unit. -/
def sessionMultiplier (unit : List UInt8) : Option UInt64 :=
  if unit = [] then some 1
  else if unit = ascii "ms" then some 1
  else if unit = ascii "s" then some 1000
  else if unit = ascii "min" then some 60000
  else if unit = ascii "h" then some 3600000
  else if unit = ascii "d" then some 86400000
  else none

/-- `vps_session_observed_timeout` -/
def sessionObservedTimeout (value : List UInt8) : Option UInt64 := do
  if value = [] then none
  else
    let (parsed, unit) ← sessionObservedLoop 0 value
    if unit.length = value.length then none
    else
      let multiplier ← sessionMultiplier unit
      if parsed > 0xffffffffffffffff / multiplier then none else some (parsed * multiplier)

/-- A C string, without its NUL. -/
def cString (bytes : List UInt8) : List UInt8 := bytes.takeWhile (· != 0)

/-- **`vps_session_setting_matches`.** -/
def sessionSettingMatches (plan : SessionPlan) (setting : SessionSetting) (observed : List UInt8) :
    Bool :=
  match sessionSettingValue plan setting with
  | none => false
  | some expected =>
    match setting.expectedClass with
    | .exact => observed == expected
    | .timeoutMs =>
      if setting.valueLength ≥ 11 then false
      else match sessionParseUint32 (cString expected), sessionObservedTimeout observed with
      | some expectedMs, some observedMs => observedMs == expectedMs.toUInt64
      | _, _ => false

/-! ## What a plan stores -/

namespace SessionAddition

/-- The parameter that is set. -/
def parameter : SessionAddition → SessionParameter
  | text parameter _ | timeout parameter _ => parameter

/-- How the setting is compared. -/
def expectedClass : SessionAddition → SessionExpectedClass
  | text _ _ => .exact
  | timeout _ _ => .timeoutMs

/-- The bytes that are stored. -/
def bytes : SessionAddition → List UInt8
  | text _ value => value
  | timeout _ milliseconds => decimal milliseconds.toNat

/-- **The setting that an addition leaves** in a storage. -/
structure StoredAs (addition : SessionAddition) (storage : List UInt8) (setting : SessionSetting) :
    Prop where
  parameter : setting.parameter = addition.parameter
  expectedClass : setting.expectedClass = addition.expectedClass
  length : setting.valueLength = addition.bytes.length
  inside : setting.valueOffset + setting.valueLength ≤ storage.length
  bytes : slice storage setting.valueOffset setting.valueLength = addition.bytes

variable {addition : SessionAddition} {storage : List UInt8} {setting : SessionSetting}

/-- What is stored stays where it is. -/
theorem StoredAs.append (h : addition.StoredAs storage setting) (more : List UInt8) :
    addition.StoredAs (storage ++ more) setting := by
  have hinside := h.inside
  refine ⟨h.parameter, h.expectedClass, h.length, by rw [List.length_append]; omega, ?_⟩
  rw [← h.bytes, slice, slice, List.drop_append_of_le_length (by omega),
    List.take_append_of_le_length (by rw [List.length_drop]; omega)]

end SessionAddition

theorem add_eq_ok {plan next : SessionPlan} {addition : SessionAddition}
    (h : plan.add addition = .ok next) :
    next.storage = plan.storage ++ addition.bytes ∧
      next.settings = plan.settings ++ [⟨addition.parameter, addition.expectedClass,
        plan.storage.length, addition.bytes.length⟩] := by
  cases addition with
  | text parameter value =>
    simp only [SessionPlan.add, sessionAdd] at h
    split_ifs at h
    cases h
    exact ⟨rfl, rfl⟩
  | timeout parameter milliseconds =>
    simp only [SessionPlan.add, sessionAddTimeout, sessionAdd] at h
    split_ifs at h
    cases h
    exact ⟨rfl, rfl⟩

/-- **Every addition is stored**, in order. -/
theorem foldlM_add_stores {additions before : List SessionAddition} {plan next : SessionPlan}
    (h : additions.foldlM SessionPlan.add plan = .ok next)
    (hplan : List.Forall₂ (·.StoredAs plan.storage) before plan.settings) :
    List.Forall₂ (·.StoredAs next.storage) (before ++ additions) next.settings := by
  induction additions generalizing plan before with
  | nil =>
    cases h
    rwa [List.append_nil]
  | cons addition additions ih =>
    obtain ⟨middle, hadd, hrest⟩ := ok_of_foldlM_cons h
    obtain ⟨hstorage, hsettings⟩ := add_eq_ok hadd
    rw [List.append_cons]
    refine ih hrest ?_
    rw [hstorage, hsettings]
    refine List.rel_append (hplan.imp fun _ _ hstored => hstored.append _) (.cons ?_ .nil)
    refine ⟨rfl, rfl, rfl, by rw [List.length_append], ?_⟩
    have hslice := slice_append plan.storage addition.bytes []
    rwa [List.append_nil] at hslice

/-- **A plan that is built stores what was added**, with the timeouts of the arguments and the
configuration. -/
theorem sessionPlanBuild_stores {config : SessionConfig} {arguments : ParsedArguments}
    {options : SessionBuildOptions} {plan : SessionPlan}
    (h : sessionPlanBuild config arguments options = .ok plan) :
    plan.built ∧ ∃ timezone applicationName searchPath statementTimeout lockTimeout,
      sessionTimeout arguments.statementTimeout config.statementTimeout = some statementTimeout ∧
      sessionTimeout arguments.lockTimeout config.lockTimeout = some lockTimeout ∧
      List.Forall₂ (·.StoredAs plan.storage)
        (sessionAdditions timezone applicationName searchPath statementTimeout lockTimeout
          options.idleInTransactionTimeoutMs arguments.mode) plan.settings := by
  unfold sessionPlanBuild at h
  simp only at h
  split at h
  · cases h
  · split at h
    · rename_i statementTimeout lockTimeout hstatement hlock
      obtain ⟨replacement, hfold, h⟩ := ok_of_bind h
      cases h
      exact ⟨rfl, _, _, _, statementTimeout, lockTimeout, hstatement, hlock,
        foldlM_add_stores hfold (List.Forall₂.nil (α := SessionAddition))⟩
    · cases h

/-- The value of a setting is what was stored. -/
theorem sessionSettingValue_of_stored {plan : SessionPlan} {addition : SessionAddition}
    {setting : SessionSetting} (hbuilt : plan.built)
    (h : addition.StoredAs plan.storage setting) :
    sessionSettingValue plan setting = some addition.bytes := by
  have hinside := h.inside
  rw [sessionSettingValue, if_neg, h.bytes]
  rw [hbuilt]
  simp only [Bool.not_true, Bool.false_eq_true, false_or, not_or, not_lt]
  omega

end Vps
