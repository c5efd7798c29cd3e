import VirtualPostgreSQL.Session.Plan

/-!
# Session/Timeout — the timeouts that a server shows

A timeout is stored in milliseconds; PostgreSQL shows it in the largest unit that divides it.
`sessionObservedTimeout_eq_some_iff` says which texts are read back, and as what, and
`session_timeouts_verified` that a setting accepts exactly the texts that denote it.
-/

namespace Vps

open Machinery

/-! ## What a text denotes -/

/-- The units of a duration, in milliseconds. -/
def timeoutUnits : List (List UInt8 × ℕ) :=
  [([], 1), (ascii "ms", 1), (ascii "s", 1000), (ascii "min", 60000), (ascii "h", 3600000),
    (ascii "d", 86400000)]

/-- **The text denotes so many milliseconds**: a number and its unit. -/
def DenotesMilliseconds (text : List UInt8) (milliseconds : ℕ) : Prop :=
  ∃ digits number unit, text = digits ++ unit.1 ∧ parseDecimal digits = some number ∧
    unit ∈ timeoutUnits ∧ number * unit.2 = milliseconds

/-- The units of `SHOW`, the largest first. -/
def shownUnits : List (List UInt8 × ℕ) :=
  [(ascii "d", 86400000), (ascii "h", 3600000), (ascii "min", 60000), (ascii "s", 1000),
    (ascii "ms", 1)]

/-- **How PostgreSQL shows a timeout**: `0`, or a multiple of the largest unit that divides it. -/
def shownTimeout (milliseconds : ℕ) : List UInt8 :=
  if milliseconds = 0 then decimal 0
  else match shownUnits.find? fun unit => milliseconds % unit.2 == 0 with
  | none => decimal milliseconds
  | some unit => decimal (milliseconds / unit.2) ++ unit.1

theorem mem_timeoutUnits_of_shown : ∀ unit ∈ shownUnits, unit ∈ timeoutUnits := by decide

/-- **What is shown denotes the timeout.** -/
theorem denotes_shownTimeout (milliseconds : ℕ) :
    DenotesMilliseconds (shownTimeout milliseconds) milliseconds := by
  have hplain : ∀ n, DenotesMilliseconds (decimal n) n := fun n =>
    ⟨decimal n, n, ([], 1), (List.append_nil _).symm, parseDecimal_decimal n, by decide,
      Nat.mul_one n⟩
  unfold shownTimeout
  split
  · rename_i hzero
    rw [hzero]
    exact hplain 0
  · split
    · exact hplain milliseconds
    · rename_i unit hfind
      have hdvd : milliseconds % unit.2 = 0 := by simpa using List.find?_some hfind
      exact ⟨_, milliseconds / unit.2, unit, rfl, parseDecimal_decimal _,
        mem_timeoutUnits_of_shown unit (List.mem_of_find?_eq_some hfind),
        Nat.div_mul_cancel (Nat.dvd_of_mod_eq_zero hdvd)⟩

/-! ## The digits -/

section Digits

variable {parsed number : UInt64} {byte : UInt8} {text unit digits : List UInt8} {n : ℕ}

/-- A digit is added without a wrap. -/
theorem sessionDigit_eq (hparsed : parsed.toNat < 2 ^ 32) (hbyte : isDigit byte) :
    sessionDigit parsed byte =
      if parsed.toNat * 10 + (byte.toNat - 48) < 2 ^ 32 then
        some (UInt64.ofNat (parsed.toNat * 10 + (byte.toNat - 48))) else none := by
  simp only [isDigit, Bool.and_eq_true, decide_eq_true_eq] at hbyte
  have hlow : 48 ≤ byte.toNat := hbyte.1
  have hhigh : byte.toNat ≤ 57 := hbyte.2
  have hsub : (byte - 48).toNat = byte.toNat - 48 := UInt8.toNat_sub_of_le _ _ hbyte.1
  have hsum : (parsed * 10 + (byte - 48).toUInt64).toNat =
      parsed.toNat * 10 + (byte.toNat - 48) := by
    rw [UInt64.toNat_add, UInt64.toNat_mul, UInt8.toNat_toUInt64, hsub]
    simp only [UInt64.reduceToNat]
    omega
  have hlimit : parsed * 10 + (byte - 48).toUInt64 > 0xffffffff ↔
      ¬parsed.toNat * 10 + (byte.toNat - 48) < 2 ^ 32 := by
    rw [gt_iff_lt, UInt64.lt_iff_toNat_lt, hsum]
    simp only [UInt64.reduceToNat]
    omega
  simp only [sessionDigit, hlimit, ite_not]
  rw [← hsum, UInt64.ofNat_toNat]

theorem toNat_ofNat64 (h : n < 2 ^ 32) : (UInt64.ofNat n).toNat = n := by
  rw [UInt64.toNat_ofNat']
  omega

/-- A digit is not part of the unit. -/
theorem digits_of_cons (hbyte : isDigit byte) (htext : byte :: text = digits ++ unit)
    (hunit : ∀ first ∈ unit.head?, ¬isDigit first) :
    ∃ later, digits = byte :: later ∧ text = later ++ unit := by
  cases digits with
  | nil =>
    rw [List.nil_append] at htext
    exact absurd hbyte (hunit byte (by rw [← htext]; rfl))
  | cons first later =>
    obtain ⟨rfl, rfl⟩ := List.cons.inj htext
    exact ⟨later, rfl, rfl⟩

/-- **The loop reads the digits up to the unit.** -/
theorem sessionObservedLoop_eq_some_iff (hparsed : parsed.toNat < 2 ^ 32) :
    sessionObservedLoop parsed text = some (number, unit) ↔
      ∃ digits, text = digits ++ unit ∧ (∀ byte ∈ unit.head?, ¬isDigit byte) ∧
        parseDigits digits parsed.toNat = some number.toNat ∧ number.toNat < 2 ^ 32 := by
  induction text generalizing parsed with
  | nil =>
    simp only [sessionObservedLoop, Option.some.injEq, Prod.mk.injEq]
    constructor
    · rintro ⟨rfl, rfl⟩
      exact ⟨[], rfl, by simp, rfl, hparsed⟩
    · rintro ⟨digits, htext, -, hdigits, -⟩
      obtain ⟨rfl, rfl⟩ := List.append_eq_nil_iff.mp htext.symm
      exact ⟨UInt64.toNat_inj.mp (Option.some.inj hdigits), rfl⟩
  | cons byte text ih =>
    rw [sessionObservedLoop]
    by_cases hbyte : isDigit byte
    · rw [if_pos hbyte, sessionDigit_eq hparsed hbyte]
      split
      · rename_i hsmall
        rw [Option.bind_some, ih (by rwa [toNat_ofNat64 hsmall]), toNat_ofNat64 hsmall]
        constructor
        · rintro ⟨digits, rfl, hunit, hdigits, hlimit⟩
          exact ⟨byte :: digits, rfl, hunit, by rw [parseDigits, if_pos hbyte, hdigits], hlimit⟩
        · rintro ⟨digits, htext, hunit, hdigits, hlimit⟩
          obtain ⟨digits, rfl, rfl⟩ := digits_of_cons hbyte htext hunit
          rw [parseDigits, if_pos hbyte] at hdigits
          exact ⟨digits, rfl, hunit, hdigits, hlimit⟩
      · rename_i hlarge
        refine iff_of_false (by simp) ?_
        rintro ⟨digits, htext, hunit, hdigits, hlimit⟩
        obtain ⟨digits, rfl, rfl⟩ := digits_of_cons hbyte htext hunit
        rw [parseDigits, if_pos hbyte] at hdigits
        have := le_of_parseDigits hdigits
        omega
    · rw [if_neg hbyte, Option.some.injEq, Prod.mk.injEq]
      constructor
      · rintro ⟨rfl, rfl⟩
        exact ⟨[], rfl, by simpa using hbyte, rfl, hparsed⟩
      · rintro ⟨digits, htext, -, hdigits, -⟩
        cases digits with
        | nil => exact ⟨UInt64.toNat_inj.mp (Option.some.inj hdigits), htext⟩
        | cons first digits =>
          obtain ⟨rfl, -⟩ := List.cons.inj htext
          rw [parseDigits, if_neg hbyte] at hdigits
          cases hdigits

/-- A number that fits is read back. -/
theorem sessionParseLoop_eq (hparsed : parsed.toNat < 2 ^ 32)
    (hdigits : parseDigits digits parsed.toNat = some n) (hn : n < 2 ^ 32) :
    sessionParseLoop parsed digits = some (UInt64.ofNat n) := by
  induction digits generalizing parsed with
  | nil =>
    obtain rfl := Option.some.inj hdigits
    rw [sessionParseLoop, UInt64.ofNat_toNat]
  | cons byte digits ih =>
    rw [parseDigits] at hdigits
    split at hdigits
    · rename_i hbyte
      have hsmall := (le_of_parseDigits hdigits).trans_lt hn
      rw [sessionParseLoop, hbyte, Bool.not_true, if_neg Bool.false_ne_true,
        sessionDigit_eq hparsed hbyte, if_pos hsmall, Option.bind_some]
      have hnext := toNat_ofNat64 hsmall
      exact ih (by rwa [hnext]) (by rwa [hnext])
    · cases hdigits

end Digits

/-- The text of a number is read back. -/
theorem sessionParseUint32_decimal (v : UInt32) :
    sessionParseUint32 (decimal v.toNat) = some v := by
  have hdigits : parseDigits (decimal v.toNat) (0 : UInt64).toNat = some v.toNat :=
    (parseDecimal_eq_some_iff.mp (parseDecimal_decimal v.toNat)).2
  rw [sessionParseUint32, if_neg (decimal_ne_nil _),
    sessionParseLoop_eq (by decide) hdigits v.toNat_lt, Option.map_some]
  refine congrArg some (UInt32.toNat_inj.mp ?_)
  rw [UInt64.toNat_toUInt32, toNat_ofNat64 v.toNat_lt]
  exact Nat.mod_eq_of_lt v.toNat_lt

/-! ## The texts that are read -/

/-- The units that are known, with their milliseconds. -/
theorem sessionMultiplier_eq_some_iff {unit : List UInt8} {multiplier : UInt64} :
    sessionMultiplier unit = some multiplier ↔ (unit, multiplier.toNat) ∈ timeoutUnits := by
  constructor
  · intro h
    unfold sessionMultiplier at h
    split_ifs at h
    all_goals
      subst unit
      cases h
      decide
  · intro h
    simp only [timeoutUnits, List.mem_cons, Prod.mk.injEq, List.not_mem_nil, or_false] at h
    obtain ⟨rfl, h⟩ | ⟨rfl, h⟩ | ⟨rfl, h⟩ | ⟨rfl, h⟩ | ⟨rfl, h⟩ | ⟨rfl, h⟩ := h
    all_goals
      rw [← UInt64.ofNat_toNat (x := multiplier), h]
      decide

theorem timeoutUnits_pos : ∀ unit ∈ timeoutUnits, 0 < unit.2 ∧ unit.2 < 2 ^ 32 := by decide

/-- No unit begins with a digit. -/
theorem not_isDigit_of_timeoutUnits :
    ∀ unit ∈ timeoutUnits, ∀ first ∈ unit.1.head?, ¬isDigit first := by
  simp [timeoutUnits, ascii, isDigit]

/-- The tests of the reader, one after the other. -/
theorem sessionObservedTimeout_eq_some {value : List UInt8} {milliseconds : UInt64} :
    sessionObservedTimeout value = some milliseconds ↔
      ∃ parsed unit multiplier, sessionObservedLoop 0 value = some (parsed, unit) ∧
        unit.length ≠ value.length ∧ sessionMultiplier unit = some multiplier ∧
        ¬parsed > 0xffffffffffffffff / multiplier ∧ parsed * multiplier = milliseconds := by
  unfold sessionObservedTimeout
  split
  · rename_i hvalue
    refine iff_of_false (by simp) ?_
    rintro ⟨parsed, unit, multiplier, hloop, hlength, -⟩
    subst hvalue
    cases hloop
    exact hlength rfl
  · simp only [Option.bind_eq_bind, Option.bind_eq_some_iff, Prod.exists]
    constructor
    · rintro ⟨parsed, unit, hloop, h⟩
      split_ifs at h with hlength
      obtain ⟨multiplier, hmultiplier, h⟩ := Option.bind_eq_some_iff.mp h
      split_ifs at h with hlimit
      exact ⟨parsed, unit, multiplier, hloop, hlength, hmultiplier, hlimit, Option.some.inj h⟩
    · rintro ⟨parsed, unit, multiplier, hloop, hlength, hmultiplier, hlimit, rfl⟩
      refine ⟨parsed, unit, hloop, ?_⟩
      rw [if_neg hlength, hmultiplier, Option.bind_some, if_neg hlimit]

/-- The product of two numbers below `2 ^ 32` does not wrap. -/
theorem multiply_fits {parsed multiplier : UInt64} (hparsed : parsed.toNat < 2 ^ 32)
    (hpos : 0 < multiplier.toNat) (hmultiplier : multiplier.toNat < 2 ^ 32) :
    ¬parsed > 0xffffffffffffffff / multiplier ∧
      (parsed * multiplier).toNat = parsed.toNat * multiplier.toNat := by
  have hproduct : parsed.toNat * multiplier.toNat < 2 ^ 32 * 2 ^ 32 :=
    Nat.mul_lt_mul'' hparsed hmultiplier
  constructor
  · rw [gt_iff_lt, UInt64.lt_iff_toNat_lt, UInt64.toNat_div, not_lt,
      Nat.le_div_iff_mul_le hpos]
    simp only [UInt64.reduceToNat]
    omega
  · rw [UInt64.toNat_mul]
    exact Nat.mod_eq_of_lt (by omega)

/-- **The texts that are read, and as what**: a number below `2 ^ 32` and its unit, multiplied
without a wrap. -/
theorem sessionObservedTimeout_eq_some_iff {value : List UInt8} {milliseconds : UInt64} :
    sessionObservedTimeout value = some milliseconds ↔
      ∃ digits number unit, value = digits ++ unit.1 ∧ parseDecimal digits = some number ∧
        unit ∈ timeoutUnits ∧ number < 2 ^ 32 ∧ number * unit.2 = milliseconds.toNat := by
  have hzero : (0 : UInt64).toNat < 2 ^ 32 := by decide
  rw [sessionObservedTimeout_eq_some]
  constructor
  · rintro ⟨parsed, unit, multiplier, hloop, hlength, hmultiplier, -, rfl⟩
    obtain ⟨digits, rfl, -, hdigits, hnumber⟩ := (sessionObservedLoop_eq_some_iff hzero).mp hloop
    have hunit := sessionMultiplier_eq_some_iff.mp hmultiplier
    obtain ⟨hpos, hsmall⟩ := timeoutUnits_pos _ hunit
    have hne : digits ≠ [] := fun hnil => hlength (by rw [hnil, List.nil_append])
    exact ⟨digits, parsed.toNat, (unit, multiplier.toNat), rfl,
      parseDecimal_eq_some_iff.mpr ⟨hne, hdigits⟩, hunit, hnumber,
      (multiply_fits hnumber hpos hsmall).2.symm⟩
  · rintro ⟨digits, number, ⟨unit, multiplier⟩, rfl, hdigits, hunit, hnumber, hproduct⟩
    obtain ⟨hne, hdigits⟩ := parseDecimal_eq_some_iff.mp hdigits
    obtain ⟨hpos, hsmall⟩ := timeoutUnits_pos _ hunit
    have hparsed := toNat_ofNat64 hnumber
    have hmultiplier := toNat_ofNat64 hsmall
    have hfits := @multiply_fits (UInt64.ofNat number) (UInt64.ofNat multiplier)
      (by rwa [hparsed]) (by rwa [hmultiplier]) (by rwa [hmultiplier])
    refine ⟨UInt64.ofNat number, unit, UInt64.ofNat multiplier,
      (sessionObservedLoop_eq_some_iff hzero).mpr ⟨digits, rfl,
        not_isDigit_of_timeoutUnits _ hunit, by rwa [hparsed], by rwa [hparsed]⟩, ?_,
      sessionMultiplier_eq_some_iff.mpr (by rwa [hmultiplier]), hfits.1, ?_⟩
    · have hpos := List.length_pos_of_ne_nil hne
      simp only [List.length_append]
      omega
    · rw [← UInt64.toNat_inj, hfits.2, hparsed, hmultiplier, hproduct]

/-! ## The settings of a plan -/

/-- The timeouts of a session; `none` for a text that is no number. -/
def sessionTimeouts (config : SessionConfig) (arguments : ParsedArguments)
    (options : SessionBuildOptions) : List (SessionParameter × Option UInt32) :=
  [(.statementTimeout, sessionTimeout arguments.statementTimeout config.statementTimeout),
    (.lockTimeout, sessionTimeout arguments.lockTimeout config.lockTimeout),
    (.idleTransactionTimeout, some options.idleInTransactionTimeoutMs)]

/-- **The setting verifies a timeout**: it stores it, accepts what PostgreSQL shows for it, and
accepts exactly the texts that denote it. -/
structure VerifiesTimeout (plan : SessionPlan) (setting : SessionSetting) (milliseconds : UInt32) :
    Prop where
  stored : sessionSettingValue plan setting = some (decimal milliseconds.toNat)
  shown : sessionSettingMatches plan setting (shownTimeout milliseconds.toNat)
  exact : ∀ observed, sessionSettingMatches plan setting observed ↔
    DenotesMilliseconds observed milliseconds.toNat

/-- A number has no NUL. -/
theorem cString_decimal (n : ℕ) : cString (decimal n) = decimal n := by
  rw [cString, List.takeWhile_eq_self_iff]
  intro byte hbyte
  have hdigit := isDigit_of_mem_decimal hbyte
  simp only [bne_iff_ne, ne_eq]
  rintro rfl
  exact absurd hdigit (by decide)

/-- **A stored timeout is verified.** -/
theorem verifiesTimeout_of_stored {plan : SessionPlan} {setting : SessionSetting}
    {parameter : SessionParameter} {milliseconds : UInt32} (hbuilt : plan.built)
    (h : (SessionAddition.timeout parameter milliseconds).StoredAs plan.storage setting) :
    VerifiesTimeout plan setting milliseconds := by
  have hstored := sessionSettingValue_of_stored hbuilt h
  have hlength : setting.valueLength ≤ 10 := by
    rw [h.length]
    exact length_decimal_le (by decide) (by have := milliseconds.toNat_lt; omega)
  have hexact : ∀ observed, sessionSettingMatches plan setting observed ↔
      DenotesMilliseconds observed milliseconds.toNat := fun observed => by
    have hclass : setting.expectedClass = .timeoutMs := h.expectedClass
    have hread : sessionParseUint32 (cString (decimal milliseconds.toNat)) = some milliseconds := by
      rw [cString_decimal, sessionParseUint32_decimal]
    have hmatches : sessionSettingMatches plan setting observed ↔
        sessionObservedTimeout observed = some milliseconds.toUInt64 := by
      rw [sessionSettingMatches, hstored]
      simp only [hclass, SessionAddition.bytes, hread,
        if_neg (show ¬setting.valueLength ≥ 11 by omega)]
      cases sessionObservedTimeout observed <;> simp
    rw [hmatches, sessionObservedTimeout_eq_some_iff, UInt32.toNat_toUInt64]
    refine exists_congr fun digits => exists_congr fun number => exists_congr fun unit => ?_
    refine and_congr_right fun _ => and_congr_right fun _ => and_congr_right fun hunit => ?_
    refine and_iff_right_of_imp fun hproduct => ?_
    have := Nat.le_mul_of_pos_right number (timeoutUnits_pos unit hunit).1
    have := milliseconds.toNat_lt
    omega
  exact ⟨hstored, (hexact _).mpr (denotes_shownTimeout _), hexact⟩

/-- The timeouts of a session are the timeouts that are added. -/
theorem mem_sessionTimeouts_iff {config : SessionConfig} {arguments : ParsedArguments}
    {statement lock : UInt32}
    (hstatement : sessionTimeout arguments.statementTimeout config.statementTimeout =
    some statement) (hlock : sessionTimeout arguments.lockTimeout config.lockTimeout = some lock)
    (options : SessionBuildOptions) (timezone applicationName searchPath : List UInt8)
    (timeout : SessionParameter × Option UInt32) :
    timeout ∈ sessionTimeouts config arguments options ↔
      ∃ milliseconds, timeout.2 = some milliseconds ∧
        SessionAddition.timeout timeout.1 milliseconds ∈ sessionAdditions timezone applicationName
          searchPath statement lock options.idleInTransactionTimeoutMs arguments.mode := by
  obtain ⟨parameter, value⟩ := timeout
  simp only [sessionTimeouts, sessionAdditions, hstatement, hlock, List.mem_cons, Prod.mk.injEq,
    List.not_mem_nil, or_false, false_or, reduceCtorEq, SessionAddition.timeout.injEq]
  constructor
  · rintro (⟨rfl, rfl⟩ | ⟨rfl, rfl⟩ | ⟨rfl, rfl⟩)
    · exact ⟨statement, rfl, .inl ⟨rfl, rfl⟩⟩
    · exact ⟨lock, rfl, .inr (.inl ⟨rfl, rfl⟩)⟩
    · exact ⟨options.idleInTransactionTimeoutMs, rfl, .inr (.inr ⟨rfl, rfl⟩)⟩
  · rintro ⟨milliseconds, rfl, ⟨rfl, rfl⟩ | ⟨rfl, rfl⟩ | ⟨rfl, rfl⟩⟩
    · exact .inl ⟨rfl, rfl⟩
    · exact .inr (.inl ⟨rfl, rfl⟩)
    · exact .inr (.inr ⟨rfl, rfl⟩)

/-- **Timeouts are verified**: in every plan that is built each timeout setting stores a timeout of
the session, each timeout of the session has its setting, and a setting accepts the text that
PostgreSQL shows and no text that denotes anything else; nothing that is read wraps. -/
theorem session_timeouts_verified {config : SessionConfig} {arguments : ParsedArguments}
    {options : SessionBuildOptions} {plan : SessionPlan}
    (h : sessionPlanBuild config arguments options = .ok plan) :
    (∀ setting ∈ plan.settings, setting.expectedClass = .timeoutMs →
        ∃ milliseconds, (setting.parameter, some milliseconds) ∈
          sessionTimeouts config arguments options ∧ VerifiesTimeout plan setting milliseconds) ∧
      (∀ timeout ∈ sessionTimeouts config arguments options, ∃ milliseconds setting,
        timeout.2 = some milliseconds ∧ setting ∈ plan.settings ∧ setting.parameter = timeout.1 ∧
          VerifiesTimeout plan setting milliseconds) ∧
      ∀ observed milliseconds, sessionObservedTimeout observed = some milliseconds →
        DenotesMilliseconds observed milliseconds.toNat := by
  obtain ⟨hbuilt, timezone, applicationName, searchPath, statement, lock, hstatement,
    hlock, hstored⟩ :=
    sessionPlanBuild_stores h
  have hmem := mem_sessionTimeouts_iff hstatement hlock options timezone applicationName searchPath
  refine ⟨fun setting hsetting hclass => ?_, fun timeout htimeout => ?_,
    fun observed milliseconds hread => ?_⟩
  · obtain ⟨addition, haddition, hsetting⟩ := forall₂_exists_left hstored hsetting
    cases addition with
    | text parameter value => exact nomatch hclass.symm.trans hsetting.expectedClass
    | timeout parameter milliseconds =>
      refine ⟨milliseconds, (hmem _).mpr ⟨milliseconds, rfl, ?_⟩,
        verifiesTimeout_of_stored hbuilt hsetting⟩
      rwa [show setting.parameter = parameter from hsetting.parameter]
  · obtain ⟨milliseconds, hvalue, haddition⟩ := (hmem timeout).mp htimeout
    obtain ⟨setting, hsetting, hstored⟩ := forall₂_exists_right hstored haddition
    exact ⟨milliseconds, setting, hvalue, hsetting, hstored.parameter,
      verifiesTimeout_of_stored hbuilt hstored⟩
  · obtain ⟨digits, number, unit, htext, hnumber, hunit, -, hproduct⟩ :=
      sessionObservedTimeout_eq_some_iff.mp hread
    exact ⟨digits, number, unit, htext, hnumber, hunit, hproduct⟩

/-- A lock timeout of two hours. -/
theorem session_timeouts_verified_hours :
    ∃ plan setting, sessionPlanBuild {} { lockTimeout := some 7200000 } {} = .ok plan ∧
      setting ∈ plan.settings ∧ setting.parameter = .lockTimeout ∧
      VerifiesTimeout plan setting 7200000 := by
  have hok : (sessionPlanBuild {} { lockTimeout := some 7200000 } {}).toOption.isSome := by
    decide +kernel
  obtain ⟨plan, hplan⟩ := Option.isSome_iff_exists.mp hok
  obtain ⟨-, htimeouts, -⟩ := session_timeouts_verified (ok_of_toOption hplan)
  obtain ⟨milliseconds, setting, hvalue, hsetting, hparameter, hverifies⟩ :=
    htimeouts (.lockTimeout, some 7200000) (List.mem_cons_of_mem _ List.mem_cons_self)
  cases hvalue
  exact ⟨plan, setting, ok_of_toOption hplan, hsetting, hparameter, hverifies⟩

end Vps
