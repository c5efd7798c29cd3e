import VirtualPostgreSQL.Arguments.Stored

/-!
# Arguments/Combination — options that go together

`vps_arguments_validate_combinations` asks masks; `ParsedArgumentValues.Compatible` says what it
asks, and `argumentsValidateCombinations_iff` that it is that.
-/

namespace Vps

open Machinery

/-! ## What is asked -/

namespace ParsedArgumentValues

/-- The option has a value. -/
def Has (model : ParsedArgumentValues) (argumentId : ArgumentId) : Prop :=
  (model.values argumentId).isSome

/-- The option has this value of an enumeration. -/
def IsEnum (model : ParsedArgumentValues) (argumentId : ArgumentId)
    (value : ArgumentEnumValue) : Prop :=
  ∃ stored, model.values argumentId = some stored ∧ stored.enumValue = value

/-- **Options that go together.** -/
structure Compatible (model : ParsedArgumentValues) : Prop where
  mode : ∃! argumentId, argumentId ∈ [ArgumentId.credentialRef, .service, .profile, .connstr] ∧
    model.Has argumentId
  source : model.Has .source
  serviceFile : model.Has .serviceFile → model.Has .service
  table : model.IsEnum .source .sourceTable →
    model.Has .schema ∧ model.Has .table ∧ ¬model.Has .query ∧ ¬model.Has .queryProfile
  query : ¬model.IsEnum .source .sourceTable →
    (∃! argumentId, argumentId ∈ [ArgumentId.query, .queryProfile] ∧ model.Has argumentId) ∧
      (∀ argumentId ∈ [ArgumentId.schema, .table, .allowView, .allowMaterializedView,
        .allowForeignTable], ¬model.Has argumentId) ∧ ¬model.IsEnum .mode .modeRw
  pool : ∀ least most, model.values .poolMin = some least → model.values .poolMax = some most →
    least.uint32Value ≤ most.uint32Value
  lists : model.Has .queryIndexes ∨ model.Has .queryMaterialization →
    model.IsEnum .source .sourceQuery

end ParsedArgumentValues

/-! ## Masks of some options -/

/-- The mask of some options. -/
def maskOf (argumentIds : List ArgumentId) : UInt64 :=
  argumentIds.foldl (fun mask argumentId => mask ||| argumentId.flag) 0

theorem testBit_maskOf (argumentIds : List ArgumentId) (i : ℕ) :
    (maskOf argumentIds).toNat.testBit i = true ↔
      ∃ argumentId ∈ argumentIds, argumentId.place = i := by
  have hfold (mask : UInt64) :
      (argumentIds.foldl (fun mask argumentId => mask ||| argumentId.flag) mask).toNat.testBit i =
        true ↔ mask.toNat.testBit i = true ∨ ∃ argumentId ∈ argumentIds, argumentId.place = i := by
    induction argumentIds generalizing mask with
    | nil => simp
    | cons argumentId rest ih =>
      rw [List.foldl_cons, ih, UInt64.toNat_or, Nat.testBit_or, Bool.or_eq_true,
        show argumentId.flag.toNat = 2 ^ argumentId.place from isFlag_flag argumentId,
          Nat.testBit_two_pow,
        decide_eq_true_iff, List.exists_mem_cons_iff, or_assoc]
  rw [maskOf, hfold]
  simp

namespace Marks

variable {presence : UInt64} {present : ArgumentId → Prop}

theorem testBit_and_maskOf (h : Marks presence present) (argumentIds : List ArgumentId) (i : ℕ) :
    (presence &&& maskOf argumentIds).toNat.testBit i = true ↔
      ∃ argumentId, argumentId.place = i ∧ argumentId ∈ argumentIds ∧ present argumentId := by
  rw [UInt64.toNat_and, Nat.testBit_and, Bool.and_eq_true, testBit_maskOf]
  constructor
  · rintro ⟨hbit, argumentId, hmem, rfl⟩
    exact ⟨argumentId, rfl, hmem, h.testBit_place.mp hbit⟩
  · rintro ⟨argumentId, rfl, hmem, hpresent⟩
    exact ⟨h.testBit_place.mpr hpresent, argumentId, hmem, rfl⟩

/-- None of the options is present. -/
theorem and_maskOf_eq_zero_iff (h : Marks presence present) (argumentIds : List ArgumentId) :
    presence &&& maskOf argumentIds = 0 ↔ ∀ argumentId ∈ argumentIds, ¬present argumentId := by
  rw [← UInt64.toNat_inj, UInt64.toNat_zero]
  constructor
  · intro hzero argumentId hmem hpresent
    have hbit := (h.testBit_and_maskOf argumentIds argumentId.place).mpr
      ⟨argumentId, rfl, hmem, hpresent⟩
    rw [hzero, Nat.zero_testBit] at hbit
    cases hbit
  · intro hnone
    refine Nat.eq_of_testBit_eq fun i => ?_
    rw [Nat.zero_testBit, Bool.eq_false_iff]
    intro hbit
    obtain ⟨argumentId, -, hmem, hpresent⟩ := (h.testBit_and_maskOf argumentIds i).mp hbit
    exact hnone argumentId hmem hpresent

/-- All of the options are present. -/
theorem and_maskOf_eq_self_iff (h : Marks presence present) (argumentIds : List ArgumentId) :
    presence &&& maskOf argumentIds = maskOf argumentIds ↔
      ∀ argumentId ∈ argumentIds, present argumentId := by
  rw [← UInt64.toNat_inj]
  constructor
  · intro hsame argumentId hmem
    have hbit := (testBit_maskOf argumentIds argumentId.place).mpr ⟨argumentId, hmem, rfl⟩
    rw [← hsame, h.testBit_and_maskOf] at hbit
    obtain ⟨other, hplace, -, hpresent⟩ := hbit
    rwa [← ArgumentId.place_inj.mp hplace]
  · intro hall
    refine Nat.eq_of_testBit_eq fun i => ?_
    rw [Bool.eq_iff_iff, h.testBit_and_maskOf, testBit_maskOf]
    constructor
    · rintro ⟨argumentId, hplace, hmem, -⟩
      exact ⟨argumentId, hmem, hplace⟩
    · rintro ⟨argumentId, hmem, hplace⟩
      exact ⟨argumentId, hplace, hmem, hall argumentId hmem⟩

/-- One of the options is present, and no other of them. -/
theorem one_of_maskOf_iff (h : Marks presence present) (argumentIds : List ArgumentId) :
    (presence &&& maskOf argumentIds ≠ 0 ∧
        (presence &&& maskOf argumentIds) &&& ((presence &&& maskOf argumentIds) - 1) = 0) ↔
      ∃! argumentId, argumentId ∈ argumentIds ∧ present argumentId := by
  rw [and_pred_eq_zero_iff]
  constructor
  · rintro ⟨i, hi, hunique⟩
    obtain ⟨argumentId, rfl, hmem, hpresent⟩ := (h.testBit_and_maskOf argumentIds i).mp hi
    refine ⟨argumentId, ⟨hmem, hpresent⟩, fun other hother => ?_⟩
    refine ArgumentId.place_inj.mp (hunique _ ?_)
    exact (h.testBit_and_maskOf argumentIds _).mpr ⟨other, rfl, hother⟩
  · rintro ⟨argumentId, ⟨hmem, hpresent⟩, hunique⟩
    refine ⟨argumentId.place,
      (h.testBit_and_maskOf argumentIds _).mpr ⟨argumentId, rfl, hmem, hpresent⟩, fun i hi => ?_⟩
    obtain ⟨other, rfl, hother⟩ := (h.testBit_and_maskOf argumentIds i).mp hi
    rw [hunique other hother]

end Marks

/-! ## The check -/

/-- A check that fails on a condition, and goes on otherwise. -/
theorem ite_error_iff {ε : Type*} {P : Prop} [Decidable P] {e : ε} {rest : Except ε Unit} :
    (if P then .error e else rest) = .ok () ↔ ¬P ∧ rest = .ok () := by
  split
  · simp [*]
  · simp [*]

section Check

variable {parsed : StoredArguments} {allocator : Allocator} {memory : MemoryBlock} {offset : ℕ}
  {model : ParsedArgumentValues}

theorem StoredArguments.Represents.isEnum_iff (h : parsed.Represents allocator memory offset model)
    {argumentId : ArgumentId} {value : ArgumentEnumValue} :
    parsed.isEnum argumentId value = true ↔ model.IsEnum argumentId value := by
  have hvalue := h.values argumentId
  unfold StoredArguments.isEnum ParsedArgumentValues.IsEnum
  generalize parsed.values argumentId = stored, model.values argumentId = expected at hvalue
  cases hvalue with
  | none => simp
  | some hdenotes => simp [hdenotes.enumValue]

theorem StoredArguments.Represents.isNone_iff (h : parsed.Represents allocator memory offset model)
    {argumentId : ArgumentId} :
    (parsed.values argumentId).isNone = true ↔ ¬model.Has argumentId := by
  have hvalue := h.values argumentId
  unfold ParsedArgumentValues.Has
  generalize parsed.values argumentId = stored, model.values argumentId = expected at hvalue
  cases hvalue with
  | none => simp
  | some => simp

/-- The bounds of the pool are in order, or the lists are never asked. -/
theorem pool_cases (h : parsed.Represents allocator memory offset model)
    (rest : Except (Option ArgumentId) Unit) :
    (match parsed.values .poolMin, parsed.values .poolMax with
      | some least, some most =>
        if least.uint32Value > most.uint32Value then Except.error (some ArgumentId.poolMin)
        else rest
      | _, _ => rest) = .ok () ↔
    (∀ least most, model.values .poolMin = some least → model.values .poolMax = some most →
      least.uint32Value ≤ most.uint32Value) ∧ rest = .ok () := by
  have hleast := h.values .poolMin
  have hmost := h.values .poolMax
  generalize parsed.values .poolMin = storedLeast, model.values .poolMin = least at hleast
  generalize parsed.values .poolMax = storedMost, model.values .poolMax = most at hmost
  cases hleast with
  | none => simp
  | some hleast =>
    cases hmost with
    | none => simp
    | some hmost =>
      simp only [hleast.uint32Value, hmost.uint32Value, Option.some.injEq]
      split
      · rename_i hgt
        simp only [reduceCtorEq, false_iff, not_and]
        exact fun hle => absurd (hle _ _ rfl rfl) (UInt32.not_le.mpr hgt)
      · rename_i hle
        refine ⟨fun hok => ⟨?_, hok⟩, And.right⟩
        rintro _ _ rfl rfl
        exact UInt32.not_lt.mp hle

/-- The last check. -/
theorem lists_iff (h : parsed.Represents allocator memory offset model) :
    argumentsValidateCombinations.lists parsed = .ok () ↔
      (model.Has .queryIndexes ∨ model.Has .queryMaterialization →
        model.IsEnum .source .sourceQuery) := by
  have hlists : ArgumentId.queryIndexes.flag ||| ArgumentId.queryMaterialization.flag =
      maskOf [.queryIndexes, .queryMaterialization] := by decide
  have hnone := h.presence.and_maskOf_eq_zero_iff [.queryIndexes, .queryMaterialization]
  simp only [List.forall_mem_cons, List.not_mem_nil, false_imp_iff, implies_true, and_true] at hnone
  rw [argumentsValidateCombinations.lists, ite_error_iff, hlists, h.isEnum_iff, ne_eq, hnone,
    ParsedArgumentValues.Has, ParsedArgumentValues.Has, ← not_or, not_not]
  simp only [and_true]
  tauto

/-- **The check asks whether the options go together.** -/
theorem argumentsValidateCombinations_iff (h : parsed.Represents allocator memory offset model) :
    argumentsValidateCombinations parsed = .ok () ↔ model.Compatible := by
  have hmarks := h.presence
  have hmodes :
    argumentConnectionModes = maskOf [.credentialRef, .service, .profile, .connstr] := by decide
  have hqueries :
    ArgumentId.query.flag ||| ArgumentId.queryProfile.flag = maskOf [.query, .queryProfile] := by
    decide
  have hrelation :
    ArgumentId.schema.flag ||| ArgumentId.table.flag = maskOf [.schema, .table] := by decide
  have hexcluded : maskOf [.schema, .table] ||| ArgumentId.allowView.flag |||
      ArgumentId.allowMaterializedView.flag ||| ArgumentId.allowForeignTable.flag =
      maskOf [.schema, .table, .allowView, .allowMaterializedView, .allowForeignTable] := by decide
  have hmode := hmarks.one_of_maskOf_iff [.credentialRef, .service, .profile, .connstr]
  have hquery := hmarks.one_of_maskOf_iff [.query, .queryProfile]
  have htables := hmarks.and_maskOf_eq_self_iff [.schema, .table]
  have hnoQuery := hmarks.and_maskOf_eq_zero_iff [.query, .queryProfile]
  have hnoRelation := hmarks.and_maskOf_eq_zero_iff
    [.schema, .table, .allowView, .allowMaterializedView, .allowForeignTable]
  simp only [List.forall_mem_cons, List.not_mem_nil, false_imp_iff, implies_true,
    and_true] at htables hnoQuery
  unfold argumentsValidateCombinations
  simp only [hmodes, hqueries, hrelation, hexcluded, ite_error_iff, h.isEnum_iff,
    h.isNone_iff, not_or, ne_eq, not_not]
  -- one check after the other
  refine Iff.trans (and_congr hmode (and_congr Iff.rfl (and_congr (?_ : _ ↔
    (model.Has .serviceFile → model.Has .service))
      (and_congr (?_ : _ ↔ (model.IsEnum .source .sourceTable →
      model.Has .schema ∧ model.Has .table ∧ ¬model.Has .query ∧ ¬model.Has .queryProfile))
      (and_congr (?_ : _ ↔ (¬model.IsEnum .source .sourceTable →
        (∃! argumentId, argumentId ∈ [ArgumentId.query, .queryProfile] ∧ model.Has argumentId) ∧
        (∀ argumentId ∈ [ArgumentId.schema, .table, .allowView, .allowMaterializedView,
          .allowForeignTable], ¬model.Has argumentId) ∧ ¬model.IsEnum .mode .modeRw))
        (pool_cases h _)))))) ?_
  · rw [hmarks.and_flag_eq_zero_iff, hmarks.and_flag_eq_zero_iff, not_and, not_not, not_not]
    exact Iff.rfl
  · rw [htables, hnoQuery, not_and]
    refine imp_congr_right fun _ => ?_
    rw [not_or, not_not, not_not, and_assoc]
    exact Iff.rfl
  · rw [not_and]
    refine imp_congr_right fun _ => ?_
    rw [not_or, not_or, not_or, hnoRelation, not_not, not_not, ← and_assoc]
    exact and_congr hquery Iff.rfl
  · rw [lists_iff h]
    constructor
    · rintro ⟨hmode, hsource, hfile, htable, hquery, hpool, hlists⟩
      exact ⟨hmode, hsource, hfile, htable, hquery, hpool, hlists⟩
    · rintro ⟨hmode, hsource, hfile, htable, hquery, hpool, hlists⟩
      exact ⟨hmode, hsource, hfile, htable, hquery, hpool, hlists⟩

end Check

end Vps
