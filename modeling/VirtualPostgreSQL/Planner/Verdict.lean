import VirtualPostgreSQL.Planner.Exact

/-!
# Planner/Verdict — the server's verdict and SQLite's

The verdict of the server on the condition written for a constraint, row by row, against SQLite's
verdict on the decoded column.  An empty `bytea` reaches SQLite as NULL, so it is the one value of
the exact types on which the two differ.
-/

namespace Vps

open Machinery

/-- The two verdicts on an empty `bytea` agree: the condition is false on it and unknown on NULL. -/
def emptyAgrees (op : UInt8) : ConstraintOperand → Bool
  | .value (.blob bytes) =>
    if op = 2 ∨ op = 72 then decide (bytes ≠ []) else decide (op = 68) && decide (bytes = [])
  | _ => false

section Verdict

variable {strtod : List UInt8 → Option ℚ} {typeOid : UInt32} {v w : PgValue} {sv : SqliteValue}
  {source : IndexConstraint} {c : PlanConstraint} {arguments : List ConstraintOperand}
  {operand : ConstraintOperand} {parameters : List ClientParameter} {values : List PgValue}
  {predicate : Option SqlPredicate}

/-! ## NULL -/

/-- SQLite sees NULL for NULL and for an empty `bytea`. -/
theorem decoded_null_iff (hv : v.hasType typeOid = true)
    (h : v.decoded strtod typeOid = some sv) : sv = .null ↔ v = .null ∨ v = .bytea [] := by
  by_cases hkind : PgKind.ofOid typeOid = .other
  · unfold PgValue.hasType at hv
    rw [hkind] at hv
    cases v
    case null =>
      cases h
      simp [moduleColumn]
    case other text =>
      have hne : (PgValue.other text).decoded strtod typeOid ≠ some .null :=
        decoded_other_ne_null hkind
      simp only [reduceCtorEq, or_self, iff_false]
      rintro rfl
      exact hne h
    all_goals exact absurd hv Bool.false_ne_true
  · rw [decoded_eq hkind hv h]
    cases v <;> simp [PgValue.asSqlite]

/-- An empty `bytea` is NULL to SQLite. -/
theorem decoded_empty (h : (PgValue.bytea []).hasType typeOid = true) :
    (PgValue.bytea []).decoded strtod typeOid = some .null := by
  unfold PgValue.hasType at h
  cases hkind : PgKind.ofOid typeOid <;> rw [hkind] at h
  case bytea =>
    rw [PgValue.decoded, typeCodecForOid_of_kind (by rw [hkind]; rfl)]
    rfl
  all_goals exact absurd h Bool.false_ne_true

/-! ## Comparisons -/

/-- The operator that is written is the one of the constraint. -/
theorem operator_holds {constant : SqliteValue} {operator : SqlOperator}
    (hop : vtabConstraintOperation source.op = some (c.operation, c.flags.nullSafe))
    (hoperator : vtabOperatorSql c = some operator)
    (hcompare : sv.compare? constant = v.compare? w) (hconstant : constant ≠ .null)
    (hw : w ≠ .null) :
    operator.holds v w = constraintHolds source.op (.value constant) sv := by
  have hconstant' : (constant == .null) = false := beq_eq_false_iff_ne.mpr hconstant
  have hw' : (w == .null) = false := beq_eq_false_iff_ne.mpr hw
  unfold vtabConstraintOperation at hop
  unfold vtabOperatorSql at hoperator
  split at hop
  all_goals
    rename_i hsource
    simp only [Option.some.injEq, Prod.mk.injEq, reduceCtorEq] at hop
  all_goals
    obtain ⟨hoperation, hsafe⟩ := hop
    simp only [← hoperation, ← hsafe, Bool.false_eq_true, if_false, if_true, Option.some.injEq,
      reduceCtorEq] at hoperator
    try
      subst hoperator
      rw [hsource]
      simp [SqlOperator.holds, constraintHolds, hcompare, hconstant', hw']

/-- The verdict of the server on an empty `bytea`. -/
theorem operator_holds_empty {bytes : List UInt8} {operator : SqlOperator}
    (hop : vtabConstraintOperation source.op = some (c.operation, c.flags.nullSafe))
    (heq : c.operation = .eq ∨ c.operation = .ne) (hoperator : vtabOperatorSql c = some operator) :
    operator.holds (.bytea []) (.bytea bytes) = !emptyAgrees source.op (.value (.blob bytes)) := by
  unfold vtabConstraintOperation at hop
  unfold vtabOperatorSql at hoperator
  split at hop
  all_goals
    rename_i hsource
    simp only [Option.some.injEq, Prod.mk.injEq, reduceCtorEq] at hop
  all_goals
    obtain ⟨hoperation, hsafe⟩ := hop
    simp only [← hoperation, ← hsafe, reduceCtorEq, or_self, Bool.false_eq_true, if_false, if_true,
      Option.some.injEq] at heq hoperator
    try
      subst hoperator
      rw [hsource]
      cases bytes <;> rfl

/-- On NULL every comparison with a constant is unknown. -/
theorem constraintHolds_null {constant : SqliteValue} (hnull : source.op ≠ 71)
    (hconstant : constant ≠ .null) : constraintHolds source.op (.value constant) .null = false := by
  have hconstant' : (constant == .null) = false := beq_eq_false_iff_ne.mpr hconstant
  unfold constraintHolds
  split <;> first | rfl | (rename_i h; exact absurd h hnull) | skip
  simp only
  split <;> simp [SqliteValue.compare?, hconstant']

/-! ## Placeholders -/

theorem placeholderValue_eq (hvalues : parameters.mapM PgValue.input = some values)
    {placeholder : ℕ} {p : ClientParameter} (hp : parameters[placeholder - 1]? = some p) :
    PgValue.input p = some (placeholderValue values placeholder) := by
  obtain ⟨w, hw, hinput⟩ := forall₂_getElem? (forall₂_of_mapM hvalues) hp
  rw [placeholderValue, hw]
  exact hinput

/-- A constant that was read arrived as itself. -/
theorem constant_of_read {constant : SqliteValue} (hexact : PgKind.ofOid typeOid ≠ .other)
    (hcompatible : vtabValueCompatible constant typeOid (vtabExpectedValueClass typeOid) = true)
    (h : PgValue.input (parameterOf constant typeOid (vtabExpectedValueClass typeOid)) = some w) :
    w.hasType typeOid = true ∧ w.asSqlite = constant := by
  cases hfits : constantFits typeOid constant with
  | true =>
    obtain ⟨w', hw', htype, himage⟩ := input_of_fits hexact hcompatible hfits
    obtain rfl := Option.some.inj (h.symm.trans hw')
    exact ⟨htype, himage⟩
  | false =>
    rw [input_of_not_fits hcompatible hfits] at h
    nomatch h

/-! ## One condition, two verdicts -/

/-- The server's verdict on the condition equals SQLite's on the decoded column, except on an empty
`bytea` that matters. -/
def Agrees (strtod : List UInt8 → Option ℚ) (typeOid : UInt32) (column : ℕ) (op : UInt8)
    (operand : ConstraintOperand) (values : List PgValue) (p : SqlPredicate) : Prop :=
  ∀ (row : PgRow) (sv : SqliteValue), (row column).hasType typeOid = true →
    (row column).decoded strtod typeOid = some sv →
    (p.holds values row = constraintHolds op operand sv ↔
      (row column = .bytea [] → emptyAgrees op operand = true))

/-- A test for NULL, or for the opposite: an empty `bytea` always matters. -/
theorem agrees_isNull {column : ℕ} {op : UInt8} {p : SqlPredicate} {f : Bool → Bool}
    (hf : Function.Injective f)
    (hp : ∀ row : PgRow, p.holds values row = f (row column == .null))
    (hop : ∀ sv, constraintHolds op operand sv = f (sv == .null))
    (hempty : emptyAgrees op operand = false) :
    Agrees strtod typeOid column op operand values p := by
  intro row sv htype hdecoded
  have hnull := decoded_null_iff htype hdecoded
  rw [hp, hop, hempty, hf.eq_iff]
  by_cases hbytea : row column = .bytea []
  · simp [hbytea, hnull.mpr (.inr hbytea)]
  · simp only [hbytea, or_false, false_implies, iff_true] at hnull ⊢
    by_cases hrow : row column = .null
    · simp [hrow, hnull.mpr hrow]
    · rw [beq_eq_false_iff_ne.mpr hrow, beq_eq_false_iff_ne.mpr fun h => hrow (hnull.mp h)]

/-- A comparison with a constant of the type. -/
theorem agrees_compare {column : ℕ} {operator : SqlOperator} {placeholder : ℕ}
    {constant : SqliteValue} (hexact : PgKind.ofOid typeOid ≠ .other)
    (hop : vtabConstraintOperation source.op = some (c.operation, c.flags.nullSafe))
    (hnull : c.operation ≠ .isNull ∧ c.operation ≠ .isNotNull ∧ c.operation ≠ .limit ∧
      c.operation ≠ .offset)
    (hbytea : PgKind.ofOid typeOid = .bytea → c.operation = .eq ∨ c.operation = .ne)
    (hoperator : vtabOperatorSql c = some operator) (hconstant : constant ≠ .null)
    (htypeOf : (placeholderValue values placeholder).hasType typeOid = true)
    (himage : (placeholderValue values placeholder).asSqlite = constant) :
    Agrees strtod typeOid column source.op (.value constant) values
      (.compare column operator placeholder) := by
  intro row sv htype hdecoded
  have hw : placeholderValue values placeholder ≠ .null := by
    intro h
    rw [h] at himage
    exact hconstant himage.symm
  have hsv := decoded_eq hexact htype hdecoded
  rw [SqlPredicate.holds]
  by_cases hempty : row column = .bytea []
  · have hkind : PgKind.ofOid typeOid = .bytea := by
      rw [hempty] at htype
      unfold PgValue.hasType at htype
      cases hkind : PgKind.ofOid typeOid <;> rw [hkind] at htype <;>
        exact absurd htype Bool.false_ne_true
    obtain ⟨bytes, hbytes⟩ : ∃ bytes, placeholderValue values placeholder = .bytea bytes := by
      unfold PgValue.hasType at htypeOf
      rw [hkind] at htypeOf
      cases h : placeholderValue values placeholder <;> rw [h] at htypeOf <;> simp_all
    rw [hbytes] at himage
    have hnotNull : source.op ≠ 71 := fun h =>
      hnull.1 ((vtabConstraintOperation_null hop).1.mpr h)
    rw [if_pos hempty] at hsv
    rw [hsv, constraintHolds_null hnotNull hconstant, hempty, hbytes,
      operator_holds_empty hop (hbytea hkind) hoperator, ← himage, PgValue.asSqlite]
    simp
  · rw [if_neg hempty] at hsv
    have hcompare : sv.compare? constant =
        (row column).compare? (placeholderValue values placeholder) := by
      rw [hsv, ← himage, compare?_asSqlite hexact htype htypeOf]
    simp only [hempty, false_implies, iff_true]
    exact operator_holds hop hoperator hcompare hconstant hw

theorem writes_isNull (hin : c.flags.in = false) (h : c.operation = .isNull)
    (hargument : c.argumentIndex = 0) (hwrites : Writes parameters arguments c predicate) :
    predicate = some (.isNull c.column.toNat) := by
  cases hwrites <;> simp_all [constraintSkipped]

theorem writes_isNotNull (hin : c.flags.in = false) (h : c.operation = .isNotNull)
    (hargument : c.argumentIndex = 0) (hwrites : Writes parameters arguments c predicate) :
    predicate = some (.isNotNull c.column.toNat) := by
  cases hwrites <;> simp_all [constraintSkipped]

theorem writes_compare (hin : c.flags.in = false)
    (h : c.operation ≠ .isNull ∧ c.operation ≠ .isNotNull ∧ c.operation ≠ .limit ∧
      c.operation ≠ .offset)
    (hcompatible : vtabValueCompatible (constraintValue arguments c) c.typeOid c.valueClass = true)
    (hwrites : Writes parameters arguments c predicate) :
    ∃ operator placeholder, predicate = some (.compare c.column.toNat operator placeholder) ∧
      vtabOperatorSql c = some operator ∧ parameters[placeholder - 1]? =
        some (parameterOf (constraintValue arguments c) c.typeOid c.valueClass) := by
  cases hwrites with
  | compare _ _ hoperator hvalue => exact ⟨_, _, rfl, hoperator, hvalue⟩
  | _ => simp_all [constraintSkipped]

/-- Nothing is written in the WHERE clause for LIMIT and OFFSET. -/
theorem not_writes_window {p : SqlPredicate} (h : c.operation = .limit ∨ c.operation = .offset)
    (hflags : c.flags = ⟨false, false, false, false⟩) :
    ¬ Writes parameters arguments c (some p) := by
  intro hwrites
  rcases h with h | h <;> cases hwrites <;> simp_all [vtabOperatorSql]

/-- A condition is written for every pushed constraint other than IN. -/
theorem writes_some (hfrom : PlannedFrom source c typeOid) (hin : c.flags.in = false)
    (htypeOid : c.typeOid = typeOid)
    (hargument : c.argumentIndex ≠ 0 → constraintArgument arguments c = some operand)
    (hconstant : ∀ constant, source.rhs = some constant → operand = .value constant)
    (hwrites : Writes parameters arguments c predicate) : ∃ p, predicate = some p := by
  have hvalue {constant : SqliteValue} (hargument' : c.argumentIndex ≠ 0)
      (hrhs : source.rhs = some constant) : constraintValue arguments c = constant := by
    rw [constraintValue, hargument hargument', hconstant _ hrhs]
    rfl
  cases hfrom with
  | isNull _ h _ hnone => exact ⟨_, writes_isNull hin h hnone hwrites⟩
  | isNotNull _ h _ hnone => exact ⟨_, writes_isNotNull hin h hnone hwrites⟩
  | isIn _ _ _ hin' => exact absurd hin' (by simp [hin])
  | isNothing _ hrhs h _ _ hsome =>
    obtain ⟨_, _, rfl, -, -⟩ := writes_compare hin (by simp [h])
      (by rw [hvalue hsome hrhs]; rfl) hwrites
    exact ⟨_, rfl⟩
  | compare hrhs _ _ hcompare _ hsome hclass _ hcompatible =>
    obtain ⟨_, _, rfl, -, -⟩ := writes_compare hin hcompare
      (by rw [hvalue hsome hrhs, htypeOid, hclass]; exact hcompatible) hwrites
    exact ⟨_, rfl⟩

/-- **A condition that SQLite does not check again.** -/
theorem writes_agrees (hfrom : PlannedFrom source c typeOid) (hin : c.flags.in = false)
    (htypeOid : c.typeOid = typeOid)
    (hargument : c.argumentIndex ≠ 0 → constraintArgument arguments c = some operand)
    (hconstant : ∀ constant, source.rhs = some constant → operand = .value constant)
    (hvalues : parameters.mapM PgValue.input = some values)
    (hwrites : Writes parameters arguments c predicate) :
    ∃ p, predicate = some p ∧
      Agrees strtod typeOid c.column.toNat source.op operand values p := by
  have hvalue {constant : SqliteValue} (hargument' : c.argumentIndex ≠ 0)
      (hrhs : source.rhs = some constant) : constraintValue arguments c = constant := by
    rw [constraintValue, hargument hargument', hconstant _ hrhs]
    rfl
  cases hfrom with
  | isNull hop h _ hnoArgument =>
    refine ⟨_, writes_isNull hin h hnoArgument hwrites, ?_⟩
    rw [hop]
    refine agrees_isNull Function.injective_id (fun _ => rfl) (fun _ => rfl) ?_
    unfold emptyAgrees
    split <;> rfl
  | isNotNull hop h _ hnoArgument =>
    refine ⟨_, writes_isNotNull hin h hnoArgument hwrites, ?_⟩
    rw [hop]
    refine agrees_isNull Bool.involutive_not.injective (fun _ => rfl) (fun _ => rfl) ?_
    unfold emptyAgrees
    split <;> rfl
  | isIn _ _ _ hin' => exact absurd hin' (by simp [hin])
  | isNothing hop hrhs h hnullSafe _ hargument' =>
    obtain ⟨operator, placeholder, rfl, hoperator, hread⟩ := writes_compare hin (by simp [h])
      (by rw [hvalue hargument' hrhs]; rfl) hwrites
    rw [hvalue hargument' hrhs] at hread
    have hplaceholder := Option.some.inj ((placeholderValue_eq hvalues hread).symm.trans
      (input_null _))
    obtain rfl : SqlOperator.notDistinct = operator := by
      simpa [vtabOperatorSql, hnullSafe] using hoperator
    refine ⟨_, rfl, ?_⟩
    rw [hop, hconstant _ hrhs]
    refine agrees_isNull Function.injective_id (fun row => ?_) (fun sv => ?_) rfl
    · simp only [SqlPredicate.holds, SqlOperator.holds, hplaceholder, id_eq]
      cases row c.column.toNat <;> rfl
    · simp only [constraintHolds, id_eq]
      cases sv <;> rfl
  | compare hrhs hv hop hcompare _ hargument' hclass hkind hcompatible hbytea =>
    rw [← hvalue hargument' hrhs] at hcompatible
    obtain ⟨operator, placeholder, rfl, hoperator, hread⟩ := writes_compare hin hcompare
      (by rwa [htypeOid, hclass]) hwrites
    rw [htypeOid, hclass] at hread
    obtain ⟨htypeOf, himage⟩ := constant_of_read hkind hcompatible
      (placeholderValue_eq hvalues hread)
    rw [hvalue hargument' hrhs] at himage
    refine ⟨_, rfl, ?_⟩
    rw [hconstant _ hrhs]
    exact agrees_compare hkind hop hcompare hbytea hoperator hv htypeOf himage

theorem vtabInCompatible_items {list list' : List SqliteValue}
    (h : vtabInCompatible (some (.items list)) c = some list') :
    list = list' ∧ ∀ item ∈ list, vtabValueCompatible item c.typeOid c.valueClass = true := by
  obtain ⟨hall, h⟩ := Option.ite_none_right_eq_some.mp h
  rw [Bool.and_eq_true, List.all_eq_true] at hall
  exact ⟨Option.some.inj h, hall.2⟩

/-- **A condition that SQLite checks again** keeps every row it has to. -/
theorem writes_isIn_keeps {p : SqlPredicate} {list : List SqliteValue} {row : PgRow}
    (hkind : PgKind.ofOid typeOid ≠ .other) (hin : c.flags.in = true)
    (htypeOid : c.typeOid = typeOid) (hclass : c.valueClass = vtabExpectedValueClass typeOid)
    (hop : source.op ≠ 70 ∧ source.op ≠ 71)
    (hargument : constraintArgument arguments c = some (.items list))
    (hvalues : parameters.mapM PgValue.input = some values)
    (hwrites : Writes parameters arguments c (some p))
    (htype : (row c.column.toNat).hasType typeOid = true)
    (hdecoded : (row c.column.toNat).decoded strtod typeOid = some sv)
    (hholds : constraintHolds source.op (.items list) sv = true) : p.holds values row = true := by
  obtain ⟨item, hitem, heq⟩ : ∃ item ∈ list, sv.compare? item = some .eq := by
    unfold constraintHolds at hholds
    split at hholds
    · rename_i h
      exact absurd h hop.2
    · rename_i h
      exact absurd h hop.1
    · simpa using hholds
  have hsv := decoded_eq hkind htype hdecoded
  have hempty : row c.column.toNat ≠ .bytea [] := by
    intro hempty
    rw [if_pos hempty] at hsv
    rw [hsv] at heq
    nomatch heq
  rw [if_neg hempty] at hsv
  cases hwrites with
  | never _ h =>
    rw [hargument] at h
    rw [(vtabInCompatible_items h).1] at hitem
    nomatch hitem
  | isIn _ h hread =>
    rw [hargument] at h
    obtain ⟨rfl, hcompatible⟩ := vtabInCompatible_items h
    obtain ⟨placeholder, hplaceholder, hparameter⟩ := forall₂_exists_left hread hitem
    have hitemCompatible := hcompatible item hitem
    rw [htypeOid, hclass] at hparameter hitemCompatible
    obtain ⟨htypeOf, himage⟩ := constant_of_read hkind hitemCompatible
      (placeholderValue_eq hvalues hparameter)
    rw [SqlPredicate.holds, List.any_eq_true]
    refine ⟨placeholder, hplaceholder, ?_⟩
    rw [← compare?_asSqlite hkind htype htypeOf, himage, ← hsv, heq]
    rfl
  | isNull hin' | isNotNull hin' | compare hin' => exact absurd hin (by simp [hin'])

end Verdict

end Vps
