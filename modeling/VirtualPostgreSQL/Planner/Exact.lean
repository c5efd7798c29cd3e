import VirtualPostgreSQL.Planner.Execution

/-!
# Planner/Exact — pushed predicates mean what SQLite means

Three places decide a pushed predicate: the capabilities of the column type, the class of the
constant, and the typed parameter.  `PlannedFrom` says what the first two leave for the third, and
`pushdownExact_iff` compares the server's verdict on the written condition with SQLite's verdict on
the decoded column: they agree, and the query succeeds, exactly when the constants lie in the range
of the column's type and no row holds an empty `bytea` where it matters.
-/

namespace Vps

open Machinery

/-! ## What is planned -/

/-- **A pushed constraint and the constraint it comes from.** -/
inductive PlannedFrom (source : IndexConstraint) (c : PlanConstraint) (typeOid : UInt32) : Prop
  | isNull (hop : source.op = 71) (h : c.operation = .isNull) (hin : c.flags.in = false)
      (hargument : c.argumentIndex = 0)
  | isNotNull (hop : source.op = 70) (h : c.operation = .isNotNull) (hin : c.flags.in = false)
      (hargument : c.argumentIndex = 0)
  | isIn (hop : source.op ≠ 70 ∧ source.op ≠ 71) (hsource : source.isIn = true)
      (h : c.operation = .in) (hin : c.flags.in = true) (hargument : c.argumentIndex ≠ 0)
      (hclass : c.valueClass = vtabExpectedValueClass typeOid)
      (hkind : PgKind.ofOid typeOid ≠ .other)
  /-- `IS` with the constant NULL, on a column of any type. -/
  | isNothing (hop : source.op = 72) (hrhs : source.rhs = some .null) (h : c.operation = .eq)
      (hnullSafe : c.flags.nullSafe = true) (hin : c.flags.in = false)
      (hargument : c.argumentIndex ≠ 0)
  | compare {v : SqliteValue} (hrhs : source.rhs = some v) (hv : v ≠ .null)
      (hop : vtabConstraintOperation source.op = some (c.operation, c.flags.nullSafe))
      (hcompare : c.operation ≠ .isNull ∧ c.operation ≠ .isNotNull ∧ c.operation ≠ .limit ∧
        c.operation ≠ .offset)
      (hin : c.flags.in = false) (hargument : c.argumentIndex ≠ 0)
      (hclass : c.valueClass = vtabExpectedValueClass typeOid)
      (hkind : PgKind.ofOid typeOid ≠ .other)
      (hcompatible : vtabValueCompatible v typeOid (vtabExpectedValueClass typeOid) = true)
      (hbytea : PgKind.ofOid typeOid = .bytea → c.operation = .eq ∨ c.operation = .ne)

section Planned

variable {table : PlannedTable} {info : IndexInfo} {memoryOk : Bool} {out : BestIndexOutput}
  {source : IndexConstraint} {i : ℕ} {typeOid : UInt32} {input : PlannerConstraintInput}

/-- The capabilities of a type, by its kind. -/
theorem vtabPlanCapabilities_kind (typeOid : UInt32) :
    vtabPlanCapabilities typeOid =
      match PgKind.ofOid typeOid with
      | .bool | .int | .uuid => ⟨true, true, true, false⟩
      | .bytea => ⟨true, false, true, true⟩
      | .other => ⟨false, false, false, false⟩ := by
  cases hkind : PgKind.ofOid typeOid
  case other =>
    obtain ⟨hbool, hint, huuid, hbytea⟩ := typeCodecForOid_other hkind
    unfold vtabPlanCapabilities
    split <;> simp_all
  all_goals rw [vtabPlanCapabilities, typeCodecForOid_of_kind (by rw [hkind]; rfl)]

/-- The class of the constants of a type, by its kind. -/
theorem vtabExpectedValueClass_kind (typeOid : UInt32) :
    vtabExpectedValueClass typeOid =
      match PgKind.ofOid typeOid with
      | .bool | .int => .integer
      | .uuid => .text
      | .bytea => .blob
      | .other => .unknown := by
  cases hkind : PgKind.ofOid typeOid
  case other =>
    obtain ⟨hbool, hint, huuid, hbytea⟩ := typeCodecForOid_other hkind
    unfold vtabExpectedValueClass
    split <;> simp_all
  all_goals rw [vtabExpectedValueClass, typeCodecForOid_of_kind (by rw [hkind]; rfl)]

/-- A constant keeps its class only if it fits the type. -/
theorem rhsValueClass_spec {v : SqliteValue} (h : rhsValueClass typeOid v ≠ .unknown)
    (hv : v ≠ .null) :
    rhsValueClass typeOid v = vtabExpectedValueClass typeOid ∧
      vtabValueCompatible v typeOid (vtabExpectedValueClass typeOid) = true := by
  unfold rhsValueClass at h ⊢
  have hclass : vtabValueClass v = vtabExpectedValueClass typeOid := by
    by_contra hne
    cases v <;> simp_all [vtabValueClass]
  cases v with
  | null => exact absurd rfl hv
  | real value =>
    rw [vtabExpectedValueClass_kind] at hclass
    split at hclass <;> nomatch hclass
  | blob bytes => simp [← hclass, vtabValueClass, vtabValueCompatible]
  | integer value =>
    simp only [← hclass, vtabValueClass, vtabValueCompatible] at h ⊢
    by_cases hbool : typeOid = 16
    · simpa [hbool, or_iff_not_imp_left] using h
    · simp [hbool]
  | text bytes =>
    have hbool : typeOid ≠ 16 := by
      rintro rfl
      nomatch hclass
    simp only [← hclass, vtabValueClass, vtabValueCompatible] at h ⊢
    by_cases huuid : typeOid = 2950 <;> simp_all

theorem rhsValueClass_ne_null {v : SqliteValue} (hv : v ≠ .null) :
    rhsValueClass typeOid v ≠ .null := by
  have hclass : vtabValueClass v ≠ .null := by
    cases v <;> simp_all [vtabValueClass]
  simp only [rhsValueClass]
  repeat' split
  all_goals first | exact hclass | decide

theorem vtabConstraintOperation_null {op : UInt8} {operation : PlanOperator} {nullSafe : Bool}
    (h : vtabConstraintOperation op = some (operation, nullSafe)) :
    (operation = .isNull ↔ op = 71) ∧ (operation = .isNotNull ↔ op = 70) ∧
      (nullSafe = true → op = 72 ∧ operation = .eq) := by
  unfold vtabConstraintOperation at h
  split at h <;> simp_all <;> obtain ⟨rfl, rfl⟩ := h <;> simp

theorem plannedColumn_eq (hcolumn : 0 ≤ source.iColumn)
    (hoid : table.fieldOids[source.iColumn.toNat]? = some typeOid) :
    plannedColumn table source.iColumn = ⟨typeOid, vtabPlanCapabilities typeOid⟩ := by
  simp [plannedColumn, hcolumn, hoid]

theorem requestColumn_eq {column : ℕ} (hoid : table.fieldOids[column]? = some typeOid) :
    (bestIndexRequest table info).columns[column]? =
      some ⟨typeOid, vtabPlanCapabilities typeOid⟩ := by
  simp [bestIndexRequest, hoid]

/-- The fields of an input, in terms of the constraint. -/
theorem bestIndexInput_fields {operation : PlanOperator} {nullSafe : Bool}
    (hop : vtabConstraintOperation source.op = some (operation, nullSafe))
    (hcolumn : 0 ≤ source.iColumn)
    (hoid : table.fieldOids[source.iColumn.toNat]? = some typeOid) (husable : source.usable = true)
    (h : bestIndexInput table source i = some input) :
    input.operation = operation ∧ input.nullSafe = nullSafe ∧
      input.isIn = (operation == .eq &&
        decide (PgKind.ofOid typeOid ≠ .other) && source.isIn) ∧
      input.valueClass =
        if operation = .isNull || operation = .isNotNull || operation = .limit ||
          operation = .offset then .integer
        else if input.isIn then vtabExpectedValueClass typeOid
        else match source.rhs with
        | none => .unknown
        | some rhs => rhsValueClass typeOid rhs := by
  have hcapable : ((vtabPlanCapabilities typeOid).equality &&
      (vtabPlanCapabilities typeOid).exact) = decide (PgKind.ofOid typeOid ≠ .other) := by
    rw [vtabPlanCapabilities_kind]
    cases PgKind.ofOid typeOid <;> rfl
  simp only [bestIndexInput, hop, plannedColumn_eq hcolumn hoid, husable, hcolumn,
    decide_true, Bool.true_and, hcapable, Option.some.injEq] at h
  subst h
  refine ⟨rfl, rfl, rfl, ?_⟩
  simp only
  split
  · rfl
  · cases (operation == .eq && decide (PgKind.ofOid typeOid ≠ .other) && source.isIn) <;> rfl

/-- A value of an exact type: the class is that of the type, the operators those it orders by. -/
theorem planValueExact_spec {operation : PlanOperator} {valueClass : PlanValueClass}
    (h : planValueExact ⟨typeOid, vtabPlanCapabilities typeOid⟩ operation valueClass = true)
    (hnull : operation ≠ .isNull ∧ operation ≠ .isNotNull) :
    PgKind.ofOid typeOid ≠ .other ∧ valueClass ≠ .unknown ∧ valueClass ≠ .null ∧
      (PgKind.ofOid typeOid = .bytea → operation = .eq ∨ operation = .ne ∨ operation = .in) := by
  unfold planValueExact at h
  rw [vtabPlanCapabilities_kind] at h
  cases hkind : PgKind.ofOid typeOid <;> cases valueClass <;> cases operation <;> simp_all

/-- The visible column of a pushable input. -/
theorem column_of_pushable (h : (bestIndexRequest table info).pushable input = true) :
    0 ≤ input.column ∧ input.isWindow = false ∧ input.usable = true ∧
      ∃ typeOid, table.fieldOids[input.column.toNat]? = some typeOid := by
  simp only [PlannerRequest.pushable, PlannerRequest.eligible, bestIndexRequest, List.length_map,
    Bool.and_eq_true, decide_eq_true_eq, Bool.not_eq_true'] at h
  obtain ⟨⟨⟨⟨husable, hwindow⟩, hcolumn⟩, hvisible⟩, -⟩ := h
  exact ⟨hcolumn, hwindow, husable, _, List.getElem?_eq_getElem hvisible⟩

/-- **From an exact input to its plan constraint.** -/
theorem plannedFrom_of_pushable (hof : bestIndexInput table source i = some input)
    (hpush : (bestIndexRequest table info).pushable input = true)
    (hoid : table.fieldOids[input.column.toNat]? = some typeOid) (argumentCount : ℕ) :
    PlannedFrom source (planConstraintOf (bestIndexRequest table info) input argumentCount)
      typeOid := by
  obtain ⟨hcolumn, hwindow, husable, -⟩ := column_of_pushable hpush
  obtain ⟨-, husable', hsame, nullSafe, hop⟩ := bestIndexInput_spec hof
  rw [hsame] at hcolumn hoid
  obtain ⟨-, hnullSafe, hisIn, hclass⟩ :=
    bestIndexInput_fields hop hcolumn hoid (husable'.symm.trans husable) hof
  rw [PlannerRequest.pushable, Bool.and_eq_true, PlannerRequest.exact, hsame,
    requestColumn_eq hoid] at hpush
  have hexact := hpush.2
  simp only [PlannerConstraintInput.isWindow, Bool.or_eq_false_iff, beq_eq_false_iff_ne] at hwindow
  obtain ⟨hopNull, hopNotNull, hopSafe⟩ := vtabConstraintOperation_null hop
  by_cases hnull : input.operation = .isNull
  · have hplain : input.isIn = false := by simp [hisIn, hnull]
    refine .isNull (hopNull.mp hnull) ?_ hplain ?_
    · simpa [planConstraintOf, PlannerConstraintInput.planOperation, hplain] using hnull
    · simp [planConstraintOf, hnull]
  by_cases hnotNull : input.operation = .isNotNull
  · have hplain : input.isIn = false := by simp [hisIn, hnotNull]
    refine .isNotNull (hopNotNull.mp hnotNull) ?_ hplain ?_
    · simpa [planConstraintOf, PlannerConstraintInput.planOperation, hplain] using hnotNull
    · simp [planConstraintOf, hnotNull]
  have hargument :
      (planConstraintOf (bestIndexRequest table info) input argumentCount).argumentIndex ≠ 0 := by
    simp [planConstraintOf, hnull, hnotNull]
  have hnotOp : source.op ≠ 70 ∧ source.op ≠ 71 :=
    ⟨fun h => hnotNull (hopNotNull.mpr h), fun h => hnull (hopNull.mpr h)⟩
  simp only [hnull, hnotNull, hwindow.1, hwindow.2, decide_false, Bool.or_self, Bool.false_eq_true,
    if_false] at hclass
  cases hin : input.isIn with
  | true =>
    rw [hin] at hclass hisIn
    simp only [Bool.true_eq, Bool.and_eq_true, decide_eq_true_eq] at hisIn
    exact .isIn hnotOp hisIn.2
      (by simp [planConstraintOf, PlannerConstraintInput.planOperation, hin])
      hin hargument (by simpa [planConstraintOf] using hclass) hisIn.1.2
  | false =>
    have hplan : input.planOperation = input.operation := by
      simp [PlannerConstraintInput.planOperation, hin]
    simp only [hin, Bool.false_eq_true, if_false] at hclass
    rw [hplan] at hexact
    cases hrhs : source.rhs with
    | none =>
      rw [hrhs] at hclass
      simp only [hclass, reduceCtorEq, decide_false, Bool.and_false, Bool.false_eq_true,
        if_false] at hexact
      exact absurd rfl (planValueExact_spec hexact ⟨hnull, hnotNull⟩).2.1
    | some v =>
      rw [hrhs] at hclass
      simp only at hclass
      by_cases hv : v = .null
      · subst hv
        have hnullClass : input.valueClass = .null := hclass
        have hsafe : input.nullSafe = true := by
          by_contra hsafe
          rw [Bool.not_eq_true] at hsafe
          simp only [hsafe, Bool.false_and, Bool.false_eq_true, if_false] at hexact
          exact (planValueExact_spec hexact ⟨hnull, hnotNull⟩).2.2.1 hnullClass
        rw [hnullSafe] at hsafe
        obtain ⟨hop72, heq⟩ := hopSafe hsafe
        exact .isNothing hop72 hrhs (by simpa [planConstraintOf, hplan] using heq)
          (by simpa [planConstraintOf, hnullSafe] using hsafe) hin hargument
      · have hnotNullClass : input.valueClass ≠ .null := by
          rw [hclass]
          exact rhsValueClass_ne_null hv
        simp only [hnotNullClass, decide_false, Bool.and_false, Bool.false_eq_true,
          if_false] at hexact
        obtain ⟨hkind, hknown, -, hbytea⟩ := planValueExact_spec hexact ⟨hnull, hnotNull⟩
        obtain ⟨hexpected, hcompatible⟩ := rhsValueClass_spec (hclass ▸ hknown) hv
        refine .compare hrhs hv ?_ ?_ hin hargument (hclass.trans hexpected) hkind hcompatible ?_
        · simpa [planConstraintOf, hplan, hnullSafe] using hop
        · simpa [planConstraintOf, hplan] using ⟨hnull, hnotNull, hwindow⟩
        · intro hkind
          rcases hbytea hkind with heq | hne | hinOp
          · exact .inl (by simpa [planConstraintOf, hplan] using heq)
          · exact .inr (by simpa [planConstraintOf, hplan] using hne)
          · rw [hinOp] at hop
            exact absurd hop (by unfold vtabConstraintOperation; split <;> simp)

end Planned

/-! ## Constants -/

/-- The constant lies in the range of the integer type it is sent as. -/
def constantFits (typeOid : UInt32) : SqliteValue → Bool
  | .integer value => PgKind.ofOid typeOid != .int || inIntegerRange typeOid value.toInt
  | _ => true

section Constants

variable {typeOid : UInt32} {v : SqliteValue}

theorem kind_bool (h : PgKind.ofOid typeOid = .bool) : typeOid = 16 := by
  unfold PgKind.ofOid at h
  split at h <;> first | rfl | nomatch h

theorem kind_uuid (h : PgKind.ofOid typeOid = .uuid) : typeOid = 2950 := by
  unfold PgKind.ofOid at h
  split at h <;> first | rfl | nomatch h

theorem kind_of_ne_bool (h : PgKind.ofOid typeOid ≠ .bool) : typeOid ≠ 16 := by
  rintro rfl
  exact h rfl

/-- A compatible integer is a boolean or one of an integer type. -/
theorem compatible_integer {value : Int64}
    (h : vtabValueCompatible (.integer value) typeOid (vtabExpectedValueClass typeOid) = true) :
    (PgKind.ofOid typeOid = .bool ∧ (value = 0 ∨ value = 1)) ∨ PgKind.ofOid typeOid = .int := by
  rw [vtabExpectedValueClass_kind] at h
  cases hkind : PgKind.ofOid typeOid <;> rw [hkind] at h
  case bool =>
    rw [kind_bool hkind] at h
    exact .inl ⟨rfl, by simpa [vtabValueCompatible] using h⟩
  case int => exact .inr rfl
  all_goals
    have := kind_of_ne_bool (by rw [hkind]; decide)
    simp [vtabValueCompatible, this] at h

/-- A compatible text is a canonical UUID. -/
theorem compatible_text {bytes : List UInt8} (hexact : PgKind.ofOid typeOid ≠ .other)
    (h : vtabValueCompatible (.text bytes) typeOid (vtabExpectedValueClass typeOid) = true) :
    PgKind.ofOid typeOid = .uuid ∧ vtabUuidCanonical bytes = true := by
  rw [vtabExpectedValueClass_kind] at h
  cases hkind : PgKind.ofOid typeOid <;> rw [hkind] at h
  case bool =>
    rw [kind_bool hkind] at h
    simp [vtabValueCompatible] at h
  case uuid =>
    rw [kind_uuid hkind] at h
    exact ⟨rfl, by simpa [vtabValueCompatible] using h⟩
  case other => exact absurd hkind hexact
  all_goals simp [vtabValueCompatible] at h

/-- A compatible blob is a `bytea`. -/
theorem compatible_blob {bytes : List UInt8}
    (h : vtabValueCompatible (.blob bytes) typeOid (vtabExpectedValueClass typeOid) = true) :
    PgKind.ofOid typeOid = .bytea := by
  rw [vtabExpectedValueClass_kind] at h
  cases hkind : PgKind.ofOid typeOid <;> rw [hkind] at h
  all_goals nomatch h

/-- An integer is sent in decimal. -/
theorem parameterOf_integer (hkind : PgKind.ofOid typeOid = .int) (value : Int64) :
    (parameterOf (.integer value) typeOid (vtabExpectedValueClass typeOid)).value =
      some (decimalInt value.toInt) := by
  have hne := kind_of_ne_bool (by rw [hkind]; decide)
  rw [vtabExpectedValueClass_kind, hkind]
  simp [parameterOf, parameterBytes, hne]

/-- The server reads NULL of any type. -/
theorem input_null (expected : PlanValueClass) :
    PgValue.input (parameterOf .null typeOid expected) = some .null := rfl

/-- **The constant arrives**: a constant in range is read back as itself. -/
theorem input_of_fits (hexact : PgKind.ofOid typeOid ≠ .other)
    (h : vtabValueCompatible v typeOid (vtabExpectedValueClass typeOid) = true)
    (hfits : constantFits typeOid v = true) :
    ∃ w, PgValue.input (parameterOf v typeOid (vtabExpectedValueClass typeOid)) = some w ∧
      w.hasType typeOid = true ∧ w.asSqlite = v := by
  match v with
  | .null => exact ⟨.null, rfl, by unfold PgValue.hasType; split <;> simp_all, rfl⟩
  | .real _ => nomatch h
  | .integer value =>
    rcases compatible_integer h with ⟨hkind, hvalue⟩ | hkind
    · obtain rfl := kind_bool hkind
      rcases hvalue with rfl | rfl
      exacts [⟨.bool false, rfl, rfl, rfl⟩, ⟨.bool true, rfl, rfl, rfl⟩]
    · have hrange : inIntegerRange typeOid value.toInt = true := by
        simpa [constantFits, hkind] using hfits
      refine ⟨.int value.toInt, ?_, by simpa [PgValue.hasType, hkind] using hrange, ?_⟩
      · rw [input_int hkind (parameterOf_integer hkind value)]
        exact if_pos hrange
      · simp [PgValue.asSqlite]
  | .text bytes =>
    obtain ⟨hkind, hcanonical⟩ := compatible_text hexact h
    obtain rfl := kind_uuid hkind
    refine ⟨.uuid bytes, ?_, by simpa [PgValue.hasType, hkind] using hcanonical, rfl⟩
    simp [PgValue.input, parameterOf, parameterBytes, hkind, hcanonical]
  | .blob bytes =>
    have hkind := compatible_blob h
    refine ⟨.bytea bytes, ?_, by simp [PgValue.hasType, hkind], rfl⟩
    rw [vtabExpectedValueClass_kind, hkind]
    simp [PgValue.input, parameterOf, parameterBytes, hkind]

/-- A constant out of range is refused. -/
theorem input_of_not_fits
    (h : vtabValueCompatible v typeOid (vtabExpectedValueClass typeOid) = true)
    (hfits : constantFits typeOid v = false) :
    PgValue.input (parameterOf v typeOid (vtabExpectedValueClass typeOid)) = none := by
  match v with
  | .integer value =>
    simp only [constantFits, Bool.or_eq_false_iff, bne_eq_false_iff_eq] at hfits
    obtain ⟨hkind, hrange⟩ := hfits
    rw [input_int hkind (parameterOf_integer hkind value)]
    exact if_neg (Bool.not_eq_true _ ▸ hrange)

end Constants

end Vps
