import VirtualPostgreSQL.Planner.WireCodec

/-!
# Planner/RoundTrip — the plan that `xFilter` reads is the plan that `xBestIndex` wrote

What the loops of the compiler keep (`CompileState.Fits`) makes every compiled plan fit its record:
its columns are in range and projected once, its counts within the limits, its arguments counted.
With the agreement of the writer and the reader this is the round trip: `plan_wire_round_trip`.
-/

namespace Vps

open Machinery

/-! ## What the compiler produces -/

/-- A projection of the plan: columns in range, none twice. -/
structure Projects (projection : List ℕ) : Prop where
  once : projection.Nodup
  lt : ∀ column ∈ projection, column < planMaxColumns
  le : projection.length ≤ planMaxColumns

/-- A column that is added to a projection is one of the table. -/
theorem Projects.add {projection projection' : List ℕ} {column : ℕ} (h : Projects projection)
    (hcolumn : column < planMaxColumns)
    (hadd : planAddProjection projection column = some projection') :
    Projects projection' := by
  unfold planAddProjection at hadd
  split at hadd
  · cases hadd
  rename_i hroom
  simp only [Bool.or_eq_true, decide_eq_true_eq, not_or, ge_iff_le, Nat.not_le] at hroom
  split at hadd
  · cases hadd
    exact h
  rename_i hfresh
  cases hadd
  rw [List.contains_eq_mem, decide_eq_true_eq] at hfresh
  refine ⟨?_, fun c hc => ?_, ?_⟩
  · rw [List.nodup_append]
    refine ⟨h.once, List.nodup_singleton _, fun a ha b hb => ?_⟩
    rw [List.mem_singleton] at hb
    rintro rfl
    exact hfresh (hb ▸ ha)
  · rcases List.mem_append.mp hc with hc | hc
    · exact h.lt c hc
    · rw [List.mem_singleton.mp hc]
      exact hcolumn
  · rw [List.length_append, List.length_singleton]
    exact hroom.2

/-- So is every column of a list. -/
theorem Projects.project {request : PlannerRequest} {columns projection projection' : List ℕ}
    (h : Projects projection) (hcolumns : ∀ column ∈ columns, column < planMaxColumns)
    (hproject : planProject request columns projection = some projection') :
    Projects projection' := by
  induction columns generalizing projection with
  | nil =>
    cases hproject
    exact h
  | cons column rest ih =>
    have hrest : ∀ c ∈ rest, c < planMaxColumns :=
      fun c hc => hcolumns c (List.mem_cons_of_mem _ hc)
    rw [planProject] at hproject
    split at hproject
    · obtain ⟨added, hadd, hproject⟩ := Option.bind_eq_some_iff.mp hproject
      exact ih (h.add (hcolumns column List.mem_cons_self) hadd) hrest hproject
    · exact ih h hrest hproject

/-- So is every column of the order. -/
theorem Projects.order {terms : List PlannerOrderInput} {projection projection' : List ℕ}
    (h : Projects projection) (hterms : ∀ term ∈ terms, term.column < planMaxColumns)
    (hproject : planProjectOrder terms projection = some projection') : Projects projection' := by
  induction terms generalizing projection with
  | nil =>
    cases hproject
    exact h
  | cons term rest ih =>
    rw [planProjectOrder] at hproject
    obtain ⟨added, hadd, hproject⟩ := Option.bind_eq_some_iff.mp hproject
    exact ih (h.add (hterms term List.mem_cons_self) hadd)
      (fun t ht => hterms t (List.mem_cons_of_mem _ ht)) hproject

/-- A constraint of a plan: on a column in range, or LIMIT or OFFSET, with an argument that was
counted. -/
structure PlanConstraint.Fits (c : PlanConstraint) (argumentCount : ℕ) : Prop where
  argument : c.argumentIndex ≤ argumentCount
  column : (0 ≤ c.column ∧ c.column < 1024) ∨
    (c.column = -1 ∧ (c.operation = .limit ∨ c.operation = .offset))

/-- **What the loops of the compiler keep.** -/
structure CompileState.Fits (s : CompileState) : Prop where
  projection : Projects s.projection
  constraints_le : s.constraints.length ≤ planMaxConstraints
  arguments_le : s.argumentCount ≤ s.constraints.length
  constraints : ∀ c ∈ s.constraints, c.Fits s.argumentCount

/-- An order that can be consumed is on visible columns. -/
theorem orderTerm_lt {request : PlannerRequest} (hcolumns : request.columns.length ≤ planMaxColumns)
    (hexact : request.orderExact = true) {term : PlannerOrderInput}
    (hterm : term ∈ request.orderTerms) : term.column < planMaxColumns := by
  have hterm' := List.all_eq_true.mp hexact term hterm
  unfold PlannerRequest.orderTermExact at hterm'
  split at hterm'
  · cases hterm'
  · rename_i column hcolumn
    exact lt_of_lt_of_le (List.getElem?_eq_some_iff.mp hcolumn).1 hcolumns

namespace CompileState.Fits

variable {request : PlannerRequest} {s s' : CompileState}

/-- A constraint is added to the plan. -/
theorem push (h : s.Fits) (hroom : s.constraints.length < planMaxConstraints) {c : PlanConstraint}
    {count : ℕ} {projection : List ℕ} {hasRecheck : Bool} {exactKeyParts : ℕ}
    (hcount : s.argumentCount ≤ count ∧ count ≤ s.argumentCount + 1) (hc : c.Fits count)
    (hprojection : Projects projection) :
    CompileState.Fits ⟨s.constraints ++ [c], count, projection, hasRecheck, exactKeyParts⟩ where
  projection := hprojection
  constraints_le := by
    rw [List.length_append, List.length_singleton]
    exact hroom
  arguments_le := by
    rw [List.length_append, List.length_singleton]
    exact hcount.2.trans (Nat.succ_le_succ h.arguments_le)
  constraints d hd := by
    rcases List.mem_append.mp hd with hd | hd
    · exact ⟨(h.constraints d hd).argument.trans hcount.1, (h.constraints d hd).column⟩
    · rw [List.mem_singleton.mp hd]
      exact hc

/-- **A constraint that is compiled fits into the record.** -/
theorem compileConstraint (h : s.Fits) (hcolumns : request.columns.length ≤ planMaxColumns)
    {input : PlannerConstraintInput} (hstep : Vps.compileConstraint request s input = .ok s') :
    s'.Fits := by
  unfold Vps.compileConstraint at hstep
  split at hstep
  · cases hstep
    exact h
  rename_i heligible
  split at hstep
  · cases hstep
    exact { h with }
  split at hstep
  · cases hstep
  rename_i hroom
  dsimp only at hstep
  split at hstep
  · cases hstep
  rename_i projection hadd
  cases hstep
  simp only [Bool.not_eq_true', Bool.not_eq_false, PlannerRequest.eligible, Bool.and_eq_true,
    decide_eq_true_eq] at heligible
  obtain ⟨⟨-, hnonneg⟩, hlt⟩ := heligible
  have hcolumn : input.column.toNat < planMaxColumns := lt_of_lt_of_le hlt hcolumns
  refine h.push (Nat.not_le.mp hroom) ?_ ⟨?_, .inl ⟨hnonneg, ?_⟩⟩ (h.projection.add hcolumn hadd)
  · split <;> omega
  · simp only [planConstraintOf]
    split <;> split <;> simp_all
  · rw [planMaxColumns] at hcolumn
    simp only [planConstraintOf]
    omega

/-- A LIMIT or an OFFSET that is compiled fits into the record. -/
theorem compileWindow (h : s.Fits) {input : PlannerConstraintInput}
    (hstep : Vps.compileWindow s input = .ok s') : s'.Fits := by
  unfold Vps.compileWindow at hstep
  split at hstep
  · cases hstep
    exact h
  rename_i hwindow
  split at hstep
  · cases hstep
  rename_i hroom
  cases hstep
  simp only [Bool.or_eq_true, Bool.not_eq_true', not_or, Bool.not_eq_false,
    PlannerConstraintInput.isWindow, beq_iff_eq] at hwindow
  exact h.push (Nat.not_le.mp hroom) ⟨Nat.le_succ _, Nat.le_refl _⟩
    ⟨Nat.le_refl _, .inr ⟨rfl, hwindow.1.2⟩⟩ h.projection

/-- So does the order. -/
theorem compileOrder (h : s.Fits) (hcolumns : request.columns.length ≤ planMaxColumns)
    (hstep : Vps.compileOrder request s = .ok s') : s'.Fits := by
  unfold Vps.compileOrder at hstep
  split at hstep
  · rename_i hexact
    split at hstep
    · cases hstep
    rename_i projection hproject
    cases hstep
    exact { h with
      projection := h.projection.order
        (fun term hterm => orderTerm_lt hcolumns hexact hterm) hproject }
  · split at hstep
    · cases hstep
      exact { h with }
    · cases hstep
      exact h

end CompileState.Fits

/-- **A plan that fits its record.** -/
structure CompiledPlan.Fits (plan : CompiledPlan) : Prop where
  version : plan.version = planFormatVersion
  projection : Projects plan.projection
  constraints_le : plan.constraints.length ≤ planMaxConstraints
  arguments_le : plan.argumentCount ≤ planMaxConstraints
  constraints : ∀ c ∈ plan.constraints, c.Fits plan.argumentCount
  orderTerms_le : plan.orderTerms.length ≤ planMaxOrderTerms
  orderTerms : ∀ term ∈ plan.orderTerms, term.column < planMaxColumns
  rows : plan.estimatedRows ≠ 0
  cost : plan.estimatedCostMilli ≠ 0
  order : plan.flags.orderConsumed = decide (plan.orderTerms.length ≠ 0)
  indexPrefix : plan.selectedIndexPrefix ≤ 65535
  indexOrdinal : plan.selectedIndexOrdinal ≤ 65535

theorem planEstimate_ne_zero (request : PlannerRequest) (unique : Bool) (constraintCount : ℕ) :
    planEstimate request unique constraintCount ≠ 0 := by
  have hguard (x : UInt64) : (if x = 0 then 1 else x) ≠ 0 := by
    split
    · decide
    · assumption
  unfold planEstimate
  split
  · decide
  · exact hguard _

theorem planMinU64_le (left right : UInt64) : planMinU64 left right ≤ right := by
  unfold planMinU64
  split
  · rename_i hlt
    exact UInt64.le_of_lt hlt
  · exact UInt64.le_refl _

/-- The plan of a state that fits. -/
theorem CompileState.Fits.finish {request : PlannerRequest} {s : CompileState} (h : s.Fits)
    (hcolumns : request.columns.length ≤ planMaxColumns)
    (horders : request.orderTerms.length ≤ planMaxOrderTerms) : (compileFinish request s).Fits where
  version := rfl
  projection := h.projection
  constraints_le := h.constraints_le
  arguments_le := h.arguments_le.trans h.constraints_le
  constraints := h.constraints
  orderTerms_le := by
    simp only [compileFinish]
    split
    · rwa [List.length_map]
    · exact Nat.zero_le _
  orderTerms term hterm := by
    simp only [compileFinish] at hterm
    split at hterm
    · rename_i hexact
      obtain ⟨input, hinput, rfl⟩ := List.mem_map.mp hterm
      exact orderTerm_lt hcolumns hexact hinput
    · exact absurd hterm List.not_mem_nil
  rows := planEstimate_ne_zero _ _ _
  cost := by
    simp only [compileFinish]
    split
    · decide
    · assumption
  order := by
    by_cases hexact : request.orderExact = true
    · simp [compileFinish, hexact]
    · simp [compileFinish, hexact]
  indexPrefix := planMinU64_le _ _
  indexOrdinal := planMinU64_le _ _

/-- **Every compiled plan fits its record.** -/
theorem plannerCompile_fits {request : PlannerRequest} {plan : CompiledPlan}
    (h : plannerCompile request = .ok plan) :
    plan.Fits ∧ plan.sourceFingerprint = request.sourceFingerprint := by
  unfold plannerCompile at h
  split at h
  · cases h
  rename_i hvalid
  split at h
  · cases h
  rename_i projection hprojection
  obtain ⟨s₁, h₁, h⟩ := ok_of_bind h
  obtain ⟨s₂, h₂, h⟩ := ok_of_bind h
  obtain ⟨s₃, h₃, h⟩ := ok_of_bind h
  cases h
  simp only [plannerRequestValid, Bool.not_eq_true', Bool.not_eq_false, Bool.and_eq_true,
    decide_eq_true_eq] at hvalid
  obtain ⟨⟨⟨⟨hsome, hcolumns⟩, -⟩, horders⟩, -⟩ := hvalid
  have hbase : Projects projection := by
    obtain ⟨used, hused, hbase⟩ := Option.bind_eq_some_iff.mp hprojection
    have hprojects : Projects used := by
      refine Projects.project ⟨List.nodup_nil, fun _ hc => absurd hc List.not_mem_nil,
        Nat.zero_le _⟩ (fun column hcolumn => ?_) hused
      exact lt_of_lt_of_le (List.mem_range.mp hcolumn) hcolumns
    split at hbase
    · exact hprojects.add (by decide) hbase
    · cases hbase
      exact hprojects
  have hstart : CompileState.Fits ⟨[], 0, projection, false, 0⟩ :=
    ⟨hbase, Nat.zero_le _, Nat.le_refl _, fun _ hc => absurd hc List.not_mem_nil⟩
  have hs₁ : s₁.Fits :=
    foldlM_invariant (fun _ _ _ hs hstep => hs.compileConstraint hcolumns hstep) hstart h₁
  have hs₂ : s₂.Fits := hs₁.compileOrder hcolumns h₂
  have hs₃ : s₃.Fits := foldlM_invariant (fun _ _ _ hs hstep => hs.compileWindow hstep) hs₂ h₃
  exact ⟨hs₃.finish hcolumns horders, rfl⟩

/-- The version column is one more column of the projection. -/
theorem planAddVersion_fits {table : PlannedTable} {plan plan' : CompiledPlan} (h : plan.Fits)
    (hversion : ∀ version ∈ table.versionColumn, version < planMaxColumns)
    (hadd : planAddVersion table plan = .ok plan') :
    plan'.Fits ∧ plan'.sourceFingerprint = plan.sourceFingerprint := by
  unfold planAddVersion at hadd
  split at hadd
  · cases hadd
    exact ⟨h, rfl⟩
  rename_i version hsome
  split at hadd
  · cases hadd
    exact ⟨h, rfl⟩
  rename_i hfresh
  split at hadd
  · cases hadd
  rename_i hroom
  cases hadd
  have hlt := hversion version hsome
  have hprojects :
    planAddProjection plan.projection version = some (plan.projection ++ [version]) := by
    rw [planMaxColumns] at hlt
    have hsmall : ¬version > 65535 := by omega
    unfold planAddProjection
    rw [if_neg (by simpa [hsmall] using hroom), if_neg hfresh]
  exact ⟨{ h with projection := h.projection.add hlt hprojects }, rfl⟩

/-- The plan of `xBestIndex` is the compiled one, with the version column. -/
theorem moduleBestIndex_plan {table : PlannedTable} {info : IndexInfo} {memoryOk : Bool}
    {out : BestIndexOutput} (h : moduleBestIndex table info memoryOk = .ok out) :
    ∃ compiled, plannerCompile (bestIndexRequest table info) = .ok compiled ∧
      planAddVersion table compiled = .ok out.plan := by
  unfold moduleBestIndex at h
  split at h
  · cases h
  split at h
  · cases h
  rename_i compiled hcompile
  split at h
  · cases h
  rename_i plan hversion
  split at h
  · cases h
  cases h
  exact ⟨compiled, hcompile, hversion⟩

/-! ## Plans that fit have valid records -/

/-- No unknown flag is set. -/
theorem PlanFlags.bits_known (flags : PlanFlags) : flags.bits &&& ~~~31 = 0 := by
  obtain ⟨a, b, c, d, e⟩ := flags
  revert a b c d e
  decide

theorem PlanFlags.bits_order (flags : PlanFlags) :
    flags.bits &&& 1 ≠ 0 ↔ flags.orderConsumed = true := by
  obtain ⟨a, b, c, d, e⟩ := flags
  revert a b c d e
  decide

theorem PlanConstraintFlags.bits_known (flags : PlanConstraintFlags) :
    flags.bits &&& ~~~31 = 0 := by
  obtain ⟨a, b, c, d⟩ := flags
  revert a b c d
  decide

theorem PlanOperator.code_known (operation : PlanOperator) :
    1 ≤ operation.code ∧ operation.code ≤ 11 := by
  cases operation <;> decide

/-- A constraint that fits is accepted. -/
theorem PlanConstraint.Fits.accepted {c : PlanConstraint} {argumentCount : ℕ}
    (h : c.Fits argumentCount) (hcount : argumentCount < 2 ^ 16) :
    c.record.rejected argumentCount.toUInt16 = false := by
  have hargument : c.argumentIndex.toUInt16 ≤ argumentCount.toUInt16 := by
    rw [UInt16.le_iff_toNat_le, toNat_toUInt16 hcount,
      toNat_toUInt16 (lt_of_le_of_lt h.argument hcount)]
    exact h.argument
  obtain ⟨hlow, hhigh⟩ := c.operation.code_known
  have hcolumn : (c.record.column < 0 → c.record.operation = 10 ∨ c.record.operation = 11) ∧
      c.record.column < 1024 := by
    simp only [PlanConstraint.record]
    obtain ⟨hnonneg, hlt⟩ | ⟨hwindow, hlimit | hoffset⟩ := h.column
    · have hint : (Int32.ofInt c.column).toInt = c.column :=
        Int32.toInt_ofInt_of_le (by omega) (by omega)
      rw [Int32.lt_iff_toInt_lt, Int32.lt_iff_toInt_lt, hint]
      exact ⟨fun hneg => absurd hneg (Int.not_lt.mpr hnonneg), hlt⟩
    · rw [hwindow, hlimit]
      decide
    · rw [hwindow, hoffset]
      decide
  simp only [PlanConstraintRecord.rejected, Bool.or_eq_false_iff, decide_eq_false_iff_not, ne_eq,
    not_not, gt_iff_lt, ge_iff_le, UInt8.not_lt, UInt16.not_lt, Int32.not_le, Bool.and_eq_false_iff]
  refine ⟨⟨⟨⟨⟨c.flags.bits_known, hlow⟩, hhigh⟩, hargument⟩, ?_⟩, hcolumn.2⟩
  by_cases hneg : c.record.column < 0
  · rcases hcolumn.1 hneg with h10 | h11
    · exact .inl (.inr h10)
    · exact .inr h11
  · exact .inl (.inl hneg)

/-- A column in range is stored as it is. -/
theorem toNat_column {column : ℕ} (h : column < planMaxColumns) : column.toUInt16.toNat = column :=
  toNat_toUInt16 (lt_trans h (by decide))

/-- **The record of a plan that fits is valid.** -/
theorem CompiledPlan.Fits.valid {plan : CompiledPlan} (h : plan.Fits) : plan.record.Valid where
  version := by
    rw [CompiledPlan.record, h.version]
    rfl
  flags := plan.flags.bits_known
  projection_le := by
    rw [CompiledPlan.record, List.length_map]
    exact h.projection.le
  constraints_le := by
    rw [CompiledPlan.record, List.length_map]
    exact h.constraints_le
  orderTerms_le := by
    rw [CompiledPlan.record, List.length_map]
    exact h.orderTerms_le
  arguments_le := by
    rw [CompiledPlan.record, toNat_toUInt16 (lt_of_le_of_lt h.arguments_le (by decide))]
    exact h.arguments_le
  projection column hcolumn := by
    obtain ⟨c, hc, rfl⟩ := List.mem_map.mp hcolumn
    rw [toNat_column (h.projection.lt c hc)]
    exact h.projection.lt c hc
  once := by
    refine List.Nodup.map_on (fun c hc d hd heq => ?_) h.projection.once
    rw [← toNat_column (h.projection.lt c hc), heq, toNat_column (h.projection.lt d hd)]
  constraints item hitem := by
    obtain ⟨c, hc, rfl⟩ := List.mem_map.mp hitem
    exact (h.constraints c hc).accepted (lt_of_le_of_lt h.arguments_le (by decide))
  orderTerms term hterm := by
    obtain ⟨t, ht, rfl⟩ := List.mem_map.mp hterm
    have hcolumn := h.orderTerms t ht
    have hflag (b : Bool) : ((if b then 1 else 0 : UInt8) > 1) = False := by
      cases b <;> decide
    simp only [PlanOrderRecord.rejected, PlanOrderTerm.record, toNat_column hcolumn, hflag,
      decide_false, Bool.or_false, decide_eq_false_iff_not, ge_iff_le, Nat.not_le]
    exact hcolumn
  rows := h.rows
  cost := h.cost
  order := by
    rw [CompiledPlan.record, List.length_map]
    refine plan.flags.bits_order.trans ?_
    rw [h.order, decide_eq_true_eq]

/-! ## The record holds the plan -/

/-- Flags are read back from their bits. -/
theorem PlanFlags.ofBits_bits (flags : PlanFlags) : PlanFlags.ofBits flags.bits = flags := by
  obtain ⟨a, b, c, d, e⟩ := flags
  revert a b c d e
  decide

/-- So are those of a constraint. -/
theorem PlanConstraintFlags.ofBits_bits (flags : PlanConstraintFlags) :
    PlanConstraintFlags.ofBits flags.bits = flags := by
  obtain ⟨a, b, c, d⟩ := flags
  revert a b c d
  decide

/-- An operator is read back from its code. -/
theorem PlanOperator.ofCode_code (operation : PlanOperator) :
    PlanOperator.ofCode operation.code = operation := by
  cases operation <;> rfl

/-- So is a class. -/
theorem PlanValueClass.ofCode_code (valueClass : PlanValueClass) :
    PlanValueClass.ofCode valueClass.code = valueClass := by
  cases valueClass <;> rfl

/-- **A constraint that fits is read back from its record.** -/
theorem PlanConstraint.constraint_record {c : PlanConstraint} {argumentCount : ℕ}
    (h : c.Fits argumentCount) (hcount : argumentCount < 2 ^ 16)
    (hsource : c.sourceIndex < 2 ^ 16) :
    c.record.constraint = c := by
  have hcolumn : (Int32.ofInt c.column).toInt = c.column := by
    have hrange := h.column
    exact Int32.toInt_ofInt_of_le (by omega) (by omega)
  simp only [PlanConstraint.record, PlanConstraintRecord.constraint, hcolumn,
    toNat_toUInt16 hsource, toNat_toUInt16 (lt_of_le_of_lt h.argument hcount),
    PlanConstraintFlags.ofBits_bits, PlanOperator.ofCode_code, PlanValueClass.ofCode_code]

/-- So is an order term. -/
theorem PlanOrderTerm.term_record {term : PlanOrderTerm} (h : term.column < planMaxColumns) :
    term.record.term = term := by
  obtain ⟨column, descending, nullsFirst⟩ := term
  simp only [PlanOrderTerm.record, PlanOrderRecord.term, toNat_column h]
  cases descending <;> cases nullsFirst <;> rfl

theorem toUInt64_toUInt16 {v : UInt64} (h : v ≤ 65535) : v.toUInt16.toUInt64 = v := by
  rw [UInt64.le_iff_toNat_le] at h
  rw [← UInt64.toNat_inj, UInt16.toNat_toUInt64, UInt64.toNat_toUInt16]
  exact Nat.mod_eq_of_lt (lt_of_le_of_lt h (by decide))

/-- **A plan that fits is held by its record.** -/
theorem CompiledPlan.Fits.plan_record {plan : CompiledPlan} (h : plan.Fits)
    (hsource : ∀ c ∈ plan.constraints, c.sourceIndex < 2 ^ 16) : plan.record.plan = plan := by
  have hcount : plan.argumentCount < 2 ^ 16 := lt_of_le_of_lt h.arguments_le (by decide)
  have hprojection : (plan.projection.map Nat.toUInt16).map UInt16.toNat = plan.projection := by
    rw [List.map_map]
    exact (List.map_congr_left fun c hc => toNat_column (h.projection.lt c hc)).trans
      (List.map_id _)
  have hconstraints : (plan.constraints.map PlanConstraint.record).map
      PlanConstraintRecord.constraint = plan.constraints := by
    rw [List.map_map]
    exact (List.map_congr_left fun c hc => PlanConstraint.constraint_record (h.constraints c hc)
      hcount (hsource c hc)).trans (List.map_id _)
  have horder : (plan.orderTerms.map PlanOrderTerm.record).map PlanOrderRecord.term =
      plan.orderTerms := by
    rw [List.map_map]
    exact (List.map_congr_left fun t ht => PlanOrderTerm.term_record (h.orderTerms t ht)).trans
      (List.map_id _)
  have hversion : plan.version.toUInt32.toNat = plan.version := by
    rw [h.version]
    rfl
  simp only [CompiledPlan.record, PlanRecord.plan, hprojection, hconstraints, horder, hversion,
    PlanFlags.ofBits_bits, toNat_toUInt16 hcount, toUInt64_toUInt16 h.indexPrefix,
    toUInt64_toUInt16 h.indexOrdinal]

/-- The source indexes of a plan are those of the request. -/
theorem exists_sourceIndex {request : PlannerRequest} {plan : CompiledPlan}
    (h : plannerCompile request = .ok plan) {c : PlanConstraint} (hc : c ∈ plan.constraints) :
    ∃ input ∈ request.constraints, c.sourceIndex = input.sourceIndex := by
  obtain ⟨outputs, windows, hsplit, houtputs, hwindows, -, -⟩ := plannerCompile_spec h
  rw [hsplit, List.mem_append] at hc
  rcases hc with hc | hc
  · obtain ⟨input, hinput, _, rfl⟩ := forall₂_exists_right houtputs hc
    exact ⟨input, (List.mem_filter.mp hinput).1, rfl⟩
  · obtain ⟨input, hinput, _, rfl⟩ := forall₂_exists_right hwindows hc
    split at hinput
    · cases hinput
    · exact ⟨input, (List.mem_filter.mp hinput).1, rfl⟩

/-- The constraints of SQLite are at most 64. -/
theorem sourceIndex_lt {table : PlannedTable} {info : IndexInfo} {memoryOk : Bool}
    {out : BestIndexOutput} (h : moduleBestIndex table info memoryOk = .ok out)
    {c : PlanConstraint} (hc : c ∈ out.plan.constraints) : c.sourceIndex < 2 ^ 16 := by
  have hcount : info.constraints.length ≤ planMaxConstraints := by
    unfold moduleBestIndex at h
    split at h
    · cases h
    rename_i hlimits
    simp only [Bool.or_eq_true, decide_eq_true_eq, not_or, gt_iff_lt, Nat.not_lt] at hlimits
    exact hlimits.1.2
  obtain ⟨compiled, hcompile, hconstraints, -, -⟩ := moduleBestIndex_ok h
  rw [hconstraints] at hc
  obtain ⟨input, hinput, heq⟩ := exists_sourceIndex hcompile hc
  obtain ⟨source, hsource, -⟩ := mem_bestIndexInputs.mp hinput
  rw [heq]
  have hlt := (List.getElem?_eq_some_iff.mp hsource).1
  exact lt_of_lt_of_le hlt (hcount.trans (by decide))

/-! ## The round trip -/

/-- **The plan on the wire.**  Every plan the compiler accepts is encoded, and decoded with the
fingerprint of its request to itself (a source index is a `uint16_t`); so is the plan of every
`xBestIndex`, with the version column it may have appended; and every text that the decoder accepts
is what the encoder writes of the decoded plan, with its hexadecimal digits in lower case. -/
theorem plan_wire_round_trip :
    (∀ request plan, plannerCompile request = .ok plan →
      ∃ text, planEncode plan.record true = .ok text ∧
        planDecode text request.sourceFingerprint = .ok plan.record ∧
        ((∀ input ∈ request.constraints, input.sourceIndex < 2 ^ 16) → plan.record.plan = plan)) ∧
    (∀ table info memoryOk out, moduleBestIndex table info memoryOk = .ok out →
      (∀ version ∈ table.versionColumn, version < planMaxColumns) →
      ∃ text, planEncode out.plan.record true = .ok text ∧
        planDecode text table.sourceFingerprint = .ok out.plan.record ∧
        out.plan.record.plan = out.plan) ∧
    (∀ text fingerprint record, planDecode text fingerprint = .ok record →
      planEncode record true = .ok (text.map toLower)) := by
  refine ⟨fun request plan hcompile => ?_, fun table info memoryOk out hout hversion => ?_,
    fun text fingerprint record h => planEncode_of_planDecode h⟩
  · obtain ⟨hfits, hfingerprint⟩ := plannerCompile_fits hcompile
    obtain ⟨hencode, hdecode⟩ := planDecode_planEncode hfits.valid
    refine ⟨_, hencode, hfingerprint ▸ hdecode, fun hsource => hfits.plan_record fun c hc => ?_⟩
    obtain ⟨input, hinput, heq⟩ := exists_sourceIndex hcompile hc
    exact heq ▸ hsource input hinput
  · obtain ⟨compiled, hcompile, hadd⟩ := moduleBestIndex_plan hout
    obtain ⟨hfits, hfingerprint⟩ := plannerCompile_fits hcompile
    obtain ⟨hfits', hfingerprint'⟩ := planAddVersion_fits hfits hversion hadd
    obtain ⟨hencode, hdecode⟩ := planDecode_planEncode hfits'.valid
    have hfp : out.plan.record.sourceFingerprint = table.sourceFingerprint :=
      hfingerprint'.trans hfingerprint
    exact ⟨_, hencode, hfp ▸ hdecode, hfits'.plan_record fun c hc => sourceIndex_lt hout hc⟩

/-- A table of an integer key and a text, read by key in descending order. -/
def sampleRequest : PlannerRequest where
  sourceFingerprint := 7
  columns := [⟨23, ⟨true, true, true, false⟩⟩, ⟨25, ⟨false, false, false, false⟩⟩]
  columnsUsed := 3
  constraints := [⟨0, .eq, .integer, 0, true, false, false⟩,
    ⟨-1, .limit, .integer, 1, true, false, false⟩]
  orderTerms := [⟨0, true⟩]
  keyColumns := [0]
  estimatedBaseRows := 1000000
  relationPages := 0
  queryIndexPrefix := 0
  queryIndexOrdinal := 0

theorem plan_wire_round_trip_sample :
    ∃ plan, plannerCompile sampleRequest = .ok plan ∧ plan.constraints.length = 2 ∧
      ∃ text, planEncode plan.record true = .ok text ∧ planDecode text 7 = .ok plan.record ∧
        ((∀ input ∈ sampleRequest.constraints, input.sourceIndex < 2 ^ 16) →
          plan.record.plan = plan) :=
  ⟨_, rfl, rfl, plan_wire_round_trip.1 sampleRequest _ rfl⟩

end Vps
