import VirtualPostgreSQL.Planner.Verdict

/-!
# Planner/Pushdown — predicate pushdown as a whole

`PushdownExact` states what a scan owes: the query succeeds and, for every constraint that SQLite is
told to omit, keeps exactly the rows on which SQLite would have found it true; for a pushed IN, at
least those.  `pushdownExact_iff` says when `xBestIndex` and `vps_vtab_build_execution` together
achieve it.
-/

namespace Vps

open Machinery

/-! ## The statement -/

/-- The constraint is pushed: its input is exact, on a visible column of the type. -/
structure Pushed (table : PlannedTable) (info : IndexInfo) (i : ℕ) (source : IndexConstraint)
    (typeOid : UInt32) : Prop where
  constraint : info.constraints[i]? = some source
  exact : ∃ input, bestIndexInput table source i = some input ∧
    (bestIndexRequest table info).pushable input = true
  column : table.fieldOids[source.iColumn.toNat]? = some typeOid

/-- **SQLite keeps its word**: the operand of a constraint is the constant it showed to
`xBestIndex`, or the list of an IN, and `xFilter` receives it as the argument that was asked for. -/
structure PassesConstants (info : IndexInfo) (out : BestIndexOutput)
    (operands : ℕ → ConstraintOperand) (arguments : List ConstraintOperand) : Prop where
  isIn : ∀ i source, info.constraints[i]? = some source → source.isIn = true →
    source.op = 2 ∧ ∃ list, operands i = .items list
  constant : ∀ i source, info.constraints[i]? = some source →
    ∀ constant, source.rhs = some constant → operands i = .value constant
  argument : ∀ i usage, out.usage[i]? = some usage → usage.argvIndex ≠ 0 →
    arguments[usage.argvIndex - 1]? = some (operands i)

/-- The constants of an operand that are sent to a column of the type: an IN list only if it fits as
a whole. -/
def ConstraintOperand.sent (typeOid : UInt32) : ConstraintOperand → List SqliteValue
  | .value v => [v]
  | .items list =>
    if list.length ≤ planDefaultInLimit &&
        list.all (vtabValueCompatible · typeOid (vtabExpectedValueClass typeOid)) then list
    else []

/-- The server's verdict on what was written for a constraint. -/
def Execution.verdict (execution : Execution) (values : List PgValue) (i : ℕ)
    (row : PgRow) : Bool :=
  (execution.clauses.filter (·.source == i)).all (·.predicate.holds values row)

/-- **Pushdown equivalence**: the query succeeds and keeps the rows that pass what was written for
each constraint — for a constraint that SQLite omits, exactly the rows on which it is true; for a
pushed IN, at least those. -/
def PushdownExact (strtod : List UInt8 → Option ℚ) (equality : UInt32 → Bool)
    (table : PlannedTable) (info : IndexInfo) (out : BestIndexOutput)
    (operands : ℕ → ConstraintOperand) (execution : Execution) (rows : List PgRow) : Prop :=
  ∃ values, execution.parameters.mapM PgValue.input = some values ∧
    execution.rows equality table.fieldOids rows = some (rows.filter fun row =>
      (List.range info.constraints.length).all fun i => execution.verdict values i row) ∧
    ∀ i source typeOid, info.constraints[i]? = some source → source.isWindow = false →
      table.fieldOids[source.iColumn.toNat]? = some typeOid →
      ∀ row ∈ rows, ∀ sv, (row source.iColumn.toNat).decoded strtod typeOid = some sv →
        (out.usage[i]?.any (·.omits) = true →
          execution.verdict values i row = constraintHolds source.op (operands i) sv) ∧
        (out.usage[i]?.any (fun usage => usage.argvIndex != 0 && !usage.omits) = true →
          constraintHolds source.op (operands i) sv = true →
          execution.verdict values i row = true)

/-- **What it takes**: constants in range, operators the server has for the types that are not
exact, and no empty `bytea` where the verdicts differ. -/
structure PushdownFits (equality : UInt32 → Bool) (table : PlannedTable) (info : IndexInfo)
    (operands : ℕ → ConstraintOperand) (rows : List PgRow) : Prop where
  inRange : ∀ i source typeOid, Pushed table info i source typeOid → source.op ≠ 70 →
    source.op ≠ 71 → ∀ v ∈ (operands i).sent typeOid, constantFits typeOid v = true
  comparable : ∀ i source typeOid, Pushed table info i source typeOid → source.op ≠ 70 →
    source.op ≠ 71 → PgKind.ofOid typeOid = .other → equality typeOid = true
  noEmpty : ∀ i source typeOid, Pushed table info i source typeOid → source.isIn = false →
    ∀ row ∈ rows, row source.iColumn.toNat = .bytea [] → emptyAgrees source.op (operands i) = true

/-! ## From the plan to the clauses -/

/-- A plan constraint, with all that is known of its origin. -/
structure Planned (table : PlannedTable) (info : IndexInfo) (c : PlanConstraint)
    (source : IndexConstraint) (typeOid : UInt32) : Prop where
  pushed : Pushed table info c.sourceIndex source typeOid
  column : c.column = source.iColumn
  oid : c.typeOid = typeOid
  recheck : c.flags.recheck = c.flags.in
  origin : PlannedFrom source c typeOid

section Plan

variable {table : PlannedTable} {info : IndexInfo} {memoryOk : Bool} {out : BestIndexOutput}
  {source : IndexConstraint} {typeOid : UInt32} {c : PlanConstraint} {i : ℕ}
  {input : PlannerConstraintInput} {operands : ℕ → ConstraintOperand}
  {arguments : List ConstraintOperand} {parameters : List ClientParameter}

theorem planned_of_input (hof : bestIndexInput table source i = some input)
    (hsource : info.constraints[i]? = some source)
    (hpush : (bestIndexRequest table info).pushable input = true)
    (hplans : PlansInput (bestIndexRequest table info) c input) :
    c.sourceIndex = i ∧ ∃ typeOid, Planned table info c source typeOid := by
  obtain ⟨argumentCount, rfl⟩ := hplans
  obtain ⟨hindex, -, hcolumn, -⟩ := bestIndexInput_spec hof
  obtain ⟨-, -, -, typeOid, hoid⟩ := column_of_pushable hpush
  have hpushed : Pushed table info i source typeOid :=
    ⟨hsource, ⟨input, hof, hpush⟩, hcolumn ▸ hoid⟩
  subst hindex
  exact ⟨rfl, typeOid, hpushed, hcolumn, by simp [planConstraintOf, requestColumn_eq hoid], rfl,
    plannedFrom_of_pushable hof hpush hoid argumentCount⟩

theorem planned_of_mem (h : moduleBestIndex table info memoryOk = .ok out)
    (hc : c ∈ out.plan.constraints) :
    ((c.operation = .limit ∨ c.operation = .offset) ∧ c.flags = ⟨false, false, false, false⟩ ∧
        ∀ source, info.constraints[c.sourceIndex]? = some source → source.isWindow = true) ∨
      ∃ source typeOid, Planned table info c source typeOid := by
  rcases mem_plan_constraints h hc with
    ⟨input, hinput, hpush, hplans⟩ | ⟨-, input, hinput, -, hwindow, argumentCount, rfl⟩
  · obtain ⟨source, hsource, hof⟩ := mem_bestIndexInputs.mp hinput
    obtain ⟨-, typeOid, hplanned⟩ := planned_of_input hof hsource hpush hplans
    exact .inr ⟨source, typeOid, hplanned⟩
  · refine .inl ⟨by simpa [PlannerConstraintInput.isWindow, planWindowOf] using hwindow, rfl, ?_⟩
    intro source hsource
    obtain ⟨source', hsource', hof⟩ := mem_bestIndexInputs.mp hinput
    obtain rfl := Option.some.inj (hsource.symm.trans hsource')
    exact (bestIndexInput_isWindow hof).symm.trans hwindow

theorem planned_of_pushed (h : moduleBestIndex table info memoryOk = .ok out)
    (hpushed : Pushed table info i source typeOid) :
    ∃ c ∈ out.plan.constraints, c.sourceIndex = i ∧ Planned table info c source typeOid := by
  obtain ⟨hsource, ⟨input, hof, hpush⟩, hoid⟩ := hpushed
  have hindex := (bestIndexInput_spec hof).1
  obtain ⟨c, hc, hplans⟩ := plan_of_pushable h
    (mem_bestIndexInputs.mpr ⟨source, hindex ▸ hsource, hindex ▸ hof⟩) hpush
  obtain ⟨hi, typeOid', hplanned⟩ := planned_of_input hof hsource hpush hplans
  obtain rfl := Option.some.inj (hoid.symm.trans hplanned.pushed.column)
  exact ⟨c, hc, hi, hplanned⟩

/-- A pushed constraint is not LIMIT or OFFSET. -/
theorem Pushed.isWindow (hpushed : Pushed table info i source typeOid) :
    source.isWindow = false := by
  obtain ⟨-, ⟨input, hof, hpush⟩, -⟩ := hpushed
  exact (bestIndexInput_isWindow hof).symm.trans (column_of_pushable hpush).2.1

/-- A plan constraint takes a list only from an IN. -/
theorem Planned.in_eq_false (hplanned : Planned table info c source typeOid)
    (hsource : source.isIn = false) : c.flags.in = false := by
  cases hplanned.origin with
  | isIn _ hsource' => exact absurd hsource' (by simp [hsource])
  | isNull _ _ hin | isNotNull _ _ hin | isNothing _ _ _ _ hin => exact hin
  | compare _ _ _ _ hin => exact hin

/-- An IN is always planned with its list. -/
theorem Planned.isIn_eq_false (hplanned : Planned table info c source typeOid)
    (hpasses : PassesConstants info out operands arguments) (hin : c.flags.in = false) :
    source.isIn = false := by
  by_contra hsource
  rw [Bool.not_eq_false] at hsource
  obtain ⟨hop, list, hlist⟩ := hpasses.isIn _ _ hplanned.pushed.constraint hsource
  have hconstant := hpasses.constant _ _ hplanned.pushed.constraint
  cases hplanned.origin with
  | isNull hop' => exact absurd (hop.symm.trans hop') (by decide)
  | isNotNull hop' => exact absurd (hop.symm.trans hop') (by decide)
  | isIn _ _ _ hin' => exact absurd hin' (by simp [hin])
  | isNothing _ hrhs => nomatch hlist.symm.trans (hconstant _ hrhs)
  | compare hrhs => nomatch hlist.symm.trans (hconstant _ hrhs)

theorem planned_of_source (h : moduleBestIndex table info memoryOk = .ok out)
    (hc : c ∈ out.plan.constraints) (hsource : info.constraints[c.sourceIndex]? = some source)
    (hwindow : source.isWindow = false) : ∃ typeOid, Planned table info c source typeOid := by
  rcases planned_of_mem h hc with ⟨-, -, hall⟩ | ⟨source', typeOid, hplanned⟩
  · exact absurd (hall source hsource) (by simp [hwindow])
  · obtain rfl := Option.some.inj (hsource.symm.trans hplanned.pushed.constraint)
    exact ⟨typeOid, hplanned⟩

theorem Planned.usage (hplanned : Planned table info c source typeOid)
    (h : moduleBestIndex table info memoryOk = .ok out) (hc : c ∈ out.plan.constraints) :
    out.usage[c.sourceIndex]? = some c.usage :=
  usage_of_mem_plan h hc (List.getElem?_eq_some_iff.mp hplanned.pushed.constraint).1

/-- The argument of a planned constraint is its operand. -/
theorem argument_of_planned (h : moduleBestIndex table info memoryOk = .ok out)
    (hpasses : PassesConstants info out operands arguments) (hc : c ∈ out.plan.constraints)
    (hplanned : Planned table info c source typeOid) (hargument : c.argumentIndex ≠ 0) :
    constraintArgument arguments c = some (operands c.sourceIndex) := by
  rw [constraintArgument, if_neg hargument]
  exact hpasses.argument _ _ (hplanned.usage h hc) hargument

/-- A clause is what was written for some constraint. -/
theorem mem_zipClauses : ∀ {constraints : List PlanConstraint}
    {predicates : List (Option SqlPredicate)} {clause : SqlClause}
    (_ : List.Forall₂ (Writes parameters arguments) constraints predicates)
    (_ : clause ∈ zipClauses constraints predicates),
    ∃ c ∈ constraints, clause.source = c.sourceIndex ∧
      Writes parameters arguments c (some clause.predicate)
  | c :: constraints, some predicate :: predicates, clause, .cons hwrites hrest, h => by
    rcases List.mem_cons.mp h with rfl | h
    · exact ⟨c, List.mem_cons_self, rfl, hwrites⟩
    · obtain ⟨d, hd, hclause⟩ := mem_zipClauses hrest h
      exact ⟨d, List.mem_cons_of_mem c hd, hclause⟩
  | c :: constraints, none :: predicates, clause, .cons hwrites hrest, h => by
    rw [zipClauses] at h
    obtain ⟨d, hd, hclause⟩ := mem_zipClauses hrest h
    exact ⟨d, List.mem_cons_of_mem c hd, hclause⟩

/-- A constraint has at most one clause: what was written for it. -/
theorem zipClauses_filter : ∀ {constraints : List PlanConstraint}
    {predicates : List (Option SqlPredicate)}
    (_ : List.Forall₂ (Writes parameters arguments) constraints predicates)
    (_ : (constraints.map (·.sourceIndex)).Nodup) (_ : c ∈ constraints),
    ∃ predicate, Writes parameters arguments c predicate ∧
      (zipClauses constraints predicates).filter (·.source == c.sourceIndex) =
        (predicate.map (⟨c.sourceIndex, ·⟩)).toList
  | d :: constraints, predicate :: predicates, .cons hwrites hrest, hnodup, hc => by
    rw [List.map_cons, List.nodup_cons] at hnodup
    rcases List.mem_cons.mp hc with rfl | hc
    · have hnone : (zipClauses constraints predicates).filter (·.source == c.sourceIndex) = [] := by
        refine List.filter_eq_nil_iff.mpr fun clause hclause => ?_
        obtain ⟨e, he, hsource, -⟩ := mem_zipClauses hrest hclause
        rw [beq_iff_eq, hsource]
        intro heq
        exact hnodup.1 (heq ▸ List.mem_map_of_mem he)
      refine ⟨predicate, hwrites, ?_⟩
      cases predicate <;> simp [zipClauses, hnone]
    · obtain ⟨p, hp, hfilter⟩ := zipClauses_filter hrest hnodup.2 hc
      refine ⟨p, hp, ?_⟩
      have hne : d.sourceIndex ≠ c.sourceIndex := fun heq =>
        hnodup.1 (heq ▸ List.mem_map_of_mem hc)
      cases predicate <;> simp [zipClauses, hne, hfilter]

section Sent

variable (hpasses : PassesConstants info out operands arguments)
  (hplanned : Planned table info c source typeOid)
  (hargument : c.argumentIndex ≠ 0 →
    constraintArgument arguments c = some (operands c.sourceIndex))

include hpasses hplanned hargument

/-- What a planned constraint sends is what its operand amounts to. -/
theorem constraintValues_eq :
    constraintValues arguments c =
      if source.op = 70 ∨ source.op = 71 then [] else (operands c.sourceIndex).sent typeOid := by
  have hconstant := hpasses.constant _ _ hplanned.pushed.constraint
  rw [constraintValues]
  cases hplanned.origin with
  | isNull hop h hin hnone => simp [hop, h, hin]
  | isNotNull hop h hin hnone => simp [hop, h, hin]
  | isIn hop hsource h hin hsome hclass hkind =>
    obtain ⟨-, list, hlist⟩ := hpasses.isIn _ _ hplanned.pushed.constraint hsource
    rw [hargument hsome, hlist, if_neg (not_or.mpr hop)]
    simp only [h, hin, reduceCtorEq, or_self, if_false, if_true, vtabInCompatible,
      ConstraintOperand.sent, hclass, hplanned.oid]
    split <;> rfl
  | isNothing hop hrhs h hsafe hin hsome =>
    have hvalue : constraintValue arguments c = .null := by
      rw [constraintValue, hargument hsome, hconstant _ hrhs]
      rfl
    simp [hop, h, hin, constraintSkipped, hvalue, vtabValueCompatible, hconstant _ hrhs,
      ConstraintOperand.sent]
  | @compare v hrhs hv hop hcompare hin hsome hclass hkind hcompatible hbytea =>
    have hvalue : constraintValue arguments c = v := by
      rw [constraintValue, hargument hsome, hconstant _ hrhs]
      rfl
    obtain ⟨hopNull, hopNotNull, -⟩ := vtabConstraintOperation_null hop
    have hnot : ¬ (source.op = 70 ∨ source.op = 71) := by
      rintro (h | h)
      exacts [hcompare.2.1 (hopNotNull.mpr h), hcompare.1 (hopNull.mpr h)]
    rw [if_neg hnot]
    simp [hcompare, hin, constraintSkipped, hvalue, hclass, hplanned.oid, hcompatible,
      hconstant _ hrhs, ConstraintOperand.sent]

/-- **The parameters of a constraint are read** exactly when its constants are in range. -/
theorem parameters_read_iff :
    (∀ p ∈ constraintParameters arguments c, ∃ w, PgValue.input p = some w) ↔
      (source.op ≠ 70 → source.op ≠ 71 →
        ∀ v ∈ (operands c.sourceIndex).sent typeOid, constantFits typeOid v = true) := by
  have hvalues := constraintValues_eq hpasses hplanned hargument
  rw [constraintParameters, List.forall_mem_map]
  by_cases hnull : source.op = 70 ∨ source.op = 71
  · rw [hvalues, if_pos hnull]
    refine iff_of_true (fun v hv => (List.not_mem_nil hv).elim) fun h70 h71 => ?_
    exact (hnull.elim h70 h71).elim
  rw [hvalues, if_neg hnull]
  have hnull' := not_or.mp hnull
  simp only [hnull'.1, hnull'.2, ne_eq, not_false_eq_true, true_implies]
  refine forall₂_congr fun v hv => ?_
  rw [hplanned.oid]
  -- every constant that is sent fits the type, NULL apart
  have hsent : v = .null ∨ (PgKind.ofOid typeOid ≠ .other ∧
      c.valueClass = vtabExpectedValueClass typeOid ∧
      vtabValueCompatible v typeOid (vtabExpectedValueClass typeOid) = true) := by
    have hconstant := hpasses.constant _ _ hplanned.pushed.constraint
    cases hplanned.origin with
    | isNull hop => exact absurd (.inr hop) hnull
    | isNotNull hop => exact absurd (.inl hop) hnull
    | isIn hop hsource h hin hsome hclass hkind =>
      obtain ⟨-, list, hlist⟩ := hpasses.isIn _ _ hplanned.pushed.constraint hsource
      rw [hlist, ConstraintOperand.sent] at hv
      split at hv
      · rename_i hall
        rw [Bool.and_eq_true, List.all_eq_true] at hall
        exact .inr ⟨hkind, hclass, hall.2 v hv⟩
      · exact (List.not_mem_nil hv).elim
    | isNothing hop hrhs =>
      rw [hconstant _ hrhs, ConstraintOperand.sent, List.mem_singleton] at hv
      exact .inl hv
    | compare hrhs hv' hop hcompare hin hsome hclass hkind hcompatible =>
      rw [hconstant _ hrhs, ConstraintOperand.sent, List.mem_singleton] at hv
      exact .inr ⟨hkind, hclass, hv ▸ hcompatible⟩
  rcases hsent with rfl | ⟨hkind, hclass, hcompatible⟩
  · exact iff_of_true ⟨.null, input_null _⟩ rfl
  rw [hclass]
  cases hfits : constantFits typeOid v with
  | true =>
    obtain ⟨w, hw, -⟩ := input_of_fits hkind hcompatible hfits
    exact iff_of_true ⟨w, hw⟩ rfl
  | false =>
    rw [input_of_not_fits hcompatible hfits]
    exact iff_of_false (by simp) Bool.false_ne_true

end Sent

/-- **The server has the operator** unless a column of another type is compared. -/
theorem supported_iff {equality : UInt32 → Bool} {p : SqlPredicate}
    (hplanned : Planned table info c source typeOid)
    (hwrites : Writes parameters arguments c (some p)) :
    p.supported equality table.fieldOids = true ↔
      (source.op ≠ 70 → source.op ≠ 71 → PgKind.ofOid typeOid = .other →
        equality typeOid = true) := by
  have hcolumn : table.fieldOids[c.column.toNat]? = some typeOid := by
    rw [hplanned.column]
    exact hplanned.pushed.column
  have hcompared : p.compared = none ∨ p.compared = some c.column.toNat := by
    cases hwrites <;> simp [SqlPredicate.compared]
  have hexact (hkind : PgKind.ofOid typeOid ≠ .other) :
      p.supported equality table.fieldOids = true := by
    rcases hcompared with h | h <;> simp [SqlPredicate.supported, h, hcolumn, hkind]
  cases hplanned.origin with
  | isNull hop h hin hnone =>
    obtain rfl := Option.some.inj (writes_isNull hin h hnone hwrites)
    exact iff_of_true rfl fun _ h71 => absurd hop h71
  | isNotNull hop h hin hnone =>
    obtain rfl := Option.some.inj (writes_isNotNull hin h hnone hwrites)
    exact iff_of_true rfl fun h70 => absurd hop h70
  | isIn hop hsource h hin hsome hclass hkind =>
    exact iff_of_true (hexact hkind) fun _ _ hother => absurd hother hkind
  | compare hrhs hv hop hcompare hin hsome hclass hkind =>
    exact iff_of_true (hexact hkind) fun _ _ hother => absurd hother hkind
  | isNothing hop hrhs h hsafe hin hsome =>
    have hthis : p.compared = some c.column.toNat := by
      cases hwrites <;> simp_all [SqlPredicate.compared]
    by_cases hkind : PgKind.ofOid typeOid = .other
    · simp [SqlPredicate.supported, hthis, hcolumn, hkind, hop]
    · exact iff_of_true (hexact hkind) fun _ _ hother => absurd hother hkind

/-- Passing every clause is passing what was written for each constraint. -/
theorem clauses_all_eq_verdict {execution : Execution} {count : ℕ}
    (hsource : ∀ clause ∈ execution.clauses, clause.source < count) (values : List PgValue)
    (row : PgRow) :
    (execution.clauses.all (·.predicate.holds values row)) =
      (List.range count).all fun i => execution.verdict values i row := by
  rw [Bool.eq_iff_iff]
  simp only [Execution.verdict, List.all_eq_true, List.mem_range, List.mem_filter, beq_iff_eq,
    and_imp]
  constructor
  · exact fun hall i _ clause hclause _ => hall clause hclause
  · exact fun hall clause hclause => hall _ (hsource clause hclause) clause hclause rfl

/-! ## The equivalence -/

section Execution

variable {strtod : List UInt8 → Option ℚ} {equality : UInt32 → Bool} {fieldCount : ℕ} {room : Bool}
  {execution : Execution} {rows : List PgRow} (h : moduleBestIndex table info memoryOk = .ok out)
  (hpasses : PassesConstants info out operands arguments)
  (hbuild : vtabBuildExecution fieldCount out.plan arguments room = some execution)

include h hbuild

/-- The verdict on a planned constraint is that of what it wrote. -/
theorem verdict_eq (hc : c ∈ out.plan.constraints) :
    ∃ predicate, Writes execution.parameters arguments c predicate ∧
      (∀ p, predicate = some p → ⟨c.sourceIndex, p⟩ ∈ execution.clauses) ∧
      ∀ values row, execution.verdict values c.sourceIndex row =
        predicate.all (·.holds values row) := by
  obtain ⟨⟨predicates, hwrites, hclauses⟩, -⟩ := vtabBuildExecution_spec hbuild
  obtain ⟨predicate, hwrite, hfilter⟩ := zipClauses_filter hwrites (nodup_plan_constraints h) hc
  refine ⟨predicate, hwrite, ?_, fun values row => ?_⟩
  · rintro p rfl
    rw [hclauses]
    refine (List.mem_filter (p := (·.source == c.sourceIndex))).mp ?_ |>.1
    rw [hfilter]
    exact List.mem_singleton_self _
  · rw [Execution.verdict, hclauses, hfilter]
    cases predicate <;> simp

include hpasses

/-- **The parameters are read** exactly when the constants are in range. -/
theorem read_iff :
    (∃ values, execution.parameters.mapM PgValue.input = some values) ↔
      ∀ i source typeOid, Pushed table info i source typeOid → source.op ≠ 70 → source.op ≠ 71 →
        ∀ v ∈ (operands i).sent typeOid, constantFits typeOid v = true := by
  rw [(vtabBuildExecution_spec hbuild).2]
  constructor
  · intro hread i source typeOid hpushed
    obtain ⟨c, hc, rfl, hplanned⟩ := planned_of_pushed h hpushed
    exact (parameters_read_iff hpasses hplanned
      (argument_of_planned h hpasses hc hplanned)).mp (hread c hc)
  · intro hrange c hc
    rcases planned_of_mem h hc with ⟨hwindow, -⟩ | ⟨source, typeOid, hplanned⟩
    · rw [constraintParameters, constraintValues, if_pos hwindow]
      exact fun p hp => (List.not_mem_nil hp).elim
    · exact (parameters_read_iff hpasses hplanned
        (argument_of_planned h hpasses hc hplanned)).mpr (hrange _ _ _ hplanned.pushed)

/-- **The operators exist** exactly when no column of a type without equality is compared. -/
theorem supported_all_iff :
    execution.clauses.all (·.predicate.supported equality table.fieldOids) = true ↔
      ∀ i source typeOid, Pushed table info i source typeOid → source.op ≠ 70 → source.op ≠ 71 →
        PgKind.ofOid typeOid = .other → equality typeOid = true := by
  obtain ⟨⟨predicates, hwrites, hclauses⟩, -⟩ := vtabBuildExecution_spec hbuild
  rw [List.all_eq_true]
  constructor
  · intro hall i source typeOid hpushed h70 h71 hother
    obtain ⟨c, hc, rfl, hplanned⟩ := planned_of_pushed h hpushed
    obtain ⟨predicate, hwrite, hmem, -⟩ := verdict_eq h hbuild hc
    obtain ⟨p, rfl⟩ : ∃ p, predicate = some p := by
      refine writes_some hplanned.origin ?_ hplanned.oid (argument_of_planned h hpasses hc hplanned)
        (hpasses.constant _ _ hplanned.pushed.constraint) hwrite
      cases hplanned.origin with
      | isIn _ _ _ _ _ _ hkind => exact absurd hother hkind
      | isNull _ _ hin | isNotNull _ _ hin | isNothing _ _ _ _ hin => exact hin
      | compare _ _ _ _ hin => exact hin
    exact (supported_iff hplanned hwrite).mp (hall _ (hmem p rfl)) h70 h71 hother
  · intro hequality clause hclause
    obtain ⟨c, hc, -, hwrite⟩ := mem_zipClauses hwrites (hclauses ▸ hclause)
    rcases planned_of_mem h hc with ⟨hwindow, hflags, -⟩ | ⟨source, typeOid, hplanned⟩
    · exact absurd hwrite (not_writes_window hwindow hflags)
    · exact (supported_iff hplanned hwrite).mpr (hequality _ _ _ hplanned.pushed)

/-- What a planned constraint without a list wrote, against SQLite. -/
theorem verdict_agrees {values : List PgValue} (hc : c ∈ out.plan.constraints)
    (hplanned : Planned table info c source typeOid) (hin : c.flags.in = false)
    (hvalues : execution.parameters.mapM PgValue.input = some values) {row : PgRow}
    {sv : SqliteValue} (htype : (row source.iColumn.toNat).hasType typeOid = true)
    (hdecoded : (row source.iColumn.toNat).decoded strtod typeOid = some sv) :
    execution.verdict values c.sourceIndex row =
        constraintHolds source.op (operands c.sourceIndex) sv ↔
      (row source.iColumn.toNat = .bytea [] →
        emptyAgrees source.op (operands c.sourceIndex) = true) := by
  obtain ⟨predicate, hwrite, -, hverdict⟩ := verdict_eq h hbuild hc
  obtain ⟨p, rfl, hagrees⟩ := writes_agrees hplanned.origin hin hplanned.oid
    (argument_of_planned h hpasses hc hplanned)
    (hpasses.constant _ _ hplanned.pushed.constraint) hvalues hwrite
  rw [hplanned.column] at hagrees
  rw [hverdict, Option.all_some]
  exact hagrees row sv htype hdecoded

/-- What a planned IN wrote keeps at least the rows of SQLite. -/
theorem verdict_keeps {values : List PgValue} (hc : c ∈ out.plan.constraints)
    (hplanned : Planned table info c source typeOid) (hin : c.flags.in = true)
    (hvalues : execution.parameters.mapM PgValue.input = some values) {row : PgRow}
    {sv : SqliteValue} (htype : (row source.iColumn.toNat).hasType typeOid = true)
    (hdecoded : (row source.iColumn.toNat).decoded strtod typeOid = some sv)
    (hholds : constraintHolds source.op (operands c.sourceIndex) sv = true) :
    execution.verdict values c.sourceIndex row = true := by
  obtain ⟨predicate, hwrite, -, hverdict⟩ := verdict_eq h hbuild hc
  rw [hverdict]
  cases predicate with
  | none => rfl
  | some p =>
    cases hplanned.origin with
    | isIn hop hsource _ _ hsome hclass hkind =>
      obtain ⟨-, list, hlist⟩ := hpasses.isIn _ _ hplanned.pushed.constraint hsource
      have hargument := argument_of_planned h hpasses hc hplanned hsome
      rw [hlist] at hargument hholds
      rw [← hplanned.column] at htype hdecoded
      exact writes_isIn_keeps hkind hin hplanned.oid hclass hop hargument hvalues hwrite htype
        hdecoded hholds
    | isNull _ _ hin' | isNotNull _ _ hin' | isNothing _ _ _ _ hin' =>
      exact absurd hin (by simp [hin'])
    | compare _ _ _ _ hin' => exact absurd hin (by simp [hin'])

omit hpasses in
/-- A clause belongs to a constraint of SQLite's list. -/
theorem clause_source_lt : ∀ clause ∈ execution.clauses,
    clause.source < info.constraints.length := by
  intro clause hclause
  obtain ⟨⟨predicates, hwrites, hclauses⟩, -⟩ := vtabBuildExecution_spec hbuild
  obtain ⟨c, hc, hsource, hwrite⟩ := mem_zipClauses hwrites (hclauses ▸ hclause)
  rcases planned_of_mem h hc with ⟨hwindow, hflags, -⟩ | ⟨source, typeOid, hplanned⟩
  · exact absurd hwrite (not_writes_window hwindow hflags)
  · rw [hsource]
    exact (List.getElem?_eq_some_iff.mp hplanned.pushed.constraint).1

end Execution

end Plan

/-! ## A scan that is exact, and two that are not -/

/-- `WHERE c = 5` on an `int4` column. -/
def equalFive : IndexInfo := ⟨[⟨0, 2, true, false, some (.integer 5)⟩], [], 1⟩

/-- A table of one `int4` column. -/
def int4Table : PlannedTable := ⟨[23], [], 0, none, []⟩

/-- The rows `5`, NULL and `6`. -/
def fiveNullSix : List PgRow := [fun _ => .int 5, fun _ => .null, fun _ => .int 6]

/-- `WHERE c = 3000000000` on an `int4` column. -/
def equalBeyond : IndexInfo := ⟨[⟨0, 2, true, false, some (.integer 3000000000)⟩], [], 1⟩

/-- `WHERE c IS NULL` on a `bytea` column. -/
def byteaIsNull : IndexInfo := ⟨[⟨0, 71, true, false, none⟩], [], 1⟩

/-- A table of one `bytea` column. -/
def byteaTable : PlannedTable := ⟨[17], [], 0, none, []⟩

end Vps
