import Mathlib.Data.Finset.Card
import VirtualPostgreSQL.Planner.Order
import VirtualPostgreSQL.Planner.Pushdown
import VirtualPostgreSQL.Planner.RoundTrip

/-!
# Planner/Honest — what `xBestIndex` promises about order and uniqueness

With `orderByConsumed` SQLite does not sort, and with `SQLITE_INDEX_SCAN_UNIQUE` it stops after one
row; `ScanHonest` states what both promises mean.  `vps_module_best_index` drops the order terms on
the rowid and on hidden columns before the compiler counts them, and the compiler counts the key
equalities without looking which columns they are on: `scanHonest_iff` says that these are the only
ways to break a promise.
-/

namespace Vps

open Machinery

/-! ## The promises -/

/-- The ORDER BY of the text. -/
def CompiledPlan.emittedOrder (plan : CompiledPlan) : List PlanOrderTerm :=
  if plan.flags.orderConsumed then plan.orderTerms else []

/-- A term that SQLite asks for, with its placement of NULL. -/
def IndexOrderBy.requested (term : IndexOrderBy) : ℤ × Bool × Bool :=
  (term.iColumn, term.desc, !term.desc)

/-- A term of the text. -/
def PlanOrderTerm.emitted (term : PlanOrderTerm) : ℤ × Bool × Bool :=
  (term.column, term.descending, term.nullsFirst)

/-- **The key is unique in the relation**: two rows differ in a key column. -/
def KeyUnique (keyColumns : List ℕ) (rows : List PgRow) : Prop :=
  rows.Pairwise fun r r' => ∃ column ∈ keyColumns, r column ≠ r' column

/-- The key column has a pushed equality that is not an IN. -/
def KeyPushed (plan : CompiledPlan) (column : ℕ) : Prop :=
  ∃ c ∈ plan.constraints, c.column = column ∧ c.operation = .eq ∧ c.flags.in = false

/-- **Order and uniqueness are promised only when they hold.** -/
structure ScanHonest (strtod : List UInt8 → Option ℚ) (equality : UInt32 → Bool)
    (table : PlannedTable) (info : IndexInfo) (out : BestIndexOutput) : Prop where
  terms : out.orderByConsumed = true →
    out.plan.emittedOrder.map PlanOrderTerm.emitted = info.orderBy.map IndexOrderBy.requested
  sorted : out.orderByConsumed = true → ∀ rows view, Sees strtod table.fieldOids rows view →
    ServerSorted out.plan.emittedOrder rows → SqliteSorted info.orderBy view rows
  pushed : out.scanUnique = true → ∀ column ∈ table.keyColumns, KeyPushed out.plan column
  single : out.scanUnique = true → ∀ operands arguments fieldCount room execution rows result,
    PassesConstants info out operands arguments →
    vtabBuildExecution fieldCount out.plan arguments room = some execution →
    (∀ row ∈ rows, ∀ (column : ℕ) typeOid, table.fieldOids[column]? = some typeOid →
      (row column).hasType typeOid = true) →
    KeyUnique table.keyColumns rows →
    execution.rows equality table.fieldOids rows = some result → result.length ≤ 1

/-! ## What it takes -/

/-- The compiler counts the input as a part of the key. -/
def PlannerRequest.keyEquality (request : PlannerRequest) (input : PlannerConstraintInput) : Bool :=
  request.pushable input && (planIsKey request input.column.toNat && !input.isIn &&
    input.operation == .eq)

/-- The columns of the equalities that are counted as parts of the key. -/
def keyEqualities (table : PlannedTable) (info : IndexInfo) : List ℕ :=
  ((bestIndexInputs table info).filter (bestIndexRequest table info).keyEquality).map
    (·.column.toNat)

/-- When the terms on visible columns can be ordered by, there are no others. -/
def KeepsTerms (table : PlannedTable) (info : IndexInfo) : Prop :=
  bestIndexOrder table info ≠ [] → (bestIndexRequest table info).orderExact = true →
    ∀ term ∈ info.orderBy, 0 ≤ term.iColumn ∧ term.iColumn.toNat < table.fieldOids.length

/-- When there are as many key equalities as key columns, they are on as many different columns. -/
def KeepsKey (table : PlannedTable) (info : IndexInfo) : Prop :=
  (keyEqualities table info).length = table.keyColumns.length →
    (keyEqualities table info).toFinset.card = table.keyColumns.toFinset.card

/-- Both conditions look at finitely many terms… -/
instance (table : PlannedTable) (info : IndexInfo) : Decidable (KeepsTerms table info) :=
  inferInstanceAs (Decidable (_ → _ → _))

/-- …and at finitely many parts of a key. -/
instance (table : PlannedTable) (info : IndexInfo) : Decidable (KeepsKey table info) :=
  inferInstanceAs (Decidable (_ → _))

/-! ## What the compiler counts -/

theorem compileConstraints_keyParts (request : PlannerRequest)
    {inputs : List PlannerConstraintInput}
    {s s' : CompileState} (h : inputs.foldlM (compileConstraint request) s = .ok s') :
    s'.exactKeyParts = s.exactKeyParts + (inputs.filter request.keyEquality).length := by
  induction inputs generalizing s with
  | nil =>
    cases h
    rfl
  | cons input rest ih =>
    obtain ⟨s₁, h₁, h⟩ := ok_of_foldlM_cons h
    rw [ih h]
    have hcount : s₁.exactKeyParts =
        s.exactKeyParts + if request.keyEquality input then 1 else 0 := by
      unfold compileConstraint at h₁
      split at h₁
      · rename_i hskip
        cases h₁
        rw [Bool.not_eq_true'] at hskip
        simp [PlannerRequest.keyEquality, PlannerRequest.pushable, hskip]
      split at h₁
      · rename_i hskip
        cases h₁
        rw [Bool.not_eq_true'] at hskip
        simp [PlannerRequest.keyEquality, PlannerRequest.pushable, hskip]
      rename_i heligible hexact
      simp only [Bool.not_eq_true', Bool.not_eq_false] at heligible hexact
      split at h₁
      · cases h₁
      dsimp only at h₁
      split at h₁
      · cases h₁
      cases h₁
      have hcounted : request.keyEquality input =
          ((planConstraintOf request input s.argumentCount).flags.key && !input.isIn &&
            input.operation == PlanOperator.eq) := by
        simp [PlannerRequest.keyEquality, PlannerRequest.pushable, heligible, hexact,
          planConstraintOf]
      rw [hcounted]
      split_ifs <;> rfl
    rw [List.filter_cons, hcount]
    split
    · rw [List.length_cons]
      omega
    · omega

/-- The order and LIMIT and OFFSET count nothing. -/
theorem compileOrder_keyParts {request : PlannerRequest} {s s' : CompileState}
    (h : compileOrder request s = .ok s') : s'.exactKeyParts = s.exactKeyParts := by
  unfold compileOrder at h
  split at h
  · split at h
    · cases h
    · cases h
      rfl
  · split at h
    · cases h
      rfl
    · cases h
      rfl

theorem compileWindows_keyParts {inputs : List PlannerConstraintInput} {s s' : CompileState}
    (h : inputs.foldlM compileWindow s = .ok s') : s'.exactKeyParts = s.exactKeyParts := by
  refine foldlM_invariant (I := fun t => t.exactKeyParts = s.exactKeyParts)
    (fun t input t' ht hstep => ?_) rfl h
  unfold compileWindow at hstep
  split at hstep
  · cases hstep
    exact ht
  split at hstep
  · cases hstep
  · cases hstep
    exact ht

/-- **The promises of a compiled plan.** -/
theorem plannerCompile_promises {request : PlannerRequest} {plan : CompiledPlan}
    (h : plannerCompile request = .ok plan) :
    plan.flags.orderConsumed =
        (request.orderExact && decide (request.orderTerms.length ≠ 0)) ∧
      plan.orderTerms = (if request.orderExact then
        request.orderTerms.map fun term =>
          ⟨term.column, term.descending, !term.descending⟩ else []) ∧
      plan.flags.unique = (decide (request.keyColumns.length ≠ 0) &&
        decide ((request.constraints.filter request.keyEquality).length =
          request.keyColumns.length)) := by
  unfold plannerCompile at h
  split at h
  · cases h
  split at h
  · cases h
  obtain ⟨s₁, h₁, h⟩ := ok_of_bind h
  obtain ⟨s₂, h₂, h⟩ := ok_of_bind h
  obtain ⟨s₃, h₃, h⟩ := ok_of_bind h
  cases h
  have hparts : s₃.exactKeyParts = (request.constraints.filter request.keyEquality).length := by
    rw [compileWindows_keyParts h₃, compileOrder_keyParts h₂,
      compileConstraints_keyParts request h₁, Nat.zero_add]
  refine ⟨rfl, rfl, ?_⟩
  rw [← hparts]
  rfl

/-- The version column concerns only the projection. -/
theorem planAddVersion_frame {table : PlannedTable} {plan plan' : CompiledPlan}
    (h : planAddVersion table plan = .ok plan') :
    plan'.flags = plan.flags ∧ plan'.orderTerms = plan.orderTerms := by
  unfold planAddVersion at h
  repeat' split at h
  all_goals cases h
  all_goals exact ⟨rfl, rfl⟩

section Promises

variable {table : PlannedTable} {info : IndexInfo} {memoryOk : Bool} {out : BestIndexOutput}

/-- **What `xBestIndex` promises, and when.** -/
theorem moduleBestIndex_promises (h : moduleBestIndex table info memoryOk = .ok out) :
    out.orderByConsumed = ((bestIndexRequest table info).orderExact &&
        decide ((bestIndexOrder table info).length ≠ 0)) ∧
      (out.orderByConsumed = true → out.plan.emittedOrder =
        (bestIndexOrder table info).map fun term =>
          ⟨term.column, term.descending, !term.descending⟩) ∧
      out.scanUnique = (decide (table.keyColumns.length ≠ 0) &&
        decide ((keyEqualities table info).length = table.keyColumns.length)) := by
  obtain ⟨compiled, hcompile, hversion⟩ := moduleBestIndex_plan h
  obtain ⟨hconsumed, hterms, hunique⟩ := plannerCompile_promises hcompile
  have hout : out.orderByConsumed = out.plan.flags.orderConsumed ∧
      out.scanUnique = out.plan.flags.unique := by
    unfold moduleBestIndex at h
    repeat' split at h
    all_goals cases h
    exact ⟨rfl, rfl⟩
  have hplan := planAddVersion_frame hversion
  refine ⟨?_, fun hout' => ?_, ?_⟩
  · rw [hout.1, hplan.1, hconsumed]
    rfl
  · rw [hout.1, hplan.1] at hout'
    rw [CompiledPlan.emittedOrder, hplan.1, hout', if_pos rfl, hplan.2, hterms]
    rw [hconsumed, Bool.and_eq_true] at hout'
    rw [hout'.1, if_pos rfl]
    rfl
  · rw [hout.2, hplan.1, hunique, keyEqualities, List.length_map]
    rfl

/-! ## The order -/

/-- A term on a visible column reaches the compiler. -/
theorem bestIndexOrder_eq_map
    (h : ∀ term ∈ info.orderBy, 0 ≤ term.iColumn ∧ term.iColumn.toNat < table.fieldOids.length) :
    bestIndexOrder table info = info.orderBy.map fun term => ⟨term.iColumn.toNat, term.desc⟩ := by
  unfold bestIndexOrder
  rw [← List.filterMap_eq_map]
  refine List.filterMap_congr fun term hterm => ?_
  obtain ⟨hnonneg, hlt⟩ := h term hterm
  rw [if_neg]
  · rfl
  · simp only [Bool.or_eq_true, decide_eq_true_eq, not_or, ge_iff_le, not_le, not_lt]
    exact ⟨hnonneg, hlt⟩

/-- The compiler sees only terms on visible columns. -/
theorem lt_of_mem_bestIndexOrder {input : PlannerOrderInput}
    (h : input ∈ bestIndexOrder table info) : input.column < table.fieldOids.length := by
  obtain ⟨term, -, hterm⟩ := List.mem_filterMap.mp h
  split at hterm
  · cases hterm
  · rename_i hvisible
    cases hterm
    simp only [Bool.or_eq_true, decide_eq_true_eq, not_or, ge_iff_le, not_le] at hvisible
    exact hvisible.2

/-- **The emitted order is complete** exactly when no term was dropped. -/
theorem emitted_eq_requested_iff (h : moduleBestIndex table info memoryOk = .ok out)
    (hconsumed : out.orderByConsumed = true) :
    out.plan.emittedOrder.map PlanOrderTerm.emitted = info.orderBy.map IndexOrderBy.requested ↔
      ∀ term ∈ info.orderBy, 0 ≤ term.iColumn ∧ term.iColumn.toNat < table.fieldOids.length := by
  rw [(moduleBestIndex_promises h).2.1 hconsumed]
  constructor
  · intro heq term hterm
    have hmem := List.mem_map_of_mem (f := IndexOrderBy.requested) hterm
    rw [← heq, List.map_map] at hmem
    obtain ⟨input, hinput, hinput'⟩ := List.mem_map.mp hmem
    have hlt := lt_of_mem_bestIndexOrder hinput
    have hcolumn : (input.column : ℤ) = term.iColumn := (Prod.mk.inj hinput').1
    omega
  · intro hvisible
    rw [bestIndexOrder_eq_map hvisible, List.map_map, List.map_map]
    refine List.map_congr_left fun term hterm => ?_
    have hcolumn := Int.toNat_of_nonneg (hvisible term hterm).1
    simp only [Function.comp, PlanOrderTerm.emitted, IndexOrderBy.requested, hcolumn]

/-- A complete order is SQLite's order. -/
theorem sqliteSorted_of_serverSorted {strtod : List UInt8 → Option ℚ} {rows : List PgRow}
    {view : PgRow → ℤ → SqliteValue} (h : moduleBestIndex table info memoryOk = .ok out)
    (hconsumed : out.orderByConsumed = true)
    (hvisible : ∀ term ∈ info.orderBy, 0 ≤ term.iColumn ∧
      term.iColumn.toNat < table.fieldOids.length)
    (hsees : Sees strtod table.fieldOids rows view)
    (hsorted : ServerSorted out.plan.emittedOrder rows) : SqliteSorted info.orderBy view rows := by
  obtain ⟨hpromise, hemitted, -⟩ := moduleBestIndex_promises h
  rw [hpromise, Bool.and_eq_true] at hconsumed
  rw [hemitted (by rw [hpromise, hconsumed.1, hconsumed.2]; rfl)] at hsorted
  refine List.Pairwise.imp_of_mem (fun {r r'} hr hr' hle => ?_) hsorted
  rw [bestIndexOrder_eq_map hvisible, List.map_map] at hle
  suffices heq : lexCompare (fun term r r' => PlanOrderTerm.compare term (r term.column)
      (r' term.column)) (info.orderBy.map fun term =>
        (⟨term.iColumn.toNat, term.desc, !term.desc⟩ : PlanOrderTerm)) r r' =
      lexCompare (fun term r r' => IndexOrderBy.compare term (view r term.iColumn)
        (view r' term.iColumn)) info.orderBy r r' by
    rw [← heq]
    exact hle
  refine lexCompare_congr
    (List.forall₂_map_left_iff.mpr (List.forall₂_same.mpr fun term hterm => ?_))
  obtain ⟨hnonneg, hlt⟩ := hvisible term hterm
  have hoid := List.getElem?_eq_getElem hlt
  have hcolumn := Int.toNat_of_nonneg hnonneg
  have horder : (vtabPlanCapabilities table.fieldOids[term.iColumn.toNat]).order = true := by
    have hexact := List.all_eq_true.mp hconsumed.1 ⟨term.iColumn.toNat, term.desc⟩ (by
      show _ ∈ bestIndexOrder table info
      rw [bestIndexOrder_eq_map hvisible]
      exact List.mem_map_of_mem hterm)
    rw [PlannerRequest.orderTermExact, requestColumn_eq hoid] at hexact
    exact (Bool.and_eq_true _ _ ▸ hexact).1
  have hcompare := compare_decoded horder (hsees.typed r hr _ _ hoid) (hsees.typed r' hr' _ _ hoid)
    (hsees.decoded r hr _ _ hoid) (hsees.decoded r' hr' _ _ hoid) term.iColumn.toNat term.desc
  rw [hcolumn] at hcompare
  exact hcompare

/-! ## The key -/

/-- The columns counted as parts of the key: key columns with a pushed equality. -/
theorem mem_keyEqualities (h : moduleBestIndex table info memoryOk = .ok out) {column : ℕ} :
    column ∈ keyEqualities table info ↔ column ∈ table.keyColumns ∧ KeyPushed out.plan column := by
  unfold keyEqualities
  constructor
  · intro hmem
    obtain ⟨input, hinput, rfl⟩ := List.mem_map.mp hmem
    obtain ⟨hinput, hcounted⟩ := List.mem_filter.mp hinput
    simp only [PlannerRequest.keyEquality, Bool.and_eq_true, Bool.not_eq_true', beq_iff_eq,
      planIsKey, List.contains_eq_mem, decide_eq_true_eq] at hcounted
    obtain ⟨hpush, ⟨hkey, hin⟩, hop⟩ := hcounted
    obtain ⟨c, hc, argumentCount, rfl⟩ := plan_of_pushable h hinput hpush
    have hcolumn := (column_of_pushable hpush).1
    refine ⟨hkey, _, hc, (Int.toNat_of_nonneg hcolumn).symm, ?_, hin⟩
    · simp [planConstraintOf, PlannerConstraintInput.planOperation, hin, hop]
  · rintro ⟨hkey, c, hc, hcolumn, hop, hin⟩
    rcases mem_plan_constraints h hc with
      ⟨input, hinput, hpush, argumentCount, rfl⟩ | ⟨-, input, -, -, hwindow, argumentCount, rfl⟩
    · refine List.mem_map.mpr ⟨input, List.mem_filter.mpr ⟨hinput, ?_⟩, ?_⟩
      · have hin' : input.isIn = false := hin
        have hcolumn' : input.column.toNat = column := by
          simp only [planConstraintOf] at hcolumn
          omega
        have hop' : input.operation = .eq := by
          simpa [planConstraintOf, PlannerConstraintInput.planOperation, hin'] using hop
        simp only [PlannerRequest.keyEquality, hpush, hin', hop', hcolumn', planIsKey,
          List.contains_eq_mem]
        simpa [bestIndexRequest] using hkey
      · simp only [planConstraintOf] at hcolumn
        omega
    · simp only [planWindowOf] at hop
      simp [PlannerConstraintInput.isWindow, hop] at hwindow

/-- **Every key column is matched** exactly when the counted equalities are on as many columns. -/
theorem keyPushed_iff (h : moduleBestIndex table info memoryOk = .ok out) :
    (∀ column ∈ table.keyColumns, KeyPushed out.plan column) ↔
      (keyEqualities table info).toFinset.card = table.keyColumns.toFinset.card := by
  have hsubset : (keyEqualities table info).toFinset ⊆ table.keyColumns.toFinset := by
    intro column hcolumn
    rw [List.mem_toFinset] at hcolumn ⊢
    exact ((mem_keyEqualities h).mp hcolumn).1
  constructor
  · intro hall
    congr 1
    refine Finset.Subset.antisymm hsubset fun column hcolumn => ?_
    rw [List.mem_toFinset] at hcolumn ⊢
    exact (mem_keyEqualities h).mpr ⟨hcolumn, hall column hcolumn⟩
  · intro hcard column hcolumn
    have heq := Finset.eq_of_subset_of_card_le hsubset hcard.ge
    rw [← List.mem_toFinset, ← heq, List.mem_toFinset] at hcolumn
    exact ((mem_keyEqualities h).mp hcolumn).2

end Promises

/-! ## One row -/

theorem eq_of_compareBytes {a b : List UInt8} (h : compareBytes a b = .eq) : a = b := by
  induction a generalizing b with
  | nil =>
    cases b with
    | nil => rfl
    | cons y b => cases h
  | cons x a ih =>
    cases b with
    | nil => cases h
    | cons y b =>
      rw [compareBytes, List.compareLex_cons_cons, Ordering.then_eq_eq] at h
      rw [UInt8.toNat_inj.mp (Nat.compare_eq_eq.mp h.1), ih h.2]

/-- A UUID of a type is written canonically. -/
theorem canonical_of_hasType {typeOid : UInt32} {text : List UInt8}
    (h : (PgValue.uuid text).hasType typeOid = true) : vtabUuidCanonical text = true := by
  unfold PgValue.hasType at h
  split at h <;> simp_all

/-- Two values of a type that compare as equal to the same value are the same. -/
theorem eq_of_compare? {typeOid : UInt32} {v v' w : PgValue} (hv : v.hasType typeOid = true)
    (hv' : v'.hasType typeOid = true) (h : v.compare? w = some .eq)
    (h' : v'.compare? w = some .eq) : v = v' := by
  cases w with
  | null => cases v <;> cases h
  | other text => cases v <;> cases h
  | bool b =>
    cases v <;> cases v' <;> simp [PgValue.compare?] at h h'
    rename_i a a'
    revert h h'
    cases a <;> cases a' <;> cases b <;> simp
  | int b =>
    cases v <;> cases v' <;> simp [PgValue.compare?] at h h'
    rw [h, h']
  | bytea b =>
    cases v <;> cases v' <;> simp [PgValue.compare?] at h h'
    rw [eq_of_compareBytes h, eq_of_compareBytes h']
  | uuid b =>
    cases v <;> cases v' <;> simp [PgValue.compare?] at h h'
    rename_i a a'
    have ha := canonical_of_hasType hv
    have ha' := canonical_of_hasType hv'
    simp only [vtabUuidCanonical, Bool.and_eq_true, beq_iff_eq] at ha ha'
    have hbytes := compareLex_uuidDigits 0 (ha.1.trans ha'.1.symm) ha.2 ha'.2
    rw [h, h'] at hbytes
    rw [eq_of_compareBytes (hbytes.symm.trans (by simp))]

/-- An equality with the same value. -/
theorem eq_of_holds {typeOid : UInt32} {operator : SqlOperator} {v v' w : PgValue}
    (hoperator : operator = .eq ∨ operator = .notDistinct) (hv : v.hasType typeOid = true)
    (hv' : v'.hasType typeOid = true) (h : operator.holds v w = true)
    (h' : operator.holds v' w = true) : v = v' := by
  rcases hoperator with rfl | rfl
  · simp only [SqlOperator.holds, beq_iff_eq] at h h'
    exact eq_of_compare? hv hv' h h'
  · simp only [SqlOperator.holds, Bool.or_eq_true, Bool.and_eq_true, beq_iff_eq] at h h'
    rcases h with ⟨rfl, rfl⟩ | h
    · rcases h' with ⟨rfl, -⟩ | h'
      · rfl
      · cases v' <;> cases h'
    · rcases h' with ⟨-, rfl⟩ | h'
      · cases v <;> cases h
      · exact eq_of_compare? hv hv' h h'

section Single

variable {table : PlannedTable} {info : IndexInfo} {memoryOk : Bool} {out : BestIndexOutput}
  {operands : ℕ → ConstraintOperand} {arguments : List ConstraintOperand} {fieldCount : ℕ}
  {room : Bool} {execution : Execution}

/-- A pushed equality is written into the text. -/
theorem clause_of_keyPushed (h : moduleBestIndex table info memoryOk = .ok out)
    (hpasses : PassesConstants info out operands arguments)
    (hbuild : vtabBuildExecution fieldCount out.plan arguments room = some execution) {column : ℕ}
    (hkey : KeyPushed out.plan column) :
    ∃ clause ∈ execution.clauses, ∃ operator placeholder,
      clause.predicate = .compare column operator placeholder ∧
        (operator = .eq ∨ operator = .notDistinct) ∧
        ∃ typeOid, table.fieldOids[column]? = some typeOid := by
  obtain ⟨c, hc, hcolumn, hop, hin⟩ := hkey
  obtain ⟨⟨predicates, hwrites, hclauses⟩, -⟩ := vtabBuildExecution_spec hbuild
  rcases planned_of_mem h hc with ⟨hwindow, -⟩ | ⟨source, typeOid, hplanned⟩
  · simp [hop] at hwindow
  obtain ⟨predicate, hpredicate, hfilter⟩ :=
    zipClauses_filter hwrites (nodup_plan_constraints h) hc
  obtain ⟨p, rfl⟩ := writes_some hplanned.origin hin hplanned.oid
    (fun hargument => argument_of_planned h hpasses hc hplanned hargument)
    (hpasses.constant _ _ hplanned.pushed.constraint) hpredicate
  have hmem : (⟨c.sourceIndex, p⟩ : SqlClause) ∈ execution.clauses := by
    rw [hclauses]
    refine List.mem_of_mem_filter (p := (·.source == c.sourceIndex)) ?_
    rw [hfilter]
    exact List.mem_singleton_self _
  have hoid : table.fieldOids[column]? = some typeOid := by
    have hcolumn' := hplanned.pushed.column
    rw [← hplanned.column, hcolumn, Int.toNat_natCast] at hcolumn'
    exact hcolumn'
  cases hpredicate with
  | never hin' | isIn hin' => simp [hin] at hin'
  | isNull _ hnull | isNotNull _ hnull => simp [hop] at hnull
  | compare _ _ hoperator =>
    refine ⟨_, hmem, _, _, by rw [hcolumn, Int.toNat_natCast], ?_, typeOid, hoid⟩
    unfold vtabOperatorSql at hoperator
    split at hoperator
    · exact .inr (Option.some.inj hoperator).symm
    · rw [hop] at hoperator
      exact .inl (Option.some.inj hoperator).symm

/-- **At most one row comes back** for a unique key that is matched as a whole. -/
theorem length_rows_le_one {equality : UInt32 → Bool} {rows result : List PgRow}
    (h : moduleBestIndex table info memoryOk = .ok out)
    (hpasses : PassesConstants info out operands arguments)
    (hbuild : vtabBuildExecution fieldCount out.plan arguments room = some execution)
    (hkey : ∀ column ∈ table.keyColumns, KeyPushed out.plan column)
    (htyped : ∀ row ∈ rows, ∀ (column : ℕ) typeOid, table.fieldOids[column]? = some typeOid →
      (row column).hasType typeOid = true)
    (hunique : KeyUnique table.keyColumns rows)
    (hrows : execution.rows equality table.fieldOids rows = some result) : result.length ≤ 1 := by
  unfold Execution.rows at hrows
  split at hrows
  case isFalse => cases hrows
  obtain ⟨values, -, rfl⟩ := Option.map_eq_some_iff.mp hrows
  have hpairs := hunique.sublist (List.filter_sublist
    (p := fun row => execution.clauses.all (·.predicate.holds values row)))
  -- two rows that pass would agree on the whole key
  have hsame : ∀ r ∈ rows, ∀ r' ∈ rows,
      execution.clauses.all (·.predicate.holds values r) = true →
      execution.clauses.all (·.predicate.holds values r') = true →
      ∀ column ∈ table.keyColumns, r column = r' column := by
    intro r hr r' hr' hall hall' column hcolumn
    obtain ⟨clause, hclause, operator, placeholder, hpredicate, hoperator, typeOid, hoid⟩ :=
      clause_of_keyPushed h hpasses hbuild (hkey column hcolumn)
    have hholds := List.all_eq_true.mp hall clause hclause
    have hholds' := List.all_eq_true.mp hall' clause hclause
    rw [hpredicate] at hholds hholds'
    exact eq_of_holds hoperator (htyped r hr column typeOid hoid)
      (htyped r' hr' column typeOid hoid) hholds hholds'
  rcases hfilter :
    rows.filter (fun row => execution.clauses.all (·.predicate.holds values row)) with
    _ | ⟨r, _ | ⟨r', rest⟩⟩
  · exact Nat.zero_le _
  · exact Nat.le_refl _
  · rw [hfilter] at hpairs
    obtain ⟨column, hcolumn, hne⟩ := (List.pairwise_cons.mp hpairs).1 r' List.mem_cons_self
    obtain ⟨hr, hall⟩ := List.mem_filter.mp (hfilter ▸ List.mem_cons_self)
    obtain ⟨hr', hall'⟩ := List.mem_filter.mp
      (hfilter ▸ List.mem_cons_of_mem r List.mem_cons_self)
    exact absurd (hsame r hr r' hr' hall hall' column hcolumn) hne

end Single

/-! ## Honest promises -/

/-- **`xBestIndex` keeps its promises about order and uniqueness exactly when** no term of an order
that it consumes was dropped, and the equalities it counts as a whole key are on as many different
columns as the key has. -/
theorem scanHonest_iff (strtod : List UInt8 → Option ℚ) (equality : UInt32 → Bool)
    {table : PlannedTable} {info : IndexInfo} {memoryOk : Bool} {out : BestIndexOutput}
    (h : moduleBestIndex table info memoryOk = .ok out) :
    ScanHonest strtod equality table info out ↔ KeepsTerms table info ∧ KeepsKey table info := by
  obtain ⟨hconsumed, -, hunique⟩ := moduleBestIndex_promises h
  constructor
  · intro hhonest
    refine ⟨fun hterms hexact => ?_, fun hlength => ?_⟩
    · have htrue : out.orderByConsumed = true := by
        rw [hconsumed, hexact, Bool.true_and, decide_eq_true_eq]
        exact mt List.length_eq_zero_iff.mp hterms
      exact (emitted_eq_requested_iff h htrue).mp (hhonest.terms htrue)
    · refine (keyPushed_iff h).mp fun column hcolumn => ?_
      have htrue : out.scanUnique = true := by
        rw [hunique, hlength, Bool.and_eq_true, decide_eq_true_eq]
        exact ⟨List.length_pos_of_mem hcolumn |>.ne', by simp⟩
      exact hhonest.pushed htrue column hcolumn
  · rintro ⟨hterms, hkey⟩
    have hvisible : out.orderByConsumed = true → ∀ term ∈ info.orderBy, 0 ≤ term.iColumn ∧
        term.iColumn.toNat < table.fieldOids.length := by
      intro htrue
      rw [hconsumed, Bool.and_eq_true, decide_eq_true_eq] at htrue
      exact hterms (mt List.length_eq_zero_iff.mpr htrue.2) htrue.1
    have hpushed : out.scanUnique = true → ∀ column ∈ table.keyColumns,
        KeyPushed out.plan column := by
      intro htrue
      rw [hunique, Bool.and_eq_true, decide_eq_true_eq, decide_eq_true_eq] at htrue
      exact (keyPushed_iff h).mpr (hkey htrue.2)
    exact {
      terms := fun htrue => (emitted_eq_requested_iff h htrue).mpr (hvisible htrue)
      sorted := fun htrue _ _ hsees hsorted =>
        sqliteSorted_of_serverSorted h htrue (hvisible htrue) hsees hsorted
      pushed := hpushed
      single := fun htrue _ _ _ _ _ _ _ hpasses hbuild htyped hkeyUnique hrows =>
        length_rows_le_one h hpasses hbuild (hpushed htrue) htyped hkeyUnique hrows }

/-- A table with a key of two integers. -/
def pairTable : PlannedTable := ⟨[23, 23], [0, 1], 0, none, []⟩

/-- `WHERE a = 1 AND b = 2 ORDER BY a, b DESC`. -/
def pairInfo : IndexInfo :=
  ⟨[⟨0, 2, true, false, some (.integer 1)⟩, ⟨1, 2, true, false, some (.integer 2)⟩],
    [⟨0, false⟩, ⟨1, true⟩], 3⟩

theorem scanHonest_pairInfo :
    ∃ out, moduleBestIndex pairTable pairInfo true = .ok out ∧
      out.orderByConsumed = true ∧ out.scanUnique = true ∧
      ScanHonest (fun _ => none) (fun _ => true) pairTable pairInfo out := by
  obtain ⟨out, hout⟩ : ∃ out, moduleBestIndex pairTable pairInfo true = .ok out := ⟨_, rfl⟩
  obtain ⟨hconsumed, -, hunique⟩ := moduleBestIndex_promises hout
  exact ⟨out, hout, hconsumed.trans (by decide), hunique.trans (by decide),
    (scanHonest_iff _ _ hout).mpr ⟨by decide, by decide⟩⟩

/-- `WHERE a = 1 AND a = 2`: two equalities, but one key column. -/
def repeatedInfo : IndexInfo :=
  ⟨[⟨0, 2, true, false, some (.integer 1)⟩, ⟨0, 2, true, false, some (.integer 2)⟩], [], 3⟩

/-- `ORDER BY rowid, a`. -/
def rowidInfo : IndexInfo := ⟨[], [⟨-1, false⟩, ⟨0, false⟩], 3⟩

/-- The order on the rowid is promised and not written; the key is promised and not matched. -/
theorem scan_not_honest :
    (∃ out, moduleBestIndex pairTable rowidInfo true = .ok out ∧ out.orderByConsumed = true ∧
      ¬ScanHonest (fun _ => none) (fun _ => true) pairTable rowidInfo out) ∧
    ∃ out, moduleBestIndex pairTable repeatedInfo true = .ok out ∧ out.scanUnique = true ∧
      ¬ScanHonest (fun _ => none) (fun _ => true) pairTable repeatedInfo out := by
  constructor
  · obtain ⟨out, hout⟩ : ∃ out, moduleBestIndex pairTable rowidInfo true = .ok out := ⟨_, rfl⟩
    obtain ⟨hconsumed, -, -⟩ := moduleBestIndex_promises hout
    have htrue : out.orderByConsumed = true := hconsumed.trans (by decide)
    refine ⟨out, hout, htrue, fun hhonest => ?_⟩
    have hvisible := (emitted_eq_requested_iff hout htrue).mp (hhonest.terms htrue)
    exact absurd hvisible (by decide)
  · obtain ⟨out, hout⟩ : ∃ out, moduleBestIndex pairTable repeatedInfo true = .ok out := ⟨_, rfl⟩
    obtain ⟨-, -, hunique⟩ := moduleBestIndex_promises hout
    have htrue : out.scanUnique = true := hunique.trans (by decide)
    refine ⟨out, hout, htrue, fun hhonest => ?_⟩
    have hcard := (keyPushed_iff hout).mp (hhonest.pushed htrue)
    exact absurd hcard (by decide)

end Vps
