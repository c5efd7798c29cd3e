import VirtualPostgreSQL.Machinery.Reading
import VirtualPostgreSQL.Planner.Projection

/-!
# Planner/Reads — the columns that are looked up while a plan is made

`vps_module_best_index` fills an array with the visible columns and looks columns up in it by the
numbers of SQLite, which are -1 for the rowid and go on behind the visible columns for the hidden
ones. Here are both functions again as `Reading`s of that array, with any memory around it.  The
compiler checks every number; `vps_module_best_index` does not, and `best_index_reads_visible_iff`
says which constraints make it look beyond.
-/

namespace Vps

open Machinery

/-! ## The array -/

/-- An array of columns, and what lies around it. -/
def columnsAt (columns : List PlannerColumn) (beyond : ℤ → PlannerColumn) (i : ℤ) : PlannerColumn :=
  if 0 ≤ i then (columns[i.toNat]?).getD (beyond i) else beyond i

/-- The index is one of the array. -/
def Visible (count : ℕ) (i : ℤ) : Prop := 0 ≤ i ∧ i < count

/-- A column is visible by its number. -/
instance (count : ℕ) (i : ℤ) : Decidable (Visible count i) := inferInstanceAs (Decidable (_ ∧ _))

/-- A visible column is read where it is. -/
theorem columnsAt_eq {columns : List PlannerColumn} {i : ℤ} (h : Visible columns.length i)
    (beyond : ℤ → PlannerColumn) : columns[i.toNat]? = some (columnsAt columns beyond i) := by
  have hlt : i.toNat < columns.length := by
    rw [Visible] at h
    omega
  rw [columnsAt, if_pos h.1, List.getElem?_eq_getElem hlt, Option.getD_some]

/-- The columns of the table. -/
def PlannedTable.columns (table : PlannedTable) : List PlannerColumn :=
  table.fieldOids.map fun typeOid => ⟨typeOid, vtabPlanCapabilities typeOid⟩

/-! ## The compiler -/

/-- The check of `vps_plan_value_exact`, with its column looked up. -/
def exactReading (memory : ℤ → PlannerColumn) (input : PlannerConstraintInput) :
    Reading ℤ PlannerError Bool :=
  if input.nullSafe && input.valueClass = .null then pure true
  else do
    let column ← Reading.readAt memory input.column
    pure (planValueExact column input.planOperation input.valueClass)

/-- The exact input becomes a constraint of the plan. -/
def pushConstraintReading (memory : ℤ → PlannerColumn) (request : PlannerRequest) (s : CompileState)
    (input : PlannerConstraintInput) : Reading ℤ PlannerError CompileState :=
  if s.constraints.length ≥ planMaxConstraints then Reading.error .limitExceeded
  else do
    let column ← Reading.readAt memory input.column
    let output := { planConstraintOf request input s.argumentCount with typeOid := column.typeOid }
    match planAddProjection s.projection input.column.toNat with
    | none => Reading.error .limitExceeded
    | some projection =>
      pure {
        constraints := s.constraints ++ [output]
        argumentCount := if output.argumentIndex = 0 then s.argumentCount else s.argumentCount + 1
        projection := projection
        hasRecheck := s.hasRecheck || input.isIn
        exactKeyParts :=
          if output.flags.key && !input.isIn && input.operation == .eq then s.exactKeyParts + 1
          else s.exactKeyParts }

/-- One round of the constraint loop. -/
def compileConstraintReading (memory : ℤ → PlannerColumn) (request : PlannerRequest)
    (s : CompileState) (input : PlannerConstraintInput) : Reading ℤ PlannerError CompileState :=
  if !request.eligible input then pure s
  else do
    let exact ← exactReading memory input
    if !exact then pure { s with hasRecheck := true }
    else pushConstraintReading memory request s input

/-- The loop that checks the order; it ends at the first term without an exact codec. -/
def orderExactReading (memory : ℤ → PlannerColumn) (request : PlannerRequest) :
    List PlannerOrderInput → Reading ℤ PlannerError Bool
  | [] => pure true
  | term :: rest =>
    if term.column ≥ request.columns.length then pure false
    else do
      let column ← Reading.readAt memory term.column
      if column.capabilities.order && column.capabilities.exact then
        orderExactReading memory request rest
      else pure false

/-- The state after the order. -/
def compileOrderReading (memory : ℤ → PlannerColumn) (request : PlannerRequest) (s : CompileState) :
    Reading ℤ PlannerError CompileState := do
  let exact ← orderExactReading memory request request.orderTerms
  if exact then
    match planProjectOrder request.orderTerms s.projection with
    | none => Reading.error .limitExceeded
    | some projection => pure { s with projection := projection }
  else if request.orderTerms.length ≠ 0 then pure { s with hasRecheck := true }
  else pure s

/-- **`vps_planner_compile`**, with its lookups. -/
def plannerCompileReading (beyond : ℤ → PlannerColumn) (request : PlannerRequest) :
    Reading ℤ PlannerError CompiledPlan :=
  if !plannerRequestValid request then Reading.error .invalidArgument
  else match planBaseProjection request with
  | none => Reading.error .limitExceeded
  | some projection => do
    let memory := columnsAt request.columns beyond
    let s ← request.constraints.foldlM (compileConstraintReading memory request)
      ⟨[], 0, projection, false, 0⟩
    let s ← compileOrderReading memory request s
    let s ← Reading.lift (request.constraints.foldlM compileWindow s)
    pure (compileFinish request s)

/-! ## `xBestIndex` -/

/-- The value class of a constant; the column is looked up for every check. -/
def rhsValueClassReading (memory : ℤ → PlannerColumn) (iColumn : ℤ) (rhs : SqliteValue) :
    Reading ℤ SqliteResult PlanValueClass := do
  let valueClass ←
    if vtabValueClass rhs ≠ .null then do
      let column ← Reading.readAt memory iColumn
      pure (if vtabValueClass rhs ≠ vtabExpectedValueClass column.typeOid then .unknown
        else vtabValueClass rhs)
    else pure .null
  let boolean ← Reading.readAt memory iColumn
  let valueClass :=
    match rhs with
    | .integer value =>
      if boolean.typeOid == 16 && valueClass == .integer && value != 0 && value != 1 then .unknown
      else valueClass
    | _ => valueClass
  let uuid ← Reading.readAt memory iColumn
  pure (match rhs with
    | .text bytes =>
      if uuid.typeOid == 2950 && valueClass == .text && !vtabUuidCanonical bytes then .unknown
      else valueClass
    | _ => valueClass)

/-- The operators that compare with no value of the right-hand side. -/
def PlanOperator.valueless (operation : PlanOperator) : Bool :=
  operation == .isNull || operation == .isNotNull || operation == .limit || operation == .offset

/-- An equality that is usable and not on the rowid. -/
def IndexConstraint.asksForList (source : IndexConstraint) (operation : PlanOperator) : Bool :=
  source.usable && decide (0 ≤ source.iColumn) && operation == .eq

/-- Whether the constraint is an IN that is taken as one list. -/
def isInReading (memory : ℤ → PlannerColumn) (source : IndexConstraint) (operation : PlanOperator) :
    Reading ℤ SqliteResult Bool :=
  if source.asksForList operation then do
    let column ← Reading.readAt memory source.iColumn
    pure (column.capabilities.equality && column.capabilities.exact && source.isIn)
  else pure false

/-- The value class of the right-hand side. -/
def valueClassReading (memory : ℤ → PlannerColumn) (source : IndexConstraint)
    (operation : PlanOperator) (isIn : Bool) : Reading ℤ SqliteResult PlanValueClass :=
  if operation.valueless then pure .integer
  else if !isIn then
    match source.rhs with
    | none => pure .unknown
    | some rhs => rhsValueClassReading memory source.iColumn rhs
  else do
    let column ← Reading.readAt memory source.iColumn
    pure (vtabExpectedValueClass column.typeOid)

/-- One round of the constraint loop. -/
def bestIndexInputReading (memory : ℤ → PlannerColumn) (source : IndexConstraint) (index : ℕ) :
    Reading ℤ SqliteResult (Option PlannerConstraintInput) :=
  match vtabConstraintOperation source.op with
  | none => pure none
  | some (operation, nullSafe) => do
    let isIn ← isInReading memory source operation
    let valueClass ← valueClassReading memory source operation isIn
    pure (some {
      column := source.iColumn
      operation := operation
      valueClass := valueClass
      sourceIndex := index
      usable := source.usable
      isIn := isIn
      nullSafe := nullSafe })

/-- The constraints of the request, in order. -/
def bestIndexInputsReading (memory : ℤ → PlannerColumn) (info : IndexInfo) :
    Reading ℤ SqliteResult (List PlannerConstraintInput) :=
  info.constraints.zipIdx.foldlM (fun inputs (source, index) => do
    let input ← bestIndexInputReading memory source index
    pure (inputs ++ input.toList)) []

/-- The planner request of the inputs. -/
def bestIndexRequestOf (table : PlannedTable) (info : IndexInfo)
    (inputs : List PlannerConstraintInput) : PlannerRequest :=
  let queryIndex := bestQueryIndex inputs table.queryIndexes
  { sourceFingerprint := table.sourceFingerprint
    columns := table.columns
    columnsUsed := info.colUsed
    constraints := inputs
    orderTerms := bestIndexOrder table info
    keyColumns := table.keyColumns
    estimatedBaseRows := 1000000
    relationPages := 0
    queryIndexPrefix := queryIndex.1.toUInt64
    queryIndexOrdinal := queryIndex.2.toUInt64 }

/-- **`vps_module_best_index`**, with its lookups and those of the compiler. -/
def moduleBestIndexReading (beyond : ℤ → PlannerColumn) (table : PlannedTable) (info : IndexInfo)
    (memoryOk : Bool) : Reading ℤ SqliteResult BestIndexOutput :=
  if table.fieldOids.length > planMaxColumns || info.constraints.length > planMaxConstraints ||
      info.orderBy.length > planMaxOrderTerms then
    Reading.error .constraint
  else do
    let inputs ← bestIndexInputsReading (columnsAt table.columns beyond) info
    let compiled ← (plannerCompileReading beyond (bestIndexRequestOf table info inputs)).mapError
      fun _ => .error
    let plan ← Reading.lift (planAddVersion table compiled)
    if !memoryOk then Reading.error .nomem
    else pure {
      plan := plan
      usage := planUsage info.constraints.length plan.constraints
      orderByConsumed := plan.flags.orderConsumed
      scanUnique := plan.flags.unique }

/-! ## The compiler looks up what is there -/

section Compiler

variable {request : PlannerRequest} {beyond : ℤ → PlannerColumn}

/-- Only visible columns are eligible. -/
theorem visible_of_eligible {input : PlannerConstraintInput} (h : request.eligible input = true) :
    Visible request.columns.length input.column := by
  simp only [PlannerRequest.eligible, Bool.and_eq_true, decide_eq_true_eq] at h
  exact ⟨h.1.2, by have := h.2; omega⟩

/-- The read column is as exact as the column of the request… -/
theorem outcome_exactReading {input : PlannerConstraintInput} (h : request.eligible input = true) :
    (exactReading (columnsAt request.columns beyond) input).outcome =
      .ok (request.exact input) := by
  unfold exactReading PlannerRequest.exact
  split
  · rfl
  · rw [columnsAt_eq (visible_of_eligible h) beyond]
    rfl

/-- …and is read within the array. -/
theorem within_exactReading {input : PlannerConstraintInput} (h : request.eligible input = true)
    (memory : ℤ → PlannerColumn) :
    Reading.Within (Visible request.columns.length) (exactReading memory input) := by
  unfold exactReading
  split
  · exact .pure _
  · exact .bind (Reading.Within.readAt_iff.mpr (visible_of_eligible h)) fun _ _ => .pure _

/-- One round computes what the compiler computes. -/
theorem outcome_compileConstraintReading (s : CompileState) (input : PlannerConstraintInput) :
    (compileConstraintReading (columnsAt request.columns beyond) request s input).outcome =
      compileConstraint request s input := by
  unfold compileConstraintReading compileConstraint
  cases heligible : request.eligible input with
  | false => rfl
  | true =>
    have houtput : { planConstraintOf request input s.argumentCount with
        typeOid := (columnsAt request.columns beyond input.column).typeOid } =
          planConstraintOf request input s.argumentCount := by
      rw [planConstraintOf, columnsAt_eq (visible_of_eligible heligible) beyond]
      rfl
    rw [Bool.not_true, if_neg Bool.false_ne_true, if_neg Bool.false_ne_true, Reading.outcome_bind,
      outcome_exactReading heligible, ok_bind]
    cases request.exact input with
    | false => rfl
    | true =>
      rw [Bool.not_true, if_neg Bool.false_ne_true, if_neg Bool.false_ne_true,
        pushConstraintReading]
      by_cases hroom : s.constraints.length ≥ planMaxConstraints
      · rw [if_pos hroom, if_pos hroom]
        rfl
      · rw [if_neg hroom, if_neg hroom, Reading.outcome_bind, Reading.outcome_readAt,
          ok_bind, houtput]
        dsimp only
        cases planAddProjection s.projection input.column.toNat <;> rfl

/-- **A constraint is compiled within the array.** -/
theorem within_compileConstraintReading (memory : ℤ → PlannerColumn) (s : CompileState)
    (input : PlannerConstraintInput) : Reading.Within (Visible request.columns.length)
      (compileConstraintReading memory request s input) := by
  unfold compileConstraintReading
  cases heligible : request.eligible input with
  | false => exact .pure _
  | true =>
    rw [Bool.not_true, if_neg Bool.false_ne_true]
    refine .bind (within_exactReading heligible memory) fun exact _ => ?_
    split
    · exact .pure _
    unfold pushConstraintReading
    split
    · exact .error _
    refine .bind (Reading.Within.readAt_iff.mpr (visible_of_eligible heligible)) fun column _ => ?_
    cases planAddProjection s.projection input.column.toNat with
    | none => exact .error _
    | some projection => exact .pure _

/-- Order terms are read as they are… -/
theorem outcome_orderExactReading (terms : List PlannerOrderInput) :
    (orderExactReading (columnsAt request.columns beyond) request terms).outcome =
      .ok (terms.all request.orderTermExact) := by
  induction terms with
  | nil => rfl
  | cons term rest ih =>
    rw [orderExactReading, List.all_cons, PlannerRequest.orderTermExact]
    split
    · rename_i hbeyond
      rw [List.getElem?_eq_none hbeyond]
      rfl
    · rename_i hlt
      have hvisible : Visible request.columns.length term.column := ⟨by omega, by omega⟩
      have hcolumn := columnsAt_eq hvisible beyond
      rw [Int.toNat_natCast] at hcolumn
      rw [hcolumn, Reading.outcome_bind, Reading.outcome_readAt, ok_bind]
      dsimp only
      split
      · rename_i hexact
        rw [ih, hexact, Bool.true_and]
      · rename_i hexact
        rw [Bool.not_eq_true] at hexact
        rw [hexact]
        rfl

/-- …and within the array, since a term that is behind it ends the loop. -/
theorem within_orderExactReading (memory : ℤ → PlannerColumn) (terms : List PlannerOrderInput) :
    Reading.Within (Visible request.columns.length) (orderExactReading memory request terms) := by
  induction terms with
  | nil => exact .pure _
  | cons term rest ih =>
    rw [orderExactReading]
    split
    · exact .pure _
    · refine .bind (Reading.Within.readAt_iff.mpr ⟨by omega, by omega⟩) fun column _ => ?_
      split
      · exact ih
      · exact .pure _

theorem outcome_compileOrderReading (s : CompileState) :
    (compileOrderReading (columnsAt request.columns beyond) request s).outcome =
      compileOrder request s := by
  unfold compileOrderReading compileOrder
  rw [Reading.outcome_bind, outcome_orderExactReading, ok_bind, ← PlannerRequest.orderExact]
  split
  · cases planProjectOrder request.orderTerms s.projection <;> rfl
  · split <;> rfl

/-- So is the order. -/
theorem within_compileOrderReading (memory : ℤ → PlannerColumn) (s : CompileState) :
    Reading.Within (Visible request.columns.length) (compileOrderReading memory request s) := by
  refine .bind (within_orderExactReading memory _) fun exact _ => ?_
  split
  · split
    · exact .error _
    · exact .pure _
  · split <;> exact .pure _

/-- **The lookups change no plan.** -/
theorem outcome_plannerCompileReading (beyond : ℤ → PlannerColumn) (request : PlannerRequest) :
    (plannerCompileReading beyond request).outcome = plannerCompile request := by
  unfold plannerCompileReading plannerCompile
  split
  · rfl
  · cases planBaseProjection request with
    | none => rfl
    | some projection =>
      simp only [Reading.outcome_bind, Reading.outcome_foldlM, outcome_compileConstraintReading,
        outcome_compileOrderReading, Reading.outcome_lift, Reading.outcome_pure]
      rfl

/-- **The compiler looks up visible columns only.** -/
theorem within_plannerCompileReading (beyond : ℤ → PlannerColumn) (request : PlannerRequest) :
    Reading.Within (Visible request.columns.length) (plannerCompileReading beyond request) := by
  unfold plannerCompileReading
  split
  · exact .error _
  split
  · exact .error _
  · refine .bind (.foldlM (fun input _ s => within_compileConstraintReading _ s input) _) fun s _ =>
      ?_
    refine .bind (within_compileOrderReading _ s) fun s _ => ?_
    exact .bind (.lift _) fun s _ => .pure _

end Compiler

/-! ## What `xBestIndex` looks up -/

section Lookups

variable {memory : ℤ → PlannerColumn} {source : IndexConstraint} {operation : PlanOperator}
  {P : ℤ → Prop}

theorem outcome_rhsValueClassReading (i : ℤ) (rhs : SqliteValue) :
    (rhsValueClassReading memory i rhs).outcome = .ok (rhsValueClass (memory i).typeOid rhs) := by
  unfold rhsValueClassReading rhsValueClass
  by_cases hclass : vtabValueClass rhs = vtabExpectedValueClass (memory i).typeOid
  · cases rhs <;> simp only [vtabValueClass] at hclass <;> simp [vtabValueClass, ok_bind, ← hclass]
  · cases rhs <;> simp only [vtabValueClass] at hclass <;> simp [vtabValueClass, ok_bind, hclass]

/-- A right side is looked up within bounds just when its column is there. -/
theorem within_rhsValueClassReading_iff {i : ℤ} {rhs : SqliteValue} :
    Reading.Within P (rhsValueClassReading memory i rhs) ↔ P i := by
  have hreads : (rhsValueClassReading memory i rhs).reads = [i, i] ∨
      (rhsValueClassReading memory i rhs).reads = [i, i, i] := by
    cases rhs with
    | null => exact .inl rfl
    | _ => exact .inr rfl
  rcases hreads with hreads | hreads <;> simp [Reading.Within, hreads]

theorem outcome_isInReading : (isInReading memory source operation).outcome =
    .ok (source.asksForList operation && ((memory source.iColumn).capabilities.equality &&
      (memory source.iColumn).capabilities.exact) && source.isIn) := by
  unfold isInReading
  cases source.asksForList operation with
  | false => rfl
  | true => rw [if_pos rfl, Bool.true_and]; rfl

/-- So is a list, if one is asked for… -/
theorem within_isInReading_iff : Reading.Within P (isInReading memory source operation) ↔
    (source.asksForList operation = true → P source.iColumn) := by
  unfold isInReading
  cases source.asksForList operation with
  | false => exact iff_of_true (.pure _) nofun
  | true =>
    rw [if_pos rfl, Reading.Within.bind_iff, Reading.Within.readAt_iff]
    exact ⟨fun h _ => h.1, fun h => ⟨h rfl, fun _ _ => .pure _⟩⟩

/-- …and the class of a value, if there is one. -/
theorem within_valueClassReading_iff {isIn : Bool} :
    Reading.Within P (valueClassReading memory source operation isIn) ↔
      (operation.valueless = false → isIn = true ∨ source.rhs ≠ none → P source.iColumn) := by
  unfold valueClassReading
  cases operation.valueless with
  | true => exact iff_of_true (.pure _) nofun
  | false =>
    rw [if_neg Bool.false_ne_true]
    cases isIn with
    | true =>
      rw [Bool.not_true, if_neg Bool.false_ne_true, Reading.Within.bind_iff,
        Reading.Within.readAt_iff]
      exact ⟨fun h _ _ => h.1, fun h => ⟨h rfl (.inl rfl), fun _ _ => .pure _⟩⟩
    | false =>
      rw [Bool.not_false, if_pos rfl]
      cases source.rhs with
      | none => exact iff_of_true (.pure _) fun _ h => h.elim nofun fun h => absurd rfl h
      | some rhs =>
        rw [within_rhsValueClassReading_iff]
        exact ⟨fun h _ _ => h, fun h => h rfl (.inr nofun)⟩

/-- The column of the constraint is not looked up, or is visible: it has an operator that is not
translated or compares with no value; or its value is not known, and it is no equality that asks for
a list. -/
def LooksUpVisible (count : ℕ) (source : IndexConstraint) : Prop :=
  Visible count source.iColumn ∨ ∀ operation nullSafe,
    vtabConstraintOperation source.op = some (operation, nullSafe) →
      operation.valueless = true ∨ source.rhs = none ∧ source.asksForList operation = false

theorem asksForList_of_valueless (h : operation.valueless = true) :
    source.asksForList operation = false := by
  revert h
  cases operation <;> simp [PlanOperator.valueless, IndexConstraint.asksForList]

/-- **One constraint** has its column looked up within the visible ones exactly if it
`LooksUpVisible`. -/
theorem within_bestIndexInputReading_iff {count index : ℕ} :
    Reading.Within (Visible count) (bestIndexInputReading memory source index) ↔
      LooksUpVisible count source := by
  unfold bestIndexInputReading LooksUpVisible
  cases hop : vtabConstraintOperation source.op with
  | none => exact iff_of_true (.pure _) (.inr nofun)
  | some translated =>
    obtain ⟨operation, nullSafe⟩ := translated
    simp only [Option.some.injEq, Prod.mk.injEq, and_imp, forall_eq', forall_apply_eq_imp_iff]
    rw [Reading.Within.bind_iff, within_isInReading_iff]
    constructor
    · rintro ⟨hlist, hvalue⟩
      by_cases hvisible : Visible count source.iColumn
      · exact .inl hvisible
      by_cases hvalueless : operation.valueless = true
      · exact .inr (.inl hvalueless)
      have hclass := (Reading.Within.bind_iff.mp (hvalue _ outcome_isInReading)).1
      refine .inr (.inr ⟨?_, Bool.not_eq_true _ ▸ fun hasks => hvisible (hlist hasks)⟩)
      by_contra hrhs
      exact hvisible (within_valueClassReading_iff.mp hclass (Bool.not_eq_true _ ▸ hvalueless)
        (.inr hrhs))
    · intro h
      refine ⟨fun hasks => ?_, fun isIn hisIn => .bind (within_valueClassReading_iff.mpr ?_)
        fun _ _ => .pure _⟩
      · rcases h with hvisible | hvalueless | ⟨-, hnone⟩
        · exact hvisible
        · exact nomatch (asksForList_of_valueless hvalueless).symm.trans hasks
        · exact nomatch hnone.symm.trans hasks
      · intro hvalue hknown
        rcases h with hvisible | hvalueless | ⟨hrhs, hnone⟩
        · exact hvisible
        · exact nomatch hvalueless.symm.trans hvalue
        · rw [outcome_isInReading, hnone] at hisIn
          rcases hknown with rfl | hknown
          · cases hisIn
          · exact absurd hrhs hknown

/-- The input of a constraint whose column is known. -/
def bestIndexInputAt (column : PlannerColumn) (source : IndexConstraint) (index : ℕ) :
    Option PlannerConstraintInput :=
  match vtabConstraintOperation source.op with
  | none => none
  | some (operation, nullSafe) =>
    let isIn := source.asksForList operation &&
      (column.capabilities.equality && column.capabilities.exact) && source.isIn
    let valueClass :=
      if operation.valueless then .integer
      else if !isIn then
        match source.rhs with
        | none => .unknown
        | some rhs => rhsValueClass column.typeOid rhs
      else vtabExpectedValueClass column.typeOid
    some {
      column := source.iColumn
      operation := operation
      valueClass := valueClass
      sourceIndex := index
      usable := source.usable
      isIn := isIn
      nullSafe := nullSafe }

theorem outcome_valueClassReading {isIn : Bool} :
    (valueClassReading memory source operation isIn).outcome = .ok
      (if operation.valueless then .integer
        else if !isIn then
          match source.rhs with
          | none => .unknown
          | some rhs => rhsValueClass (memory source.iColumn).typeOid rhs
        else vtabExpectedValueClass (memory source.iColumn).typeOid) := by
  unfold valueClassReading
  split
  · rfl
  split
  · cases source.rhs with
    | none => rfl
    | some rhs => exact outcome_rhsValueClassReading _ _
  · rfl

theorem outcome_bestIndexInputReading (index : ℕ) :
    (bestIndexInputReading memory source index).outcome =
      .ok (bestIndexInputAt (memory source.iColumn) source index) := by
  unfold bestIndexInputReading bestIndexInputAt
  cases vtabConstraintOperation source.op with
  | none => rfl
  | some translated =>
    simp only [Reading.outcome_bind, outcome_isInReading, outcome_valueClassReading, ok_bind,
      Reading.outcome_pure]

/-- The input of the planner depends on the column that was looked up, and no other. -/
theorem bestIndexInput_eq_at (table : PlannedTable) (source : IndexConstraint) (index : ℕ) :
    bestIndexInput table source index =
      bestIndexInputAt (plannedColumn table source.iColumn) source index := by
  unfold bestIndexInput bestIndexInputAt
  cases vtabConstraintOperation source.op with
  | none => rfl
  | some translated =>
    obtain ⟨operation, nullSafe⟩ := translated
    cases operation <;> rfl

theorem columnsAt_eq_plannedColumn {table : PlannedTable} {i : ℤ}
    (h : Visible table.fieldOids.length i) (beyond : ℤ → PlannerColumn) :
    columnsAt table.columns beyond i = plannedColumn table i := by
  have hlt : i.toNat < table.fieldOids.length := by
    rw [Visible] at h
    omega
  simp [columnsAt, plannedColumn, PlannedTable.columns, h.1, List.getElem?_eq_getElem hlt]

/-- What lies around the array does not matter to a constraint that looks up visible columns. -/
theorem bestIndexInputAt_eq {table : PlannedTable} {beyond : ℤ → PlannerColumn}
    (h : LooksUpVisible table.fieldOids.length source) (index : ℕ) :
    bestIndexInputAt (columnsAt table.columns beyond source.iColumn) source index =
      bestIndexInput table source index := by
  rw [bestIndexInput_eq_at]
  rcases h with hvisible | hblind
  · rw [columnsAt_eq_plannedColumn hvisible]
  · unfold bestIndexInputAt
    cases hop : vtabConstraintOperation source.op with
    | none => rfl
    | some translated =>
      obtain ⟨operation, nullSafe⟩ := translated
      rcases hblind operation nullSafe hop with hvalueless | ⟨hrhs, hasks⟩
      · simp [hvalueless, asksForList_of_valueless hvalueless]
      · simp [hrhs, hasks]

end Lookups

/-! ## The whole call -/

section Call

variable {table : PlannedTable} {info : IndexInfo} {memoryOk : Bool}

/-- The lists of the call are within the limits. -/
def IndexInfo.Fits (info : IndexInfo) : Prop :=
  info.constraints.length ≤ planMaxConstraints ∧ info.orderBy.length ≤ planMaxOrderTerms

/-- The plan is about columns of the table; LIMIT and OFFSET have none. -/
structure CompiledPlan.OnVisible (plan : CompiledPlan) (count : ℕ) : Prop where
  projection : ∀ column ∈ plan.projection, column < count
  orderTerms : ∀ term ∈ plan.orderTerms, term.column < count
  constraints : ∀ c ∈ plan.constraints, Visible count c.column ∨
    c.column = -1 ∧ (c.operation = .limit ∨ c.operation = .offset)

/-- A plan that is compiled has been finished. -/
theorem plannerCompile_finish {request : PlannerRequest} {plan : CompiledPlan}
    (h : plannerCompile request = .ok plan) : ∃ s, plan = compileFinish request s := by
  unfold plannerCompile at h
  split at h
  · cases h
  split at h
  · cases h
  obtain ⟨s₁, -, h⟩ := ok_of_bind h
  obtain ⟨s₂, -, h⟩ := ok_of_bind h
  obtain ⟨s₃, -, h⟩ := ok_of_bind h
  cases h
  exact ⟨s₃, rfl⟩

/-- Only a valid request is compiled. -/
theorem plannerRequestValid_of_ok {request : PlannerRequest} {plan : CompiledPlan}
    (h : plannerCompile request = .ok plan) : plannerRequestValid request = true := by
  by_contra hinvalid
  unfold plannerCompile at h
  rw [if_pos (by simpa using hinvalid)] at h
  cases h

/-- The projection of a compiled plan is that of the additions. -/
theorem projection_of_ok {request : PlannerRequest} {plan : CompiledPlan}
    (h : plannerCompile request = .ok plan) :
    planAddAll request.additions [] = some plan.projection := by
  have hjudged := plannerCompile_judged (plannerRequestValid_of_ok h)
  cases hadd : planAddAll request.additions [] with
  | none =>
    rw [hadd, h] at hjudged
    cases hjudged
  | some projection =>
    rw [hadd] at hjudged
    obtain ⟨plan', hplan, rfl⟩ := hjudged
    cases h.symm.trans hplan
    rfl

/-- **A compiled plan is about columns of the table.** -/
theorem plannerCompile_onVisible {request : PlannerRequest} {plan : CompiledPlan}
    (h : plannerCompile request = .ok plan) : plan.OnVisible request.columns.length where
  projection column hcolumn := by
    have hvalid := plannerRequestValid_of_ok h
    simp only [plannerRequestValid, Bool.and_eq_true, decide_eq_true_eq] at hvalid
    refine PlannerRequest.additions_lt hvalid.1.1.1.1 column ?_
    exact ((mem_planAddAll (projection_of_ok h)).mp hcolumn).resolve_left List.not_mem_nil
  orderTerms term hterm := by
    obtain ⟨s, rfl⟩ := plannerCompile_finish h
    simp only [compileFinish] at hterm
    split at hterm
    · rename_i hexact
      obtain ⟨input, hinput, rfl⟩ := List.mem_map.mp hterm
      exact PlannerRequest.orderExact_column hexact hinput
    · cases hterm
  constraints c hc := by
    obtain ⟨outputs, windows, hconstraints, houtputs, hwindows, -, -⟩ := plannerCompile_spec h
    rw [hconstraints, List.mem_append] at hc
    rcases hc with hc | hc
    · obtain ⟨input, hinput, argumentCount, rfl⟩ := forall₂_exists_right houtputs hc
      obtain ⟨hnonneg, hlt⟩ := PlannerRequest.pushable_column (List.mem_filter.mp hinput).2
      exact .inl ⟨hnonneg, by simp only [planConstraintOf]; omega⟩
    · obtain ⟨input, hinput, argumentCount, rfl⟩ := forall₂_exists_right hwindows hc
      exact .inr ⟨rfl, PlannerRequest.operation_of_mem_windows hinput⟩

/-- The plan of a call, whatever lies around the array. -/
theorem moduleBestIndexReading_onVisible {beyond : ℤ → PlannerColumn} {out : BestIndexOutput}
    (hversion : ∀ version ∈ table.versionColumn, version < table.fieldOids.length)
    (h : (moduleBestIndexReading beyond table info memoryOk).outcome = .ok out) :
    out.plan.OnVisible table.fieldOids.length := by
  unfold moduleBestIndexReading at h
  split at h
  · cases h
  rw [Reading.outcome_bind] at h
  obtain ⟨inputs, -, h⟩ := ok_of_bind h
  rw [Reading.outcome_bind, Reading.outcome_mapError, outcome_plannerCompileReading] at h
  obtain ⟨compiled, hcompile, h⟩ := ok_of_bind h
  rw [Reading.outcome_bind, Reading.outcome_lift] at h
  obtain ⟨plan, hadd, h⟩ := ok_of_bind h
  split at h
  · cases h
  obtain rfl := Except.ok.inj h
  have hplan : plannerCompile (bestIndexRequestOf table info inputs) = .ok compiled := by
    cases hresult : plannerCompile (bestIndexRequestOf table info inputs) with
    | error e =>
      rw [hresult] at hcompile
      cases hcompile
    | ok plan =>
      rw [hresult] at hcompile
      cases hcompile
      rfl
  have hcount : (bestIndexRequestOf table info inputs).columns.length = table.fieldOids.length :=
    List.length_map _
  have hvisible := hcount ▸ plannerCompile_onVisible hplan
  unfold planAddVersion at hadd
  split at hadd
  · cases hadd
    exact hvisible
  rename_i version hsome
  split at hadd
  · cases hadd
    exact hvisible
  split at hadd
  · cases hadd
  cases hadd
  refine { hvisible with projection := fun column hcolumn => ?_ }
  rcases List.mem_append.mp hcolumn with hcolumn | hcolumn
  · exact hvisible.projection column hcolumn
  · rw [List.mem_singleton.mp hcolumn]
    exact hversion version hsome

/-- The constraint loop looks up visible columns exactly if every constraint does. -/
theorem within_bestIndexInputsReading_iff {memory : ℤ → PlannerColumn} {count : ℕ} :
    Reading.Within (Visible count) (bestIndexInputsReading memory info) ↔
      ∀ c ∈ info.constraints, LooksUpVisible count c := by
  unfold bestIndexInputsReading
  rw [Reading.Within.foldlM_iff
    (fun inputs entry => by
      rw [Reading.outcome_bind, outcome_bestIndexInputReading, ok_bind]
      exact Reading.outcome_pure (inputs ++
        (bestIndexInputAt (memory entry.1.iColumn) entry.1 entry.2).toList))
    (Q := fun entry => LooksUpVisible count entry.1)
    (fun entry _ inputs => by
      rw [Reading.Within.bind_iff, within_bestIndexInputReading_iff]
      exact and_iff_left fun _ _ => .pure _)]
  constructor
  · intro h c hc
    obtain ⟨i, hi⟩ := List.getElem?_of_mem hc
    exact h (c, i) (List.mem_zipIdx_iff_getElem?.mpr hi)
  · rintro h ⟨c, i⟩ hc
    exact h c (List.mem_of_getElem? (List.mem_zipIdx_iff_getElem?.mp hc))

/-- **What is looked up while a plan is made**: visible columns only, and the plan is about visible
columns only, exactly if every constraint of a call within the limits is on a visible column or does
not have its column looked up. -/
theorem best_index_reads_visible_iff (beyond : ℤ → PlannerColumn)
    (hcolumns : table.fieldOids.length ≤ planMaxColumns)
    (hversion : ∀ version ∈ table.versionColumn, version < table.fieldOids.length) :
    (Reading.Within (Visible table.fieldOids.length)
        (moduleBestIndexReading beyond table info memoryOk) ∧
      ∀ out, (moduleBestIndexReading beyond table info memoryOk).outcome = .ok out →
        out.plan.OnVisible table.fieldOids.length) ↔
      (info.Fits → ∀ c ∈ info.constraints, LooksUpVisible table.fieldOids.length c) := by
  rw [and_iff_left fun out hout => moduleBestIndexReading_onVisible hversion hout]
  unfold moduleBestIndexReading
  by_cases hfits : info.Fits
  · rw [if_neg (by simp [hcolumns, hfits.1, hfits.2]), Reading.Within.bind_iff,
      within_bestIndexInputsReading_iff]
    refine (and_iff_left fun inputs _ => ?_).trans ⟨fun h _ => h, fun h => h hfits⟩
    have hcount : (bestIndexRequestOf table info inputs).columns.length = table.fieldOids.length :=
      List.length_map _
    refine .bind (.mapError _ (hcount ▸ within_plannerCompileReading beyond _)) fun compiled _ => ?_
    refine .bind (.lift _) fun plan _ => ?_
    split
    · exact .error _
    · exact .pure _
  · have hlong : planMaxConstraints < info.constraints.length ∨
        planMaxOrderTerms < info.orderBy.length := by
      rw [IndexInfo.Fits] at hfits
      omega
    rw [if_pos (by simpa [or_assoc] using .inr hlong)]
    exact iff_of_true (.error _) fun h => absurd h hfits

/-- A call that looks up visible columns computes what it computes without the lookups. -/
theorem outcome_moduleBestIndexReading (beyond : ℤ → PlannerColumn)
    (h : ∀ c ∈ info.constraints, LooksUpVisible table.fieldOids.length c) :
    (moduleBestIndexReading beyond table info memoryOk).outcome =
      moduleBestIndex table info memoryOk := by
  have hinputs : (bestIndexInputsReading (columnsAt table.columns beyond) info).outcome =
      .ok (bestIndexInputs table info) := by
    unfold bestIndexInputsReading bestIndexInputs
    rw [Reading.outcome_foldlM]
    refine foldlM_collect (fun entry hentry inputs => ?_) []
    have hc := List.mem_of_getElem? (List.mem_zipIdx_iff_getElem?.mp hentry)
    rw [Reading.outcome_bind, outcome_bestIndexInputReading, bestIndexInputAt_eq (h _ hc), ok_bind]
    rfl
  unfold moduleBestIndexReading moduleBestIndex
  split
  · rfl
  rw [Reading.outcome_bind, hinputs, ok_bind, Reading.outcome_bind, Reading.outcome_mapError,
    outcome_plannerCompileReading]
  have hrequest : bestIndexRequestOf table info (bestIndexInputs table info) =
      bestIndexRequest table info := rfl
  rw [hrequest]
  cases plannerCompile (bestIndexRequest table info) with
  | error e => rfl
  | ok compiled =>
    rw [mapError_ok, ok_bind, Reading.outcome_bind, Reading.outcome_lift]
    dsimp only
    cases planAddVersion table compiled with
    | error e => rfl
    | ok plan =>
      rw [ok_bind]
      dsimp only
      split <;> rfl

end Call

/-- A table with one integer column. -/
def oneColumn : PlannedTable := ⟨[23], [0], 0, none, []⟩

/-- Nothing but zeros around the array. -/
def zeroFilled : ℤ → PlannerColumn := fun _ => ⟨0, ⟨false, false, false, false⟩⟩

/-- One constraint, on the rowid or on a column, with a constant. -/
def constantInfo (iColumn : ℤ) : IndexInfo :=
  ⟨[⟨iColumn, 2, true, false, some (.integer 5)⟩], [], 1⟩

theorem looksUpVisible_constantInfo (iColumn : ℤ) :
    (∀ c ∈ (constantInfo iColumn).constraints, LooksUpVisible 1 c) ↔ Visible 1 iColumn := by
  simp [constantInfo, LooksUpVisible, vtabConstraintOperation, PlanOperator.valueless]

/-- `WHERE a = 5` -/
theorem best_index_reads_visible_column :
    Reading.Within (Visible 1) (moduleBestIndexReading zeroFilled oneColumn (constantInfo 0) true) ∧
      ∀ out, (moduleBestIndexReading zeroFilled oneColumn (constantInfo 0) true).outcome = .ok out →
        out.plan.OnVisible 1 :=
  (best_index_reads_visible_iff zeroFilled (by decide) (by simp [oneColumn])).mpr fun _ =>
    (looksUpVisible_constantInfo 0).mpr (by decide)

/-- `WHERE rowid = 5` -/
theorem best_index_reads_outside :
    oneColumn.fieldOids.length = 1 ∧ (constantInfo (-1)).Fits ∧
      ¬Reading.Within (Visible 1)
        (moduleBestIndexReading zeroFilled oneColumn (constantInfo (-1)) true) := by
  refine ⟨rfl, ⟨by decide, by decide⟩, fun h => ?_⟩
  unfold moduleBestIndexReading at h
  rw [if_neg (by decide), Reading.Within.bind_iff, within_bestIndexInputsReading_iff,
    looksUpVisible_constantInfo] at h
  exact absurd h.1 (by decide)

end Vps
