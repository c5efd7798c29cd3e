import VirtualPostgreSQL.Planner.Compile
import VirtualPostgreSQL.Types.Codec
import VirtualPostgreSQL.Machinery.Lists

/-!
# Planner/BestIndex — `xBestIndex`

`vps_module_best_index` translates SQLite's `sqlite3_index_info` into a planner request, compiles
it and reports, constraint by constraint, which argument it wants and whether SQLite may omit its
own check.  A constraint whose operator has no translation leaves the request here; the planner
then drops the unusable ones and those on the rowid or on hidden columns.

`mem_plan_constraints`, `plan_of_pushable` and `plan_of_window` say which constraints of SQLite's
list the plan carries.
-/

namespace Vps

open Machinery

/-! ## What SQLite passes -/

/-- One entry of `aConstraint`, with what `sqlite3_vtab_in` and `sqlite3_vtab_rhs_value` answer
about it. -/
structure IndexConstraint where
  iColumn : ℤ
  op : UInt8
  usable : Bool
  isIn : Bool
  rhs : Option SqliteValue
  deriving DecidableEq

/-- A LIMIT or OFFSET entry of the constraint list. -/
def IndexConstraint.isWindow (c : IndexConstraint) : Bool := c.op == 73 || c.op == 74

/-- One entry of `aOrderBy`. -/
structure IndexOrderBy where
  iColumn : ℤ
  desc : Bool
  deriving DecidableEq

/-- The input part of `sqlite3_index_info`. -/
structure IndexInfo where
  constraints : List IndexConstraint
  orderBy : List IndexOrderBy
  colUsed : UInt64

/-- One entry of `aConstraintUsage`. -/
structure ConstraintUsage where
  argvIndex : ℕ
  omits : Bool
  deriving DecidableEq

/-- What `xBestIndex` reads of the table. -/
structure PlannedTable where
  /-- The type OIDs of the visible fields. -/
  fieldOids : List UInt32
  keyColumns : List ℕ
  sourceFingerprint : UInt64
  /-- The visible version column of the optimistic mode that needs it. -/
  versionColumn : Option ℕ
  /-- The columns of the declared query indexes, when materialization is on. -/
  queryIndexes : List (List ℤ)

/-- The output part of `sqlite3_index_info`, with the plan that `idxStr` encodes. -/
structure BestIndexOutput where
  plan : CompiledPlan
  usage : List ConstraintUsage
  orderByConsumed : Bool
  scanUnique : Bool

/-! ## Types, operators, value classes -/

/-- `vps_vtab_plan_capabilities`. -/
def vtabPlanCapabilities (typeOid : UInt32) : PlanCapabilities :=
  match typeCodecForOid typeOid with
  | .boolean | .integer | .uuidText => ⟨true, true, true, false⟩
  | .bytea => ⟨true, false, true, true⟩
  | _ => ⟨false, false, false, false⟩

/-- `vps_vtab_value_class`. -/
def vtabValueClass : SqliteValue → PlanValueClass
  | .null => .null
  | .integer _ => .integer
  | .real _ => .real
  | .text _ => .text
  | .blob _ => .blob

/-- `vps_vtab_expected_value_class`. -/
def vtabExpectedValueClass (typeOid : UInt32) : PlanValueClass :=
  match typeCodecForOid typeOid with
  | .bytea => .blob
  | .uuidText => .text
  | .boolean | .integer => .integer
  | _ => .unknown

/-- `vps_vtab_constraint_operation`: the plan operator and whether it is null-safe, `none` for an
operator the module does not translate (MATCH, LIKE, GLOB, REGEXP, IS NOT, functions). -/
def vtabConstraintOperation (op : UInt8) : Option (PlanOperator × Bool) :=
  match op with
  | 2 => some (.eq, false)
  | 68 => some (.ne, false)
  | 16 => some (.lt, false)
  | 8 => some (.le, false)
  | 4 => some (.gt, false)
  | 32 => some (.ge, false)
  | 71 => some (.isNull, false)
  | 70 => some (.isNotNull, false)
  | 72 => some (.eq, true)
  | 73 => some (.limit, false)
  | 74 => some (.offset, false)
  | _ => none

/-! ## The request -/

/-- The zero-filled column array of `xBestIndex`, read at a column number of SQLite.  (Rowid
constraints read it at `-1`; what is read there never reaches the plan.) -/
def plannedColumn (table : PlannedTable) (iColumn : ℤ) : PlannerColumn :=
  if 0 ≤ iColumn then
    match table.fieldOids[iColumn.toNat]? with
    | none => ⟨0, ⟨false, false, false, false⟩⟩
    | some typeOid => ⟨typeOid, vtabPlanCapabilities typeOid⟩
  else ⟨0, ⟨false, false, false, false⟩⟩

/-- The value class of a constant, as far as it fits the column's type. -/
def rhsValueClass (typeOid : UInt32) (rhs : SqliteValue) : PlanValueClass :=
  let valueClass := vtabValueClass rhs
  if valueClass ≠ .null && valueClass ≠ vtabExpectedValueClass typeOid then .unknown
  else match rhs with
  | .integer value => if typeOid == 16 && value != 0 && value != 1 then .unknown else valueClass
  | .text bytes => if typeOid == 2950 && !vtabUuidCanonical bytes then .unknown else valueClass
  | _ => valueClass

/-- One round of the constraint loop of `vps_module_best_index`. -/
def bestIndexInput (table : PlannedTable) (source : IndexConstraint) (index : ℕ) :
    Option PlannerConstraintInput :=
  match vtabConstraintOperation source.op with
  | none => none
  | some (operation, nullSafe) =>
    let column := plannedColumn table source.iColumn
    let isIn := source.usable && decide (0 ≤ source.iColumn) && operation == .eq &&
      (column.capabilities.equality && column.capabilities.exact) && source.isIn
    let valueClass :=
      if operation = .isNull || operation = .isNotNull || operation = .limit ||
          operation = .offset then .integer
      else if !isIn then
        match source.rhs with
        | none => .unknown
        | some rhs => rhsValueClass column.typeOid rhs
      else vtabExpectedValueClass column.typeOid
    some {
      column := source.iColumn
      operation := operation
      valueClass := valueClass
      sourceIndex := index
      usable := source.usable
      isIn := isIn
      nullSafe := nullSafe }

/-- The constraints of the request, in order. -/
def bestIndexInputs (table : PlannedTable) (info : IndexInfo) : List PlannerConstraintInput :=
  info.constraints.zipIdx.filterMap fun (source, index) => bestIndexInput table source index

/-- The order terms of the request: those on visible columns. -/
def bestIndexOrder (table : PlannedTable) (info : IndexInfo) : List PlannerOrderInput :=
  info.orderBy.filterMap fun term =>
    if term.iColumn < 0 || term.iColumn.toNat ≥ table.fieldOids.length then none
    else some ⟨term.iColumn.toNat, term.desc⟩

/-- How long a prefix of a query index is matched by equalities. -/
def queryIndexPrefix (inputs : List PlannerConstraintInput) : List ℤ → ℕ
  | [] => 0
  | column :: rest =>
    if inputs.any fun candidate => candidate.usable && !candidate.isIn &&
        candidate.column == column &&
        (candidate.operation == .eq || candidate.operation == .isNull) then
      queryIndexPrefix inputs rest + 1
    else 0

/-- The longest prefix over the query indexes, and the first index that has it. -/
def bestQueryIndex (inputs : List PlannerConstraintInput) (indexes : List (List ℤ)) : ℕ × ℕ :=
  indexes.zipIdx.foldl
    (fun best (definition, index) =>
      let length := queryIndexPrefix inputs definition
      if length > best.1 then (length, index) else best)
    (0, 0)

/-- The planner request of an `xBestIndex` call. -/
def bestIndexRequest (table : PlannedTable) (info : IndexInfo) : PlannerRequest :=
  let inputs := bestIndexInputs table info
  let queryIndex := bestQueryIndex inputs table.queryIndexes
  { sourceFingerprint := table.sourceFingerprint
    columns := table.fieldOids.map fun typeOid => ⟨typeOid, vtabPlanCapabilities typeOid⟩
    columnsUsed := info.colUsed
    constraints := inputs
    orderTerms := bestIndexOrder table info
    keyColumns := table.keyColumns
    estimatedBaseRows := 1000000
    relationPages := 0
    queryIndexPrefix := queryIndex.1.toUInt64
    queryIndexOrdinal := queryIndex.2.toUInt64 }

/-! ## The answer -/

/-- The usage array: every plan constraint writes the entry of the constraint it comes from. -/
def planUsage (count : ℕ) (constraints : List PlanConstraint) : List ConstraintUsage :=
  constraints.foldl
    (fun usage constraint =>
      usage.set constraint.sourceIndex ⟨constraint.argumentIndex, !constraint.flags.recheck⟩)
    (List.replicate count ⟨0, false⟩)

/-- The version column is projected in the optimistic mode that compares it. -/
def planAddVersion (table : PlannedTable) (plan : CompiledPlan) :
    Except SqliteResult CompiledPlan :=
  match table.versionColumn with
  | none => .ok plan
  | some version =>
    if plan.projection.contains version then .ok plan
    else if plan.projection.length ≥ planMaxColumns then .error .toobig
    else .ok { plan with projection := plan.projection ++ [version] }

/-- **`vps_module_best_index`**; `memoryOk` is whether the plan text could be allocated. -/
def moduleBestIndex (table : PlannedTable) (info : IndexInfo) (memoryOk : Bool) :
    Except SqliteResult BestIndexOutput :=
  if table.fieldOids.length > planMaxColumns || info.constraints.length > planMaxConstraints ||
      info.orderBy.length > planMaxOrderTerms then
    .error .constraint
  else match plannerCompile (bestIndexRequest table info) with
  | .error _ => .error .error
  | .ok compiled =>
    match planAddVersion table compiled with
    | .error result => .error result
    | .ok plan =>
      if !memoryOk then .error .nomem
      else .ok {
        plan := plan
        usage := planUsage info.constraints.length plan.constraints
        orderByConsumed := plan.flags.orderConsumed
        scanUnique := plan.flags.unique }

/-! ## From constraints to inputs -/

theorem vtabConstraintOperation_window {op : UInt8} {operation : PlanOperator} {nullSafe : Bool}
    (h : vtabConstraintOperation op = some (operation, nullSafe)) :
    (operation = .limit ↔ op = 73) ∧ (operation = .offset ↔ op = 74) := by
  unfold vtabConstraintOperation at h
  split at h <;> simp_all <;> obtain ⟨rfl, -⟩ := h <;> simp

section Inputs

variable {table : PlannedTable} {info : IndexInfo} {c : IndexConstraint} {i : ℕ}
  {input : PlannerConstraintInput}

theorem bestIndexInput_spec (h : bestIndexInput table c i = some input) :
    input.sourceIndex = i ∧ input.usable = c.usable ∧ input.column = c.iColumn ∧
      ∃ nullSafe, vtabConstraintOperation c.op = some (input.operation, nullSafe) := by
  unfold bestIndexInput at h
  split at h
  · cases h
  · rename_i operation nullSafe hop
    cases h
    exact ⟨rfl, rfl, rfl, nullSafe, hop⟩

theorem bestIndexInput_isWindow (h : bestIndexInput table c i = some input) :
    input.isWindow = c.isWindow := by
  obtain ⟨-, -, -, nullSafe, hop⟩ := bestIndexInput_spec h
  obtain ⟨hlimit, hoffset⟩ := vtabConstraintOperation_window hop
  rw [Bool.eq_iff_iff]
  simp [PlannerConstraintInput.isWindow, IndexConstraint.isWindow, hlimit, hoffset]

/-- The inputs of the request come from the constraints with a translated operator. -/
theorem mem_bestIndexInputs :
    input ∈ bestIndexInputs table info ↔
      ∃ c, info.constraints[input.sourceIndex]? = some c ∧
        bestIndexInput table c input.sourceIndex = some input := by
  unfold bestIndexInputs
  rw [List.mem_filterMap]
  constructor
  · rintro ⟨⟨c, i⟩, hmem, hinput⟩
    obtain ⟨rfl, -⟩ := bestIndexInput_spec hinput
    exact ⟨c, List.mem_zipIdx_iff_getElem?.mp hmem, hinput⟩
  · rintro ⟨c, hc, hinput⟩
    exact ⟨(c, input.sourceIndex), List.mem_zipIdx_iff_getElem?.mpr hc, hinput⟩

end Inputs

/-! ## From inputs to the plan -/

section Plan

variable {table : PlannedTable} {info : IndexInfo} {memoryOk : Bool} {out : BestIndexOutput}

/-- **What `xBestIndex` answers**: the constraints and the window flags of the compiled plan. -/
theorem moduleBestIndex_ok (h : moduleBestIndex table info memoryOk = .ok out) :
    ∃ compiled, plannerCompile (bestIndexRequest table info) = .ok compiled ∧
      out.plan.constraints = compiled.constraints ∧ out.plan.flags = compiled.flags ∧
      out.usage = planUsage info.constraints.length compiled.constraints := by
  unfold moduleBestIndex at h
  split at h
  · cases h
  split at h
  · cases h
  rename_i compiled hcompile
  split at h
  · cases h
  rename_i plan hversion
  split at h
  · cases h
  cases h
  refine ⟨compiled, hcompile, ?_⟩
  unfold planAddVersion at hversion
  split at hversion
  · cases hversion
    exact ⟨rfl, rfl, rfl⟩
  split at hversion
  · cases hversion
    exact ⟨rfl, rfl, rfl⟩
  split at hversion
  · cases hversion
  · cases hversion
    exact ⟨rfl, rfl, rfl⟩

/-- A pushed constraint is not LIMIT or OFFSET. -/
theorem planConstraintOf_operation {request : PlannerRequest} {input : PlannerConstraintInput}
    (h : request.pushable input = true) (argumentCount : ℕ) :
    (planConstraintOf request input argumentCount).operation ≠ .limit ∧
      (planConstraintOf request input argumentCount).operation ≠ .offset := by
  simp only [PlannerRequest.pushable, PlannerRequest.eligible, PlannerConstraintInput.isWindow,
    Bool.and_eq_true, Bool.not_eq_true', Bool.or_eq_false_iff, beq_eq_false_iff_ne] at h
  obtain ⟨⟨⟨⟨-, hlimit, hoffset⟩, -⟩, -⟩, -⟩ := h
  simp only [planConstraintOf, PlannerConstraintInput.planOperation]
  split
  · exact ⟨by decide, by decide⟩
  · exact ⟨hlimit, hoffset⟩

/-- **The constraints of a plan**: pushed inputs, and the LIMIT and OFFSET inputs unless the plan is
rechecked. -/
theorem mem_plan_constraints (h : moduleBestIndex table info memoryOk = .ok out)
    {c : PlanConstraint} :
    c ∈ out.plan.constraints → 
      (∃ input ∈ bestIndexInputs table info,
        (bestIndexRequest table info).pushable input = true ∧
          PlansInput (bestIndexRequest table info) c input) ∨
      ((bestIndexRequest table info).rechecks = false ∧ ∃ input ∈ bestIndexInputs table info,
        input.usable = true ∧ input.isWindow = true ∧ PlansWindow c input) := by
  obtain ⟨compiled, hcompile, hconstraints, -, -⟩ := moduleBestIndex_ok h
  obtain ⟨outputs, windows, hsplit, houtputs, hwindows, -, -⟩ := plannerCompile_spec hcompile
  rw [hconstraints, hsplit, List.mem_append]
  rintro (hmem | hmem)
  · obtain ⟨input, hinput, hplans⟩ := forall₂_exists_right houtputs hmem
    obtain ⟨hinput, hpush⟩ := List.mem_filter.mp hinput
    exact .inl ⟨input, hinput, hpush, hplans⟩
  · obtain ⟨input, hinput, hplans⟩ := forall₂_exists_right hwindows hmem
    split at hinput
    · cases hinput
    rename_i hrechecks
    obtain ⟨hinput, hwindow⟩ := List.mem_filter.mp hinput
    rw [Bool.and_eq_true] at hwindow
    exact .inr ⟨Bool.not_eq_true _ ▸ hrechecks, input, hinput, hwindow.1, hwindow.2, hplans⟩

/-- A pushable input is pushed. -/
theorem plan_of_pushable (h : moduleBestIndex table info memoryOk = .ok out)
    {input : PlannerConstraintInput} (hinput : input ∈ bestIndexInputs table info)
    (hpush : (bestIndexRequest table info).pushable input = true) :
    ∃ c ∈ out.plan.constraints, PlansInput (bestIndexRequest table info) c input := by
  obtain ⟨compiled, hcompile, hconstraints, -, -⟩ := moduleBestIndex_ok h
  obtain ⟨outputs, windows, hsplit, houtputs, -, -, -⟩ := plannerCompile_spec hcompile
  obtain ⟨c, hc, hplans⟩ := forall₂_exists_left houtputs (List.mem_filter.mpr ⟨hinput, hpush⟩)
  refine ⟨c, ?_, hplans⟩
  rw [hconstraints, hsplit]
  exact List.mem_append_left windows hc

/-- A usable LIMIT or OFFSET is pushed unless the plan is rechecked. -/
theorem plan_of_window (h : moduleBestIndex table info memoryOk = .ok out)
    (hrechecks : (bestIndexRequest table info).rechecks = false)
    {input : PlannerConstraintInput} (hinput : input ∈ bestIndexInputs table info)
    (husable : input.usable = true) (hwindow : input.isWindow = true) :
    ∃ c ∈ out.plan.constraints, PlansWindow c input := by
  obtain ⟨compiled, hcompile, hconstraints, -, -⟩ := moduleBestIndex_ok h
  obtain ⟨outputs, windows, hsplit, -, hwindows, -, -⟩ := plannerCompile_spec hcompile
  rw [hrechecks] at hwindows
  obtain ⟨c, hc, hplans⟩ := forall₂_exists_left hwindows
    (List.mem_filter.mpr ⟨hinput, by rw [husable, hwindow]; rfl⟩)
  refine ⟨c, ?_, hplans⟩
  rw [hconstraints, hsplit]
  exact List.mem_append_right outputs hc

/-! ## The usage array -/

theorem nodup_bestIndexInputs : ((bestIndexInputs table info).map (·.sourceIndex)).Nodup := by
  have hindexes : info.constraints.zipIdx.Pairwise fun a b => a.2 ≠ b.2 := by
    have := List.nodup_range' (s := 0) (n := info.constraints.length)
    rw [← List.zipIdx_map_snd 0 info.constraints] at this
    exact List.pairwise_map.mp this
  refine List.pairwise_map.mpr (List.pairwise_filterMap.mpr (hindexes.imp ?_))
  intro a b hne input hinput input' hinput'
  rw [(bestIndexInput_spec hinput).1, (bestIndexInput_spec hinput').1]
  exact hne

/-- Every constraint of SQLite's list is planned once. -/
theorem nodup_plan_constraints (h : moduleBestIndex table info memoryOk = .ok out) :
    (out.plan.constraints.map (·.sourceIndex)).Nodup := by
  obtain ⟨compiled, hcompile, hconstraints, -, -⟩ := moduleBestIndex_ok h
  obtain ⟨outputs, windows, hsplit, houtputs, hwindows, -, -⟩ := plannerCompile_spec hcompile
  have hsource : outputs.map (·.sourceIndex) =
      ((bestIndexInputs table info).filter (bestIndexRequest table info).pushable).map
        (·.sourceIndex) :=
    map_eq_map_of_forall₂ houtputs fun _ _ hplans => by obtain ⟨_, rfl⟩ := hplans; rfl
  have hwindowSource : windows.map (·.sourceIndex) =
      (if (bestIndexRequest table info).rechecks then [] else (bestIndexInputs table info).filter
        fun input => input.usable && input.isWindow).map (·.sourceIndex) :=
    map_eq_map_of_forall₂ hwindows fun _ _ hplans => by obtain ⟨_, rfl⟩ := hplans; rfl
  rw [hconstraints, hsplit, List.map_append, hsource, hwindowSource]
  refine List.nodup_append.mpr ⟨?_, ?_, ?_⟩
  · exact (List.filter_sublist.map _).nodup nodup_bestIndexInputs
  · split
    · exact List.nodup_nil
    · exact (List.filter_sublist.map _).nodup nodup_bestIndexInputs
  · intro i hi j hj
    obtain ⟨input, hinput, rfl⟩ := List.mem_map.mp hi
    obtain ⟨input', hinput', rfl⟩ := List.mem_map.mp hj
    split at hinput'
    · exact (List.not_mem_nil hinput').elim
    obtain ⟨hinput, hpush⟩ := List.mem_filter.mp hinput
    obtain ⟨hinput', hwindow⟩ := List.mem_filter.mp hinput'
    intro heq
    obtain ⟨c, hc, hof⟩ := mem_bestIndexInputs.mp hinput
    obtain ⟨c', hc', hof'⟩ := mem_bestIndexInputs.mp hinput'
    rw [← heq] at hc' hof'
    obtain rfl := Option.some.inj (hc.symm.trans hc')
    obtain rfl := Option.some.inj (hof.symm.trans hof')
    simp only [PlannerRequest.pushable, PlannerRequest.eligible, Bool.and_eq_true,
      Bool.not_eq_true'] at hpush hwindow
    rw [hpush.1.1.1.2] at hwindow
    exact absurd hwindow.2 Bool.false_ne_true

end Plan

/-- What a plan constraint writes into the usage array. -/
def PlanConstraint.usage (constraint : PlanConstraint) : ConstraintUsage :=
  ⟨constraint.argumentIndex, !constraint.flags.recheck⟩

theorem planUsage_foldl_of_not_mem {i : ℕ} : ∀ {constraints : List PlanConstraint}
    (usage : List ConstraintUsage) (_ : i ∉ constraints.map (·.sourceIndex)),
    (constraints.foldl (fun usage c => usage.set c.sourceIndex c.usage) usage)[i]? = usage[i]?
  | [], _, _ => rfl
  | c :: rest, usage, h => by
    rw [List.map_cons, List.mem_cons, not_or] at h
    rw [List.foldl_cons, planUsage_foldl_of_not_mem _ h.2,
      List.getElem?_set_ne (Ne.symm h.1)]

theorem planUsage_foldl_of_mem {c : PlanConstraint} : ∀ {constraints : List PlanConstraint}
    (usage : List ConstraintUsage) (_ : (constraints.map (·.sourceIndex)).Nodup)
    (_ : c ∈ constraints) (_ : c.sourceIndex < usage.length),
    (constraints.foldl (fun usage c => usage.set c.sourceIndex c.usage) usage)[c.sourceIndex]? =
      some c.usage
  | d :: rest, usage, hnodup, hmem, hlt => by
    rw [List.map_cons, List.nodup_cons] at hnodup
    rw [List.foldl_cons]
    rcases List.mem_cons.mp hmem with rfl | hmem
    · rw [planUsage_foldl_of_not_mem _ hnodup.1, List.getElem?_set_self hlt]
    · exact planUsage_foldl_of_mem _ hnodup.2 hmem (by rwa [List.length_set])

theorem planUsage_foldl_length : ∀ (constraints : List PlanConstraint)
    (usage : List ConstraintUsage),
    (constraints.foldl (fun usage c => usage.set c.sourceIndex c.usage) usage).length = usage.length
  | [], _ => rfl
  | c :: rest, usage => by
    rw [List.foldl_cons, planUsage_foldl_length rest, List.length_set]

section Usage

variable {table : PlannedTable} {info : IndexInfo} {memoryOk : Bool} {out : BestIndexOutput}
  {c : PlanConstraint}

/-- The usage entry of a planned constraint. -/
theorem usage_of_mem_plan (h : moduleBestIndex table info memoryOk = .ok out)
    (hc : c ∈ out.plan.constraints) (hlt : c.sourceIndex < info.constraints.length) :
    out.usage[c.sourceIndex]? = some c.usage := by
  have hnodup := nodup_plan_constraints h
  obtain ⟨compiled, -, hconstraints, -, husage⟩ := moduleBestIndex_ok h
  rw [hconstraints] at hc hnodup
  rw [husage]
  exact planUsage_foldl_of_mem _ hnodup hc (by rwa [List.length_replicate])

/-- An entry that was written comes from a planned constraint. -/
theorem mem_plan_of_usage (h : moduleBestIndex table info memoryOk = .ok out) {i : ℕ}
    {usage : ConstraintUsage} (husage : out.usage[i]? = some usage)
    (hwritten : usage ≠ ⟨0, false⟩) :
    ∃ c ∈ out.plan.constraints, c.sourceIndex = i ∧ usage = c.usage := by
  obtain ⟨compiled, -, hconstraints, -, hout⟩ := moduleBestIndex_ok h
  have hlt : i < info.constraints.length := by
    have hlength := planUsage_foldl_length compiled.constraints
      (List.replicate info.constraints.length ⟨0, false⟩)
    rw [List.length_replicate] at hlength
    have hi := (List.getElem?_eq_some_iff.mp husage).1
    rw [hout] at hi
    exact lt_of_lt_of_eq hi hlength
  by_cases hmem : i ∈ out.plan.constraints.map (·.sourceIndex)
  · obtain ⟨c, hc, rfl⟩ := List.mem_map.mp hmem
    have := usage_of_mem_plan h hc hlt
    exact ⟨c, hc, rfl, Option.some.inj (husage.symm.trans this)⟩
  · rw [hconstraints] at hmem
    rw [hout] at husage
    have hinitial := (planUsage_foldl_of_not_mem
      (List.replicate info.constraints.length ⟨0, false⟩) hmem).symm.trans husage
    rw [List.getElem?_replicate, if_pos hlt] at hinitial
    exact absurd (Option.some.inj hinitial).symm hwritten

end Usage

end Vps
