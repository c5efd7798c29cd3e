import Mathlib.Data.List.Basic
import Mathlib.Algebra.Order.Ring.Int
import VirtualPostgreSQL.Machinery.Outcome

/-!
# Planner/Compile — the bounded planner

`vps_planner_compile` of `vps_planner.c`: from the columns of a table, the constraints and order
terms SQLite offers, a compiled plan of pushed constraints, projection and order.  One flag,
`hasRecheck`, records that some constraint (or the order) is left to SQLite; LIMIT and OFFSET are
pushed only while it is off.

`plannerCompile_spec` says what a successful compilation pushes, in terms of three predicates on
the inputs: `Pushable`, `ForcesRecheck` and `isWindow`.
-/

namespace Vps

open Machinery

/-! ## The data model -/

/-- `VPS_PLAN_MAX_COLUMNS`. -/
def planMaxColumns : ℕ := 1024

/-- `VPS_PLAN_MAX_CONSTRAINTS`. -/
def planMaxConstraints : ℕ := 64

/-- `VPS_PLAN_MAX_ORDER_TERMS`. -/
def planMaxOrderTerms : ℕ := 32

/-- `VPS_PLAN_FORMAT_VERSION`. -/
def planFormatVersion : ℕ := 2

/-- `VpsPlanOperator`. -/
inductive PlanOperator
  | eq | ne | lt | le | gt | ge | isNull | isNotNull | «in» | limit | offset
  deriving DecidableEq, Repr

/-- `VpsPlanValueClass`. -/
inductive PlanValueClass
  | unknown | null | integer | real | text | blob
  deriving DecidableEq, Repr

/-- The `VPS_PLAN_CAP_*` bits of a column. -/
structure PlanCapabilities where
  equality : Bool
  order : Bool
  exact : Bool
  binary : Bool
  deriving DecidableEq

/-- `VpsPlannerColumn`. -/
structure PlannerColumn where
  typeOid : UInt32
  capabilities : PlanCapabilities
  deriving DecidableEq

/-- `VpsPlannerConstraintInput`. -/
structure PlannerConstraintInput where
  column : ℤ
  operation : PlanOperator
  valueClass : PlanValueClass
  sourceIndex : ℕ
  usable : Bool
  isIn : Bool
  nullSafe : Bool
  deriving DecidableEq

/-- `VpsPlannerOrderInput`. -/
structure PlannerOrderInput where
  column : ℕ
  descending : Bool
  deriving DecidableEq

/-- `VpsPlannerRequest`, less the logger. -/
structure PlannerRequest where
  sourceFingerprint : UInt64
  columns : List PlannerColumn
  columnsUsed : UInt64
  constraints : List PlannerConstraintInput
  orderTerms : List PlannerOrderInput
  keyColumns : List ℕ
  estimatedBaseRows : UInt64
  relationPages : UInt64
  queryIndexPrefix : UInt64
  queryIndexOrdinal : UInt64

/-- The `VPS_PLAN_CONSTRAINT_*` bits; `EXACT` is set on every plan constraint. -/
structure PlanConstraintFlags where
  recheck : Bool
  «in» : Bool
  key : Bool
  nullSafe : Bool
  deriving DecidableEq

/-- `VpsPlanConstraint`. -/
structure PlanConstraint where
  column : ℤ
  typeOid : UInt32
  sourceIndex : ℕ
  argumentIndex : ℕ
  flags : PlanConstraintFlags
  operation : PlanOperator
  valueClass : PlanValueClass
  deriving DecidableEq

/-- `VpsPlanOrderTerm`. -/
structure PlanOrderTerm where
  column : ℕ
  descending : Bool
  nullsFirst : Bool
  deriving DecidableEq

/-- The `VPS_PLAN_FLAG_*` bits. -/
structure PlanFlags where
  orderConsumed : Bool
  unique : Bool
  hasRecheck : Bool
  limitConsumed : Bool
  offsetConsumed : Bool
  deriving DecidableEq

/-- `VpsCompiledPlan`. -/
structure CompiledPlan where
  version : ℕ
  flags : PlanFlags
  sourceFingerprint : UInt64
  estimatedRows : UInt64
  estimatedCostMilli : UInt64
  projection : List ℕ
  constraints : List PlanConstraint
  orderTerms : List PlanOrderTerm
  argumentCount : ℕ
  selectedIndexPrefix : UInt64
  selectedIndexOrdinal : UInt64

/-- `VpsPlannerResult` (failures). -/
inductive PlannerError
  | invalidArgument | limitExceeded | invalidPlan | versionMismatch | fingerprintMismatch
  | outOfMemory
  deriving DecidableEq, Repr

/-! ## The parts of the compilation -/

/-- `vps_plan_value_exact`. -/
def planValueExact (column : PlannerColumn) (operation : PlanOperator)
    (valueClass : PlanValueClass) : Bool :=
  if operation = .isNull || operation = .isNotNull then true
  else if !(column.capabilities.equality && column.capabilities.exact) then false
  else if operation ≠ .eq && operation ≠ .ne && operation ≠ .in && !column.capabilities.order then
    false
  else if valueClass = .unknown then false
  else if column.capabilities.binary then valueClass == .blob
  else valueClass == .integer || valueClass == .text

/-- `vps_plan_is_key`. -/
def planIsKey (request : PlannerRequest) (column : ℕ) : Bool := request.keyColumns.contains column

/-- `vps_plan_add_projection`; `none` when the projection is full. -/
def planAddProjection (projection : List ℕ) (column : ℕ) : Option (List ℕ) :=
  if column > 65535 || projection.length ≥ planMaxColumns then none
  else if projection.contains column then some projection
  else some (projection ++ [column])

/-- Whether SQLite's `colUsed` mask names a column; bit 63 stands for all columns from 63 on. -/
def planColumnUsed (columnsUsed : UInt64) (column : ℕ) : Bool :=
  columnsUsed.toNat.testBit (min column 63)

/-- The loop over the columns that builds the projection. -/
def planProject (request : PlannerRequest) : List ℕ → List ℕ → Option (List ℕ)
  | [], projection => some projection
  | column :: rest, projection =>
    if planColumnUsed request.columnsUsed column || planIsKey request column then
      (planAddProjection projection column).bind (planProject request rest)
    else planProject request rest projection

/-- LIMIT and OFFSET. -/
def PlannerConstraintInput.isWindow (input : PlannerConstraintInput) : Bool :=
  input.operation == .limit || input.operation == .offset

/-- The input is one the constraint loop looks at: usable, not LIMIT or OFFSET, on a visible
column. -/
def PlannerRequest.eligible (request : PlannerRequest) (input : PlannerConstraintInput) : Bool :=
  input.usable && !input.isWindow && decide (0 ≤ input.column) &&
    decide (input.column.toNat < request.columns.length)

/-- The input as an operator of the plan. -/
def PlannerConstraintInput.planOperation (input : PlannerConstraintInput) : PlanOperator :=
  if input.isIn then .in else input.operation

/-- The remote predicate is equivalent to SQLite's. -/
def PlannerRequest.exact (request : PlannerRequest) (input : PlannerConstraintInput) : Bool :=
  if input.nullSafe && input.valueClass = .null then true
  else match request.columns[input.column.toNat]? with
  | none => false
  | some column => planValueExact column input.planOperation input.valueClass

/-- What the constraint loop accumulates. -/
structure CompileState where
  constraints : List PlanConstraint
  argumentCount : ℕ
  projection : List ℕ
  hasRecheck : Bool
  exactKeyParts : ℕ

/-- The plan constraint of an exact input. -/
def planConstraintOf (request : PlannerRequest) (input : PlannerConstraintInput)
    (argumentCount : ℕ) : PlanConstraint where
  column := input.column
  typeOid := ((request.columns[input.column.toNat]?).map PlannerColumn.typeOid).getD 0
  sourceIndex := input.sourceIndex
  argumentIndex :=
    if input.operation = .isNull || input.operation = .isNotNull then 0 else argumentCount + 1
  flags :=
    { recheck := input.isIn
      «in» := input.isIn
      key := planIsKey request input.column.toNat
      nullSafe := input.nullSafe }
  operation := input.planOperation
  valueClass := input.valueClass

/-- One round of the constraint loop. -/
def compileConstraint (request : PlannerRequest) (s : CompileState)
    (input : PlannerConstraintInput) : Except PlannerError CompileState :=
  if !request.eligible input then .ok s
  else if !request.exact input then .ok { s with hasRecheck := true }
  else if s.constraints.length ≥ planMaxConstraints then .error .limitExceeded
  else
    let output := planConstraintOf request input s.argumentCount
    match planAddProjection s.projection input.column.toNat with
    | none => .error .limitExceeded
    | some projection =>
      .ok {
        constraints := s.constraints ++ [output]
        argumentCount := if output.argumentIndex = 0 then s.argumentCount else s.argumentCount + 1
        projection := projection
        hasRecheck := s.hasRecheck || input.isIn
        exactKeyParts :=
          if output.flags.key && !input.isIn && input.operation == .eq then s.exactKeyParts + 1
          else s.exactKeyParts }

/-- Whether an order term has an exact ordering codec. -/
def PlannerRequest.orderTermExact (request : PlannerRequest) (term : PlannerOrderInput) : Bool :=
  match request.columns[term.column]? with
  | none => false
  | some column => column.capabilities.order && column.capabilities.exact

/-- The order can be consumed as a whole. -/
def PlannerRequest.orderExact (request : PlannerRequest) : Bool :=
  request.orderTerms.all request.orderTermExact

/-- The loop that adds the order columns to the projection. -/
def planProjectOrder : List PlannerOrderInput → List ℕ → Option (List ℕ)
  | [], projection => some projection
  | term :: rest, projection =>
    (planAddProjection projection term.column).bind (planProjectOrder rest)

/-- The plan constraint of a pushed LIMIT or OFFSET. -/
def planWindowOf (input : PlannerConstraintInput) (argumentCount : ℕ) : PlanConstraint where
  column := -1
  typeOid := 0
  sourceIndex := input.sourceIndex
  argumentIndex := argumentCount + 1
  flags := ⟨false, false, false, false⟩
  operation := input.operation
  valueClass := .integer

/-- One round of the loop that pushes LIMIT and OFFSET. -/
def compileWindow (s : CompileState) (input : PlannerConstraintInput) :
    Except PlannerError CompileState :=
  if !input.usable || !input.isWindow || s.hasRecheck then .ok s
  else if s.constraints.length ≥ planMaxConstraints then .error .limitExceeded
  else
    .ok { s with
      constraints := s.constraints ++ [planWindowOf input s.argumentCount]
      argumentCount := s.argumentCount + 1 }

/-- `vps_plan_min_u64`. -/
def planMinU64 (left right : UInt64) : UInt64 := if left < right then left else right

/-- The estimates: one row for a full key match, otherwise a fixed division of the base rows. -/
def planEstimate (request : PlannerRequest) (unique : Bool) (constraintCount : ℕ) : UInt64 :=
  if unique then 1
  else
    let baseRows : UInt64 :=
      if request.estimatedBaseRows ≠ 0 then request.estimatedBaseRows else 1000000
    let divisor : UInt64 := 1 + constraintCount.toUInt64 * 8 +
      (if request.queryIndexPrefix ≠ 0 then 16 else 0)
    if baseRows / divisor = 0 then 1 else baseRows / divisor

/-! ## The compilation -/

/-- The checks at the head of `vps_planner_compile`. -/
def plannerRequestValid (request : PlannerRequest) : Bool :=
  decide (request.columns.length ≠ 0) && decide (request.columns.length ≤ planMaxColumns) &&
    decide (request.constraints.length ≤ planMaxConstraints) &&
    decide (request.orderTerms.length ≤ planMaxOrderTerms) &&
    decide (request.keyColumns.length ≤ planMaxConstraints)

/-- The projection of the used and key columns, at least one column. -/
def planBaseProjection (request : PlannerRequest) : Option (List ℕ) :=
  (planProject request (List.range request.columns.length) []).bind fun projection =>
    if projection.length = 0 then planAddProjection projection 0 else some projection

/-- The state after the constraint loop and the order. -/
def compileOrder (request : PlannerRequest) (s : CompileState) : Except PlannerError CompileState :=
  if request.orderExact then
    match planProjectOrder request.orderTerms s.projection with
    | none => .error .limitExceeded
    | some projection => .ok { s with projection := projection }
  else if request.orderTerms.length ≠ 0 then .ok { s with hasRecheck := true }
  else .ok s

/-- The plan of the final state. -/
def compileFinish (request : PlannerRequest) (s : CompileState) : CompiledPlan :=
  let unique := decide (request.keyColumns.length ≠ 0) &&
    decide (s.exactKeyParts = request.keyColumns.length)
  let rows := planEstimate request unique s.constraints.length
  let cost := rows * 1000 + request.relationPages * 10
  { version := planFormatVersion
    flags :=
      { orderConsumed := request.orderExact && decide (request.orderTerms.length ≠ 0)
        unique := unique
        hasRecheck := s.hasRecheck
        limitConsumed := s.constraints.any (·.operation == .limit)
        offsetConsumed := s.constraints.any (·.operation == .offset) }
    sourceFingerprint := request.sourceFingerprint
    estimatedRows := rows
    estimatedCostMilli := if cost = 0 then 1 else cost
    projection := s.projection
    constraints := s.constraints
    orderTerms :=
      if request.orderExact then
        request.orderTerms.map fun term => ⟨term.column, term.descending, !term.descending⟩
      else []
    argumentCount := s.argumentCount
    selectedIndexPrefix := planMinU64 request.queryIndexPrefix 65535
    selectedIndexOrdinal := planMinU64 request.queryIndexOrdinal 65535 }

/-- **`vps_planner_compile`.** -/
def plannerCompile (request : PlannerRequest) : Except PlannerError CompiledPlan :=
  if !plannerRequestValid request then .error .invalidArgument
  else match planBaseProjection request with
  | none => .error .limitExceeded
  | some projection => do
    let s ← request.constraints.foldlM (compileConstraint request) ⟨[], 0, projection, false, 0⟩
    let s ← compileOrder request s
    let s ← request.constraints.foldlM compileWindow s
    return compileFinish request s

/-! ## What a compilation pushes -/

namespace PlannerRequest

variable (request : PlannerRequest)

/-- The input becomes a constraint of the plan. -/
def pushable (input : PlannerConstraintInput) : Bool :=
  request.eligible input && request.exact input

/-- The input is looked at and leaves work to SQLite. -/
def leavesRecheck (input : PlannerConstraintInput) : Bool :=
  request.eligible input && (!request.exact input || input.isIn)

/-- **The plan is rechecked**: some input leaves work to SQLite, or the order does. -/
def rechecks : Bool :=
  request.constraints.any request.leavesRecheck ||
    (!request.orderExact && decide (request.orderTerms.length ≠ 0))

end PlannerRequest

/-- The plan constraint comes from the input. -/
def PlansInput (request : PlannerRequest) (output : PlanConstraint)
    (input : PlannerConstraintInput) : Prop :=
  ∃ argumentCount, output = planConstraintOf request input argumentCount

/-- The plan constraint is the pushed LIMIT or OFFSET. -/
def PlansWindow (output : PlanConstraint) (input : PlannerConstraintInput) : Prop :=
  ∃ argumentCount, output = planWindowOf input argumentCount

/-- The constraint loop pushes the pushable inputs, in order. -/
theorem compileConstraints_spec (request : PlannerRequest) :
    ∀ {inputs : List PlannerConstraintInput} {s s' : CompileState},
      inputs.foldlM (compileConstraint request) s = .ok s' →
      ∃ outputs, s'.constraints = s.constraints ++ outputs ∧
        List.Forall₂ (PlansInput request) outputs (inputs.filter request.pushable) ∧
        s'.hasRecheck = (s.hasRecheck || inputs.any request.leavesRecheck)
  | [], s, s', h => by
    cases h
    exact ⟨[], (List.append_nil _).symm, .nil, by simp⟩
  | input :: rest, s, s', h => by
    obtain ⟨s₁, h₁, h⟩ := ok_of_foldlM_cons h
    obtain ⟨outputs, hs, hall, hrecheck⟩ := compileConstraints_spec request h
    rw [hs, hrecheck, List.any_cons]
    unfold compileConstraint at h₁
    split at h₁
    · rename_i hskip
      cases h₁
      rw [Bool.not_eq_true'] at hskip
      rw [List.filter_cons_of_neg (by simp [PlannerRequest.pushable, hskip])]
      exact ⟨outputs, rfl, hall, by simp [PlannerRequest.leavesRecheck, hskip]⟩
    rename_i heligible
    simp only [Bool.not_eq_true', Bool.not_eq_false] at heligible
    split at h₁
    · rename_i hskip
      cases h₁
      rw [Bool.not_eq_true'] at hskip
      rw [List.filter_cons_of_neg (by simp [PlannerRequest.pushable, hskip])]
      exact ⟨outputs, rfl, hall, by simp [PlannerRequest.leavesRecheck, heligible, hskip]⟩
    rename_i hexact
    simp only [Bool.not_eq_true', Bool.not_eq_false] at hexact
    split at h₁
    · cases h₁
    split at h₁
    · cases h₁
    cases h₁
    rw [List.filter_cons_of_pos (by simp [PlannerRequest.pushable, heligible, hexact])]
    refine ⟨planConstraintOf request input s.argumentCount :: outputs, by simp,
      .cons ⟨s.argumentCount, rfl⟩ hall, ?_⟩
    simp [PlannerRequest.leavesRecheck, heligible, hexact, Bool.or_assoc]

/-- The window loop pushes the usable LIMIT and OFFSET, unless the plan is rechecked. -/
theorem compileWindows_spec :
    ∀ {inputs : List PlannerConstraintInput} {s s' : CompileState},
      inputs.foldlM compileWindow s = .ok s' →
      ∃ outputs, s'.constraints = s.constraints ++ outputs ∧
        List.Forall₂ PlansWindow outputs
          (if s.hasRecheck then [] else inputs.filter fun input => input.usable && input.isWindow) ∧
        s'.hasRecheck = s.hasRecheck
  | [], s, s', h => by
    cases h
    exact ⟨[], (List.append_nil _).symm, by simp, rfl⟩
  | input :: rest, s, s', h => by
    obtain ⟨s₁, h₁, h⟩ := ok_of_foldlM_cons h
    obtain ⟨outputs, hs, hall, hkeep⟩ := compileWindows_spec h
    rw [hs, hkeep]
    unfold compileWindow at h₁
    split at h₁
    · rename_i hskip
      cases h₁
      refine ⟨outputs, rfl, ?_, rfl⟩
      cases hrecheck : s.hasRecheck with
      | true => simpa [hrecheck] using hall
      | false =>
        have hfilter : (input.usable && input.isWindow) = false := by
          rw [hrecheck, Bool.or_false, Bool.or_eq_true] at hskip
          rcases hskip with hskip | hskip <;> simp_all
        simpa [hrecheck, List.filter_cons, hfilter] using hall
    rename_i hpush
    simp only [Bool.or_eq_true, Bool.not_eq_true', not_or, Bool.not_eq_false,
      Bool.not_eq_true] at hpush
    obtain ⟨⟨husable, hwindow⟩, hrecheck⟩ := hpush
    split at h₁
    · cases h₁
    cases h₁
    refine ⟨planWindowOf input s.argumentCount :: outputs, by simp, ?_, rfl⟩
    simp only [hrecheck, Bool.false_eq_true, if_false, List.filter_cons, husable, hwindow,
      Bool.and_self, if_true] at hall ⊢
    exact .cons ⟨s.argumentCount, rfl⟩ hall

/-- The order only adds to the recheck. -/
theorem compileOrder_spec {request : PlannerRequest} {s s' : CompileState}
    (h : compileOrder request s = .ok s') :
    s'.constraints = s.constraints ∧
      s'.hasRecheck = (s.hasRecheck ||
        (!request.orderExact && decide (request.orderTerms.length ≠ 0))) := by
  unfold compileOrder at h
  split at h
  · rename_i hexact
    split at h
    · cases h
    · cases h
      simp [hexact]
  · rename_i hexact
    split at h
    · rename_i hlength
      cases h
      simp [hexact, hlength]
    · rename_i hlength
      cases h
      simp [not_not.mp hlength]

/-- **What a compilation pushes**: the pushable inputs, then — unless the plan is rechecked — the
usable LIMIT and OFFSET. -/
theorem plannerCompile_spec {request : PlannerRequest} {plan : CompiledPlan}
    (h : plannerCompile request = .ok plan) :
    ∃ outputs windows, plan.constraints = outputs ++ windows ∧
      List.Forall₂ (PlansInput request) outputs (request.constraints.filter request.pushable) ∧
      List.Forall₂ PlansWindow windows
        (if request.rechecks then []
          else request.constraints.filter fun input => input.usable && input.isWindow) ∧
      plan.flags.limitConsumed = plan.constraints.any (·.operation == .limit) ∧
      plan.flags.offsetConsumed = plan.constraints.any (·.operation == .offset) := by
  unfold plannerCompile at h
  split at h
  · cases h
  split at h
  · cases h
  obtain ⟨s₁, h₁, h⟩ := ok_of_bind h
  obtain ⟨s₂, h₂, h⟩ := ok_of_bind h
  obtain ⟨s₃, h₃, h⟩ := ok_of_bind h
  cases h
  obtain ⟨outputs, hs₁, houtputs, hrecheck₁⟩ := compileConstraints_spec request h₁
  obtain ⟨hs₂, hrecheck₂⟩ := compileOrder_spec h₂
  obtain ⟨windows, hs₃, hwindows, -⟩ := compileWindows_spec h₃
  refine ⟨outputs, windows, ?_, houtputs, ?_, rfl, rfl⟩
  · rw [compileFinish, hs₃, hs₂, hs₁]
    rfl
  · have : s₂.hasRecheck = request.rechecks := by
      rw [hrecheck₂, hrecheck₁, PlannerRequest.rechecks, Bool.false_or]
    rw [← this]
    exact hwindows

/-- What is compiled as a window is a LIMIT or an OFFSET. -/
theorem PlannerRequest.operation_of_mem_windows {request : PlannerRequest}
    {input : PlannerConstraintInput}
    (h : input ∈ if request.rechecks then [] else
      request.constraints.filter fun input => input.usable && input.isWindow) :
    input.operation = .limit ∨ input.operation = .offset := by
  split at h
  · cases h
  · have hwindow := (List.mem_filter.mp h).2
    simp only [PlannerConstraintInput.isWindow, Bool.and_eq_true, Bool.or_eq_true,
      beq_iff_eq] at hwindow
    exact hwindow.2

end Vps
