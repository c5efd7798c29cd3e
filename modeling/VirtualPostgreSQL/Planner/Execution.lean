import VirtualPostgreSQL.Planner.BestIndex
import VirtualPostgreSQL.Server.Value

/-!
# Planner/Execution — the query text and its parameters

`vps_vtab_build_execution` writes the query of a scan from the plan and the arguments of `xFilter`:
one clause for each pushed constraint, the order, LIMIT and OFFSET, and the typed parameters its
placeholders stand for.  The text is kept clause by clause; the list of selected columns, which
decides no row, is left out.

`Execution.rows` is what the server answers: it reads the parameters, checks the operators and keeps
the rows on which every clause is true.
-/

namespace Vps

open Machinery

/-! ## Values and parameters -/

/-- `VPS_PLAN_DEFAULT_IN_LIMIT`. -/
def planDefaultInLimit : ℕ := 4096

/-- `VPS_VTAB_PARAMETER_LIMIT`. -/
def vtabParameterLimit : ℕ := planDefaultInLimit + planMaxConstraints

/-- `VPS_VTAB_PARAMETER_BYTES_LIMIT`. -/
def vtabParameterBytesLimit : ℕ := 4 * 1024 * 1024

/-- `vps_vtab_value_compatible`. -/
def vtabValueCompatible (value : SqliteValue) (typeOid : UInt32) (expected : PlanValueClass) :
    Bool :=
  match value with
  | .null => true
  | .blob _ => expected == .blob
  | .integer v =>
    if expected = .blob then false
    else if typeOid == 16 then v == 0 || v == 1
    else expected == .integer
  | .text bytes =>
    if expected = .blob then false
    else if typeOid == 16 then false
    else if expected = .integer then false
    else if typeOid == 2950 then vtabUuidCanonical bytes
    else expected == .text
  | .real _ => false

/-- The bytes of a parameter that is not NULL. -/
def parameterBytes (value : SqliteValue) (typeOid : UInt32) (expected : PlanValueClass) :
    List UInt8 :=
  match value with
  | .null => []
  | .integer v =>
    if typeOid == 16 then if v == 0 then [102, 97, 108, 115, 101] else [116, 114, 117, 101]
    else if expected = .integer then decimalInt v.toInt
    else []
  | .real _ => []
  | .text bytes | .blob bytes => bytes

/-- The typed parameter of a compatible value. -/
def parameterOf (value : SqliteValue) (typeOid : UInt32) (expected : PlanValueClass) :
    ClientParameter where
  typeOid := typeOid
  binary := expected == .blob
  value := if value = .null then none else some (parameterBytes value typeOid expected)

/-- The part of the cursor that the execution is built in. -/
structure ParameterState where
  parameters : List ClientParameter
  /-- The fill of `parameter_bytes`. -/
  stored : ℕ

/-- `vps_vtab_add_parameter`: `none` when the value does not fit the type or a limit is reached. -/
def vtabAddParameter (s : ParameterState) (value : SqliteValue) (typeOid : UInt32)
    (expected : PlanValueClass) : Option ParameterState :=
  if s.parameters.length ≥ vtabParameterLimit || !vtabValueCompatible value typeOid expected then
    none
  else
    let parameter := parameterOf value typeOid expected
    match parameter.value with
    | none => some { s with parameters := s.parameters ++ [parameter] }
    | some bytes =>
      let storage := if expected = .blob then max bytes.length 1 else bytes.length + 1
      if s.stored + storage > vtabParameterBytesLimit then none
      else some ⟨s.parameters ++ [parameter], s.stored + storage⟩

/-! ## The query -/

/-- The operators of the text. -/
inductive SqlOperator
  | eq | ne | lt | le | gt | ge
  /-- `IS NOT DISTINCT FROM` -/
  | notDistinct
  deriving DecidableEq, Repr

/-- One condition of the WHERE clause; a placeholder `$n` is its number. -/
inductive SqlPredicate
  /-- `FALSE` -/
  | never
  | isNull (column : ℕ)
  | isNotNull (column : ℕ)
  | compare (column : ℕ) (operator : SqlOperator) (placeholder : ℕ)
  | isIn (column : ℕ) (placeholders : List ℕ)
  deriving DecidableEq

/-- A condition, with the constraint of SQLite's list it was written for. -/
structure SqlClause where
  source : ℕ
  predicate : SqlPredicate
  deriving DecidableEq

/-- The end of the text. -/
inductive SqlWindow
  | limit (placeholder : ℕ)
  | offset (placeholder : ℕ)
  /-- `OFFSET 0` -/
  | offsetZero
  deriving DecidableEq

/-- The execution of a scan: query and parameters. -/
structure Execution where
  clauses : List SqlClause
  orderTerms : List PlanOrderTerm
  windows : List SqlWindow
  parameters : List ClientParameter

/-! ## Building -/

/-- `vps_vtab_operator_sql`. -/
def vtabOperatorSql (constraint : PlanConstraint) : Option SqlOperator :=
  if constraint.flags.nullSafe then some .notDistinct
  else match constraint.operation with
  | .eq => some .eq
  | .ne => some .ne
  | .lt => some .lt
  | .le => some .le
  | .gt => some .gt
  | .ge => some .ge
  | _ => none

/-- The argument as a single value; a list of values reads as NULL. -/
def ConstraintOperand.asValue : ConstraintOperand → SqliteValue
  | .value v => v
  | .items _ => .null

/-- `vps_vtab_in_compatible`: the items of the list, if it may be pushed. -/
def vtabInCompatible (argument : Option ConstraintOperand) (constraint : PlanConstraint) :
    Option (List SqliteValue) :=
  match argument with
  | some (.items list) =>
    if list.length ≤ planDefaultInLimit &&
        list.all (vtabValueCompatible · constraint.typeOid constraint.valueClass) then some list
    else none
  | _ => none

/-- The argument of a constraint. -/
def constraintArgument (arguments : List ConstraintOperand) (constraint : PlanConstraint) :
    Option ConstraintOperand :=
  if constraint.argumentIndex = 0 then none else arguments[constraint.argumentIndex - 1]?

/-- The placeholders of an IN list. -/
def addItems (constraint : PlanConstraint) :
    List SqliteValue → ParameterState → Option (List ℕ × ParameterState)
  | [], s => some ([], s)
  | item :: rest, s => do
    let s' ← vtabAddParameter s item constraint.typeOid constraint.valueClass
    let (placeholders, s'') ← addItems constraint rest s'
    return (s'.parameters.length :: placeholders, s'')

/-- The argument of a constraint that takes a single value. -/
def constraintValue (arguments : List ConstraintOperand) (constraint : PlanConstraint) :
    SqliteValue :=
  ((constraintArgument arguments constraint).map ConstraintOperand.asValue).getD .null

/-- What is written for an IN: nothing, or a condition. -/
def buildIn (arguments : List ConstraintOperand) (constraint : PlanConstraint)
    (s : ParameterState) : Option (Option SqlPredicate × ParameterState) :=
  match vtabInCompatible (constraintArgument arguments constraint) constraint with
  | none => some (none, s)
  | some [] => some (some .never, s)
  | some (item :: rest) => do
    let (placeholders, s') ← addItems constraint (item :: rest) s
    return (some (.isIn constraint.column.toNat placeholders), s')

/-- What is written for a constraint other than IN. -/
def buildComparison (arguments : List ConstraintOperand) (constraint : PlanConstraint)
    (s : ParameterState) : Option (Option SqlPredicate × ParameterState) :=
  match constraint.operation with
  | .isNull => some (some (.isNull constraint.column.toNat), s)
  | .isNotNull => some (some (.isNotNull constraint.column.toNat), s)
  | _ => do
    let operator ← vtabOperatorSql constraint
    let s' ← vtabAddParameter s (constraintValue arguments constraint) constraint.typeOid
      constraint.valueClass
    return (some (.compare constraint.column.toNat operator s'.parameters.length), s')

/-- The argument does not fit the column, so that nothing is written. -/
def constraintSkipped (arguments : List ConstraintOperand) (constraint : PlanConstraint) : Bool :=
  decide (constraint.argumentIndex ≠ 0) && !vtabValueCompatible
    (constraintValue arguments constraint) constraint.typeOid constraint.valueClass

/-- What is written for a constraint: nothing, or a condition. -/
def buildPredicate (arguments : List ConstraintOperand) (constraint : PlanConstraint)
    (s : ParameterState) : Option (Option SqlPredicate × ParameterState) :=
  if constraint.operation = .limit ∨ constraint.operation = .offset then some (none, s)
  else if constraint.flags.in then buildIn arguments constraint s
  else if constraintSkipped arguments constraint then some (none, s)
  else buildComparison arguments constraint s

/-- The loop over the constraints. -/
def buildClauses (fieldCount : ℕ) (arguments : List ConstraintOperand) :
    List PlanConstraint → ParameterState → Option (List SqlClause × ParameterState)
  | [], s => some ([], s)
  | constraint :: rest, s => do
    let (predicate, s') ← buildPredicate arguments constraint s
    let (clauses, s'') ← buildClauses fieldCount arguments rest s'
    match predicate with
    | none => return (clauses, s'')
    | some predicate =>
      if constraint.column.toNat < fieldCount then
        return (⟨constraint.sourceIndex, predicate⟩ :: clauses, s'')
      else none

/-- LIMIT and OFFSET. -/
def buildWindow (arguments : List ConstraintOperand) (constraint : PlanConstraint)
    (s : ParameterState) : Option (List SqlWindow × ParameterState) :=
  if constraint.operation ≠ .limit && constraint.operation ≠ .offset then some ([], s)
  else match constraintArgument arguments constraint with
  | some (.value (.integer value)) =>
    if constraint.operation = .limit && decide (value.toInt < 0) then some ([], s)
    else if constraint.operation = .offset && decide (value.toInt < 0) then some ([.offsetZero], s)
    else do
      let s' ← vtabAddParameter s (.integer value) 20 .integer
      return ([if constraint.operation = .limit then .limit s'.parameters.length
        else .offset s'.parameters.length], s')
  | _ => none

/-- The second loop over the constraints. -/
def buildWindows (arguments : List ConstraintOperand) :
    List PlanConstraint → ParameterState → Option (List SqlWindow × ParameterState)
  | [], s => some ([], s)
  | constraint :: rest, s => do
    let (window, s') ← buildWindow arguments constraint s
    let (windows, s'') ← buildWindows arguments rest s'
    return (window ++ windows, s'')

/-- **`vps_vtab_build_execution`**; `room` is whether the allocations succeed and the text fits its
buffer. -/
def vtabBuildExecution (fieldCount : ℕ) (plan : CompiledPlan) (arguments : List ConstraintOperand)
    (room : Bool) : Option Execution :=
  if plan.projection.length = 0 || plan.projection.length > fieldCount ||
      plan.argumentCount ≠ arguments.length || !room then none
  else do
    let (clauses, s) ← buildClauses fieldCount arguments plan.constraints ⟨[], 0⟩
    let (windows, s) ← buildWindows arguments plan.constraints s
    return {
      clauses := clauses
      orderTerms := if plan.flags.orderConsumed then plan.orderTerms else []
      windows := windows
      parameters := s.parameters }

/-! ## The server's answer -/

/-- A row, column by column. -/
abbrev PgRow := ℕ → PgValue

/-- The verdict of an operator. -/
def SqlOperator.holds (operator : SqlOperator) (v w : PgValue) : Bool :=
  match operator with
  | .eq => v.compare? w == some .eq
  | .ne => (v.compare? w).any (· != .eq)
  | .lt => v.compare? w == some .lt
  | .le => (v.compare? w).any (· != .gt)
  | .gt => v.compare? w == some .gt
  | .ge => (v.compare? w).any (· != .lt)
  | .notDistinct => (v == .null && w == .null) || v.compare? w == some .eq

/-- The parameter of a placeholder. -/
def placeholderValue (values : List PgValue) (placeholder : ℕ) : PgValue :=
  values[placeholder - 1]?.getD .null

/-- A condition is true of a row. -/
def SqlPredicate.holds (values : List PgValue) (row : PgRow) : SqlPredicate → Bool
  | .never => false
  | .isNull column => row column == .null
  | .isNotNull column => row column != .null
  | .compare column operator placeholder =>
    operator.holds (row column) (placeholderValue values placeholder)
  | .isIn column placeholders =>
    placeholders.any fun placeholder =>
      (row column).compare? (placeholderValue values placeholder) == some .eq

/-- The column a condition compares. -/
def SqlPredicate.compared : SqlPredicate → Option ℕ
  | .compare column _ _ => some column
  | .isIn column _ => some column
  | _ => none

/-- The server has the operators of the condition: the exact types have, for others `equality`
tells. -/
def SqlPredicate.supported (equality : UInt32 → Bool) (fieldOids : List UInt32)
    (predicate : SqlPredicate) : Bool :=
  match predicate.compared with
  | none => true
  | some column =>
    match fieldOids[column]? with
    | none => false
    | some typeOid => PgKind.ofOid typeOid != .other || equality typeOid

/-- **The server's answer** to an execution: the rows its WHERE clause keeps; `none` is an error. -/
def Execution.rows (equality : UInt32 → Bool) (fieldOids : List UInt32) (execution : Execution)
    (table : List PgRow) : Option (List PgRow) :=
  if execution.clauses.all (·.predicate.supported equality fieldOids) then
    (execution.parameters.mapM PgValue.input).map fun values =>
      table.filter fun row => execution.clauses.all (·.predicate.holds values row)
  else none

/-! ## What is written -/

/-- The values a constraint sends as parameters. -/
def constraintValues (arguments : List ConstraintOperand) (constraint : PlanConstraint) :
    List SqliteValue :=
  if constraint.operation = .limit ∨ constraint.operation = .offset then []
  else if constraint.flags.in then
    (vtabInCompatible (constraintArgument arguments constraint) constraint).getD []
  else if constraintSkipped arguments constraint then []
  else if constraint.operation = .isNull ∨ constraint.operation = .isNotNull then []
  else [constraintValue arguments constraint]

/-- The parameters of a constraint. -/
def constraintParameters (arguments : List ConstraintOperand) (constraint : PlanConstraint) :
    List ClientParameter :=
  (constraintValues arguments constraint).map
    (parameterOf · constraint.typeOid constraint.valueClass)

/-- The clauses of a query, constraint by constraint. -/
def zipClauses : List PlanConstraint → List (Option SqlPredicate) → List SqlClause
  | c :: constraints, some predicate :: predicates =>
    ⟨c.sourceIndex, predicate⟩ :: zipClauses constraints predicates
  | _ :: constraints, none :: predicates => zipClauses constraints predicates
  | _, _ => []

/-- **What is written for a constraint**, its placeholders numbered in the parameter list. -/
inductive Writes (parameters : List ClientParameter) (arguments : List ConstraintOperand)
    (c : PlanConstraint) : Option SqlPredicate → Prop
  | window (h : c.operation = .limit ∨ c.operation = .offset) : Writes parameters arguments c none
  | skipList (hin : c.flags.in = true)
      (h : vtabInCompatible (constraintArgument arguments c) c = none) :
      Writes parameters arguments c none
  | skipValue (hin : c.flags.in = false) (h : constraintSkipped arguments c = true) :
      Writes parameters arguments c none
  | never (hin : c.flags.in = true)
      (h : vtabInCompatible (constraintArgument arguments c) c = some []) :
      Writes parameters arguments c (some .never)
  | isIn (hin : c.flags.in = true) {list : List SqliteValue} {placeholders : List ℕ}
      (h : vtabInCompatible (constraintArgument arguments c) c = some list)
      (hlist : List.Forall₂ (fun placeholder item =>
        parameters[placeholder - 1]? = some (parameterOf item c.typeOid c.valueClass))
        placeholders list) :
      Writes parameters arguments c (some (.isIn c.column.toNat placeholders))
  | isNull (hin : c.flags.in = false) (h : c.operation = .isNull) :
      Writes parameters arguments c (some (.isNull c.column.toNat))
  | isNotNull (hin : c.flags.in = false) (h : c.operation = .isNotNull) :
      Writes parameters arguments c (some (.isNotNull c.column.toNat))
  | compare (hin : c.flags.in = false) {operator : SqlOperator} {placeholder : ℕ}
      (hnull : c.operation ≠ .isNull ∧ c.operation ≠ .isNotNull)
      (h : vtabOperatorSql c = some operator)
      (hvalue : parameters[placeholder - 1]? =
        some (parameterOf (constraintValue arguments c) c.typeOid c.valueClass)) :
      Writes parameters arguments c (some (.compare c.column.toNat operator placeholder))

section Writes

variable {s s' : ParameterState} {value : SqliteValue} {typeOid : UInt32}
  {expected : PlanValueClass} {arguments : List ConstraintOperand} {c : PlanConstraint}

/-- A parameter that is taken stands behind the others. -/
theorem vtabAddParameter_parameters (h : vtabAddParameter s value typeOid expected = some s') :
    s'.parameters = s.parameters ++ [parameterOf value typeOid expected] := by
  unfold vtabAddParameter at h
  split at h
  · nomatch h
  simp only at h
  split at h
  · cases h
    rfl
  · obtain ⟨-, h⟩ := (Option.ite_none_left_eq_some).mp h
    exact congrArg ParameterState.parameters (Option.some.inj h).symm

/-- The parameter just added is the one its placeholder names. -/
theorem getElem?_added {l m : List ClientParameter} {p : ClientParameter} (h : l ++ [p] <+: m) :
    m[(l ++ [p]).length - 1]? = some p := by
  obtain ⟨rest, rfl⟩ := h
  simp

/-- **The items of a list are written one by one**, each where its placeholder points. -/
theorem addItems_spec : ∀ {list : List SqliteValue} {s s' : ParameterState}
    {placeholders : List ℕ} (_ : addItems c list s = some (placeholders, s')),
    s'.parameters = s.parameters ++ list.map (parameterOf · c.typeOid c.valueClass) ∧
      ∀ parameters, s'.parameters <+: parameters →
        List.Forall₂ (fun placeholder item =>
          parameters[placeholder - 1]? = some (parameterOf item c.typeOid c.valueClass))
          placeholders list
  | [], s, s', placeholders, h => by
    cases h
    exact ⟨(List.append_nil _).symm, fun _ _ => .nil⟩
  | item :: rest, s, s', placeholders, h => by
    simp only [addItems, Option.bind_eq_bind, Option.bind_eq_some_iff] at h
    obtain ⟨s₁, h₁, ⟨placeholders', s₂⟩, h₂, h⟩ := h
    cases h
    obtain ⟨hparameters, hread⟩ := addItems_spec h₂
    have hadded := vtabAddParameter_parameters h₁
    rw [hadded] at hparameters
    refine ⟨by rw [hparameters]; simp, fun parameters hprefix => .cons ?_ (hread _ hprefix)⟩
    rw [hadded]
    refine getElem?_added (List.IsPrefix.trans ?_ hprefix)
    rw [hparameters]
    exact List.prefix_append _ _

/-- So is an IN, of those items that its column can have… -/
theorem buildIn_spec {predicate : Option SqlPredicate} (hin : c.flags.in = true)
    (h : buildIn arguments c s = some (predicate, s')) :
    s'.parameters = s.parameters ++
        ((vtabInCompatible (constraintArgument arguments c) c).getD []).map
          (parameterOf · c.typeOid c.valueClass) ∧
      ∀ parameters, s'.parameters <+: parameters → Writes parameters arguments c predicate := by
  unfold buildIn at h
  split at h <;> rename_i hlist <;> rw [hlist]
  · cases h
    exact ⟨(List.append_nil _).symm, fun _ _ => .skipList hin hlist⟩
  · cases h
    exact ⟨(List.append_nil _).symm, fun _ _ => .never hin hlist⟩
  · simp only [Option.bind_eq_bind, Option.bind_eq_some_iff] at h
    obtain ⟨⟨placeholders, s₁⟩, h₁, h⟩ := h
    cases h
    obtain ⟨hparameters, hread⟩ := addItems_spec h₁
    exact ⟨hparameters, fun parameters hprefix => .isIn hin hlist (hread parameters hprefix)⟩

/-- …and a comparison, of its value if it has one. -/
theorem buildComparison_spec {predicate : Option SqlPredicate} (hin : c.flags.in = false)
    (h : buildComparison arguments c s = some (predicate, s')) :
    s'.parameters = s.parameters ++
        (if c.operation = .isNull ∨ c.operation = .isNotNull then []
          else [constraintValue arguments c]).map (parameterOf · c.typeOid c.valueClass) ∧
      ∀ parameters, s'.parameters <+: parameters → Writes parameters arguments c predicate := by
  unfold buildComparison at h
  split at h
  · rename_i hop
    cases h
    rw [if_pos (.inl hop)]
    exact ⟨(List.append_nil _).symm, fun _ _ => .isNull hin hop⟩
  · rename_i hop
    cases h
    rw [if_pos (.inr hop)]
    exact ⟨(List.append_nil _).symm, fun _ _ => .isNotNull hin hop⟩
  · rename_i hnull hnotNull
    simp only [Option.bind_eq_bind, Option.bind_eq_some_iff] at h
    obtain ⟨operator, hoperator, s₁, h₁, h⟩ := h
    cases h
    have hadded := vtabAddParameter_parameters h₁
    rw [if_neg (not_or.mpr ⟨hnull, hnotNull⟩)]
    refine ⟨hadded, fun parameters hprefix => .compare hin ⟨hnull, hnotNull⟩ hoperator ?_⟩
    rw [hadded] at hprefix ⊢
    exact getElem?_added hprefix

/-- **One constraint**: its parameters are appended, and the condition reads them. -/
theorem buildPredicate_spec {predicate : Option SqlPredicate}
    (h : buildPredicate arguments c s = some (predicate, s')) :
    s'.parameters = s.parameters ++ constraintParameters arguments c ∧
      ∀ parameters, s'.parameters <+: parameters → Writes parameters arguments c predicate := by
  rw [buildPredicate] at h
  rw [constraintParameters, constraintValues]
  split at h
  · rename_i hwindow
    cases h
    rw [if_pos hwindow]
    exact ⟨(List.append_nil _).symm, fun _ _ => .window hwindow⟩
  rename_i hwindow
  rw [if_neg hwindow]
  split at h
  · rename_i hin
    rw [if_pos hin]
    exact buildIn_spec hin h
  rename_i hin
  rw [if_neg hin]
  rw [Bool.not_eq_true] at hin
  split at h
  · rename_i hskip
    cases h
    rw [if_pos hskip]
    exact ⟨(List.append_nil _).symm, fun _ _ => .skipValue hin hskip⟩
  · rename_i hskip
    rw [if_neg hskip]
    exact buildComparison_spec hin h

/-- **The loop over the constraints**: the parameters in order, and for each constraint what was
written for it. -/
theorem buildClauses_spec {fieldCount : ℕ} : ∀ {constraints : List PlanConstraint}
    {s s' : ParameterState} {clauses : List SqlClause}
    (_ : buildClauses fieldCount arguments constraints s = some (clauses, s')),
    s'.parameters = s.parameters ++ constraints.flatMap (constraintParameters arguments) ∧
      ∀ parameters, s'.parameters <+: parameters →
        ∃ predicates, List.Forall₂ (Writes parameters arguments) constraints predicates ∧
          clauses = zipClauses constraints predicates
  | [], s, s', clauses, h => by
    cases h
    exact ⟨(List.append_nil _).symm, fun _ _ => ⟨[], .nil, rfl⟩⟩
  | c :: rest, s, s', clauses, h => by
    simp only [buildClauses, Option.bind_eq_bind, Option.bind_eq_some_iff] at h
    obtain ⟨⟨predicate, s₁⟩, h₁, ⟨clauses', s₂⟩, h₂, h⟩ := h
    obtain ⟨hparameters₁, hwrites₁⟩ := buildPredicate_spec h₁
    obtain ⟨hparameters₂, hwrites₂⟩ := buildClauses_spec h₂
    have hs₁ : s₁.parameters <+: s₂.parameters := hparameters₂ ▸ List.prefix_append _ _
    have hall : s₂.parameters =
        s.parameters ++ (c :: rest).flatMap (constraintParameters arguments) := by
      rw [hparameters₂, hparameters₁, List.flatMap_cons, List.append_assoc]
    match predicate with
    | none =>
      cases h
      refine ⟨hall, fun parameters hprefix => ?_⟩
      obtain ⟨predicates, hrest, hclauses⟩ := hwrites₂ parameters hprefix
      exact ⟨none :: predicates, .cons (hwrites₁ _ (hs₁.trans hprefix)) hrest, hclauses⟩
    | some predicate =>
      obtain ⟨-, h⟩ := Option.ite_none_right_eq_some.mp h
      cases h
      refine ⟨hall, fun parameters hprefix => ?_⟩
      obtain ⟨predicates, hrest, hclauses⟩ := hwrites₂ parameters hprefix
      exact ⟨some predicate :: predicates, .cons (hwrites₁ _ (hs₁.trans hprefix)) hrest,
        by rw [hclauses]; rfl⟩

/-- The parameter of LIMIT or OFFSET is always read. -/
theorem input_window (value : Int64) :
    PgValue.input (parameterOf (.integer value) 20 .integer) = some (.int value.toInt) := by
  have hrange : inIntegerRange 20 value.toInt = true := by
    simp only [inIntegerRange, Bool.and_eq_true, decide_eq_true_eq]
    exact ⟨value.le_toInt, value.toInt_lt⟩
  rw [input_int rfl rfl]
  exact if_pos hrange

theorem buildWindow_spec {windows : List SqlWindow}
    (h : buildWindow arguments c s = some (windows, s')) :
    ∃ added, s'.parameters = s.parameters ++ added ∧
      ∀ p ∈ added, ∃ v, PgValue.input p = some v := by
  unfold buildWindow at h
  split at h
  · cases h
    exact ⟨[], (List.append_nil _).symm, nofun⟩
  split at h
  · rename_i value _
    split at h
    · cases h
      exact ⟨[], (List.append_nil _).symm, nofun⟩
    split at h
    · cases h
      exact ⟨[], (List.append_nil _).symm, nofun⟩
    · simp only [Option.bind_eq_bind, Option.bind_eq_some_iff] at h
      obtain ⟨s₁, h₁, h⟩ := h
      cases h
      refine ⟨_, vtabAddParameter_parameters h₁, fun p hp => ?_⟩
      rw [List.mem_singleton.mp hp]
      exact ⟨_, input_window value⟩
  · nomatch h

/-- The windows add values that can be sent. -/
theorem buildWindows_spec : ∀ {constraints : List PlanConstraint} {s s' : ParameterState}
    {windows : List SqlWindow} (_ : buildWindows arguments constraints s = some (windows, s')),
    ∃ added, s'.parameters = s.parameters ++ added ∧
      ∀ p ∈ added, ∃ v, PgValue.input p = some v
  | [], s, s', windows, h => by
    cases h
    exact ⟨[], (List.append_nil _).symm, nofun⟩
  | c :: rest, s, s', windows, h => by
    simp only [buildWindows, Option.bind_eq_bind, Option.bind_eq_some_iff] at h
    obtain ⟨⟨window, s₁⟩, h₁, ⟨windows', s₂⟩, h₂, h⟩ := h
    cases h
    obtain ⟨added₁, hparameters₁, hread₁⟩ := buildWindow_spec h₁
    obtain ⟨added₂, hparameters₂, hread₂⟩ := buildWindows_spec h₂
    refine ⟨added₁ ++ added₂, by rw [hparameters₂, hparameters₁, List.append_assoc], ?_⟩
    intro p hp
    exact (List.mem_append.mp hp).elim (hread₁ p) (hread₂ p)

/-- **What an execution consists of**: what each constraint writes, its parameters, and LIMIT and
OFFSET parameters that are always read. -/
theorem vtabBuildExecution_spec {fieldCount : ℕ} {plan : CompiledPlan} {room : Bool}
    {execution : Execution}
    (h : vtabBuildExecution fieldCount plan arguments room = some execution) :
    (∃ predicates,
      List.Forall₂ (Writes execution.parameters arguments) plan.constraints predicates ∧
      execution.clauses = zipClauses plan.constraints predicates) ∧
    ((∃ values, execution.parameters.mapM PgValue.input = some values) ↔
      ∀ c ∈ plan.constraints, ∀ p ∈ constraintParameters arguments c,
        ∃ v, PgValue.input p = some v) := by
  unfold vtabBuildExecution at h
  split at h
  · nomatch h
  simp only [Option.bind_eq_bind, Option.bind_eq_some_iff] at h
  obtain ⟨⟨clauses, s₁⟩, h₁, ⟨windows, s₂⟩, h₂, h⟩ := h
  cases h
  obtain ⟨hparameters, hwrites⟩ := buildClauses_spec h₁
  obtain ⟨added, hwindows, hread⟩ := buildWindows_spec h₂
  refine ⟨hwrites _ (hwindows ▸ List.prefix_append _ _), ?_⟩
  rw [exists_mapM_iff, hwindows, hparameters, List.nil_append]
  constructor
  · intro hall c hc p hp
    exact hall p (List.mem_append_left _ (List.mem_flatMap.mpr ⟨c, hc, hp⟩))
  · intro hall p hp
    rcases List.mem_append.mp hp with hp | hp
    · obtain ⟨c, hc, hp⟩ := List.mem_flatMap.mp hp
      exact hall c hc p hp
    · exact hread p hp

end Writes

end Vps
