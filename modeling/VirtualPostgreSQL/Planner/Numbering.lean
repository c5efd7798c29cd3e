import VirtualPostgreSQL.Planner.Execution
import VirtualPostgreSQL.Planner.Projection

/-!
# Planner/Numbering — arguments, placeholders and parameters are counted through

A compilation numbers the arguments it wants, and an execution numbers the placeholders it writes; a
constraint may drop out in between.  `plannerCompile_countsArguments` is the first count and
`Numbers` the second one, along every step of `vps_vtab_build_execution`; with it goes the buffer
that the values are stored in.
-/

namespace Vps

open Machinery

/-! ## The arguments of a plan -/

/-- The constraint compares with a value. -/
def PlanConstraint.takesValue (c : PlanConstraint) : Bool :=
  c.operation != .isNull && c.operation != .isNotNull

/-- The argument numbers of the constraints that compare with a value. -/
def argumentNumbers (constraints : List PlanConstraint) : List ℕ :=
  (constraints.filter PlanConstraint.takesValue).map (·.argumentIndex)

/-- **The arguments are counted through**: one for each constraint that compares with a value, and
none for the others. -/
structure CountsArguments (constraints : List PlanConstraint) (count : ℕ) : Prop where
  numbers : Counts 0 count (argumentNumbers constraints)
  others : ∀ c ∈ constraints, c.takesValue = false → c.argumentIndex = 0

/-- An input marked as a list is an equality, not a NULL test. -/
def PlannerConstraintInput.Lists (input : PlannerConstraintInput) : Prop :=
  input.isIn = true → input.operation ≠ .isNull ∧ input.operation ≠ .isNotNull

/-- An input asks for a list by its own fields. -/
instance (input : PlannerConstraintInput) : Decidable input.Lists :=
  inferInstanceAs (Decidable (_ → _))

section Arguments

variable {constraints : List PlanConstraint} {count : ℕ} {c : PlanConstraint}

theorem CountsArguments.nil : CountsArguments [] 0 := ⟨Counts.nil 0, fun _ h => nomatch h⟩

/-- A constraint with a value is given the next argument… -/
theorem CountsArguments.push_value (h : CountsArguments constraints count)
    (hvalue : c.takesValue = true) (hindex : c.argumentIndex = count + 1) :
    CountsArguments (constraints ++ [c]) (count + 1) where
  numbers := by
    have hone : argumentNumbers [c] = [count + 1] := by
      rw [argumentNumbers, List.filter_cons_of_pos hvalue, ← hindex]
      rfl
    have := h.numbers.append (hone ▸ Counts.one count)
    rwa [argumentNumbers, argumentNumbers, ← List.map_append, ← List.filter_append] at this
  others d hd hnone := by
    rcases List.mem_append.mp hd with hd | hd
    · exact h.others d hd hnone
    · rw [List.mem_singleton.mp hd] at hnone
      exact nomatch hvalue.symm.trans hnone

/-- …one without is given none. -/
theorem CountsArguments.push_none (h : CountsArguments constraints count)
    (hvalue : c.takesValue = false) (hindex : c.argumentIndex = 0) :
    CountsArguments (constraints ++ [c]) count where
  numbers := by
    have hnone : argumentNumbers (constraints ++ [c]) = argumentNumbers constraints := by
      rw [argumentNumbers, List.filter_append, List.filter_cons_of_neg (by simp [hvalue]),
        List.filter_nil, List.append_nil]
      rfl
    exact hnone ▸ h.numbers
  others d hd hnone := by
    rcases List.mem_append.mp hd with hd | hd
    · exact h.others d hd hnone
    · exact List.mem_singleton.mp hd ▸ hindex

variable {request : PlannerRequest} {s s' : CompileState}

/-- The pushed input takes the next argument, or none. -/
theorem takesValue_planConstraintOf (request : PlannerRequest) {input : PlannerConstraintInput}
    (h : input.Lists) (n : ℕ) :
    (planConstraintOf request input n).takesValue = true ∧
        (planConstraintOf request input n).argumentIndex = n + 1 ∨
      (planConstraintOf request input n).takesValue = false ∧
        (planConstraintOf request input n).argumentIndex = 0 := by
  rw [PlannerConstraintInput.Lists] at h
  simp only [PlanConstraint.takesValue, planConstraintOf, PlannerConstraintInput.planOperation]
  by_cases hin : input.isIn = true
  · obtain ⟨hnull, hnotNull⟩ := h hin
    exact .inl (by simp [hin, hnull, hnotNull])
  · by_cases hnull : input.operation = .isNull ∨ input.operation = .isNotNull
    · refine .inr ?_
      rcases hnull with hnull | hnull <;> simp [hin, hnull]
    · rw [not_or] at hnull
      exact .inl (by simp [hin, hnull.1, hnull.2])

/-- **A constraint that is compiled keeps the count.** -/
theorem CountsArguments.compileConstraint {input : PlannerConstraintInput}
    (h : CountsArguments s.constraints s.argumentCount)
    (hlists : request.pushable input = true → input.Lists)
    (hstep : Vps.compileConstraint request s input = .ok s') :
    CountsArguments s'.constraints s'.argumentCount := by
  by_cases hpush : request.pushable input = true
  · have hroom : s.constraints.length < planMaxConstraints := by
      by_contra hfull
      simp only [PlannerRequest.pushable, Bool.and_eq_true] at hpush
      unfold Vps.compileConstraint at hstep
      rw [if_neg (by simp [hpush.1]), if_neg (by simp [hpush.2]),
        if_pos (Nat.not_lt.mp hfull)] at hstep
      cases hstep
    rw [compileConstraint_of_pushable hpush hroom] at hstep
    split at hstep
    · cases hstep
    cases hstep
    rcases takesValue_planConstraintOf request (hlists hpush) s.argumentCount with
      ⟨hvalue, hindex⟩ | ⟨hvalue, hindex⟩
    · have := h.push_value hvalue hindex
      simpa [CompileState.pushed, hindex] using this
    · have := h.push_none hvalue hindex
      simpa [CompileState.pushed, hindex] using this
  · obtain ⟨recheck, hskip⟩ := compileConstraint_of_not_pushable s hpush
    cases hskip.symm.trans hstep
    exact h

/-- So does a LIMIT or an OFFSET. -/
theorem CountsArguments.compileWindow {input : PlannerConstraintInput}
    (h : CountsArguments s.constraints s.argumentCount)
    (hstep : Vps.compileWindow s input = .ok s') :
    CountsArguments s'.constraints s'.argumentCount := by
  unfold Vps.compileWindow at hstep
  split at hstep
  · cases hstep
    exact h
  rename_i hpush
  split at hstep
  · cases hstep
  cases hstep
  refine h.push_value ?_ rfl
  simp only [PlannerConstraintInput.isWindow, Bool.or_eq_true, Bool.not_eq_true', not_or,
    Bool.not_eq_false, beq_iff_eq] at hpush
  rcases hpush.1.2 with hop | hop <;> simp [PlanConstraint.takesValue, planWindowOf, hop]

/-- **The arguments of a compiled plan** are counted through, where no NULL test is marked as a
list. -/
theorem plannerCompile_countsArguments {plan : CompiledPlan} (h : plannerCompile request = .ok plan)
    (hlists : ∀ input ∈ request.constraints, request.pushable input = true → input.Lists) :
    CountsArguments plan.constraints plan.argumentCount := by
  unfold plannerCompile at h
  split at h
  · cases h
  split at h
  · cases h
  obtain ⟨s₁, h₁, h⟩ := ok_of_bind h
  obtain ⟨s₂, h₂, h⟩ := ok_of_bind h
  obtain ⟨s₃, h₃, h⟩ := ok_of_bind h
  cases h
  have hs₁ : CountsArguments s₁.constraints s₁.argumentCount :=
    foldlM_invariant_mem (I := fun s => CountsArguments s.constraints s.argumentCount)
      (fun s input s' hinput hs hstep => hs.compileConstraint (hlists input hinput) hstep)
      CountsArguments.nil h₁
  have hs₂ : CountsArguments s₂.constraints s₂.argumentCount := by
    unfold compileOrder at h₂
    split at h₂
    · split at h₂
      · cases h₂
      · cases h₂
        exact hs₁
    · split at h₂ <;> cases h₂ <;> exact hs₁
  exact foldlM_invariant (I := fun s => CountsArguments s.constraints s.argumentCount)
    (fun s input s' hs hstep => hs.compileWindow hstep) hs₂ h₃

/-- A NULL test marked as a list is a constraint IN without an argument. -/
theorem lists_of_countsArguments {plan : CompiledPlan} (h : plannerCompile request = .ok plan)
    (hcounts : CountsArguments plan.constraints plan.argumentCount) :
    ∀ input ∈ request.constraints, request.pushable input = true → input.Lists := by
  intro input hinput hpush hin
  by_contra hnull
  obtain ⟨outputs, windows, hconstraints, houtputs, -, -, -⟩ := plannerCompile_spec h
  obtain ⟨c, hc, argumentCount, rfl⟩ :=
    forall₂_exists_left houtputs (List.mem_filter.mpr ⟨hinput, hpush⟩)
  have hzero : (planConstraintOf request input argumentCount).argumentIndex = 0 := by
    rw [not_and_or, not_ne_iff, not_ne_iff] at hnull
    simp [planConstraintOf, hnull]
  have hmem : 0 ∈ argumentNumbers plan.constraints := by
    refine List.mem_map.mpr ⟨_, List.mem_filter.mpr
      ⟨hconstraints ▸ List.mem_append_left _ hc, ?_⟩, hzero⟩
    simp [PlanConstraint.takesValue, planConstraintOf, PlannerConstraintInput.planOperation, hin]
  rw [hcounts.numbers.2, List.mem_range'_1] at hmem
  omega

end Arguments

/-! ## The placeholders of an execution -/

/-- The placeholders of a condition, in the order of the text. -/
def SqlPredicate.placeholders : SqlPredicate → List ℕ
  | .never | .isNull _ | .isNotNull _ => []
  | .compare _ _ placeholder => [placeholder]
  | .isIn _ placeholders => placeholders

/-- The placeholders of LIMIT or OFFSET. -/
def SqlWindow.placeholders : SqlWindow → List ℕ
  | .limit placeholder | .offset placeholder => [placeholder]
  | .offsetZero => []

/-- The placeholders of a query, in the order of the text. -/
def Execution.placeholders (execution : Execution) : List ℕ :=
  execution.clauses.flatMap (·.predicate.placeholders) ++
    execution.windows.flatMap SqlWindow.placeholders

/-- The bytes of `parameter_bytes` that `vps_vtab_add_parameter` appends for a parameter: a text has
a zero byte behind it, and an empty blob one in its place. -/
def ClientParameter.storage (parameter : ClientParameter) : List UInt8 :=
  match parameter.value with
  | none => []
  | some bytes =>
    if parameter.binary then if bytes = [] then [0] else bytes
    else bytes ++ [0]

/-- `offsets` and `parameter_bytes` -/
structure ParameterBuffer where
  offsets : List ℕ
  bytes : List UInt8

/-- The parameter begins where the buffer ends. -/
def storeParameter (buffer : ParameterBuffer) (parameter : ClientParameter) : ParameterBuffer :=
  ⟨buffer.offsets ++ [buffer.bytes.length], buffer.bytes ++ parameter.storage⟩

/-- The buffer behind the parameters. -/
def parameterBuffer (parameters : List ClientParameter) : ParameterBuffer :=
  parameters.foldl storeParameter ⟨[], []⟩

/-- **Every value is read back at its offset**, within the buffer, and the buffer within its
limit. -/
structure InBuffer (parameters : List ClientParameter) : Prop where
  limit : (parameterBuffer parameters).bytes.length ≤ vtabParameterBytesLimit
  value : ∀ (k : ℕ) (value : List UInt8) (parameter : ClientParameter), parameters[k]? =
    some parameter →
    parameter.value = some value →
      ∃ offset, (parameterBuffer parameters).offsets[k]? = some offset ∧
      offset + value.length ≤ (parameterBuffer parameters).bytes.length ∧
      ((parameterBuffer parameters).bytes.drop offset).take value.length = value

section Buffer

theorem parameterBuffer_concat (parameters : List ClientParameter) (parameter : ClientParameter) :
    parameterBuffer (parameters ++ [parameter]) =
      storeParameter (parameterBuffer parameters) parameter := by
  rw [parameterBuffer, List.foldl_append]
  rfl

theorem length_offsets (parameters : List ClientParameter) :
    (parameterBuffer parameters).offsets.length = parameters.length := by
  induction parameters using List.reverseRecOn with
  | nil => rfl
  | append_singleton parameters parameter ih =>
    rw [parameterBuffer_concat, storeParameter, List.length_append, List.length_append, ih]
    rfl

/-- The value is the beginning of what is stored for it. -/
theorem value_prefix_storage {parameter : ClientParameter} {value : List UInt8}
    (h : parameter.value = some value) : value <+: parameter.storage := by
  rw [ClientParameter.storage, h]
  dsimp only
  split
  · split
    · rename_i hempty
      rw [hempty]
      exact List.nil_prefix
    · exact List.prefix_rfl
  · exact List.prefix_append _ _

/-- What is stored is as long as `vps_vtab_add_parameter` has counted. -/
theorem length_storage {value : SqliteValue} {typeOid : UInt32} {expected : PlanValueClass}
    {bytes : List UInt8} (h : (parameterOf value typeOid expected).value = some bytes) :
    (parameterOf value typeOid expected).storage.length =
      if expected = .blob then max bytes.length 1 else bytes.length + 1 := by
  rw [ClientParameter.storage, h]
  dsimp only
  by_cases hblob : expected = .blob
  · rw [if_pos (by simp [parameterOf, hblob]), if_pos hblob]
    cases bytes <;> simp
  · rw [if_neg (by simp [parameterOf, hblob]), if_neg hblob, List.length_append]
    rfl

/-- Parameters that fit into the limit stand in the buffer. -/
theorem inBuffer_of_limit {parameters : List ClientParameter}
    (h : (parameterBuffer parameters).bytes.length ≤ vtabParameterBytesLimit) :
    InBuffer parameters where
  limit := h
  value := by
    clear h
    induction parameters using List.reverseRecOn with
    | nil => simp
    | append_singleton parameters last ih =>
      intro k value parameter hk hvalue
      rw [parameterBuffer_concat, storeParameter]
      dsimp only
      rcases Nat.lt_or_ge k parameters.length with hlt | hge
      · rw [List.getElem?_append_left hlt] at hk
        obtain ⟨offset, hoffset, hle, hread⟩ := ih k value parameter hk hvalue
        refine ⟨offset, ?_, ?_, ?_⟩
        · rwa [List.getElem?_append_left (by rwa [length_offsets])]
        · rw [List.length_append]
          omega
        · rw [List.drop_append_of_le_length (by omega),
            List.take_append_of_le_length (by rw [List.length_drop]; omega), hread]
      · rw [List.getElem?_append_right hge] at hk
        rw [List.getElem?_singleton, Option.ite_none_right_eq_some, Option.some_inj] at hk
        obtain ⟨hzero, rfl⟩ := hk
        obtain ⟨rest, hstorage⟩ := value_prefix_storage hvalue
        refine ⟨(parameterBuffer parameters).bytes.length, ?_, ?_, ?_⟩
        · rw [List.getElem?_append_right (by rwa [length_offsets]), length_offsets, hzero]
          rfl
        · rw [← hstorage, List.length_append, List.length_append]
          omega
        · rw [List.drop_left, ← hstorage, List.take_left]

end Buffer

/-- The fill is that of the buffer, within its limit. -/
def ParameterState.Stored (s : ParameterState) : Prop :=
  s.stored = (parameterBuffer s.parameters).bytes.length ∧ s.stored ≤ vtabParameterBytesLimit

/-- **From one state to another** the placeholders are counted through, and the values stored. -/
structure Numbers (s s' : ParameterState) (placeholders : List ℕ) : Prop where
  counts : Counts s.parameters.length s'.parameters.length placeholders
  stored : s.Stored → s'.Stored

namespace Numbers

variable {s s' s'' : ParameterState} {placeholders more : List ℕ}
    {arguments : List ConstraintOperand}
  {c : PlanConstraint}

theorem nil (s : ParameterState) : Numbers s s [] := ⟨Counts.nil _, id⟩

/-- Placeholders that count on from others count up together. -/
theorem append (h : Numbers s s' placeholders) (h' : Numbers s' s'' more) :
    Numbers s s'' (placeholders ++ more) := ⟨h.counts.append h'.counts, h'.stored ∘ h.stored⟩

/-- **One parameter**: its placeholder is the next number. -/
theorem one {value : SqliteValue} {typeOid : UInt32} {expected : PlanValueClass}
    (h : vtabAddParameter s value typeOid expected = some s') :
    Numbers s s' [s'.parameters.length] where
  counts := by
    have hlength : s'.parameters.length = s.parameters.length + 1 := by
      rw [vtabAddParameter_parameters h, List.length_append, List.length_singleton]
    rw [hlength]
    exact Counts.one _
  stored := by
    rintro ⟨hstored, hlimit⟩
    have hparameters := vtabAddParameter_parameters h
    have hbytes : (parameterBuffer s'.parameters).bytes.length =
        s.stored + (parameterOf value typeOid expected).storage.length := by
      rw [hparameters, parameterBuffer_concat, storeParameter, List.length_append, hstored]
    rw [ParameterState.Stored, hbytes]
    unfold vtabAddParameter at h
    split at h
    · cases h
    dsimp only at h
    split at h
    · rename_i hnull
      cases h
      rw [ClientParameter.storage, hnull]
      exact ⟨rfl, hlimit⟩
    · rename_i bytes hvalue
      obtain ⟨hroom, h⟩ := Option.ite_none_left_eq_some.mp h
      obtain rfl := Option.some_inj.mp h
      exact ⟨by rw [length_storage hvalue], Nat.not_lt.mp hroom⟩

/-- The items of a list are numbered in their order. -/
theorem addItems : ∀ {list : List SqliteValue} {s s' : ParameterState} {placeholders : List ℕ}
    (_ : Vps.addItems c list s = some (placeholders, s')), Numbers s s' placeholders
  | [], s, s', placeholders, h => by
    cases h
    exact .nil s
  | item :: rest, s, s', placeholders, h => by
    simp only [Vps.addItems, Option.bind_eq_bind, Option.bind_eq_some_iff] at h
    obtain ⟨s₁, h₁, ⟨placeholders', s₂⟩, h₂, h⟩ := h
    cases h
    exact (one h₁).append (addItems h₂)

/-- The placeholders of what is written, if anything is. -/
theorem buildPredicate {predicate : Option SqlPredicate}
    (h : Vps.buildPredicate arguments c s = some (predicate, s')) :
    Numbers s s' ((predicate.map SqlPredicate.placeholders).getD []) := by
  rw [Vps.buildPredicate] at h
  split at h
  · cases h
    exact .nil s
  split at h
  · unfold buildIn at h
    split at h
    · cases h
      exact .nil s
    · cases h
      exact .nil s
    · simp only [Option.bind_eq_bind, Option.bind_eq_some_iff] at h
      obtain ⟨⟨placeholders, s₁⟩, h₁, h⟩ := h
      cases h
      exact addItems h₁
  split at h
  · cases h
    exact .nil s
  · unfold buildComparison at h
    split at h
    · cases h
      exact .nil s
    · cases h
      exact .nil s
    · simp only [Option.bind_eq_bind, Option.bind_eq_some_iff] at h
      obtain ⟨operator, -, s₁, h₁, h⟩ := h
      cases h
      exact one h₁

/-- The clauses of a plan are numbered in their order. -/
theorem buildClauses {fieldCount : ℕ} :
    ∀ {constraints : List PlanConstraint} {s s' : ParameterState} {clauses : List SqlClause}
    (_ : Vps.buildClauses fieldCount arguments constraints s = some (clauses, s')),
    Numbers s s' (clauses.flatMap (·.predicate.placeholders))
  | [], s, s', clauses, h => by
    cases h
    exact .nil s
  | c :: rest, s, s', clauses, h => by
    simp only [Vps.buildClauses, Option.bind_eq_bind, Option.bind_eq_some_iff] at h
    obtain ⟨⟨predicate, s₁⟩, h₁, ⟨clauses', s₂⟩, h₂, h⟩ := h
    have hall := (buildPredicate h₁).append (buildClauses h₂)
    cases predicate with
    | none =>
      cases h
      exact hall
    | some predicate =>
      obtain ⟨-, h⟩ := Option.ite_none_right_eq_some.mp h
      cases h
      exact hall

theorem buildWindow {windows : List SqlWindow}
    (h : Vps.buildWindow arguments c s = some (windows, s')) :
    Numbers s s' (windows.flatMap SqlWindow.placeholders) := by
  unfold Vps.buildWindow at h
  split at h
  · cases h
    exact .nil s
  split at h
  · split at h
    · cases h
      exact .nil s
    split at h
    · cases h
      exact .nil s
    · simp only [Option.bind_eq_bind, Option.bind_eq_some_iff] at h
      obtain ⟨s₁, h₁, h⟩ := h
      cases h
      split <;> exact one h₁
  · cases h

/-- So are its windows. -/
theorem buildWindows : ∀ {constraints : List PlanConstraint} {s s' : ParameterState}
    {windows : List SqlWindow} (_ : Vps.buildWindows arguments constraints s = some (windows, s')),
    Numbers s s' (windows.flatMap SqlWindow.placeholders)
  | [], s, s', windows, h => by
    cases h
    exact .nil s
  | c :: rest, s, s', windows, h => by
    simp only [Vps.buildWindows, Option.bind_eq_bind, Option.bind_eq_some_iff] at h
    obtain ⟨⟨window, s₁⟩, h₁, ⟨windows', s₂⟩, h₂, h⟩ := h
    cases h
    rw [List.flatMap_append]
    exact (buildWindow h₁).append (buildWindows h₂)

end Numbers

/-! ## LIMIT and OFFSET -/

/-- **What is written for a LIMIT or OFFSET**: nothing for a negative LIMIT, zero for a negative
OFFSET, else the argument. -/
inductive WritesWindow (parameters : List ClientParameter) (arguments : List ConstraintOperand)
    (c : PlanConstraint) : List SqlWindow → Prop
  | other (h : c.operation ≠ .limit ∧ c.operation ≠ .offset) :
    WritesWindow parameters arguments c []
  | endless (hop : c.operation = .limit) {value : Int64}
      (h : constraintArgument arguments c = some (.value (.integer value)))
      (hneg : value.toInt < 0) : WritesWindow parameters arguments c []
  | start (hop : c.operation = .offset) {value : Int64}
      (h : constraintArgument arguments c = some (.value (.integer value)))
      (hneg : value.toInt < 0) : WritesWindow parameters arguments c [.offsetZero]
  | limit (hop : c.operation = .limit) {value : Int64} {placeholder : ℕ}
      (h : constraintArgument arguments c = some (.value (.integer value)))
      (hvalue : parameters[placeholder - 1]? = some (parameterOf (.integer value) 20 .integer)) :
      WritesWindow parameters arguments c [.limit placeholder]
  | offset (hop : c.operation = .offset) {value : Int64} {placeholder : ℕ}
      (h : constraintArgument arguments c = some (.value (.integer value)))
      (hvalue : parameters[placeholder - 1]? = some (parameterOf (.integer value) 20 .integer)) :
      WritesWindow parameters arguments c [.offset placeholder]

section Windows

variable {arguments : List ConstraintOperand} {s s' : ParameterState} {c : PlanConstraint}

/-- A window that is built writes its argument… -/
theorem buildWindow_writes {windows : List SqlWindow}
    (h : buildWindow arguments c s = some (windows, s')) :
    s.parameters <+: s'.parameters ∧
      ∀ parameters, s'.parameters <+: parameters → WritesWindow parameters arguments c windows := by
  unfold buildWindow at h
  split at h
  · rename_i hother
    cases h
    exact ⟨List.prefix_rfl, fun _ _ => .other (by simpa using hother)⟩
  rename_i hwindow
  have hop : c.operation = .limit ∨ c.operation = .offset := by
    by_contra hop
    exact hwindow (by simpa [not_or] using hop)
  split at h
  · rename_i value hvalue
    split at h
    · rename_i hneg
      cases h
      simp only [Bool.and_eq_true, decide_eq_true_eq] at hneg
      exact ⟨List.prefix_rfl, fun _ _ => .endless hneg.1 hvalue hneg.2⟩
    split at h
    · rename_i hneg
      cases h
      simp only [Bool.and_eq_true, decide_eq_true_eq] at hneg
      exact ⟨List.prefix_rfl, fun _ _ => .start hneg.1 hvalue hneg.2⟩
    · simp only [Option.bind_eq_bind, Option.bind_eq_some_iff] at h
      obtain ⟨s₁, h₁, h⟩ := h
      cases h
      have hadded := vtabAddParameter_parameters h₁
      refine ⟨hadded ▸ List.prefix_append _ _, fun parameters hprefix => ?_⟩
      have hread : parameters[s'.parameters.length - 1]? =
          some (parameterOf (.integer value) 20 .integer) := by
        rw [hadded] at hprefix ⊢
        exact getElem?_added hprefix
      split
      · rename_i hlimit
        exact .limit hlimit hvalue hread
      · rename_i hlimit
        exact .offset (hop.resolve_left hlimit) hvalue hread
  · cases h

/-- …and so do all of them, in order. -/
theorem buildWindows_writes : ∀ {constraints : List PlanConstraint} {s s' : ParameterState}
    {windows : List SqlWindow} (_ : buildWindows arguments constraints s = some (windows, s')),
    s.parameters <+: s'.parameters ∧ ∀ parameters, s'.parameters <+: parameters →
      ∃ written, List.Forall₂ (WritesWindow parameters arguments) constraints written ∧
        windows = written.flatten
  | [], s, s', windows, h => by
    cases h
    exact ⟨List.prefix_rfl, fun _ _ => ⟨[], .nil, rfl⟩⟩
  | c :: rest, s, s', windows, h => by
    simp only [buildWindows, Option.bind_eq_bind, Option.bind_eq_some_iff] at h
    obtain ⟨⟨window, s₁⟩, h₁, ⟨windows', s₂⟩, h₂, h⟩ := h
    cases h
    obtain ⟨hprefix₁, hwrites₁⟩ := buildWindow_writes h₁
    obtain ⟨hprefix₂, hwrites₂⟩ := buildWindows_writes h₂
    refine ⟨hprefix₁.trans hprefix₂, fun parameters hprefix => ?_⟩
    obtain ⟨written, hrest, rfl⟩ := hwrites₂ parameters hprefix
    exact ⟨window :: written, .cons (hwrites₁ _ (hprefix₂.trans hprefix)) hrest, rfl⟩

end Windows

end Vps
