import VirtualPostgreSQL.Planner.RoundTrip

/-!
# Planner/Projection — the columns a compilation adds, and when there is no room

Whatever comes into the projection goes through `vps_plan_add_projection`: the used columns and the
keys, then the columns of the pushed constraints, then those of an order that is consumed.  They are
`PlannerRequest.additions`, and a compilation is a run of `planAddProjection` over them: it fails
exactly if that run does (`plannerCompile_judged`), which is when the projection holds all 1024
columns before the last of them (`planAddAll_eq_none_iff`).
-/

namespace Vps

open Machinery

/-! ## One column -/

section Add

variable {projection projection' : List ℕ} {column : ℕ}

theorem planAddProjection_of_room (hcolumn : column < planMaxColumns)
    (hroom : projection.length < planMaxColumns) :
    planAddProjection projection column =
      some (if column ∈ projection then projection else projection ++ [column]) := by
  have hsmall : ¬column > 65535 := by
    rw [planMaxColumns] at hcolumn
    omega
  unfold planAddProjection
  rw [if_neg (by simp [hsmall, hroom])]
  by_cases hmem : column ∈ projection
  · rw [if_pos (by simpa using hmem), if_pos hmem]
  · rw [if_neg (by simpa using hmem), if_neg hmem]

theorem planAddProjection_of_full (hfull : planMaxColumns ≤ projection.length) :
    planAddProjection projection column = none := by
  unfold planAddProjection
  rw [if_pos (by simp [hfull])]

/-- The columns of the projection are the ones it had, and the one that is added. -/
theorem mem_planAddProjection (h : planAddProjection projection column = some projection') {c : ℕ} :
    c ∈ projection' ↔ c ∈ projection ∨ c = column := by
  unfold planAddProjection at h
  split at h
  · cases h
  split at h
  · rename_i hmem
    cases h
    rw [List.contains_eq_mem, decide_eq_true_eq] at hmem
    exact ⟨.inl, fun hc => hc.elim id fun hc => hc ▸ hmem⟩
  · cases h
    rw [List.mem_append, List.mem_singleton]

/-- A projection is full when it has every column. -/
theorem Projects.full_iff (h : Projects projection) :
    planMaxColumns ≤ projection.length ↔ ∀ c < planMaxColumns, c ∈ projection := by
  constructor
  · intro hfull c hc
    have hsub : projection ⊆ List.range planMaxColumns := fun d hd => List.mem_range.mpr (h.lt d hd)
    have hperm := (h.once.subperm hsub).perm_of_length_le (by rwa [List.length_range])
    exact hperm.mem_iff.mpr (List.mem_range.mpr hc)
  · intro hall
    have hsub : List.range planMaxColumns ⊆ projection := fun c hc => hall c (List.mem_range.mp hc)
    simpa using (List.nodup_range.subperm hsub).length_le

end Add

/-! ## A list of columns -/

/-- The columns are added one behind the other. -/
def planAddAll (additions projection : List ℕ) : Option (List ℕ) :=
  additions.foldlM planAddProjection projection

theorem planAddAll_nil (projection : List ℕ) : planAddAll [] projection = some projection := rfl

theorem planAddAll_cons (column : ℕ) (rest projection : List ℕ) :
    planAddAll (column :: rest) projection =
      (planAddProjection projection column).bind (planAddAll rest) := List.foldlM_cons

theorem planAddAll_append (additions more projection : List ℕ) :
    planAddAll (additions ++ more) projection =
      (planAddAll additions projection).bind (planAddAll more) := List.foldlM_append

/-- **There is no room** for the columns exactly if the projection is full before the last of
them. -/
theorem planAddAll_eq_none_iff {additions projection : List ℕ} (h : Projects projection)
    (hcolumns : ∀ column ∈ additions, column < planMaxColumns) :
    planAddAll additions projection = none ↔
      additions ≠ [] ∧ ∀ c < planMaxColumns, c ∈ projection ++ additions.dropLast := by
  induction additions generalizing projection with
  | nil => simp [planAddAll_nil]
  | cons column rest ih =>
    obtain ⟨hcolumn, hrest⟩ := List.forall_mem_cons.mp hcolumns
    rw [planAddAll_cons]
    by_cases hfull : planMaxColumns ≤ projection.length
    · rw [planAddProjection_of_full hfull]
      exact iff_of_true rfl ⟨List.cons_ne_nil _ _, fun c hc =>
        List.mem_append_left _ (h.full_iff.mp hfull c hc)⟩
    have hadd := planAddProjection_of_room hcolumn (Nat.not_le.mp hfull)
    rw [hadd, Option.bind_some, ih (h.add hcolumn hadd) hrest]
    cases rest with
    | nil =>
      refine iff_of_false (fun hne => hne.1 rfl) fun hall => hfull (h.full_iff.mpr fun c hc => ?_)
      simpa using hall.2 c hc
    | cons next rest =>
      rw [List.dropLast_cons_of_ne_nil (List.cons_ne_nil next rest)]
      simp only [ne_eq, List.cons_ne_nil, not_false_eq_true, true_and, List.mem_append,
        mem_planAddProjection hadd, List.mem_cons, or_assoc]

/-- The projection has the columns it had, and the ones that are added. -/
theorem mem_planAddAll {additions projection projection' : List ℕ}
    (h : planAddAll additions projection = some projection') {c : ℕ} :
    c ∈ projection' ↔ c ∈ projection ∨ c ∈ additions := by
  induction additions generalizing projection with
  | nil =>
    obtain rfl := Option.some_inj.mp h
    simp
  | cons column rest ih =>
    rw [planAddAll_cons] at h
    obtain ⟨added, hadd, hrest⟩ := Option.bind_eq_some_iff.mp h
    rw [ih hrest, mem_planAddProjection hadd, List.mem_cons, or_assoc]

/-! ## The columns of a request -/

namespace PlannerRequest

variable (request : PlannerRequest)

/-- The column is marked used, or a key. -/
def wanted (column : ℕ) : Bool :=
  planColumnUsed request.columnsUsed column || planIsKey request column

/-- The wanted columns; the first one when none is. -/
def baseColumns : List ℕ :=
  match (List.range request.columns.length).filter request.wanted with
  | [] => [0]
  | column :: rest => column :: rest

/-- The columns of the constraints that are pushed. -/
def pushedColumns : List ℕ :=
  (request.constraints.filter request.pushable).map (·.column.toNat)

/-- The columns of an order that is consumed. -/
def orderColumns : List ℕ :=
  if request.orderExact then request.orderTerms.map (·.column) else []

/-- **Everything that comes into the projection**, in order. -/
def additions : List ℕ := request.baseColumns ++ request.pushedColumns ++ request.orderColumns

variable {request}

theorem baseColumns_ne_nil : request.baseColumns ≠ [] := by
  unfold baseColumns
  split <;> exact List.cons_ne_nil _ _

theorem pushable_column {input : PlannerConstraintInput} (h : request.pushable input = true) :
    0 ≤ input.column ∧ input.column.toNat < request.columns.length := by
  simp only [pushable, eligible, Bool.and_eq_true, decide_eq_true_eq] at h
  exact ⟨h.1.1.2, h.1.2⟩

theorem orderExact_column (h : request.orderExact = true) {term : PlannerOrderInput}
    (hterm : term ∈ request.orderTerms) : term.column < request.columns.length := by
  have hexact := List.all_eq_true.mp h term hterm
  unfold orderTermExact at hexact
  split at hexact
  · cases hexact
  · rename_i column hcolumn
    exact (List.getElem?_eq_some_iff.mp hcolumn).1

/-- **Only columns of the table are added.** -/
theorem additions_lt (h : request.columns.length ≠ 0) :
    ∀ column ∈ request.additions, column < request.columns.length := by
  intro column hcolumn
  simp only [additions, List.mem_append] at hcolumn
  rcases hcolumn with (hcolumn | hcolumn) | hcolumn
  · unfold baseColumns at hcolumn
    split at hcolumn
    · rw [List.mem_singleton.mp hcolumn]
      exact Nat.pos_of_ne_zero h
    · rename_i hfilter
      rw [← hfilter, List.mem_filter, List.mem_range] at hcolumn
      exact hcolumn.1
  · obtain ⟨input, hinput, rfl⟩ := List.mem_map.mp hcolumn
    exact (pushable_column (List.mem_filter.mp hinput).2).2
  · unfold orderColumns at hcolumn
    split at hcolumn
    · rename_i hexact
      obtain ⟨term, hterm, rfl⟩ := List.mem_map.mp hcolumn
      exact orderExact_column hexact hterm
    · cases hcolumn

end PlannerRequest

/-! ## The loops -/

theorem planProject_eq (request : PlannerRequest) (columns projection : List ℕ) :
    planProject request columns projection =
      planAddAll (columns.filter request.wanted) projection := by
  induction columns generalizing projection with
  | nil => rfl
  | cons column rest ih =>
    rw [planProject]
    change (if request.wanted column = true then _ else _) = _
    by_cases hwanted : request.wanted column = true
    · rw [if_pos hwanted, List.filter_cons_of_pos hwanted, planAddAll_cons]
      exact congrArg _ (funext ih)
    · rw [if_neg hwanted, List.filter_cons_of_neg hwanted, ih]

theorem planProjectOrder_eq (terms : List PlannerOrderInput) (projection : List ℕ) :
    planProjectOrder terms projection = planAddAll (terms.map (·.column)) projection := by
  induction terms generalizing projection with
  | nil => rfl
  | cons term rest ih =>
    rw [planProjectOrder, List.map_cons, planAddAll_cons]
    exact congrArg _ (funext ih)

/-- The projection that a compilation begins with. -/
theorem planBaseProjection_eq (request : PlannerRequest) :
    planBaseProjection request = planAddAll request.baseColumns [] := by
  unfold planBaseProjection
  rw [planProject_eq]
  unfold PlannerRequest.baseColumns
  split
  · rename_i hnil
    rw [hnil]
    rfl
  · rename_i column rest hfilter
    rw [hfilter]
    cases hadd : planAddAll (column :: rest) [] with
    | none => rfl
    | some projection =>
      have hmem : column ∈ projection := (mem_planAddAll hadd).mpr (.inr List.mem_cons_self)
      rw [Option.bind_some, if_neg]
      rw [List.length_eq_zero_iff]
      exact List.ne_nil_of_mem hmem

/-- The state behind a pushed input. -/
def CompileState.pushed (s : CompileState) (request : PlannerRequest)
    (input : PlannerConstraintInput) (projection : List ℕ) : CompileState :=
  let output := planConstraintOf request input s.argumentCount
  { constraints := s.constraints ++ [output]
    argumentCount := if output.argumentIndex = 0 then s.argumentCount else s.argumentCount + 1
    projection := projection
    hasRecheck := s.hasRecheck || input.isIn
    exactKeyParts :=
      if output.flags.key && !input.isIn && input.operation == .eq then s.exactKeyParts + 1
      else s.exactKeyParts }

theorem compileConstraint_of_pushable {request : PlannerRequest} {s : CompileState}
    {input : PlannerConstraintInput} (hpush : request.pushable input = true)
    (hroom : s.constraints.length < planMaxConstraints) :
    compileConstraint request s input =
      match planAddProjection s.projection input.column.toNat with
      | none => .error .limitExceeded
      | some projection => .ok (s.pushed request input projection) := by
  simp only [PlannerRequest.pushable, Bool.and_eq_true] at hpush
  unfold compileConstraint
  rw [if_neg (by simp [hpush.1]), if_neg (by simp [hpush.2]), if_neg (Nat.not_le.mpr hroom)]
  rfl

/-- An input that is not pushed changes no more than the recheck. -/
theorem compileConstraint_of_not_pushable {request : PlannerRequest} (s : CompileState)
    {input : PlannerConstraintInput} (hpush : ¬request.pushable input = true) :
    ∃ recheck, compileConstraint request s input = .ok { s with hasRecheck := recheck } := by
  unfold compileConstraint
  by_cases heligible : request.eligible input = true
  · have hexact : request.exact input = false := by
      simpa [PlannerRequest.pushable, heligible] using hpush
    exact ⟨true, by rw [if_neg (by simp [heligible]), if_pos (by simp [hexact])]⟩
  · exact ⟨s.hasRecheck, by rw [if_pos (by simpa using heligible)]⟩

/-- **The constraint loop** adds the columns of the pushed inputs, or has no room for them. -/
theorem compileConstraints_judged (request : PlannerRequest) :
    ∀ (inputs : List PlannerConstraintInput) (s : CompileState),
      s.constraints.length + (inputs.filter request.pushable).length ≤ planMaxConstraints →
      match planAddAll ((inputs.filter request.pushable).map (·.column.toNat)) s.projection with
      | none => inputs.foldlM (compileConstraint request) s = .error .limitExceeded
      | some projection => ∃ s', inputs.foldlM (compileConstraint request) s = .ok s' ∧
          s'.projection = projection ∧
          s'.constraints.length = s.constraints.length + (inputs.filter request.pushable).length
  | [], s, _ => ⟨s, rfl, rfl, rfl⟩
  | input :: rest, s, hroom => by
    rw [List.foldlM_cons]
    by_cases hpush : request.pushable input = true
    · rw [List.filter_cons_of_pos hpush] at hroom ⊢
      rw [List.length_cons] at hroom
      rw [List.map_cons, planAddAll_cons, compileConstraint_of_pushable hpush (by omega)]
      cases planAddProjection s.projection input.column.toNat with
      | none => rfl
      | some projection =>
        have hlength : (s.pushed request input projection).constraints.length =
            s.constraints.length + 1 := by
          rw [CompileState.pushed, List.length_append, List.length_singleton]
        have hrest := compileConstraints_judged request rest (s.pushed request input projection)
          (by omega)
        rw [hlength] at hrest
        rw [List.length_cons, Nat.add_comm _ 1, ← Nat.add_assoc]
        exact hrest
    · rw [List.filter_cons_of_neg hpush] at hroom ⊢
      obtain ⟨recheck, hskip⟩ := compileConstraint_of_not_pushable s hpush
      rw [hskip]
      exact compileConstraints_judged request rest { s with hasRecheck := recheck } hroom

/-- The order adds its columns, or has no room for them. -/
theorem compileOrder_judged (request : PlannerRequest) (s : CompileState) :
    match planAddAll request.orderColumns s.projection with
    | none => compileOrder request s = .error .limitExceeded
    | some projection => ∃ s', compileOrder request s = .ok s' ∧ s'.projection = projection ∧
        s'.constraints = s.constraints := by
  unfold PlannerRequest.orderColumns compileOrder
  rw [planProjectOrder_eq]
  by_cases hexact : request.orderExact = true
  · rw [if_pos hexact, if_pos hexact]
    cases planAddAll (request.orderTerms.map (·.column)) s.projection with
    | none => rfl
    | some projection => exact ⟨_, rfl, rfl, rfl⟩
  · rw [if_neg hexact, if_neg hexact, planAddAll_nil]
    by_cases hlength : request.orderTerms.length ≠ 0
    · exact ⟨{ s with hasRecheck := true }, if_pos hlength, rfl, rfl⟩
    · exact ⟨s, if_neg hlength, rfl, rfl⟩

/-- LIMIT and OFFSET have room, and add no column. -/
theorem compileWindows_ok : ∀ (inputs : List PlannerConstraintInput) (s : CompileState),
    s.constraints.length + (inputs.filter PlannerConstraintInput.isWindow).length ≤
      planMaxConstraints →
    ∃ s', inputs.foldlM compileWindow s = .ok s' ∧ s'.projection = s.projection
  | [], s, _ => ⟨s, rfl, rfl⟩
  | input :: rest, s, hroom => by
    rw [List.foldlM_cons]
    unfold compileWindow
    split
    · refine compileWindows_ok rest s (Nat.le_trans ?_ hroom)
      exact Nat.add_le_add_left ((List.sublist_cons_self input rest).filter _).length_le _
    · rename_i hpush
      simp only [Bool.or_eq_true, Bool.not_eq_true', not_or, Bool.not_eq_false] at hpush
      rw [List.filter_cons_of_pos hpush.1.2, List.length_cons] at hroom
      rw [if_neg (by omega)]
      obtain ⟨s', hrest, hprojection⟩ := compileWindows_ok rest
        { s with
          constraints := s.constraints ++ [planWindowOf input s.argumentCount]
          argumentCount := s.argumentCount + 1 }
        (by simp only [List.length_append, List.length_singleton]; omega)
      exact ⟨s', hrest, hprojection⟩

/-- A pushed input is not LIMIT or OFFSET, so that both together are not more than all. -/
theorem length_pushable_add_length_window (request : PlannerRequest)
    (inputs : List PlannerConstraintInput) :
    (inputs.filter request.pushable).length +
      (inputs.filter PlannerConstraintInput.isWindow).length ≤
      inputs.length := by
  induction inputs with
  | nil => exact Nat.le_refl _
  | cons input rest ih =>
    have hdisjoint : ¬(request.pushable input = true ∧ input.isWindow = true) := by
      simp only [PlannerRequest.pushable, PlannerRequest.eligible]
      rintro ⟨hpush, hwindow⟩
      simp [hwindow] at hpush
    rw [List.filter_cons, List.filter_cons]
    split <;> split
    · rename_i hpush hwindow
      exact absurd ⟨hpush, hwindow⟩ hdisjoint
    all_goals simp only [List.length_cons]; omega

/-- **A compilation is a run over the additions**: a request within the limits fails exactly if
there is no room for them, with the limit's error, and otherwise has them as its projection. -/
theorem plannerCompile_judged {request : PlannerRequest} (h : plannerRequestValid request = true) :
    match planAddAll request.additions [] with
    | none => plannerCompile request = .error .limitExceeded
    | some projection =>
      ∃ plan, plannerCompile request = .ok plan ∧ plan.projection = projection := by
  have hconstraints : request.constraints.length ≤ planMaxConstraints := by
    simp only [plannerRequestValid, Bool.and_eq_true, decide_eq_true_eq] at h
    exact h.1.1.2
  have hcount := length_pushable_add_length_window request request.constraints
  unfold plannerCompile PlannerRequest.additions
  rw [if_neg (by simp [h]), planBaseProjection_eq, List.append_assoc, planAddAll_append]
  cases planAddAll request.baseColumns [] with
  | none => rfl
  | some base =>
    rw [Option.bind_some, planAddAll_append]
    have hpushed := compileConstraints_judged request request.constraints ⟨[], 0, base, false, 0⟩
      (by simp only [List.length_nil]; omega)
    simp only at hpushed
    rw [PlannerRequest.pushedColumns]
    cases hadd :
      planAddAll ((request.constraints.filter request.pushable).map (·.column.toNat)) base with
    | none =>
      rw [hadd] at hpushed
      simp only at hpushed
      rw [Option.bind_none]
      exact (congrArg (· >>= _) hpushed).trans rfl
    | some pushed =>
      rw [hadd] at hpushed
      obtain ⟨s₁, h₁, hprojection₁, hlength₁⟩ := hpushed
      rw [Option.bind_some]
      have horder := compileOrder_judged request s₁
      rw [hprojection₁] at horder
      cases hordered : planAddAll request.orderColumns pushed with
      | none =>
        rw [hordered] at horder
        simp only at horder ⊢
        rw [h₁, ok_bind, horder]
        rfl
      | some projection =>
        rw [hordered] at horder
        obtain ⟨s₂, h₂, hprojection₂, hconstraints₂⟩ := horder
        obtain ⟨s₃, h₃, hprojection₃⟩ := compileWindows_ok request.constraints s₂
          (by rw [hconstraints₂, hlength₁]; simp only [List.length_nil]; omega)
        simp only
        rw [h₁, ok_bind, h₂, ok_bind, h₃, ok_bind]
        exact ⟨_, rfl, hprojection₃.trans hprojection₂⟩

end Vps
