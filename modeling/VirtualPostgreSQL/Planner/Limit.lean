import VirtualPostgreSQL.Planner.BestIndex

/-!
# Planner/Limit — when a pushed LIMIT or OFFSET is sound

A plan that consumes LIMIT or OFFSET cuts the rows on the server, before SQLite applies the checks
left to it; that is the same as cutting last only when nothing is left.  `WindowSound` states this
for the answer of `xBestIndex` over arbitrary rows and arbitrary truth values of the constraints.

`windowSound_iff` is exact: the planner gets it right unless a constraint is *dropped* — not usable,
without a translated operator, or on the rowid or a hidden column — since a dropped constraint does
not count as one that is rechecked.
-/

namespace Vps

open Machinery

/-! ## The rows of a query -/

/-- A query over the table: its rows, which constraints hold of which row, and the LIMIT and OFFSET
values. -/
structure WindowQuery (ρ : Type*) where
  rows : List ρ
  holds : ℕ → ρ → Bool
  limit : ℤ
  offset : ℤ

namespace WindowQuery

variable {ρ : Type*} (q : WindowQuery ρ)

/-- OFFSET, then LIMIT, each if asked for; a negative OFFSET is zero and a negative LIMIT none. -/
def window (limited offsetted : Bool) (rows : List ρ) : List ρ :=
  let rows := if offsetted then rows.drop q.offset.toNat else rows
  if limited && decide (0 ≤ q.limit) then rows.take q.limit.toNat else rows

/-- The row satisfies every constraint of the list. -/
def satisfies (info : IndexInfo) (row : ρ) : Bool :=
  info.constraints.zipIdx.all fun (c, i) => c.isWindow || q.holds i row

/-- **What the statement means**: all constraints first, LIMIT and OFFSET last.  The rows stand in
the order in which the server cuts them; where an order term was dropped that is not the order of
the statement, and the cut is of other rows (`limit_pushed_past_dropped_order`).  Such a plan
promises an order that it does not emit: what it takes to keep that promise is said in
Planner/Honest. -/
def reference (info : IndexInfo) : List ρ :=
  q.window (info.constraints.any (·.op == 73)) (info.constraints.any (·.op == 74))
    (q.rows.filter (q.satisfies info))

/-- What the server returns: the pushed constraints, then the consumed LIMIT and OFFSET. -/
def remote (plan : CompiledPlan) : List ρ :=
  q.window plan.flags.limitConsumed plan.flags.offsetConsumed
    (q.rows.filter fun row => plan.constraints.all fun c =>
      c.operation == .limit || c.operation == .offset || q.holds c.sourceIndex row)

/-- What SQLite makes of the returned rows: the checks it may not omit, then the LIMIT and OFFSET
that were not consumed. -/
def result (info : IndexInfo) (out : BestIndexOutput) : List ρ :=
  q.window
    (info.constraints.any (·.op == 73) && !out.plan.flags.limitConsumed)
    (info.constraints.any (·.op == 74) && !out.plan.flags.offsetConsumed)
    ((q.remote out.plan).filter fun row => info.constraints.zipIdx.all fun (c, i) =>
      c.isWindow || out.usage[i]?.any (fun u => u.argvIndex != 0 && u.omits) || q.holds i row)

end WindowQuery

/-- The plan consumes LIMIT or OFFSET. -/
def CompiledPlan.consumesWindow (plan : CompiledPlan) : Bool :=
  plan.flags.limitConsumed || plan.flags.offsetConsumed

/-- The constraint is enforced on the server: pushed, with no check left to SQLite. -/
def CompiledPlan.Enforces (plan : CompiledPlan) (i : ℕ) : Prop :=
  ∃ c ∈ plan.constraints, c.sourceIndex = i ∧ c.flags.recheck = false

/-- **Soundness of a pushed LIMIT or OFFSET**: every constraint of the list is enforced on the
server, so that the rows are those of the statement. -/
def WindowSound (info : IndexInfo) (out : BestIndexOutput) : Prop :=
  out.plan.consumesWindow = true →
    (∀ i < info.constraints.length, out.plan.Enforces i) ∧
      ∀ (ρ : Type) (q : WindowQuery ρ), q.result info out = q.reference info

/-- The constraint is one the planner takes in: usable, and LIMIT, OFFSET or an operator it
translates on a visible column. -/
def IndexConstraint.accepted (table : PlannedTable) (c : IndexConstraint) : Bool :=
  c.usable && (c.isWindow || ((vtabConstraintOperation c.op).isSome && decide (0 ≤ c.iColumn) &&
    decide (c.iColumn.toNat < table.fieldOids.length)))

/-! ## Which constraints are enforced -/

section Sound

variable {table : PlannedTable} {info : IndexInfo} {memoryOk : Bool} {out : BestIndexOutput}

/-- An input of a plan that is not rechecked is exact and no IN, if it is looked at. -/
theorem exact_of_not_rechecks (hrechecks : (bestIndexRequest table info).rechecks = false)
    {input : PlannerConstraintInput} (hinput : input ∈ bestIndexInputs table info)
    (heligible : (bestIndexRequest table info).eligible input = true) :
    (bestIndexRequest table info).exact input = true ∧ input.isIn = false := by
  simp only [PlannerRequest.rechecks, Bool.or_eq_false_iff, List.any_eq_false] at hrechecks
  have := hrechecks.1 input hinput
  simpa [PlannerRequest.leavesRecheck, heligible] using this

/-- In a plan that is not rechecked, every constraint comes from one that is taken in, under its own
operator. -/
theorem source_of_mem_plan (h : moduleBestIndex table info memoryOk = .ok out)
    (hrechecks : (bestIndexRequest table info).rechecks = false)
    {c : PlanConstraint} (hc : c ∈ out.plan.constraints) :
    ∃ source, info.constraints[c.sourceIndex]? = some source ∧ source.accepted table = true ∧
      ∃ nullSafe, vtabConstraintOperation source.op = some (c.operation, nullSafe) := by
  rcases mem_plan_constraints h hc with
    ⟨input, hinput, hpush, argumentCount, rfl⟩ |
    ⟨-, input, hinput, husable, hwindow, argumentCount, rfl⟩
  all_goals
    obtain ⟨source, hsource, hof⟩ := mem_bestIndexInputs.mp hinput
    obtain ⟨-, husable', hcolumn, nullSafe, hop⟩ := bestIndexInput_spec hof
    refine ⟨source, hsource, ?_, nullSafe, ?_⟩
  · rw [PlannerRequest.pushable, Bool.and_eq_true] at hpush
    simp only [PlannerRequest.eligible, bestIndexRequest, List.length_map, Bool.and_eq_true,
      decide_eq_true_eq] at hpush
    obtain ⟨⟨⟨⟨husable, -⟩, hpos⟩, hvisible⟩, -⟩ := hpush
    rw [hcolumn] at hpos hvisible
    simp [IndexConstraint.accepted, ← husable', husable, hop, hpos, hvisible]
  · rw [PlannerRequest.pushable, Bool.and_eq_true] at hpush
    have hisIn := (exact_of_not_rechecks hrechecks hinput hpush.1).2
    simpa [planConstraintOf, PlannerConstraintInput.planOperation, hisIn] using hop
  · simp [IndexConstraint.accepted, ← husable', husable, ← bestIndexInput_isWindow hof, hwindow]
  · exact hop

/-- In a plan that is not rechecked, every constraint that is taken in is enforced, under its own
operator. -/
theorem enforces_of_accepted (h : moduleBestIndex table info memoryOk = .ok out)
    (hrechecks : (bestIndexRequest table info).rechecks = false) {i : ℕ} {source : IndexConstraint}
    (hsource : info.constraints[i]? = some source) (haccepted : source.accepted table = true) :
    ∃ c ∈ out.plan.constraints, c.sourceIndex = i ∧ c.flags.recheck = false ∧
      ∃ nullSafe, vtabConstraintOperation source.op = some (c.operation, nullSafe) := by
  simp only [IndexConstraint.accepted, Bool.and_eq_true, Bool.or_eq_true,
    decide_eq_true_eq] at haccepted
  obtain ⟨husable, hkind⟩ := haccepted
  obtain ⟨operation, nullSafe, hop⟩ :
      ∃ operation nullSafe, vtabConstraintOperation source.op = some (operation, nullSafe) := by
    rcases hkind with hwindow | ⟨⟨hsome, -⟩, -⟩
    · simp only [IndexConstraint.isWindow, Bool.or_eq_true, beq_iff_eq] at hwindow
      rcases hwindow with hop | hop <;> exact hop ▸ ⟨_, _, rfl⟩
    · obtain ⟨⟨operation, nullSafe⟩, hop⟩ := Option.isSome_iff_exists.mp hsome
      exact ⟨operation, nullSafe, hop⟩
  obtain ⟨input, hof⟩ : ∃ input, bestIndexInput table source i = some input := by
    simp only [bestIndexInput, hop]
    exact ⟨_, rfl⟩
  obtain ⟨hi, husable', hcolumn, nullSafe, hop⟩ := bestIndexInput_spec hof
  have hinput : input ∈ bestIndexInputs table info :=
    mem_bestIndexInputs.mpr ⟨source, hi ▸ hsource, hi ▸ hof⟩
  rcases hwindow : source.isWindow with _ | _
  · obtain ⟨⟨-, hpos⟩, hvisible⟩ := hkind.resolve_left (by simp [hwindow])
    have heligible : (bestIndexRequest table info).eligible input = true := by
      simp [PlannerRequest.eligible, husable', husable, bestIndexInput_isWindow hof, hwindow,
        hcolumn, hpos, hvisible, bestIndexRequest]
    have hexact := exact_of_not_rechecks hrechecks hinput heligible
    obtain ⟨c, hc, argumentCount, rfl⟩ := plan_of_pushable h hinput
      (by rw [PlannerRequest.pushable, heligible, hexact.1]; rfl)
    refine ⟨_, hc, hi, hexact.2, nullSafe, ?_⟩
    simpa [planConstraintOf, PlannerConstraintInput.planOperation, hexact.2] using hop
  · obtain ⟨c, hc, argumentCount, rfl⟩ := plan_of_window h hrechecks hinput
      (husable'.trans husable) ((bestIndexInput_isWindow hof).trans hwindow)
    exact ⟨_, hc, hi, rfl, nullSafe, hop⟩

/-- The window flags of the answer are those of its constraints. -/
theorem consumed_eq (h : moduleBestIndex table info memoryOk = .ok out) :
    out.plan.flags.limitConsumed = out.plan.constraints.any (·.operation == .limit) ∧
      out.plan.flags.offsetConsumed = out.plan.constraints.any (·.operation == .offset) := by
  obtain ⟨compiled, hcompile, hconstraints, hflags, -⟩ := moduleBestIndex_ok h
  obtain ⟨-, -, -, -, -, hlimit, hoffset⟩ := plannerCompile_spec hcompile
  rw [hconstraints, hflags]
  exact ⟨hlimit, hoffset⟩

/-- **When the window is consumed**: the plan is not rechecked, and some LIMIT or OFFSET is
usable. -/
theorem consumesWindow_iff (h : moduleBestIndex table info memoryOk = .ok out) :
    out.plan.consumesWindow = true ↔
      (bestIndexRequest table info).rechecks = false ∧
        ∃ source ∈ info.constraints, source.usable = true ∧ source.isWindow = true := by
  obtain ⟨hlimit, hoffset⟩ := consumed_eq h
  simp only [CompiledPlan.consumesWindow, hlimit, hoffset, Bool.or_eq_true, List.any_eq_true,
    beq_iff_eq]
  constructor
  · intro hconsumed
    obtain ⟨c, hc, hwindow⟩ :
        ∃ c ∈ out.plan.constraints, c.operation = .limit ∨ c.operation = .offset := by
      rcases hconsumed with ⟨c, hc, hop⟩ | ⟨c, hc, hop⟩
      exacts [⟨c, hc, .inl hop⟩, ⟨c, hc, .inr hop⟩]
    rcases mem_plan_constraints h hc with
      ⟨input, -, hpush, argumentCount, rfl⟩ | ⟨hrechecks, input, hinput, husable, hw, -⟩
    · have := planConstraintOf_operation hpush argumentCount
      exact absurd hwindow (not_or.mpr this)
    · obtain ⟨source, hsource, hof⟩ := mem_bestIndexInputs.mp hinput
      obtain ⟨-, husable', -, -⟩ := bestIndexInput_spec hof
      exact ⟨hrechecks, source, List.mem_of_getElem? hsource, husable'.symm.trans husable,
        (bestIndexInput_isWindow hof).symm.trans hw⟩
  · rintro ⟨hrechecks, source, hmem, husable, hwindow⟩
    obtain ⟨i, hsource⟩ := List.mem_iff_getElem?.mp hmem
    obtain ⟨c, hc, -, -, nullSafe, hop⟩ := enforces_of_accepted h hrechecks hsource
      (by simp [IndexConstraint.accepted, husable, hwindow])
    obtain ⟨hlim, hoff⟩ := vtabConstraintOperation_window hop
    simp only [IndexConstraint.isWindow, Bool.or_eq_true, beq_iff_eq] at hwindow
    rcases hwindow with hop | hop
    exacts [.inl ⟨c, hc, hlim.mpr hop⟩, .inr ⟨c, hc, hoff.mpr hop⟩]

/-! ## The rows of a sound plan -/

theorem WindowQuery.window_subset {ρ : Type*} (q : WindowQuery ρ) (limited offsetted : Bool)
    (rows : List ρ) : q.window limited offsetted rows ⊆ rows := by
  intro row hrow
  simp only [window] at hrow
  have hdrop : row ∈ if offsetted then rows.drop q.offset.toNat else rows := by
    split at hrow
    exacts [List.mem_of_mem_take hrow, hrow]
  split at hdrop
  exacts [List.mem_of_mem_drop hdrop, hdrop]

/-- When every constraint is taken in, the server keeps the rows that satisfy the list. -/
theorem remote_filter_eq (h : moduleBestIndex table info memoryOk = .ok out)
    (hrechecks : (bestIndexRequest table info).rechecks = false)
    (hall : ∀ source ∈ info.constraints, source.accepted table = true) {ρ : Type*}
    (q : WindowQuery ρ) (row : ρ) :
    (out.plan.constraints.all fun c =>
      c.operation == .limit || c.operation == .offset || q.holds c.sourceIndex row) =
      q.satisfies info row := by
  rw [Bool.eq_iff_iff]
  simp only [WindowQuery.satisfies, List.all_eq_true, Bool.or_eq_true, beq_iff_eq, Prod.forall]
  constructor
  · intro hpushed source i hmem
    have hsource := List.mem_zipIdx_iff_getElem?.mp hmem
    obtain ⟨c, hc, rfl, -, nullSafe, hop⟩ := enforces_of_accepted h hrechecks hsource
      (hall source (List.mem_of_getElem? hsource))
    obtain ⟨hlimit, hoffset⟩ := vtabConstraintOperation_window hop
    simpa [IndexConstraint.isWindow, hlimit, hoffset] using hpushed c hc
  · intro hsatisfies c hc
    obtain ⟨source, hsource, -, nullSafe, hop⟩ := source_of_mem_plan h hrechecks hc
    obtain ⟨hlimit, hoffset⟩ := vtabConstraintOperation_window hop
    have hrow := hsatisfies source c.sourceIndex (List.mem_zipIdx_iff_getElem?.mpr hsource)
    simpa [IndexConstraint.isWindow, hlimit, hoffset] using hrow

/-- When every constraint is taken in, exactly the windows of the list are consumed. -/
theorem consumed_eq_any (h : moduleBestIndex table info memoryOk = .ok out)
    (hrechecks : (bestIndexRequest table info).rechecks = false)
    (hall : ∀ source ∈ info.constraints, source.accepted table = true) :
    out.plan.flags.limitConsumed = info.constraints.any (·.op == 73) ∧
      out.plan.flags.offsetConsumed = info.constraints.any (·.op == 74) := by
  have key (operation : PlanOperator) (op : UInt8)
      (hiff : ∀ {o w nullSafe}, vtabConstraintOperation o = some (w, nullSafe) →
        (w = operation ↔ o = op)) :
      out.plan.constraints.any (·.operation == operation) =
        info.constraints.any (·.op == op) := by
    rw [Bool.eq_iff_iff]
    simp only [List.any_eq_true, beq_iff_eq]
    constructor
    · rintro ⟨c, hc, hoperation⟩
      obtain ⟨source, hsource, -, nullSafe, hop⟩ := source_of_mem_plan h hrechecks hc
      exact ⟨source, List.mem_of_getElem? hsource, (hiff hop).mp hoperation⟩
    · rintro ⟨source, hmem, hsourceOp⟩
      obtain ⟨i, hsource⟩ := List.mem_iff_getElem?.mp hmem
      obtain ⟨c, hc, -, -, nullSafe, hop⟩ := enforces_of_accepted h hrechecks hsource
        (hall source hmem)
      exact ⟨c, hc, (hiff hop).mpr hsourceOp⟩
  obtain ⟨hlimit, hoffset⟩ := consumed_eq h
  exact ⟨hlimit.trans (key _ _ fun hop => (vtabConstraintOperation_window hop).1),
    hoffset.trans (key _ _ fun hop => (vtabConstraintOperation_window hop).2)⟩

/-- When every constraint is taken in, cutting on the server is cutting last. -/
theorem result_eq_reference (h : moduleBestIndex table info memoryOk = .ok out)
    (hrechecks : (bestIndexRequest table info).rechecks = false)
    (hall : ∀ source ∈ info.constraints, source.accepted table = true) {ρ : Type*}
    (q : WindowQuery ρ) : q.result info out = q.reference info := by
  obtain ⟨hlimit, hoffset⟩ := consumed_eq_any h hrechecks hall
  have hremote : q.remote out.plan = q.reference info := by
    rw [WindowQuery.remote, WindowQuery.reference, hlimit, hoffset]
    simp only [remote_filter_eq h hrechecks hall q]
  have hrows : ∀ row ∈ q.reference info, q.satisfies info row = true := fun row hrow =>
    (List.mem_filter.mp (q.window_subset _ _ _ hrow)).2
  -- nothing is left to cut, and the rows that came back pass every check
  rw [WindowQuery.result, hlimit, hoffset, Bool.and_not_self, Bool.and_not_self, hremote]
  simp only [WindowQuery.window, Bool.false_and, Bool.false_eq_true, if_false]
  refine List.filter_eq_self.mpr fun row hrow => ?_
  have hsatisfies := hrows row hrow
  simp only [WindowQuery.satisfies, List.all_eq_true, Prod.forall, Bool.or_eq_true] at hsatisfies ⊢
  exact fun source i hmem => (hsatisfies source i hmem).imp_left .inl

/-- **When pushing LIMIT or OFFSET is sound**: exactly when there is no usable LIMIT or OFFSET, or
some constraint or the order is left to SQLite — so that nothing is pushed — or the planner takes in
every constraint of the list. -/
theorem windowSound_iff (h : moduleBestIndex table info memoryOk = .ok out) :
    WindowSound info out ↔
      (∀ source ∈ info.constraints, source.isWindow = true → source.usable = false) ∨
      (bestIndexRequest table info).rechecks = true ∨
      ∀ source ∈ info.constraints, source.accepted table = true := by
  rw [WindowSound, consumesWindow_iff h]
  constructor
  · intro hsound
    by_contra hnot
    push Not at hnot
    obtain ⟨⟨window, hmem, hwindow, husable⟩, hrechecks, source, hsource, hdropped⟩ := hnot
    rw [Ne, Bool.not_eq_true] at hrechecks
    rw [Ne, Bool.not_eq_false] at husable
    obtain ⟨i, hi⟩ := List.mem_iff_getElem?.mp hsource
    obtain ⟨henforced, -⟩ := hsound ⟨hrechecks, window, hmem, husable, hwindow⟩
    obtain ⟨c, hc, rfl, -⟩ := henforced i (List.getElem?_eq_some_iff.mp hi).1
    obtain ⟨source', hsource', haccepted, -⟩ := source_of_mem_plan h hrechecks hc
    obtain rfl := Option.some.inj (hi.symm.trans hsource')
    exact hdropped haccepted
  · rintro hcases ⟨hrechecks, window, hmem, husable, hwindow⟩
    have hall : ∀ source ∈ info.constraints, source.accepted table = true := by
      rcases hcases with hnone | hrechecked | hall
      · exact absurd husable (by simp [hnone window hmem hwindow])
      · exact absurd hrechecked (by simp [hrechecks])
      · exact hall
    refine ⟨fun i hi => ?_, fun ρ q => result_eq_reference h hrechecks hall q⟩
    obtain ⟨c, hc, hsource, hrecheck, -⟩ := enforces_of_accepted h hrechecks
      (List.getElem?_eq_getElem hi) (hall _ (List.getElem_mem hi))
    exact ⟨c, hc, hsource, hrecheck⟩

end Sound

/-- A table of one int4 column. -/
def limitTable : PlannedTable := ⟨[23], [], 0, none, []⟩

/-- `WHERE c = 1 LIMIT n`. -/
def limitInfo : IndexInfo :=
  ⟨[⟨0, 2, true, false, some (.integer 1)⟩, ⟨-1, 73, true, false, none⟩], [], 1⟩

theorem windowSound_limitInfo :
    ∃ out, moduleBestIndex limitTable limitInfo true = .ok out ∧
      out.plan.consumesWindow = true ∧ WindowSound limitInfo out := by
  obtain ⟨out, hout, hconsumed⟩ : ∃ out, moduleBestIndex limitTable limitInfo true = .ok out ∧
      out.plan.consumesWindow = true := ⟨_, rfl, rfl⟩
  exact ⟨out, hout, hconsumed, (windowSound_iff hout).mpr (.inr (.inr (by decide)))⟩

/-- `WHERE c LIKE p LIMIT n`. -/
def likeInfo : IndexInfo := ⟨[⟨0, 65, true, false, none⟩, ⟨-1, 73, true, false, none⟩], [], 1⟩

/-- **A LIKE is dropped and the LIMIT is pushed all the same**: of the rows `1`, `2`, of which the
second is like the pattern, `LIMIT 1` returns none. -/
theorem limit_pushed_past_dropped_like :
    ∃ out, moduleBestIndex limitTable likeInfo true = .ok out ∧ ¬ WindowSound likeInfo out := by
  refine ⟨_, rfl, fun hsound => ?_⟩
  have hrows := (hsound rfl).2 ℕ ⟨[1, 2], fun _ row => row == 2, 1, 0⟩
  revert hrows
  decide

/-- `ORDER BY rowid, c LIMIT n`. -/
def rowidOrderInfo : IndexInfo := ⟨[⟨-1, 73, true, false, none⟩], [⟨-1, false⟩, ⟨0, false⟩], 1⟩

/-- **A dropped order term does not stop the LIMIT either**: the server cuts in the order of `c`
alone, and SQLite takes the rows as sorted by both terms. -/
theorem limit_pushed_past_dropped_order :
    ∃ out, moduleBestIndex limitTable rowidOrderInfo true = .ok out ∧
      out.plan.flags.limitConsumed = true ∧ out.orderByConsumed = true ∧
      out.plan.orderTerms.map (·.column) = [0] :=
  ⟨_, rfl, rfl, rfl, rfl⟩

end Vps
