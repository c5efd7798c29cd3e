import VirtualPostgreSQL.Machinery.Ascii
import VirtualPostgreSQL.Planner.Numbering
import VirtualPostgreSQL.Planner.Reads

/-!
# Planner/QueryText — what a request becomes in the text of the query

The text of the query is put together from fixed pieces, names, placeholders and the query of the
source.  `plan_complete_iff` says that the plan of a request has every column that is needed and
counts its arguments through, and that every execution of it counts the placeholders of its text
through, each of them standing for the value that is meant there — but for a request whose
projection is full too early.
-/

namespace Vps

open Machinery

/-! ## The text -/

/-- A piece of the query text; names are written as quoted identifiers. -/
inductive SqlPiece
  | text (bytes : List UInt8)
  | column (column : ℕ)
  /-- `vps_vtab_append_placeholder`: `$` and the number. -/
  | placeholder (number : ℕ)
  /-- The query of the source. -/
  | source
  deriving DecidableEq

/-- The texts of `vps_vtab_operator_sql`. -/
def SqlOperator.sql : SqlOperator → List UInt8
  | .eq => ascii " = "
  | .ne => ascii " <> "
  | .lt => ascii " < "
  | .le => ascii " <= "
  | .gt => ascii " > "
  | .ge => ascii " >= "
  | .notDistinct => ascii " IS NOT DISTINCT FROM "

/-- Pieces with a comma between them. -/
def joinedPieces (pieces : List (List SqlPiece)) : List SqlPiece :=
  List.intercalate [.text (ascii ",")] pieces

/-- The pieces of a condition. -/
def SqlPredicate.pieces : SqlPredicate → List SqlPiece
  | .never => [.text (ascii "FALSE")]
  | .isNull column => [.column column, .text (ascii " IS NULL")]
  | .isNotNull column => [.column column, .text (ascii " IS NOT NULL")]
  | .compare column operator placeholder =>
    [.column column, .text operator.sql, .placeholder placeholder]
  | .isIn column placeholders =>
    [.column column, .text (ascii " IN (")] ++
      joinedPieces (placeholders.map fun placeholder => [.placeholder placeholder]) ++
      [.text (ascii ")")]

/-- The pieces of the WHERE clause. -/
def clausePieces (clauses : List SqlClause) : List SqlPiece :=
  clauses.zipIdx.flatMap fun (clause, index) =>
    .text (if index = 0 then ascii " WHERE " else ascii " AND ") :: clause.predicate.pieces

/-- The pieces of an order term. -/
def PlanOrderTerm.pieces (term : PlanOrderTerm) : List SqlPiece :=
  [.column term.column,
    .text (if term.descending then ascii " DESC NULLS LAST" else ascii " ASC NULLS FIRST")]

/-- The pieces of LIMIT or OFFSET. -/
def SqlWindow.pieces : SqlWindow → List SqlPiece
  | .limit placeholder => [.text (ascii " LIMIT "), .placeholder placeholder]
  | .offset placeholder => [.text (ascii " OFFSET "), .placeholder placeholder]
  | .offsetZero => [.text (ascii " OFFSET "), .text (ascii "0")]

/-- **The query text**, piece by piece, of a list of columns: the projection of the plan, and the
internal column of the optimistic mode that reads it. -/
def Execution.pieces (execution : Execution) (columns : List ℕ) : List SqlPiece :=
  [.text (ascii "SELECT ")] ++ joinedPieces (columns.map fun column => [.column column]) ++
    [.text (ascii " FROM ("), .source, .text (ascii ") AS vps_source")] ++
    clausePieces execution.clauses ++
    (if execution.orderTerms = [] then []
      else .text (ascii " ORDER BY ") :: joinedPieces (execution.orderTerms.map (·.pieces))) ++
    execution.windows.flatMap SqlWindow.pieces

/-- The number of a placeholder. -/
def SqlPiece.number : SqlPiece → Option ℕ
  | .placeholder number => some number
  | _ => none

/-- A piece of fixed text with a `$` in it. -/
def SqlPiece.dollar : SqlPiece → Bool
  | .text bytes => bytes.contains 36
  | _ => false

section Text

@[simp] theorem number_text (bytes : List UInt8) : (SqlPiece.text bytes).number = none := rfl

@[simp] theorem number_column (column : ℕ) : (SqlPiece.column column).number = none := rfl

@[simp] theorem number_placeholder (n : ℕ) : (SqlPiece.placeholder n).number = some n := rfl

@[simp] theorem number_source : SqlPiece.source.number = none := rfl

/-- Between two entries stands one comma. -/
theorem joinedPieces_cons_cons (first next : List SqlPiece) (rest : List (List SqlPiece)) :
    joinedPieces (first :: next :: rest) =
      first ++ .text (ascii ",") :: joinedPieces (next :: rest) := by
  rw [joinedPieces, List.intercalate_cons_cons, List.append_assoc]
  rfl

/-- Commas are no placeholders. -/
theorem numbers_joinedPieces : ∀ pieces : List (List SqlPiece),
    (joinedPieces pieces).filterMap SqlPiece.number = pieces.flatMap (·.filterMap SqlPiece.number)
  | [] => rfl
  | [first] => by simp [joinedPieces]
  | first :: next :: rest => by
    rw [joinedPieces_cons_cons, List.filterMap_append, List.filterMap_cons_none rfl,
      numbers_joinedPieces (next :: rest), ← List.flatMap_cons]

theorem numbers_flatMap {α : Type} (l : List α) (pieces : α → List SqlPiece) :
    (l.flatMap pieces).filterMap SqlPiece.number =
      l.flatMap fun a => (pieces a).filterMap SqlPiece.number := by
  induction l with
  | nil => rfl
  | cons a l ih => rw [List.flatMap_cons, List.filterMap_append, ih, List.flatMap_cons]

/-- The placeholders in the text of a predicate are those it says it has. -/
theorem numbers_predicate (predicate : SqlPredicate) :
    predicate.pieces.filterMap SqlPiece.number = predicate.placeholders := by
  cases predicate with
  | isIn column placeholders =>
    rw [SqlPredicate.pieces, List.filterMap_append, List.filterMap_append, numbers_joinedPieces]
    simp [List.filterMap_cons, SqlPredicate.placeholders, List.flatMap_map]
  | _ => rfl

/-- The clauses have the placeholders of their predicates, in order. -/
theorem numbers_clausePieces (clauses : List SqlClause) :
    (clausePieces clauses).filterMap SqlPiece.number =
      clauses.flatMap (·.predicate.placeholders) := by
  have hclauses : (clauses.zipIdx.map Prod.fst).flatMap (·.predicate.placeholders) =
      clauses.flatMap (·.predicate.placeholders) := by
    rw [List.zipIdx_map_fst]
  rw [clausePieces, numbers_flatMap, ← hclauses, List.flatMap_map]
  refine congrArg (List.flatMap · clauses.zipIdx) (funext fun entry => ?_)
  exact (List.filterMap_cons_none rfl).trans (numbers_predicate _)

/-- **The placeholders of the text** are those of the execution. -/
theorem numbers_pieces (execution : Execution) (columns : List ℕ) :
    (execution.pieces columns).filterMap SqlPiece.number = execution.placeholders := by
  have horder : (if execution.orderTerms = [] then []
      else SqlPiece.text (ascii " ORDER BY ") ::
        joinedPieces (execution.orderTerms.map (·.pieces))).filterMap SqlPiece.number = [] := by
    split
    · rfl
    · rw [List.filterMap_cons_none rfl, numbers_joinedPieces]
      simp [PlanOrderTerm.pieces]
  have hwindows : (execution.windows.flatMap SqlWindow.pieces).filterMap SqlPiece.number =
      execution.windows.flatMap SqlWindow.placeholders := by
    rw [numbers_flatMap]
    refine congrArg (List.flatMap · execution.windows) (funext fun window => ?_)
    cases window <;> rfl
  have hcolumns : (joinedPieces (columns.map fun column => [.column column])).filterMap
      SqlPiece.number = [] := by
    rw [numbers_joinedPieces]
    simp
  simp only [Execution.pieces, List.filterMap_append, hcolumns, horder, hwindows,
    numbers_clausePieces, Execution.placeholders]
  simp [List.filterMap_cons]

/-- No piece is fixed text with a `$` in it. -/
def dollarless (pieces : List SqlPiece) : Bool := pieces.all fun piece => !piece.dollar

/-- Two texts have no `$` of their own if neither has. -/
theorem dollarless_append (pieces more : List SqlPiece) :
    dollarless (pieces ++ more) = (dollarless pieces && dollarless more) := List.all_append

theorem dollarless_joinedPieces : ∀ {pieces : List (List SqlPiece)},
    pieces.all dollarless = true → dollarless (joinedPieces pieces) = true
  | [], _ => rfl
  | [first], h => by simpa [joinedPieces] using h
  | first :: next :: rest, h => by
    rw [List.all_cons, Bool.and_eq_true] at h
    rw [joinedPieces_cons_cons, dollarless_append, h.1, Bool.true_and]
    exact dollarless_joinedPieces h.2

theorem dollarless_flatMap {α : Type} {l : List α} {pieces : α → List SqlPiece}
    (h : ∀ a ∈ l, dollarless (pieces a) = true) : dollarless (l.flatMap pieces) = true := by
  rw [dollarless, List.all_flatMap, List.all_eq_true]
  exact h

/-- **A predicate has no `$`** but those of its placeholders. -/
theorem dollarless_predicate (predicate : SqlPredicate) : dollarless predicate.pieces = true := by
  cases predicate with
  | isIn column placeholders =>
    rw [SqlPredicate.pieces, dollarless_append, dollarless_append, dollarless_joinedPieces]
    · rfl
    · rw [List.all_map, List.all_eq_true]
      exact fun _ _ => rfl
  | compare column operator placeholder => cases operator <;> rfl
  | _ => rfl

/-- **A `$` of the text** is that of a placeholder, or within a quoted name or the source. -/
theorem dollarless_pieces (execution : Execution) (columns : List ℕ) :
    dollarless (execution.pieces columns) = true := by
  have hcolumns :
    dollarless (joinedPieces (columns.map fun column => [.column column])) = true := by
    refine dollarless_joinedPieces ?_
    rw [List.all_map, List.all_eq_true]
    exact fun _ _ => rfl
  have hclauses : dollarless (clausePieces execution.clauses) = true := by
    refine dollarless_flatMap fun entry _ => ?_
    dsimp only
    rw [dollarless, List.all_cons, ← dollarless, dollarless_predicate, Bool.and_true]
    split <;> rfl
  have horder : dollarless (if execution.orderTerms = [] then []
      else SqlPiece.text (ascii " ORDER BY ") ::
        joinedPieces (execution.orderTerms.map (·.pieces))) = true := by
    split
    · rfl
    · rw [dollarless, List.all_cons, ← dollarless, dollarless_joinedPieces]
      · rfl
      · rw [List.all_map, List.all_eq_true]
        intro term _
        rw [Function.comp_apply, PlanOrderTerm.pieces]
        split <;> rfl
  have hwindows : dollarless (execution.windows.flatMap SqlWindow.pieces) = true :=
    dollarless_flatMap fun window _ => by cases window <;> rfl
  simp only [Execution.pieces, dollarless_append, hcolumns, hclauses, horder, hwindows]
  rfl

end Text

/-! ## Completeness -/

/-- **The plan has what the request needs**: every used, key, constrained and ordered column, none
of them twice, and its arguments counted through. -/
structure CompletePlan (request : PlannerRequest) (plan : CompiledPlan) : Prop where
  once : plan.projection.Nodup
  used : ∀ column < request.columns.length, planColumnUsed request.columnsUsed column = true →
    column ∈ plan.projection
  keys : ∀ key ∈ request.keyColumns, key ∈ plan.projection
  constraints : ∀ c ∈ plan.constraints, c.operation ≠ .limit → c.operation ≠ .offset →
    0 ≤ c.column ∧ c.column.toNat ∈ plan.projection
  orderTerms : ∀ term ∈ plan.orderTerms, term.column ∈ plan.projection
  arguments : CountsArguments plan.constraints plan.argumentCount

/-- **The execution counts through**: the placeholders of its text are `$1` to `$n` in order, one
for each parameter and no `$` beside them; each stands for the argument, list item, LIMIT or OFFSET
value that is meant at its place; and every value is read back from the buffer. -/
structure Execution.Numbered (execution : Execution) (plan : CompiledPlan)
    (arguments : List ConstraintOperand) : Prop where
  placeholders : ∀ columns, (execution.pieces columns).filterMap SqlPiece.number =
    List.range' 1 execution.parameters.length
  plain : ∀ columns, dollarless (execution.pieces columns) = true
  clauses : ∃ predicates,
    List.Forall₂ (Writes execution.parameters arguments) plan.constraints predicates ∧
      execution.clauses = zipClauses plan.constraints predicates
  windows : ∃ written,
    List.Forall₂ (WritesWindow execution.parameters arguments) plan.constraints written ∧
      execution.windows = written.flatten
  buffer : InBuffer execution.parameters

/-- The projection is not full before the last column comes into it. -/
def PlannerRequest.HasRoom (request : PlannerRequest) : Prop :=
  ¬∀ column < planMaxColumns, column ∈ request.additions.dropLast

section Complete

variable {request : PlannerRequest} {plan : CompiledPlan}

/-- **An execution is numbered**: its placeholders count up from one, each for one parameter. -/
theorem vtabBuildExecution_numbered {fieldCount : ℕ}
    {arguments : List ConstraintOperand} {room : Bool} {execution : Execution}
    (h : vtabBuildExecution fieldCount plan arguments room = some execution) :
    execution.Numbered plan arguments := by
  have hwrites := (vtabBuildExecution_spec h).1
  unfold vtabBuildExecution at h
  split at h
  · cases h
  simp only [Option.bind_eq_bind, Option.bind_eq_some_iff] at h
  obtain ⟨⟨clauses, s₁⟩, h₁, ⟨windows, s₂⟩, h₂, h⟩ := h
  cases h
  have hnumbers := (Numbers.buildClauses h₁).append (Numbers.buildWindows h₂)
  have hstored : s₂.Stored := hnumbers.stored ⟨rfl, Nat.zero_le _⟩
  exact {
    placeholders := fun columns => by
      rw [numbers_pieces, Execution.placeholders, hnumbers.counts.2]
      rfl
    plain := dollarless_pieces _
    clauses := hwrites
    windows := (buildWindows_writes h₂).2 _ List.prefix_rfl
    buffer := inBuffer_of_limit (hstored.1 ▸ hstored.2) }

/-- A request within the limits is refused exactly if there is no room. -/
theorem plannerCompile_ne_limitExceeded_iff (hvalid : plannerRequestValid request = true) :
    plannerCompile request ≠ .error .limitExceeded ↔ request.HasRoom := by
  have hlengths := hvalid
  simp only [plannerRequestValid, Bool.and_eq_true, decide_eq_true_eq] at hlengths
  have hcolumns : ∀ column ∈ request.additions, column < planMaxColumns := fun column hcolumn =>
    lt_of_lt_of_le (PlannerRequest.additions_lt hlengths.1.1.1.1 column hcolumn) hlengths.1.1.1.2
  have hne : request.additions ≠ [] := by
    simp [PlannerRequest.additions, PlannerRequest.baseColumns_ne_nil]
  have hnone := planAddAll_eq_none_iff
    ⟨List.nodup_nil, fun _ h => absurd h List.not_mem_nil, Nat.zero_le _⟩ hcolumns
  rw [List.nil_append, and_iff_right hne] at hnone
  rw [PlannerRequest.HasRoom, ← hnone]
  have hjudged := plannerCompile_judged hvalid
  cases hadd : planAddAll request.additions [] with
  | none =>
    rw [hadd] at hjudged
    exact iff_of_false (fun h => h hjudged) fun h => h rfl
  | some projection =>
    rw [hadd] at hjudged
    obtain ⟨plan, hplan, -⟩ := hjudged
    rw [hplan]
    exact iff_of_true (by simp) (Option.some_ne_none _)

/-- **A compiled plan is complete**, where its arguments are counted through. -/
theorem completePlan_iff (hkeys : ∀ key ∈ request.keyColumns, key < request.columns.length)
    (h : plannerCompile request = .ok plan) :
    CompletePlan request plan ↔
      ∀ input ∈ request.constraints, request.pushable input = true → input.Lists := by
  refine ⟨fun hcomplete => lists_of_countsArguments h hcomplete.arguments, fun hlists => ?_⟩
  have hmem : ∀ {column : ℕ}, column ∈ request.additions → column ∈ plan.projection :=
    fun hcolumn => (mem_planAddAll (projection_of_ok h)).mpr (.inr hcolumn)
  have hwanted : ∀ column < request.columns.length, request.wanted column = true →
      column ∈ plan.projection := by
    intro column hlt hwanted
    refine hmem (List.mem_append_left _ (List.mem_append_left _ ?_))
    have hfilter := List.mem_filter.mpr ⟨List.mem_range.mpr hlt, hwanted⟩
    unfold PlannerRequest.baseColumns
    split
    · rename_i hnil
      exact absurd (hnil ▸ hfilter) List.not_mem_nil
    · rename_i hcons
      exact hcons ▸ hfilter
  exact {
    once := (plannerCompile_fits h).1.projection.once
    used := fun column hlt hused => hwanted column hlt (by simp [PlannerRequest.wanted, hused])
    keys := fun key hkey => hwanted key (hkeys key hkey)
      (by simp [PlannerRequest.wanted, planIsKey, hkey])
    constraints := by
      intro c hc hlimit hoffset
      obtain ⟨outputs, windows, hconstraints, houtputs, hwindows, -, -⟩ := plannerCompile_spec h
      rw [hconstraints, List.mem_append] at hc
      rcases hc with hc | hc
      · obtain ⟨input, hinput, argumentCount, rfl⟩ := forall₂_exists_right houtputs hc
        have hpush := (List.mem_filter.mp hinput).2
        exact ⟨(PlannerRequest.pushable_column hpush).1, hmem (List.mem_append_left _
          (List.mem_append_right _ (List.mem_map_of_mem hinput)))⟩
      · obtain ⟨input, hinput, argumentCount, rfl⟩ := forall₂_exists_right hwindows hc
        exact absurd (PlannerRequest.operation_of_mem_windows hinput) (not_or.mpr ⟨hlimit, hoffset⟩)
    orderTerms := by
      intro term hterm
      obtain ⟨s, hplan⟩ := plannerCompile_finish h
      rw [hplan] at hterm
      simp only [compileFinish] at hterm
      split at hterm
      · rename_i hexact
        obtain ⟨input, hinput, rfl⟩ := List.mem_map.mp hterm
        refine hmem (List.mem_append_right _ ?_)
        rw [PlannerRequest.orderColumns, if_pos hexact]
        exact List.mem_map_of_mem hinput
      · cases hterm
    arguments := plannerCompile_countsArguments h hlists }

/-- **What a request within the limits becomes**: it is not refused for the limit, its plan is
complete, and every execution of the plan counts through, exactly if the projection has room and no
pushed constraint is a NULL test marked as a list. -/
theorem plan_complete_iff (hvalid : plannerRequestValid request = true)
    (hkeys : ∀ key ∈ request.keyColumns, key < request.columns.length) :
    (plannerCompile request ≠ .error .limitExceeded ∧
      ∀ plan, plannerCompile request = .ok plan → CompletePlan request plan ∧
        ∀ fieldCount arguments room execution,
          vtabBuildExecution fieldCount plan arguments room = some execution →
            execution.Numbered plan arguments) ↔
      request.HasRoom ∧
        ∀ input ∈ request.constraints, request.pushable input = true → input.Lists := by
  rw [plannerCompile_ne_limitExceeded_iff hvalid]
  refine and_congr_right fun hroom => ?_
  have hnone := (plannerCompile_ne_limitExceeded_iff hvalid).mpr hroom
  have hjudged := plannerCompile_judged hvalid
  cases hadd : planAddAll request.additions [] with
  | none =>
    rw [hadd] at hjudged
    exact absurd hjudged hnone
  | some projection =>
    rw [hadd] at hjudged
    obtain ⟨plan, hplan, -⟩ := hjudged
    rw [← completePlan_iff hkeys hplan]
    constructor
    · exact fun h => (h plan hplan).1
    · rintro h plan' hplan'
      cases hplan.symm.trans hplan'
      exact ⟨h, fun _ _ _ _ hexecution => vtabBuildExecution_numbered hexecution⟩

end Complete

/-- A table of integer columns that are all used, and a condition on the first one. -/
def usedRequest (columnCount : ℕ) : PlannerRequest where
  sourceFingerprint := 0
  columns := List.replicate columnCount ⟨23, ⟨true, true, true, false⟩⟩
  columnsUsed := 0xFFFFFFFFFFFFFFFF
  constraints := [⟨0, .eq, .integer, 0, true, false, false⟩]
  orderTerms := []
  keyColumns := [0]
  estimatedBaseRows := 0
  relationPages := 0
  queryIndexPrefix := 0
  queryIndexOrdinal := 0

theorem plan_complete_two_columns :
    plannerCompile (usedRequest 2) ≠ .error .limitExceeded ∧
      ∀ plan, plannerCompile (usedRequest 2) = .ok plan → CompletePlan (usedRequest 2) plan ∧
        ∀ fieldCount arguments room execution,
          vtabBuildExecution fieldCount plan arguments room = some execution →
            execution.Numbered plan arguments :=
  (plan_complete_iff (by decide) (by decide)).mpr
    ⟨fun h => absurd (h 5 (by decide)) (by decide), by decide⟩

section Widest

variable {columnCount : ℕ}

/-- The request has as many columns as it was given. -/
theorem length_columns_usedRequest : (usedRequest columnCount).columns.length = columnCount :=
  List.length_replicate

/-- Every column is read. -/
theorem baseColumns_usedRequest (h : 0 < columnCount) :
    (usedRequest columnCount).baseColumns = List.range columnCount := by
  have hwanted : ∀ column, (usedRequest columnCount).wanted column = true := by
    intro column
    have hused : planColumnUsed 0xFFFFFFFFFFFFFFFF column = true := by
      rw [planColumnUsed, show (0xFFFFFFFFFFFFFFFF : UInt64).toNat = 2 ^ 64 - 1 from rfl,
        Nat.testBit_two_pow_sub_one]
      simp only [decide_eq_true_eq]
      omega
    rw [PlannerRequest.wanted]
    exact Bool.or_eq_true_iff.mpr (.inl hused)
  have hfilter : (List.range (usedRequest columnCount).columns.length).filter
      (usedRequest columnCount).wanted = List.range columnCount := by
    rw [List.filter_eq_self.mpr fun column _ => hwanted column, length_columns_usedRequest]
  unfold PlannerRequest.baseColumns
  split
  · rename_i hnil
    exact absurd (List.range_eq_nil.mp (hfilter.symm.trans hnil)) (Nat.ne_of_gt h)
  · rename_i hcons
    exact hcons.symm.trans hfilter

theorem pushedColumns_usedRequest (h : 0 < columnCount) :
    (usedRequest columnCount).pushedColumns ++ (usedRequest columnCount).orderColumns = [0] := by
  have hcolumn : (usedRequest columnCount).columns[0]? = some ⟨23, ⟨true, true, true, false⟩⟩ := by
    rw [usedRequest, List.getElem?_replicate, if_pos h]
  have hpush :
    (usedRequest columnCount).pushable ⟨0, .eq, .integer, 0, true, false, false⟩ = true := by
    rw [PlannerRequest.pushable, PlannerRequest.eligible, length_columns_usedRequest,
      PlannerRequest.exact, Int.toNat_zero, hcolumn]
    simpa [PlannerConstraintInput.isWindow, PlannerConstraintInput.planOperation,
      planValueExact] using h
  have hconstraints : (usedRequest columnCount).constraints =
      [⟨0, .eq, .integer, 0, true, false, false⟩] := rfl
  rw [PlannerRequest.pushedColumns, hconstraints, List.filter_cons_of_pos hpush]
  rfl

/-- The request is valid as long as there are columns, and not too many. -/
theorem plannerRequestValid_usedRequest (h : 0 < columnCount)
    (hmax : columnCount ≤ planMaxColumns) :
    plannerRequestValid (usedRequest columnCount) = true := by
  rw [plannerRequestValid, length_columns_usedRequest]
  simpa [usedRequest, planMaxConstraints, planMaxOrderTerms, hmax] using Nat.ne_of_gt h

/-- A table as wide as allowed with a condition that can be pushed. -/
theorem plan_incomplete_widest :
    plannerRequestValid (usedRequest 1024) = true ∧
      (∀ key ∈ (usedRequest 1024).keyColumns, key < (usedRequest 1024).columns.length) ∧
      plannerCompile (usedRequest 1024) = .error .limitExceeded := by
  have hvalid : plannerRequestValid (usedRequest 1024) = true :=
    plannerRequestValid_usedRequest (by decide) (Nat.le_refl _)
  refine ⟨hvalid, fun key hkey => ?_, ?_⟩
  · rw [length_columns_usedRequest, List.mem_singleton.mp hkey]
    decide
  by_contra hok
  refine (plannerCompile_ne_limitExceeded_iff hvalid).mp hok fun column hcolumn => ?_
  rw [PlannerRequest.additions, List.append_assoc, pushedColumns_usedRequest (by decide),
    baseColumns_usedRequest (by decide), List.dropLast_concat]
  exact List.mem_range.mpr hcolumn

end Widest

end Vps
