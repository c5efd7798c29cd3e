import VirtualPostgreSQL.Planner.Exact

/-!
# Planner/Order — the order of the rows

The server sorts by the ORDER BY it was sent, SQLite expects its own: NULL before everything when
ascending, after everything when descending.  On the types the planner orders by — `bool`, the
integers, `uuid` — a term that places NULL as SQLite does compares as SQLite compares
(`compare_decoded`).
-/

namespace Vps

open Machinery

/-- Comparison by one term after the other. -/
def lexCompare {ρ τ : Type*} (compare : τ → ρ → ρ → Ordering) : List τ → ρ → ρ → Ordering
  | [], _, _ => .eq
  | term :: terms, x, y => (compare term x y).then (lexCompare compare terms x y)

theorem lexCompare_congr {ρ τ τ' : Type*} {compare : τ → ρ → ρ → Ordering}
    {compare' : τ' → ρ → ρ → Ordering} {x y : ρ} {terms : List τ} {terms' : List τ'}
    (h : List.Forall₂ (fun t t' => compare t x y = compare' t' x y) terms terms') :
    lexCompare compare terms x y = lexCompare compare' terms' x y := by
  induction h with
  | nil => rfl
  | cons hterm _ ih => rw [lexCompare, lexCompare, hterm, ih]

/-- How the server compares two values by a term: `ASC` or `DESC`, `NULLS FIRST` or `NULLS LAST`. -/
def PlanOrderTerm.compare (term : PlanOrderTerm) (v w : PgValue) : Ordering :=
  if v = .null then
    if w = .null then .eq else if term.nullsFirst then .lt else .gt
  else if w = .null then if term.nullsFirst then .gt else .lt
  else if term.descending then ((v.compare? w).getD .eq).swap else (v.compare? w).getD .eq

/-- The order of SQLite's values, NULL first. -/
def SqliteValue.sortCompare (v w : SqliteValue) : Ordering :=
  if v = .null then if w = .null then .eq else .lt
  else if w = .null then .gt
  else (v.compare? w).getD .eq

/-- How SQLite compares two values by a term of its ORDER BY. -/
def IndexOrderBy.compare (term : IndexOrderBy) (v w : SqliteValue) : Ordering :=
  if term.desc then (v.sortCompare w).swap else v.sortCompare w

/-- The rows come in the order of the terms. -/
def ServerSorted (terms : List PlanOrderTerm) (rows : List PgRow) : Prop :=
  rows.Pairwise fun r r' =>
    lexCompare (fun term r r' => PlanOrderTerm.compare term (r term.column) (r' term.column)) terms
      r r' ≠ .gt

/-- The rows come in the order that SQLite asked for; `view` is what SQLite sees of a row: its
visible columns, the rowid, the hidden identity. -/
def SqliteSorted (orderBy : List IndexOrderBy) (view : PgRow → ℤ → SqliteValue)
    (rows : List PgRow) : Prop :=
  rows.Pairwise fun r r' =>
    lexCompare (fun term r r' => IndexOrderBy.compare term (view r term.iColumn)
      (view r' term.iColumn)) orderBy r r' ≠ .gt

/-- **What SQLite sees of the rows of a table**: values of the types of its columns, decoded. -/
structure Sees (strtod : List UInt8 → Option ℚ) (fieldOids : List UInt32) (rows : List PgRow)
    (view : PgRow → ℤ → SqliteValue) : Prop where
  typed : ∀ row ∈ rows, ∀ (column : ℕ) typeOid, fieldOids[column]? = some typeOid →
    (row column).hasType typeOid = true
  decoded : ∀ row ∈ rows, ∀ (column : ℕ) typeOid, fieldOids[column]? = some typeOid →
    (row column).decoded strtod typeOid = some (view row column)

theorem PgValue.asSqlite_eq_null {v : PgValue} : v.asSqlite = .null ↔ v = .null := by
  cases v <;> simp [PgValue.asSqlite]

/-- A type the planner orders by. -/
theorem kind_of_order {typeOid : UInt32} (h : (vtabPlanCapabilities typeOid).order = true) :
    PgKind.ofOid typeOid ≠ .other ∧ PgKind.ofOid typeOid ≠ .bytea := by
  rw [vtabPlanCapabilities_kind] at h
  constructor
  all_goals
    intro hkind
    rw [hkind] at h
    cases h

/-- A value of a type the planner orders by is seen as it is. -/
theorem decoded_of_order {strtod : List UInt8 → Option ℚ} {typeOid : UInt32} {v : PgValue}
    {sv : SqliteValue} (h : (vtabPlanCapabilities typeOid).order = true)
    (hv : v.hasType typeOid = true) (hsv : v.decoded strtod typeOid = some sv) :
    sv = v.asSqlite := by
  obtain ⟨hexact, hbytea⟩ := kind_of_order h
  rw [decoded_eq hexact hv hsv, if_neg]
  rintro rfl
  unfold PgValue.hasType at hv
  split at hv <;> simp_all

/-- **Two engines, one order**: a term with SQLite's placement of NULL compares two values as SQLite
compares what it sees of them. -/
theorem compare_decoded {strtod : List UInt8 → Option ℚ} {typeOid : UInt32} {v w : PgValue}
    {sv sw : SqliteValue} (h : (vtabPlanCapabilities typeOid).order = true)
    (hv : v.hasType typeOid = true) (hw : w.hasType typeOid = true)
    (hsv : v.decoded strtod typeOid = some sv) (hsw : w.decoded strtod typeOid = some sw)
    (column : ℕ) (desc : Bool) :
    PlanOrderTerm.compare ⟨column, desc, !desc⟩ v w =
      IndexOrderBy.compare ⟨column, desc⟩ sv sw := by
  obtain rfl := decoded_of_order h hv hsv
  obtain rfl := decoded_of_order h hw hsw
  have hcompare := compare?_asSqlite (kind_of_order h).1 hv hw
  simp only [PlanOrderTerm.compare, IndexOrderBy.compare, SqliteValue.sortCompare,
    PgValue.asSqlite_eq_null, hcompare]
  by_cases hvnull : v = .null <;> by_cases hwnull : w = .null <;> cases desc <;>
    simp [hvnull, hwnull, Ordering.swap]

end Vps
