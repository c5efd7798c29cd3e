import VirtualPostgreSQL.Embedded.SelectGrammar
import VirtualPostgreSQL.Machinery.Outcome

/-!
# Embedded/ScanSql — the text of a scan of the embedded database

`vps_embedded_build_scan_sql` writes the query of a scan fragment by fragment, each of them with its
length beside it, and `vps_embedded_sqlite_scan_open` binds the values of the constraints.  The
memory of the buffer is granted up to its limit.
-/

namespace Vps

open Machinery

/-! ## Requests -/

/-- `VPS_EMBEDDED_MAX_COLUMNS` -/
def embeddedMaxColumns : ℕ := 1024

/-- `VPS_EMBEDDED_MAX_INDEXES` -/
def embeddedMaxIndexes : ℕ := 64

/-- `VPS_EMBEDDED_MAX_CONSTRAINTS` -/
def embeddedMaxConstraints : ℕ := 64

/-- `VPS_EMBEDDED_MAX_ORDER_TERMS` -/
def embeddedMaxOrderTerms : ℕ := 32

/-- The limit of the buffer of a scan's query. -/
def embeddedSqlLimit : ℕ := 65536

/-- `VpsEmbeddedOperator` -/
inductive EmbeddedOperator
  | eq | ne | lt | le | gt | ge | isNull | isNotNull
  deriving DecidableEq, Repr

/-- `VpsEmbeddedConstraint`, with any values. -/
structure EmbeddedConstraint (α : Type) where
  column : ℕ
  operation : EmbeddedOperator
  value : α

/-- `VpsEmbeddedOrderTerm` -/
structure EmbeddedOrderTerm where
  column : ℕ
  descending : Bool
  deriving DecidableEq

/-- `VpsEmbeddedScanRequest`; `selectedIndex`, `limit` and `offset` are there when their flag is
set. -/
structure EmbeddedScanRequest (α : Type) where
  projection : List ℕ
  constraints : List (EmbeddedConstraint α)
  orderTerms : List EmbeddedOrderTerm
  selectedIndex : Option ℕ
  limit : Option UInt64
  offset : Option UInt64

/-- What a scan reads of a database that is sealed. -/
structure EmbeddedDatabase where
  columnCount : ℕ
  indexCount : ℕ
  columnCount_le : columnCount ≤ embeddedMaxColumns
  indexCount_le : indexCount ≤ embeddedMaxIndexes

/-- `VpsEmbeddedSqliteStatus` (failures). -/
inductive EmbeddedStatus
  | invalidArgument | outOfMemory
  deriving DecidableEq, Repr

/-! ## Writing -/

section Building

variable {α : Type}

/-- `vps_embedded_sql_append`: so many bytes of the text. -/
def embeddedSqlAppend (sql text : List UInt8) (length : ℕ) : Option (List UInt8) :=
  if sql.length + length > embeddedSqlLimit then none else some (sql ++ text.take length)

/-- `vps_embedded_sql_number`: the number behind its prefix, in a buffer of 48 bytes. -/
def embeddedSqlNumber (sql before : List UInt8) (value : ℕ) : Option (List UInt8) :=
  let text := before ++ decimal value
  if text.length < 48 then embeddedSqlAppend sql text text.length else none

/-- `vps_embedded_operator_sql` -/
def embeddedOperatorSql : EmbeddedOperator → List UInt8
  | .eq => ascii "=?"
  | .ne => ascii "<>?"
  | .lt => ascii "<?"
  | .le => ascii "<=?"
  | .gt => ascii ">?"
  | .ge => ascii ">=?"
  | .isNull => ascii " IS NULL"
  | .isNotNull => ascii " IS NOT NULL"

/-- One round of the loop over the projection. -/
def buildProjection (database : EmbeddedDatabase) (sql : List UInt8) (entry : ℕ × ℕ) :
    Option (List UInt8) :=
  if entry.1 ≥ database.columnCount then none
  else do
    let sql ← if entry.2 ≠ 0 then embeddedSqlAppend sql (ascii ",") 1 else some sql
    embeddedSqlNumber sql (ascii "c") entry.1

/-- One round of the loop over the constraints. -/
def buildConstraint (database : EmbeddedDatabase) (sql : List UInt8)
    (entry : EmbeddedConstraint α × ℕ) : Option (List UInt8) :=
  if entry.1.column ≥ database.columnCount then none
  else do
    let sql ← embeddedSqlAppend sql (if entry.2 = 0 then ascii " WHERE " else ascii " AND ")
      (if entry.2 = 0 then 7 else 5)
    let sql ← embeddedSqlNumber sql (ascii "c") entry.1.column
    embeddedSqlAppend sql (embeddedOperatorSql entry.1.operation)
      (embeddedOperatorSql entry.1.operation).length

/-- One round of the loop over the order terms. -/
def buildOrderTerm (database : EmbeddedDatabase) (sql : List UInt8)
    (entry : EmbeddedOrderTerm × ℕ) :
    Option (List UInt8) :=
  if entry.1.column ≥ database.columnCount then none
  else do
    let sql ← if entry.2 ≠ 0 then embeddedSqlAppend sql (ascii ",") 1 else some sql
    let sql ← embeddedSqlNumber sql (ascii "c") entry.1.column
    embeddedSqlAppend sql (if entry.1.descending then ascii " DESC" else ascii " ASC") 4

/-- The index hint. -/
def buildIndexHint (database : EmbeddedDatabase) (sql : List UInt8) : Option ℕ → Option (List UInt8)
  | none => some sql
  | some selectedIndex =>
    if selectedIndex ≥ database.indexCount then none
    else do
      let sql ← embeddedSqlAppend sql (ascii " INDEXED BY vps_idx_") 20
      embeddedSqlNumber sql [] selectedIndex

/-- The order. -/
def buildOrder (database : EmbeddedDatabase) (sql : List UInt8)
    (orderTerms : List EmbeddedOrderTerm) :
    Except EmbeddedStatus (List UInt8) :=
  if orderTerms.length ≠ 0 then
    match embeddedSqlAppend sql (ascii " ORDER BY ") 10 with
    | none => .error .outOfMemory
    | some sql => (orderTerms.zipIdx.foldlM (buildOrderTerm database) sql).elim
        (.error .invalidArgument) .ok
  else .ok sql

/-- LIMIT, which has to be there for OFFSET. -/
def buildLimit (sql : List UInt8) (limit offset : Option UInt64) : Option (List UInt8) :=
  match limit with
  | some limit => embeddedSqlNumber sql (ascii " LIMIT ") limit.toNat
  | none => if offset.isSome then embeddedSqlAppend sql (ascii " LIMIT -1") 9 else some sql

/-- OFFSET. -/
def buildOffset (sql : List UInt8) (offset : Option UInt64) : Option (List UInt8) :=
  match offset with
  | some offset => embeddedSqlNumber sql (ascii " OFFSET ") offset.toNat
  | none => some sql

/-- `vps_embedded_build_scan_sql` -/
def embeddedBuildScanSql (database : EmbeddedDatabase) (request : EmbeddedScanRequest α)
    (explain : Bool) : Except EmbeddedStatus (List UInt8) := do
  let sql ← (if explain then embeddedSqlAppend [] (ascii "EXPLAIN QUERY PLAN ") 19
    else some []).elim (.error .outOfMemory) .ok
  let sql ← (embeddedSqlAppend sql (ascii "SELECT ") 7).elim (.error .outOfMemory) .ok
  let sql ← (request.projection.zipIdx.foldlM (buildProjection database) sql).elim
    (.error .invalidArgument) .ok
  let sql ← (embeddedSqlAppend sql (ascii " FROM vps_snapshot") 18).elim (.error .outOfMemory) .ok
  let sql ← (buildIndexHint database sql request.selectedIndex).elim (.error .invalidArgument) .ok
  let sql ← (request.constraints.zipIdx.foldlM (buildConstraint database) sql).elim
    (.error .invalidArgument) .ok
  let sql ← buildOrder database sql request.orderTerms
  let sql ← (buildLimit sql request.limit request.offset).elim (.error .outOfMemory) .ok
  (buildOffset sql request.offset).elim (.error .outOfMemory) .ok

/-! ## Binding -/

/-- The operator compares with a value. -/
def EmbeddedOperator.takesValue : EmbeddedOperator → Bool
  | .isNull | .isNotNull => false
  | _ => true

/-- The loop of `vps_embedded_sqlite_scan_open` that binds: the parameters and their values. -/
def embeddedBindings : List (EmbeddedConstraint α) → ℕ → List (ℕ × α)
  | [], _ => []
  | constraint :: rest, parameter =>
    if constraint.operation.takesValue then
      (parameter, constraint.value) :: embeddedBindings rest (parameter + 1)
    else embeddedBindings rest parameter

/-! ## What a request asks for -/

/-- The request is within the limits and the database. -/
structure EmbeddedScanRequest.Fits (request : EmbeddedScanRequest α) (database : EmbeddedDatabase) :
    Prop where
  projection_ne : request.projection ≠ []
  projection_le : request.projection.length ≤ database.columnCount
  projection : ∀ column ∈ request.projection, column < database.columnCount
  constraints_le : request.constraints.length ≤ embeddedMaxConstraints
  constraints : ∀ c ∈ request.constraints, c.column < database.columnCount
  orderTerms_le : request.orderTerms.length ≤ embeddedMaxOrderTerms
  orderTerms : ∀ term ∈ request.orderTerms, term.column < database.columnCount
  selectedIndex : ∀ index ∈ request.selectedIndex, index < database.indexCount

/-- The name of a column. -/
def columnName (column : ℕ) : List UInt8 := ascii "c" ++ decimal column

/-- The comparison of an operator. -/
def EmbeddedOperator.comparison : EmbeddedOperator → Option SelectComparison
  | .eq => some .eq
  | .ne => some .ne
  | .lt => some .lt
  | .le => some .le
  | .gt => some .gt
  | .ge => some .ge
  | .isNull | .isNotNull => none

/-- The condition of a constraint, with the parameter that its value is bound to. -/
def EmbeddedConstraint.condition (constraint : EmbeddedConstraint α) (parameter : ℕ) :
    SelectCondition :=
  match constraint.operation with
  | .eq => .compare (columnName constraint.column) .eq parameter
  | .ne => .compare (columnName constraint.column) .ne parameter
  | .lt => .compare (columnName constraint.column) .lt parameter
  | .le => .compare (columnName constraint.column) .le parameter
  | .gt => .compare (columnName constraint.column) .gt parameter
  | .ge => .compare (columnName constraint.column) .ge parameter
  | .isNull => .isNull (columnName constraint.column)
  | .isNotNull => .isNotNull (columnName constraint.column)

end Building

end Vps
