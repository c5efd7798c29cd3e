import Mathlib.Data.Int.Notation
import VirtualPostgreSQL.Cursor.Machine

/-!
# Cursor/Scan — what SQLite calls on a cursor

`xFilter`, `xNext`, `xEof`, `xColumn` and `xRowid` of the module, with what they do to the machine
of the cursor.  What the calls around them answer (the client, the pool, the coordinator, the
planner, the embedded database, the allocator) is an input of the call.
-/

namespace Vps

/-! ## Cursors -/

/-- The result codes of the calls on a cursor; `reported` is the code that an error record
carries. -/
inductive CursorCode
  | ok | error | abort | busy | nomem | corruptVtab | schema | toobig | mismatch | misuse
  | reported (code : ℤ)
  deriving DecidableEq, Repr

/-- `VpsCursor`, the fields that its calls test; a pointer is whether it is set. -/
structure ScanCursor where
  machine : CursorMachine
  row : Bool
  statement : Bool
  transactionStream : Bool
  snapshotScan : Bool
  snapshotRow : Bool
  deriving DecidableEq, Repr

/-- The cursor that `xOpen` returns. -/
def moduleOpen : ScanCursor where
  machine := cursorMachineInit.fire .opened
  row := false
  statement := false
  transactionStream := false
  snapshotScan := false
  snapshotRow := false

/-- `vps_cursor_row_reset` -/
def ScanCursor.rowReset (cursor : ScanCursor) : ScanCursor :=
  { cursor with row := false, snapshotRow := false }

@[simp] theorem ScanCursor.machine_rowReset (cursor : ScanCursor) :
    cursor.rowReset.machine = cursor.machine := rfl

/-- An event whose refusal nobody looks at. -/
def ScanCursor.fire (cursor : ScanCursor) (event : CursorEvent) : ScanCursor :=
  { cursor with machine := cursor.machine.fire event }

/-- What the calls of `vps_cursor_release` answer. -/
structure ReleaseWorld where
  errorInitialized : Bool
  cancelStarts : Bool
  polls : ℕ → PollOutcome

/-- The cancellation of a statement that still runs. -/
def cursorCancel (world : ReleaseWorld) (cursor : ScanCursor) : ScanCursor :=
  if !world.errorInitialized then cursor
  else match cursorTransition cursor.machine .cancel with
  | none => cursor
  | some machine =>
    if !world.cancelStarts then { cursor with machine }
    else
      let driven := driveStatement world.polls vtabDriveLimit 0 machine
      if driven.1 then { cursor with machine := driven.2.fire .complete }
      else { cursor with machine := driven.2 }

/-- `vps_cursor_release` without its result, which `xFilter` does not look at. -/
def cursorRelease (world : ReleaseWorld) (cursor : ScanCursor) : ScanCursor :=
  let runs := cursor.machine.state = .filtering ∨ cursor.machine.state = .waiting ∨
    cursor.machine.state = .rowReady
  let cursor := { cursor with snapshotScan := false }
  let cursor := if cursor.statement ∧ runs then cursorCancel world cursor else cursor
  { cursor.rowReset with statement := false, transactionStream := false }

/-! ## The live path -/

/-- What the calls of `vps_cursor_advance` answer; `sqliteCode` is the code of the error record if
it is not `SQLITE_OK`. -/
structure FetchWorld where
  rowConsumed : Bool
  fetchStarts : Bool
  polls : ℕ → PollOutcome
  errorInitialized : Bool
  interrupted : Bool
  statementComplete : Bool
  statementCloses : Bool
  /-- The row is there, its columns are decoded, it gets its identity and fits the budget. -/
  rowAccepted : Bool
  sqliteCode : Option ℤ

/-- Leave the row the cursor is on; an error carries the cursor at `failed`. -/
def cursorLeaveRow (world : FetchWorld) (cursor : ScanCursor) : Except ScanCursor ScanCursor :=
  if !cursor.row then .ok cursor
  else match cursorTransition cursor.machine .fetch with
  | none => .error cursor
  | some machine =>
    let cursor := { cursor with machine }.rowReset
    if world.rowConsumed then .ok cursor else .error cursor

/-- Fetch, and look for an interrupt. -/
def cursorFetch (world : FetchWorld) (cursor : ScanCursor) : Except ScanCursor ScanCursor :=
  if !world.fetchStarts then .error cursor
  else
    let driven := driveStatement world.polls vtabDriveLimit 0 cursor.machine
    let cursor := { cursor with machine := driven.2 }
    if !driven.1 then .error cursor
    else if world.errorInitialized ∧ (world.interrupted ∨
        (cursor.machine.state = .cancelling ∧ world.statementComplete)) then .error cursor
    else .ok cursor

/-- Take the end of the rows, or the next row. -/
def cursorReceive (world : FetchWorld) (cursor : ScanCursor) : Except ScanCursor ScanCursor :=
  if world.statementComplete then
    match cursorTransition cursor.machine .complete with
    | none => .error cursor
    | some machine =>
      if world.statementCloses then
        .ok { cursor with machine, statement := false, transactionStream := false }
      else .error { cursor with machine }
  else if !world.rowAccepted then .error cursor
  else match cursorTransition cursor.machine .row with
  | none => .error { cursor with row := true }
  | some machine => .ok { cursor with machine, row := true }

/-- The code of an error record, or `SQLITE_ERROR`. -/
def reportedCode (sqliteCode : Option ℤ) : CursorCode :=
  match sqliteCode with
  | some code => .reported code
  | none => .error

/-- **`vps_cursor_advance`** -/
def cursorAdvance (world : FetchWorld) (cursor : ScanCursor) : CursorCode × ScanCursor :=
  match cursorLeaveRow world cursor >>= cursorFetch world >>= cursorReceive world with
  | .ok cursor => (.ok, cursor)
  | .error cursor =>
    (reportedCode world.sqliteCode, { cursor.rowReset with transactionStream := false }.fire .fail)

/-! ## The snapshot path -/

/-- What the calls of `vps_snapshot_advance` answer; a step is `none` if it fails. -/
structure SnapshotWorld where
  hasRow : Option Bool
  rowAccepted : Bool

/-- The end of `vps_snapshot_advance` at `failed`. -/
def snapshotFailed (cursor : ScanCursor) : CursorCode × ScanCursor :=
  (.error, cursor.rowReset.fire .fail)

/-- `vps_snapshot_advance` once the row is left. -/
def snapshotStep (world : SnapshotWorld) (cursor : ScanCursor) : CursorCode × ScanCursor :=
  match world.hasRow with
  | none => snapshotFailed cursor
  | some false =>
    match cursorTransition cursor.machine .complete with
    | none => snapshotFailed cursor
    | some machine => (.ok, { cursor with machine })
  | some true =>
    if !world.rowAccepted then snapshotFailed cursor
    else match cursorTransition cursor.machine .row with
    | none => snapshotFailed { cursor with snapshotRow := true }
    | some machine => (.ok, { cursor with machine, snapshotRow := true })

/-- **`vps_snapshot_advance`** -/
def snapshotAdvance (world : SnapshotWorld) (cursor : ScanCursor) : CursorCode × ScanCursor :=
  if !cursor.snapshotRow then snapshotStep world cursor
  else match cursorTransition cursor.machine .fetch with
  | none => (.error, cursor)
  | some machine => snapshotStep world { cursor with machine }.rowReset

/-! ## The calls of SQLite -/

/-- What the transaction of the module answers to a scan. -/
inductive StreamOutcome
  /-- There is no transaction. -/
  | idle
  | joined
  | busy
  | refused
  deriving DecidableEq, Repr

/-- A call of `xFilter`, and what the calls in it answer. -/
structure FilterCall where
  indexNumber : ℤ
  indexString : Option (List UInt8)
  argumentCount : ℤ
  cacheFallback : Bool
  /-- `vps_table_validate_cached_metadata` -/
  validation : CursorCode
  release : ReleaseWorld
  /-- `vps_plan_decode`, by the argument count of the plan. -/
  planArgumentCount : Option ℕ
  materialized : Bool
  valuesConvert : Bool
  snapshotAcquired : Bool
  scanOpens : Bool
  snapshot : SnapshotWorld
  executionBuilt : Bool
  withinBudget : Bool
  stream : StreamOutcome
  leaseAcquired : Bool
  statementOpens : Bool
  executeStarts : Bool
  polls : ℕ → PollOutcome
  sqliteCode : Option ℤ
  fetch : FetchWorld

/-- `VPS_PLAN_FORMAT_VERSION`, as SQLite hands it back. -/
def filterIndexNumber : ℤ := 2

/-- **`vps_snapshot_filter`** -/
def snapshotFilter (call : FilterCall) (argumentCount : ℕ) (cursor : ScanCursor) :
    CursorCode × ScanCursor :=
  if (argumentCount : ℤ) ≠ call.argumentCount then (.corruptVtab, cursor)
  else if !call.valuesConvert then (.mismatch, cursor)
  else if !call.snapshotAcquired then (.error, cursor)
  else if !call.scanOpens then (.error, cursor)
  else snapshotAdvance call.snapshot { cursor with snapshotScan := true }

/-- The statement of a live scan; `ready` is whether there is a connection. -/
def filterStatement (call : FilterCall) (ready : Bool) (cursor : ScanCursor) :
    CursorCode × ScanCursor :=
  let failed (cursor : ScanCursor) := (reportedCode call.sqliteCode, cursor.fire .fail)
  if !(ready && call.statementOpens) then failed cursor
  else
    let cursor := { cursor with statement := true }
    if !call.executeStarts then failed cursor
    else
      let driven := driveStatement call.polls vtabDriveLimit 0 cursor.machine
      let cursor := { cursor with machine := driven.2 }
      if driven.1 then cursorAdvance call.fetch cursor else failed cursor

/-- The live path of `vps_module_filter`. -/
def liveFilter (call : FilterCall) (cursor : ScanCursor) : CursorCode × ScanCursor :=
  if !call.executionBuilt then (.corruptVtab, cursor.fire .fail)
  else if !call.withinBudget then (.toobig, cursor.fire .fail)
  else match call.stream with
  | .busy => (.busy, cursor)
  | .refused => (.abort, cursor)
  | .joined => filterStatement call true { cursor with transactionStream := true }
  | .idle => filterStatement call call.leaseAcquired cursor

/-- `vps_module_filter` behind its transition. -/
def filterPlan (call : FilterCall) (cursor : ScanCursor) : CursorCode × ScanCursor :=
  match call.planArgumentCount with
  | none => (.corruptVtab, cursor.fire .fail)
  | some argumentCount =>
    if call.materialized then snapshotFilter call argumentCount cursor else liveFilter call cursor

/-- **`vps_module_filter`** -/
def moduleFilter (call : FilterCall) (cursor : ScanCursor) : CursorCode × ScanCursor :=
  if call.indexNumber ≠ filterIndexNumber ∨ call.indexString = none ∨ call.argumentCount < 0 ∨
      (cursor.machine.state ≠ .opened ∧ cursor.machine.state ≠ .eof) then (.misuse, cursor)
  else if call.cacheFallback ∧ call.validation ≠ .ok then (call.validation, cursor)
  else
    let cursor := cursorRelease call.release cursor
    match cursorTransition cursor.machine .filter with
    | none => (.misuse, cursor)
    | some machine => filterPlan call { cursor with machine }

/-- A call of `xNext`, and what the calls in it answer. -/
structure NextCall where
  errorInitialized : Bool
  snapshot : SnapshotWorld
  fetch : FetchWorld

/-- **`vps_module_next`** -/
def moduleNext (call : NextCall) (cursor : ScanCursor) : CursorCode × ScanCursor :=
  if cursor.machine.state ≠ .rowReady then (.misuse, cursor)
  else if cursor.snapshotScan then snapshotAdvance call.snapshot cursor
  else if !call.errorInitialized then (.nomem, cursor)
  else cursorAdvance call.fetch cursor

/-- **`vps_module_eof`** -/
def moduleEof (cursor : ScanCursor) : Bool := cursor.machine.state = .eof

/-- The test of `vps_module_column` on the cursor. -/
def moduleColumnReady (cursor : ScanCursor) : Bool := cursor.row || cursor.snapshotRow

/-- The test of `vps_module_rowid` on the cursor. -/
def moduleRowidReady (cursor : ScanCursor) : Bool := cursor.machine.state = .rowReady

end Vps
