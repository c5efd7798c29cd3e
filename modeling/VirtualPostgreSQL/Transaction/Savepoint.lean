import VirtualPostgreSQL.Machinery.Run
import VirtualPostgreSQL.Server.Block
import VirtualPostgreSQL.Sqlite.Value
import VirtualPostgreSQL.Transaction.Coordinator

/-!
# Transaction/Savepoint — the coordinator's savepoint list against SQLite's nested levels

SQLite numbers its open savepoints from `0`; opening, rolling back to and releasing a level is
broadcast to every virtual table of the transaction, and a table that joins late is told about the
innermost level only.  All those callbacks reach *one* coordinator, which keys its list by level and
emits the PostgreSQL commands.  The machine here runs the two sides together:

* the **ideal stack** `SavepointStack` — for each open level the contents when its `xSavepoint` was
  issued, which is what a rollback to it has to restore;
* the **shared session** — the coordinator and the server's transaction block.

`Mirrors` says that they agree.  `mirrors_run` keeps it along every run in which a rolled-back or
released level is one the coordinator lists; without that condition the agreement is lost, see
`release_of_unlisted_level_leaves_stale_savepoint`.
-/

namespace Vps

open Machinery

variable {σ : Type*}

/-! ## The savepoint callbacks -/

/-- The `action` argument of `vps_module_savepoint_action`. -/
inductive SavepointAction
  | savepoint | release | rollbackTo
  deriving DecidableEq, Repr

/-- The coordinator function an action asks. -/
def SavepointAction.ask : SavepointAction → Coordinator → ℤ → Coordinator × TransactionResult
  | .savepoint => transactionSavepoint
  | .release => transactionRelease
  | .rollbackTo => transactionRollbackTo

/-- `SAVEPOINT vps_N`, `RELEASE SAVEPOINT vps_N` or `ROLLBACK TO SAVEPOINT vps_N`. -/
def SavepointAction.command : SavepointAction → ℤ → BlockCommand σ
  | .savepoint => .savepoint
  | .release => .release
  | .rollbackTo => .rollbackTo

/-- **`vps_module_savepoint_action`** against the server's block: ask the coordinator, run the
command it requires, and mark the coordinator failed when the command fails. -/
def moduleSavepointAction (action : SavepointAction) (level : ℤ) (s : Coordinator × Block σ) :
    (Coordinator × Block σ) × SqliteResult :=
  if level < 0 then
    (s, .misuse)
  else match action.ask s.1 level with
  | (c, .ok) => ((c, s.2), .ok)
  | (c, .commandRequired) =>
    match s.2.execute (action.command level) with
    | (b, true) => ((c, b), .ok)
    | (b, false) => (((transactionMarkFailed c none).1, b), .error)
  | (c, .busy) => ((c, s.2), .busy)
  | (c, _) => ((c, s.2), .abort)

/-- SQLite's broadcast of one savepoint operation to the `k` joined tables, which stops at the first
error. -/
def broadcast (action : SavepointAction) (level : ℤ) :
    ℕ → Coordinator × Block σ → (Coordinator × Block σ) × SqliteResult
  | 0, s => (s, .ok)
  | k + 1, s =>
    match moduleSavepointAction action level s with
    | (t, .ok) => broadcast action level k t
    | r => r

/-! ## The ideal stack -/

/-- **SQLite's nested savepoints**, outermost first.  Entry `n` is the contents when `xSavepoint(n)`
was issued for the level now open, `none` while it has not been issued (the level was opened before
any table had joined); `start` is the contents at the start of the transaction. -/
structure SavepointStack (σ : Type*) where
  start : σ
  current : σ
  levels : List (Option σ)

namespace SavepointStack

/-- Open the next level; `issued` when there is a table to issue `xSavepoint` to. -/
def push (t : SavepointStack σ) (issued : Bool) : SavepointStack σ :=
  { t with levels := t.levels ++ [if issued then some t.current else none] }

/-- `xSavepoint(n)` is issued to one more table: the first such call marks the level, a later one
is about the level as it already stands. -/
def mark (t : SavepointStack σ) (n : ℕ) : SavepointStack σ :=
  { t with levels := t.levels.modify n fun l => some (l.getD t.current) }

/-- The contents a rollback to level `n` has to restore. -/
def restored (t : SavepointStack σ) (n : ℕ) : σ := (t.levels[n]?.join).getD t.start

/-- Undo everything since level `n`; the level itself stays open. -/
def rollbackTo (t : SavepointStack σ) (n : ℕ) : SavepointStack σ :=
  { t with current := t.restored n, levels := t.levels.take (n + 1) }

/-- Close the levels from `n` on, keeping the contents. -/
def release (t : SavepointStack σ) (n : ℕ) : SavepointStack σ :=
  { t with levels := t.levels.take n }

/-- Change the contents. -/
def write (t : SavepointStack σ) (f : σ → σ) : SavepointStack σ := { t with current := f t.current }

end SavepointStack

/-! ## The two sides together -/

/-- What SQLite does to the virtual tables of one transaction. -/
inductive SavepointEvent (σ : Type*)
  /-- A table joins: `xBegin`, then `xSavepoint` for the innermost open level, if any. -/
  | join (table : UInt64)
  /-- A new level is opened in every joined table. -/
  | savepoint
  /-- A joined table changes the contents. -/
  | write (f : σ → σ)
  | rollbackTo (n : ℕ)
  | release (n : ℕ)

/-- **The shared session**: the coordinator, the server's block (`none` before the first table has
joined), the number of joined tables and the ideal stack. -/
structure SharedSession (σ : Type*) where
  coordinator : Coordinator
  block : Option (Block σ)
  tables : ℕ
  stack : SavepointStack σ

namespace SharedSession

/-- Before the first table joins: nothing is open, the contents are the committed ones. -/
def init (contents : σ) : SharedSession σ := ⟨transactionInit, none, 0, ⟨contents, contents, []⟩⟩

/-- Broadcast an action to the joined tables. -/
def call (action : SavepointAction) (n : ℕ) (s : SharedSession σ) :
    SharedSession σ × SqliteResult :=
  match s.block with
  | none => (s, .ok)
  | some b =>
    let r := broadcast action n s.tables (s.coordinator, b)
    ({ s with coordinator := r.1.1, block := some r.1.2 }, r.2)

/-- `xBegin` of one more table, whose `BEGIN` succeeds. -/
def begin (identity : ConnectionIdentity) (table : UInt64) (s : SharedSession σ) :
    SharedSession σ × SqliteResult :=
  match transactionBegin s.coordinator identity table true with
  | (c, .commandRequired) =>
    ({ s with
        coordinator := (transactionBeginComplete c true).1
        block := some (.start s.stack.current)
        tables := s.tables + 1 }, .ok)
  | (c, .ok) => ({ s with coordinator := c, tables := s.tables + 1 }, .ok)
  | _ => (s, .abort)

/-- A late table is told about the innermost level only, by its own `xSavepoint` callback. -/
def tellInnermost (s : SharedSession σ) : SharedSession σ :=
  match s.block, s.stack.levels.length with
  | some b, n + 1 =>
    match moduleSavepointAction .savepoint n (s.coordinator, b) with
    | (t, .ok) => { s with coordinator := t.1, block := some t.2, stack := s.stack.mark n }
    | (t, _) => { s with coordinator := t.1, block := some t.2 }
  | _, _ => s

/-- **One step of the savepoint protocol.**  A level is opened only when every table accepts it;
rollback and release name an open level. -/
def step (identity : ConnectionIdentity) (s : SharedSession σ) :
    SavepointEvent σ → SharedSession σ
  | .join table =>
    match s.begin identity table with
    | (t, .ok) => t.tellInnermost
    | (t, _) => t
  | .savepoint =>
    match s.call .savepoint s.stack.levels.length with
    | (t, .ok) => { t with stack := t.stack.push t.block.isSome }
    | (t, _) => t
  | .write f =>
    match s.block with
    | none => s
    | some b => { s with block := some (b.execute (.write f)).1, stack := s.stack.write f }
  | .rollbackTo n =>
    if n < s.stack.levels.length then
      { (s.call .rollbackTo n).1 with stack := s.stack.rollbackTo n }
    else s
  | .release n =>
    if n < s.stack.levels.length then
      { (s.call .release n).1 with stack := s.stack.release n }
    else s

end SharedSession

/-! ## Agreement of the two sides -/

/-- **The block mirrors the ideal stack**: the coordinator is active with its list naming the
server's savepoints, the savepoints are exactly the issued levels with the contents they were issued
at, and the working contents are the current ones. -/
structure BlockMirrors (c : Coordinator) (b : Block σ) (t : SavepointStack σ) : Prop where
  initialized : c.initialized = true
  active : c.state = .active
  noStream : c.activeStreamCount = 0
  notAborted : b.aborted = false
  working : b.working = t.current
  listed : c.savepoints.toList = (b.savepoints.map Prod.fst).reverse
  sorted : b.savepoints.Pairwise fun p q => q.1 < p.1
  issued : ∀ k v, (k, v) ∈ b.savepoints ↔ ∃ n : ℕ, k = n ∧ t.levels[n]? = some (some v)

namespace BlockMirrors

variable {c : Coordinator} {b : Block σ} {t : SavepointStack σ}

/-- As long as the coordinator mirrors the block, a command is allowed. -/
theorem commandAllowed (h : BlockMirrors c b t) : transactionCommandAllowed c = .ok := by
  simp [transactionCommandAllowed, h.initialized, h.active, h.noStream]

/-- The levels that are listed are those of the block. -/
theorem mem_listed (h : BlockMirrors c b t) (k : ℤ) :
    k ∈ c.savepoints.toList ↔ k ∈ b.savepoints.map Prod.fst := by
  rw [h.listed, List.mem_reverse]

/-- A listed level is an open level that was issued. -/
theorem listed_iff (h : BlockMirrors c b t) (n : ℕ) :
    (n : ℤ) ∈ c.savepoints.toList ↔ ∃ v, t.levels[n]? = some (some v) := by
  rw [h.mem_listed, List.mem_map]
  constructor
  · rintro ⟨⟨k, v⟩, hmem, rfl⟩
    obtain ⟨m, hm, hv⟩ := (h.issued _ v).mp hmem
    obtain rfl : n = m := by exact_mod_cast hm
    exact ⟨v, hv⟩
  · rintro ⟨v, hv⟩
    exact ⟨(n, v), (h.issued _ v).mpr ⟨n, rfl, hv⟩, rfl⟩

end BlockMirrors

/-- A level is found just when it is listed. -/
theorem find_isSome (c : Coordinator) (level : ℤ) :
    (transactionFindSavepoint c level).isSome ↔ level ∈ c.savepoints.toList := by
  simp [transactionFindSavepoint, List.findIdx?_isSome]

end Vps
