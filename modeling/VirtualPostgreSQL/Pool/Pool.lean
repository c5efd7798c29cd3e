import VirtualPostgreSQL.Machinery.Count

/-!
# Pool/Pool — the connection pool

`vps_connection_pool.c`.  The pool is a fixed array of `n = maximum_size` slots and one of
`m = maximum_waiters` waiters, with counters kept by hand.  Every public call runs under the mutex,
so between two condition waits it is one atomic step; what the environment decides during the step
(the interrupt probe, the clock, the callbacks) is an argument of the step.

The callback context records what the callbacks were used for: `create` numbers the connections it
produces, `destroy` records the numbers it was given.  A connection's *address* is what the pool
compares; it may be reused once the connection is destroyed.
-/

namespace Vps

/-! ## The data model -/

/-- `VpsConnectionPoolResult`. -/
inductive PoolResult
  | ok | invalidArgument | outOfMemory | createFailed | validateFailed | resetFailed | busy
  | interrupted | closed | keyMismatch | staleLease | platformError
  deriving DecidableEq, Repr

/-- A connection: the pointer the pool holds, and which of the produced connections it is. -/
structure Connection where
  address : ℕ
  serial : ℕ
  deriving DecidableEq

/-- `VpsPoolSlot`. -/
structure PoolSlot where
  connection : Option Connection
  leaseToken : UInt64
  lastUsedMs : UInt64
  inUse : Bool
  deriving DecidableEq

/-- `VpsPoolWaiter`. -/
structure PoolWaiter where
  ticket : UInt64
  active : Bool
  deriving DecidableEq

/-- `VpsConnectionPoolKey`, less the fingerprint kept for the log. -/
structure PoolKey where
  identity : List UInt8
  credentialGeneration : UInt64
  configurationGeneration : UInt64
  readOnly : Bool
  deriving DecidableEq

/-- What the `create` and `destroy` callbacks have done so far. -/
structure CallbackContext where
  /-- The connections produced, numbered from `0`. -/
  produced : ℕ
  /-- The numbers passed to `destroy`, latest first. -/
  destroyed : List ℕ
  deriving DecidableEq

/-- `VpsConnectionPool`: the slots, the waiters and the counters. -/
structure Pool (n m : ℕ) where
  key : PoolKey
  /-- Whether a `validate` callback is installed. -/
  hasValidate : Bool
  /-- Whether a `reset` callback is installed. -/
  hasReset : Bool
  context : CallbackContext
  slots : Fin n → PoolSlot
  waiters : Fin m → PoolWaiter
  idleValidationMs : UInt64
  waitSliceMs : UInt32
  nextTicket : UInt64
  nextToken : UInt64
  total : UInt32
  active : UInt32
  waiting : UInt32
  closed : Bool

/-- `VpsConnectionLease`; `pool` is the pool it is used with. -/
structure Lease where
  address : ℕ
  token : UInt64
  slotIndex : ℕ
  deriving DecidableEq

/-- `VpsConnectionLeaseDisposition`. -/
inductive LeaseDisposition
  | clean | dirty
  deriving DecidableEq, Repr

/-- `VpsDeadline`. -/
structure Deadline where
  startedAtMs : UInt64
  expiresAtMs : UInt64
  deriving DecidableEq

/-- `vps_deadline_init_at`. -/
def deadlineInitAt (nowMs durationMs : UInt64) : Option Deadline :=
  if durationMs > 0xFFFFFFFFFFFFFFFF - nowMs then none else some ⟨nowMs, nowMs + durationMs⟩

/-- `vps_deadline_remaining_at`: the remaining time, and whether it is over. -/
def deadlineRemainingAt (deadline : Deadline) (nowMs : UInt64) : Option (UInt64 × Bool) :=
  if deadline.expiresAtMs < deadline.startedAtMs then none
  else if nowMs < deadline.startedAtMs then none
  else if nowMs ≥ deadline.expiresAtMs then some (0, true)
  else some (deadline.expiresAtMs - nowMs, false)

variable {n m : ℕ}

/-! ## Slots -/

/-- `vps_pool_key_matches`; `none` for a missing key. -/
def poolKeyMatches (p : Pool n m) : Option PoolKey → Bool
  | none => false
  | some key => key.identity.length == p.key.identity.length && key.identity == p.key.identity &&
      key.credentialGeneration == p.key.credentialGeneration &&
      key.configurationGeneration == p.key.configurationGeneration &&
      key.readOnly == p.key.readOnly

/-- `vps_pool_next_nonzero`. -/
def poolNextNonzero (value : UInt64) : UInt64 := if value + 1 = 0 then 1 else value + 1

/-- `vps_pool_destroy_slot`. -/
def poolDestroySlot (p : Pool n m) (index : Fin n) : Pool n m :=
  match (p.slots index).connection with
  | none => p
  | some connection =>
    { p with
      context := { p.context with destroyed := connection.serial :: p.context.destroyed }
      slots := Function.update p.slots index
        { connection := none, leaseToken := 0, lastUsedMs := 0, inUse := false }
      total := p.total - 1 }

/-- The reply of the `create` callback: its result code, and the connection it stored, if any. -/
structure CreateReply where
  succeeded : Bool
  address : Option ℕ

/-- `vps_pool_create_slot`: a connection stored beside a failure code is destroyed at once. -/
def poolCreateSlot (p : Pool n m) (reply : CreateReply) : Pool n m × Except PoolResult (Fin n) :=
  match (List.finRange n).find? fun index => (p.slots index).connection.isNone with
  | none => (p, .error .busy)
  | some index =>
    match reply.address with
    | none => (p, .error .createFailed)
    | some address =>
      if reply.succeeded then
        ({ p with
            context := { p.context with produced := p.context.produced + 1 }
            slots := Function.update p.slots index
              { p.slots index with
                connection := some ⟨address, p.context.produced⟩
                lastUsedMs := 0 }
            total := p.total + 1 }, .ok index)
      else
        ({ p with
            context := ⟨p.context.produced + 1, p.context.produced :: p.context.destroyed⟩ },
          .error .createFailed)

/-- Whether `vps_pool_take_available` validates an idle slot before handing it out. -/
def poolNeedsValidation (p : Pool n m) (slot : PoolSlot) (nowMs : UInt64) : Bool :=
  p.hasValidate && (p.idleValidationMs == 0 || slot.lastUsedMs == 0 ||
    nowMs - slot.lastUsedMs ≥ p.idleValidationMs)

/-- The loop of `vps_pool_take_available` over the slots still to visit: the first idle connection
that is valid; invalid ones are destroyed on the way. -/
def poolTakeIdle (nowMs : UInt64) (validate : Fin n → Bool) :
    List (Fin n) → Pool n m → Pool n m × Option (Fin n)
  | [], p => (p, none)
  | index :: rest, p =>
    if (p.slots index).connection.isNone || (p.slots index).inUse then
      poolTakeIdle nowMs validate rest p
    else if poolNeedsValidation p (p.slots index) nowMs && !validate index then
      poolTakeIdle nowMs validate rest (poolDestroySlot p index)
    else (p, some index)

/-- `vps_pool_take_available`. -/
def poolTakeAvailable (p : Pool n m) (nowMs : UInt64) (validate : Fin n → Bool)
    (create : CreateReply) : Pool n m × Except PoolResult (Fin n) :=
  match poolTakeIdle nowMs validate (List.finRange n) p with
  | (q, some index) => (q, .ok index)
  | (q, none) => if q.total.toNat < n then poolCreateSlot q create else (q, .error .busy)

/-- `vps_pool_fill_lease`. -/
def poolFillLease (p : Pool n m) (index : Fin n) : Pool n m × Lease :=
  let token := poolNextNonzero p.nextToken
  ({ p with
      slots := Function.update p.slots index
        { p.slots index with inUse := true, leaseToken := token }
      nextToken := token
      active := p.active + 1 },
    { address := ((p.slots index).connection.map Connection.address).getD 0
      token := token
      slotIndex := index })

/-! ## Waiters -/

/-- `vps_pool_first_ticket`. -/
def poolFirstTicket (p : Pool n m) : UInt64 :=
  (List.finRange m).foldl
    (fun first index =>
      if (p.waiters index).active && (p.waiters index).ticket < first then
        (p.waiters index).ticket
      else first)
    0xFFFFFFFFFFFFFFFF

/-- `vps_pool_waiter_add`. -/
def poolWaiterAdd (p : Pool n m) : Option (Pool n m × Fin m × UInt64) :=
  match (List.finRange m).find? fun index => !(p.waiters index).active with
  | none => none
  | some index =>
    let ticket := poolNextNonzero p.nextTicket
    some ({ p with
        waiters := Function.update p.waiters index ⟨ticket, true⟩
        nextTicket := ticket
        waiting := p.waiting + 1 }, index, ticket)

/-- `vps_pool_waiter_remove`; `none` is the initial `UINT32_MAX`. -/
def poolWaiterRemove (p : Pool n m) : Option (Fin m) → Pool n m
  | none => p
  | some index =>
    if (p.waiters index).active then
      { p with
        waiters := Function.update p.waiters index ⟨0, false⟩
        waiting := p.waiting - 1 }
    else p

/-! ## Acquire -/

/-- `VpsInterruptProbeResult`. -/
inductive InterruptProbe
  | continue | requested | failed
  deriving DecidableEq, Repr

/-- The locals of one `vps_connection_pool_acquire` call that survive a condition wait. -/
structure AcquireCall (m : ℕ) where
  deadline : Deadline
  waiterIndex : Option (Fin m)
  ticket : UInt64

/-- What the environment answers during one round of the acquire loop. -/
structure AcquireReplies (n : ℕ) where
  /-- `none` when the caller passed no probe. -/
  probe : Option InterruptProbe
  /-- `none` when the clock fails. -/
  now : Option UInt64
  validate : Fin n → Bool
  create : CreateReply

/-- How a round of the acquire loop ends: the call returns, or parks in the condition wait. -/
inductive AcquireOutcome (m : ℕ)
  | done (result : PoolResult) (lease : Option Lease)
  | park (call : AcquireCall m) (sliceMs : UInt64)

/-- Leaving the loop. -/
def acquireFinish (p : Pool n m) (call : AcquireCall m) (result : PoolResult) :
    Pool n m × AcquireOutcome m :=
  (poolWaiterRemove p call.waiterIndex, .done result none)

/-- The end of a round: give up at the deadline, or wait one slice. -/
def acquirePark (p : Pool n m) (call : AcquireCall m) (nowMs : UInt64) :
    Pool n m × AcquireOutcome m :=
  match deadlineRemainingAt call.deadline nowMs with
  | none => acquireFinish p call .platformError
  | some (_, true) => acquireFinish p call .busy
  | some (remaining, false) =>
    (p, .park call
      (if remaining > p.waitSliceMs.toUInt64 then p.waitSliceMs.toUInt64 else remaining))

/-- A round that found nothing: queue up if not queued yet, then wait. -/
def acquireQueue (p : Pool n m) (call : AcquireCall m) (nowMs : UInt64) :
    Pool n m × AcquireOutcome m :=
  if call.ticket = 0 then
    match poolWaiterAdd p with
    | none => acquireFinish p call .busy
    | some (q, index, ticket) =>
      acquirePark q { call with waiterIndex := some index, ticket := ticket } nowMs
  else acquirePark p call nowMs

/-- Whether it is this call's turn. -/
def acquireTurn (p : Pool n m) (call : AcquireCall m) : Bool :=
  (call.ticket == 0 && p.waiting == 0) || (call.ticket != 0 && call.ticket == poolFirstTicket p)

/-- **One round of the loop of `vps_connection_pool_acquire`**, from the top of the loop (or the
return of the condition wait) to the next wait or the return. -/
def acquireRound (p : Pool n m) (call : AcquireCall m) (r : AcquireReplies n) :
    Pool n m × AcquireOutcome m :=
  if p.closed then
    acquireFinish p call .closed
  else if r.probe = some .requested then
    acquireFinish p call .interrupted
  else if r.probe = some .failed then
    acquireFinish p call .platformError
  else match r.now with
  | none => acquireFinish p call .platformError
  | some nowMs =>
    if acquireTurn p call then
      match poolTakeAvailable p nowMs r.validate r.create with
      | (q, .ok index) =>
        let filled := poolFillLease (poolWaiterRemove q call.waiterIndex) index
        (poolWaiterRemove filled.1 call.waiterIndex, .done .ok (some filled.2))
      | (q, .error .busy) => acquireQueue q call nowMs
      | (q, .error result) => acquireFinish q call result
    else acquireQueue p call nowMs

/-- `VPS_CONNECTION_POOL_MAX_TIMER_MS`. -/
def poolMaxTimerMs : UInt64 := 86400000

/-- What a thread passes to `vps_connection_pool_acquire`, and what the environment answers before
the loop. -/
structure AcquireRequest where
  /-- The lease passed in is a cleared one. -/
  leaseCleared : Bool
  key : Option PoolKey
  timeoutMs : UInt64
  /-- The clock read that starts the deadline. -/
  started : Option UInt64
  lockOk : Bool

/-- `vps_connection_pool_acquire` up to its first wait. -/
def connectionPoolAcquire (p : Pool n m) (q : AcquireRequest) (r : AcquireReplies n) :
    Pool n m × AcquireOutcome m :=
  if !q.leaseCleared || q.timeoutMs > poolMaxTimerMs then
    (p, .done .invalidArgument none)
  else if !poolKeyMatches p q.key then
    (p, .done .keyMismatch none)
  else match q.started.bind fun nowMs => deadlineInitAt nowMs q.timeoutMs with
  | none => (p, .done .platformError none)
  | some deadline =>
    if !q.lockOk then (p, .done .platformError none)
    else acquireRound p ⟨deadline, none, 0⟩ r

/-- How the condition wait returned. -/
inductive WaitStatus
  | ok | timeout | failed
  deriving DecidableEq, Repr

/-- `vps_connection_pool_acquire` from the return of a wait to the next one. -/
def connectionPoolResume (p : Pool n m) (call : AcquireCall m) (status : WaitStatus)
    (r : AcquireReplies n) : Pool n m × AcquireOutcome m :=
  if status = .failed then acquireFinish p call .platformError else acquireRound p call r

/-! ## Release and close -/

/-- What the environment answers during a release. -/
structure ReleaseReplies where
  lockOk : Bool
  reset : Bool
  now : Option UInt64

/-- A slot whose lease ends. -/
def poolEndLease (p : Pool n m) (index : Fin n) : Pool n m :=
  { p with
    slots := Function.update p.slots index { p.slots index with inUse := false, leaseToken := 0 }
    active := p.active - 1 }

/-- A slot that was used until now. -/
def poolTouch (p : Pool n m) (index : Fin n) (nowMs : UInt64) : Pool n m :=
  { p with slots := Function.update p.slots index { p.slots index with lastUsedMs := nowMs } }

/-- `vps_connection_lease_release`; the last component says whether the lease was cleared.  A
cleared lease (`pool == NULL`) is `none`. -/
def connectionLeaseRelease (p : Pool n m) (lease : Option Lease) (disposition : LeaseDisposition)
    (r : ReleaseReplies) : Pool n m × PoolResult × Bool :=
  match lease with
  | none => (p, .staleLease, false)
  | some lease =>
    if !r.lockOk then
      (p, .platformError, false)
    else if h : lease.slotIndex < n then
      let index : Fin n := ⟨lease.slotIndex, h⟩
      let slot := p.slots index
      if !slot.inUse || slot.connection.map Connection.address ≠ some lease.address ||
          slot.leaseToken ≠ lease.token then
        (p, .staleLease, false)
      else
        let q := poolEndLease p index
        if p.closed || disposition = .dirty then
          (poolDestroySlot q index, .ok, true)
        else if p.hasReset && !r.reset then
          (poolDestroySlot q index, .resetFailed, true)
        else match r.now with
        | none => (poolDestroySlot q index, .platformError, true)
        | some nowMs => (poolTouch q index nowMs, .ok, true)
    else (p, .staleLease, false)

/-- The loop of `vps_connection_pool_close` over the slots still to visit. -/
def poolDestroyIdle : List (Fin n) → Pool n m → Pool n m
  | [], p => p
  | index :: rest, p =>
    poolDestroyIdle rest (if (p.slots index).inUse then p else poolDestroySlot p index)

/-- `vps_connection_pool_close`, when the mutex can be locked. -/
def connectionPoolClose (p : Pool n m) (lockOk : Bool) : Pool n m × PoolResult :=
  if !lockOk then (p, .invalidArgument)
  else (poolDestroyIdle (List.finRange n) { p with closed := true }, .ok)

/-- `vps_connection_pool_destroy` up to the release of the storage: close, then refuse while a lease
or a waiter is left. -/
def connectionPoolDestroy (p : Pool n m) (closeLockOk lockOk : Bool) : Pool n m × PoolResult :=
  match connectionPoolClose p closeLockOk with
  | (q, .ok) =>
    if !lockOk then (q, .platformError)
    else if q.active ≠ 0 ∨ q.waiting ≠ 0 then (q, .busy)
    else (q, .ok)
  | (q, _) => (q, .platformError)

/-! ## Creation -/

/-- `VpsConnectionPoolConfig`: the sizes and what the pool copies. -/
structure PoolConfig where
  key : PoolKey
  fingerprintLength : ℕ
  hasValidate : Bool
  hasReset : Bool
  minimumSize : UInt32
  maximumSize : UInt32
  maximumWaiters : UInt32
  waitSliceMs : UInt32
  idleValidationMs : UInt64

/-- `VPS_CONNECTION_POOL_MAX_SLOTS`. -/
def poolMaxSlots : UInt32 := 1024

/-- `VPS_CONNECTION_POOL_MAX_WAITERS`. -/
def poolMaxWaiters : UInt32 := 4096

/-- `VPS_WAIT_MAX_SLICE_MS`. -/
def waitMaxSliceMs : UInt32 := 1000

/-- `vps_pool_config_valid`, with the callbacks and the platform present. -/
def poolConfigValid (config : PoolConfig) : Bool :=
  !(config.key.identity.length == 0 || config.minimumSize > config.maximumSize ||
    config.maximumSize == 0 || config.maximumSize > poolMaxSlots || config.maximumWaiters == 0 ||
    config.maximumWaiters > poolMaxWaiters || config.waitSliceMs == 0 ||
    config.waitSliceMs > waitMaxSliceMs || config.idleValidationMs > poolMaxTimerMs) &&
  config.fingerprintLength == 64

/-- The zeroed pool of a configuration. -/
def poolEmpty (config : PoolConfig) (n m : ℕ) : Pool n m where
  key := config.key
  hasValidate := config.hasValidate
  hasReset := config.hasReset
  context := ⟨0, []⟩
  slots := fun _ => ⟨none, 0, 0, false⟩
  waiters := fun _ => ⟨0, false⟩
  idleValidationMs := config.idleValidationMs
  waitSliceMs := config.waitSliceMs
  nextTicket := 0
  nextToken := 0
  total := 0
  active := 0
  waiting := 0
  closed := false

/-- The loop that opens `minimum_size` connections. -/
def poolFillMinimum (p : Pool n m) (reply : ℕ → CreateReply) : ℕ → Pool n m × PoolResult
  | 0 => (p, .ok)
  | k + 1 =>
    match poolFillMinimum p reply k with
    | (q, .ok) =>
      match poolCreateSlot q (reply k) with
      | (q', .ok _) => (q', .ok)
      | (q', .error result) => (q', result)
    | (q, result) => (q, result)

/-- The pass of the `fail:` loop over the slots still to visit. -/
def poolDestroyEach : List (Fin n) → Pool n m → Pool n m
  | [], p => p
  | index :: rest, p => poolDestroyEach rest (poolDestroySlot p index)

/-- The `fail:` loop of the creation, `while (pool->total > 0)`: one pass leaves no connection
(`total_poolDestroyEach`), so the second test ends the loop. -/
def poolDrain (p : Pool n m) : Pool n m :=
  if p.total > 0 then poolDestroyEach (List.finRange n) p else p

/-- **`vps_connection_pool_create`**, when the memory and the platform objects are available: the
pool, or — the minimum could not be opened — the pool with every connection destroyed again. -/
def connectionPoolCreate (config : PoolConfig) (reply : ℕ → CreateReply) :
    Pool config.maximumSize.toNat config.maximumWaiters.toNat × PoolResult :=
  let empty := poolEmpty config config.maximumSize.toNat config.maximumWaiters.toNat
  if !poolConfigValid config then (empty, .invalidArgument)
  else match poolFillMinimum empty reply config.minimumSize.toNat with
  | (p, .ok) => (p, .ok)
  | (p, result) => (poolDrain p, result)

end Vps
