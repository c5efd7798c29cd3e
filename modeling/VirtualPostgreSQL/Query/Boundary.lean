import Mathlib.Algebra.BigOperators.Group.List.Basic
import Mathlib.Data.UInt
import VirtualPostgreSQL.Machinery.Run

/-!
# Query/Boundary — the transaction around a query source

A query source is read between `BEGIN READ ONLY` and `COMMIT`, or `ROLLBACK` if anything goes wrong;
`vps_query_boundary_observe` counts the rows and their bytes and watches the time.  The executor may
answer each request in any way; its answers are part of a call.
-/

namespace Vps

open Machinery

/-! ## The boundary -/

/-- `VpsQueryBoundaryResult` -/
inductive BoundaryResult
  | ok | invalidArgument | invalidState | clientError | rowLimit | byteLimit | deadline
  | rollbackError
  deriving DecidableEq, Repr

/-- `VpsQueryBoundaryState` -/
inductive BoundaryState
  | new | starting | active | committing | committed | rollingBack | rolledBack | failed
  deriving DecidableEq, Repr

/-- `VpsQueryBoundaryPolicy` -/
structure BoundaryPolicy where
  searchPath : Option (List UInt8)
  statementTimeoutMs : UInt64
  lockTimeoutMs : UInt64
  maxRows : UInt64
  maxBytes : UInt64
  deadlineMs : UInt64

/-- The requests of a boundary to its executor, with the answer. -/
inductive BoundaryRequest
  | beginReadOnly (answer : BoundaryResult)
  | configureLocal (answer : BoundaryResult)
  | commit (answer : BoundaryResult)
  | rollback (answer : BoundaryResult)
  deriving DecidableEq, Repr

/-- `VpsQueryBoundary`, with what it has requested, the newest request first, and the rows that it
was shown while it was active: their bytes and the time. -/
structure QueryBoundary where
  policy : BoundaryPolicy
  state : BoundaryState := .new
  rowCount : UInt64 := 0
  byteCount : UInt64 := 0
  startedMs : UInt64 := 0
  initialized : Bool := true
  requests : List BoundaryRequest := []
  observed : List (UInt64 × UInt64) := []

/-- `VPS_QUERY_BOUNDARY_MAX_SEARCH_PATH_BYTES` -/
def boundaryMaxSearchPathBytes : ℕ := 1024

/-- `vps_query_boundary_policy_valid` -/
def queryBoundaryPolicyValid (policy : BoundaryPolicy) : Bool :=
  match policy.searchPath with
  | none => false
  | some searchPath =>
    searchPath.length != 0 && decide (searchPath.length ≤ boundaryMaxSearchPathBytes) &&
      policy.statementTimeoutMs != 0 && policy.lockTimeoutMs != 0 && policy.maxRows != 0 &&
      policy.maxBytes != 0 && policy.deadlineMs != 0 &&
      !searchPath.any fun byte => byte < 0x20 || byte == 0x7f

/-- `vps_query_boundary_init`; `usable` is the check of the executor. -/
def queryBoundaryInit (usable : Bool) (policy : BoundaryPolicy) : Option QueryBoundary :=
  if !usable || !queryBoundaryPolicyValid policy then none else some { policy }

namespace QueryBoundary

/-- A request is noted. -/
def request (b : QueryBoundary) (request : BoundaryRequest) : QueryBoundary :=
  { b with requests := request :: b.requests }

/-- A state is entered. -/
def enter (b : QueryBoundary) (state : BoundaryState) : QueryBoundary := { b with state }

end QueryBoundary

/-- `vps_query_boundary_rollback` -/
def queryBoundaryRollback (b : QueryBoundary) (answer cause : BoundaryResult) :
    BoundaryResult × QueryBoundary :=
  let b := (b.enter .rollingBack).request (.rollback answer)
  if answer ≠ .ok then (.rollbackError, b.enter .failed) else (cause, b.enter .rolledBack)

/-- The boundary answers to a call. -/
def QueryBoundary.isIn (b : QueryBoundary) (state : BoundaryState) : Bool :=
  b.initialized && b.state == state

/-- `vps_query_boundary_open`, with the answers to `BEGIN`, to the configuration and to a
rollback. -/
def queryBoundaryOpen (b : QueryBoundary) (nowMs : UInt64)
    (begun configured rolledBack : BoundaryResult) :
    BoundaryResult × QueryBoundary :=
  if !b.isIn .new then (.invalidState, b)
  else
    let b := (b.enter .starting).request (.beginReadOnly begun)
    if begun ≠ .ok then (.clientError, b.enter .failed)
    else
      let b := b.request (.configureLocal configured)
      if configured ≠ .ok then queryBoundaryRollback b rolledBack .clientError
      else (.ok, { b with startedMs := nowMs, state := .active })

/-- The counting of `vps_query_boundary_observe`, and the limit that is broken. -/
def queryBoundaryCount (b : QueryBoundary) (rowBytes nowMs : UInt64) :
    BoundaryResult × QueryBoundary :=
  if b.rowCount.toNat = 2 ^ 64 - 1 ∨ b.byteCount.toNat > 2 ^ 64 - 1 - rowBytes.toNat then
    (.byteLimit, b)
  else
    let b := { b with rowCount := b.rowCount + 1, byteCount := b.byteCount + rowBytes }
    if b.rowCount > b.policy.maxRows then (.rowLimit, b)
    else if b.byteCount > b.policy.maxBytes then (.byteLimit, b)
    else if nowMs < b.startedMs ∨ nowMs - b.startedMs > b.policy.deadlineMs then (.deadline, b)
    else (.ok, b)

/-- `vps_query_boundary_observe` -/
def queryBoundaryObserve (b : QueryBoundary) (rowBytes nowMs : UInt64)
    (rolledBack : BoundaryResult) :
    BoundaryResult × QueryBoundary :=
  if !b.isIn .active then (.invalidState, b)
  else
    let (result, b) := queryBoundaryCount
      { b with observed := (rowBytes, nowMs) :: b.observed } rowBytes nowMs
    if result ≠ .ok then queryBoundaryRollback b rolledBack result else (.ok, b)

/-- `vps_query_boundary_finish` -/
def queryBoundaryFinish (b : QueryBoundary) (committed : BoundaryResult) :
    BoundaryResult × QueryBoundary :=
  if !b.isIn .active then (.invalidState, b)
  else
    let b := (b.enter .committing).request (.commit committed)
    if committed ≠ .ok then (.clientError, b.enter .failed) else (.ok, b.enter .committed)

/-- `vps_query_boundary_fail` -/
def queryBoundaryFail (b : QueryBoundary) (rolledBack : BoundaryResult) :
    BoundaryResult × QueryBoundary :=
  if !b.isIn .active then (.invalidState, b) else queryBoundaryRollback b rolledBack .clientError

/-- `vps_query_boundary_cleanup` -/
def queryBoundaryCleanup (b : QueryBoundary) (rolledBack : BoundaryResult) :
    BoundaryResult × QueryBoundary :=
  if !b.initialized then (.ok, b)
  else
    let (result, b) :=
      if b.state = .active then queryBoundaryRollback b rolledBack .ok else (.ok, b)
    if b.state = .starting ∨ b.state = .committing ∨ b.state = .rollingBack then (.invalidState, b)
    else (result, { b with initialized := false })

/-! ## Runs -/

/-- The calls on a boundary, with the answers of the executor. -/
inductive BoundaryCall
  | open (nowMs : UInt64) (begun configured rolledBack : BoundaryResult)
  | observe (rowBytes nowMs : UInt64) (rolledBack : BoundaryResult)
  | finish (committed : BoundaryResult)
  | fail (rolledBack : BoundaryResult)
  | cleanup (rolledBack : BoundaryResult)
  deriving DecidableEq, Repr

/-- A call, and its result. -/
def boundaryCall (b : QueryBoundary) : BoundaryCall → BoundaryResult × QueryBoundary
  | .open nowMs begun configured rolledBack =>
    queryBoundaryOpen b nowMs begun configured rolledBack
  | .observe rowBytes nowMs rolledBack => queryBoundaryObserve b rowBytes nowMs rolledBack
  | .finish committed => queryBoundaryFinish b committed
  | .fail rolledBack => queryBoundaryFail b rolledBack
  | .cleanup rolledBack => queryBoundaryCleanup b rolledBack

/-- The boundary behind a call. -/
def boundaryStep (b : QueryBoundary) (call : BoundaryCall) : QueryBoundary :=
  (boundaryCall b call).2

/-- The bytes of the rows. -/
def observedBytes (observed : List (UInt64 × UInt64)) : ℕ := (observed.map (·.1.toNat)).sum

/-- **The rows are within the policy**: their number, their bytes and the time of each. -/
structure RowsWithin (policy : BoundaryPolicy) (startedMs : UInt64)
    (observed : List (UInt64 × UInt64)) : Prop where
  rows : observed.length ≤ policy.maxRows.toNat
  bytes : observedBytes observed ≤ policy.maxBytes.toNat
  time : ∀ row ∈ observed, startedMs.toNat ≤ row.2.toNat ∧
    row.2.toNat - startedMs.toNat ≤ policy.deadlineMs.toNat

/-- `COMMIT` and `ROLLBACK`. -/
def BoundaryRequest.ends : BoundaryRequest → Bool
  | commit _ | rollback _ => true
  | _ => false

/-- **What is required of the requests**, where `closed` says that the clean-up has returned. -/
structure RequestsSound (b : QueryBoundary) (closed : Prop) : Prop where
  begunOnce : b.requests.countP (fun request => request matches .beginReadOnly _) ≤ 1
  endedOnce : .beginReadOnly .ok ∈ b.requests → b.requests.countP BoundaryRequest.ends ≤ 1
  ended : closed → .beginReadOnly .ok ∈ b.requests → b.requests.countP BoundaryRequest.ends = 1
  committed : ∀ answer, .commit answer ∈ b.requests →
    .configureLocal .ok ∈ b.requests ∧ RowsWithin b.policy b.startedMs b.observed

/-- A row breaks the limit that a result names. -/
def BreaksLimit (b : QueryBoundary) (rowBytes nowMs : UInt64) : BoundaryResult → Prop
  | .rowLimit => b.policy.maxRows.toNat < b.observed.length + 1
  | .byteLimit => b.policy.maxBytes.toNat < observedBytes b.observed + rowBytes.toNat
  | .deadline => nowMs.toNat < b.startedMs.toNat ∨
    b.policy.deadlineMs.toNat < nowMs.toNat - b.startedMs.toNat
  | _ => False

/-- **A row that breaks a limit is told**: the result names a limit that it breaks, unless the
rollback has failed. -/
def TellsLimit (b : QueryBoundary) : BoundaryCall → Prop
  | .observe rowBytes nowMs rolledBack =>
    b.isIn .active → (∃ limit, BreaksLimit b rowBytes nowMs limit) →
      let result := (queryBoundaryObserve b rowBytes nowMs rolledBack).1
      BreaksLimit b rowBytes nowMs result ∨ result = .rollbackError ∧ rolledBack ≠ .ok
  | _ => True

/-- The row is not the `2 ^ 64`-th, or breaks the limit of the bytes as well. -/
def CountsOn (b : QueryBoundary) : BoundaryCall → Prop
  | .observe rowBytes _ rolledBack => b.isIn .active → rolledBack = .ok →
    b.observed.length + 1 < 2 ^ 64 ∨
      b.policy.maxBytes.toNat < observedBytes b.observed + rowBytes.toNat
  | _ => True

/-! ## Where a boundary stands -/

/-- The counters are those of the rows. -/
structure CountsRows (b : QueryBoundary) : Prop where
  rows : b.rowCount.toNat = b.observed.length
  bytes : b.byteCount.toNat = observedBytes b.observed

/-- **Where a boundary stands**, by what it has requested. -/
inductive BoundaryPhase : QueryBoundary → Prop
  | fresh {b : QueryBoundary} (state : b.state = .new) (requests : b.requests = [])
      (observed : b.observed = []) (rowCount : b.rowCount = 0) (byteCount : b.byteCount = 0) :
      BoundaryPhase b
  | unopened {b : QueryBoundary} (answer : BoundaryResult) (hanswer : answer ≠ .ok)
      (state : b.state = .failed) (requests : b.requests = [.beginReadOnly answer]) :
      BoundaryPhase b
  | active {b : QueryBoundary} (state : b.state = .active) (initialized : b.initialized = true)
      (requests : b.requests = [.configureLocal .ok, .beginReadOnly .ok]) (counts : CountsRows b)
      (within : RowsWithin b.policy b.startedMs b.observed) : BoundaryPhase b
  | committed {b : QueryBoundary} (answer : BoundaryResult)
      (state : b.state = .committed ∨ b.state = .failed)
      (requests : b.requests = [.commit answer, .configureLocal .ok, .beginReadOnly .ok])
      (within : RowsWithin b.policy b.startedMs b.observed) : BoundaryPhase b
  | rolledBack {b : QueryBoundary} (answer configured : BoundaryResult)
      (state : b.state = .rolledBack ∨ b.state = .failed)
      (requests : b.requests = [.rollback answer, .configureLocal configured, .beginReadOnly .ok]) :
      BoundaryPhase b

section Phase

variable {b : QueryBoundary}

theorem isIn_iff {state : BoundaryState} :
    b.isIn state = true ↔ b.initialized = true ∧ b.state = state := by
  simp [QueryBoundary.isIn]

/-- **A rollback** of a transaction that has begun. -/
theorem BoundaryPhase.rollback {configured : BoundaryResult}
    (requests : b.requests = [.configureLocal configured, .beginReadOnly .ok])
    (answer cause : BoundaryResult) :
    BoundaryPhase (queryBoundaryRollback b answer cause).2 := by
  unfold queryBoundaryRollback
  split_ifs
  · exact .rolledBack answer configured (.inr rfl) (congrArg _ requests)
  · exact .rolledBack answer configured (.inl rfl) (congrArg _ requests)

/-- A new boundary is fresh. -/
theorem BoundaryPhase.of_new (h : BoundaryPhase b) (hstate : b.state = .new) :
    b.requests = [] ∧ b.observed = [] ∧ b.rowCount = 0 ∧ b.byteCount = 0 := by
  cases h with
  | fresh _ requests observed rowCount byteCount => exact ⟨requests, observed, rowCount, byteCount⟩
  | unopened _ _ state => cases state.symm.trans hstate
  | active state => cases state.symm.trans hstate
  | committed _ state => rcases state with state | state <;> cases state.symm.trans hstate
  | rolledBack _ _ state => rcases state with state | state <;> cases state.symm.trans hstate

/-- An active boundary is configured, and its rows are within the policy. -/
theorem BoundaryPhase.of_active (h : BoundaryPhase b) (hstate : b.state = .active) :
    b.requests = [.configureLocal .ok, .beginReadOnly .ok] ∧ CountsRows b ∧
      RowsWithin b.policy b.startedMs b.observed := by
  cases h with
  | fresh state => cases state.symm.trans hstate
  | unopened _ _ state => cases state.symm.trans hstate
  | active _ _ requests counts within => exact ⟨requests, counts, within⟩
  | committed _ state => rcases state with state | state <;> cases state.symm.trans hstate
  | rolledBack _ _ state => rcases state with state | state <;> cases state.symm.trans hstate

theorem BoundaryPhase.open (h : BoundaryPhase b) (nowMs : UInt64)
    (begun configured rolledBack : BoundaryResult) :
    BoundaryPhase (queryBoundaryOpen b nowMs begun configured rolledBack).2 := by
  unfold queryBoundaryOpen
  split_ifs with hnew hbegun hconfigured
  · exact h
  all_goals
    obtain ⟨hinit, hstate⟩ := isIn_iff.mp (by simpa using hnew)
    obtain ⟨hrequests, hobserved, hrows, hbytes⟩ := h.of_new hstate
  · exact .unopened begun hbegun rfl (congrArg _ hrequests)
  · obtain rfl := not_not.mp hbegun
    exact .rollback (congrArg (fun l => _ :: _ :: l) hrequests) rolledBack .clientError
  · obtain rfl := not_not.mp hbegun
    obtain rfl := not_not.mp hconfigured
    refine .active rfl hinit (congrArg (fun l => _ :: _ :: l) hrequests) ⟨?_, ?_⟩ ⟨?_, ?_, ?_⟩
    · exact (congrArg UInt64.toNat hrows).trans (congrArg List.length hobserved).symm
    · exact (congrArg UInt64.toNat hbytes).trans (congrArg observedBytes hobserved).symm
    · exact (congrArg List.length hobserved).trans_le (Nat.zero_le _)
    · exact (congrArg observedBytes hobserved).trans_le (Nat.zero_le _)
    · intro row (hrow : row ∈ b.observed)
      rw [hobserved] at hrow
      cases hrow

/-- **The count of a row**: it goes wrong if there is no room left in the counters, and otherwise it
is right and the result names a limit exactly if the row breaks it. -/
theorem queryBoundaryCount_cases (hcounts : CountsRows b)
    (hwithin : RowsWithin b.policy b.startedMs b.observed) (rowBytes nowMs : UInt64) :
    let after := queryBoundaryCount { b with observed := (rowBytes, nowMs) :: b.observed }
      rowBytes nowMs
    after.2.requests = b.requests ∧
      (after.1 = .byteLimit ∧ (b.observed.length + 1 = 2 ^ 64 ∨
          BreaksLimit b rowBytes nowMs .byteLimit) ∨
        after.1 ≠ .ok ∧ b.observed.length + 1 < 2 ^ 64 ∧ BreaksLimit b rowBytes nowMs after.1 ∨
        after.1 = .ok ∧ (∀ limit, ¬BreaksLimit b rowBytes nowMs limit) ∧
          after.2.state = b.state ∧ after.2.initialized = b.initialized ∧ CountsRows after.2 ∧
          RowsWithin after.2.policy after.2.startedMs after.2.observed) := by
  obtain ⟨hrows, hbytes⟩ := hcounts
  have hrow := rowBytes.toNat_lt
  unfold queryBoundaryCount
  dsimp only
  split_ifs with hfull hmaxRows hmaxBytes htime
  · refine ⟨rfl, .inl ⟨rfl, ?_⟩⟩
    rw [hrows, hbytes] at hfull
    have hpolicy := b.policy.maxBytes.toNat_lt
    rcases hfull with hfull | hfull
    · exact .inl (by omega)
    · refine .inr ?_
      simp only [BreaksLimit]
      omega
  all_goals
    rw [hrows, hbytes, not_or] at hfull
    have hrows' : (b.rowCount + 1).toNat = b.observed.length + 1 := by
      rw [UInt64.toNat_add, hrows]
      have := b.rowCount.toNat_lt
      simp
      omega
    have hbytes' : (b.byteCount + rowBytes).toNat = observedBytes b.observed + rowBytes.toNat := by
      rw [UInt64.toNat_add, hbytes]
      omega
    have hlength := b.rowCount.toNat_lt
    rw [hrows] at hlength
  · refine ⟨rfl, .inr (.inl ⟨by simp, by omega, ?_⟩)⟩
    rw [gt_iff_lt, UInt64.lt_iff_toNat_lt, hrows'] at hmaxRows
    exact hmaxRows
  · refine ⟨rfl, .inr (.inl ⟨by simp, by omega, ?_⟩)⟩
    rw [gt_iff_lt, UInt64.lt_iff_toNat_lt, hbytes'] at hmaxBytes
    exact hmaxBytes
  · refine ⟨rfl, .inr (.inl ⟨by simp, by omega, ?_⟩)⟩
    simp only [BreaksLimit]
    by_cases hearly : nowMs < b.startedMs
    · exact .inl (UInt64.lt_iff_toNat_lt.mp hearly)
    · have hlate := (htime.resolve_left hearly)
      rw [gt_iff_lt, UInt64.lt_iff_toNat_lt, UInt64.toNat_sub_of_le _ _ (UInt64.not_lt.mp hearly)]
        at hlate
      exact .inr hlate
  · have hmaxRows' : b.observed.length + 1 ≤ b.policy.maxRows.toNat := by
      rw [gt_iff_lt, UInt64.lt_iff_toNat_lt, hrows', not_lt] at hmaxRows
      exact hmaxRows
    have hmaxBytes' : observedBytes b.observed + rowBytes.toNat ≤ b.policy.maxBytes.toNat := by
      rw [gt_iff_lt, UInt64.lt_iff_toNat_lt, hbytes', not_lt] at hmaxBytes
      exact hmaxBytes
    obtain ⟨hnotEarly, hnotLate⟩ := not_or.mp htime
    have hstart := UInt64.not_lt.mp hnotEarly
    have htime' : b.startedMs.toNat ≤ nowMs.toNat ∧
        nowMs.toNat - b.startedMs.toNat ≤ b.policy.deadlineMs.toNat := by
      rw [gt_iff_lt, UInt64.lt_iff_toNat_lt, UInt64.toNat_sub_of_le _ _ hstart, not_lt] at hnotLate
      exact ⟨UInt64.le_iff_toNat_le.mp hstart, hnotLate⟩
    refine ⟨rfl, .inr (.inr ⟨rfl, ?_, rfl, rfl, ⟨hrows', ?_⟩, ⟨hmaxRows', ?_, ?_⟩⟩)⟩
    · intro limit hbreaks
      cases limit <;> simp only [BreaksLimit] at hbreaks <;> omega
    · simp only [observedBytes, List.map_cons, List.sum_cons] at hbytes' ⊢
      omega
    · simp only [observedBytes, List.map_cons, List.sum_cons] at hmaxBytes' ⊢
      omega
    · exact List.forall_mem_cons.mpr ⟨htime', hwithin.time⟩

theorem BoundaryPhase.observe (h : BoundaryPhase b) (rowBytes nowMs : UInt64)
    (rolledBack : BoundaryResult) :
    BoundaryPhase (queryBoundaryObserve b rowBytes nowMs rolledBack).2 := by
  unfold queryBoundaryObserve
  split_ifs with hactive
  · exact h
  obtain ⟨hinit, hstate⟩ := isIn_iff.mp (by simpa using hactive)
  obtain ⟨hrequests, hcounts, hwithin⟩ := h.of_active hstate
  obtain ⟨hafter, hcount⟩ := queryBoundaryCount_cases hcounts hwithin rowBytes nowMs
  dsimp only
  split_ifs with hresult
  · exact .rollback (hafter.trans hrequests) rolledBack _
  · obtain ⟨hlimit, -⟩ | ⟨hne, -⟩ | ⟨-, -, hstate', hinit', hcounts', hwithin'⟩ := hcount
    · exact absurd (hlimit ▸ by simp) hresult
    · exact absurd hne hresult
    · exact .active (hstate'.trans hstate) (hinit'.trans hinit) (hafter.trans hrequests)
        hcounts' hwithin'

theorem BoundaryPhase.finish (h : BoundaryPhase b) (committed : BoundaryResult) :
    BoundaryPhase (queryBoundaryFinish b committed).2 := by
  unfold queryBoundaryFinish
  split_ifs with hactive hcommitted
  · exact h
  all_goals
    obtain ⟨hinit, hstate⟩ := isIn_iff.mp (by simpa using hactive)
    obtain ⟨hrequests, hcounts, hwithin⟩ := h.of_active hstate
  · exact .committed committed (.inr rfl) (congrArg _ hrequests) hwithin
  · exact .committed committed (.inl rfl) (congrArg _ hrequests) hwithin

theorem BoundaryPhase.fail (h : BoundaryPhase b) (rolledBack : BoundaryResult) :
    BoundaryPhase (queryBoundaryFail b rolledBack).2 := by
  unfold queryBoundaryFail
  split_ifs with hactive
  · exact h
  · obtain ⟨hinit, hstate⟩ := isIn_iff.mp (by simpa using hactive)
    exact .rollback (h.of_active hstate).1 rolledBack .clientError

/-- No call finds the boundary between two states. -/
theorem BoundaryPhase.settled (h : BoundaryPhase b) :
    ¬(b.state = .starting ∨ b.state = .committing ∨ b.state = .rollingBack) := by
  cases h with
  | fresh state => simp [state]
  | unopened _ _ state => simp [state]
  | active state => simp [state]
  | committed _ state => rcases state with state | state <;> simp [state]
  | rolledBack _ _ state => rcases state with state | state <;> simp [state]

/-- A boundary that is not active may be closed. -/
theorem BoundaryPhase.close (h : BoundaryPhase b) (hstate : b.state ≠ .active) :
    BoundaryPhase { b with initialized := false } := by
  cases h with
  | fresh state requests observed rowCount byteCount =>
    exact .fresh state requests observed rowCount byteCount
  | unopened answer hanswer state requests => exact .unopened answer hanswer state requests
  | active state => exact absurd state hstate
  | committed answer state requests within => exact .committed answer state requests within
  | rolledBack answer configured state requests =>
    exact .rolledBack answer configured state requests

theorem queryBoundaryRollback_state (answer cause : BoundaryResult) :
    (queryBoundaryRollback b answer cause).2.state ≠ .active := by
  unfold queryBoundaryRollback
  split_ifs <;> simp [QueryBoundary.enter]

/-- **The clean-up closes the boundary.** -/
theorem BoundaryPhase.cleanup (h : BoundaryPhase b) (rolledBack : BoundaryResult) :
    BoundaryPhase (queryBoundaryCleanup b rolledBack).2 ∧
      (queryBoundaryCleanup b rolledBack).2.initialized = false := by
  unfold queryBoundaryCleanup
  by_cases hinit : b.initialized = true
  · rw [if_neg (by simpa using hinit)]
    by_cases hactive : b.state = .active
    · have hphase : BoundaryPhase (queryBoundaryRollback b rolledBack .ok).2 :=
        .rollback (h.of_active hactive).1 rolledBack .ok
      simp only [if_pos hactive, if_neg hphase.settled]
      exact ⟨hphase.close (queryBoundaryRollback_state rolledBack .ok), trivial⟩
    · simp only [if_neg hactive, if_neg h.settled]
      exact ⟨h.close hactive, trivial⟩
  · rw [if_pos (by simpa using hinit)]
    exact ⟨h, by simpa using hinit⟩

/-- **Every call keeps a boundary in a phase.** -/
theorem BoundaryPhase.step (h : BoundaryPhase b) (call : BoundaryCall) :
    BoundaryPhase (boundaryStep b call) := by
  cases call with
  | «open» nowMs begun configured rolledBack => exact h.open nowMs begun configured rolledBack
  | observe rowBytes nowMs rolledBack => exact h.observe rowBytes nowMs rolledBack
  | finish committed => exact h.finish committed
  | fail rolledBack => exact h.fail rolledBack
  | cleanup rolledBack => exact (h.cleanup rolledBack).1

/-- **The requests of a boundary in a phase are sound.** -/
theorem BoundaryPhase.sound {closed : Prop} (h : BoundaryPhase b)
    (hclosed : closed → b.initialized = false) : RequestsSound b closed := by
  cases h with
  | fresh _ requests =>
    constructor <;> simp [requests]
  | unopened answer hanswer _ requests =>
    constructor <;> simp [requests, Ne.symm hanswer]
  | active _ initialized requests =>
    have hopen : ¬closed := fun h => by simp [initialized] at hclosed; exact hclosed h
    constructor <;> simp [requests, hopen, BoundaryRequest.ends]
  | committed answer _ requests within =>
    constructor <;> simp [requests, List.countP_cons, BoundaryRequest.ends, within]
  | rolledBack answer configured _ requests =>
    constructor <;> simp [requests, List.countP_cons, BoundaryRequest.ends]

/-- **A limit is told** exactly if the row is counted, or breaks the limit of the bytes. -/
theorem tellsLimit_iff (h : BoundaryPhase b) (call : BoundaryCall) :
    TellsLimit b call ↔ CountsOn b call := by
  cases call with
  | observe rowBytes nowMs rolledBack =>
    simp only [TellsLimit, CountsOn]
    refine imp_congr_right fun hactive => ?_
    obtain ⟨hinit, hstate⟩ := isIn_iff.mp hactive
    obtain ⟨hrequests, hcounts, hwithin⟩ := h.of_active hstate
    have hresult : (queryBoundaryObserve b rowBytes nowMs rolledBack).1 =
        let counted := (queryBoundaryCount { b with observed := (rowBytes, nowMs) :: b.observed }
          rowBytes nowMs).1
        if counted ≠ .ok ∧ rolledBack ≠ .ok then .rollbackError else counted := by
      unfold queryBoundaryObserve queryBoundaryRollback
      rw [if_neg (by simpa using hactive)]
      dsimp only
      split_ifs <;> simp_all
    rw [hresult]
    have hmax := b.policy.maxRows.toNat_lt
    obtain ⟨-, ⟨hlimit, hfull⟩ | ⟨hne, hlt, hbreaks⟩ | ⟨hok, hnone, -⟩⟩ :=
      queryBoundaryCount_cases hcounts hwithin rowBytes nowMs
    · -- the counters are full: the result names the limit of the bytes
      have hbreaks : ∃ limit, BreaksLimit b rowBytes nowMs limit := by
        obtain hfull | hbytes := hfull
        · exact ⟨.rowLimit, by simp only [BreaksLimit]; omega⟩
        · exact ⟨.byteLimit, hbytes⟩
      simp only [hbreaks, true_imp_iff, hlimit]
      by_cases hrolledBack : rolledBack = .ok
      · simp only [hrolledBack, ne_eq, not_true_eq_false, and_false, if_false, or_false,
          true_imp_iff]
        exact ⟨.inr, fun h => h.elim (fun hlt => hfull.resolve_left (by omega)) id⟩
      · simp [hrolledBack, BreaksLimit]
    · refine iff_of_true (fun _ => ?_) fun _ => .inl hlt
      dsimp only
      split_ifs with hfailed
      · exact .inr ⟨rfl, hfailed.2⟩
      · exact .inl hbreaks
    · refine iff_of_true (fun hbreaks => ?_) fun _ => ?_
      · obtain ⟨limit, hbreaks⟩ := hbreaks
        exact absurd hbreaks (hnone limit)
      · have hrow := hnone .rowLimit
        simp only [BreaksLimit] at hrow
        exact .inl (by omega)
  | _ => exact Iff.rfl

theorem BoundaryPhase.initial (policy : BoundaryPolicy) : BoundaryPhase { policy } :=
  .fresh rfl rfl rfl rfl rfl

/-- **Every run stays in a phase**, and behind a clean-up the boundary is closed. -/
theorem BoundaryPhase.run (calls : List BoundaryCall) {b : QueryBoundary} (h : BoundaryPhase b) :
    BoundaryPhase (calls.foldl boundaryStep b) ∧
      ((∃ rolledBack, .cleanup rolledBack ∈ calls) ∨ b.initialized = false →
        (calls.foldl boundaryStep b).initialized = false) := by
  induction calls generalizing b with
  | nil => simp [h]
  | cons call calls ih =>
    obtain ⟨hphase, hclosed⟩ := ih (h.step call)
    refine ⟨hphase, fun hcleanup => hclosed ?_⟩
    rcases hcleanup with ⟨rolledBack, hmem⟩ | hinit
    · rcases List.mem_cons.mp hmem with rfl | hmem
      · exact .inr (h.cleanup rolledBack).2
      · exact .inl ⟨rolledBack, hmem⟩
    · refine .inr ?_
      have hidle : ∀ state, b.isIn state = false := fun state => by
        simp [QueryBoundary.isIn, hinit]
      cases call <;> simp [boundaryStep, boundaryCall, queryBoundaryOpen, queryBoundaryObserve,
        queryBoundaryFinish, queryBoundaryFail, queryBoundaryCleanup, hidle, hinit]

end Phase

/-- **The transaction around a query source.**  In every run from a new boundary on, the requests
are sound in every state, and every row that breaks a limit is told exactly if none of them is the
`2 ^ 64`-th, or it breaks the limit of the bytes as well. -/
theorem query_boundary_runs (policy : BoundaryPolicy) (calls : List BoundaryCall) :
    (∀ before, before <+: calls → RequestsSound (before.foldl boundaryStep { policy })
      (∃ rolledBack, .cleanup rolledBack ∈ before)) ∧
    (Along TellsLimit boundaryStep { policy } calls ↔
      Along CountsOn boundaryStep { policy } calls) := by
  refine ⟨fun before _ => ?_, ?_⟩
  · obtain ⟨hphase, hclosed⟩ := (BoundaryPhase.initial policy).run before
    exact hphase.sound fun hcleanup => hclosed (.inl hcleanup)
  · exact Along.iff_of_invariant BoundaryPhase (fun b call h _ => h.step call)
      (fun b call h _ => tellsLimit_iff h call) (Along.of_forall fun _ _ => trivial)
      (.initial policy)

/-! ## The last row that can be counted -/

/-- As many rows as a counter holds. -/
def widePolicy : BoundaryPolicy where
  searchPath := some [112, 117, 98, 108, 105, 99]
  statementTimeoutMs := 1
  lockTimeoutMs := 1
  maxRows := 18446744073709551615
  maxBytes := 1
  deadlineMs := 1

/-- A row without bytes. -/
def emptyRow : BoundaryCall := .observe 0 0 .ok

/-- An active boundary behind `n` rows without bytes. -/
def behindRows (n : ℕ) : QueryBoundary where
  policy := widePolicy
  state := .active
  rowCount := UInt64.ofNat n
  requests := [.configureLocal .ok, .beginReadOnly .ok]
  observed := List.replicate n (0, 0)

theorem boundaryStep_behindRows {n : ℕ} (hn : n < 2 ^ 64 - 1) :
    boundaryStep (behindRows n) emptyRow = behindRows (n + 1) := by
  have hsize : UInt64.size = 2 ^ 64 := rfl
  have hcount : (UInt64.ofNat n).toNat = n := UInt64.toNat_ofNat_of_lt' (by omega)
  have hcountNext : (UInt64.ofNat (n + 1)).toNat = n + 1 := UInt64.toNat_ofNat_of_lt' (by omega)
  have hnext : UInt64.ofNat n + 1 = UInt64.ofNat (n + 1) := by
    rw [UInt64.ofNat_add]
    rfl
  have hrows : ¬UInt64.ofNat (n + 1) > widePolicy.maxRows := by
    have hmax : widePolicy.maxRows.toNat = 2 ^ 64 - 1 := rfl
    rw [gt_iff_lt, UInt64.lt_iff_toNat_lt, hcountNext, hmax]
    omega
  have hroom : ¬((UInt64.ofNat n).toNat = 2 ^ 64 - 1 ∨
      (0 : UInt64).toNat > 2 ^ 64 - 1 - (0 : UInt64).toNat) := by
    rw [hcount]
    simp
    omega
  simp only [boundaryStep, boundaryCall, emptyRow, queryBoundaryObserve, queryBoundaryCount,
    behindRows, QueryBoundary.isIn, hnext, if_neg hroom, if_neg hrows]
  simp [widePolicy, List.replicate_succ]

theorem foldl_behindRows {n : ℕ} (hn : n ≤ 2 ^ 64 - 1) :
    (List.replicate n emptyRow).foldl boundaryStep (behindRows 0) = behindRows n := by
  induction n with
  | zero => rfl
  | succ n ih =>
    rw [List.replicate_succ', List.foldl_append, ih (by omega), List.foldl_cons, List.foldl_nil,
      boundaryStep_behindRows (by omega)]

theorem not_tellsLimit_of_full {n : ℕ} (hn : n = 2 ^ 64 - 1) :
    ¬Along TellsLimit boundaryStep { policy := widePolicy }
      (.open 0 .ok .ok .ok :: (List.replicate n emptyRow ++ [emptyRow])) := by
  intro h
  have hrows := (Along.append.mp h.2).2.1
  have hbehind : (List.replicate n emptyRow).foldl boundaryStep
      (boundaryStep { policy := widePolicy } (.open 0 .ok .ok .ok)) = behindRows n :=
    foldl_behindRows hn.le
  rw [hbehind] at hrows
  have hcount : (UInt64.ofNat n).toNat = 2 ^ 64 - 1 := by
    rw [UInt64.toNat_ofNat_of_lt' (by rw [hn]; decide), hn]
  have hresult : (queryBoundaryObserve (behindRows n) 0 0 .ok).1 = .byteLimit := by
    simp only [queryBoundaryObserve, queryBoundaryCount, behindRows, QueryBoundary.isIn, hcount,
      queryBoundaryRollback]
    rfl
  have hbytes : observedBytes (behindRows n).observed = 0 := by
    simp [behindRows, observedBytes]
  have hlimit : BreaksLimit (behindRows n) 0 0 .rowLimit := by
    have hmax : widePolicy.maxRows.toNat = 2 ^ 64 - 1 := rfl
    have hlength : (behindRows n).observed.length = n := List.length_replicate
    rw [BreaksLimit, hlength]
    exact hmax ▸ hn ▸ Nat.lt_succ_self n
  have htold := hrows rfl ⟨.rowLimit, hlimit⟩
  rw [hresult] at htold
  rcases htold with hbroken | ⟨hrollback, -⟩
  · rw [BreaksLimit, hbytes] at hbroken
    exact absurd hbroken (by simp [behindRows, widePolicy])
  · cases hrollback

/-- **The `2 ^ 64`-th row breaks the limit of the rows, and the limit of the bytes is told.** -/
theorem last_row_misnamed : ¬Along TellsLimit boundaryStep { policy := widePolicy }
    (.open 0 .ok .ok .ok :: (List.replicate (2 ^ 64 - 1) emptyRow ++ [emptyRow])) :=
  not_tellsLimit_of_full rfl

end Vps
