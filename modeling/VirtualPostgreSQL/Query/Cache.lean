import Mathlib.Logic.Function.Basic
import VirtualPostgreSQL.Machinery.Count
import VirtualPostgreSQL.Machinery.Run

/-!
# Query/Cache — the materialised query shared by the cursors of a table

The first cursor to acquire the cache builds a private database outside the lock and publishes it;
the others wait, and then borrow it.  A lease is a plain value that names the database; what keeps
the database open is a counter of the leases that are out.

A run is a list of events, each of them what one thread does while it holds the mutex: enter
`acquire`, wake from its condition wait, come back from the build, release a lease, and the two
halves of `destroy`.  What the clock and the build answer is part of the event.  The second half of
`destroy` frees the cache itself, whoever else holds its address: what touches it from there on is a
fault.  The counter tells the leases that are out, and nothing is touched once it is freed, as long
as no lease is released twice and the cache is destroyed by the last thread that uses it:
`CacheInvariant.run`.
-/

namespace Vps

open Machinery

/-! ## The cache -/

/-- `VpsQueryCacheStatus` -/
inductive QueryCacheStatus
  | ok | invalidArgument | outOfMemory | busy | timeout | buildFailed | platformError
  deriving DecidableEq, Repr

/-- `VpsQueryCacheState` -/
inductive QueryCacheState
  | empty | building | ready | closing
  deriving DecidableEq, Repr

/-- What `vps_query_cache_*` reads and writes of a `VpsQueryCache`; a database is known by the order
in which it was opened. -/
structure QueryCache where
  state : QueryCacheState := .empty
  published : Option ℕ := none
  generation : UInt64 := 0
  buildAttempts : UInt64 := 0
  leases : UInt64 := 0
  deriving DecidableEq

/-- `VpsQueryCacheLease`; the number of the grant tells a copy of one lease from a copy of another,
which the bytes do not. -/
structure QueryCacheLease where
  owned : Bool
  database : Option ℕ
  generation : UInt64
  grant : ℕ
  deriving DecidableEq

/-- How a build comes out: the private database is not opened, or the callback returns a status and
the database can be sealed or not. -/
inductive BuildOutcome
  | notOpened
  | returned (status : QueryCacheStatus) (sealOk : Bool)
  deriving DecidableEq

/-- The status of a build. -/
def BuildOutcome.status : BuildOutcome → QueryCacheStatus
  | notOpened => .buildFailed
  | returned .ok false => .buildFailed
  | returned status _ => status

namespace QueryCache

/-- The lease on the published database. -/
def lend (cache : QueryCache) (grant : ℕ) : QueryCacheLease :=
  ⟨true, cache.published, cache.generation, grant⟩

/-- A build comes back: its database is published and lent, or the cache is empty again. -/
def finish (cache : QueryCache) (status : QueryCacheStatus) (candidate : ℕ) : QueryCache :=
  if status = .ok then
    { cache with
      published := some candidate
      generation := cache.generation + 1
      state := .ready
      leases := cache.leases + 1 }
  else { cache with state := .empty }

/-- `vps_query_cache_lease_release` -/
def leaseRelease (cache : QueryCache) (lease : QueryCacheLease) : QueryCache × QueryCacheStatus :=
  if !lease.owned || lease.database.isNone then (cache, .invalidArgument)
  else if cache.leases = 0 ∨ lease.database ≠ cache.published then (cache, .invalidArgument)
  else ({ cache with leases := cache.leases - 1 }, .ok)

theorem leaseRelease_state (cache : QueryCache) (lease : QueryCacheLease) :
    (cache.leaseRelease lease).1.state = cache.state := by
  unfold leaseRelease
  split_ifs <;> rfl

theorem leaseRelease_published (cache : QueryCache) (lease : QueryCacheLease) :
    (cache.leaseRelease lease).1.published = cache.published := by
  unfold leaseRelease
  split_ifs <;> rfl

theorem leaseRelease_refuse {cache : QueryCache} {lease : QueryCacheLease}
    (h : cache.leases = 0 ∨ lease.owned = false ∨ lease.database ≠ cache.published) :
    cache.leaseRelease lease = (cache, .invalidArgument) := by
  unfold leaseRelease
  split
  · rfl
  · rename_i hvalid
    simp only [Bool.or_eq_true, Bool.not_eq_true', not_or] at hvalid
    obtain hzero | howned | hother := h
    · rw [if_pos (.inl hzero)]
    · exact absurd howned hvalid.1
    · rw [if_pos (.inr hother)]

end QueryCache

/-! ## The threads -/

/-- Where a thread stands between two events. -/
inductive CachePhase
  | idle
  | waiting (timeoutMs start : UInt64)
  | building
  | reclaiming
  deriving DecidableEq

/-- What a call returns; `leased` is the `OK` of `vps_query_cache_acquire`. -/
inductive CacheAnswer
  | status (status : QueryCacheStatus)
  | leased (lease : QueryCacheLease)
  deriving DecidableEq

/-- The cache among its threads, with the leases that are out and the databases ever published.
`freed` says that the cache is given back to the allocator, its mutex and condition with it, and
`faulted` that it was used after that. -/
structure QueryCacheSystem where
  cache : QueryCache := {}
  freed : Bool := false
  faulted : Bool := false
  phase : ℕ → CachePhase := fun _ => .idle
  outstanding : List QueryCacheLease := []
  publications : List ℕ := []
  opened : ℕ := 0
  grants : ℕ := 0

/-- What a thread does while it holds the mutex; `held` says that the pointer given to `destroy` is
not the null pointer. -/
inductive QueryCacheEvent
  | acquire (thread : ℕ) (timeoutMs : UInt64) (blank : Bool) (start now : Option UInt64)
  | wake (thread : ℕ) (now : Option UInt64)
  | built (thread : ℕ) (outcome : BuildOutcome)
  | release (lease : QueryCacheLease)
  | destroy (thread : ℕ) (held : Bool)
  | reclaim (thread : ℕ)
  deriving DecidableEq

/-- The event enters the cache, or goes on doing so. -/
def QueryCacheEvent.isEntry : QueryCacheEvent → Bool
  | acquire .. | wake .. => true
  | _ => false

/-- The wait is over. -/
def waitExpired (timeoutMs start now : UInt64) : Bool :=
  timeoutMs ≤ (if start ≤ now then now - start else 0)

namespace QueryCacheSystem

variable (s : QueryCacheSystem) (thread : ℕ)

/-- A thread goes on. -/
def move (phase : CachePhase) : QueryCacheSystem :=
  { s with phase := Function.update s.phase thread phase }

/-- A call of the thread returns a status. -/
def reply (status : QueryCacheStatus) : QueryCacheSystem × Option CacheAnswer :=
  (s.move thread .idle, some (.status status))

/-- A lease goes out. -/
def grant (cache : QueryCache) (publications : List ℕ) : QueryCacheSystem × Option CacheAnswer :=
  ({ s.move thread .idle with
      cache := cache
      outstanding := cache.lend s.grants :: s.outstanding
      publications := publications
      grants := s.grants + 1 }, some (.leased (cache.lend s.grants)))

/-- `vps_query_cache_acquire` behind the wait: a lease, a build, or neither. -/
def enter : QueryCacheSystem × Option CacheAnswer :=
  match s.cache.state with
  | .ready => s.grant thread { s.cache with leases := s.cache.leases + 1 } s.publications
  | .empty =>
    ({ s.move thread .building with
        cache := { s.cache with state := .building, buildAttempts := s.cache.buildAttempts + 1 } },
      none)
  | .building | .closing => s.reply thread .busy

/-- A turn of the loop of `vps_query_cache_wait`. -/
def turn (timeoutMs start : UInt64) (now : Option UInt64) :
    QueryCacheSystem × Option CacheAnswer :=
  if s.cache.state = .building then
    match now with
    | none => s.reply thread .platformError
    | some now =>
      if waitExpired timeoutMs start now then s.reply thread .timeout
      else (s.move thread (.waiting timeoutMs start), none)
  else s.enter thread

/-- The builder is back and holds the mutex again; a database that is not published is closed. -/
def finish (outcome : BuildOutcome) : QueryCacheSystem × Option CacheAnswer :=
  let cache := s.cache.finish outcome.status s.opened
  if outcome.status = .ok then
    { s with opened := s.opened + 1 }.grant thread cache (s.opened :: s.publications)
  else { s with cache := cache, opened := s.opened + 1 }.reply thread outcome.status

/-- The event goes past the checks of its arguments, to the memory of the cache. -/
def touches (s : QueryCacheSystem) : QueryCacheEvent → Bool
  | .acquire thread timeoutMs blank _ _ => s.phase thread = .idle && timeoutMs ≠ 0 && blank
  | .wake thread _ =>
    match s.phase thread with
    | .waiting .. => true
    | _ => false
  | .built thread _ => s.phase thread = .building
  | .release lease => lease.owned && lease.database.isSome
  | .destroy thread held => s.phase thread = .idle && held
  | .reclaim thread => s.phase thread = .reclaiming

/-- One event on a cache that is not freed.  A thread inside a call makes no other one. -/
def serve (s : QueryCacheSystem) : QueryCacheEvent → QueryCacheSystem × Option CacheAnswer
  | .acquire thread timeoutMs blank start now =>
    if s.phase thread ≠ .idle then (s, none)
    else if timeoutMs = 0 || !blank then s.reply thread .invalidArgument
    else match start with
    | none => s.reply thread .platformError
    | some start => s.turn thread timeoutMs start now
  | .wake thread now =>
    match s.phase thread with
    | .waiting timeoutMs start => s.turn thread timeoutMs start now
    | _ => (s, none)
  | .built thread outcome =>
    if s.phase thread = .building then s.finish thread outcome else (s, none)
  | .release lease =>
    let answer := s.cache.leaseRelease lease
    ({ s with
        cache := answer.1
        outstanding := if answer.2 = .ok then s.outstanding.erase lease else s.outstanding },
      some (.status answer.2))
  | .destroy thread held =>
    if s.phase thread ≠ .idle then (s, none)
    else if !held then s.reply thread .ok
    else if s.cache.state = .building ∨ s.cache.leases ≠ 0 then s.reply thread .busy
    else ({ s.move thread .reclaiming with cache := { s.cache with state := .closing } }, none)
  | .reclaim thread =>
    if s.phase thread = .reclaiming then
      -- the second half of `vps_query_cache_destroy` runs without the mutex: it closes the database
      -- and frees the cache, looking neither for threads that wait nor for another that destroys
      { s with cache := { s.cache with published := none }, freed := true }.reply thread .ok
    else (s, none)

/-- One event.  What touches the cache once it is freed gives no answer. -/
def step (s : QueryCacheSystem) (e : QueryCacheEvent) : QueryCacheSystem × Option CacheAnswer :=
  if s.freed && s.touches e then ({ s with faulted := true }, none) else s.serve e

/-- The system after an event. -/
def next (s : QueryCacheSystem) (e : QueryCacheEvent) : QueryCacheSystem := (s.step e).1

end QueryCacheSystem

/-- **What an event can do**, with the guards it went through. -/
inductive CacheMove (s : QueryCacheSystem) :
    QueryCacheEvent → QueryCacheSystem × Option CacheAnswer → Prop
  | fault {e} (hfreed : s.freed = true) (htouches : s.touches e = true) :
      CacheMove s e ({ s with faulted := true }, none)
  | stay {e} : CacheMove s e (s, none)
  | reply {e} (thread status) : CacheMove s e (s.reply thread status)
  | park {e} (thread timeoutMs start) (halive : s.freed = false) :
      CacheMove s e (s.move thread (.waiting timeoutMs start), none)
  | lend {e} (thread) (hstate : s.cache.state = .ready) (hentry : e.isEntry = true) :
      CacheMove s e
        (s.grant thread { s.cache with leases := s.cache.leases + 1 } s.publications)
  | build {e} (thread) (halive : s.freed = false) (hstate : s.cache.state = .empty) :
      CacheMove s e
        ({ s.move thread .building with
            cache := { s.cache with
              state := .building, buildAttempts := s.cache.buildAttempts + 1 } }, none)
  | publish {thread outcome} (hthread : s.phase thread = .building) (hok : outcome.status = .ok) :
      CacheMove s (.built thread outcome)
        ({ s with opened := s.opened + 1 }.grant thread (s.cache.finish .ok s.opened)
          (s.opened :: s.publications))
  | fail {thread outcome} (hthread : s.phase thread = .building) (hfailed : outcome.status ≠ .ok) :
      CacheMove s (.built thread outcome)
        ({ s with cache := { s.cache with state := .empty }, opened := s.opened + 1 }.reply thread
          outcome.status)
  | release (lease) :
      CacheMove s (.release lease)
        ({ s with
            cache := (s.cache.leaseRelease lease).1
            outstanding := if (s.cache.leaseRelease lease).2 = .ok then s.outstanding.erase lease
              else s.outstanding },
          some (.status (s.cache.leaseRelease lease).2))
  | close {thread held} (halive : s.freed = false) (hstate : s.cache.state ≠ .building)
      (hleases : s.cache.leases = 0) :
      CacheMove s (.destroy thread held)
        ({ s.move thread .reclaiming with cache := { s.cache with state := .closing } }, none)
  | reclaim {thread} (hthread : s.phase thread = .reclaiming) :
      CacheMove s (.reclaim thread)
        ({ s with cache := { s.cache with published := none }, freed := true }.reply thread .ok)

namespace QueryCacheSystem

variable (s : QueryCacheSystem) (thread : ℕ)

theorem enter_move (e : QueryCacheEvent) (halive : s.freed = false) (hentry : e.isEntry = true) :
    CacheMove s e (s.enter thread) := by
  unfold enter
  split
  · exact .lend thread ‹_› hentry
  · exact .build thread halive ‹_›
  · exact .reply thread .busy
  · exact .reply thread .busy

theorem turn_move (e : QueryCacheEvent) (halive : s.freed = false) (hentry : e.isEntry = true)
    (timeoutMs start : UInt64) (now : Option UInt64) :
    CacheMove s e (s.turn thread timeoutMs start now) := by
  unfold turn
  split
  · split
    · exact .reply thread .platformError
    · split
      · exact .reply thread .timeout
      · exact .park thread timeoutMs start halive
  · exact s.enter_move thread e halive hentry

theorem finish_move {thread : ℕ} (hthread : s.phase thread = .building) (outcome : BuildOutcome) :
    CacheMove s (.built thread outcome) (s.finish thread outcome) := by
  unfold finish QueryCache.finish
  by_cases hok : outcome.status = .ok
  · have := CacheMove.publish hthread hok
    rw [QueryCache.finish] at this
    simpa only [hok, if_true] using this
  · simpa only [if_neg hok] using CacheMove.fail hthread hok

/-- An event that touches no freed cache makes one of the moves. -/
theorem serve_move (e : QueryCacheEvent) (halive : s.touches e = true → s.freed = false) :
    CacheMove s e (s.serve e) := by
  unfold serve
  split
  · split
    · exact .stay
    · split
      · exact .reply _ .invalidArgument
      · split
        · exact .reply _ .platformError
        · rename_i hidle hvalid _ _
          refine s.turn_move _ _ (halive ?_) rfl _ _ _
          simpa [touches, not_not.mp hidle] using hvalid
  · split
    · rename_i hthread
      exact s.turn_move _ _ (halive (by simp [touches, hthread])) rfl _ _ _
    · exact .stay
  · split
    · exact s.finish_move ‹_› _
    · exact .stay
  · exact .release _
  · split
    · exact .stay
    · split
      · exact .reply _ .ok
      · split
        · exact .reply _ .busy
        · rename_i hidle hheld hfree
          rw [not_or, not_not] at hfree
          refine .close (halive ?_) hfree.1 hfree.2
          simpa [touches, not_not.mp hidle] using hheld
  · split
    · exact .reclaim ‹_›
    · exact .stay

/-- **An event makes one of the moves.** -/
theorem step_move (e : QueryCacheEvent) : CacheMove s e (s.step e) := by
  unfold step
  split
  · rename_i h
    rw [Bool.and_eq_true] at h
    exact .fault h.1 h.2
  · rename_i h
    exact s.serve_move e fun htouches => by simpa [htouches] using h

end QueryCacheSystem

/-! ## What holds in every run -/

/-- The threads stand where the state of the cache says: one of them builds while it is building,
and only a closing cache is reclaimed. -/
structure PhasesFit (phase : ℕ → CachePhase) (state : QueryCacheState) : Prop where
  builds : ∀ thread, phase thread = .building → state = .building
  alone : ∀ thread other, phase thread = .building → phase other = .building → thread = other
  reclaims : ∀ thread, phase thread = .reclaiming → state = .closing

namespace PhasesFit

variable {phase : ℕ → CachePhase} {state : QueryCacheState}

theorem update (h : PhasesFit phase state) (thread : ℕ) {p : CachePhase} (hbuilding : p ≠ .building)
    (hreclaiming : p = .reclaiming → state = .closing) :
    PhasesFit (Function.update phase thread p) state := by
  have hother : ∀ other, Function.update phase thread p other = .building →
      phase other = .building := by
    intro other hother
    by_cases heq : other = thread
    · rw [heq, Function.update_self] at hother
      exact absurd hother hbuilding
    · rwa [Function.update_of_ne heq] at hother
  refine ⟨fun other ho => h.builds other (hother other ho),
    fun t t' ht ht' => h.alone t t' (hother t ht) (hother t' ht'), fun other ho => ?_⟩
  by_cases heq : other = thread
  · rw [heq, Function.update_self] at ho
    exact hreclaiming ho
  · rw [Function.update_of_ne heq] at ho
    exact h.reclaims other ho

/-- The builder comes back. -/
theorem finish (h : PhasesFit phase state) {thread : ℕ} (hthread : phase thread = .building)
    (state' : QueryCacheState) : PhasesFit (Function.update phase thread .idle) state' := by
  have hstate := h.builds thread hthread
  have hbuilding : ∀ other, Function.update phase thread .idle other ≠ .building := by
    intro other ho
    by_cases heq : other = thread
    · rw [heq, Function.update_self] at ho
      cases ho
    · rw [Function.update_of_ne heq] at ho
      exact heq (h.alone other thread ho hthread)
  refine ⟨fun other ho => absurd ho (hbuilding other),
    fun other _ ho => absurd ho (hbuilding other), fun other ho => ?_⟩
  by_cases heq : other = thread
  · rw [heq, Function.update_self] at ho
    cases ho
  · rw [Function.update_of_ne heq] at ho
    cases hstate.symm.trans (h.reclaims other ho)

/-- A build starts where none was running. -/
theorem start (h : PhasesFit phase .empty) (thread : ℕ) :
    PhasesFit (Function.update phase thread .building) .building := by
  have hself : ∀ other, Function.update phase thread .building other = .building →
      other = thread := by
    intro other ho
    by_contra hne
    rw [Function.update_of_ne hne] at ho
    cases h.builds other ho
  refine ⟨fun _ _ => rfl, fun t t' ht ht' => (hself t ht).trans (hself t' ht').symm,
    fun other ho => ?_⟩
  by_cases heq : other = thread
  · rw [heq, Function.update_self] at ho
    cases ho
  · rw [Function.update_of_ne heq] at ho
    cases h.reclaims other ho

/-- A cache that nobody builds is closed. -/
theorem close (h : PhasesFit phase state) (thread : ℕ) (hstate : state ≠ .building) :
    PhasesFit (Function.update phase thread .reclaiming) .closing := by
  have hnone : ∀ other, Function.update phase thread .reclaiming other ≠ .building := by
    intro other ho
    by_cases heq : other = thread
    · rw [heq, Function.update_self] at ho
      cases ho
    · rw [Function.update_of_ne heq] at ho
      exact hstate (h.builds other ho)
  exact ⟨fun other ho => absurd ho (hnone other), fun other _ ho => absurd ho (hnone other),
    fun _ _ => rfl⟩

end PhasesFit

/-- The counter, the leases that are out and the databases ever published. -/
structure LedgerFits (cache : QueryCache) (outstanding : List QueryCacheLease)
    (publications : List ℕ) : Prop where
  fresh : cache.state = .empty ∨ cache.state = .building →
    cache.published = none ∧ publications = []
  ready : cache.state = .ready → cache.published.isSome
  published : ∀ database, cache.published = some database → publications = [database]
  once : publications.length ≤ 1
  counter : cache.leases.toNat = outstanding.length
  out : ∀ lease ∈ outstanding, lease.owned = true ∧ lease.database.isSome ∧
    cache.published = lease.database
  closed : cache.state = .closing → outstanding = []

namespace LedgerFits

variable {cache : QueryCache} {outstanding : List QueryCacheLease} {publications : List ℕ}

theorem outstanding_eq_nil (h : LedgerFits cache outstanding publications)
    (hnone : cache.published = none) : outstanding = [] := by
  refine List.eq_nil_iff_forall_not_mem.mpr fun lease hlease => ?_
  obtain ⟨-, hsome, heq⟩ := h.out lease hlease
  rw [← heq, hnone] at hsome
  cases hsome

/-- A lease on the published database; the counter does not wrap. -/
theorem lend (h : LedgerFits cache outstanding publications) (hstate : cache.state = .ready)
    (hroom : outstanding.length + 1 < 2 ^ 64) (grant : ℕ) :
    LedgerFits { cache with leases := cache.leases + 1 }
      (QueryCache.lend { cache with leases := cache.leases + 1 } grant :: outstanding)
      publications := by
  constructor
  · exact h.fresh
  · exact h.ready
  · exact h.published
  · exact h.once
  · rw [← h.counter] at hroom
    rw [List.length_cons, ← h.counter]
    exact toNat_succ_of_lt hroom
  · rintro lease (_ | ⟨_, hlease⟩)
    · exact ⟨rfl, h.ready hstate, rfl⟩
    · exact h.out lease hlease
  · intro hclosing
    cases hstate.symm.trans hclosing

/-- A build starts. -/
theorem build (h : LedgerFits cache outstanding publications) (hstate : cache.state = .empty)
    (buildAttempts : UInt64) :
    LedgerFits { cache with state := .building, buildAttempts := buildAttempts } outstanding
      publications where
  fresh := fun _ => h.fresh (.inl hstate)
  ready := nofun
  published := h.published
  once := h.once
  counter := h.counter
  out := h.out
  closed := nofun

/-- A build comes back with a database. -/
theorem publish (h : LedgerFits cache outstanding publications) (hstate : cache.state = .building)
    (candidate grant : ℕ) :
    LedgerFits (cache.finish .ok candidate) ((cache.finish .ok candidate).lend grant :: outstanding)
      (candidate :: publications) := by
  obtain ⟨hnone, hpublications⟩ := h.fresh (.inr hstate)
  have hnil := h.outstanding_eq_nil hnone
  have hcounter := h.counter
  subst hnil hpublications
  constructor
  · rintro (hempty | hbuilding)
    · cases hempty
    · cases hbuilding
  · exact fun _ => rfl
  · rintro database ⟨⟩
    rfl
  · exact Nat.le_refl 1
  · have hzero : cache.leases.toNat = 0 := hcounter
    exact (toNat_succ_of_lt (by omega)).trans (congrArg (· + 1) hzero)
  · rintro lease (_ | ⟨_, hlease⟩)
    · exact ⟨rfl, rfl, rfl⟩
    · cases hlease
  · nofun

/-- A build comes back without one. -/
theorem fail (h : LedgerFits cache outstanding publications) (hstate : cache.state = .building) :
    LedgerFits { cache with state := .empty } outstanding publications := by
  exact ⟨fun _ => h.fresh (.inr hstate), nofun, h.published, h.once, h.counter, h.out, nofun⟩

/-- **A lease comes back**; one that is not out must be refused. -/
theorem release (h : LedgerFits cache outstanding publications) {lease : QueryCacheLease}
    (hlease : lease ∈ outstanding ∨ outstanding = [] ∨ lease.owned = false ∨
      lease.database ≠ cache.published) :
    LedgerFits (cache.leaseRelease lease).1
      (if (cache.leaseRelease lease).2 = .ok then outstanding.erase lease else outstanding)
      publications := by
  obtain hmem | hrest := hlease
  · obtain ⟨howned, hsome, hpublished⟩ := h.out lease hmem
    have hpos : cache.leases ≠ 0 := fun hzero => by
      have hlength := h.counter
      rw [hzero] at hlength
      exact Nat.ne_of_gt (List.length_pos_of_mem hmem) hlength.symm
    have hrelease :
      cache.leaseRelease lease = ({ cache with leases := cache.leases - 1 }, .ok) := by
      rw [QueryCache.leaseRelease, if_neg (by simp [howned, Option.isSome_iff_ne_none.mp hsome]),
        if_neg (by simp [hpos, hpublished])]
    rw [hrelease]
    refine ⟨h.fresh, h.ready, h.published, h.once, ?_, fun other ho => ?_, fun hstate => ?_⟩
    · rw [if_pos rfl, List.length_erase_of_mem hmem, ← h.counter]
      exact toNat_pred hpos
    · exact h.out other (List.mem_of_mem_erase ho)
    · rw [h.closed hstate] at hmem
      cases hmem
  · have hrefused : cache.leases = 0 ∨ lease.owned = false ∨ lease.database ≠ cache.published := by
      obtain rfl | hother := hrest
      · exact .inl (UInt64.toNat_inj.mp h.counter)
      · exact .inr hother
    rw [QueryCache.leaseRelease_refuse hrefused]
    exact h

/-- A cache without leases is closed. -/
theorem close (h : LedgerFits cache outstanding publications) (hleases : cache.leases = 0) :
    LedgerFits { cache with state := .closing } outstanding publications where
  fresh := by simp
  ready := nofun
  published := h.published
  once := h.once
  counter := h.counter
  out := h.out
  closed := fun _ => List.length_eq_zero_iff.mp (h.counter ▸ congrArg UInt64.toNat hleases)

/-- The database of a closing cache is closed. -/
theorem reclaim (h : LedgerFits cache outstanding publications) (hstate : cache.state = .closing) :
    LedgerFits { cache with published := none } outstanding publications where
  fresh := by simp [hstate]
  ready := by simp [hstate]
  published := nofun
  once := h.once
  counter := h.counter
  out := by simp [h.closed hstate]
  closed := h.closed

end LedgerFits

/-- **The invariant** of the cache among its threads. -/
structure CacheInvariant (s : QueryCacheSystem) : Prop where
  phases : PhasesFit s.phase s.cache.state
  ledger : LedgerFits s.cache s.outstanding s.publications
  left : s.freed = true → ∀ thread, s.phase thread = .idle
  safe : s.faulted = false

/-- A lease value that was released before, or never granted, and that names the database while
other leases on it are out. -/
def StaleLease (s : QueryCacheSystem) (lease : QueryCacheLease) : Prop :=
  lease ∉ s.outstanding ∧ s.outstanding ≠ [] ∧ lease.owned = true ∧
    lease.database = s.cache.published

/-- Stale leases are found by what they say. -/
instance (s : QueryCacheSystem) (lease : QueryCacheLease) : Decidable (StaleLease s lease) :=
  inferInstanceAs (Decidable (lease ∉ s.outstanding ∧ s.outstanding ≠ [] ∧ lease.owned = true ∧
    lease.database = s.cache.published))

/-- **The cache is used in order**: no stale lease is released; nothing touches the cache once it is
freed, and it is freed with no other thread inside a call; and the leases that are out can be
counted. -/
structure UsedInOrder (s : QueryCacheSystem) (e : QueryCacheEvent) : Prop where
  once : ∀ lease, e = .release lease → ¬StaleLease s lease
  alive : s.touches e = true → s.freed = false
  last : ∀ thread, e = .reclaim thread → s.phase thread = .reclaiming →
    ∀ other, other ≠ thread → s.phase other = .idle
  room : e.isEntry = true → s.cache.state = .ready → s.outstanding.length + 1 < 2 ^ 64

namespace CacheInvariant

variable {s : QueryCacheSystem}

theorem start : CacheInvariant {} where
  phases := ⟨nofun, nofun, nofun⟩
  ledger := ⟨fun _ => ⟨rfl, rfl⟩, nofun, nofun, Nat.zero_le 1, rfl, nofun, nofun⟩
  left := nofun
  safe := rfl

/-- A thread that comes out of a call leaves a freed cache as it is. -/
theorem left_update (h : CacheInvariant s) (thread : ℕ) (hfreed : s.freed = true) (other : ℕ) :
    Function.update s.phase thread .idle other = .idle := by
  by_cases heq : other = thread
  · rw [heq, Function.update_self]
  · rw [Function.update_of_ne heq]
    exact h.left hfreed other

theorem reply (h : CacheInvariant s) (thread : ℕ) (status : QueryCacheStatus) :
    CacheInvariant (s.reply thread status).1 :=
  ⟨h.phases.update thread (by simp) (by simp), h.ledger, h.left_update thread, h.safe⟩

/-- **One event keeps the invariant**, if the cache is used in order. -/
theorem next (h : CacheInvariant s) (e : QueryCacheEvent) (he : UsedInOrder s e) :
    CacheInvariant (s.next e) := by
  have hmove := s.step_move e
  unfold QueryCacheSystem.next
  generalize s.step e = answer at hmove ⊢
  -- a cache that is not freed has nothing to say about the threads that left it
  have hleft : s.freed = false → ∀ {phase : ℕ → CachePhase}, s.freed = true →
      ∀ thread, phase thread = .idle := fun halive _ hfreed => by
    rw [halive] at hfreed
    cases hfreed
  cases hmove with
  | fault hfreed htouches => cases hfreed.symm.trans (he.alive htouches)
  | stay => exact h
  | reply thread status => exact h.reply thread status
  | park thread timeoutMs start halive =>
    exact ⟨h.phases.update thread (by simp) (by simp), h.ledger, hleft halive, h.safe⟩
  | lend thread hstate hentry =>
    exact ⟨h.phases.update thread (by simp) (by simp),
      h.ledger.lend hstate (he.room hentry hstate) s.grants, h.left_update thread, h.safe⟩
  | build thread halive hstate =>
    exact ⟨(hstate ▸ h.phases).start thread, h.ledger.build hstate _, hleft halive, h.safe⟩
  | publish hthread hok =>
    exact ⟨h.phases.finish hthread _,
      h.ledger.publish (h.phases.builds _ hthread) s.opened s.grants, h.left_update _, h.safe⟩
  | fail hthread hfailed =>
    exact ⟨h.phases.finish hthread _, h.ledger.fail (h.phases.builds _ hthread), h.left_update _,
      h.safe⟩
  | release lease =>
    have hlease : lease ∈ s.outstanding ∨ s.outstanding = [] ∨ lease.owned = false ∨
        lease.database ≠ s.cache.published := by
      by_contra hstale
      simp only [not_or, Bool.not_eq_false, not_not] at hstale
      exact he.once lease rfl hstale
    refine ⟨?_, h.ledger.release hlease, h.left, h.safe⟩
    rw [QueryCache.leaseRelease_state]
    exact h.phases
  | close halive hstate hleases =>
    exact ⟨h.phases.close _ hstate, h.ledger.close hleases, hleft halive, h.safe⟩
  | @reclaim thread hthread =>
    refine ⟨h.phases.update _ (by simp) (by simp), h.ledger.reclaim (h.phases.reclaims _ hthread),
      fun _ other => ?_, h.safe⟩
    show Function.update s.phase thread .idle other = .idle
    by_cases heq : other = thread
    · rw [heq, Function.update_self]
    · rw [Function.update_of_ne heq]
      exact he.last thread rfl hthread other heq

/-- **Every run that uses the cache in order keeps the invariant.** -/
theorem run {events : List QueryCacheEvent}
    (h : Along UsedInOrder QueryCacheSystem.next {} events) :
    CacheInvariant (events.foldl QueryCacheSystem.next {}) :=
  h.invariant CacheInvariant (fun _ e hs he => hs.next e he) start

end CacheInvariant

/-! ## The contract -/

/-- **What the cursors rely on**, in a state and over any event from it: one build at a time; one
database, ever; the counter is the number of leases that are out; an acquire that succeeds hands out
the published database; a failed build leaves an empty cache, which the next acquire builds; and the
published database is closed only when no lease is out and nobody builds; and nothing was used
after it was freed. -/
structure CacheContract (s : QueryCacheSystem) : Prop where
  oneBuild : ∀ thread other, s.phase thread = .building → s.phase other = .building →
    thread = other
  onePublication : s.publications.length ≤ 1 ∧
    ∀ database, s.cache.published = some database → s.publications = [database]
  counter : s.cache.leases.toNat = s.outstanding.length
  handsOut : ∀ e lease, (s.step e).2 = some (.leased lease) →
    lease.database.isSome ∧ (s.next e).cache.published = lease.database
  retries : ∀ thread outcome, s.phase thread = .building → outcome.status ≠ .ok →
    (s.next (.built thread outcome)).cache.state = .empty ∧
      ∀ other timeoutMs start now, (s.next (.built thread outcome)).phase other = .idle →
        timeoutMs ≠ 0 →
        ((s.next (.built thread outcome)).next
          (.acquire other timeoutMs true (some start) now)).phase other = .building
  closes : ∀ e, s.cache.published.isSome → (s.next e).cache.published = none →
    s.outstanding = [] ∧ ∀ thread, s.phase thread ≠ .building
  safe : s.faulted = false

namespace CacheInvariant

variable {s : QueryCacheSystem}

/-- An acquire that succeeds hands out the published database. -/
theorem handsOut (h : CacheInvariant s) {e : QueryCacheEvent} {lease : QueryCacheLease}
    (hlease : (s.step e).2 = some (.leased lease)) :
    lease.database.isSome ∧ (s.next e).cache.published = lease.database := by
  have hmove := s.step_move e
  unfold QueryCacheSystem.next
  generalize s.step e = answer at hmove hlease ⊢
  cases hmove with
  | lend thread hstate =>
    cases hlease
    exact ⟨h.ledger.ready hstate, rfl⟩
  | publish hthread hok =>
    cases hlease
    exact ⟨rfl, rfl⟩
  | _ => cases hlease

/-- A failed build leaves an empty cache, which the next acquire builds. -/
theorem retries (h : CacheInvariant s) {thread : ℕ} {outcome : BuildOutcome}
    (hthread : s.phase thread = .building) (hfailed : outcome.status ≠ .ok) :
    (s.next (.built thread outcome)).cache.state = .empty ∧
      ∀ other timeoutMs start now, (s.next (.built thread outcome)).phase other = .idle →
        timeoutMs ≠ 0 →
        ((s.next (.built thread outcome)).next
          (.acquire other timeoutMs true (some start) now)).phase other = .building := by
  have halive : s.freed = false := by
    by_contra hfreed
    cases hthread.symm.trans (h.left (by simpa using hfreed) thread)
  have hstate : (s.next (.built thread outcome)).cache.state = .empty ∧
      (s.next (.built thread outcome)).freed = false := by
    simp [QueryCacheSystem.next, QueryCacheSystem.step, QueryCacheSystem.serve, halive, hthread,
      QueryCacheSystem.finish, hfailed, QueryCacheSystem.reply, QueryCacheSystem.move,
      QueryCache.finish]
  refine ⟨hstate.1, fun other timeoutMs start now hidle htimeout => ?_⟩
  generalize s.next (.built thread outcome) = after at hstate hidle
  simp [QueryCacheSystem.next, QueryCacheSystem.step, QueryCacheSystem.serve,
    QueryCacheSystem.turn, QueryCacheSystem.enter, QueryCacheSystem.move, hstate, hidle, htimeout]

/-- Only the second half of `destroy` takes the published database away. -/
theorem closes (h : CacheInvariant s) {e : QueryCacheEvent} (hsome : s.cache.published.isSome)
    (hnone : (s.next e).cache.published = none) :
    s.outstanding = [] ∧ ∀ thread, s.phase thread ≠ .building := by
  have hmove := s.step_move e
  unfold QueryCacheSystem.next at hnone
  generalize s.step e = answer at hmove hnone
  have hkept : ∀ {cache : QueryCache}, cache.published = s.cache.published →
      cache.published ≠ none := by
    intro cache hsame
    rw [hsame]
    exact Option.isSome_iff_ne_none.mp hsome
  cases hmove with
  | publish hthread hok => cases hnone
  | release lease => exact absurd hnone (hkept (s.cache.leaseRelease_published lease))
  | reclaim hthread =>
    have hclosing := h.phases.reclaims _ hthread
    refine ⟨h.ledger.closed hclosing, fun thread hbuilding => ?_⟩
    cases hclosing.symm.trans (h.phases.builds thread hbuilding)
  | _ => exact absurd hnone (hkept rfl)

end CacheInvariant

/-- **The query cache**: in every run that uses the cache in order, the contract holds in the state
reached. -/
theorem query_cache_contract {events : List QueryCacheEvent}
    (h : Along UsedInOrder QueryCacheSystem.next {} events) :
    CacheContract (events.foldl QueryCacheSystem.next {}) := by
  have hinv := CacheInvariant.run h
  exact {
    oneBuild := hinv.phases.alone
    onePublication := ⟨hinv.ledger.once, hinv.ledger.published⟩
    counter := hinv.ledger.counter
    handsOut := fun _ _ hlease => hinv.handsOut hlease
    retries := fun _ _ hthread hfailed => hinv.retries hthread hfailed
    closes := fun _ hsome hnone => hinv.closes hsome hnone
    safe := hinv.safe }

/-- A build fails; the next one succeeds while a second thread waits for it. -/
def sharedRun : List QueryCacheEvent :=
  [.acquire 0 100 true (some 0) none, .built 0 (.returned .buildFailed true),
    .acquire 1 100 true (some 0) none, .acquire 0 100 true (some 0) (some 5),
    .built 1 (.returned .ok true), .wake 0 none, .release ⟨true, some 1, 1, 0⟩]

/-- The second lease comes back as well, and the cache is destroyed. -/
def destroyedRun : List QueryCacheEvent :=
  sharedRun ++ [.release ⟨true, some 1, 1, 1⟩, .destroy 2 true, .reclaim 2]

theorem query_cache_contract_destroyedRun :
    CacheContract (sharedRun.foldl QueryCacheSystem.next {}) ∧
      (sharedRun.foldl QueryCacheSystem.next {}).cache.leases = 1 ∧
      CacheContract (destroyedRun.foldl QueryCacheSystem.next {}) ∧
      (destroyedRun.foldl QueryCacheSystem.next {}).freed = true := by
  have hruns : Along UsedInOrder QueryCacheSystem.next {} destroyedRun := by
    refine ⟨?_, ?_, ?_, ?_, ?_, ?_, ?_, ?_, ?_, ?_, trivial⟩
    iterate 9 exact ⟨by rintro _ ⟨⟩ <;> decide, fun _ => rfl, nofun, fun _ _ => by decide⟩
    refine ⟨nofun, fun _ => rfl, ?_, nofun⟩
    -- the threads of the run are out of their calls, and no other one was in
    rintro _ ⟨⟩ - (_ | _ | _ | other) hother
    · rfl
    · rfl
    · exact absurd rfl hother
    · rfl
  exact ⟨query_cache_contract (Along.append.mp hruns).1, rfl, query_cache_contract hruns, rfl⟩

/-- Two leases are out; the first is released, and then a copy of it. -/
def doubleRun : List QueryCacheEvent :=
  [.acquire 0 100 true (some 0) none, .built 0 (.returned .ok true),
    .acquire 1 100 true (some 0) none, .release ⟨true, some 0, 1, 0⟩,
    .release ⟨true, some 0, 1, 0⟩]

/-- The counter is zero with a lease out, and `destroy` closes the database under it. -/
theorem query_cache_double_release :
    ¬CacheContract (doubleRun.foldl QueryCacheSystem.next {}) ∧
      (doubleRun.foldl QueryCacheSystem.next {}).outstanding = [⟨true, some 0, 1, 1⟩] ∧
      (doubleRun.foldl QueryCacheSystem.next {}).cache.published = some 0 ∧
      ([.destroy 2 true, .reclaim 2].foldl QueryCacheSystem.next
        (doubleRun.foldl QueryCacheSystem.next {})).cache.published = none := by
  refine ⟨fun hcontract => ?_, rfl, rfl, rfl⟩
  cases hcontract.counter

/-- A build fails while a second thread waits for it; before that one wakes, `destroy` is there. -/
def hastyRun : List QueryCacheEvent :=
  [.acquire 0 100 true (some 0) none, .acquire 1 100 true (some 0) (some 5),
    .built 0 (.returned .buildFailed true), .destroy 2 true, .reclaim 2, .wake 1 (some 6)]

/-- Two threads destroy the cache; the first has given up the mutex when the second takes it. -/
def twiceRun : List QueryCacheEvent :=
  [.destroy 0 true, .destroy 1 true, .reclaim 0, .reclaim 1]

/-- The waiting thread wakes in a cache that is freed, and a cache is freed twice. -/
theorem query_cache_hasty_destroy :
    ¬CacheContract (hastyRun.foldl QueryCacheSystem.next {}) ∧
      ¬CacheContract (twiceRun.foldl QueryCacheSystem.next {}) := by
  constructor
  · intro hcontract
    cases hcontract.safe
  · intro hcontract
    cases hcontract.safe

end Vps
