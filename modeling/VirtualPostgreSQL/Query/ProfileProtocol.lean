import VirtualPostgreSQL.Credential.Protocol
import VirtualPostgreSQL.Query.Profile

/-!
# Query/ProfileProtocol — the four slots across interleavings

Each slot of the registry, seen with the threads that resolve from it, is a broker of its own
(`ProfileSystem.broker`).  A step works at one slot and leaves the others alone
(`ProfileSystem.Sound.settle`); a cleanup works at all, when nobody is in.  `query_profile_protocol`
is the result: what the credential registry keeps for its provider, this one keeps for each of four,
and a resolve that fails gives back what it had copied.
-/

namespace Vps

open Machinery

/-! ## A slot is a broker -/

/-- The provider that is registered, with its id and generation. -/
def QueryProfileSlot.registration (slot : QueryProfileSlot) : Option ProfileCall :=
  if slot.registered then some ⟨slot.provider, slot.providerId, slot.generation⟩ else none

/-- A lease is held until it is given back. -/
def ProfileStage.stage : ProfileStage → Stage QueryProfileLease
  | .calling => .asking
  | .leased lease => .holding lease
  | .copied lease _ => .holding lease
  | .finishing _ => .leaving

/-- A thread as a caller of the broker. -/
def ProfileThread.caller (thread : ProfileThread) : BrokerCall ProfileCall QueryProfileLease :=
  ⟨thread.key, thread.call, thread.stage.stage⟩

/-- **A slot as a broker.** -/
def ProfileSystem.broker (s : ProfileSystem) (source : Fin 4) :
    Broker ProfileCall QueryProfileLease where
  registered := (s.registry.slots source).registration
  used := (s.registry.slots source).resolveStarted
  calls := (s.calls source).threads.map ProfileThread.caller
  next := s.next
  log := (s.calls source).log

/-! ## What a lease becomes -/

/-- The bytes of a lease can be read. -/
def QueryProfileLease.Readable (lease : QueryProfileLease) : Prop :=
  ∀ bytes, lease.query = some bytes → lease.queryLength.toNat ≤ bytes.length

/-- An object that was initialised. -/
structure ResolvedQueryProfile.Formed (resolved : ResolvedQueryProfile) : Prop where
  query : resolved.query.Sound
  limit : resolved.query.limit = profileQueryLimit

/-- An object that holds no query. -/
structure ResolvedQueryProfile.Empty (resolved : ResolvedQueryProfile) :
    Prop extends resolved.Formed where
  data : resolved.query.data = none

/-- **The object holds the query of the lease**, ended by a zero byte, and its scan succeeded. -/
def ResolvedQueryProfile.Scanned (resolved : ResolvedQueryProfile)
    (lease : QueryProfileLease) : Prop :=
  ∃ bytes scan, lease.query = some bytes ∧ lease.queryLength ≠ 0 ∧ lease.profileRevision ≠ 0 ∧
    resolved.query.contents = bytes.take lease.queryLength.toNat ++ [0] ∧
    querySourceScan (bytes.take lease.queryLength.toNat) = .ok scan ∧
      resolved.analysis = some (.ok scan)

/-- An object whose resolve is not over: its buffer and its analysis may have changed. -/
def ResolvedQueryProfile.Since (resolved given : ResolvedQueryProfile) : Prop :=
  resolved.Formed ∧ resolved.query.allocator = given.query.allocator ∧
    ∃ query analysis, resolved = { given with query, analysis }

section Objects

variable {given resolved : ResolvedQueryProfile}

theorem ResolvedQueryProfile.Empty.contents (h : given.Empty) : given.query.contents = [] := by
  rw [Buffer.contents, h.data]
  exact List.take_nil

theorem ResolvedQueryProfile.Formed.since (h : given.Formed) : given.Since given :=
  ⟨h, rfl, _, _, rfl⟩

/-- An append keeps an object formed. -/
theorem ResolvedQueryProfile.Since.append (h : resolved.Since given) {query : Buffer}
    (hsound : query.Sound) (hlimit : query.limit = resolved.query.limit)
    (hallocator : query.allocator = resolved.query.allocator)
    (analysis : Option (ScanResult ScanState)) :
    ResolvedQueryProfile.Since { resolved with query, analysis } given := by
  obtain ⟨hformed, hsame, _, _, rfl⟩ := h
  exact ⟨⟨hsound, hlimit.trans hformed.limit⟩, hallocator.trans hsame, query, analysis, rfl⟩

/-- **What a lease becomes**: the object holds its query, or the result says that it does not. -/
theorem queryProfileCopy_spec (h : given.Empty) (arena : Arena) {lease : QueryProfileLease}
    (hread : lease.Readable) :
    ∃ result resolved arena', queryProfileCopy lease given arena = .ok (result, resolved, arena') ∧
      resolved.Since given ∧
      (∀ others, arena.Holds others → arena'.Holds (addressesOf resolved.query.data ++ others)) ∧
      (result = .ok → resolved.Scanned lease) := by
  have hnothing (others : List ℕ) (hout : arena.Holds others) :
      arena.Holds (addressesOf given.query.data ++ others) := by
    rwa [h.data]
  unfold queryProfileCopy
  split
  · exact ⟨_, given, arena, rfl, h.since, hnothing, QueryProfileResult.noConfusion⟩
  rename_i hvalid
  simp only [Bool.or_eq_true, not_or, Option.isNone_iff_eq_none, beq_iff_eq,
    decide_eq_true_eq] at hvalid
  obtain ⟨⟨⟨⟨-, hsome⟩, hlength⟩, -⟩, hrevision⟩ := hvalid
  obtain ⟨bytes, hbytes⟩ := Option.ne_none_iff_exists'.mp hsome
  obtain ⟨result, query, arena', heq, hsound, -, hholds, hlimit, hallocator, hcases⟩ :=
    bufferAppend_spec h.query arena (hread bytes hbytes)
  have hsince := h.since.append hsound hlimit hallocator given.analysis
  simp only [hbytes, heq, ok_bind]
  rcases hcases with ⟨rfl, -, hcontents⟩ | ⟨hfailed, rfl, -⟩
  · -- the query is there, now the zero byte
    rw [h.contents, List.nil_append] at hcontents
    obtain ⟨result, ended, arena'', heq', hsound', -, hholds', hlimit', hallocator', hcases'⟩ :=
      @bufferAppend_spec query hsound arena' [0] 1 le_rfl
    have hend (others : List ℕ) (hout : arena.Holds others) :
        arena''.Holds (addressesOf ended.data ++ others) :=
      hholds' others (hholds others (hnothing others hout))
    simp only [heq', ok_bind]
    rcases hcases' with ⟨rfl, -, hcontents'⟩ | ⟨hfailed, rfl, -⟩
    · have htaken :
        ended.contents.take lease.queryLength.toNat = bytes.take lease.queryLength.toNat := by
        rw [hcontents', hcontents]
        refine List.take_left' ?_
        exact List.length_take_of_le (hread bytes hbytes)
      refine ⟨_, _, _, rfl, hsince.append hsound' hlimit' hallocator' _, hend, fun hresult => ?_⟩
      rw [htaken] at hresult ⊢
      cases hscan : querySourceScan (bytes.take lease.queryLength.toNat) with
      | error =>
        rw [hscan] at hresult
        cases hresult
      | ok scan =>
        exact ⟨bytes, scan, hbytes, hlength,
          hrevision, by rw [hcontents', hcontents]; rfl, hscan, rfl⟩
    · cases result with
      | ok => exact absurd rfl hfailed
      | _ =>
        exact ⟨_, _, _, rfl, hsince.append hsound' hlimit' hallocator' _, hend,
          QueryProfileResult.noConfusion⟩
  · cases result with
    | ok => exact absurd rfl hfailed
    | _ =>
      exact ⟨_, _, _, rfl, hsince, fun others hout => hholds others (hnothing others hout),
        QueryProfileResult.noConfusion⟩

/-- **A resolve that failed gives back what it had copied.** -/
theorem queryProfileNote_failed (hgiven : given.Empty) (h : resolved.Since given) (arena : Arena)
    {result : QueryProfileResult} (hfailed : result ≠ .ok) (source : Fin 4) (call : ProfileCall)
    (name : List UInt8) (lease : QueryProfileLease) :
    ∃ analysis arena', queryProfileNote source call name lease result resolved arena =
        ({ given with analysis }, arena') ∧
      ∀ others, arena.Holds (addressesOf resolved.query.data ++ others) → arena'.Holds others := by
  obtain ⟨hformed, hallocator, query, analysis, rfl⟩ := h
  obtain ⟨heq, -, hholds⟩ := bufferReset_spec hformed.query arena
  have hvalid : allocatorIsValid given.query.allocator = true := hgiven.query.valid
  have hempty : given.query = ⟨given.query.allocator, none, 0, 0, profileQueryLimit⟩ := by
    have hsize := hgiven.query.size
    obtain ⟨-, hcapacity⟩ | ⟨block, hblock, -⟩ := hgiven.query.data
    · have hlimit := hgiven.limit
      have hdata := hgiven.data
      generalize given.query = query at *
      obtain ⟨allocator, data, size, capacity, limit⟩ := query
      dsimp only at hdata hlimit hcapacity hsize
      subst hdata hlimit hcapacity
      rw [Nat.le_zero.mp hsize]
    · rw [hgiven.data] at hblock
      cases hblock
  refine ⟨analysis, _, ?_, hholds⟩
  simp only [queryProfileNote, hfailed, if_false]
  rw [heq]
  dsimp only at hallocator ⊢
  rw [bufferInit, hallocator, hvalid, hempty]
  rfl

end Objects

/-! ## What holds at any time -/

/-- What the object of a successful resolve shows, and of which registration. -/
def ResolvedQueryProfile.Shows (resolved : ResolvedQueryProfile) (source : ℕ) (name : List UInt8)
    (call : ProfileCall) (lease : QueryProfileLease) : Prop :=
  resolved.Scanned lease ∧ resolved.source = source ∧ resolved.providerId = call.providerId ∧
    resolved.generation = call.generation ∧ resolved.profileRevision = lease.profileRevision ∧
    resolved.nameFingerprint = profileNameHash name

/-- The log of a slot. -/
abbrev ProfileLog := List (LedgerEvent (ℕ × ProfileCall × QueryProfileLease))

/-- A thread in the middle, at a slot. -/
def ProfileThread.Good (source : Fin 4) (log : ProfileLog) (thread : ProfileThread) : Prop :=
  thread.given.Empty ∧
    match thread.stage with
    | .calling => thread.resolved = thread.given
    | .leased lease =>
      thread.resolved = thread.given ∧ lease.Readable ∧
        .acquired (thread.key, thread.call, lease) ∈ log
    | .copied lease result =>
      thread.resolved.Since thread.given ∧ .acquired (thread.key, thread.call, lease) ∈ log ∧
        (result = .ok → thread.resolved.Scanned lease)
    | .finishing result =>
      (result = .ok ∧ ∃ lease, .acquired (thread.key, thread.call, lease) ∈ log ∧
          thread.resolved.Shows source thread.name thread.call lease) ∨
        (result ≠ .ok ∧ ∃ analysis, thread.resolved = { thread.given with analysis })

/-- A resolve that has returned: it failed and its object is as it was, but for the analysis, or it
gave what a lease showed. -/
def ProfileReturn.Good (logs : Fin 4 → ProfileLog) (returned : ProfileReturn) : Prop :=
  (returned.result = .ok ∧
    ∃ (source : Fin 4) (key : ℕ) (call : ProfileCall) (lease : QueryProfileLease),
      returned.source = source ∧ returned.key = some key ∧
        .acquired (key, call, lease) ∈ logs source ∧
      returned.resolved.Shows source returned.name call lease) ∨
    (returned.result ≠ .ok ∧ ∃ analysis, returned.resolved = { returned.given with analysis })

/-- The blocks of the objects that are being resolved at a slot. -/
def ProfileCalls.blocks (calls : ProfileCalls) : List ℕ :=
  calls.threads.flatMap fun thread => addressesOf thread.resolved.query.data

/-- The blocks of an object that was resolved. -/
def ProfileReturn.blocks (returned : ProfileReturn) : List ℕ :=
  if returned.result = .ok then addressesOf returned.resolved.query.data else []

/-- **The blocks that are owned**: by a thread, or by an object that was resolved. -/
def ProfileSystem.blocks (s : ProfileSystem) : List ℕ :=
  ((List.finRange 4).flatMap fun source => (s.calls source).blocks) ++
    s.returned.flatMap ProfileReturn.blocks

/-- **What holds at any time.** -/
structure ProfileSystem.Sound (s : ProfileSystem) : Prop where
  broker : ∀ source, (s.broker source).Sound
  count : ∀ source, (s.registry.slots source).activeResolves.toNat =
    (s.calls source).threads.length + (s.calls source).stranded
  threads : ∀ source, ∀ thread ∈ (s.calls source).threads, thread.Good source (s.calls source).log
  returned : ∀ returned ∈ s.returned, returned.Good fun source => (s.calls source).log
  holds : s.arena.Holds s.blocks

section Good

variable {source : Fin 4} {log log' : ProfileLog}

/-- What has happened stays so. -/
theorem ProfileThread.Good.mono {thread : ProfileThread} (h : thread.Good source log)
    (hlog : log <:+ log') : thread.Good source log' := by
  obtain ⟨key, call, name, given, resolved, stage⟩ := thread
  obtain ⟨hgiven, h⟩ := h
  refine ⟨hgiven, ?_⟩
  cases stage with
  | calling => exact h
  | leased lease => exact ⟨h.1, h.2.1, hlog.subset h.2.2⟩
  | copied lease result => exact ⟨h.1, hlog.subset h.2.1, h.2.2⟩
  | finishing result =>
    exact h.imp_left fun ⟨hresult, lease, hlease, hshows⟩ =>
      ⟨hresult, lease, hlog.subset hlease, hshows⟩

theorem ProfileReturn.Good.mono {returned : ProfileReturn} {logs logs' : Fin 4 → ProfileLog}
    (h : returned.Good logs) (hlogs : ∀ source, logs source <:+ logs' source) :
    returned.Good logs' :=
  Or.imp_left (fun ⟨hresult, source, key, call, lease, hsource, hkey, hlease, hshows⟩ =>
    ⟨hresult, source, key, call, lease, hsource, hkey, (hlogs source).subset hlease, hshows⟩) h

end Good

/-! ## The sections -/

section Sections

variable (registry : QueryProfileRegistry) (mutex : MutexAnswer)

/-- What a registration does: nothing, or it puts a provider into a slot where none was used. -/
theorem queryProfileRegistryRegister_cases (source : ℕ) (providerId : UInt64)
    (provider : Option QueryProfileProvider) :
    (queryProfileRegistryRegister registry source providerId provider mutex).2 = registry ∨
      ∃ (index : Fin 4) (copied : QueryProfileProvider) (generation : UInt64),
        (registry.slots index).resolveStarted = false ∧
        (queryProfileRegistryRegister registry source providerId provider mutex).2 = { registry with
          slots := Function.update registry.slots index { registry.slots index with
            provider := copied, providerId := providerId, generation := generation
            registered := true } } := by
  unfold queryProfileRegistryRegister
  split
  · split
    · exact .inl rfl
    split
    · exact .inl rfl
    split
    · exact .inl rfl
    split
    · exact .inl rfl
    dsimp only
    split
    · exact .inl rfl
    split
    · exact .inl rfl
    · rename_i hstarted _
      exact .inr ⟨_, _, _, Bool.eq_false_iff.mpr hstarted, rfl⟩
  · exact .inl rfl

/-- **What the first section does.** -/
inductive ProfileEntered (registry : QueryProfileRegistry) (resolved : ResolvedQueryProfile) :
    QueryProfileRegistry × Except QueryProfileResult (Fin 4 × ProfileCall) → Prop
  | refused {result : QueryProfileResult} (failed : result ≠ .ok) :
      ProfileEntered registry resolved (registry, .error result)
  /-- The mutex could not be unlocked. -/
  | stranded {source : Fin 4} (room : (registry.slots source).activeResolves ≠ 0xffffffffffffffff) :
      ProfileEntered registry resolved ({ registry with
        slots := Function.update registry.slots source { registry.slots source with
          resolveStarted := true, activeResolves := (registry.slots source).activeResolves + 1 } },
        .error .platformError)
  | entered {source : Fin 4} {call : ProfileCall}
      (current : (registry.slots source).registration = some call)
      (room : (registry.slots source).activeResolves ≠ 0xffffffffffffffff)
      (initialized : resolved.initialized = true) (data : resolved.query.data = none) :
      ProfileEntered registry resolved ({ registry with
        slots := Function.update registry.slots source { registry.slots source with
          resolveStarted := true, activeResolves := (registry.slots source).activeResolves + 1 } },
        .ok (source, call))

theorem queryProfileEnter_entered (source : ℕ) (name : Option (List UInt8))
    (resolved : ResolvedQueryProfile) :
    ProfileEntered registry resolved (queryProfileEnter registry source name resolved mutex) := by
  unfold queryProfileEnter
  split
  · split
    · exact .refused QueryProfileResult.noConfusion
    rename_i hvalid
    simp only [Bool.or_eq_true, not_or, Bool.not_eq_true', Bool.not_eq_false, Bool.not_eq_true,
      Option.isSome_eq_false_iff, Option.isNone_iff_eq_none] at hvalid
    split
    · exact .refused QueryProfileResult.noConfusion
    dsimp only
    split
    · exact .refused QueryProfileResult.noConfusion
    split
    · exact .refused QueryProfileResult.noConfusion
    rename_i hregistered hroom
    split
    · refine .entered ?_ hroom hvalid.1.2 hvalid.2
      rw [QueryProfileSlot.registration, if_pos (by simpa using hregistered)]
    · exact .stranded hroom
  · exact .refused QueryProfileResult.noConfusion

/-- **What the last section does**: it lets one resolve out, if it gets the lock. -/
theorem queryProfileFinish_spec (source : Fin 4)
    (h : (registry.slots source).activeResolves.toNat ≠ 0) :
    ∃ slot, (queryProfileFinish registry source mutex).slots =
        Function.update registry.slots source slot ∧
      slot.registration = (registry.slots source).registration ∧
      slot.resolveStarted = (registry.slots source).resolveStarted ∧
      slot.activeResolves.toNat + 1 =
        (registry.slots source).activeResolves.toNat + (!mutex.lock).toNat := by
  have hne : (registry.slots source).activeResolves ≠ 0 := fun heq => h (by rw [heq]; rfl)
  unfold queryProfileFinish
  cases mutex.lock with
  | false => exact ⟨_, (Function.update_eq_self _ _).symm, rfl, rfl, rfl⟩
  | true =>
    simp only [Bool.not_true, Bool.false_eq_true, if_false, ne_eq, hne, not_false_iff, if_true]
    refine ⟨_, rfl, rfl, rfl, ?_⟩
    show ((registry.slots source).activeResolves - 1).toNat + 1 = _
    rw [toNat_pred hne, Bool.toNat_false]
    omega

/-- **What a cleanup does**: nothing while anybody is in. -/
theorem queryProfileRegistryCleanup_cases (destroyed : Bool) :
    (queryProfileRegistryCleanup registry mutex destroyed).2 = registry ∨
      ((∀ source, (registry.slots source).activeResolves = 0) ∧ ∃ initialized,
        (queryProfileRegistryCleanup registry mutex destroyed).2 =
          ⟨fun _ => .zero, initialized⟩) := by
  unfold queryProfileRegistryCleanup
  split
  · exact .inl rfl
  split
  · exact .inl rfl
  split
  · exact .inl rfl
  rename_i hbusy
  have hzero (source : Fin 4) : (registry.slots source).activeResolves = 0 := by
    by_contra hne
    refine hbusy (List.any_eq_true.mpr ⟨source, List.mem_finRange source, ?_⟩)
    exact bne_iff_ne.mpr hne
  dsimp only
  split
  · exact .inr ⟨hzero, _, rfl⟩
  split
  · exact .inr ⟨hzero, _, rfl⟩
  · exact .inr ⟨hzero, _, rfl⟩

end Sections

/-! ## Steps -/

/-- What the environment is trusted with: an object that says so was initialised, and the bytes of a
lease can be read. -/
def ProfileTrusted (_ : ProfileSystem) : ProfileEvent → Prop
  | .enter _ _ resolved _ => resolved.initialized = true → resolved.Formed
  | .answer _ _ answer => answer.lease.Readable
  | _ => True

namespace ProfileSystem

variable {s s' : ProfileSystem} {source : Fin 4} {calls : ProfileCalls} {key : ℕ}
  {thread thread' : ProfileThread}

/-- The blocks at one slot, of what has just returned, and of everybody else. -/
theorem exists_blocks (s : ProfileSystem) (source : Fin 4) :
    ∃ rest, s.blocks.Perm ((s.calls source).blocks ++ rest) ∧
      ∀ (s' : ProfileSystem) (calls : ProfileCalls) (more : List ProfileReturn),
        s'.calls = Function.update s.calls source calls → s'.returned = more ++ s.returned →
          s'.blocks.Perm (calls.blocks ++ (more.flatMap ProfileReturn.blocks ++ rest)) := by
  obtain ⟨others, hothers⟩ :=
    exists_flatMap_update (List.nodup_finRange 4) (List.mem_finRange source)
    s.calls ProfileCalls.blocks
  refine ⟨others ++ s.returned.flatMap ProfileReturn.blocks, ?_,
    fun s' calls more hcalls hreturned => ?_⟩
  · have hsame := hothers (s.calls source)
    rw [Function.update_eq_self] at hsame
    rw [blocks, ← List.append_assoc]
    exact hsame.append_right _
  · rw [blocks, hcalls, hreturned, List.flatMap_append]
    refine ((hothers calls).append_right _).trans ?_
    rw [List.append_assoc]
    refine List.Perm.append_left _ ?_
    rw [← List.append_assoc, ← List.append_assoc]
    exact List.perm_append_comm.append_right _

/-- The thread that was found, and the others. -/
theorem find_thread (h : (s.calls source).threads.find? (·.key == key) = some thread) :
    thread.key = key ∧
      (s.calls source).threads.Perm (thread :: (s.calls source).threads.eraseP (·.key == key)) :=
  ⟨by simpa using List.find?_some h, perm_eraseP_of_find? h⟩

/-- The callers, with the one that was found in front. -/
theorem callers (hfind : (s.calls source).threads.find? (·.key == key) = some thread) :
    (s.broker source).calls.Perm (thread.caller ::
      ((s.calls source).threads.eraseP (·.key == thread.key)).map ProfileThread.caller) := by
  obtain ⟨hthread, hperm⟩ := find_thread hfind
  have hcallers := hperm.map ProfileThread.caller
  rwa [hthread]

namespace Sound

/-- **A step works at one slot** and leaves the others alone. -/
theorem settle (h : Sound s) {slot : QueryProfileSlot}
    (hslots : s'.registry.slots = Function.update s.registry.slots source slot)
    (hcalls : s'.calls = Function.update s.calls source calls) (hnext : s.next ≤ s'.next)
    (hlog : (s.calls source).log <:+ calls.log)
    (hbroker : Broker.Step (s.broker source) ⟨slot.registration, slot.resolveStarted,
      calls.threads.map ProfileThread.caller, s'.next, calls.log⟩)
    (hcount : slot.activeResolves.toNat = calls.threads.length + calls.stranded)
    (hthreads : ∀ thread ∈ calls.threads, thread.Good source calls.log)
    (hreturned : ∀ returned ∈ s'.returned,
      returned ∈ s.returned ∨ returned.Good fun other => (s'.calls other).log)
    (hholds : s'.arena.Holds s'.blocks) :
    (∀ other, Broker.Step (s.broker other) (s'.broker other)) ∧ Sound s' := by
  have hbrokers (other : Fin 4) : Broker.Step (s.broker other) (s'.broker other) := by
    by_cases hother : other = source
    · have hview : s'.broker source = ⟨slot.registration, slot.resolveStarted,
          calls.threads.map ProfileThread.caller, s'.next, calls.log⟩ := by
        rw [ProfileSystem.broker, hslots, hcalls, Function.update_self, Function.update_self]
      rw [hother, hview]
      exact hbroker
    · have hview : s'.broker other = { s.broker other with next := s'.next } := by
        rw [ProfileSystem.broker, hslots, hcalls, Function.update_of_ne hother,
          Function.update_of_ne hother]
        rfl
      rw [hview]
      exact .skip hnext
  have hlogs (other : Fin 4) : (s.calls other).log <:+ (s'.calls other).log := by
    rw [hcalls]
    by_cases hother : other = source
    · rw [hother, Function.update_self]
      exact hlog
    · rw [Function.update_of_ne hother]
  refine ⟨hbrokers, fun other => (hbrokers other).sound (h.broker other), fun other => ?_,
    fun other => ?_, fun returned hmem => ?_, hholds⟩
  · rw [hslots, hcalls]
    by_cases hother : other = source
    · rw [hother, Function.update_self, Function.update_self]
      exact hcount
    · rw [Function.update_of_ne hother, Function.update_of_ne hother]
      exact h.count other
  · rw [hcalls]
    by_cases hother : other = source
    · rw [hother, Function.update_self]
      exact hthreads
    · rw [Function.update_of_ne hother]
      exact h.threads other
  · exact (hreturned returned hmem).elim (fun hold => (h.returned returned hold).mono hlogs) id

/-- A thread that goes on takes the place of what it was. -/
theorem proceed (h : Sound s) (hfind : (s.calls source).threads.find? (·.key == key) = some thread)
    (thread' : ProfileThread) (hkey : thread'.key = thread.key) {log : ProfileLog}
    (hlog : (s.calls source).log <:+ log) (hgood : thread'.Good source log) {arena : Arena}
    (hholds : ∀ others, s.arena.Holds (addressesOf thread.resolved.query.data ++ others) →
      arena.Holds (addressesOf thread'.resolved.query.data ++ others))
    (hbroker : Broker.Step (s.broker source) { s.broker source with
      calls := thread'.caller ::
        ((s.calls source).threads.eraseP (·.key == thread.key)).map ProfileThread.caller
      log := log }) :
    let s' := { s.settle source { (s.calls source).proceed thread' with log } with arena }
    (∀ other, Broker.Step (s.broker other) (s'.broker other)) ∧ Sound s' := by
  intro s'
  obtain ⟨hthread, hperm⟩ := find_thread hfind
  obtain ⟨rest, hbefore, hafter⟩ := s.exists_blocks source
  have hcalls : s'.calls = Function.update s.calls source
      { (s.calls source).proceed thread' with log } := rfl
  refine h.settle (Function.update_eq_self _ _).symm hcalls le_rfl hlog
    (by rwa [← hkey] at hbroker) ?_ ?_ (fun _ => .inl) ?_
  · have hcount := h.count source
    rw [hperm.length_eq, List.length_cons] at hcount
    show _ = (thread' :: (s.calls source).threads.eraseP (·.key == thread'.key)).length + _
    rw [List.length_cons, hkey, hthread]
    exact hcount
  · refine List.forall_mem_cons.mpr ⟨hgood, fun t ht => ?_⟩
    exact (h.threads source t (List.mem_of_mem_eraseP ht)).mono hlog
  · have hbeforeThread := (List.Perm.flatMap_right
      (fun t : ProfileThread => addressesOf t.resolved.query.data) hperm).append_right rest
    rw [List.flatMap_cons, List.append_assoc] at hbeforeThread
    refine (hholds _ (h.holds.perm (hbeforeThread.symm.trans hbefore.symm))).perm ?_
    refine (hafter s' _ [] hcalls rfl).trans ?_
    rw [ProfileCalls.blocks, ProfileCalls.proceed, List.flatMap_cons, hkey, hthread,
      List.flatMap_nil, List.nil_append, List.append_assoc]

/-- A step that leaves the slots and the threads alone. -/
theorem stay (h : Sound s) : (∀ other, Broker.Step (s.broker other) (s.broker other)) ∧ Sound s :=
  ⟨fun _ => .stay _, h⟩

/-- A resolve that returned with what it was given. -/
theorem refused (returned : ProfileReturn) (hfailed : returned.result ≠ .ok)
    (hsame : returned.resolved = returned.given) (logs : Fin 4 → ProfileLog) :
    returned.Good logs ∧ returned.blocks = [] :=
  ⟨.inr ⟨hfailed, returned.given.analysis, hsame⟩, if_neg hfailed⟩

theorem register (h : Sound s) (index : ℕ) (providerId : UInt64)
    (provider : Option QueryProfileProvider) (mutex : MutexAnswer) :
    let s' := s.step (.register index providerId provider mutex)
    (∀ other, Broker.Step (s.broker other) (s'.broker other)) ∧ Sound s' := by
  rcases queryProfileRegistryRegister_cases s.registry mutex index providerId provider
    with heq | ⟨source, copied, generation, hunused, heq⟩
  · simp only [ProfileSystem.step, heq]
    exact h.stay
  · simp only [ProfileSystem.step, heq]
    exact h.settle rfl (Function.update_eq_self source _).symm le_rfl List.suffix_rfl
      (.put (b := s.broker source) ⟨copied, providerId, generation⟩ hunused) (h.count source)
      (h.threads source) (fun _ => .inl) h.holds

theorem enter (h : Sound s) (index : ℕ) (name : Option (List UInt8))
    (resolved : ResolvedQueryProfile)
    (mutex : MutexAnswer) (htrusted : ProfileTrusted s (.enter index name resolved mutex)) :
    let s' := s.step (.enter index name resolved mutex)
    (∀ other, Broker.Step (s.broker other) (s'.broker other)) ∧ Sound s' := by
  have heffect := queryProfileEnter_entered s.registry mutex index name resolved
  simp only [ProfileSystem.step]
  generalize queryProfileEnter s.registry index name resolved mutex = out at heffect ⊢
  cases heffect with
  | refused hfailed =>
    dsimp only
    simp only [if_true]
    obtain ⟨hgood, hblocks⟩ :=
      refused ⟨index, none, name.getD [], resolved, _, resolved⟩ hfailed rfl
      fun other => (s.calls other).log
    refine ⟨fun _ => .stay _, h.broker, h.count, h.threads,
      List.forall_mem_cons.mpr ⟨hgood, h.returned⟩, ?_⟩
    rw [blocks, List.flatMap_cons, hblocks, List.nil_append]
    exact h.holds
  | @stranded source hroom =>
    dsimp only
    obtain ⟨hgood, hblocks⟩ :=
      refused ⟨index, none, name.getD [], resolved, .platformError, resolved⟩
      QueryProfileResult.noConfusion rfl fun other => (s.calls other).log
    have hcalls : (fun other => if (Function.update s.registry.slots source
          { s.registry.slots source with
            resolveStarted := true
            activeResolves := (s.registry.slots source).activeResolves + 1 } other).activeResolves =
          (s.registry.slots other).activeResolves then s.calls other
        else { s.calls other with stranded := (s.calls other).stranded + 1 }) =
        Function.update s.calls source
          { s.calls source with stranded := (s.calls source).stranded + 1 } := by
      funext other
      by_cases hother : other = source
      · have hne : (s.registry.slots source).activeResolves + 1 ≠
            (s.registry.slots source).activeResolves := fun heq => by
          have hsucc := toNat_succ hroom
          rw [heq] at hsucc
          omega
        rw [hother, Function.update_self, Function.update_self, if_neg hne]
      · rw [Function.update_of_ne hother, Function.update_of_ne hother, if_pos rfl]
    have hcount := h.count source
    rw [hcalls]
    refine h.settle rfl rfl le_rfl List.suffix_rfl (.mark (s.broker source)) ?_
      (h.threads source) ?_ ?_
    · dsimp only
      rw [toNat_succ hroom]
      omega
    · exact List.forall_mem_cons.mpr
        ⟨.inr (refused _ QueryProfileResult.noConfusion rfl _).1, fun _ => .inl⟩
    · obtain ⟨rest, hbefore, hafter⟩ := s.exists_blocks source
      refine h.holds.perm (List.Perm.trans (hafter _ _ [_] rfl rfl) ?_)
      rw [List.flatMap_singleton, hblocks]
      exact hbefore.symm
  | @entered source call hcurrent hroom hinitialized hdata =>
    dsimp only
    have hempty : resolved.Empty := ⟨htrusted hinitialized, hdata⟩
    have hcount := h.count source
    refine h.settle rfl rfl (Nat.le_succ _) List.suffix_rfl
      (.enter (b := s.broker source) hcurrent) ?_ ?_ (fun _ => .inl) ?_
    · dsimp only
      rw [toNat_succ hroom, List.length_cons]
      omega
    · exact List.forall_mem_cons.mpr ⟨⟨hempty, rfl⟩, h.threads source⟩
    · obtain ⟨rest, hbefore, hafter⟩ := s.exists_blocks source
      refine h.holds.perm (List.Perm.trans (hafter _ _ [] rfl rfl) ?_)
      rw [ProfileCalls.blocks, List.flatMap_cons, hdata]
      exact hbefore.symm

theorem leave (h : Sound s) (source : Fin 4) (key : ℕ) (mutex : MutexAnswer) :
    let s' := s.step (.leave source key mutex)
    (∀ other, Broker.Step (s.broker other) (s'.broker other)) ∧ Sound s' := by
  simp only [ProfileSystem.step]
  split
  · rename_i key' call name given resolved result hfind
    obtain ⟨hkey, hperm⟩ := find_thread hfind
    obtain rfl : key = key' := hkey.symm
    obtain ⟨hgiven, hcases⟩ := h.threads source _ (List.mem_of_find?_eq_some hfind)
    have hcallers := callers hfind
    have hcount := h.count source
    rw [hperm.length_eq, List.length_cons] at hcount
    obtain ⟨slot, hslots, hregistration, hstarted, hactive⟩ :=
      queryProfileFinish_spec s.registry mutex source (by omega)
    have hblocks : (ProfileReturn.mk source (some key) name given result resolved).blocks =
        addressesOf resolved.query.data := by
      rcases hcases with ⟨rfl, -⟩ | ⟨hfailed, analysis, hsame⟩
      · exact if_pos rfl
      · rw [ProfileReturn.blocks, if_neg hfailed]
        dsimp only at hsame
        rw [hsame]
        exact (congrArg addressesOf hgiven.data).symm
    refine h.settle hslots rfl le_rfl List.suffix_rfl ?_ ?_ ?_ ?_ ?_
    · rw [hregistration, hstarted]
      exact .leave (b := s.broker source) hcallers
    · dsimp only
      cases hlock : mutex.lock with
      | false =>
        rw [hlock, Bool.not_false, Bool.toNat_true] at hactive
        simp only [Bool.false_eq_true, if_false]
        omega
      | true =>
        rw [hlock, Bool.not_true, Bool.toNat_false] at hactive
        simp only [if_true]
        omega
    · exact fun t ht => h.threads source t (List.mem_of_mem_eraseP ht)
    · refine List.forall_mem_cons.mpr ⟨.inr ?_, fun _ => .inl⟩
      rcases hcases with ⟨hresult, lease, hlease, hshows⟩ | hfailed
      · refine .inl ⟨hresult, source, key, call, lease, rfl, rfl, ?_, hshows⟩
        simpa only [ProfileSystem.settle, Function.update_self] using hlease
      · exact .inr hfailed
    · obtain ⟨rest, hbefore, hafter⟩ := s.exists_blocks source
      refine h.holds.perm (List.Perm.trans (hafter _ _ [_] rfl rfl) (.trans ?_ hbefore.symm))
      rw [List.flatMap_singleton, hblocks, ← List.append_assoc]
      have hthreads := List.Perm.flatMap_right
        (fun t : ProfileThread => addressesOf t.resolved.query.data) hperm
      rw [List.flatMap_cons] at hthreads
      exact (List.perm_append_comm.trans hthreads.symm).append_right _
  · exact h.stay

/-- **Every step keeps it**, and is one that each of the brokers may do. -/
theorem step (h : Sound s) (e : ProfileEvent) (htrusted : ProfileTrusted s e) :
    (∀ other, Broker.Step (s.broker other) ((s.step e).broker other)) ∧ Sound (s.step e) := by
  cases e with
  | register index providerId provider mutex => exact h.register index providerId provider mutex
  | enter index name resolved mutex => exact h.enter index name resolved mutex htrusted
  | answer source key answer =>
    simp only [ProfileSystem.step]
    split
    · rename_i key' call name given resolved hfind
      obtain ⟨hgiven, hsame⟩ := h.threads source _ (List.mem_of_find?_eq_some hfind)
      have hcallers := callers hfind
      split
      · exact h.proceed hfind ⟨key', call, name, given, resolved, .leased answer.lease⟩ rfl
          (List.suffix_cons _ _) ⟨hgiven, hsame, htrusted, List.mem_cons_self⟩ (fun _ => id)
          (.acquire _ hcallers)
      · rename_i result hfailed
        exact h.proceed hfind ⟨key', call, name, given, resolved, .finishing _⟩ rfl List.suffix_rfl
          ⟨hgiven, .inr ⟨hfailed, given.analysis, hsame⟩⟩ (fun _ => id) (.refuse hcallers)
    · exact h.stay
  | copy source key =>
    simp only [ProfileSystem.step]
    split
    · rename_i key' call name given resolved lease hfind
      obtain ⟨hgiven, hsame, hread, hlease⟩ := h.threads source _ (List.mem_of_find?_eq_some hfind)
      obtain rfl : given = resolved := hsame.symm
      obtain ⟨result, resolved', arena, heq, hsince, hholds, hscanned⟩ :=
        queryProfileCopy_spec hgiven s.arena hread
      have hcallers := callers hfind
      rw [heq]
      refine h.proceed hfind ⟨key', call, name, given, resolved', .copied lease result⟩ rfl
        List.suffix_rfl ⟨hgiven, hsince, hlease, hscanned⟩ (fun others hout => hholds others ?_)
        (.reorder hcallers)
      dsimp only at hout
      rwa [hgiven.data] at hout
    · exact h.stay
  | release source key =>
    simp only [ProfileSystem.step]
    split
    · rename_i key' call name given resolved lease result hfind
      obtain ⟨hgiven, hsince, hlease, hscanned⟩ :=
        h.threads source _ (List.mem_of_find?_eq_some hfind)
      by_cases hresult : result = .ok
      · have hnote : queryProfileNote source call name lease result resolved s.arena =
            ({ resolved with
              source := source, providerId := call.providerId, generation := call.generation
              profileRevision := lease.profileRevision, nameFingerprint := profileNameHash name },
              s.arena) := by
          rw [queryProfileNote, if_pos hresult]
        simp only [hnote]
        refine h.proceed hfind ⟨key', call, name, given, _, .finishing result⟩ rfl
          (List.suffix_cons _ _) ⟨hgiven, .inl ⟨hresult, lease, List.mem_cons_of_mem _ hlease, ?_⟩⟩
          (fun _ => id) (.release (callers hfind))
        exact ⟨hscanned hresult, rfl, rfl, rfl, rfl, rfl⟩
      · obtain ⟨analysis, arena, hnote, hholds⟩ :=
          queryProfileNote_failed hgiven hsince s.arena hresult source call name lease
        simp only [hnote]
        refine h.proceed hfind ⟨key', call, name, given, _, .finishing result⟩ rfl
          (List.suffix_cons _ _) ⟨hgiven, .inr ⟨hresult, analysis, rfl⟩⟩ (fun others hout => ?_)
          (.release (callers hfind))
        have hrest := hholds others hout
        rwa [show addressesOf given.query.data = [] by rw [hgiven.data]; rfl]
    · exact h.stay
  | leave source key mutex => exact h.leave source key mutex
  | cleanup mutex destroyed =>
    rcases queryProfileRegistryCleanup_cases s.registry mutex destroyed
      with heq | ⟨hzero, initialized, heq⟩
    · simp only [ProfileSystem.step, heq]
      exact h.stay
    · simp only [ProfileSystem.step, heq]
      have hnone (other : Fin 4) : (s.calls other).threads = [] ∧ (s.calls other).stranded = 0 := by
        have hcount := h.count other
        rw [hzero, UInt64.toNat_zero] at hcount
        exact ⟨List.length_eq_zero_iff.mp (by omega), by omega⟩
      have hclear (other : Fin 4) : Broker.Step (s.broker other)
          { s.broker other with registered := none, used := false } :=
        .clear false (by rw [ProfileSystem.broker, (hnone other).1]; rfl)
      refine ⟨hclear, fun other => (hclear other).sound (h.broker other),
        fun other => ?_, h.threads, h.returned, h.holds⟩
      rw [(hnone other).1, (hnone other).2]
      rfl

/-- Nobody has come in yet. -/
theorem start (answers : ℕ → MemoryAnswer) : Sound (start answers) :=
  ⟨fun _ => .start _ _, fun _ => rfl, fun _ => List.forall_mem_nil _, List.forall_mem_nil _,
    .fresh answers⟩

theorem run (h : Sound s) {es : List ProfileEvent}
    (hrun : Along ProfileTrusted ProfileSystem.step s es) : Sound (es.foldl ProfileSystem.step s) :=
  hrun.invariant Sound (fun _ e hs htrusted => (hs.step e htrusted).2) h

/-- **A provider that was used stays**, or was taken away when nobody was in. -/
theorem run_started (h : Sound s) (source : Fin 4)
    (hstarted : (s.registry.slots source).resolveStarted = true) {es : List ProfileEvent}
    (hrun : Along ProfileTrusted ProfileSystem.step s es) :
    ((es.foldl ProfileSystem.step s).registry.slots source).registration =
        (s.registry.slots source).registration ∨
      ∃ before, before <+: es ∧
        ((before.foldl ProfileSystem.step s).registry.slots source).registration = none ∧
        ((before.foldl ProfileSystem.step s).calls source).threads = [] := by
  induction es generalizing s with
  | nil => exact .inl rfl
  | cons e es ih =>
    obtain ⟨hbroker, hsound⟩ := h.step e hrun.1
    rcases (hbroker source).kept hstarted with ⟨hused, hsame⟩ | ⟨-, hnone⟩
    · rcases ih hsound hused hrun.2 with heq | ⟨before, hbefore, hgone⟩
      · exact .inl (heq.trans hsame)
      · exact .inr ⟨e :: before, List.cons_prefix_cons.mpr ⟨rfl, hbefore⟩, hgone⟩
    · refine .inr ⟨[e], List.cons_prefix_cons.mpr ⟨rfl, List.nil_prefix⟩, hnone, ?_⟩
      have hcurrent := (hsound.broker source).current
      rw [hnone] at hcurrent
      refine List.eq_nil_iff_forall_not_mem.mpr fun thread hthread => ?_
      cases hcurrent _ (List.mem_map_of_mem hthread)

/-- A cleanup that succeeds finds nobody in, at any slot. -/
theorem cleanup (h : Sound s) {mutex : MutexAnswer} {destroyed : Bool}
    (hinit : s.registry.initialized = true)
    (hok : (queryProfileRegistryCleanup s.registry mutex destroyed).1 = .ok) (source : Fin 4) :
    (s.calls source).threads = [] := by
  have hcount := h.count source
  unfold queryProfileRegistryCleanup at hok
  rw [hinit] at hok
  simp only [Bool.not_true, Bool.false_eq_true, if_false] at hok
  split at hok
  · cases hok
  split at hok
  · cases hok
  rename_i hbusy
  have hzero : (s.registry.slots source).activeResolves = 0 := by
    by_contra hne
    exact hbusy (List.any_eq_true.mpr ⟨source, List.mem_finRange source, bne_iff_ne.mpr hne⟩)
  rw [hzero, UInt64.toNat_zero] at hcount
  exact List.length_eq_zero_iff.mp (by omega)

end Sound

end ProfileSystem

/-- The lease that a thread has to give back. -/
def ProfileThread.Holds (thread : ProfileThread) (lease : QueryProfileLease) : Prop :=
  thread.stage = .leased lease ∨ ∃ result, thread.stage = .copied lease result

theorem ProfileThread.holds_of_held {thread : ProfileThread}
    {r : ℕ × ProfileCall × QueryProfileLease} (h : thread.caller.held = some r) :
    thread.key = r.1 ∧ thread.call = r.2.1 ∧ thread.Holds r.2.2 := by
  obtain ⟨key, call, name, given, resolved, stage⟩ := thread
  cases stage with
  | calling => cases h
  | leased lease =>
    cases h
    exact ⟨rfl, rfl, .inl rfl⟩
  | copied lease result =>
    cases h
    exact ⟨rfl, rfl, .inr ⟨result, rfl⟩⟩
  | finishing result => cases h

/-- **What is true of one slot**: `active_resolves` is the number of threads between the sections of
a resolve, and of those that were stranded there by the mutex; whoever is there uses the provider
that is registered, and none takes its place before it was taken away with nobody in; a lease is
given back once, after it was got, to the provider that it is from, or is still held. -/
structure ProfileSystem.Brokered (s : ProfileSystem) (source : Fin 4) : Prop where
  count : (s.registry.slots source).activeResolves.toNat =
    (s.calls source).threads.length + (s.calls source).stranded
  current : ∀ thread ∈ (s.calls source).threads,
    (s.registry.slots source).registration = some thread.call
  kept : (s.registry.slots source).resolveStarted = true → ∀ later : List ProfileEvent,
    Along ProfileTrusted ProfileSystem.step s later →
      ((later.foldl ProfileSystem.step s).registry.slots source).registration =
          (s.registry.slots source).registration ∨
        ∃ before, before <+: later ∧
          ((before.foldl ProfileSystem.step s).registry.slots source).registration = none ∧
          ((before.foldl ProfileSystem.step s).calls source).threads = []
  once : (s.calls source).log.Nodup
  acquiredBefore : ∀ r later earlier, (s.calls source).log = later ++ .released r :: earlier →
    .acquired r ∈ earlier
  givenBack : ∀ key call lease, .acquired (key, call, lease) ∈ (s.calls source).log →
    .released (key, call, lease) ∈ (s.calls source).log ∨
      ∃ thread ∈ (s.calls source).threads, thread.key = key ∧ thread.call = call ∧
        thread.Holds lease

theorem ProfileSystem.Sound.brokered {s : ProfileSystem} (h : s.Sound) (source : Fin 4) :
    s.Brokered source := by
  obtain ⟨hnodup, hbefore, honce⟩ := (h.broker source).ledger.once
  refine ⟨h.count source, fun thread hthread => ?_, fun hstarted _ => h.run_started source hstarted,
    hnodup, hbefore, fun key call lease hacquired => ?_⟩
  · exact (h.broker source).current thread.caller (List.mem_map_of_mem hthread)
  · refine (honce _ hacquired).imp id fun hheld => ?_
    obtain ⟨caller, hcaller, hcallerHeld⟩ := List.mem_filterMap.mp hheld
    obtain ⟨thread, hthread, rfl⟩ := List.mem_map.mp hcaller
    exact ⟨thread, hthread, ProfileThread.holds_of_held hcallerHeld⟩

/-- An object for a query. -/
def plainQuery : ResolvedQueryProfile :=
  ⟨⟨⟨some .system, true, true, true⟩, none, 0, 0, profileQueryLimit⟩, none, 0, 0, 0, 0, 0, true⟩

theorem plainQuery_formed : plainQuery.Formed :=
  ⟨⟨by decide, le_rfl, Nat.zero_le _, by decide, .inl ⟨rfl, rfl⟩⟩, rfl⟩

/-- `SELECT 1` -/
def selectOne : List UInt8 := [83, 69, 76, 69, 67, 84, 32, 49]

/-- Two threads resolve it from two slots; one of the leases has no revision. -/
def twoQueries : List ProfileEvent :=
  let lock : MutexAnswer := ⟨true, true⟩
  let provider : QueryProfileProvider := ⟨⟨40, apiVersion, 3⟩, 1, 2, 3⟩
  let lease (revision : UInt64) : QueryProfileLease :=
    ⟨⟨48, apiVersion, 1⟩, some selectOne, 8, revision, 9⟩
  [.register 0 1 (some provider) lock, .register 3 2 (some provider) lock,
    .enter 0 (some [97]) plainQuery lock, .enter 3 (some [98]) plainQuery lock,
    .register 0 5 (some provider) lock, .answer 0 0 ⟨0, lease 7⟩, .answer 3 1 ⟨0, lease 0⟩,
    .copy 0 0, .copy 3 1, .release 3 1, .release 0 0, .leave 0 0 lock, .cleanup lock true,
    .leave 3 1 lock, .cleanup lock true]

end Vps
