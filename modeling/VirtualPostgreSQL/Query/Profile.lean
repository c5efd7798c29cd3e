import VirtualPostgreSQL.Credential.Registry
import VirtualPostgreSQL.Memory.Buffer
import VirtualPostgreSQL.Query.Scan

/-!
# Query/Profile — the registry of query profiles

`vps_query_profile.c`.  A registry has a slot for each of four sources, with a provider of its own.
A resolve works as that of the credential registry does, on one slot: it copies the query of the
lease into a buffer, scans it, gives the lease back, and empties the buffer again if anything
failed.
-/

namespace Vps

open Machinery

/-! ## Types -/

/-- `VpsQueryProfileResult` -/
inductive QueryProfileResult
  | ok | invalidArgument | abiIncompatible | notRegistered | replacementForbidden | notFound
  | invalidLease | invalidQuery | outOfMemory | busy | platformError
  deriving DecidableEq, Repr

/-- `VpsQueryProfileProvider`; callbacks and context are addresses, 0 is `NULL`. -/
structure QueryProfileProvider where
  header : AbiHeader
  resolve : UInt64
  release : UInt64
  providerContext : UInt64
  deriving DecidableEq, Repr

/-- `VpsQueryProfileLease`; `query` are the bytes that can be read there. -/
structure QueryProfileLease where
  header : AbiHeader
  query : Option (List UInt8)
  queryLength : UInt32
  profileRevision : UInt64
  providerLease : UInt64
  deriving DecidableEq, Repr

/-- `VpsQueryProfileProviderSlot` -/
structure QueryProfileSlot where
  provider : QueryProfileProvider
  providerId : UInt64
  generation : UInt64
  activeResolves : UInt64
  registered : Bool
  resolveStarted : Bool
  deriving DecidableEq, Repr

/-- A slot as `memset` leaves it. -/
def QueryProfileSlot.zero : QueryProfileSlot := ⟨⟨⟨0, 0, 0⟩, 0, 0, 0⟩, 0, 0, 0, false, false⟩

/-- `VpsQueryProfileRegistry`; there are `VPS_QUERY_PROFILE_PROVIDER_COUNT` sources. -/
structure QueryProfileRegistry where
  slots : Fin 4 → QueryProfileSlot
  initialized : Bool

/-- `VpsResolvedQueryProfile`; the analysis is what the last scan came to. -/
structure ResolvedQueryProfile where
  query : Buffer
  analysis : Option (ScanResult ScanState)
  source : ℕ
  providerId : UInt64
  generation : UInt64
  profileRevision : UInt64
  nameFingerprint : UInt64
  initialized : Bool

/-- What the `resolve` of a provider answers. -/
structure QueryProfileAnswer where
  status : Int32
  lease : QueryProfileLease

/-! ## Registration -/

/-- `offsetof(VpsQueryProfileProvider, provider_context) + sizeof(provider->provider_context)` -/
def queryProfileProviderMinimumSize : UInt32 := 40

/-- `VPS_API_VERSION_MAJOR`, against that of a header. -/
def queryProfileMajor (header : AbiHeader) : Bool := ((header.apiVersion >>> 24) &&& 0xff) == 1

/-- `vps_query_profile_registry_init` -/
def queryProfileRegistryInit (registry : QueryProfileRegistry) (operations mutex : Bool) :
    QueryProfileResult × QueryProfileRegistry :=
  if !operations then (.invalidArgument, registry)
  else if !mutex then (.platformError, ⟨fun _ => .zero, false⟩)
  else (.ok, ⟨fun _ => .zero, true⟩)

/-- **`vps_query_profile_registry_register`** -/
def queryProfileRegistryRegister (registry : QueryProfileRegistry) (source : ℕ)
    (providerId : UInt64) (provider : Option QueryProfileProvider) (mutex : MutexAnswer) :
    QueryProfileResult × QueryProfileRegistry :=
  -- `vps_profile_source_valid`
  if h : source < 4 then
    match provider with
    | none => (.invalidArgument, registry)
    | some provider =>
      if !registry.initialized || providerId == 0 || provider.resolve == 0 ||
        provider.release == 0 then
        (.invalidArgument, registry)
      else if provider.header.structureSize < queryProfileProviderMinimumSize ||
          !queryProfileMajor provider.header ||
          -- `VPS_QUERY_PROFILE_PROVIDER_FIELD_RESOLVE` and `…_RELEASE`
          (provider.header.presentFields != 0 && provider.header.presentFields &&& 3 != 3) then
        (.abiIncompatible, registry)
      else if !mutex.lock then (.platformError, registry)
      else
        let slot := registry.slots ⟨source, h⟩
        if slot.resolveStarted then (.replacementForbidden, registry)
        else if slot.generation = 0xffffffffffffffff then (.busy, registry)
        else
          (if mutex.unlock then .ok else .platformError, { registry with
            slots := Function.update registry.slots ⟨source, h⟩ { slot with
              provider := provider, providerId := providerId, generation := slot.generation + 1
              registered := true } })
  else (.invalidArgument, registry)

/-! ## A resolve -/

/-- `VPS_PROFILE_HASH_OFFSET`, and the hash of a name. -/
def profileNameHash (name : List UInt8) : UInt64 :=
  name.foldl (fun hash byte => (hash ^^^ byte.toUInt64) * 1099511628211) 1469598103934665603

/-- `vps_profile_name_valid` -/
def profileNameValid (name : List UInt8) : Bool :=
  name.length != 0 && name.length ≤ 255 &&
    name.all fun value => !(value == 0 || value < 0x20 || value == 0x7f)

/-- What a resolve copies in its first section. -/
structure ProfileCall where
  provider : QueryProfileProvider
  providerId : UInt64
  generation : UInt64
  deriving DecidableEq, Repr

/-- `vps_query_profile_registry_resolve` up to the end of its first section. -/
def queryProfileEnter (registry : QueryProfileRegistry) (source : ℕ) (name : Option (List UInt8))
    (resolved : ResolvedQueryProfile) (mutex : MutexAnswer) :
    QueryProfileRegistry × Except QueryProfileResult (Fin 4 × ProfileCall) :=
  if h : source < 4 then
    if !registry.initialized || !(name.any profileNameValid) || !resolved.initialized ||
        resolved.query.data.isSome then
      (registry, .error .invalidArgument)
    else if !mutex.lock then (registry, .error .platformError)
    else
      let slot := registry.slots ⟨source, h⟩
      if !slot.registered then (registry, .error .notRegistered)
      else if slot.activeResolves = 0xffffffffffffffff then (registry, .error .busy)
      else
        let registry := { registry with
          slots := Function.update registry.slots ⟨source, h⟩ { slot with
            resolveStarted := true, activeResolves := slot.activeResolves + 1 } }
        if mutex.unlock then
          (registry, .ok (⟨source, h⟩, ⟨slot.provider, slot.providerId, slot.generation⟩))
        else (registry, .error .platformError)
  else (registry, .error .invalidArgument)

/-- `vps_profile_provider_result` -/
def profileProviderResult (status : Int32) : QueryProfileResult :=
  if status = 0 then .ok
  else if status = 1 then .notFound
  else if status = 3 then .invalidArgument
  else .platformError

/-- `VPS_QUERY_SOURCE_MAX_BYTES + 1U` -/
def profileQueryLimit : ℕ := querySourceMaxBytes + 1

/-- What is made of a lease, before it is given back. -/
def queryProfileCopy (lease : QueryProfileLease) (resolved : ResolvedQueryProfile) (arena : Arena) :
    Buffered (QueryProfileResult × ResolvedQueryProfile × Arena) :=
  -- `offsetof(VpsQueryProfileLease, provider_lease) + sizeof(lease.provider_lease)`
  if lease.header.structureSize < 48 || !queryProfileMajor lease.header ||
      (lease.header.presentFields != 0 && lease.header.presentFields &&& 1 == 0) ||
      lease.query.isNone || lease.queryLength == 0 ||
        lease.queryLength.toNat > querySourceMaxBytes ||
      lease.profileRevision == 0 then
    return (.invalidLease, resolved, arena)
  else do
    match ← bufferAppendBytes resolved.query arena lease.query lease.queryLength.toNat with
    | (.ok, query, arena) =>
      match ← bufferAppendBytes query arena (some [0]) 1 with
      | (.ok, query, arena) =>
        let scanned := querySourceScan (query.contents.take lease.queryLength.toNat)
        return (match scanned with | .ok _ => .ok | .error _ => .invalidQuery,
          { resolved with query, analysis := some scanned }, arena)
      | (_, query, arena) => return (.outOfMemory, { resolved with query }, arena)
    | (_, query, arena) => return (.outOfMemory, { resolved with query }, arena)

/-- What is noted once the lease was given back. -/
def queryProfileNote (source : Fin 4) (call : ProfileCall) (name : List UInt8)
    (lease : QueryProfileLease)
    (result : QueryProfileResult) (resolved : ResolvedQueryProfile) (arena : Arena) :
    ResolvedQueryProfile × Arena :=
  if result = .ok then
    ({ resolved with
      source := source, providerId := call.providerId, generation := call.generation
      profileRevision := lease.profileRevision, nameFingerprint := profileNameHash name }, arena)
  else
    let (query, arena) := bufferReset resolved.query arena
    ({ resolved with query := (bufferInit query query.allocator profileQueryLimit).2 }, arena)

/-- `vps_profile_resolve_finish` -/
def queryProfileFinish (registry : QueryProfileRegistry) (source : Fin 4) (mutex : MutexAnswer) :
    QueryProfileRegistry :=
  if !mutex.lock then registry
  else
    let slot := registry.slots source
    if slot.activeResolves ≠ 0 then
      { registry with
        slots := Function.update registry.slots source
          { slot with activeResolves := slot.activeResolves - 1 } }
    else registry

/-- **`vps_query_profile_registry_cleanup`** -/
def queryProfileRegistryCleanup (registry : QueryProfileRegistry) (mutex : MutexAnswer)
    (destroyed : Bool) : QueryProfileResult × QueryProfileRegistry :=
  if !registry.initialized then (.ok, registry)
  else if !mutex.lock then (.platformError, registry)
  else if (List.finRange 4).any fun index => (registry.slots index).activeResolves != 0 then
    (.busy, registry)
  else
    let registry := { registry with slots := fun _ => QueryProfileSlot.zero }
    if !mutex.unlock then (.platformError, registry)
    else if !destroyed then (.platformError, registry)
    else (.ok, { registry with initialized := false })

/-! ## Threads -/

/-- Where a resolve is between its sections. -/
inductive ProfileStage
  | calling
  | leased (lease : QueryProfileLease)
  | copied (lease : QueryProfileLease) (result : QueryProfileResult)
  | finishing (result : QueryProfileResult)

/-- A thread between the sections of a resolve. -/
structure ProfileThread where
  key : ℕ
  call : ProfileCall
  name : List UInt8
  given : ResolvedQueryProfile
  resolved : ResolvedQueryProfile
  stage : ProfileStage

/-- The threads at a slot, and what has happened there. -/
structure ProfileCalls where
  threads : List ProfileThread
  log : List (LedgerEvent (ℕ × ProfileCall × QueryProfileLease))
  /-- The resolves that have counted themselves and left without a second section. -/
  stranded : ℕ

/-- A resolve that has returned; one that returned in its first section has no key. -/
structure ProfileReturn where
  source : ℕ
  key : Option ℕ
  name : List UInt8
  given : ResolvedQueryProfile
  result : QueryProfileResult
  resolved : ResolvedQueryProfile

/-- The registry, and what goes on at each of its slots. -/
structure ProfileSystem where
  registry : QueryProfileRegistry
  arena : Arena
  calls : Fin 4 → ProfileCalls
  next : ℕ
  returned : List ProfileReturn

/-- What a thread does next, with what its environment answers. -/
inductive ProfileEvent
  | register (source : ℕ) (providerId : UInt64) (provider : Option QueryProfileProvider)
      (mutex : MutexAnswer)
  | enter (source : ℕ) (name : Option (List UInt8)) (resolved : ResolvedQueryProfile)
      (mutex : MutexAnswer)
  | answer (source : Fin 4) (key : ℕ) (answer : QueryProfileAnswer)
  | copy (source : Fin 4) (key : ℕ)
  | release (source : Fin 4) (key : ℕ)
  | leave (source : Fin 4) (key : ℕ) (mutex : MutexAnswer)
  | cleanup (mutex : MutexAnswer) (destroyed : Bool)

/-- A thread goes on. -/
def ProfileCalls.proceed (calls : ProfileCalls) (thread : ProfileThread) : ProfileCalls :=
  { calls with threads := thread :: calls.threads.eraseP (·.key == thread.key) }

namespace ProfileSystem

/-- What goes on at a slot has changed. -/
def settle (s : ProfileSystem) (source : Fin 4) (calls : ProfileCalls) : ProfileSystem :=
  { s with calls := Function.update s.calls source calls }

/-- **One atomic step.** -/
def step (s : ProfileSystem) : ProfileEvent → ProfileSystem
  | .register source providerId provider mutex =>
    { s with registry := (queryProfileRegistryRegister s.registry source providerId
      provider mutex).2 }
  | .enter source name resolved mutex =>
    match queryProfileEnter s.registry source name resolved mutex with
    | (registry, .error result) =>
      { s with
        registry
        returned := ⟨source, none, name.getD [], resolved, result, resolved⟩ :: s.returned
        calls := fun index =>
          if (registry.slots index).activeResolves = (s.registry.slots index).activeResolves then
            s.calls index
          else { s.calls index with stranded := (s.calls index).stranded + 1 } }
    | (registry, .ok (index, call)) =>
      let calls := s.calls index
      { s.settle index { calls with
          threads := ⟨s.next, call, name.getD [], resolved, resolved, .calling⟩ ::
            calls.threads } with
        registry, next := s.next + 1 }
  | .answer source key answer =>
    let calls := s.calls source
    match calls.threads.find? (·.key == key) with
    | some ⟨key, call, name, given, resolved, .calling⟩ =>
      match profileProviderResult answer.status with
      | .ok =>
        s.settle source
          { calls.proceed ⟨key, call, name, given, resolved, .leased answer.lease⟩ with
          log := .acquired (key, call, answer.lease) :: calls.log }
      | result => s.settle source
        (calls.proceed ⟨key, call, name, given, resolved, .finishing result⟩)
    | _ => s
  | .copy source key =>
    let calls := s.calls source
    match calls.threads.find? (·.key == key) with
    | some ⟨key, call, name, given, resolved, .leased lease⟩ =>
      match queryProfileCopy lease resolved s.arena with
      | .error _ => s
      | .ok (result, resolved, arena) =>
        { s.settle source
            (calls.proceed ⟨key, call, name, given, resolved, .copied lease result⟩) with arena }
    | _ => s
  | .release source key =>
    let calls := s.calls source
    match calls.threads.find? (·.key == key) with
    | some ⟨key, call, name, given, resolved, .copied lease result⟩ =>
      let (resolved, arena) := queryProfileNote source call name lease result resolved s.arena
      { s.settle source { calls.proceed ⟨key, call, name, given, resolved, .finishing result⟩ with
          log := .released (key, call, lease) :: calls.log } with arena }
    | _ => s
  | .leave source key mutex =>
    let calls := s.calls source
    match calls.threads.find? (·.key == key) with
    | some ⟨_, _, name, given, resolved, .finishing result⟩ =>
      { s.settle source { calls with
          threads := calls.threads.eraseP (·.key == key)
          stranded := if mutex.lock then calls.stranded else calls.stranded + 1 } with
        registry := queryProfileFinish s.registry source mutex
        returned := ⟨source, some key, name, given, result, resolved⟩ :: s.returned }
    | _ => s
  | .cleanup mutex destroyed =>
    { s with registry := (queryProfileRegistryCleanup s.registry mutex destroyed).2 }

/-- A registry that was just initialised. -/
def start (answers : ℕ → MemoryAnswer) : ProfileSystem :=
  ⟨⟨fun _ => .zero, true⟩, .fresh answers, fun _ => ⟨[], [], 0⟩, 0, []⟩

end ProfileSystem

end Vps
