import VirtualPostgreSQL.Credential.Config
import VirtualPostgreSQL.Machinery.Broker

/-!
# Credential/Registry — the registry of credential providers

`vps_credential_provider.c`.  A registry has one provider.  A resolve copies it under the mutex and
counts itself, asks it for a lease and copies the configuration of the lease without the mutex,
gives the lease back, and takes the mutex again to leave.  `CredentialSystem` is any number of
threads at any of these places, beside others that register and clean up; the provider, the
allocator and the mutex answer anything.
-/

namespace Vps

open Machinery

/-! ## Types -/

/-- `VpsCredentialRegistryResult` -/
inductive CredentialRegistryResult
  | ok | invalidArgument | abiIncompatible | notRegistered | replacementForbidden | resolveFailed
  | invalidConfig | outOfMemory | busy | platformError | cleanupFailed
  deriving DecidableEq, Repr

/-- `VpsCredentialProvider`; callbacks and context are addresses, 0 is `NULL`. -/
structure CredentialProvider where
  header : AbiHeader
  resolve : UInt64
  release : UInt64
  providerContext : UInt64
  deriving DecidableEq, Repr

/-- `VpsCredentialLease` -/
structure CredentialLease where
  header : AbiHeader
  config : Option CredentialConfigView
  providerLease : UInt64

/-- `VpsCredentialRegistry` -/
structure CredentialRegistry where
  provider : CredentialProvider
  providerId : UInt64
  generation : UInt64
  activeResolves : UInt64
  initialized : Bool
  registered : Bool
  resolveStarted : Bool
  deriving DecidableEq, Repr

/-- `VpsResolvedCredential`; the members of the configuration point into the block of the
storage. -/
structure ResolvedCredential where
  config : WinCredConfig
  storage : SensitiveMemory
  providerId : UInt64
  generation : UInt64
  initialized : Bool

/-- What `vps_platform_mutex_lock` and `vps_platform_mutex_unlock` answer in a section. -/
structure MutexAnswer where
  lock : Bool
  unlock : Bool
  deriving DecidableEq, Repr

/-- What the `resolve` of a provider answers; 0 is `VPS_CREDENTIAL_PROVIDER_OK`. -/
structure CredentialAnswer where
  status : Int32
  lease : CredentialLease

/-! ## Registration -/

/-- `offsetof(VpsCredentialProvider, provider_context) + sizeof(provider->provider_context)` -/
def credentialProviderMinimumSize : UInt32 := 40

/-- `vps_provider_validate` -/
def credentialProviderValidate : Option CredentialProvider → CredentialRegistryResult
  | none => .invalidArgument
  | some provider =>
    if abiValidateHeader provider.header credentialProviderMinimumSize apiVersion ≠ .valid then
      .abiIncompatible
    else if provider.resolve = 0 ∨ provider.release = 0 then .invalidArgument
    -- `VPS_CREDENTIAL_PROVIDER_FIELD_RESOLVE` and `…_RELEASE`
    else if provider.header.presentFields ≠ 0 ∧ provider.header.presentFields &&& 3 ≠ 3 then
      .invalidArgument
    else .ok

/-- A registry as `memset` leaves it. -/
def CredentialRegistry.zero : CredentialRegistry :=
  ⟨⟨⟨0, 0, 0⟩, 0, 0, 0⟩, 0, 0, 0, false, false, false⟩

/-- `vps_credential_registry_init`; the arguments say whether the operations are valid and the mutex
could be made. -/
def credentialRegistryInit (registry : CredentialRegistry) (operations mutex : Bool) :
    CredentialRegistryResult × CredentialRegistry :=
  if !operations then (.invalidArgument, registry)
  else if !mutex then (.platformError, .zero)
  else (.ok, { CredentialRegistry.zero with initialized := true })

/-- **`vps_credential_registry_register`** -/
def credentialRegistryRegister (registry : CredentialRegistry) (providerId : UInt64)
    (provider : Option CredentialProvider) (mutex : MutexAnswer) :
    CredentialRegistryResult × CredentialRegistry :=
  if !registry.initialized || providerId == 0 then (.invalidArgument, registry)
  else match credentialProviderValidate provider, provider with
  | .ok, some provider =>
    if !mutex.lock then (.platformError, registry)
    else if registry.resolveStarted then (.replacementForbidden, registry)
    else if registry.generation = 0xffffffffffffffff then (.busy, registry)
    else
      (if mutex.unlock then .ok else .platformError, { registry with
        provider := { provider with
          providerContext :=
            if provider.header.structureSize ≥ credentialProviderMinimumSize then
              provider.providerContext
            else 0 }
        providerId := providerId
        generation := registry.generation + 1
        registered := true })
  | result, _ => (result, registry)

/-! ## What a resolve gives -/

/-- A resolved credential as `vps_resolved_credential_init` and `vps_resolved_credential_cleanup`
leave its configuration. -/
def emptyCredentialConfig : WinCredConfig := ⟨credentialConfigSize, apiVersion, 0, fun _ => none⟩

/-- `vps_resolved_credential_init` -/
def resolvedCredentialInit (allocator : Allocator) (operations : Bool) :
    CredentialRegistryResult × ResolvedCredential :=
  let zero : WinCredConfig := ⟨0, 0, 0, fun _ => none⟩
  match
    sensitiveMemoryInit ⟨⟨⟨none, false, false, false⟩, none, 0, false⟩, false⟩ allocator operations
  with
  | (.ok, storage) => (.ok, ⟨emptyCredentialConfig, storage, 0, 0, true⟩)
  | (_, storage) => (.invalidArgument, ⟨zero, storage, 0, 0, false⟩)

/-- `vps_resolved_credential_cleanup` -/
def resolvedCredentialCleanup (resolved : ResolvedCredential) (arena : Arena) :
    CredentialRegistryResult × ResolvedCredential × Arena :=
  if !resolved.initialized then (.invalidArgument, resolved, arena)
  else match sensitiveMemoryRelease resolved.storage arena with
  | (.ok, storage, arena) =>
    (.ok,
      { resolved with
        config := emptyCredentialConfig, storage, providerId := 0, generation := 0 },
      arena)
  | (_, storage, arena) => (.cleanupFailed, { resolved with storage }, arena)

/-- `vps_structure_has_member` -/
def structureHasMember (structureSize : UInt32) (offset : ℕ) : Bool :=
  offset ≤ 2 ^ 32 - 1 - 8 && structureSize.toNat ≥ offset + 8

/-- `vps_config_get_string` -/
def configGetString (config : CredentialConfigView) (member : CredentialMember) : Option CString :=
  if structureHasMember config.header.structureSize member.offset then config.members member
  else none

/-- The loop of `vps_bounded_string_length`. -/
def boundedStringScan (memory : List UInt8) : ℕ → ℕ → Buffered (Option ℕ)
  | 0, _ => return none
  | rounds + 1, index => do
    if (← byteAt memory index) = 0 then
      if !(← utf8IsValidAt (memory.take index) true) then return none else return some index
    else boundedStringScan memory rounds (index + 1)

/-- **`vps_bounded_string_length`** -/
def boundedStringLength : Option CString → Buffered (Option ℕ)
  | none => return none
  | some value => boundedStringScan value.memory (credentialValueMaxLength + 1) 0

/-- **`vps_copy_config`** of the registry. -/
def credentialCopyConfig (source : Option CredentialConfigView) (resolved : ResolvedCredential)
    (arena : Arena) : Buffered (CredentialRegistryResult × ResolvedCredential × Arena) := do
  match source with
  | none => return (.invalidConfig, resolved, arena)
  | some source =>
    let present := source.header.presentFields
    if abiValidateHeader source.header 16 apiVersion ≠ .valid ∨
      present &&& credentialFieldsCurrent = 0 then
      return (.invalidConfig, resolved, arena)
    else
      let measured ← configMeasure boundedStringLength (configGetString source) present
        credentialMembers 0 (fun _ => 0)
      match measured with
      | none => return (.invalidConfig, resolved, arena)
      | some (total, lengths) =>
        match sensitiveMemoryAllocate resolved.storage arena total with
        | (.ok, storage, arena) =>
          match sensitiveMemoryData storage with
          -- `memcpy` to `NULL`
          | none => .error .outside
          | some block =>
            let copy ← configCopy (configGetString source) present lengths credentialMembers
              ⟨0, block.bytes, resolved.config.members⟩
            return (.ok, { resolved with
              config := { resolved.config with
                presentFields := present &&& credentialFieldsCurrent, members := copy.members }
              storage := { storage with storage.memory := some { block with bytes := copy.values } }
                },
              arena)
        | (_, storage, arena) => return (.outOfMemory, { resolved with storage }, arena)

/-! ## A resolve -/

/-- What a resolve copies in its first section. -/
structure ResolveCall where
  provider : CredentialProvider
  providerId : UInt64
  generation : UInt64
  deriving DecidableEq, Repr

/-- `vps_credential_registry_resolve` up to the end of its first section: what it returns there, or
what it goes on with. -/
def credentialResolveEnter (registry : CredentialRegistry) (reference : Option (List UInt8))
    (resolved : ResolvedCredential) (mutex : MutexAnswer) :
    CredentialRegistry × Except CredentialRegistryResult ResolveCall :=
  match reference with
  | none => (registry, .error .invalidArgument)
  | some reference =>
    if !registry.initialized || !resolved.initialized || resolved.storage.storage.owned ||
        -- `VPS_CREDENTIAL_REFERENCE_MAX_LENGTH`
        reference.length == 0 || reference.length > 1024 ||
        !((utf8IsValidAt reference true).toOption.getD false) then
      (registry, .error .invalidArgument)
    else if !mutex.lock then (registry, .error .platformError)
    else if !registry.registered then (registry, .error .notRegistered)
    else if registry.activeResolves = 0xffffffffffffffff then
      ({ registry with resolveStarted := true }, .error .busy)
    else
      let registry := { registry with
        resolveStarted := true, activeResolves := registry.activeResolves + 1 }
      if mutex.unlock then (registry,
        .ok ⟨registry.provider, registry.providerId, registry.generation⟩)
      else (registry, .error .platformError)

/-- What is made of a lease, before it is given back. -/
def credentialResolveCopy (lease : CredentialLease) (resolved : ResolvedCredential)
    (arena : Arena) :
    Buffered (CredentialRegistryResult × ResolvedCredential × Arena) :=
  -- `offsetof(VpsCredentialLease, config) + sizeof(VpsCredentialConfig *)`
  if abiValidateHeader lease.header 24 apiVersion ≠ .valid ∨
      (lease.header.presentFields ≠ 0 ∧ lease.header.presentFields &&& 1 = 0) then
    return (.abiIncompatible, resolved, arena)
  else credentialCopyConfig lease.config resolved arena

/-- What is noted once the lease was given back. -/
def credentialResolveNote (call : ResolveCall) (result : CredentialRegistryResult)
    (resolved : ResolvedCredential) : ResolvedCredential :=
  if result = .ok then
    { resolved with providerId := call.providerId, generation := call.generation }
  else resolved

/-- `vps_resolve_finish` -/
def credentialResolveFinish (registry : CredentialRegistry) (mutex : MutexAnswer) :
    CredentialRegistry :=
  if !mutex.lock then registry
  else if registry.activeResolves ≠ 0 then
    { registry with activeResolves := registry.activeResolves - 1 }
  else registry

/-- **`vps_credential_registry_resolve`**, when nothing comes between its parts. -/
def credentialRegistryResolve (registry : CredentialRegistry) (reference : Option (List UInt8))
    (resolved : ResolvedCredential) (arena : Arena) (answer : CredentialAnswer)
    (enter leave : MutexAnswer) :
    Buffered (CredentialRegistryResult × CredentialRegistry × ResolvedCredential × Arena) :=
  match credentialResolveEnter registry reference resolved enter with
  | (registry, .error result) => return (result, registry, resolved, arena)
  | (registry, .ok call) =>
    if answer.status ≠ 0 then
      return (.resolveFailed, credentialResolveFinish registry leave, resolved, arena)
    else do
      let (result, resolved, arena) ← credentialResolveCopy answer.lease resolved arena
      return (result, credentialResolveFinish registry leave,
        credentialResolveNote call result resolved, arena)

/-- **`vps_credential_registry_cleanup`**; `destroyed` is whether the mutex could be destroyed. -/
def credentialRegistryCleanup (registry : CredentialRegistry) (mutex : MutexAnswer)
    (destroyed : Bool) :
    CredentialRegistryResult × CredentialRegistry :=
  if !registry.initialized then (.ok, registry)
  else if !mutex.lock then (.platformError, registry)
  else if registry.activeResolves ≠ 0 then (.busy, registry)
  else
    let registry := { registry with registered := false, provider := ⟨⟨0, 0, 0⟩, 0, 0, 0⟩ }
    if !mutex.unlock then (.platformError, registry)
    else if !destroyed then (.platformError, registry)
    else (.ok, { registry with initialized := false })

/-! ## Threads -/

/-- Where a resolve is between its sections. -/
inductive ResolveStage
  | calling
  | leased (lease : CredentialLease)
  | copied (lease : CredentialLease) (result : CredentialRegistryResult)
  | finishing (result : CredentialRegistryResult)

/-- A thread between the sections of a resolve: the object it was given, and what became of it. -/
structure ResolveThread where
  key : ℕ
  call : ResolveCall
  given : ResolvedCredential
  resolved : ResolvedCredential
  stage : ResolveStage

/-- A resolve that has returned; one that returned in its first section has no key. -/
structure ResolveReturn where
  key : Option ℕ
  given : ResolvedCredential
  result : CredentialRegistryResult
  resolved : ResolvedCredential

/-- The registry, the threads that are between their sections, and what has happened. -/
structure CredentialSystem where
  registry : CredentialRegistry
  arena : Arena
  threads : List ResolveThread
  next : ℕ
  /-- The leases that providers gave out and got back. -/
  log : List (LedgerEvent (ℕ × ResolveCall × CredentialLease))
  returned : List ResolveReturn
  /-- The resolves that have counted themselves and left without a second section. -/
  stranded : ℕ

/-- What a thread does next, with what its environment answers. -/
inductive CredentialEvent
  | register (providerId : UInt64) (provider : Option CredentialProvider) (mutex : MutexAnswer)
  | enter (reference : Option (List UInt8)) (resolved : ResolvedCredential) (mutex : MutexAnswer)
  | answer (key : ℕ) (answer : CredentialAnswer)
  | copy (key : ℕ)
  | release (key : ℕ)
  | leave (key : ℕ) (mutex : MutexAnswer)
  | cleanup (mutex : MutexAnswer) (destroyed : Bool)

namespace CredentialSystem

/-- A thread goes on. -/
def proceed (s : CredentialSystem) (thread : ResolveThread) : CredentialSystem :=
  { s with threads := thread :: s.threads.eraseP (·.key == thread.key) }

/-- **One atomic step.** -/
def step (s : CredentialSystem) : CredentialEvent → CredentialSystem
  | .register providerId provider mutex =>
    { s with registry := (credentialRegistryRegister s.registry providerId provider mutex).2 }
  | .enter reference resolved mutex =>
    match credentialResolveEnter s.registry reference resolved mutex with
    | (registry, .error result) =>
      { s with
        registry
        returned := ⟨none, resolved, result, resolved⟩ :: s.returned
        stranded := if registry.activeResolves = s.registry.activeResolves then s.stranded
          else s.stranded + 1 }
    | (registry, .ok call) =>
      { s with
        registry, threads := ⟨s.next, call, resolved, resolved, .calling⟩ :: s.threads
        next := s.next + 1 }
  | .answer key answer =>
    match s.threads.find? (·.key == key) with
    | some ⟨key, call, given, resolved, .calling⟩ =>
      if answer.status ≠ 0 then s.proceed ⟨key, call, given, resolved, .finishing .resolveFailed⟩
      else
        { s.proceed ⟨key, call, given, resolved, .leased answer.lease⟩ with
          log := .acquired (key, call, answer.lease) :: s.log }
    | _ => s
  | .copy key =>
    match s.threads.find? (·.key == key) with
    | some ⟨key, call, given, resolved, .leased lease⟩ =>
      match credentialResolveCopy lease resolved s.arena with
      | .error _ => s
      | .ok (result, resolved, arena) =>
        { s.proceed ⟨key, call, given, resolved, .copied lease result⟩ with arena }
    | _ => s
  | .release key =>
    match s.threads.find? (·.key == key) with
    | some ⟨key, call, given, resolved, .copied lease result⟩ =>
      { s.proceed ⟨key, call, given, credentialResolveNote call result resolved,
          .finishing result⟩ with
        log := .released (key, call, lease) :: s.log }
    | _ => s
  | .leave key mutex =>
    match s.threads.find? (·.key == key) with
    | some ⟨_, _, given, resolved, .finishing result⟩ =>
      { s with
        registry := credentialResolveFinish s.registry mutex
        threads := s.threads.eraseP (·.key == key)
        returned := ⟨some key, given, result, resolved⟩ :: s.returned
        stranded := if mutex.lock then s.stranded else s.stranded + 1 }
    | _ => s
  | .cleanup mutex destroyed =>
    { s with registry := (credentialRegistryCleanup s.registry mutex destroyed).2 }

/-- A registry that was just initialised. -/
def start (answers : ℕ → MemoryAnswer) : CredentialSystem where
  registry := { CredentialRegistry.zero with initialized := true }
  arena := .fresh answers
  threads := []
  next := 0
  log := []
  returned := []
  stranded := 0

end CredentialSystem

end Vps
