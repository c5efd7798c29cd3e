import VirtualPostgreSQL.Credential.WinCred
import VirtualPostgreSQL.Machinery.Ledger

/-!
# Memory/Memory — allocators, owned memory and buffers

`vps_memory.c` and `vps_secure_memory.c`.  An arena is what the program sees of its allocator: each
request is answered as the arena's answers say, a block that is granted has an address of its own,
and the log tells which blocks were given out and which came back, with the bytes they came back
with.
-/

namespace Vps

open Machinery

/-! ## Allocators -/

/-- `VpsMemoryResult` -/
inductive MemoryResult
  | ok | invalidArgument | overflow | limitExceeded | outOfMemory | rangeError
  deriving DecidableEq, Repr

/-- `VpsSecureMemoryResult` -/
inductive SecureMemoryResult
  | ok | invalidArgument | outOfMemory | zeroFailed
  deriving DecidableEq, Repr

/-- `VpsAllocatorFamily` -/
inductive AllocatorFamily
  | system | sqlite | test
  deriving DecidableEq, Repr

/-- `VpsAllocator`: a family, if the number is that of one, and which callbacks are there. -/
structure Allocator where
  family : Option AllocatorFamily
  allocate : Bool
  reallocate : Bool
  deallocate : Bool
  deriving DecidableEq, Repr

/-- `vps_allocator_is_valid` -/
def allocatorIsValid (allocator : Allocator) : Bool :=
  allocator.allocate && allocator.reallocate && allocator.deallocate && allocator.family.isSome

/-- A block of memory. -/
structure MemoryBlock where
  address : ℕ
  bytes : List UInt8
  deriving DecidableEq, Repr

/-- What the allocator or the platform answers to one request. -/
structure MemoryAnswer where
  granted : Bool
  /-- What stands in the bytes that are new. -/
  fill : ℕ → UInt8
  /-- Whether `secure_zero` succeeds. -/
  zeroed : Bool

/-- The allocator and the platform, with what has passed between them and the program. -/
structure Arena where
  answers : ℕ → MemoryAnswer
  requests : ℕ
  log : List (LedgerEvent ℕ)
  freed : List MemoryBlock

namespace Arena

/-- The answer to the next request. -/
def answer (arena : Arena) : MemoryAnswer := arena.answers arena.requests

/-- `allocator->allocate` -/
def allocate (arena : Arena) (size : ℕ) : Option MemoryBlock × Arena :=
  if arena.answer.granted then
    (some ⟨arena.requests, (List.range size).map arena.answer.fill⟩,
      { arena with requests := arena.requests + 1, log := .acquired arena.requests :: arena.log })
  else (none, { arena with requests := arena.requests + 1 })

/-- `allocator->reallocate`: a block keeps its identity and the bytes it has room for. -/
def reallocate (arena : Arena) (block : MemoryBlock) (newSize : ℕ) : Option MemoryBlock × Arena :=
  let arena' := { arena with requests := arena.requests + 1 }
  if arena.answer.granted then
    let added := (List.range (newSize - block.bytes.length)).map arena.answer.fill
    (some { block with bytes := block.bytes.take newSize ++ added }, arena')
  else (none, arena')

/-- `allocator->deallocate` -/
def deallocate (arena : Arena) (block : MemoryBlock) : Arena :=
  { arena with log := .released block.address :: arena.log, freed := block :: arena.freed }

/-- `vps_platform_secure_zero` -/
def secureZero (arena : Arena) (block : MemoryBlock) (size : ℕ) : Bool × MemoryBlock × Arena :=
  let arena' := { arena with requests := arena.requests + 1 }
  if arena.answer.zeroed then
    (true, { block with bytes := List.replicate size 0 ++ block.bytes.drop size }, arena')
  else (false, block, arena')

end Arena

/-- **`vps_memory_allocate`**, with what it leaves in `*memory`. -/
def memoryAllocate (allocator : Allocator) (arena : Arena) (size : ℕ) :
    MemoryResult × Option MemoryBlock × Arena :=
  if !allocatorIsValid allocator then (.invalidArgument, none, arena)
  else if size = 0 then (.ok, none, arena)
  else match arena.allocate size with
  | (none, arena) => (.outOfMemory, none, arena)
  | (some memory, arena) => (.ok, some memory, arena)

/-- **`vps_memory_release`** -/
def memoryRelease (allocator : Allocator) (arena : Arena) :
    Option MemoryBlock → Option MemoryBlock × Arena
  | none => (none, arena)
  | some memory =>
    if !allocatorIsValid allocator then (some memory, arena) else (none, arena.deallocate memory)

/-- **`vps_memory_reallocate`** -/
def memoryReallocate (allocator : Allocator) (arena : Arena) (memory : Option MemoryBlock)
    (newSize : ℕ) :
    MemoryResult × Option MemoryBlock × Arena :=
  if !allocatorIsValid allocator then (.invalidArgument, memory, arena)
  else if newSize = 0 then
    let (memory, arena) := memoryRelease allocator arena memory
    (.ok, memory, arena)
  else match memory with
  | none => memoryAllocate allocator arena newSize
  | some block =>
    match arena.reallocate block newSize with
    | (none, arena) => (.outOfMemory, some block, arena)
    | (some resized, arena) => (.ok, some resized, arena)

/-! ## Owned memory -/

/-- `VpsOwnedMemory` -/
structure OwnedMemory where
  allocator : Allocator
  memory : Option MemoryBlock
  size : ℕ
  owned : Bool
  deriving DecidableEq, Repr

/-- `vps_owned_memory_init` -/
def ownedMemoryInit (ownedMemory : OwnedMemory) (allocator : Allocator) :
    MemoryResult × OwnedMemory :=
  if !allocatorIsValid allocator then (.invalidArgument, ownedMemory)
  else (.ok, ⟨allocator, none, 0, false⟩)

/-- `vps_owned_memory_allocate` -/
def ownedMemoryAllocate (ownedMemory : OwnedMemory) (arena : Arena) (size : ℕ) :
    MemoryResult × OwnedMemory × Arena :=
  if ownedMemory.owned || ownedMemory.memory.isSome || !allocatorIsValid ownedMemory.allocator then
    (.invalidArgument, ownedMemory, arena)
  else match memoryAllocate ownedMemory.allocator arena size with
  | (.ok, memory, arena) => (.ok, { ownedMemory with memory, size, owned := memory.isSome }, arena)
  | (result, _, arena) => (result, ownedMemory, arena)

/-- `vps_owned_memory_adopt` -/
def ownedMemoryAdopt (ownedMemory : OwnedMemory) (memory : Option MemoryBlock) (size : ℕ) :
    MemoryResult × OwnedMemory :=
  if ownedMemory.owned || ownedMemory.memory.isSome || !allocatorIsValid ownedMemory.allocator ||
      memory.isNone != (size == 0) then
    (.invalidArgument, ownedMemory)
  else (.ok, { ownedMemory with memory, size, owned := memory.isSome })

/-- `vps_owned_memory_release` -/
def ownedMemoryRelease (ownedMemory : OwnedMemory) (arena : Arena) : OwnedMemory × Arena :=
  if !ownedMemory.owned then (ownedMemory, arena)
  else
    let (memory, arena) := memoryRelease ownedMemory.allocator arena ownedMemory.memory
    ({ ownedMemory with memory, size := 0, owned := false }, arena)

/-! ## Sensitive memory -/

/-- `VpsSensitiveMemory`; the operations and the logger are those of the arena. -/
structure SensitiveMemory where
  storage : OwnedMemory
  initialized : Bool
  deriving DecidableEq, Repr

/-- `vps_secure_memory_from_memory_result` -/
def secureMemoryFromMemoryResult : MemoryResult → SecureMemoryResult
  | .ok => .ok
  | .outOfMemory => .outOfMemory
  | _ => .invalidArgument

/-- `vps_sensitive_memory_init`; `operations` is whether the platform can zero memory. -/
def sensitiveMemoryInit (sensitiveMemory : SensitiveMemory) (allocator : Allocator)
    (operations : Bool) :
    SecureMemoryResult × SensitiveMemory :=
  if !operations then (.invalidArgument, sensitiveMemory)
  else match ownedMemoryInit sensitiveMemory.storage allocator with
  | (.ok, storage) => (.ok, ⟨storage, true⟩)
  | (result, storage) => (secureMemoryFromMemoryResult result, { sensitiveMemory with storage })

/-- **`vps_sensitive_memory_allocate`** -/
def sensitiveMemoryAllocate (sensitiveMemory : SensitiveMemory) (arena : Arena) (size : ℕ) :
    SecureMemoryResult × SensitiveMemory × Arena :=
  if !sensitiveMemory.initialized then (.invalidArgument, sensitiveMemory, arena)
  else
    let (result, storage, arena) := ownedMemoryAllocate sensitiveMemory.storage arena size
    (secureMemoryFromMemoryResult result, { sensitiveMemory with storage }, arena)

/-- **`vps_sensitive_memory_adopt`** -/
def sensitiveMemoryAdopt (sensitiveMemory : SensitiveMemory)
    (memory : Option MemoryBlock) (size : ℕ) :
    SecureMemoryResult × SensitiveMemory :=
  if !sensitiveMemory.initialized then (.invalidArgument, sensitiveMemory)
  else
    let (result, storage) := ownedMemoryAdopt sensitiveMemory.storage memory size
    (secureMemoryFromMemoryResult result, { sensitiveMemory with storage })

/-- **`vps_sensitive_memory_release`** -/
def sensitiveMemoryRelease (sensitiveMemory : SensitiveMemory) (arena : Arena) :
    SecureMemoryResult × SensitiveMemory × Arena :=
  if !sensitiveMemory.initialized then (.invalidArgument, sensitiveMemory, arena)
  else if !sensitiveMemory.storage.owned then (.ok, sensitiveMemory, arena)
  else match sensitiveMemory.storage.memory with
  -- `secure_zero` of `NULL`; an owner has memory
  | none => (.zeroFailed, sensitiveMemory, arena)
  | some block =>
    match arena.secureZero block sensitiveMemory.storage.size with
    | (false, _, arena) => (.zeroFailed, sensitiveMemory, arena)
    | (true, block, arena) =>
      let (storage, arena) :=
        ownedMemoryRelease { sensitiveMemory.storage with memory := some block } arena
      (.ok, { sensitiveMemory with storage }, arena)

/-- `vps_sensitive_memory_data` -/
def sensitiveMemoryData (sensitiveMemory : SensitiveMemory) : Option MemoryBlock :=
  if !sensitiveMemory.initialized || !sensitiveMemory.storage.owned then none
  else sensitiveMemory.storage.memory

/-! ## Buffers -/

/-- `VpsBuffer` -/
structure Buffer where
  allocator : Allocator
  data : Option MemoryBlock
  size : ℕ
  capacity : ℕ
  limit : ℕ
  deriving DecidableEq, Repr

/-- `vps_buffer_init` -/
def bufferInit (buffer : Buffer) (allocator : Allocator) (limit : ℕ) : MemoryResult × Buffer :=
  if !allocatorIsValid allocator then (.invalidArgument, buffer)
  else (.ok, ⟨allocator, none, 0, 0, limit⟩)

/-- **`vps_buffer_reserve`** -/
def bufferReserve (buffer : Buffer) (arena : Arena) (capacity : ℕ) :
    MemoryResult × Buffer × Arena :=
  if !allocatorIsValid buffer.allocator then (.invalidArgument, buffer, arena)
  else if capacity > buffer.limit then (.limitExceeded, buffer, arena)
  else if capacity ≤ buffer.capacity then (.ok, buffer, arena)
  else match memoryReallocate buffer.allocator arena buffer.data capacity with
  | (.ok, data, arena) => (.ok, { buffer with data, capacity }, arena)
  | (result, _, arena) => (result, buffer, arena)

/-- **`vps_buffer_append`**; `data` are the bytes that are there, `none` is `NULL`. -/
def bufferAppendBytes (buffer : Buffer) (arena : Arena) (data : Option (List UInt8)) (size : ℕ) :
    Buffered (MemoryResult × Buffer × Arena) :=
  if data = none ∧ size ≠ 0 then return (.invalidArgument, buffer, arena)
  else match sizeAdd buffer.size size with
  | none => return (.overflow, buffer, arena)
  | some required =>
    match bufferReserve buffer arena required with
    | (.ok, buffer, arena) =>
      if size ≠ 0 then do
        match buffer.data, data with
        | some block, some data =>
          let copied ← sliceAt data 0 size
          let bytes ← writeAt block.bytes buffer.size copied
          return (.ok, { buffer with data := some { block with bytes }, size := required }, arena)
        -- `memcpy` to or from `NULL`
        | _, _ => .error .outside
      else return (.ok, buffer, arena)
    | (result, buffer, arena) => return (result, buffer, arena)

/-- **`vps_buffer_reset`** -/
def bufferReset (buffer : Buffer) (arena : Arena) : Buffer × Arena :=
  let (_, arena) := memoryRelease buffer.allocator arena buffer.data
  ({ buffer with data := none, size := 0, capacity := 0 }, arena)

end Vps
