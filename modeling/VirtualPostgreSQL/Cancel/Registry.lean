import VirtualPostgreSQL.Machinery.Linked
import VirtualPostgreSQL.Platform.Deadline

/-!
# Cancel/Registry — the registry of cancel tokens

`vps_cancel.c`.  The tokens of the cursors that are open are linked into a list, through themselves,
whose head is in the registry.  Each operation does its work with the mutex held, so a run of
operations by any threads is a list of them, in the order in which they got the mutex.
-/

namespace Vps

open Machinery

/-! ## Types -/

/-- `VpsCancelRegistryResult` -/
inductive CancelRegistryResult
  | ok | invalidArgument | platformError | invalidState
  deriving DecidableEq, Repr

/-- `VpsCancelToken`; pointers are addresses. -/
structure CancelToken where
  registry : Option ℕ
  next : Option ℕ
  cursorId : UInt64
  requestGeneration : UInt64
  registered : Bool
  requested : Bool
  deriving DecidableEq, Repr

/-- A token as `memset` leaves it. -/
def CancelToken.zero : CancelToken := ⟨none, none, 0, 0, false, false⟩

/-- `VpsCancelRegistry` -/
structure CancelRegistry where
  head : Option ℕ
  generation : UInt64
  tokenCount : UInt64
  initialized : Bool
  closing : Bool
  deriving DecidableEq, Repr

/-- A registry as `memset` leaves it. -/
def CancelRegistry.zero : CancelRegistry := ⟨none, 0, 0, false, false⟩

/-- The registries and the tokens at their addresses. -/
structure CancelMemory where
  registries : ℕ → CancelRegistry
  tokens : ℕ → CancelToken

/-! ## Operations -/

/-- `token->next` -/
def nextToken (tokens : ℕ → CancelToken) (token : ℕ) : Option ℕ := (tokens token).next

/-- `vps_cancel_registry_init`; `mutex` is whether the mutex could be made. -/
def cancelRegistryInit (memory : CancelMemory) (registry : ℕ) (mutex : Bool) :
    CancelRegistryResult × CancelMemory :=
  if !mutex then (.platformError,
    { memory with registries := Function.update memory.registries registry .zero })
  else (.ok, { memory with
    registries := Function.update memory.registries registry
      { CancelRegistry.zero with initialized := true } })

/-- What the loop of a cleanup does to a token: `memset` -/
def forgetToken (tokens : ℕ → CancelToken) (token : ℕ) : ℕ → CancelToken :=
  Function.update tokens token .zero

/-- **`vps_cancel_registry_cleanup`** -/
def cancelRegistryCleanup (rounds : ℕ) (memory : CancelMemory) (registry : ℕ)
    (lock destroyed : Bool) :
    Except LoopFault (CancelRegistryResult × CancelMemory) :=
  let held := memory.registries registry
  if !held.initialized then return (.ok, memory)
  else if !lock then return (.platformError, memory)
  else do
    let tokens ← walk nextToken forgetToken rounds held.head memory.tokens
    if !destroyed then
      let held := { held with closing := true, head := none, tokenCount := 0 }
      return (.platformError, ⟨Function.update memory.registries registry held, tokens⟩)
    else return (.ok, ⟨Function.update memory.registries registry .zero, tokens⟩)

/-- **`vps_cancel_token_register`** -/
def cancelTokenRegister (memory : CancelMemory) (registry token : ℕ) (cursorId : UInt64)
    (lock : Bool) :
    CancelRegistryResult × CancelMemory :=
  let held := memory.registries registry
  if cursorId = 0 ∨ held.initialized = false ∨ (memory.tokens token).registered = true then
    (.invalidArgument, memory)
  else if !lock then (.platformError, memory)
  -- `SIZE_MAX`
  else if held.closing = true ∨ held.tokenCount = 0xffffffffffffffff then (.invalidState, memory)
  else
    (.ok, ⟨Function.update memory.registries registry
        { held with head := some token, tokenCount := held.tokenCount + 1 },
      Function.update memory.tokens token ⟨some registry, held.head, cursorId, 0, true, false⟩⟩)

/-- `*link = value` -/
def writeLink (memory : CancelMemory) (registry : ℕ) (link value : Option ℕ) : CancelMemory :=
  match link with
  | none => { memory with
      registries := Function.update memory.registries registry
        { memory.registries registry with head := value } }
  | some token => { memory with
      tokens := Function.update memory.tokens token { memory.tokens token with next := value } }

/-- **`vps_cancel_token_unregister`** -/
def cancelTokenUnregister (rounds : ℕ) (memory : CancelMemory) (token : ℕ) (lock : Bool) :
    Except LoopFault (CancelRegistryResult × CancelMemory) :=
  let own := memory.tokens token
  if !own.registered then return (.ok, memory)
  else match own.registry with
  | none => return (.invalidState, memory)
  | some registry =>
    let held := memory.registries registry
    if !held.initialized then return (.invalidState, memory)
    else if !lock then return (.platformError, memory)
    else do
      let link ← seekLink held.head (nextToken memory.tokens) token rounds none
      if linkAt held.head (nextToken memory.tokens) link ≠ some token then
        return (.invalidState, memory)
      else
        let memory := writeLink memory registry link own.next
        let held := memory.registries registry
        let tokenCount := if held.tokenCount ≠ 0 then held.tokenCount - 1 else held.tokenCount
        return (.ok, ⟨Function.update memory.registries registry { held with tokenCount },
          Function.update memory.tokens token .zero⟩)

/-- What the loop of a request does to a token, and its count. -/
def markToken (generation : UInt64) (marked : (ℕ → CancelToken) × UInt64) (token : ℕ) :
    (ℕ → CancelToken) × UInt64 :=
  (Function.update marked.1 token
    { marked.1 token with requested := true, requestGeneration := generation }, marked.2 + 1)

/-- **`vps_cancel_registry_request_all`**, with what it counts; a token is not linked anew, so that
its next one may as well be read before it is marked. -/
def cancelRegistryRequestAll (rounds : ℕ) (memory : CancelMemory) (registry : ℕ) (lock : Bool) :
    Except LoopFault (CancelRegistryResult × Option UInt64 × CancelMemory) :=
  let held := memory.registries registry
  if !held.initialized then return (.invalidArgument, none, memory)
  else if !lock then return (.platformError, none, memory)
  else if held.closing = true ∨ held.generation = 0xffffffffffffffff then
    return (.invalidState, none, memory)
  else do
    let generation := held.generation + 1
    let (tokens, count) ← walk (fun marked token => nextToken marked.1 token)
      (markToken generation) rounds held.head (memory.tokens, 0)
    return (.ok, some count,
      ⟨Function.update memory.registries registry { held with generation }, tokens⟩)

/-- **`vps_cancel_token_probe`** -/
def cancelTokenProbe (memory : CancelMemory) (token : ℕ) (lock : Bool) : InterruptProbeResult :=
  let own := memory.tokens token
  if !own.registered || own.registry.isNone then .probeError
  else if !lock then .probeError
  else if own.registered && own.requested then .requested
  else .proceed

/-! ## Threads -/

/-- What has happened: an operation that did what it is for. -/
inductive CancelRecord
  | registered (registry token : ℕ)
  | unregistered (token : ℕ)
  | requested (registry : ℕ) (count : UInt64)
  | cleaned (registry : ℕ)
  deriving DecidableEq, Repr

/-- What a thread does, with what the mutex answers. -/
inductive CancelEvent
  | init (registry : ℕ) (mutex : Bool)
  | register (registry token : ℕ) (cursorId : UInt64) (lock : Bool)
  | unregister (token : ℕ) (lock : Bool)
  | requestAll (registry : ℕ) (lock : Bool)
  | cleanup (registry : ℕ) (lock destroyed : Bool)
  deriving DecidableEq, Repr

/-- The memory, and what has happened, the newest first. -/
structure CancelSystem where
  memory : CancelMemory
  history : List CancelRecord

namespace CancelSystem

/-- **One operation.** -/
def step (rounds : ℕ) (s : CancelSystem) : CancelEvent → Except LoopFault CancelSystem
  | .init registry mutex =>
    return { s with memory := (cancelRegistryInit s.memory registry mutex).2 }
  | .register registry token cursorId lock =>
    match cancelTokenRegister s.memory registry token cursorId lock with
    | (.ok, memory) => return ⟨memory, .registered registry token :: s.history⟩
    | (_, memory) => return { s with memory }
  | .unregister token lock => do
    match ← cancelTokenUnregister rounds s.memory token lock with
    | (.ok, memory) => return ⟨memory, .unregistered token :: s.history⟩
    | (_, memory) => return { s with memory }
  | .requestAll registry lock => do
    match ← cancelRegistryRequestAll rounds s.memory registry lock with
    | (.ok, some count, memory) => return ⟨memory, .requested registry count :: s.history⟩
    | (_, _, memory) => return { s with memory }
  | .cleanup registry lock destroyed => do
    let (_, memory) ← cancelRegistryCleanup rounds s.memory registry lock destroyed
    if (s.memory.registries registry).initialized && lock then
      return ⟨memory, .cleaned registry :: s.history⟩
    else return { s with memory }

/-- Nothing is registered anywhere. -/
def start : CancelSystem := ⟨⟨fun _ => .zero, fun _ => .zero⟩, []⟩

end CancelSystem

end Vps
