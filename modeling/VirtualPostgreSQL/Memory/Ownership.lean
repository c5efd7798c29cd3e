import VirtualPostgreSQL.Machinery.Lists
import VirtualPostgreSQL.Memory.Memory

/-!
# Memory/Ownership — blocks have one owner, and secrets are wiped

`Arena.Holds arena held` says which blocks are out: each was given out once, and what came back came
back once.  What an operation does is stated with the blocks of everybody else beside its own, so
that it holds in any program.

`sensitive_memory_wiped` is the result on sensitive memory: whatever its owner does, and whatever
the allocator and the platform answer, the bytes of a block are zero when the allocator gets it
back.
-/

namespace Vps

open Machinery

/-! ## Blocks that are out -/

/-- **The blocks that are out**, by their addresses. -/
structure Arena.Holds (arena : Arena) (held : List ℕ) : Prop where
  ledger : Ledger arena.log held
  earlier : ∀ address, .acquired address ∈ arena.log → address < arena.requests
  freed : ∀ address, .released address ∈ arena.log ↔ ∃ block ∈ arena.freed, block.address = address

/-- Every block that came back came back wiped. -/
def Arena.Wiped (arena : Arena) : Prop := ∀ block ∈ arena.freed, ∀ byte ∈ block.bytes, byte = 0

/-- An arena that was not asked yet. -/
def Arena.fresh (answers : ℕ → MemoryAnswer) : Arena := ⟨answers, 0, [], []⟩

namespace Arena.Holds

variable {arena : Arena} {held held' : List ℕ} {block : MemoryBlock}

/-- Nothing is held at first. -/
theorem fresh (answers : ℕ → MemoryAnswer) : (Arena.fresh answers).Holds [] where
  ledger := .nil
  earlier _ h := absurd h List.not_mem_nil
  freed _ := iff_of_false List.not_mem_nil fun ⟨_, h, _⟩ => List.not_mem_nil h

theorem perm (h : arena.Holds held) (hperm : held'.Perm held) : arena.Holds held' :=
  ⟨h.ledger.perm hperm, h.earlier, h.freed⟩

/-- A request that gives nothing out. -/
theorem request (h : arena.Holds held) :
    Arena.Holds { arena with requests := arena.requests + 1 } held :=
  ⟨h.ledger, fun address hout => Nat.lt_succ_of_lt (h.earlier address hout), h.freed⟩

/-- **What a deallocation does.** -/
theorem deallocate (h : arena.Holds (block.address :: held)) :
    (arena.deallocate block).Holds held := by
  refine ⟨.release _ h.ledger (List.Perm.refl _), fun address hout => ?_, fun address => ?_⟩
  · exact h.earlier address ((List.mem_cons.mp hout).resolve_left fun heq => by cases heq)
  · simp only [Arena.deallocate, List.mem_cons, LedgerEvent.released.injEq, h.freed,
      or_and_right, exists_or, exists_eq_left, eq_comm (a := address)]

/-- **What is out is known**: given out and not come back. -/
theorem mem_held (h : arena.Holds held) {address : ℕ} :
    address ∈ held ↔ .acquired address ∈ arena.log ∧ ∀ block ∈ arena.freed,
      block.address ≠ address := by
  rw [h.ledger.mem_held, h.freed]
  simp only [not_exists, not_and, ne_eq]

end Arena.Holds

/-- **What an allocation does.** -/
theorem Arena.allocate_cases (arena : Arena) (size : ℕ) :
    (∃ block arena', arena.allocate size = (some block, arena') ∧ block.bytes.length = size ∧
      arena'.freed = arena.freed ∧ ∀ held, arena.Holds held →
        arena'.Holds (block.address :: held)) ∨
    (∃ arena', arena.allocate size = (none, arena') ∧ arena'.freed = arena.freed ∧
      ∀ held, arena.Holds held → arena'.Holds held) := by
  unfold Arena.allocate
  split
  · refine .inl ⟨_, _, rfl, by rw [List.length_map, List.length_range], rfl, fun held h => ?_⟩
    refine ⟨.acquire _ h.ledger (fun hout => ?_) (List.Perm.refl _), fun address hout => ?_,
      fun address => ?_⟩
    · exact Nat.lt_irrefl _ (h.earlier _ hout)
    · obtain heq | hout := List.mem_cons.mp hout
      · cases heq
        exact Nat.lt_succ_self _
      · exact Nat.lt_succ_of_lt (h.earlier address hout)
    · rw [List.mem_cons, or_iff_right (fun heq => by cases heq)]
      exact h.freed address
  · exact .inr ⟨_, rfl, rfl, fun held h => h.request⟩

/-- **What a reallocation does**: the block keeps its identity. -/
theorem Arena.reallocate_cases (arena : Arena) (block : MemoryBlock) (size : ℕ) :
    ∃ reply arena', arena.reallocate block size = (reply, arena') ∧ arena'.freed = arena.freed ∧
      (∀ held, arena.Holds held → arena'.Holds held) ∧
      ∀ resized, reply = some resized → resized.address = block.address ∧
        resized.bytes.length = size ∧ block.bytes.take size <+: resized.bytes := by
  unfold Arena.reallocate
  split
  · refine ⟨_, _, rfl, rfl, fun held h => h.request, ?_⟩
    rintro _ ⟨⟩
    refine ⟨rfl, ?_, List.prefix_append _ _⟩
    rw [List.length_append, List.length_take, List.length_map, List.length_range]
    omega
  · exact ⟨_, _, rfl, rfl, fun held h => h.request, fun _ h => by cases h⟩

/-- Zeroing frees nothing and keeps what is held. -/
theorem Arena.secureZero_cases (arena : Arena) (block : MemoryBlock) (size : ℕ) :
    (arena.secureZero block size).2.2.freed = arena.freed ∧
      ∀ held, arena.Holds held → (arena.secureZero block size).2.2.Holds held := by
  unfold Arena.secureZero
  split <;> exact ⟨rfl, fun held h => h.request⟩

/-! ## Owners -/

/-- The address of a block that is owned. -/
def addressesOf (memory : Option MemoryBlock) : List ℕ := memory.toList.map MemoryBlock.address

@[simp] theorem addressesOf_none : addressesOf none = [] := rfl

@[simp] theorem addressesOf_some (block : MemoryBlock) :
    addressesOf (some block) = [block.address] := rfl

/-- **An owner knows its block**: it is there if it is owned, and it has the size that is noted. -/
structure OwnedMemory.Sound (ownedMemory : OwnedMemory) : Prop where
  valid : allocatorIsValid ownedMemory.allocator = true
  owned : ownedMemory.owned = ownedMemory.memory.isSome
  size : ∀ block, ownedMemory.memory = some block → ownedMemory.size = block.bytes.length

section Owned

variable {allocator : Allocator} {ownedMemory : OwnedMemory} {arena : Arena} {others : List ℕ}

theorem OwnedMemory.Sound.start (h : allocatorIsValid allocator = true) :
    OwnedMemory.Sound ⟨allocator, none, 0, false⟩ :=
  ⟨h, rfl, fun _ h => by cases h⟩

/-- What is allocated is out beside everything else. -/
theorem memoryAllocate_spec (hvalid : allocatorIsValid allocator = true)
    (arena : Arena) (size : ℕ) :
    ∃ result memory arena', memoryAllocate allocator arena size = (result, memory, arena') ∧
      arena'.freed = arena.freed ∧
      (∀ others, arena.Holds others → arena'.Holds (addressesOf memory ++ others)) ∧
      (∀ block, memory = some block → result = .ok ∧ block.bytes.length = size) ∧
      (memory = none → (result = .ok ∧ size = 0) ∨ result = .outOfMemory) := by
  simp only [memoryAllocate, hvalid, Bool.not_true, Bool.false_eq_true, if_false]
  by_cases hsize : size = 0
  · rw [if_pos hsize]
    exact ⟨_, _, _, rfl, rfl, fun _ h => h, fun _ h => (by cases h), fun _ => .inl ⟨rfl, hsize⟩⟩
  · rw [if_neg hsize]
    rcases arena.allocate_cases size with ⟨block, arena', heq, hlength, hfreed, hnext⟩ |
      ⟨arena', heq, hfreed, hnext⟩
    · rw [heq]
      refine ⟨_, _, _, rfl, hfreed, hnext, ?_, fun h => (by cases h)⟩
      rintro _ ⟨⟩
      exact ⟨rfl, hlength⟩
    · rw [heq]
      exact ⟨_, _, _, rfl, hfreed, hnext, fun _ h => (by cases h), fun _ => .inr rfl⟩

/-- The owner after an allocation owns what it has got, beside everybody else. -/
theorem ownedMemoryAllocate_spec (h : ownedMemory.Sound) (arena : Arena) (size : ℕ) :
    ∃ result ownedMemory' arena', ownedMemoryAllocate ownedMemory arena size =
        (result, ownedMemory', arena') ∧
      ownedMemory'.Sound ∧ arena'.freed = arena.freed ∧
      ∀ others, arena.Holds (addressesOf ownedMemory.memory ++ others) →
        arena'.Holds (addressesOf ownedMemory'.memory ++ others) := by
  unfold ownedMemoryAllocate
  split
  · exact ⟨_, _, _, rfl, h, rfl, fun _ h => h⟩
  rename_i hempty
  simp only [Bool.or_eq_true, not_or, Bool.not_eq_true, Option.isSome_eq_false_iff,
    Option.isNone_iff_eq_none] at hempty
  have hnone := hempty.1.2
  obtain ⟨result, memory, arena', heq, hfreed, hnext, hsome, hnil⟩ :=
    memoryAllocate_spec h.valid arena size
  rw [heq]
  cases result with
  | ok =>
    refine ⟨_, _, _, rfl, ⟨h.valid, rfl, fun block hblock => (hsome block hblock).2.symm⟩, hfreed,
      fun others hout => hnext others ?_⟩
    rwa [hnone] at hout
  | invalidArgument | overflow | limitExceeded | outOfMemory | rangeError =>
    refine ⟨_, _, _, rfl, h, hfreed, fun others hout => ?_⟩
    cases memory with
    | some block => exact absurd (hsome block rfl).1 (by decide)
    | none =>
      rw [hnone] at hout ⊢
      exact hnext others hout

/-- What is adopted was out, and is owned now. -/
theorem ownedMemoryAdopt_spec (h : ownedMemory.Sound) (block : MemoryBlock) :
    ∃ result ownedMemory', ownedMemoryAdopt ownedMemory (some block) block.bytes.length =
        (result, ownedMemory') ∧ ownedMemory'.Sound ∧
      ((result = .ok ∧ ownedMemory.memory = none ∧ ownedMemory'.memory = some block) ∨
        (result ≠ .ok ∧ ownedMemory' = ownedMemory)) := by
  unfold ownedMemoryAdopt
  split
  · exact ⟨_, _, rfl, h, .inr ⟨by decide, rfl⟩⟩
  · rename_i hempty
    simp only [Bool.or_eq_true, not_or, Bool.not_eq_true, Option.isSome_eq_false_iff,
      Option.isNone_iff_eq_none] at hempty
    refine ⟨_, _, rfl, ⟨h.valid, rfl, ?_⟩, .inl ⟨rfl, hempty.1.1.2, rfl⟩⟩
    rintro _ ⟨⟩
    rfl

end Owned

/-! ## Sensitive memory -/

section Sensitive

variable {sensitiveMemory : SensitiveMemory}

/-- **A release gives back zeros or nothing**: where zeroing fails, the owner keeps its block. -/
theorem sensitiveMemoryRelease_spec (h : sensitiveMemory.storage.Sound) (arena : Arena) :
    ∃ result sensitiveMemory' arena', sensitiveMemoryRelease sensitiveMemory arena =
        (result, sensitiveMemory', arena') ∧
      sensitiveMemory'.storage.Sound ∧ (arena.Wiped → arena'.Wiped) ∧
      (∀ others, arena.Holds (addressesOf sensitiveMemory.storage.memory ++ others) →
        arena'.Holds (addressesOf sensitiveMemory'.storage.memory ++ others)) ∧
      (result = .ok → sensitiveMemory'.storage.memory = none) ∧
      (result ≠ .ok → sensitiveMemory' = sensitiveMemory ∧ arena'.freed = arena.freed) := by
  unfold sensitiveMemoryRelease
  split
  · exact ⟨_, _, _, rfl, h, id, fun _ h => h, fun h => (by cases h), fun _ => ⟨rfl, rfl⟩⟩
  split
  · rename_i howned
    refine ⟨_, _, _, rfl, h, id, fun _ h => h, fun _ => ?_, fun h => absurd rfl h⟩
    rw [h.owned] at howned
    simpa using howned
  split
  · exact ⟨_, _, _, rfl, h, id, fun _ h => h, fun h => (by cases h), fun _ => ⟨rfl, rfl⟩⟩
  rename_i howned _ block hmemory
  have hzero := arena.secureZero_cases block sensitiveMemory.storage.size
  have hsize := h.size block hmemory
  split
  · rename_i heq
    rw [heq] at hzero
    exact ⟨_, _, _, rfl, h, fun hwiped => by rwa [Arena.Wiped, hzero.1],
      fun others hout => hzero.2 _ hout, fun h => (by cases h), fun _ => ⟨rfl, hzero.1⟩⟩
  · rename_i zeroed arena' heq
    have hblock : zeroed = ⟨block.address, List.replicate block.bytes.length 0⟩ := by
      unfold Arena.secureZero at heq
      split at heq
      · cases heq
        rw [hsize, List.drop_length, List.append_nil]
      · cases heq
    rw [heq] at hzero
    have hrelease :
      ownedMemoryRelease { sensitiveMemory.storage with memory := some zeroed } arena' =
        ({ sensitiveMemory.storage with memory := none, size := 0, owned := false },
          arena'.deallocate zeroed) := by
      have howned : sensitiveMemory.storage.owned = true := by simpa using howned
      simp [ownedMemoryRelease, memoryRelease, howned, h.valid]
    simp only [hrelease]
    refine ⟨_, _, _, rfl, ⟨h.valid, rfl, fun _ h => (by cases h)⟩, fun hwiped => ?_,
      fun others hout => ?_, fun _ => rfl, fun h => absurd rfl h⟩
    · refine List.forall_mem_cons.mpr ⟨fun byte hbyte => ?_, fun freed hfreed => ?_⟩
      · rw [hblock] at hbyte
        exact (List.mem_replicate.mp hbyte).2
      · rw [hzero.1] at hfreed
        exact hwiped freed hfreed
    · refine @Arena.Holds.deallocate _ _ zeroed ?_
      rw [hblock]
      rw [hmemory] at hout
      exact hzero.2 _ hout

/-- An owner without a block that is asked for one. -/
theorem sensitiveMemoryAllocate_eq {storage : SensitiveMemory} (hinit : storage.initialized = true)
    (hsound : storage.storage.Sound) (hnone : storage.storage.memory = none)
    (arena : Arena) {size : ℕ} (hsize : size ≠ 0) :
    sensitiveMemoryAllocate storage arena size =
      match arena.allocate size with
      | (none, arena) => (.outOfMemory, storage, arena)
      | (some block, arena) =>
        (.ok, { storage with storage := { storage.storage with
          memory := some block, size, owned := true } }, arena) := by
  obtain ⟨storage, initialized⟩ := storage
  subst hinit
  have howned := hsound.owned
  dsimp only at hnone howned
  rw [hnone] at howned
  simp only [sensitiveMemoryAllocate, Bool.not_true, Bool.false_eq_true, if_false,
    ownedMemoryAllocate, howned, hnone, hsound.valid, Option.isSome_none, Bool.or_self,
      memoryAllocate, hsize]
  generalize arena.allocate size = reply
  obtain ⟨block, arena'⟩ := reply
  cases block <;> rfl

/-- Who owns a block gives it back, if the platform zeroes it. -/
theorem sensitiveMemoryRelease_eq_ok_iff (hinit : sensitiveMemory.initialized = true)
    (hsound : sensitiveMemory.storage.Sound) (arena : Arena) :
    (sensitiveMemoryRelease sensitiveMemory arena).1 = .ok ↔
      (sensitiveMemory.storage.owned = true → arena.answer.zeroed = true) := by
  have howned := hsound.owned
  unfold sensitiveMemoryRelease
  rw [hinit]
  simp only [Bool.not_true, Bool.false_eq_true, if_false]
  cases hcase : sensitiveMemory.storage.owned with
  | false => simp
  | true =>
    rw [hcase] at howned
    obtain ⟨block, hblock⟩ := Option.isSome_iff_exists.mp howned.symm
    simp only [hblock, Bool.not_true, Bool.false_eq_true, if_false, Arena.secureZero, forall_const]
    cases arena.answer.zeroed <;> simp

end Sensitive

/-! ## Moves -/

/-- **What somebody did to the arena** who had some blocks before and has some after, whatever
blocks the others have. -/
structure Arena.Moves (arena : Arena) (before after : List ℕ) (arena' : Arena) : Prop where
  answers : arena'.answers = arena.answers
  wiped : arena.Wiped → arena'.Wiped
  holds : ∀ others, arena.Holds (before ++ others) → arena'.Holds (after ++ others)

/-- The platform zeroes what it is asked to. -/
def Arena.Zeroes (arena : Arena) : Prop := ∀ n, (arena.answers n).zeroed = true

/-- There is memory, and the platform zeroes it. -/
def Arena.Generous (arena : Arena) : Prop := (∀ n, (arena.answers n).granted = true) ∧ arena.Zeroes

theorem Arena.Generous.granted {arena : Arena} (h : arena.Generous) :
    arena.answer.granted = true := h.1 _

namespace Arena.Moves

variable {arena arena' arena'' : Arena} {before between after before' after' : List ℕ}

theorem refl (arena : Arena) (held : List ℕ) : arena.Moves held held arena := ⟨rfl, id, fun _ => id⟩

/-- Two moves are one. -/
theorem trans (h : arena.Moves before between arena') (h' : arena'.Moves between after arena'') :
    arena.Moves before after arena'' :=
  ⟨h'.answers.trans h.answers, h'.wiped ∘ h.wiped,
    fun others hout => h'.holds others (h.holds others hout)⟩

theorem perm (h : arena.Moves before after arena') (hbefore : before'.Perm before)
    (hafter : after'.Perm after) : arena.Moves before' after' arena' :=
  ⟨h.answers, h.wiped, fun others hout =>
    (h.holds others (hout.perm (hbefore.symm.append_right others))).perm
      (hafter.append_right others)⟩

/-- **Nobody else's blocks are touched.** -/
theorem frame (h : arena.Moves before after arena') (held : List ℕ) :
    arena.Moves (before ++ held) (after ++ held) arena' := by
  refine ⟨h.answers, h.wiped, fun others hout => ?_⟩
  rw [List.append_assoc] at hout ⊢
  exact h.holds _ hout

/-- An arena that zeroes goes on to. -/
theorem zeroes (h : arena.Moves before after arena') (hzeroes : arena.Zeroes) :
    arena'.Zeroes := fun n => by
  rw [h.answers]
  exact hzeroes n

/-- An arena that grants all goes on to. -/
theorem generous (h : arena.Moves before after arena') (hgenerous : arena.Generous) :
    arena'.Generous :=
  ⟨fun n => by rw [h.answers]; exact hgenerous.1 n, h.zeroes hgenerous.2⟩

end Arena.Moves

section Moves

variable {sensitiveMemory : SensitiveMemory}

theorem Arena.allocate_answers (arena : Arena) (size : ℕ) :
    (arena.allocate size).2.answers = arena.answers := by
  unfold Arena.allocate
  split <;> rfl

theorem memoryAllocate_answers (allocator : Allocator) (arena : Arena) (size : ℕ) :
    (memoryAllocate allocator arena size).2.2.answers = arena.answers := by
  have hanswers := arena.allocate_answers size
  unfold memoryAllocate
  split
  · rfl
  split
  · rfl
  generalize arena.allocate size = reply at hanswers ⊢
  obtain ⟨block, arena'⟩ := reply
  cases block <;> exact hanswers

/-- Whatever is asked, the answers of the arena are its own. -/
theorem ownedMemoryAllocate_answers (ownedMemory : OwnedMemory) (arena : Arena) (size : ℕ) :
    (ownedMemoryAllocate ownedMemory arena size).2.2.answers = arena.answers := by
  have hanswers := memoryAllocate_answers ownedMemory.allocator arena size
  unfold ownedMemoryAllocate
  split
  · rfl
  generalize memoryAllocate ownedMemory.allocator arena size = reply at hanswers ⊢
  obtain ⟨result, memory, arena'⟩ := reply
  cases result <;> exact hanswers

/-- **What an allocation moves.** -/
theorem sensitiveMemoryAllocate_moves (h : sensitiveMemory.storage.Sound)
    (arena : Arena) (size : ℕ) :
    ∃ result storage arena', sensitiveMemoryAllocate sensitiveMemory arena size =
        (result, { sensitiveMemory with storage }, arena') ∧ storage.Sound ∧
      arena.Moves (addressesOf sensitiveMemory.storage.memory)
        (addressesOf storage.memory) arena' := by
  obtain ⟨result, storage, arena', heq, hsound, hfreed, hholds⟩ :=
    ownedMemoryAllocate_spec h arena size
  have hanswers := ownedMemoryAllocate_answers sensitiveMemory.storage arena size
  rw [heq] at hanswers
  unfold sensitiveMemoryAllocate
  split
  · exact ⟨_, _, _, rfl, h, .refl _ _⟩
  · rw [heq]
    exact ⟨_, _, _, rfl, hsound, hanswers,
      fun hwiped block hblock => hwiped block (hfreed ▸ hblock), hholds⟩

/-- An owner with a block. -/
def SensitiveMemory.withBlock (memory : SensitiveMemory) (block : MemoryBlock) : SensitiveMemory :=
  { memory with storage := { memory.storage with
    memory := some block, size := block.bytes.length, owned := true } }

/-- **An owner without a block is given one, or there is no memory.** -/
theorem sensitiveMemoryAllocate_cases (hinit : sensitiveMemory.initialized = true)
    (h : sensitiveMemory.storage.Sound) (hnone : sensitiveMemory.storage.memory = none)
    (arena : Arena) {size : ℕ} (hsize : size ≠ 0) :
    (arena.answer.granted = true ∧ ∃ block arena',
      sensitiveMemoryAllocate sensitiveMemory arena size =
        (.ok, sensitiveMemory.withBlock block, arena') ∧ block.bytes.length = size ∧
      arena.Moves [] [block.address] arena') ∨
    (arena.answer.granted = false ∧ ∃ arena', sensitiveMemoryAllocate sensitiveMemory arena size =
        (.outOfMemory, sensitiveMemory, arena') ∧ arena.Moves [] [] arena') := by
  obtain ⟨result, storage, arena', heq, -, hmoves⟩ := sensitiveMemoryAllocate_moves h arena size
  have hallocate := sensitiveMemoryAllocate_eq hinit h hnone arena hsize
  rw [hnone, addressesOf_none] at hmoves
  rw [Arena.allocate] at hallocate
  have hsame := heq.symm.trans hallocate
  cases hgranted : arena.answer.granted with
  | false =>
    simp only [hgranted, Bool.false_eq_true, if_false] at hallocate hsame
    obtain ⟨-, hstorage, rfl⟩ : _ ∧ _ ∧ _ := by simpa only [Prod.mk.injEq] using hsame
    have hkeep : storage = sensitiveMemory.storage := congrArg SensitiveMemory.storage hstorage
    rw [hkeep, hnone] at hmoves
    exact .inr ⟨rfl, _, hallocate, hmoves⟩
  | true =>
    simp only [hgranted, if_true] at hallocate hsame
    obtain ⟨-, hstorage, rfl⟩ : _ ∧ _ ∧ _ := by simpa only [Prod.mk.injEq] using hsame
    let block : MemoryBlock := ⟨arena.requests, (List.range size).map arena.answer.fill⟩
    have hlength : block.bytes.length = size := by rw [List.length_map, List.length_range]
    have hkeep : storage.memory = some block := congrArg (·.storage.memory) hstorage
    rw [hkeep] at hmoves
    refine .inl ⟨rfl, block, _, ?_, hlength, hmoves⟩
    rw [hallocate, SensitiveMemory.withBlock, hlength]

theorem Arena.secureZero_answers (arena : Arena) (block : MemoryBlock) (size : ℕ) :
    (arena.secureZero block size).2.2.answers = arena.answers := by
  unfold Arena.secureZero
  split <;> rfl

theorem ownedMemoryRelease_answers (ownedMemory : OwnedMemory) (arena : Arena) :
    (ownedMemoryRelease ownedMemory arena).2.answers = arena.answers := by
  unfold ownedMemoryRelease
  split
  · rfl
  · cases ownedMemory.memory with
    | none => rfl
    | some block =>
      dsimp only [memoryRelease]
      split <;> rfl

theorem sensitiveMemoryRelease_answers (sensitiveMemory : SensitiveMemory) (arena : Arena) :
    (sensitiveMemoryRelease sensitiveMemory arena).2.2.answers = arena.answers := by
  unfold sensitiveMemoryRelease
  split
  · rfl
  split
  · rfl
  split
  · rfl
  · rename_i block hblock
    have hzero := arena.secureZero_answers block sensitiveMemory.storage.size
    split
    · rename_i heq
      rw [heq] at hzero
      exact hzero
    · rename_i block arena' heq
      rw [heq] at hzero
      exact (ownedMemoryRelease_answers _ _).trans hzero

/-- **What a release moves**: the block goes, or it stays as it was. -/
theorem sensitiveMemoryRelease_moves (hinit : sensitiveMemory.initialized = true)
    (h : sensitiveMemory.storage.Sound) (arena : Arena) :
    ∃ result sensitiveMemory' arena', sensitiveMemoryRelease sensitiveMemory arena =
        (result, sensitiveMemory', arena') ∧
      arena.Moves (addressesOf sensitiveMemory.storage.memory)
        (addressesOf sensitiveMemory'.storage.memory) arena' ∧
      sensitiveMemory'.storage.Sound ∧
      (result = .ok → sensitiveMemory'.storage.memory = none) ∧
      (result ≠ .ok → sensitiveMemory' = sensitiveMemory) ∧
      (arena.Zeroes → result = .ok) := by
  obtain ⟨result, sensitiveMemory', arena', heq, hsound, hwiped, hholds, hgone, hstays⟩ :=
    sensitiveMemoryRelease_spec h arena
  have hanswers := sensitiveMemoryRelease_answers sensitiveMemory arena
  have hok := sensitiveMemoryRelease_eq_ok_iff hinit h arena
  rw [heq] at hanswers hok
  exact ⟨_, _, _, heq, ⟨hanswers, hwiped, hholds⟩, hsound, hgone, fun hfailed => (hstays hfailed).1,
    fun hzeroes => hok.mpr fun _ => hzeroes _⟩

/-- **A block for a while**: what was moved beside it stays when it goes, and it is lost only if it
could not be zeroed. -/
theorem Arena.Moves.releaseScratch {arena between after : Arena} {held : List ℕ}
    (hinit : sensitiveMemory.initialized = true) (h : sensitiveMemory.storage.Sound)
    (hbefore : arena.Moves [] (addressesOf sensitiveMemory.storage.memory) between)
    (hafter : between.Moves [] held after) :
    ∃ result sensitiveMemory' arena', sensitiveMemoryRelease sensitiveMemory after =
        (result, sensitiveMemory', arena') ∧
      (∃ lost, arena.Moves [] (held ++ lost) arena' ∧ (arena.Zeroes → lost = [])) ∧
      (arena.Zeroes → result = .ok) := by
  obtain ⟨result, sensitiveMemory', arena', heq, hmoves, -, hgone, -, hok⟩ :=
    sensitiveMemoryRelease_moves hinit h after
  have hboth := hbefore.trans (hafter.frame (addressesOf sensitiveMemory.storage.memory))
  have hzeroes (hzero : arena.Zeroes) : result = .ok := hok (hboth.zeroes hzero)
  refine ⟨_, _, _, heq, ⟨addressesOf sensitiveMemory'.storage.memory, ?_, fun hzero => ?_⟩, hzeroes⟩
  · exact hboth.trans ((hmoves.frame held).perm List.perm_append_comm List.perm_append_comm)
  · rw [hgone (hzeroes hzero), addressesOf_none]

end Moves

/-! ## A run -/

/-- A sensitive memory, with the blocks that its user got from the allocator and did not hand
over. -/
structure SensitiveSystem where
  memory : SensitiveMemory
  arena : Arena
  loose : List MemoryBlock

/-- What the user of a sensitive memory does. -/
inductive SensitiveEvent
  | allocate (size : ℕ)
  /-- A block of the same allocator. -/
  | take (size : ℕ)
  | adopt (address : ℕ)
  /-- The user writes through `vps_sensitive_memory_data`. -/
  | write (offset : ℕ) (bytes : List UInt8)
  | release

namespace SensitiveSystem

/-- A memory that was initialised. -/
def start (allocator : Allocator) (answers : ℕ → MemoryAnswer) : SensitiveSystem :=
  ⟨⟨⟨allocator, none, 0, false⟩, true⟩, .fresh answers, []⟩

/-- **One operation.** -/
def step (s : SensitiveSystem) : SensitiveEvent → SensitiveSystem
  | .allocate size =>
    let (_, memory, arena) := sensitiveMemoryAllocate s.memory s.arena size
    { s with memory, arena }
  | .take size =>
    let (_, block, arena) := memoryAllocate s.memory.storage.allocator s.arena size
    { s with arena, loose := block.toList ++ s.loose }
  | .adopt address =>
    match s.loose.find? (·.address == address) with
    | none => s
    | some block =>
      match sensitiveMemoryAdopt s.memory (some block) block.bytes.length with
      | (.ok, memory) => { s with memory, loose := s.loose.eraseP (·.address == address) }
      | (_, memory) => { s with memory }
  | .write offset bytes =>
    match sensitiveMemoryData s.memory with
    | none => s
    | some block =>
      match writeAt block.bytes offset bytes with
      | .error _ => s
      | .ok bytes =>
        { s with memory.storage.memory := some { block with bytes } }
  | .release =>
    let (_, memory, arena) := sensitiveMemoryRelease s.memory s.arena
    { s with memory, arena }

/-- The blocks that are out. -/
def held (s : SensitiveSystem) : List ℕ :=
  addressesOf s.memory.storage.memory ++ s.loose.map MemoryBlock.address

/-- **What holds at any time.** -/
structure Sound (s : SensitiveSystem) : Prop where
  initialized : s.memory.initialized = true
  storage : s.memory.storage.Sound
  holds : s.arena.Holds s.held
  wiped : s.arena.Wiped

namespace Sound

variable {s : SensitiveSystem}

theorem start {allocator : Allocator} (h : allocatorIsValid allocator = true)
    (answers : ℕ → MemoryAnswer) : Sound (start allocator answers) :=
  ⟨rfl, .start h, .fresh answers, List.forall_mem_nil _⟩

/-- **Every event keeps the object sound**, as allocating does. -/
theorem allocate (h : Sound s) (size : ℕ) : Sound (s.step (.allocate size)) := by
  obtain ⟨result, storage, arena, heq, hstorage, hfreed, hholds⟩ :=
    ownedMemoryAllocate_spec h.storage s.arena size
  have hinit := h.initialized
  have hstep : s.step (.allocate size) = { s with memory.storage := storage, arena } := by
    simp [step, sensitiveMemoryAllocate, hinit, heq]
  rw [hstep]
  exact ⟨hinit, hstorage, hholds _ h.holds, fun block hblock => h.wiped block (hfreed ▸ hblock)⟩

theorem take (h : Sound s) (size : ℕ) : Sound (s.step (.take size)) := by
  obtain ⟨result, memory, arena, heq, hfreed, hholds, -, -⟩ :=
    memoryAllocate_spec h.storage.valid s.arena size
  have hstep : s.step (.take size) = { s with arena, loose := memory.toList ++ s.loose } := by
    simp [step, heq]
  rw [hstep]
  refine ⟨h.initialized, h.storage, (hholds _ h.holds).perm ?_,
    fun block hblock => h.wiped block (hfreed ▸ hblock)⟩
  simp only [held, List.map_append]
  exact List.perm_append_comm_assoc _ _ _

/-- An adopted block keeps it sound. -/
theorem adopt (h : Sound s) (address : ℕ) : Sound (s.step (.adopt address)) := by
  unfold step
  dsimp only
  split
  · exact h
  rename_i block hfind
  obtain ⟨result, storage, heq, hstorage, hcases⟩ := ownedMemoryAdopt_spec h.storage block
  have hadopt : sensitiveMemoryAdopt s.memory (some block) block.bytes.length =
      (secureMemoryFromMemoryResult result, { s.memory with storage }) := by
    simp [sensitiveMemoryAdopt, h.initialized, heq]
  rw [hadopt]
  rcases hcases with ⟨rfl, hbefore, hafter⟩ | ⟨hresult, rfl⟩
  · have hholds := h.holds
    rw [held, hbefore, addressesOf_none, List.nil_append] at hholds
    have hperm := (perm_eraseP_of_find? hfind).map MemoryBlock.address
    refine ⟨h.initialized, hstorage, ?_, h.wiped⟩
    show s.arena.Holds (addressesOf storage.memory ++ _)
    rw [hafter]
    exact hholds.perm hperm.symm
  · cases result with
    | ok => exact absurd rfl hresult
    | invalidArgument | overflow | limitExceeded | outOfMemory | rangeError => exact h

/-- A write keeps it sound. -/
theorem write (h : Sound s) (offset : ℕ) (bytes : List UInt8) :
    Sound (s.step (.write offset bytes)) := by
  unfold step
  dsimp only
  split
  · exact h
  split
  · exact h
  rename_i block hdata _ written hwrite
  have hmemory : s.memory.storage.memory = some block := by
    unfold sensitiveMemoryData at hdata
    split at hdata
    · cases hdata
    · exact hdata
  have hlength : written.length = block.bytes.length := by
    unfold writeAt at hwrite
    split at hwrite
    · cases hwrite
      simp only [List.length_append, List.length_take, List.length_drop]
      omega
    · cases hwrite
  have howned := h.storage.owned
  refine ⟨h.initialized, ⟨h.storage.valid, by rw [howned, hmemory]; rfl, ?_⟩, ?_, h.wiped⟩
  · rintro _ ⟨⟩
    exact (h.storage.size block hmemory).trans hlength.symm
  · have hholds := h.holds
    rw [held, hmemory] at hholds
    exact hholds

/-- A release keeps it sound. -/
theorem release (h : Sound s) : Sound (s.step .release) := by
  obtain ⟨result, memory, arena, heq, hstorage, hwiped, hholds, -, -⟩ :=
    sensitiveMemoryRelease_spec h.storage s.arena
  have hinit : memory.initialized = s.memory.initialized := by
    have hfst := congrArg (fun r => r.2.1.initialized) heq
    unfold sensitiveMemoryRelease at hfst
    dsimp only at hfst
    (repeat' split at hfst) <;> exact hfst.symm
  have hstep : s.step .release = { s with memory, arena } := by simp [step, heq]
  rw [hstep]
  exact ⟨hinit.trans h.initialized, hstorage, hholds _ h.holds, hwiped h.wiped⟩

theorem step (h : Sound s) (e : SensitiveEvent) : Sound (s.step e) := by
  cases e with
  | allocate size => exact h.allocate size
  | take size => exact h.take size
  | adopt address => exact h.adopt address
  | write offset bytes => exact h.write offset bytes
  | release => exact h.release

/-- Any run keeps it sound. -/
theorem run (h : Sound s) (es : List SensitiveEvent) : Sound (es.foldl SensitiveSystem.step s) := by
  induction es generalizing s with
  | nil => exact h
  | cons e es ih => exact ih (h.step e)

end Sound

end SensitiveSystem

/-- **Secrets are wiped**: whatever is done with a sensitive memory, and whatever the allocator and
the platform answer, every block the allocator gets back holds zeros, it gets no block twice, and
the blocks that it did not get back are the one that is owned and those that were not handed
over. -/
theorem sensitive_memory_wiped {allocator : Allocator} (hvalid : allocatorIsValid allocator = true)
    (answers : ℕ → MemoryAnswer) (es : List SensitiveEvent) :
    let s := es.foldl SensitiveSystem.step (SensitiveSystem.start allocator answers)
    (∀ block ∈ s.arena.freed, ∀ byte ∈ block.bytes, byte = 0) ∧ s.arena.log.Nodup ∧ s.held.Nodup ∧
      ∀ address, address ∈ s.held ↔
        .acquired address ∈ s.arena.log ∧ ∀ block ∈ s.arena.freed, block.address ≠ address := by
  intro s
  have h : SensitiveSystem.Sound s := (SensitiveSystem.Sound.start hvalid answers).run es
  exact ⟨h.wiped, h.holds.ledger.nodup, h.holds.ledger.nodup_held_and.1, fun _ => h.holds.mem_held⟩

/-- A secret is written, zeroing fails, and succeeds the next time. -/
theorem sensitive_memory_wiped_retry :
    let answers : ℕ → MemoryAnswer := fun i => ⟨true, fun _ => 255, i ≠ 1⟩
    let s := [SensitiveEvent.allocate 2, .write 0 [112, 119], .release, .release].foldl
      SensitiveSystem.step (SensitiveSystem.start ⟨some .system, true, true, true⟩ answers)
    (∀ block ∈ s.arena.freed, ∀ byte ∈ block.bytes, byte = 0) ∧ s.arena.log.Nodup ∧ s.held.Nodup ∧
      ∀ address, address ∈ s.held ↔
        .acquired address ∈ s.arena.log ∧ ∀ block ∈ s.arena.freed, block.address ≠ address :=
  sensitive_memory_wiped (by decide) _ _

end Vps
