import VirtualPostgreSQL.Memory.Ownership

/-!
# Memory/Buffer — a buffer is a bounded text

`VpsBuffer` keeps a block, its capacity and how much of it is used.  Over any run it holds what the
appends that succeeded have appended since the last reset, within its limit, and no copy leaves its
block (`buffer_refines_text`); an append that fails leaves it as it is.
-/

namespace Vps

open Machinery

/-- **A buffer knows its block.** -/
structure Buffer.Sound (buffer : Buffer) : Prop where
  valid : allocatorIsValid buffer.allocator = true
  size : buffer.size ≤ buffer.capacity
  capacity : buffer.capacity ≤ buffer.limit
  limit : buffer.limit ≤ sizeMax
  data : (buffer.data = none ∧ buffer.capacity = 0) ∨
    ∃ block, buffer.data = some block ∧ block.bytes.length = buffer.capacity

/-- The bytes that a buffer holds. -/
def Buffer.contents (buffer : Buffer) : List UInt8 :=
  ((buffer.data.map MemoryBlock.bytes).getD []).take buffer.size

section Operations

variable {buffer : Buffer}

theorem Buffer.Sound.length_contents (h : buffer.Sound) : buffer.contents.length = buffer.size := by
  have hsize := h.size
  rcases h.data with ⟨hnone, hzero⟩ | ⟨block, hblock, hlength⟩
  · rw [Buffer.contents, hnone]
    simp
    omega
  · rw [Buffer.contents, hblock]
    simp
    omega

/-- What a reallocation leaves out is what it started from, or the block it gives. -/
theorem memoryReallocate_spec {allocator : Allocator} (hvalid : allocatorIsValid allocator = true)
    (arena : Arena) (memory : Option MemoryBlock) {newSize : ℕ} (hpos : newSize ≠ 0) :
    ∃ result memory' arena', memoryReallocate allocator arena memory newSize =
        (result, memory', arena') ∧ arena'.freed = arena.freed ∧
      (∀ others, arena.Holds (addressesOf memory ++ others) →
        arena'.Holds (addressesOf memory' ++ others)) ∧
      ((result = .ok ∧ ∃ block, memory' = some block ∧ block.bytes.length = newSize ∧
          ((memory.map MemoryBlock.bytes).getD []).take newSize <+: block.bytes) ∨
        (result = .outOfMemory ∧ memory' = memory)) := by
  simp only [memoryReallocate, hvalid, Bool.not_true, Bool.false_eq_true, if_false, hpos]
  cases memory with
  | none =>
    obtain ⟨result, memory', arena', heq, hfreed, hholds, hsome, hnone⟩ :=
      memoryAllocate_spec hvalid arena newSize
    refine ⟨result, memory', arena', heq, hfreed, hholds, ?_⟩
    cases memory' with
    | none =>
      rcases hnone rfl with ⟨-, hzero⟩ | hresult
      · exact absurd hzero hpos
      · exact .inr ⟨hresult, rfl⟩
    | some block =>
      obtain ⟨hresult, hlength⟩ := hsome block rfl
      refine .inl ⟨hresult, block, rfl, hlength, ?_⟩
      simp
  | some block =>
    obtain ⟨reply, arena', heq, hfreed, hholds, hresized⟩ := arena.reallocate_cases block newSize
    simp only [heq]
    cases reply with
    | none => exact ⟨_, _, _, rfl, hfreed, fun _ => hholds _, .inr ⟨rfl, rfl⟩⟩
    | some resized =>
      obtain ⟨haddress, hlength, hprefix⟩ := hresized resized rfl
      refine ⟨_, _, _, rfl, hfreed, fun others hout => ?_,
        .inl ⟨rfl, resized, rfl, hlength, hprefix⟩⟩
      rw [addressesOf_some, haddress]
      exact hholds _ hout

/-- **What a reserve does**: room, and the same contents; or nothing. -/
theorem bufferReserve_spec (h : buffer.Sound) (arena : Arena) (capacity : ℕ) :
    ∃ result buffer' arena', bufferReserve buffer arena capacity = (result, buffer', arena') ∧
      buffer'.Sound ∧ arena'.freed = arena.freed ∧
      (∀ others, arena.Holds (addressesOf buffer.data ++ others) →
        arena'.Holds (addressesOf buffer'.data ++ others)) ∧
      ((result = .ok ∧ capacity ≤ buffer'.capacity ∧ buffer'.contents = buffer.contents ∧
          buffer'.size = buffer.size ∧ buffer'.limit = buffer.limit ∧
          buffer'.allocator = buffer.allocator) ∨
        (result = .limitExceeded ∧ buffer.limit < capacity ∧ buffer' = buffer) ∨
        (result = .outOfMemory ∧ capacity ≤ buffer.limit ∧ buffer' = buffer)) := by
  simp only [bufferReserve, h.valid, Bool.not_true, Bool.false_eq_true, if_false]
  split
  · rename_i hlimit
    exact ⟨_, _, _, rfl, h, rfl, fun _ hout => hout, .inr (.inl ⟨rfl, hlimit, rfl⟩)⟩
  rename_i hlimit
  split
  · rename_i hroom
    exact ⟨_, _, _, rfl, h, rfl, fun _ hout => hout, .inl ⟨rfl, hroom, rfl, rfl, rfl, rfl⟩⟩
  rename_i hroom
  have hsize := h.size
  obtain ⟨result, data, arena', heq, hfreed, hholds, hcases⟩ :=
    memoryReallocate_spec h.valid arena buffer.data (show capacity ≠ 0 by omega)
  rw [heq]
  rcases hcases with ⟨rfl, block, rfl, hlength, hprefix⟩ | ⟨rfl, rfl⟩
  · refine ⟨_, _, _, rfl, ⟨h.valid, ?_, ?_, h.limit, .inr ⟨block, rfl, hlength⟩⟩, hfreed, hholds,
      .inl ⟨rfl, le_rfl, ?_, rfl, rfl, rfl⟩⟩
    · show buffer.size ≤ capacity
      omega
    · show capacity ≤ buffer.limit
      omega
    · obtain ⟨rest, hrest⟩ := hprefix
      -- the bytes in use are among those that are kept
      have hlong :
        buffer.size ≤ (((buffer.data.map MemoryBlock.bytes).getD []).take capacity).length := by
        have hcontents := h.length_contents
        rw [Buffer.contents, List.length_take] at hcontents
        rw [List.length_take]
        omega
      show block.bytes.take buffer.size = buffer.contents
      rw [← hrest, List.take_append_of_le_length hlong, List.take_take, Buffer.contents]
      congr 1
      omega
  · exact ⟨_, _, _, rfl, h, hfreed, hholds, .inr (.inr ⟨rfl, by omega, rfl⟩)⟩

/-- **What an append does**: the bytes behind the contents, or nothing. -/
theorem bufferAppend_spec (h : buffer.Sound) (arena : Arena) {data : List UInt8} {size : ℕ}
    (hdata : size ≤ data.length) :
    ∃ result buffer' arena', bufferAppendBytes buffer arena (some data) size =
      .ok (result, buffer', arena') ∧
      buffer'.Sound ∧ arena'.freed = arena.freed ∧
      (∀ others, arena.Holds (addressesOf buffer.data ++ others) →
        arena'.Holds (addressesOf buffer'.data ++ others)) ∧
      buffer'.limit = buffer.limit ∧ buffer'.allocator = buffer.allocator ∧
      ((result = .ok ∧ buffer.size + size ≤ buffer.limit ∧
          buffer'.contents = buffer.contents ++ data.take size) ∨
        (result ≠ .ok ∧ buffer' = buffer ∧
          (result = .overflow ↔ sizeMax < buffer.size + size) ∧
          (result = .limitExceeded ↔ buffer.size + size ≤ sizeMax ∧
            buffer.limit < buffer.size + size))) := by
  simp only [bufferAppendBytes, reduceCtorEq, false_and, if_false, sizeAdd]
  by_cases hover : size > sizeMax - buffer.size
  · rw [if_pos hover]
    refine ⟨.overflow, buffer, arena, rfl, h, rfl, fun _ hout => hout, rfl, rfl,
      .inr ⟨by decide, rfl, ?_, ?_⟩⟩
    · exact iff_of_true rfl (by omega)
    · exact iff_of_false (by decide) (by omega)
  rw [if_neg hover]
  obtain ⟨result, buffer', arena', heq, hsound, hfreed, hholds, hcases⟩ :=
    bufferReserve_spec h arena (buffer.size + size)
  have hcapacity := hsound.capacity
  have hsize := h.size
  have hbound := h.capacity.trans h.limit
  simp only [heq]
  rcases hcases with ⟨rfl, hroom, hcontents, hsame, hlimit, hallocator⟩ | ⟨rfl, hlimit,
    rfl⟩ | ⟨rfl, hlimit, rfl⟩
  · dsimp only
    by_cases hzero : size = 0
    · rw [if_neg (not_not_intro hzero)]
      refine ⟨_, _, _, rfl, hsound, hfreed, hholds, hlimit, hallocator, .inl ⟨rfl, ?_, ?_⟩⟩
      · rw [← hlimit]
        exact hroom.trans hcapacity
      · rw [hcontents, hzero, List.take_zero, List.append_nil]
    rw [if_pos hzero]
    obtain ⟨block, hblock, hlength⟩ : ∃ block, buffer'.data = some block ∧
        block.bytes.length = buffer'.capacity :=
      hsound.data.resolve_left fun hnone => by omega
    have hcopied : (data.take size).length = size := List.length_take_of_le hdata
    have hwrite : writeAt block.bytes buffer'.size (data.take size) =
        .ok (block.bytes.take buffer'.size ++ data.take size ++
          block.bytes.drop (buffer'.size + size)) := by
      rw [writeAt, if_pos (by rw [hcopied, hsame]; omega), hcopied]
    simp only [hblock, sliceAt, Nat.zero_add, hdata, if_true, List.drop_zero, ok_bind, hwrite]
    have hused : (block.bytes.take buffer'.size).length = buffer'.size :=
      List.length_take_of_le (by omega)
    refine ⟨_, _, _, rfl, ⟨hsound.valid, ?_, hcapacity, hsound.limit, .inr ⟨_, rfl, ?_⟩⟩, hfreed,
      fun others hout => ?_, hlimit, hallocator, .inl ⟨rfl, ?_, ?_⟩⟩
    · show buffer.size + size ≤ buffer'.capacity
      exact hroom
    · show (block.bytes.take buffer'.size ++ data.take size ++ _).length = buffer'.capacity
      rw [List.length_append, List.length_append, hused, hcopied, List.length_drop]
      omega
    · have hnext := hholds others hout
      rw [hblock] at hnext
      exact hnext
    · rw [← hlimit]
      exact hroom.trans hcapacity
    · show (block.bytes.take buffer'.size ++ data.take size ++ _).take (buffer.size + size) = _
      rw [← hcontents, Buffer.contents, hblock, ← hsame]
      refine List.take_left' ?_
      rw [List.length_append, hused, hcopied]
  · refine ⟨_, _, _, rfl, h, hfreed, hholds, rfl, rfl, .inr ⟨by decide, rfl, ?_, ?_⟩⟩
    · exact iff_of_false (by decide) (by omega)
    · exact iff_of_true rfl ⟨by omega, hlimit⟩
  · refine ⟨_, _, _, rfl, h, hfreed, hholds, rfl, rfl, .inr ⟨by decide, rfl, ?_, ?_⟩⟩
    · exact iff_of_false (by decide) (by omega)
    · exact iff_of_false (by decide) (by omega)

/-- **What a reset does.** -/
theorem bufferReset_spec (h : buffer.Sound) (arena : Arena) :
    (bufferReset buffer arena).1 = { buffer with data := none, size := 0, capacity := 0 } ∧
      (bufferReset buffer arena).1.Sound ∧
      ∀ others, arena.Holds (addressesOf buffer.data ++ others) →
        (bufferReset buffer arena).2.Holds others := by
  refine ⟨rfl, ⟨h.valid, le_rfl, Nat.zero_le _, h.limit, .inl ⟨rfl, rfl⟩⟩, fun others hout => ?_⟩
  rcases hdata : buffer.data with _ | block
  · simpa [bufferReset, memoryRelease, hdata] using hout
  · rw [hdata] at hout
    simp only [bufferReset, memoryRelease, hdata, h.valid, Bool.not_true,
      Bool.false_eq_true, if_false]
    exact Arena.Holds.deallocate hout

end Operations

/-! ## A run -/

/-- What the user of a buffer does. -/
inductive BufferEvent
  | reserve (capacity : ℕ)
  /-- An append of so many of the bytes. -/
  | append (data : List UInt8) (size : ℕ)
  | reset

/-- A buffer, its arena, and the text that its user has been told to be in it. -/
structure BufferSystem where
  buffer : Buffer
  arena : Arena
  text : List UInt8

namespace BufferSystem

/-- A buffer that was initialised. -/
def start (allocator : Allocator) (limit : ℕ) (answers : ℕ → MemoryAnswer) : BufferSystem :=
  ⟨⟨allocator, none, 0, 0, limit⟩, .fresh answers, []⟩

/-- **One operation**; the text follows the result that is reported. -/
def step (s : BufferSystem) : BufferEvent → Buffered BufferSystem
  | .reserve capacity =>
    let (_, buffer, arena) := bufferReserve s.buffer s.arena capacity
    return { s with buffer, arena }
  | .append data size => do
    let (result, buffer, arena) ← bufferAppendBytes s.buffer s.arena (some data) size
    return ⟨buffer, arena, if result = .ok then s.text ++ data.take size else s.text⟩
  | .reset =>
    let (buffer, arena) := bufferReset s.buffer s.arena
    return ⟨buffer, arena, []⟩

/-- The bytes of an append are there. -/
def Readable : BufferEvent → Prop
  | .append data size => size ≤ data.length
  | _ => True

/-- **What holds at any time.** -/
structure Sound (limit : ℕ) (s : BufferSystem) : Prop where
  buffer : s.buffer.Sound
  limit : s.buffer.limit = limit
  holds : s.arena.Holds (addressesOf s.buffer.data)
  text : s.buffer.contents = s.text

theorem Sound.step {limit : ℕ} {s : BufferSystem} (h : Sound limit s) {e : BufferEvent}
    (hread : Readable e) : ∃ s', s.step e = .ok s' ∧ Sound limit s' := by
  have hout : s.arena.Holds (addressesOf s.buffer.data ++ []) := by
    rw [List.append_nil]
    exact h.holds
  cases e with
  | reserve capacity =>
    obtain ⟨result, buffer, arena, heq, hsound, -, hholds, hcases⟩ :=
      bufferReserve_spec h.buffer s.arena capacity
    have hnext := hholds [] hout
    rw [List.append_nil] at hnext
    refine ⟨⟨buffer, arena, s.text⟩, by
      simp only [BufferSystem.step, heq]; rfl, hsound, ?_, hnext, ?_⟩
    · rcases hcases with ⟨-, -, -, -, hlimit, -⟩ | ⟨-, -, rfl⟩ | ⟨-, -, rfl⟩
      · exact hlimit.trans h.limit
      · exact h.limit
      · exact h.limit
    · rcases hcases with ⟨-, -, hcontents, -⟩ | ⟨-, -, rfl⟩ | ⟨-, -, rfl⟩
      · exact hcontents.trans h.text
      · exact h.text
      · exact h.text
  | append data size =>
    obtain ⟨result, buffer, arena, heq, hsound, -, hholds, hlimit, -, hcases⟩ :=
      bufferAppend_spec h.buffer s.arena hread
    have hnext := hholds [] hout
    rw [List.append_nil] at hnext
    refine ⟨⟨buffer, arena, if result = .ok then s.text ++ data.take size else s.text⟩, ?_, hsound,
      hlimit.trans h.limit, hnext, ?_⟩
    · simp only [BufferSystem.step, heq]
      rfl
    · rcases hcases with ⟨rfl, -, hcontents⟩ | ⟨hresult, rfl, -⟩
      · rw [if_pos rfl, hcontents, h.text]
      · rw [if_neg hresult]
        exact h.text
  | reset =>
    obtain ⟨heq, hsound, hholds⟩ := bufferReset_spec h.buffer s.arena
    exact ⟨⟨_, _, []⟩, rfl, hsound, h.limit, hholds [] hout, rfl⟩

end BufferSystem

/-- **A buffer is a bounded text**: over any run of reserves, appends and resets, and whatever the
allocator answers, no copy leaves its block, the buffer holds exactly the bytes of the appends that
reported success since the last reset, never more than its limit, and it owns every block that is
out. -/
theorem buffer_refines_text {allocator : Allocator} (hvalid : allocatorIsValid allocator = true)
    {limit : ℕ} (hlimit : limit ≤ sizeMax) (answers : ℕ → MemoryAnswer) (es : List BufferEvent)
    (hread : ∀ e ∈ es, BufferSystem.Readable e) :
    ∃ s, es.foldlM BufferSystem.step (BufferSystem.start allocator limit answers) = .ok s ∧
      s.buffer.contents = s.text ∧ s.text.length = s.buffer.size ∧
      s.buffer.size ≤ s.buffer.capacity ∧ s.buffer.capacity ≤ limit ∧
      s.arena.log.Nodup ∧ s.arena.Holds (addressesOf s.buffer.data) := by
  have hstart : BufferSystem.Sound limit (BufferSystem.start allocator limit answers) :=
    ⟨⟨hvalid, le_rfl, Nat.zero_le _, hlimit, .inl ⟨rfl, rfl⟩⟩, rfl, .fresh answers, rfl⟩
  suffices hrun : ∀ s, BufferSystem.Sound limit s →
      ∃ s', es.foldlM BufferSystem.step s = .ok s' ∧ BufferSystem.Sound limit s' by
    obtain ⟨s, hs, h⟩ := hrun _ hstart
    refine ⟨s, hs, h.text, ?_, h.buffer.size, h.limit ▸ h.buffer.capacity,
      h.holds.ledger.nodup, h.holds⟩
    rw [← h.text, h.buffer.length_contents]
  clear hstart
  induction es with
  | nil => exact fun s h => ⟨s, rfl, h⟩
  | cons e es ih =>
    intro s h
    obtain ⟨s', hstep, hs'⟩ := h.step (hread e List.mem_cons_self)
    obtain ⟨s'', hrest, hs''⟩ := ih (fun e he => hread e (List.mem_cons_of_mem _ he)) s' hs'
    exact ⟨s'', by rw [List.foldlM_cons, hstep, ok_bind, hrest], hs''⟩

/-- The second append does not fit, and the first one stays. -/
theorem buffer_refines_text_limit :
    let es := [BufferEvent.append [1, 2] 2, .append [3, 4] 2, .append [5] 1]
    ∃ s, es.foldlM BufferSystem.step
        (BufferSystem.start ⟨some .test, true, true, true⟩ 3 fun _ => ⟨true, fun _ => 0, true⟩) =
          .ok s ∧
      s.buffer.contents = s.text ∧ s.text.length = s.buffer.size ∧
      s.buffer.size ≤ s.buffer.capacity ∧ s.buffer.capacity ≤ 3 ∧
      s.arena.log.Nodup ∧ s.arena.Holds (addressesOf s.buffer.data) :=
  buffer_refines_text (by decide) (by decide) _ _ (by simp [BufferSystem.Readable])

end Vps
