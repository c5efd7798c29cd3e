import VirtualPostgreSQL.Arguments.Quoting
import VirtualPostgreSQL.Arguments.Storage
import VirtualPostgreSQL.Machinery.Mask

/-!
# Arguments/Stored — the block says what the arguments said

`StoredArguments.Represents` relates the block, its offsets and the presence mask to the values that
the texts stand for.  Each text keeps it (`argumentsParseOneInto_spec`), no byte is written outside
of the block, and so the loop over the texts agrees with a fold of the model
(`argumentsParseAll_spec`).
-/

namespace Vps

open Machinery

/-! ## Decoding -/

section Decoding

variable {input before space : List UInt8}

/-- One byte goes behind what was written. -/
theorem writeAt_byte (byte : UInt8) (hspace : space ≠ []) :
    writeAt (before ++ space) before.length [byte] = .ok (before ++ [byte] ++ space.drop 1) := by
  obtain ⟨old, rest, rfl⟩ := List.exists_cons_of_ne_nil hspace
  exact @writeAt_append _ before [old] rest [byte] rfl

/-- **The loop over a quoted value** writes what it unquotes. -/
theorem argumentUnquoteInto_spec (h : input.length ≤ space.length) :
    ∃ whole written, argumentUnquoteInto input (before ++ space) before.length =
        .ok (whole, before ++ written ++ space.drop written.length,
          before.length + written.length) ∧
      written.length ≤ input.length ∧
        argumentUnquote input = if whole then some written else none := by
  fun_induction argumentUnquote input generalizing before space with
  | case1 => exact ⟨true, [], by simp [argumentUnquoteInto]; rfl, le_rfl, rfl⟩
  | case2 => exact ⟨false, [], by simp [argumentUnquoteInto]; rfl, Nat.zero_le _, rfl⟩
  | case3 byte hbyte =>
    have hspace : space ≠ [] := by
      rintro rfl
      simp at h
    refine ⟨true, [byte], ?_, le_rfl, rfl⟩
    simp only [argumentUnquoteInto, hbyte, if_false, writeAt_byte byte hspace]
    rfl
  | case4 rest ih =>
    have hspace : space ≠ [] := by
      rintro rfl
      simp at h
    obtain ⟨whole, written, heq, hlength, hunquote⟩ := @ih (before ++ [39]) (space.drop 1)
      (by simp only [List.length_cons, List.length_drop] at h ⊢; omega)
    refine ⟨whole, 39 :: written, ?_, ?_, ?_⟩
    · rw [argumentUnquoteInto, if_pos rfl, if_pos rfl, writeAt_byte 39 hspace, ok_bind]
      simpa [List.append_assoc, Nat.add_assoc, Nat.add_comm 1] using heq
    · simp only [List.length_cons]
      omega
    · rw [hunquote]
      cases whole <;> rfl
  | case5 next rest hnext =>
    refine ⟨false, [], ?_, Nat.zero_le _, rfl⟩
    rw [argumentUnquoteInto, if_pos rfl, if_neg hnext]
    simp
    rfl
  | case6 byte next rest hbyte ih =>
    have hspace : space ≠ [] := by
      rintro rfl
      simp at h
    obtain ⟨whole, written, heq, hlength, hunquote⟩ := @ih (before ++ [byte]) (space.drop 1)
      (by simp only [List.length_cons, List.length_drop] at h ⊢; omega)
    refine ⟨whole, byte :: written, ?_, ?_, ?_⟩
    · rw [argumentUnquoteInto, if_neg hbyte, writeAt_byte byte hspace, ok_bind]
      simpa [List.append_assoc, Nat.add_assoc, Nat.add_comm 1] using heq
    · simp only [List.length_cons] at hlength ⊢
      omega
    · rw [hunquote]
      cases whole <;> rfl

/-- **The loop over a bare value** writes it. -/
theorem argumentBareInto_spec (h : input.length ≤ space.length) :
    ∃ written, argumentBareInto input (before ++ space) before.length =
        .ok (!input.contains 39, before ++ written ++ space.drop written.length,
          before.length + written.length) ∧
      written.length ≤ input.length ∧ (39 ∉ input → written = input) := by
  induction input generalizing before space with
  | nil => exact ⟨[], by simp [argumentBareInto]; rfl, le_rfl, fun _ => rfl⟩
  | cons byte rest ih =>
    by_cases hbyte : byte = 39
    · refine ⟨[], ?_, Nat.zero_le _, fun hmem => absurd (hbyte ▸ List.mem_cons_self) hmem⟩
      rw [argumentBareInto, if_pos hbyte]
      simp [hbyte]
      rfl
    · have hspace : space ≠ [] := by
        rintro rfl
        simp at h
      obtain ⟨written, heq, hlength, hsame⟩ := @ih (before ++ [byte]) (space.drop 1)
        (by simp only [List.length_cons, List.length_drop] at h ⊢; omega)
      refine ⟨byte :: written, ?_, ?_, fun hmem => ?_⟩
      · rw [argumentBareInto, if_neg hbyte, writeAt_byte byte hspace, ok_bind]
        have hcontains : (byte :: rest).contains 39 = rest.contains 39 := by
          rw [List.contains_cons, beq_eq_false_iff_ne.mpr (Ne.symm hbyte), Bool.false_or]
        rw [hcontains]
        simpa [List.append_assoc, Nat.add_assoc, Nat.add_comm 1] using heq
      · simp only [List.length_cons]
        omega
      · rw [hsame (List.not_mem_of_not_mem_cons hmem)]

/-- What was written stands where it was written. -/
theorem sliceAt_written {written : List UInt8} :
    sliceAt (before ++ written ++ space) before.length
      (before.length + written.length - before.length) = .ok written := by
  rw [Nat.add_sub_cancel_left, sliceAt, if_pos (by simp only [List.length_append]; omega),
    List.append_assoc, List.drop_left, List.take_left]

/-- **Decoding into the block**: the value and a zero byte, behind what is there. -/
theorem argumentDecodeInto_spec (h : input.length < space.length) :
    ∃ block, argumentDecodeInto input (before ++ space) before.length =
        .ok ((argumentDecodeValue input).map List.length, before ++ block) ∧
      block.length = space.length ∧ ∀ value, argumentDecodeValue input = some value →
        value.length ≤ input.length ∧ ∃ rest, block = value ++ 0 :: rest := by
  -- what stands between the loops and the end
  have hfinish (written : List UInt8) (hwritten : written.length ≤ input.length) :
      ∃ block, (do
          if !argumentValueBytesAreValid (← sliceAt (before ++ written ++ space.drop written.length)
              before.length (before.length + written.length - before.length)) then
            return (none, before ++ written ++ space.drop written.length)
          else return (some (before.length + written.length - before.length),
            ← writeAt (before ++ written ++ space.drop written.length)
              (before.length + written.length) [0]) :
            Buffered (Option ℕ × List UInt8)) =
          .ok (((some written).filter argumentValueBytesAreValid).map List.length,
            before ++ block) ∧
        block.length = space.length ∧
        ∀ value, (some written).filter argumentValueBytesAreValid = some value →
          value.length ≤ input.length ∧ ∃ rest, block = value ++ 0 :: rest := by
    have hspace : space.drop written.length ≠ [] := by
      rw [ne_eq, List.drop_eq_nil_iff]
      omega
    have hwrite := @writeAt_byte (before ++ written) (space.drop written.length) 0 hspace
    rw [List.length_append] at hwrite
    simp only [sliceAt_written, ok_bind, Option.filter]
    cases hvalid : argumentValueBytesAreValid written with
    | false =>
      refine ⟨written ++ space.drop written.length, ?_, ?_, fun value hvalue => ?_⟩
      · simp only [Bool.not_false, if_true, Bool.false_eq_true, if_false, Option.map_none,
          List.append_assoc]
        rfl
      · rw [List.length_append, List.length_drop]
        omega
      · simp at hvalue
    | true =>
      refine ⟨written ++ 0 :: space.drop (written.length + 1), ?_, ?_, fun value hvalue => ?_⟩
      · simp only [Bool.not_true, Bool.false_eq_true, if_false, if_true, hwrite, ok_bind,
          Nat.add_sub_cancel_left, Option.map_some]
        rw [List.drop_drop, List.append_assoc, List.append_assoc]
        rfl
      · rw [List.length_append, List.length_cons, List.length_drop]
        omega
      · simp only [if_true, Option.some.injEq] at hvalue
        subst hvalue
        exact ⟨hwritten, _, rfl⟩
  have hnothing (hnone : argumentDecoded input = none) (block : List UInt8)
      (hblock : block.length = space.length) : ∃ block', (.ok (none, before ++ block) :
        Buffered (Option ℕ × List UInt8)) =
          .ok ((argumentDecodeValue input).map List.length, before ++ block') ∧
        block'.length = space.length ∧ ∀ value, argumentDecodeValue input = some value →
          value.length ≤ input.length ∧ ∃ rest, block' = value ++ 0 :: rest := by
    have hvalue : argumentDecodeValue input = none := by rw [argumentDecodeValue, hnone]; rfl
    rw [hvalue]
    exact ⟨block, rfl, hblock, fun value hsome => by cases hsome⟩
  cases input with
  | nil => exact hnothing rfl space rfl
  | cons byte rest =>
    unfold argumentDecodeInto
    by_cases hbyte : byte = 39
    · by_cases hlast : rest.getLast? = some 39
      · obtain ⟨whole, written, heq, hlength, hunquote⟩ :=
          @argumentUnquoteInto_spec rest.dropLast before space (by
            rw [List.length_dropLast]
            rw [List.length_cons] at h
            omega)
        have hdecoded : argumentDecoded (byte :: rest) = if whole then some written else none := by
          rw [argumentDecoded, if_pos hbyte, if_pos hlast, hunquote]
        have hwritten : written.length ≤ (byte :: rest).length := by
          rw [List.length_dropLast] at hlength
          rw [List.length_cons]
          omega
        simp only [hlast, ne_eq, not_true_eq_false, and_false, if_false, hbyte,
          if_true, heq, ok_bind]
        cases whole with
        | false =>
          simp only [Bool.not_false, if_true, List.append_assoc]
          rw [hbyte] at hnothing hdecoded
          refine hnothing hdecoded _ ?_
          rw [List.length_append, List.length_drop]
          rw [List.length_cons] at h hwritten
          omega
        | true =>
          simp only [Bool.not_true, Bool.false_eq_true, if_false]
          rw [← hbyte, argumentDecodeValue, hdecoded]
          exact hfinish written hwritten
      · simp only [hbyte, ne_eq, hlast, not_false_eq_true, and_self, if_true]
        rw [hbyte] at hnothing
        exact hnothing (by rw [argumentDecoded, if_pos rfl, if_neg hlast]) space rfl
    · obtain ⟨written, heq, hlength, hsame⟩ :=
        @argumentBareInto_spec (byte :: rest) before space (Nat.le_of_lt h)
      simp only [hbyte, false_and, if_false, heq, ok_bind]
      cases hcontains : (byte :: rest).contains 39 with
      | true =>
        simp only [Bool.not_true, Bool.not_false, if_true, List.append_assoc]
        refine hnothing (by rw [argumentDecoded, if_neg hbyte, if_pos hcontains]) _ ?_
        rw [List.length_append, List.length_drop]
        omega
      | false =>
        have hdecoded : argumentDecoded (byte :: rest) = some written := by
          rw [argumentDecoded, if_neg hbyte, if_neg (by rw [hcontains]; decide),
            hsame (by simpa using hcontains)]
        simp only [Bool.not_false, Bool.not_true, Bool.false_eq_true, if_false]
        rw [argumentDecodeValue, hdecoded]
        exact hfinish written hlength

end Decoding

/-! ## The presence mask -/

theorem ArgumentId.mem_all (argumentId : ArgumentId) : argumentId ∈ ArgumentId.all := by
  cases argumentId <;> decide

theorem ArgumentId.place_inj {argumentId other : ArgumentId} :
    argumentId.place = other.place ↔ argumentId = other :=
  List.idxOf_inj (ArgumentId.mem_all argumentId)

theorem isFlag_flag (argumentId : ArgumentId) : IsFlag argumentId.flag argumentId.place := by
  have htable :
    ∀ argumentId ∈ ArgumentId.all, argumentId.flag.toNat = 2 ^ argumentId.place := by decide
  exact htable argumentId (ArgumentId.mem_all argumentId)

/-- **The bits of a mask are the options that are present.** -/
def Marks (presence : UInt64) (present : ArgumentId → Prop) : Prop :=
  ∀ i, presence.toNat.testBit i = true ↔ ∃ argumentId : ArgumentId, argumentId.place = i ∧
    present argumentId

namespace Marks

variable {presence : UInt64} {present : ArgumentId → Prop} {argumentId : ArgumentId}

theorem testBit_place (h : Marks presence present) :
    presence.toNat.testBit argumentId.place = true ↔ present argumentId := by
  rw [h]
  constructor
  · rintro ⟨other, hplace, hother⟩
    rwa [← ArgumentId.place_inj.mp hplace]
  · exact fun hpresent => ⟨argumentId, rfl, hpresent⟩

/-- A mask asks for one option. -/
theorem and_flag_eq_zero_iff (h : Marks presence present) :
    presence &&& argumentId.flag = 0 ↔ ¬present argumentId := by
  rw [← h.testBit_place, ← UInt64.toNat_inj, UInt64.toNat_and,
    show argumentId.flag.toNat = 2 ^ argumentId.place from isFlag_flag argumentId, Nat.and_two_pow]
  cases presence.toNat.testBit argumentId.place <;> simp

/-- One more option. -/
theorem or_flag (h : Marks presence present) :
    Marks (presence ||| argumentId.flag) fun other => other = argumentId ∨ present other :=
  fun i => by
  rw [UInt64.toNat_or, Nat.testBit_or, Bool.or_eq_true, h i,
    show argumentId.flag.toNat = 2 ^ argumentId.place from isFlag_flag argumentId,
      Nat.testBit_two_pow,
    decide_eq_true_iff]
  constructor
  · rintro (⟨other, hplace, hother⟩ | hplace)
    · exact ⟨other, hplace, .inr hother⟩
    · exact ⟨argumentId, hplace, .inl rfl⟩
  · rintro ⟨other, hplace, rfl | hother⟩
    · exact .inr hplace
    · exact .inl ⟨other, hplace, hother⟩

theorem congr (h : Marks presence present) {present' : ArgumentId → Prop}
    (hsame : ∀ argumentId, present argumentId ↔ present' argumentId) :
    Marks presence present' := fun i => by
  rw [h i]
  exact exists_congr fun argumentId => and_congr_right fun _ => hsame argumentId

end Marks

/-! ## What the block says -/

/-- A value of the table, in a block that is filled up to an offset. -/
structure StoredArgument.Denotes (bytes : List UInt8) (offset : ℕ) (stored : StoredArgument)
    (value : ArgumentValue) : Prop where
  type : stored.type = value.type
  uint32Value : stored.uint32Value = value.uint32Value
  enumValue : stored.enumValue = value.enumValue
  booleanValue : stored.booleanValue = value.booleanValue
  length : stored.length = value.bytes.length
  within : stored.offset + (stored.length + 1) ≤ offset
  text : slice bytes stored.offset (stored.length + 1) = value.bytes ++ [0]
  nul : 0 ∉ value.bytes

/-- **The table, the mask and the block say what the model says.** -/
structure StoredArguments.Represents (parsed : StoredArguments) (allocator : Allocator)
    (memory : MemoryBlock) (offset : ℕ) (model : ParsedArgumentValues) : Prop where
  initialized : parsed.initialized = true
  storage : parsed.storage = ⟨⟨allocator, some memory, memory.bytes.length, true⟩, true⟩
  within : offset ≤ memory.bytes.length
  values : ∀ argumentId, Option.Rel (StoredArgument.Denotes memory.bytes offset)
    (parsed.values argumentId) (model.values argumentId)
  presence : Marks parsed.presence fun argumentId => (model.values argumentId).isSome

section Steps

variable {parsed : StoredArguments} {allocator : Allocator} {memory : MemoryBlock}
    {offset offset' : ℕ}
  {model : ParsedArgumentValues} {argumentId : ArgumentId} {input : List UInt8}

/-- What is written behind the offset leaves the values alone. -/
theorem StoredArgument.Denotes.mono {stored : StoredArgument} {value : ArgumentValue}
    {bytes before block block' : List UInt8} (hbytes : bytes = before ++ block)
    (hbefore : before.length = offset) (h : stored.Denotes bytes offset value)
    (hle : offset ≤ offset') :
    stored.Denotes (before ++ block') offset' value := by
  refine ⟨h.type, h.uint32Value, h.enumValue, h.booleanValue, h.length,
    h.within.trans hle, ?_, h.nul⟩
  have hwithin := h.within
  have htext := h.text
  have hkeep (rest : List UInt8) : slice (before ++ rest) stored.offset (stored.length + 1) =
      slice before stored.offset (stored.length + 1) := by
    rw [slice, slice, List.drop_append_of_le_length (by omega), List.take_append_of_le_length
      (by rw [List.length_drop]; omega)]
  rw [hbytes, hkeep] at htext
  rwa [hkeep]

theorem ParsedArgumentValues.store_of_ne {value : ArgumentValue} {other : ArgumentId}
    (h : other ≠ argumentId) : (model.store argumentId value).values other = model.values other :=
  if_neg h

/-- What the option is found to be keeps the bytes. -/
theorem argumentTyped_bytes {bytes : List UInt8} {value : ArgumentValue}
    (h : argumentTyped argumentId bytes = .ok value) : value.bytes = bytes := by
  unfold argumentTyped at h
  split at h
  · cases h
    rfl
  all_goals
    split at h <;> cases h
    rfl

/-- **A step in the block follows the step of the model.** -/
def FollowsStore (allocator : Allocator) (memory : MemoryBlock) (offset : ℕ)
    (model : ParsedArgumentValues) (room : ℕ) (out : ArgumentsDiagnostic × StoredArguments × ℕ)
    (expected : Except ArgumentsFailure ParsedArgumentValues) : Prop :=
  ∃ memory', memory'.address = memory.address ∧ memory'.bytes.length = memory.bytes.length ∧
    match expected with
    | .ok model' => out.1.result = .ok ∧ out.2.2 ≤ offset + room ∧
        out.2.1.Represents allocator memory' out.2.2 model'
    | .error failure =>
      out.1.result = failure.result.result ∧ out.1.argumentId = failure.argumentId ∧
        out.2.1.Represents allocator memory' offset model

theorem ArgumentsError.result_ne (error : ArgumentsError) : error.result ≠ .ok := by
  cases error <;> exact ArgumentsResult.noConfusion

/-- A step that leaves everything alone. -/
theorem StoredArguments.Represents.failed (h : parsed.Represents allocator memory offset model)
    (error : ArgumentsError) (failed : Option ArgumentId) (room : ℕ) :
    FollowsStore allocator memory offset model room
      (argumentsDiagnose error.result failed parsed.presence, parsed, offset)
        (.error ⟨error, failed⟩) :=
  ⟨memory, rfl, rfl, rfl, rfl, h⟩

theorem argumentStoreInto_spec (h : parsed.Represents allocator memory offset model)
    (hroom : offset + (input.length + 1) ≤ memory.bytes.length) :
    ∃ out, argumentStoreInto parsed offset argumentId input = .ok out ∧
      FollowsStore allocator memory offset model (input.length + 1) out
        (argumentStore model argumentId input) := by
  unfold argumentStoreInto argumentStore
  by_cases hpresent : (model.values argumentId).isSome
  · have hflag : parsed.presence &&& argumentId.flag ≠ 0 := fun heq =>
      h.presence.and_flag_eq_zero_iff.mp heq hpresent
    rw [if_pos hflag, if_pos hpresent]
    exact ⟨_, rfl, h.failed .duplicateArgument argumentId _⟩
  have hflag : ¬parsed.presence &&& argumentId.flag ≠ 0 := fun hne =>
    hne (h.presence.and_flag_eq_zero_iff.mpr hpresent)
  rw [if_neg hflag, if_neg hpresent]
  have hdata : sensitiveMemoryData parsed.storage = some memory := by rw [h.storage]; rfl
  -- the block is what is filled and what is free
  obtain ⟨before, space, hbytes, hbefore⟩ : ∃ before space, memory.bytes = before ++ space ∧
      before.length = offset :=
    ⟨memory.bytes.take offset, memory.bytes.drop offset, (List.take_append_drop _ _).symm,
      List.length_take_of_le h.within⟩
  have hspace :
    memory.bytes.length = offset + space.length := by rw [hbytes, List.length_append, hbefore]
  obtain ⟨block, hdecode, hblock, hdecoded⟩ :=
    @argumentDecodeInto_spec input before space (by omega)
  have hlength : (before ++ block).length = memory.bytes.length := by
    rw [List.length_append, hblock, hspace, hbefore]
  let memory' : MemoryBlock := ⟨memory.address, before ++ block⟩
  -- the block as it is now still says what it said
  have hsame : StoredArguments.Represents
      { parsed with storage.storage.memory := some { memory with bytes := before ++ block } }
      allocator memory' offset model := by
    refine ⟨h.initialized, ?_, ?_, fun other => ?_, h.presence⟩
    · rw [h.storage, ← hlength]
    · rw [hlength]
      exact h.within
    · have hvalue := h.values other
      show Option.Rel _ (parsed.values other) (model.values other)
      generalize parsed.values other = stored, model.values other = value at hvalue
      cases hvalue with
      | none => exact .none
      | some hdenotes => exact .some (hdenotes.mono hbytes hbefore le_rfl)
  have hnext (error : ArgumentsError) :
    FollowsStore allocator memory offset model (input.length + 1)
      (argumentsDiagnose error.result argumentId parsed.presence,
        { parsed with storage.storage.memory := some { memory with bytes := before ++ block } },
            offset)
      (.error ⟨error, argumentId⟩) := ⟨memory', rfl, hlength, rfl, rfl, hsame⟩
  simp only [hdata, hbytes, ← hbefore, hdecode, ok_bind]
  rw [hbefore]
  cases hvalue : argumentDecodeValue input with
  | none => exact ⟨_, rfl, hnext .malformed⟩
  | some value =>
    obtain ⟨hshort, rest, rfl⟩ := hdecoded value hvalue
    have hslice : sliceAt (before ++ (value ++ 0 :: rest)) offset value.length = .ok value := by
      rw [← hbefore, sliceAt, if_pos (by simp only [List.length_append]; omega), List.drop_left,
        List.take_left]
    simp only [Option.map_some]
    by_cases hlimit : value.length > argumentId.definition.limit
    · rw [if_pos hlimit, if_pos hlimit]
      exact ⟨_, rfl, hnext .limitExceeded⟩
    rw [if_neg hlimit, if_neg hlimit, hslice, ok_bind]
    cases htyped : argumentTyped argumentId value with
    | error result => exact ⟨_, rfl, hnext result⟩
    | ok typed =>
      have htext := argumentTyped_bytes htyped
      obtain ⟨-, -, -, hplain⟩ := argumentDecodeValue_eq_some_iff.mp hvalue
      refine ⟨_, rfl, memory', rfl, hlength,
        rfl, by dsimp only; omega, h.initialized, ?_, ?_, fun other => ?_, ?_⟩
      · rw [h.storage, ← hlength]
      · rw [hlength]
        dsimp only
        omega
      · show Option.Rel _ (Function.update parsed.values argumentId _ other)
          ((model.store argumentId typed).values other)
        by_cases hother : other = argumentId
        · subst hother
          rw [Function.update_self, ParsedArgumentValues.store_self]
          refine .some ⟨rfl, rfl, rfl, rfl, congrArg _ htext.symm, le_rfl, ?_, ?_⟩
          · rw [htext, ← hbefore]
            show ((before ++ (value ++ 0 :: rest)).drop before.length).take (value.length + 1) = _
            rw [List.drop_left, ← List.singleton_append, ← List.append_assoc]
            exact List.take_left' (by simp)
          · rw [htext]
            exact fun hzero => hplain 0 hzero (by decide)
        · rw [Function.update_of_ne hother, ParsedArgumentValues.store_of_ne hother]
          have hold := h.values other
          generalize parsed.values other = stored, model.values other = old at hold
          cases hold with
          | none => exact .none
          | some hdenotes => exact .some (hdenotes.mono hbytes hbefore (Nat.le_add_right _ _))
      · refine h.presence.or_flag.congr fun other => ?_
        show _ ↔ ((model.store argumentId typed).values other).isSome
        by_cases hother : other = argumentId
        · subst hother
          rw [ParsedArgumentValues.store_self]
          simp
        · rw [ParsedArgumentValues.store_of_ne hother]
          simp [hother]

/-- What is split off a text is shorter than it. -/
theorem length_argumentSplit {text name value : List UInt8}
    (h : argumentSplit text = some (name, value)) :
    value.length < text.length := by
  obtain ⟨a, b, c, d, -, -, -, -, rfl⟩ := (spaced_of_argumentSplit h).1
  simp only [List.length_append, List.length_cons]
  omega

/-- **One text**: the step in the block follows that of the model. -/
theorem argumentsParseOneInto_spec (h : parsed.Represents allocator memory offset model)
    {text : List UInt8} (hroom : offset + (text.length + 1) ≤ memory.bytes.length) :
    ∃ out, argumentsParseOneInto parsed offset text = .ok out ∧
      FollowsStore allocator memory offset model (text.length + 1) out
        (argumentsParseOne model text) := by
  unfold argumentsParseOneInto argumentsParseOne
  cases hsplit : argumentSplit text with
  | none => exact ⟨_, rfl, h.failed .malformed none _⟩
  | some parts =>
    obtain ⟨name, value⟩ := parts
    have hshort := length_argumentSplit hsplit
    dsimp only
    by_cases hname : argumentNameIsValid name = true
    · simp only [hname, Bool.not_true, Bool.false_eq_true, if_false]
      cases hfind : argumentFindId (name.map toLower) with
      | none => exact ⟨_, rfl, h.failed .unknownArgument none _⟩
      | some argumentId =>
        obtain ⟨out, heq, memory', haddress, hlength, hout⟩ :=
          @argumentStoreInto_spec parsed allocator memory offset model argumentId value h (by omega)
        refine ⟨out, heq, memory', haddress, hlength, ?_⟩
        dsimp only
        generalize argumentStore model argumentId value = expected at hout ⊢
        cases expected with
        | error failure => exact hout
        | ok model' => exact ⟨hout.1, hout.2.1.trans (by omega), hout.2.2⟩
    · rw [Bool.not_eq_true] at hname
      simp only [hname, Bool.not_false, if_true]
      exact ⟨_, rfl, h.failed .malformed none _⟩

/-- The room that texts may take. -/
def roomOf (texts : List (List UInt8)) : ℕ := (texts.map (·.length + 1)).sum

/-- **All texts**: the parse is a fold of the model. -/
theorem argumentsParseAll_spec {texts : List (List UInt8)}
    (h : parsed.Represents allocator memory offset model)
    (hroom : offset + roomOf texts ≤ memory.bytes.length) (diagnostic : ArgumentsDiagnostic)
    (hok : diagnostic.result = .ok) :
    ∃ diagnostic' parsed' memory' offset',
      argumentsParseAll (texts.map some) parsed offset diagnostic =
        .ok (diagnostic', parsed') ∧
      memory'.address = memory.address ∧ memory'.bytes.length = memory.bytes.length ∧
      match texts.foldlM argumentsParseOne model with
      | .ok model' => diagnostic'.result = .ok ∧ parsed'.Represents allocator memory' offset' model'
      | .error failure => diagnostic'.result = failure.result.result ∧
          diagnostic'.argumentId = failure.argumentId ∧
          ∃ stored, parsed'.Represents allocator memory' offset' stored := by
  induction texts generalizing parsed memory offset model diagnostic with
  | nil => exact ⟨diagnostic, parsed, memory, offset, rfl, rfl, rfl, hok, h⟩
  | cons text texts ih =>
    rw [roomOf, List.map_cons, List.sum_cons, ← roomOf] at hroom
    obtain ⟨⟨diagnostic', parsed', offset'⟩, heq, memory', haddress, hlength, hout⟩ :=
      @argumentsParseOneInto_spec parsed allocator memory offset model h text (by omega)
    rw [List.map_cons, argumentsParseAll, heq, ok_bind, List.foldlM_cons]
    dsimp only
    cases hone : argumentsParseOne model text with
    | error failure =>
      rw [hone] at hout
      obtain ⟨hresult, hargument, hrepresents⟩ := hout
      have hfailed : diagnostic'.result ≠ .ok := fun hsame =>
        failure.result.result_ne (hresult.symm.trans hsame)
      rw [if_pos hfailed]
      exact ⟨diagnostic', parsed', memory', offset, rfl, haddress, hlength, hresult,
        hargument, model, hrepresents⟩
    | ok model' =>
      rw [hone] at hout
      obtain ⟨hresult, hoffset, hrepresents⟩ := hout
      rw [if_neg (not_not_intro hresult)]
      obtain ⟨diagnostic'', parsed'', memory'', offset'', heq', haddress', hlength', hrest⟩ :=
        ih hrepresents (by dsimp only at hoffset ⊢; omega) diagnostic' hresult
      exact ⟨diagnostic'', parsed'', memory'', offset'', heq', haddress'.trans haddress,
        hlength'.trans hlength, hrest⟩

end Steps

end Vps
