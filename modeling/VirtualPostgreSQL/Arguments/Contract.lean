import VirtualPostgreSQL.Arguments.Combination

/-!
# Arguments/Contract — a parse takes all of its texts or leaves what was there

`ArgumentsTaken` says, without the block, which texts are taken and what they come to; it does not
depend on their order.  `arguments_parse_contract` is the result on `vps_arguments_parse`.
-/

namespace Vps

open Machinery

/-! ## The order of the texts -/

/-- What one text says. -/
def argumentEntry (text : List UInt8) : Option (ArgumentId × ArgumentValue) := do
  let (name, input) ← argumentSplit text
  if !argumentNameIsValid name then none
  else
    let argumentId ← argumentFindId (name.map toLower)
    let bytes ← argumentDecodeValue input
    if bytes.length > argumentId.definition.limit then none
    else
      let value ← (argumentTyped argumentId bytes).toOption
      return (argumentId, value)

section Order

variable {model model' : ParsedArgumentValues}

/-- A text is taken where its option has no value yet. -/
theorem argumentsParseOne_eq_ok_iff {text : List UInt8} :
    argumentsParseOne model text = .ok model' ↔ ∃ argumentId value,
      argumentEntry text = some (argumentId, value) ∧ model.values argumentId = none ∧
        model' = model.store argumentId value := by
  unfold argumentsParseOne argumentEntry
  cases argumentSplit text with
  | none => simp
  | some parts =>
    obtain ⟨name, input⟩ := parts
    simp only [Option.bind_eq_bind, Option.bind_some]
    cases argumentNameIsValid name with
    | false => simp
    | true =>
      simp only [Bool.not_true, Bool.false_eq_true, if_false]
      cases argumentFindId (name.map toLower) with
      | none => simp
      | some argumentId =>
        simp only [Option.bind_some, argumentStore]
        cases hfree : model.values argumentId with
        | some value =>
          simp only [Option.isSome_some, if_true, reduceCtorEq, false_iff, not_exists, not_and]
          intro other value' hentry hnone
          obtain rfl : argumentId = other := by
            cases hdecode : argumentDecodeValue input with
            | none => simp [hdecode] at hentry
            | some bytes =>
              rw [hdecode, Option.bind_some] at hentry
              split at hentry
              · cases hentry
              · cases htyped : (argumentTyped argumentId bytes).toOption with
                | none => simp [htyped] at hentry
                | some typed =>
                  rw [htyped] at hentry
                  cases hentry
                  rfl
          rw [hfree] at hnone
          cases hnone
        | none =>
          simp only [Option.isSome_none, Bool.false_eq_true, if_false]
          cases argumentDecodeValue input with
          | none => simp
          | some bytes =>
            simp only [Option.bind_some]
            split
            · simp
            · cases argumentTyped argumentId bytes with
              | error => simp [Except.toOption]
              | ok typed =>
                simp only [Except.toOption, Option.bind_some, Except.ok.injEq]
                constructor
                · rintro rfl
                  exact ⟨argumentId, typed, rfl, hfree, rfl⟩
                · rintro ⟨_, _, heq, -, rfl⟩
                  cases heq
                  rfl

/-- Values of different options are stored in any order. -/
theorem ParsedArgumentValues.store_comm {argumentId other : ArgumentId} (hne : argumentId ≠ other)
    (value value' : ArgumentValue) :
    (model.store argumentId value).store other value' =
      (model.store other value').store argumentId value := by
  have hvalues (which : ArgumentId) :
    ((model.store argumentId value).store other value').values which =
      ((model.store other value').store argumentId value).values which := by
    by_cases hwhich : which = other
    · subst hwhich
      rw [store_self, store_of_ne hne.symm, store_self]
    · rw [store_of_ne hwhich]
      by_cases hargument : which = argumentId
      · rw [hargument, store_self, store_self]
      · rw [store_of_ne hargument, store_of_ne hargument, store_of_ne hwhich]
  exact congrArg ParsedArgumentValues.mk (funext hvalues)

/-- Two texts can be swapped. -/
theorem argumentsParseOne_swap (text text' : List UInt8)
    (h : (argumentsParseOne model text >>= (argumentsParseOne · text')) = .ok model') :
    (argumentsParseOne model text' >>= (argumentsParseOne · text)) = .ok model' := by
  obtain ⟨between, hfirst, hsecond⟩ := ok_of_bind h
  obtain ⟨argumentId, value, hentry, hfree, rfl⟩ := argumentsParseOne_eq_ok_iff.mp hfirst
  obtain ⟨other, value', hentry', hfree', rfl⟩ := argumentsParseOne_eq_ok_iff.mp hsecond
  have hne : argumentId ≠ other := by
    rintro rfl
    rw [ParsedArgumentValues.store_self] at hfree'
    cases hfree'
  rw [ParsedArgumentValues.store_of_ne hne.symm] at hfree'
  rw [bind_eq_ok_iff]
  refine ⟨model.store other value',
    argumentsParseOne_eq_ok_iff.mpr ⟨other, value', hentry', hfree', rfl⟩,
    argumentsParseOne_eq_ok_iff.mpr ⟨argumentId, value, hentry, ?_, ?_⟩⟩
  · rwa [ParsedArgumentValues.store_of_ne hne]
  · exact ParsedArgumentValues.store_comm hne value value'

end Order

/-! ## What is taken -/

/-- The texts of the inputs. -/
def textsOf (inputs : List (Option (List UInt8))) : List (List UInt8) := inputs.filterMap id

/-- **Inputs that are taken**, and what they come to. -/
structure ArgumentsTaken (inputs : List (Option (List UInt8)))
    (model : ParsedArgumentValues) : Prop where
  nonempty : inputs ≠ []
  count : inputs.length ≤ argumentMaxCount
  given : none ∉ inputs
  lengths : ∀ text ∈ textsOf inputs, text.length ≠ 0 ∧ text.length ≤ argumentValueLimit
  total : roomOf (textsOf inputs) ≤ argumentTotalLimit
  read : (textsOf inputs).foldlM argumentsParseOne {} = .ok model
  compatible : model.Compatible

section Taken

variable {inputs inputs' : List (Option (List UInt8))} {model model' : ParsedArgumentValues}

theorem textsOf_map_some (h : none ∉ inputs) : (textsOf inputs).map some = inputs := by
  induction inputs with
  | nil => rfl
  | cons input inputs ih =>
    cases input with
    | none => exact absurd List.mem_cons_self h
    | some text => exact congrArg (some text :: ·) (ih (List.not_mem_of_not_mem_cons h))

/-- **The order of the inputs does not matter.** -/
theorem ArgumentsTaken.perm (h : ArgumentsTaken inputs model) (hperm : inputs.Perm inputs') :
    ArgumentsTaken inputs' model := by
  have htexts : (textsOf inputs).Perm (textsOf inputs') := hperm.filterMap id
  refine ⟨fun hnil => h.nonempty (List.perm_nil.mp (hnil ▸ hperm)), hperm.length_eq ▸ h.count,
    fun hnone => h.given (hperm.mem_iff.mpr hnone), fun text htext =>
      h.lengths text (htexts.mem_iff.mpr htext),
    ?_, ?_, h.compatible⟩
  · rw [roomOf, ← (htexts.map _).sum_eq]
    exact h.total
  · exact (foldlM_ok_perm (f := argumentsParseOne)
      (fun _ text text' _ hboth => argumentsParseOne_swap text text' hboth) htexts).mp h.read

/-- What is taken comes to one model. -/
theorem ArgumentsTaken.unique (h : ArgumentsTaken inputs model)
    (h' : ArgumentsTaken inputs model') :
    model = model' := Except.ok.inj (h.read.symm.trans h'.read)

/-- The loop that measures. -/
theorem argumentsMeasure_eq_some_iff {total room : ℕ} (htotal : total ≤ argumentTotalLimit) :
    argumentsMeasure inputs total = some room ↔
      none ∉ inputs ∧
        (∀ text ∈ textsOf inputs, text.length ≠ 0 ∧ text.length ≤ argumentValueLimit) ∧
        total + roomOf (textsOf inputs) ≤ argumentTotalLimit ∧
          room = total + roomOf (textsOf inputs) := by
  induction inputs generalizing total with
  | nil =>
    rw [argumentsMeasure]
    simp [textsOf, roomOf, htotal, eq_comm]
  | cons input inputs ih =>
    cases input with
    | none => simp [argumentsMeasure]
    | some text =>
      have htexts : textsOf (some text :: inputs) = text :: textsOf inputs := rfl
      have hroom : roomOf (text :: textsOf inputs) = text.length + 1 + roomOf (textsOf inputs) := by
        rw [roomOf, List.map_cons, List.sum_cons, ← roomOf]
      rw [argumentsMeasure, htexts, hroom, List.forall_mem_cons]
      by_cases hlength : text.length = 0 ∨ text.length > argumentValueLimit
      · rw [if_pos hlength]
        simp only [reduceCtorEq, false_iff, not_and, List.mem_cons]
        omega
      · have hsizes :
          (sizeAdd text.length 1).bind (sizeAdd total) = some (total + (text.length + 1)) := by
          have hsmall : argumentValueLimit + argumentTotalLimit + 1 ≤ sizeMax := by decide
          rw [sizeAdd, if_neg (by omega), Option.bind_some, sizeAdd, if_neg (by omega)]
        rw [if_neg hlength, hsizes]
        dsimp only
        by_cases hlimit : total + (text.length + 1) > argumentTotalLimit
        · rw [if_pos hlimit]
          simp only [reduceCtorEq, false_iff, not_and, List.mem_cons]
          omega
        · rw [if_neg hlimit, ih (Nat.le_of_not_lt hlimit)]
          simp only [List.mem_cons, reduceCtorEq, false_or, Nat.add_assoc]
          constructor
          · rintro ⟨hgiven, hlengths, hrest⟩
            exact ⟨hgiven, ⟨by omega, hlengths⟩, hrest⟩
          · rintro ⟨hgiven, ⟨-, hlengths⟩, hrest⟩
            exact ⟨hgiven, hlengths, hrest⟩

end Taken

/-! ## What arguments show -/

/-- What can be read of an option. -/
def StoredArguments.view (arguments : StoredArguments) (argumentId : ArgumentId) :
    Option ArgumentValue :=
  (arguments.values argumentId).bind fun stored =>
    (argumentText arguments argumentId).map fun text =>
    ⟨stored.type, text.1, stored.uint32Value, stored.enumValue, stored.booleanValue⟩

/-- **The arguments say what the model says**: each option is read as it is there, its text is that
of its C string, and the mask has the options that are there. -/
structure StoredArguments.Says (arguments : StoredArguments)
    (model : ParsedArgumentValues) : Prop where
  view : arguments.view = model.values
  string : ∀ argumentId text, argumentText arguments argumentId = some text → text.2.bytes = text.1
  presence : Marks arguments.presence model.Has

/-- Arguments that were initialised. -/
structure StoredArguments.Sound (arguments : StoredArguments) : Prop where
  initialized : arguments.initialized = true
  storageInitialized : arguments.storage.initialized = true
  storage : arguments.storage.storage.Sound

section Shown

variable {parsed : StoredArguments} {allocator : Allocator} {memory : MemoryBlock} {offset : ℕ}
  {model : ParsedArgumentValues}

theorem StoredArguments.Represents.sound (h : parsed.Represents allocator memory offset model)
    (hvalid : allocatorIsValid allocator = true) : parsed.Sound := by
  refine ⟨h.initialized, by rw [h.storage], ?_⟩
  rw [h.storage]
  refine ⟨hvalid, rfl, ?_⟩
  rintro _ ⟨⟩
  rfl

/-- A text that the block holds is read from it. -/
theorem StoredArguments.Represents.text (h : parsed.Represents allocator memory offset model)
    (argumentId : ArgumentId) :
    (model.values argumentId = none ∧ parsed.values argumentId = none ∧
        argumentText parsed argumentId = none) ∨
      ∃ value stored shown, model.values argumentId = some value ∧
        parsed.values argumentId = some stored ∧
        stored.Denotes memory.bytes offset value ∧
        argumentText parsed argumentId = some (value.bytes, shown) ∧ shown.bytes = value.bytes := by
  have hvalue := h.values argumentId
  have hwithin := h.within
  unfold argumentText
  rw [h.storage, h.initialized]
  generalize parsed.values argumentId = stored, model.values argumentId = expected at hvalue
  cases hvalue with
  | none => exact .inl ⟨rfl, rfl, rfl⟩
  | @some stored value hdenotes =>
    have htext := hdenotes.text
    have hend := hdenotes.within
    have hslice : slice memory.bytes stored.offset stored.length = value.bytes := by
      have htake : slice memory.bytes stored.offset stored.length =
          (slice memory.bytes stored.offset (stored.length + 1)).take stored.length := by
        rw [slice, slice, List.take_take, Nat.min_eq_left (Nat.le_succ _)]
      rw [htake, htext, hdenotes.length, List.take_left]
    refine .inr ⟨value, stored, cStringAt memory.bytes stored.offset, rfl, rfl, hdenotes, ?_, ?_⟩
    · simp only [Bool.not_true, Bool.false_eq_true, if_false]
      rw [if_neg (by omega), hslice]
    · refine cStringAt_of_slice hdenotes.nul ?_
      rw [← hdenotes.length]
      exact htext

theorem StoredArguments.Represents.tells (h : parsed.Represents allocator memory offset model) :
    parsed.Says model := by
  refine ⟨funext fun argumentId => ?_, fun argumentId text htext => ?_, h.presence⟩
  · unfold StoredArguments.view
    rcases h.text argumentId with
      ⟨hnone, hstored, -⟩ | ⟨value, stored, shown, hvalue, hstored, hdenotes, htext, -⟩
    · rw [hnone, hstored]
      rfl
    · rw [hvalue, hstored, Option.bind_some, htext, Option.map_some, hdenotes.type,
        hdenotes.uint32Value, hdenotes.enumValue, hdenotes.booleanValue]
  · rcases h.text argumentId with ⟨-, -, hnone⟩ | ⟨value, stored, shown, -, -, -, hsome, hshown⟩
    · rw [hnone] at htext
      cases htext
    · rw [hsome] at htext
      cases htext
      exact hshown

/-- What says the same shows the same. -/
theorem StoredArguments.Says.unique {parsed' : StoredArguments} (h : parsed.Says model)
    (h' : parsed'.Says model) :
    parsed.view = parsed'.view ∧ parsed.presence = parsed'.presence := by
  refine ⟨h.view.trans h'.view.symm, UInt64.toNat_inj.mp (Nat.eq_of_testBit_eq fun i => ?_)⟩
  rw [Bool.eq_iff_iff, h.presence i, h'.presence i]

end Shown

/-! ## The whole -/

section Whole

variable {arguments replacement : StoredArguments} {allocator : Allocator}
    {memory : MemoryBlock} {offset : ℕ}
  {model : ParsedArgumentValues}

/-- **What an abandoned parse does**: the block goes back, wiped. -/
theorem argumentsAbandon_spec (h : replacement.storage.storage.Sound) (arena : Arena)
    (diagnostic : ArgumentsDiagnostic) (hfailed : diagnostic.result ≠ .ok) :
    ∃ diagnostic' arena', argumentsAbandon arguments replacement arena diagnostic =
        (diagnostic', arguments, arena') ∧ diagnostic'.result ≠ .ok ∧ (arena.Wiped → arena'.Wiped) ∧
      (diagnostic'.result ≠ .cleanupFailed → ∀ others,
        arena.Holds (addressesOf replacement.storage.storage.memory ++ others) →
          arena'.Holds others) := by
  obtain ⟨result, storage, arena', heq, -, hwiped, hholds, hok, -⟩ :=
    sensitiveMemoryRelease_spec h arena
  rw [argumentsAbandon, heq]
  cases result with
  | ok =>
    refine ⟨_, _, rfl, hfailed, hwiped, fun _ others hout => ?_⟩
    have hrest := hholds others hout
    rwa [hok rfl] at hrest
  | _ => exact ⟨_, _, rfl, ArgumentsResult.noConfusion, hwiped, fun hne => absurd rfl hne⟩

/-- The block, filled with zeros, holds no value. -/
theorem StoredArguments.represents_zero (allocator : Allocator) (memory : MemoryBlock) :
    StoredArguments.Represents
      ⟨⟨⟨allocator, some memory, memory.bytes.length, true⟩, true⟩, fun _ => none, 0,
      true⟩ allocator memory 0 {} :=
  ⟨rfl, rfl, Nat.zero_le _, fun _ => .none, fun i => by simp⟩

/-- **What a parse leaves**: arguments that say what the texts come to, or what was there. -/
structure ParseOutcome (arguments : StoredArguments) (arena : Arena)
    (taken : ParsedArgumentValues → Prop)
    (diagnostic : ArgumentsDiagnostic) (arguments' : StoredArguments) (arena' : Arena) : Prop where
  sound : arguments'.Sound
  /-- It succeeds if the texts are taken, there is memory, and the old block could be wiped. -/
  ok_iff : diagnostic.result = .ok ↔ (∃ model, taken model) ∧ arena.answer.granted = true ∧
    (arguments.storage.storage.owned = true → (arena.answers (arena.requests + 1)).zeroed = true)
  replaced : diagnostic.result = .ok → ∀ model, taken model → arguments'.Says model
  kept : diagnostic.result ≠ .ok → arguments' = arguments
  wiped : arena.Wiped → arena'.Wiped
  /-- What is out is what it owns, beside everything else; only a failed cleanup loses a block. -/
  holds : diagnostic.result ≠ .cleanupFailed → ∀ others,
    arena.Holds (addressesOf arguments.storage.storage.memory ++ others) →
      arena'.Holds (addressesOf arguments'.storage.storage.memory ++ others)

/-- A parse that left everything alone. -/
theorem ParseOutcome.refused (h : arguments.Sound) (arena : Arena)
    {taken : ParsedArgumentValues → Prop}
    (hnone : ∀ model, ¬taken model) {diagnostic : ArgumentsDiagnostic}
    (hfailed : diagnostic.result ≠ .ok) :
    ParseOutcome arguments arena taken diagnostic arguments arena :=
  ⟨h, iff_of_false hfailed fun hall => hall.1.elim fun model => hnone model,
    fun hok => absurd hok hfailed, fun _ => rfl, id, fun _ _ hout => hout⟩

/-- A parse that failed once it had its replacement. -/
theorem ParseOutcome.abandoned (h : arguments.Sound) (arena between : Arena)
    (hreplacement : replacement.storage.storage.Sound) (hwiped : arena.Wiped → between.Wiped)
    (hholds : ∀ others, arena.Holds (addressesOf arguments.storage.storage.memory ++ others) →
      between.Holds (addressesOf replacement.storage.storage.memory ++
        (addressesOf arguments.storage.storage.memory ++ others)))
    (taken : ParsedArgumentValues → Prop) (diagnostic : ArgumentsDiagnostic)
    (hfailed : diagnostic.result ≠ .ok)
    (hnot : ¬((∃ model, taken model) ∧ arena.answer.granted = true ∧
      (arguments.storage.storage.owned = true →
        (arena.answers (arena.requests + 1)).zeroed = true))) :
    ∃ diagnostic' arena', argumentsAbandon arguments replacement between diagnostic =
        (diagnostic', arguments, arena') ∧
      ParseOutcome arguments arena taken diagnostic' arguments arena' := by
  obtain ⟨diagnostic', arena', heq, hfailed', hwiped', hholds'⟩ :=
    @argumentsAbandon_spec arguments replacement hreplacement between diagnostic hfailed
  exact ⟨diagnostic', arena', heq, h, iff_of_false hfailed' hnot, fun hok => absurd hok hfailed',
    fun _ => rfl, hwiped' ∘ hwiped, fun hclean others hout => hholds' hclean _ (hholds others hout)⟩

/-- **What `vps_arguments_parse` does.** -/
theorem argumentsParse_spec (h : arguments.Sound) (arena : Arena)
    (inputs : Option (List (Option (List UInt8)))) :
    ∃ diagnostic arguments' arena', argumentsParse arguments arena inputs =
        .ok (diagnostic, arguments', arena') ∧
      ParseOutcome arguments arena (ArgumentsTaken (inputs.getD [])) diagnostic
        arguments' arena' := by
  unfold argumentsParse
  generalize inputs.getD [] = inputs
  rw [h.initialized]
  simp only [Bool.not_true, Bool.false_or, Bool.or_eq_true, beq_iff_eq, decide_eq_true_eq]
  split
  · rename_i hcount
    refine ⟨_, _, _, rfl, .refused h arena (fun model htaken => ?_) ArgumentsResult.noConfusion⟩
    rcases hcount with hzero | hmany
    · exact htaken.nonempty (List.length_eq_zero_iff.mp hzero)
    · exact absurd htaken.count (Nat.not_le_of_lt hmany)
  rename_i hcount
  rw [not_or] at hcount
  cases hmeasure : argumentsMeasure inputs 0 with
  | none =>
    refine ⟨_, _, _, rfl, .refused h arena (fun model htaken => ?_) ArgumentsResult.noConfusion⟩
    have hsome :=
      (@argumentsMeasure_eq_some_iff inputs 0 (roomOf (textsOf inputs)) (Nat.zero_le _)).mpr
      ⟨htaken.given,
        htaken.lengths, by rw [Nat.zero_add]; exact htaken.total, (Nat.zero_add _).symm⟩
    rw [hsome] at hmeasure
    cases hmeasure
  | some total =>
    obtain ⟨hgiven, hlengths, htotal, hroom⟩ :=
      (argumentsMeasure_eq_some_iff (Nat.zero_le _)).mp hmeasure
    rw [Nat.zero_add] at htotal hroom
    have hvalid := h.storage.valid
    have hne : total ≠ 0 := by
      cases inputs with
      | nil => exact absurd rfl hcount.1
      | cons input inputs =>
        cases input with
        | none => exact absurd List.mem_cons_self hgiven
        | some text =>
          rw [hroom, show textsOf (some text :: inputs) = text :: textsOf inputs from rfl, roomOf,
            List.map_cons, List.sum_cons]
          omega
    have hinit : argumentsInit arguments.storage.storage.allocator true =
        (.ok, ⟨⟨⟨arguments.storage.storage.allocator, none, 0, false⟩, true⟩, fun _ => none,
          0, true⟩) := by
      simp [argumentsInit, sensitiveMemoryInit, ownedMemoryInit, hvalid]
    rw [hinit]
    dsimp only
    rw [sensitiveMemoryAllocate_eq rfl (.start hvalid) rfl arena hne, Arena.allocate]
    cases hgranted : arena.answer.granted with
    | false =>
      simp only [Bool.false_eq_true, if_false]
      obtain ⟨diagnostic', arena', heq, hout⟩ := @ParseOutcome.abandoned arguments
        ⟨⟨⟨arguments.storage.storage.allocator, none, 0, false⟩, true⟩, fun _ => none, 0, true⟩
        h arena { arena with requests := arena.requests + 1 } (.start hvalid) id
        (fun others hout => hout.request) (ArgumentsTaken inputs)
        (argumentsDiagnose .outOfMemory none 0) ArgumentsResult.noConfusion
        (fun hall => by rw [hgranted] at hall; cases hall.2.1)
      exact ⟨_, _, _, congrArg _ heq, hout⟩
    | true =>
      -- the block is there, and is filled with zeros
      have hcases := arena.allocate_cases total
      rw [Arena.allocate, if_pos hgranted] at hcases
      obtain ⟨between, hbetween⟩ : ∃ between : Arena, between = { arena with
          requests := arena.requests + 1, log := .acquired arena.requests :: arena.log } := ⟨_, rfl⟩
      rw [← hbetween] at hcases
      obtain ⟨hfreed, hout⟩ : between.freed = arena.freed ∧
          ∀ held, arena.Holds held → between.Holds (arena.requests :: held) := by
        rcases hcases with ⟨block, arena', heq, -, hfreed, hholds⟩ | ⟨arena', heq, -⟩
        · cases heq
          exact ⟨hfreed, hholds⟩
        · cases heq
      have hnext : between.answer = arena.answers (arena.requests + 1) := by rw [hbetween]; rfl
      let zeros : MemoryBlock := ⟨arena.requests, List.replicate total 0⟩
      have hsize : zeros.bytes.length = total := List.length_replicate
      have hwrite : writeAt ((List.range total).map arena.answer.fill) 0 (List.replicate total 0) =
          .ok zeros.bytes := by
        rw [writeAt, if_pos (by simp), List.take_zero, List.nil_append,
          List.length_replicate, Nat.zero_add, List.drop_of_length_le (by simp), List.append_nil]
      obtain ⟨diagnostic, parsed, memory, offset, hall, haddress, hlength, hmatch⟩ :=
        argumentsParseAll_spec
          (StoredArguments.represents_zero arguments.storage.storage.allocator zeros)
          (by rw [Nat.zero_add, hsize, hroom]) (argumentsDiagnose .ok none 0) rfl
      rw [textsOf_map_some hgiven, hsize] at hall
      simp only [if_true, sensitiveMemoryData, Bool.not_true, Bool.or_self,
        Bool.false_eq_true, if_false, hwrite, ok_bind, ← hbetween]
      rw [hall, ok_bind]
      dsimp only
      -- who parses keeps the block that it was given
      have hkeep (offset : ℕ) (model : ParsedArgumentValues)
          (hparsed : parsed.Represents arguments.storage.storage.allocator memory offset model) :
          parsed.storage.storage.Sound ∧ ∀ others,
            arena.Holds (addressesOf arguments.storage.storage.memory ++ others) →
              between.Holds (addressesOf parsed.storage.storage.memory ++
                (addressesOf arguments.storage.storage.memory ++ others)) := by
        refine ⟨(hparsed.sound hvalid).storage, fun others hold => ?_⟩
        rw [hparsed.storage]
        show between.Holds (memory.address :: _)
        rw [haddress]
        exact hout _ hold
      cases hfold : (textsOf inputs).foldlM argumentsParseOne {} with
      | error failure =>
        rw [hfold] at hmatch
        obtain ⟨hresult, -, stored, hparsed⟩ := hmatch
        have hfailed : diagnostic.result ≠ .ok := fun hsame =>
          failure.result.result_ne (hresult.symm.trans hsame)
        obtain ⟨hsound, hholds⟩ := hkeep _ _ hparsed
        rw [if_pos hfailed]
        obtain ⟨diagnostic', arena', heq, hdone⟩ := ParseOutcome.abandoned h arena between hsound
          (fun hwiped => by rwa [Arena.Wiped, hfreed]) hholds (ArgumentsTaken inputs)
            diagnostic hfailed
          (fun hall => hall.1.elim fun model htaken => by
            have hboth := hfold.symm.trans htaken.read
            cases hboth)
        refine ⟨_, _, _, ?_, hdone⟩
        rw [heq]
        rfl
      | ok model =>
        rw [hfold] at hmatch
        obtain ⟨hresult, hparsed⟩ := hmatch
        obtain ⟨hsound, hholds⟩ := hkeep _ _ hparsed
        rw [if_neg (not_not_intro hresult)]
        cases hcheck : argumentsValidateCombinations parsed with
        | error argumentId =>
          have hincompatible : ¬model.Compatible := fun hcompatible => by
            rw [(argumentsValidateCombinations_iff hparsed).mpr hcompatible] at hcheck
            cases hcheck
          obtain ⟨diagnostic', arena', heq, hdone⟩ := ParseOutcome.abandoned h arena between hsound
            (fun hwiped => by rwa [Arena.Wiped, hfreed]) hholds (ArgumentsTaken inputs)
            (argumentsDiagnose .incompatible argumentId parsed.presence) ArgumentsResult.noConfusion
            (fun hall => hall.1.elim fun other htaken => hincompatible
              (Except.ok.inj (hfold.symm.trans htaken.read) ▸ htaken.compatible))
          refine ⟨_, _, _, ?_, hdone⟩
          dsimp only
          rw [heq]
          rfl
        | ok =>
          have htaken : ArgumentsTaken inputs model :=
            ⟨fun hnil => hcount.1 (by rw [hnil]; rfl), Nat.le_of_not_lt hcount.2, hgiven, hlengths,
              htotal, hfold, (argumentsValidateCombinations_iff hparsed).mp hcheck⟩
          -- the old block goes back
          have hrelease := sensitiveMemoryRelease_eq_ok_iff h.storageInitialized h.storage between
          obtain ⟨result, storage, arena', heq, -, hwiped, hback, hgone, hstay⟩ :=
            sensitiveMemoryRelease_spec h.storage between
          rw [heq, hnext] at hrelease
          dsimp only at hrelease ⊢
          rw [heq]
          cases result with
          | ok =>
            refine ⟨_, _, _, rfl, hparsed.sound hvalid,
              iff_of_true rfl ⟨⟨model, htaken⟩, hgranted, hrelease.mp rfl⟩,
              fun _ other hother => ?_, fun hne => absurd rfl hne,
              fun hclean => hwiped (by rwa [Arena.Wiped, hfreed]), fun _ others hold => ?_⟩
            · rw [← htaken.unique hother]
              exact hparsed.tells
            · have hboth := hholds others hold
              rw [hgone rfl] at hback
              exact hback _ (hboth.perm (List.perm_append_comm_assoc _ _ _))
          | _ =>
            obtain ⟨hsame, hfreed'⟩ := hstay SecureMemoryResult.noConfusion
            obtain rfl : storage = arguments.storage := hsame
            obtain ⟨diagnostic', arena'', heq', hdone⟩ :=
              ParseOutcome.abandoned h arena arena' hsound
              (fun hclean => hwiped (by rwa [Arena.Wiped, hfreed]))
              (fun others hold => (hback _ ((hholds others hold).perm
                (List.perm_append_comm_assoc _ _ _))).perm (List.perm_append_comm_assoc _ _ _))
              (ArgumentsTaken inputs) (argumentsDiagnose .cleanupFailed none arguments.presence)
              ArgumentsResult.noConfusion
              (fun hall => SecureMemoryResult.noConfusion (hrelease.mpr hall.2.2))
            refine ⟨_, _, _, ?_, hdone⟩
            dsimp only
            rw [← h.initialized, heq']
            rfl

end Whole

/-- Arguments that hold a service from an earlier parse, in the first block that was given out. -/
def servedArguments : StoredArguments where
  storage := ⟨⟨⟨some .system, true, true, true⟩, some ⟨0, ascii "old" ++ [0]⟩, 4, true⟩, true⟩
  values argumentId := if argumentId = .service then some ⟨.string, 0, 3, 0, .none, false⟩ else none
  presence := ArgumentId.service.flag
  initialized := true

theorem servedArguments_sound : servedArguments.Sound :=
  ⟨rfl, rfl, by decide, rfl, fun block h => by cases h; rfl⟩

/-- That block is out. -/
def servedArena : Arena := ⟨fun _ => ⟨true, fun _ => 0, true⟩, 1, [.acquired 0], []⟩

/-- `source = query`, `query = 'SELECT 1'` and a service. -/
def plainInputs : List (Option (List UInt8)) :=
  [some (ascii "source=query"), some (ascii "Query = 'SELECT 1'"), some (ascii "service=db")]

end Vps
