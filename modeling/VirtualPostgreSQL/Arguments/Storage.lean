import VirtualPostgreSQL.Arguments.Parse
import VirtualPostgreSQL.Client.Conninfo
import VirtualPostgreSQL.Credential.Config

/-!
# Arguments/Storage — the parsed arguments in one block

`vps_arguments_parse` measures its inputs, allocates one sensitive block, and decodes each value
into it behind the one before, ended by a zero byte; a value is then known by its offset and its
length.  The result takes the place of the arguments that were there only if every input was taken
and they go together (`vps_arguments_validate_combinations`).
-/

namespace Vps

open Machinery

/-! ## Types -/

/-- `VpsArgumentsResult` -/
inductive ArgumentsResult
  | ok | invalidArgument | unknownArgument | duplicateArgument | malformed |
    limitExceeded | rangeError
  | incompatible | outOfMemory | cleanupFailed
  deriving DecidableEq, Repr

/-- The place of an option in the table. -/
def ArgumentId.place (argumentId : ArgumentId) : ℕ := ArgumentId.all.idxOf argumentId

/-- `VPS_ARGUMENT_…`, the flag of an option. -/
def ArgumentId.flag (argumentId : ArgumentId) : UInt64 := 1 <<< argumentId.place.toUInt64

/-- `VPS_ARGUMENT_CONNECTION_MODES` -/
def argumentConnectionModes : UInt64 :=
  ArgumentId.credentialRef.flag ||| ArgumentId.service.flag ||| ArgumentId.profile.flag |||
    ArgumentId.connstr.flag

/-- `VpsArgumentValue` of the table. -/
structure StoredArgument where
  type : ArgumentType
  offset : ℕ
  length : ℕ
  uint32Value : UInt32
  enumValue : ArgumentEnumValue
  booleanValue : Bool
  deriving DecidableEq, Repr

/-- `VpsParsedArguments`; a value that is not present is `none`. -/
structure StoredArguments where
  storage : SensitiveMemory
  values : ArgumentId → Option StoredArgument
  presence : UInt64
  initialized : Bool

/-- `VpsArgumentsDiagnostic` -/
structure ArgumentsDiagnostic where
  result : ArgumentsResult
  argumentId : Option ArgumentId
  presence : UInt64
  sensitive : Bool
  deriving DecidableEq, Repr

/-- `vps_arguments_set_diagnostic` -/
def argumentsDiagnose (result : ArgumentsResult) (argumentId : Option ArgumentId)
    (presence : UInt64) :
    ArgumentsDiagnostic :=
  ⟨result, argumentId, presence,
    (argumentId.map fun known => known.definition.sensitive).getD false⟩

/-! ## Decoding into the block -/

/-- The loop over a quoted value, between its quotes: whether it went through, the block, and where
the next byte goes. -/
def argumentUnquoteInto : List UInt8 → List UInt8 → ℕ → Buffered (Bool × List UInt8 × ℕ)
  | [], block, output => return (true, block, output)
  | [byte], block, output => do
    if byte = 39 then return (false, block, output)
    else return (true, ← writeAt block output [byte], output + 1)
  | byte :: next :: rest, block, output => do
    if byte = 39 then
      if next = 39 then argumentUnquoteInto rest (← writeAt block output [next]) (output + 1)
      else return (false, block, output)
    else argumentUnquoteInto (next :: rest) (← writeAt block output [byte]) (output + 1)

/-- The loop over a bare value. -/
def argumentBareInto : List UInt8 → List UInt8 → ℕ → Buffered (Bool × List UInt8 × ℕ)
  | [], block, output => return (true, block, output)
  | byte :: rest, block, output => do
    if byte = 39 then return (false, block, output)
    else argumentBareInto rest (← writeAt block output [byte]) (output + 1)

/-- **`vps_argument_decode_value`**, into the block from an offset on: the length that was
decoded. -/
def argumentDecodeInto (input block : List UInt8) (offset : ℕ) :
    Buffered (Option ℕ × List UInt8) := do
  match input with
  | [] => return (none, block)
  | byte :: rest =>
    if byte = 39 ∧ rest.getLast? ≠ some 39 then return (none, block)
    else
      let (whole, block, output) ←
        if byte = 39 then argumentUnquoteInto rest.dropLast block offset
        else argumentBareInto (byte :: rest) block offset
      if !whole then return (none, block)
      else if !argumentValueBytesAreValid (← sliceAt block offset (output - offset)) then
        return (none, block)
      else return (some (output - offset), ← writeAt block output [0])

/-- The result of a failure of one argument. -/
def ArgumentsError.result : ArgumentsError → ArgumentsResult
  | .unknownArgument => .unknownArgument
  | .duplicateArgument => .duplicateArgument
  | .malformed => .malformed
  | .limitExceeded => .limitExceeded
  | .rangeError => .rangeError

/-- What `vps_arguments_parse_one` does once the option is known. -/
def argumentStoreInto (parsed : StoredArguments) (offset : ℕ) (argumentId : ArgumentId)
    (input : List UInt8) : Buffered (ArgumentsDiagnostic × StoredArguments × ℕ) := do
  let failed (result : ArgumentsResult) := argumentsDiagnose result argumentId parsed.presence
  if parsed.presence &&& argumentId.flag ≠ 0 then return (failed .duplicateArgument, parsed, offset)
  else match sensitiveMemoryData parsed.storage with
  | none => return (failed .malformed, parsed, offset)
  | some memory =>
    let (decoded, bytes) ← argumentDecodeInto input memory.bytes offset
    let parsed := { parsed with storage.storage.memory := some { memory with bytes } }
    match decoded with
    | none => return (failed .malformed, parsed, offset)
    | some length =>
      if length > argumentId.definition.limit then return (failed .limitExceeded, parsed, offset)
      else match argumentTyped argumentId (← sliceAt bytes offset length) with
      | .error result => return (failed result.result, parsed, offset)
      | .ok value =>
        let presence := parsed.presence ||| argumentId.flag
        return (argumentsDiagnose .ok argumentId presence, { parsed with
          values := Function.update parsed.values argumentId
            (some ⟨value.type, offset, length, value.uint32Value, value.enumValue,
              value.booleanValue⟩)
          presence }, offset + (length + 1))

/-- **`vps_arguments_parse_one`**; the offset is where the next value goes. -/
def argumentsParseOneInto (parsed : StoredArguments) (offset : ℕ) (text : List UInt8) :
    Buffered (ArgumentsDiagnostic × StoredArguments × ℕ) :=
  match argumentSplit text with
  | none => return (argumentsDiagnose .malformed none parsed.presence, parsed, offset)
  | some (name, value) =>
    if !argumentNameIsValid name then
      return (argumentsDiagnose .malformed none parsed.presence, parsed, offset)
    else match argumentFindId (name.map toLower) with
    | none => return (argumentsDiagnose .unknownArgument none parsed.presence, parsed, offset)
    | some argumentId => argumentStoreInto parsed offset argumentId value

/-! ## Combinations -/

/-- `arguments->values[…].present`, and its enumeration value. -/
def StoredArguments.isEnum (arguments : StoredArguments) (argumentId : ArgumentId)
    (value : ArgumentEnumValue) : Bool :=
  ((arguments.values argumentId).map (·.enumValue == value)).getD false

/-- **`vps_arguments_validate_combinations`**: the option that does not go with the others, or the
result. -/
def argumentsValidateCombinations (arguments : StoredArguments) : Except (Option ArgumentId) Unit :=
  let presence := arguments.presence
  let modes := presence &&& argumentConnectionModes
  let relation := ArgumentId.schema.flag ||| ArgumentId.table.flag
  let queries := presence &&& (ArgumentId.query.flag ||| ArgumentId.queryProfile.flag)
  if modes = 0 ∨ modes &&& (modes - 1) ≠ 0 then .error none
  else if (arguments.values .source).isNone then .error (some .source)
  else if presence &&& ArgumentId.serviceFile.flag ≠ 0 ∧
    presence &&& ArgumentId.service.flag = 0 then
    .error (some .serviceFile)
  else if arguments.isEnum .source .sourceTable ∧
      (presence &&& relation ≠ relation ∨ queries ≠ 0) then
    .error (some .source)
  else if ¬arguments.isEnum .source .sourceTable ∧
      (queries = 0 ∨ queries &&& (queries - 1) ≠ 0 ∨
        presence &&& (relation ||| ArgumentId.allowView.flag |||
          ArgumentId.allowMaterializedView.flag ||| ArgumentId.allowForeignTable.flag) ≠ 0 ∨
        arguments.isEnum .mode .modeRw) then
    .error (some .source)
  else match arguments.values .poolMin, arguments.values .poolMax with
  | some least, some most =>
    if least.uint32Value > most.uint32Value then .error (some .poolMin) else lists
  | _, _ => lists
where
  /-- The lists that describe a query. -/
  lists : Except (Option ArgumentId) Unit :=
    if ¬arguments.isEnum .source .sourceQuery ∧
        arguments.presence &&&
          (ArgumentId.queryIndexes.flag ||| ArgumentId.queryMaterialization.flag) ≠ 0 then
      .error (some .queryMaterialization)
    else .ok ()

/-! ## The whole -/

/-- `VPS_ARGUMENT_MAX_COUNT` -/
def argumentMaxCount : ℕ := 64

/-- `VPS_ARGUMENT_TOTAL_LIMIT` -/
def argumentTotalLimit : ℕ := 65536

/-- The loop that measures the inputs. -/
def argumentsMeasure : List (Option (List UInt8)) → ℕ → Option ℕ
  | [], total => some total
  | none :: _, _ => none
  | some text :: rest, total =>
    if text.length = 0 ∨ text.length > argumentValueLimit then none
    else match (sizeAdd text.length 1).bind (sizeAdd total) with
    | none => none
    | some total => if total > argumentTotalLimit then none else argumentsMeasure rest total

/-- The loop that parses the inputs. -/
def argumentsParseAll : List (Option (List UInt8)) → StoredArguments → ℕ → ArgumentsDiagnostic →
    Buffered (ArgumentsDiagnostic × StoredArguments)
  | [], parsed, _, diagnostic => return (diagnostic, parsed)
  | none :: _, _, _, _ => .error .outside
  | some text :: rest, parsed, offset, _ => do
    let (diagnostic, parsed, offset) ← argumentsParseOneInto parsed offset text
    if diagnostic.result ≠ .ok then return (diagnostic, parsed)
    else argumentsParseAll rest parsed offset diagnostic

/-- `vps_arguments_init` -/
def argumentsInit (allocator : Allocator) (operations : Bool) : ArgumentsResult × StoredArguments :=
  let zero : OwnedMemory := ⟨⟨none, false, false, false⟩, none, 0, false⟩
  match sensitiveMemoryInit ⟨zero, false⟩ allocator operations with
  | (.ok, storage) => (.ok, ⟨storage, fun _ => none, 0, true⟩)
  | (_, storage) => (.invalidArgument, ⟨storage, fun _ => none, 0, false⟩)

/-- From the label `replacement_done` on. -/
def argumentsAbandon (arguments replacement : StoredArguments) (arena : Arena)
    (diagnostic : ArgumentsDiagnostic) : ArgumentsDiagnostic × StoredArguments × Arena :=
  match sensitiveMemoryRelease replacement.storage arena with
  | (.ok, _, arena) => (diagnostic, arguments, arena)
  | (_, _, arena) => (argumentsDiagnose .cleanupFailed none arguments.presence, arguments, arena)

/-- **`vps_arguments_parse`** of initialised arguments: the diagnostic has the result. -/
def argumentsParse (arguments : StoredArguments) (arena : Arena)
    (inputs : Option (List (Option (List UInt8)))) :
    Buffered (ArgumentsDiagnostic × StoredArguments × Arena) := do
  let inputs := inputs.getD []
  if !arguments.initialized || inputs.length == 0 || inputs.length > argumentMaxCount then
    return (argumentsDiagnose .invalidArgument none 0, arguments, arena)
  else match argumentsMeasure inputs 0 with
  | none => return (argumentsDiagnose .limitExceeded none 0, arguments, arena)
  | some total =>
    -- the operations were valid when the arguments were initialised
    match argumentsInit arguments.storage.storage.allocator true with
    | (.ok, replacement) =>
      match sensitiveMemoryAllocate replacement.storage arena total with
      | (.ok, storage, arena) =>
        match sensitiveMemoryData storage with
        | none => .error .outside
        | some memory =>
          let bytes ← writeAt memory.bytes 0 (List.replicate total 0)
          let replacement := { replacement with
            storage := { storage with storage.memory := some { memory with bytes } } }
          let (diagnostic, replacement) ← argumentsParseAll inputs replacement 0
            (argumentsDiagnose .ok none 0)
          if diagnostic.result ≠ .ok then
            return argumentsAbandon arguments replacement arena diagnostic
          else match argumentsValidateCombinations replacement with
          | .error argumentId =>
            let diagnostic := argumentsDiagnose .incompatible argumentId replacement.presence
            return argumentsAbandon arguments replacement arena diagnostic
          | .ok () =>
            match sensitiveMemoryRelease arguments.storage arena with
            | (.ok, _, arena) =>
              return (argumentsDiagnose .ok none replacement.presence, replacement, arena)
            | (_, storage, arena) =>
              let diagnostic := argumentsDiagnose .cleanupFailed none arguments.presence
              return argumentsAbandon { arguments with storage } replacement arena diagnostic
      | (result, storage, arena) =>
        let diagnostic := argumentsDiagnose
          (if result = .outOfMemory then .outOfMemory else .invalidArgument) none 0
        return argumentsAbandon arguments { replacement with storage } arena diagnostic
    -- the diagnostic is left as it was
    | (result, _) => return ({ argumentsDiagnose .ok none 0 with result }, arguments, arena)

/-- `vps_arguments_reset` -/
def argumentsReset (arguments : StoredArguments) (arena : Arena) :
    ArgumentsResult × StoredArguments × Arena :=
  if !arguments.initialized then (.invalidArgument, arguments, arena)
  else match sensitiveMemoryRelease arguments.storage arena with
  | (.ok, storage, arena) =>
    (.ok, { arguments with storage, values := fun _ => none, presence := 0 }, arena)
  | (_, storage, arena) => (.cleanupFailed, { arguments with storage }, arena)

/-- **`vps_argument_text`**: the bytes of a value, and the C string that its pointer shows. -/
def argumentText (arguments : StoredArguments) (argumentId : ArgumentId) :
    Option (List UInt8 × CString) :=
  if !arguments.initialized then none
  else match arguments.values argumentId, arguments.storage.storage.memory with
  | some value, some memory =>
    let size := arguments.storage.storage.size
    if value.offset > size ∨ value.length ≥ size - value.offset then none
    else some (slice memory.bytes value.offset value.length, cStringAt memory.bytes value.offset)
  | _, _ => none

end Vps
