import VirtualPostgreSQL.Machinery.Trim
import VirtualPostgreSQL.Machinery.Utf8

/-!
# Arguments/Parse — the arguments of a virtual table

`CREATE VIRTUAL TABLE` hands the module texts of the form `name = value`.
`vps_arguments_parse_one` takes one of them apart: spaces around the name, the first `=` and the
value are dropped, the name is looked up whatever its case, and the value is decoded — in single
quotes, an apostrophe inside them doubled, or bare and without one — and checked against what its
option is.
-/

namespace Vps

open Machinery

/-! ## The options -/

/-- `VpsArgumentType` -/
inductive ArgumentType
  | string | uint32 | boolean | enumeration
  deriving DecidableEq, Repr

/-- `VpsArgumentId`, in the order of the definition table. -/
inductive ArgumentId
  | credentialRef | service | serviceFile | profile | connstr | source | schema | table | query
  | queryProfile | mode | allowView | allowMaterializedView | allowForeignTable | keyColumns
  | optimisticLock | versionColumn | geometry | srid | connectTimeout | statementTimeout
  | lockTimeout | poolMin | poolMax | poolIdleTimeout | poolWaitTimeout | poolValidationInterval
  | poolReset | poolReadonlySeparate | metadataMode | schemaPolicy | queryIndexes
  | queryMaterialization | isolation | transactionReadOnly
  deriving DecidableEq, Repr

/-- `VpsArgumentDefinition` -/
structure ArgumentDefinition where
  name : List UInt8
  type : ArgumentType
  limit : ℕ
  sensitive : Bool := false

/-- `VPS_ARGUMENT_NAME_LIMIT` -/
def argumentNameLimit : ℕ := 64

/-- `VPS_ARGUMENT_VALUE_LIMIT` -/
def argumentValueLimit : ℕ := 16384

/-- `vps_argument_definitions` -/
def ArgumentId.definition : ArgumentId → ArgumentDefinition
  | credentialRef => ⟨ascii "credential_ref", .string, 255, false⟩
  | service => ⟨ascii "service", .string, 255, false⟩
  | serviceFile => ⟨ascii "service_file", .string, 1024, false⟩
  | profile => ⟨ascii "profile", .string, 255, false⟩
  | connstr => ⟨ascii "connstr", .string, 4096, true⟩
  | source => ⟨ascii "source", .enumeration, 16, false⟩
  | schema => ⟨ascii "schema", .string, 255, false⟩
  | table => ⟨ascii "table", .string, 255, false⟩
  | query => ⟨ascii "query", .string, argumentValueLimit, true⟩
  | queryProfile => ⟨ascii "query_profile", .string, 255, false⟩
  | mode => ⟨ascii "mode", .enumeration, 8, false⟩
  | allowView => ⟨ascii "allow_view", .boolean, 5, false⟩
  | allowMaterializedView => ⟨ascii "allow_materialized_view", .boolean, 5, false⟩
  | allowForeignTable => ⟨ascii "allow_foreign_table", .boolean, 5, false⟩
  | keyColumns => ⟨ascii "key_columns", .string, 2048, false⟩
  | optimisticLock => ⟨ascii "optimistic_lock", .string, 255, false⟩
  | versionColumn => ⟨ascii "version_column", .string, 255, false⟩
  | geometry => ⟨ascii "geometry", .enumeration, 10, false⟩
  | srid => ⟨ascii "srid", .uint32, 10, false⟩
  | connectTimeout => ⟨ascii "connect_timeout", .uint32, 10, false⟩
  | statementTimeout => ⟨ascii "statement_timeout", .uint32, 10, false⟩
  | lockTimeout => ⟨ascii "lock_timeout", .uint32, 10, false⟩
  | poolMin => ⟨ascii "pool_min", .uint32, 10, false⟩
  | poolMax => ⟨ascii "pool_max", .uint32, 10, false⟩
  | poolIdleTimeout => ⟨ascii "pool_idle_timeout", .uint32, 10, false⟩
  | poolWaitTimeout => ⟨ascii "pool_wait_timeout", .uint32, 10, false⟩
  | poolValidationInterval => ⟨ascii "pool_validation_interval", .uint32, 10, false⟩
  | poolReset => ⟨ascii "pool_reset", .enumeration, 16, false⟩
  | poolReadonlySeparate => ⟨ascii "pool_readonly_separate", .boolean, 5, false⟩
  | metadataMode => ⟨ascii "metadata_mode", .enumeration, 8, false⟩
  | schemaPolicy => ⟨ascii "schema_policy", .enumeration, 8, false⟩
  | queryIndexes => ⟨ascii "query_indexes", .string, 8192, false⟩
  | queryMaterialization => ⟨ascii "query_materialization", .enumeration, 6, false⟩
  | isolation => ⟨ascii "isolation", .enumeration, 16, false⟩
  | transactionReadOnly => ⟨ascii "transaction_read_only", .boolean, 5, false⟩

/-- The table in order. -/
def ArgumentId.all : List ArgumentId :=
  [.credentialRef, .service, .serviceFile, .profile, .connstr, .source, .schema, .table, .query,
    .queryProfile, .mode, .allowView, .allowMaterializedView, .allowForeignTable, .keyColumns,
    .optimisticLock, .versionColumn, .geometry, .srid, .connectTimeout, .statementTimeout,
    .lockTimeout, .poolMin, .poolMax, .poolIdleTimeout, .poolWaitTimeout, .poolValidationInterval,
    .poolReset, .poolReadonlySeparate, .metadataMode, .schemaPolicy, .queryIndexes,
    .queryMaterialization, .isolation, .transactionReadOnly]

/-- `vps_argument_find_id` -/
def argumentFindId (name : List UInt8) : Option ArgumentId :=
  ArgumentId.all.find? fun argumentId => argumentId.definition.name == name

/-! ## Values -/

/-- `VpsArgumentEnumValue` -/
inductive ArgumentEnumValue
  | none | sourceTable | sourceQuery | modeRo | modeRw | geometryWkt | geometryWkb | geometryEwkt
  | geometryEwkb | geometrySpatialite | geometryNone | poolDiscardAll | poolStrictReset
  | metadataLive | metadataCached | schemaStrict | schemaRefresh | materializationOff
  | materializationMemory | materializationTemp | isolationReadCommitted
  | isolationRepeatableRead | isolationSerializable
  deriving DecidableEq, Repr

/-- `VpsArgumentValue`; the bytes stand for the offset and the length of its text. -/
structure ArgumentValue where
  type : ArgumentType
  bytes : List UInt8
  uint32Value : UInt32 := 0
  enumValue : ArgumentEnumValue := .none
  booleanValue : Bool := false
  deriving DecidableEq, Repr

/-- The names that `vps_argument_parse_enum` knows for an option. -/
def ArgumentId.enumNames : ArgumentId → List (List UInt8 × ArgumentEnumValue)
  | source => [(ascii "table", .sourceTable), (ascii "query", .sourceQuery)]
  | mode => [(ascii "ro", .modeRo), (ascii "rw", .modeRw)]
  | geometry =>
    [(ascii "wkt", .geometryWkt), (ascii "wkb", .geometryWkb), (ascii "ewkt", .geometryEwkt),
      (ascii "ewkb", .geometryEwkb), (ascii "spatialite", .geometrySpatialite),
      (ascii "none", .geometryNone)]
  | poolReset => [(ascii "discard_all", .poolDiscardAll), (ascii "strict_reset", .poolStrictReset)]
  | metadataMode => [(ascii "live", .metadataLive), (ascii "cached", .metadataCached)]
  | schemaPolicy => [(ascii "strict", .schemaStrict), (ascii "refresh", .schemaRefresh)]
  | queryMaterialization =>
    [(ascii "off", .materializationOff), (ascii "memory", .materializationMemory),
      (ascii "temp", .materializationTemp)]
  | isolation =>
    [(ascii "read_committed", .isolationReadCommitted),
      (ascii "repeatable_read", .isolationRepeatableRead),
      (ascii "serializable", .isolationSerializable)]
  | _ => []

/-- `vps_argument_parse_enum` -/
def argumentParseEnum (argumentId : ArgumentId) (value : List UInt8) : Option ArgumentEnumValue :=
  argumentId.enumNames.lookup value

/-- `vps_argument_parse_boolean` -/
def argumentParseBoolean (value : List UInt8) : Option Bool :=
  if value = ascii "true" then some true
  else if value = ascii "false" then some false
  else none

/-- `vps_argument_parse_uint32`; the number stays below `2 ^ 32`. -/
def argumentParseUint32 (value : List UInt8) : Option UInt32 :=
  if value = [] then none
  else (value.foldlM (fun result byte =>
    if !isDigit byte then none
    else if result > (4294967295 - (byte.toNat - 48)) / 10 then none
    else some (result * 10 + (byte.toNat - 48))) 0).map (·.toUInt32)

/-- `vps_argument_utf8_is_valid` -/
def argumentUtf8IsValid (value : List UInt8) : Bool :=
  match value with
  | [] => true
  | byte :: rest =>
    match _hrest : utf8Rest (byte :: rest) with
    | none => false
    | some rest => argumentUtf8IsValid rest
termination_by value.length
decreasing_by exact utf8Rest_length _hrest

/-- The bytes that no value holds. -/
def isControlByte (byte : UInt8) : Bool := byte < 0x20 || byte == 0x7f

/-- `vps_argument_value_bytes_are_valid` -/
def argumentValueBytesAreValid (value : List UInt8) : Bool :=
  value.length != 0 && argumentUtf8IsValid value && !value.any isControlByte

/-- The loop over a quoted value, between its quotes. -/
def argumentUnquote : List UInt8 → Option (List UInt8)
  | [] => some []
  | [byte] => if byte = 39 then none else some [byte]
  | byte :: next :: rest =>
    if byte = 39 then
      if next = 39 then (argumentUnquote rest).map (39 :: ·) else none
    else (argumentUnquote (next :: rest)).map (byte :: ·)

/-- What `vps_argument_decode_value` writes before it looks at the bytes. -/
def argumentDecoded : List UInt8 → Option (List UInt8)
  | [] => none
  | byte :: rest =>
    if byte = 39 then
      if rest.getLast? = some 39 then argumentUnquote rest.dropLast else none
    else if (byte :: rest).contains 39 then none
    else some (byte :: rest)

/-- **`vps_argument_decode_value`** -/
def argumentDecodeValue (input : List UInt8) : Option (List UInt8) :=
  (argumentDecoded input).filter argumentValueBytesAreValid

/-! ## One argument -/

/-- `VpsArgumentsResult`, the failures of one argument. -/
inductive ArgumentsError
  | unknownArgument | duplicateArgument | malformed | limitExceeded | rangeError
  deriving DecidableEq, Repr

/-- `VpsArgumentsDiagnostic`: the result and the option it is about. -/
structure ArgumentsFailure where
  result : ArgumentsError
  argumentId : Option ArgumentId
  deriving DecidableEq, Repr

/-- `VpsParsedArguments`; the presence mask names the options that have a value. -/
structure ParsedArgumentValues where
  values : ArgumentId → Option ArgumentValue := fun _ => none

/-- A value is stored. -/
def ParsedArgumentValues.store (parsed : ParsedArgumentValues) (argumentId : ArgumentId)
    (value : ArgumentValue) : ParsedArgumentValues :=
  { values := fun other => if other = argumentId then some value else parsed.values other }

/-- A space. -/
def isSpaceByte (byte : UInt8) : Bool := byte == 32

/-- `vps_argument_name_character_is_valid` for the first byte of a name and the others. -/
def argumentNameIsValid : List UInt8 → Bool
  | [] => true
  | first :: rest =>
    isAlpha first && rest.all fun byte => isAlpha byte || isDigit byte || byte == 95

/-- The name and the value of a text, at the first `=` and without the spaces around them. -/
def argumentSplit (text : List UInt8) : Option (List UInt8 × List UInt8) :=
  let body := trim isSpaceByte text
  match body.dropWhile (· != 61) with
  | [] => none
  | _ :: value =>
    let name := (body.takeWhile (· != 61)).rdropWhile isSpaceByte
    if name = [] ∨ name.length > argumentNameLimit ∨ trim isSpaceByte value = [] then none
    else some (name, trim isSpaceByte value)

/-- The value of an option, by what the option is. -/
def argumentTyped (argumentId : ArgumentId) (bytes : List UInt8) :
    Except ArgumentsError ArgumentValue :=
  match argumentId.definition.type with
  | .string => .ok { type := .string, bytes }
  | .uint32 =>
    match argumentParseUint32 bytes with
    | some value => .ok { type := .uint32, bytes, uint32Value := value }
    | none => .error .rangeError
  | .boolean =>
    match argumentParseBoolean bytes with
    | some value => .ok { type := .boolean, bytes, booleanValue := value }
    | none => .error .malformed
  | .enumeration =>
    match argumentParseEnum argumentId bytes with
    | some value => .ok { type := .enumeration, bytes, enumValue := value }
    | none => .error .malformed

/-- What `vps_arguments_parse_one` does once the option is known. -/
def argumentStore (parsed : ParsedArgumentValues) (argumentId : ArgumentId) (input : List UInt8) :
    Except ArgumentsFailure ParsedArgumentValues :=
  if (parsed.values argumentId).isSome then .error ⟨.duplicateArgument, argumentId⟩
  else match argumentDecodeValue input with
  | none => .error ⟨.malformed, argumentId⟩
  | some bytes =>
    if bytes.length > argumentId.definition.limit then .error ⟨.limitExceeded, argumentId⟩
    else match argumentTyped argumentId bytes with
    | .error result => .error ⟨result, argumentId⟩
    | .ok value => .ok (parsed.store argumentId value)

/-- **`vps_arguments_parse_one`** -/
def argumentsParseOne (parsed : ParsedArgumentValues) (text : List UInt8) :
    Except ArgumentsFailure ParsedArgumentValues :=
  match argumentSplit text with
  | none => .error ⟨.malformed, none⟩
  | some (name, value) =>
    if !argumentNameIsValid name then .error ⟨.malformed, none⟩
    else match argumentFindId (name.map toLower) with
    | none => .error ⟨.unknownArgument, none⟩
    | some argumentId => argumentStore parsed argumentId value

/-- The bytes of a value between its quotes: each apostrophe is written twice. -/
def apostrophesDoubled (value : List UInt8) : List UInt8 :=
  value.flatMap fun byte => if byte = 39 then [39, 39] else [byte]

/-- The argument that `vps_metadata_runtime_create` makes of a connection string. -/
def metadataConnectionArgument (connection : List UInt8) : Option (List UInt8) :=
  if connection.length = 0 ∨ connection.length > 4096 ∨ 0 ∈ connection then none
  else some (ascii "connstr='" ++ apostrophesDoubled connection ++ [39])

end Vps
