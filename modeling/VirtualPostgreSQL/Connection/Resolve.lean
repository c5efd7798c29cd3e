import VirtualPostgreSQL.Arguments.Storage
import VirtualPostgreSQL.Credential.Registry
import VirtualPostgreSQL.Platform.Deadline

/-!
# Connection/Resolve — where a connection gets its configuration from

`vps_connection_string.c`, and `vps_libpq_client_conninfo_parse`.  The arguments name one of four
sources: a credential of the registry, a service of libpq, a profile of the environment, or a
connection string. Each of them ends in a configuration that is copied into one sensitive block
(`connectionCopyConfig`), and the connection is replaced only if all went well.
-/

namespace Vps

open Machinery

/-! ## Types -/

/-- `VpsConnectionMode` -/
inductive ConnectionMode
  | none | credentialRef | service | profile | connstr
  deriving DecidableEq, Repr

/-- `VpsConnectionStringResult` -/
inductive ConnectionStringResult
  | ok | invalidArgument | invalidMode | invalidValue | limitExceeded | providerUnavailable
  | resolveFailed | environmentError | conninfoRejected | outOfMemory | cleanupFailed
  deriving DecidableEq, Repr

/-- `VpsConnectionConfig`; the members of the configuration point into the block of the storage. -/
structure ResolvedConnection where
  config : WinCredConfig
  storage : SensitiveMemory
  mode : ConnectionMode
  providerId : UInt64
  generation : UInt64
  normalizedProfile : List UInt8
  persistentConnstrRisk : Bool
  initialized : Bool

/-- `VpsProfileEnvironmentEntry` -/
structure ProfileEnvironmentEntry where
  name : Option CString
  value : Option CString
  deriving DecidableEq, Repr

/-- What `vps_platform_environment_get` answers: the bytes that it writes to the buffer, and the
size that it asks for. -/
structure EnvironmentAnswer where
  status : PlatformStatus
  written : List UInt8
  required : ℕ
  deriving DecidableEq, Repr

/-- What a conninfo parser does: it refuses, or it hands one configuration to the consumer and
returns what the consumer returns. -/
abbrev ConninfoParser := List UInt8 → Except ConnectionStringResult CredentialConfigView

/-- `VpsConnectionResolveOptions`, with what the registry, the platform and the provider answer. -/
structure ConnectionResolveOptions where
  credentialRegistry : Option CredentialRegistry
  conninfoParser : Option ConninfoParser
  profileEnvironment : Option (List ProfileEnvironmentEntry)
  profileEnvironmentCount : ℕ
  environment : List UInt8 → EnvironmentAnswer
  answer : CredentialAnswer
  enter : MutexAnswer
  leave : MutexAnswer

/-! ## The copy -/

/-- `profile_suffix` of `vps_connection_fields` -/
def CredentialMember.profileSuffix : CredentialMember → List UInt8
  | .hosts => ascii "HOST"
  | .ports => ascii "PORT"
  | .user => ascii "USER"
  | .password => ascii "PASSWORD"
  | .dbname => ascii "DBNAME"
  | .service => ascii "SERVICE"
  | .serviceFile => ascii "SERVICE_FILE"
  | .sslmode => ascii "SSLMODE"
  | .sslrootcert => ascii "SSLROOTCERT"
  | .sslcert => ascii "SSLCERT"
  | .sslkey => ascii "SSLKEY"
  | .sslcrl => ascii "SSLCRL"
  | .channelBinding => ascii "CHANNEL_BINDING"
  | .targetSessionAttrs => ascii "TARGET_SESSION_ATTRS"
  | .connectTimeout => ascii "CONNECT_TIMEOUT"
  | .statementTimeout => ascii "STATEMENT_TIMEOUT"
  | .lockTimeout => ascii "LOCK_TIMEOUT"
  | .applicationName => ascii "APPLICATION_NAME"
  | .searchPath => ascii "SEARCH_PATH"

/-- The loop of `vps_value_length`. -/
def valueLengthScan (memory : List UInt8) : ℕ → ℕ → Buffered (Option ℕ)
  | 0, _ => return none
  | rounds + 1, index => do
    let byte ← byteAt memory index
    if byte = 0 then return if index ≠ 0 then some index else none
    else if isControlByte byte then return none
    else valueLengthScan memory rounds (index + 1)

/-- **`vps_value_length`** -/
def valueLength : Option CString → Buffered (Option ℕ)
  | none => return none
  | some value => valueLengthScan value.memory (credentialValueMaxLength + 1) 0

/-- **`vps_copy_config`** of a connection. -/
def connectionCopyConfig (destination : ResolvedConnection) (arena : Arena)
    (source : CredentialConfigView) :
    Buffered (ConnectionStringResult × ResolvedConnection × Arena) := do
  let present := source.header.presentFields
  if source.header.apiVersion ≠ apiVersion ∨ present &&& ~~~credentialFieldsCurrent ≠ 0 ∨
      present &&& credentialFieldsCurrent = 0 then
    return (.invalidValue, destination, arena)
  else
    let measured ← configMeasure valueLength source.members present credentialMembers 0 (fun _ => 0)
    match measured with
    | none => return (.invalidValue, destination, arena)
    | some (total, lengths) =>
      match sensitiveMemoryAllocate destination.storage arena total with
      | (.ok, storage, arena) =>
        match sensitiveMemoryData storage with
        -- `memcpy` to `NULL`
        | none => .error .outside
        | some block =>
          let copy ← configCopy source.members present lengths credentialMembers
            ⟨0, block.bytes, destination.config.members⟩
          return (.ok, { destination with
            config := { destination.config with
              presentFields := present &&& credentialFieldsCurrent, members := copy.members }
            storage := { storage with
              storage.memory := some { block with bytes := copy.values } } }, arena)
      | (_, storage, arena) => return (.outOfMemory, { destination with storage }, arena)

/-- A configuration as a resolve sets it up before its fields. -/
def emptyConfigView : CredentialConfigView := ⟨⟨credentialConfigSize, apiVersion, 0⟩, fun _ => none⟩

/-- One more field. -/
def CredentialConfigView.set (view : CredentialConfigView) (member : CredentialMember)
    (value : CString) :
    CredentialConfigView :=
  { header := { view.header with presentFields := view.header.presentFields ||| member.field }
    members := Function.update view.members member (some value) }

/-! ## A connection string -/

/-- `PQconninfoOption`, as far as it is read. -/
structure PQconninfoOption where
  keyword : List UInt8
  val : Option CString
  deriving DecidableEq, Repr

/-- `offset` of `vps_conninfo_keywords` -/
def CredentialField.member : CredentialField → CredentialMember
  | .hosts => .hosts
  | .ports => .ports
  | .user => .user
  | .password => .password
  | .dbname => .dbname
  | .service => .service
  | .serviceFile => .serviceFile
  | .sslmode => .sslmode
  | .sslrootcert => .sslrootcert
  | .sslcert => .sslcert
  | .sslkey => .sslkey
  | .sslcrl => .sslcrl
  | .channelBinding => .channelBinding
  | .targetSessionAttrs => .targetSessionAttrs
  | .connectTimeout => .connectTimeout
  | .applicationName => .applicationName

/-- The loop over the options that libpq found. -/
def conninfoOptions : List PQconninfoOption → CredentialConfigView → Option CredentialConfigView
  | [], config => some config
  | option :: rest, config =>
    match option.val, findKeyword option.keyword with
    | some val, some field =>
      if option.keyword = ascii "fallback_application_name" ∧
        val.bytes ≠ ascii "VirtualPostgreSQL" then
        none
      else conninfoOptions rest (config.set field.member val)
    | _, _ => conninfoOptions rest config

/-- **`vps_libpq_client_conninfo_parse`**, up to the consumer; `granted` is what `malloc` answers,
`parse` is `PQconninfoParse`. -/
def libpqClientConninfoParse (granted : Bool)
    (parse : List UInt8 → Option (List PQconninfoOption)) :
    ConninfoParser := fun conninfo =>
  if conninfo.length = 0 ∨ conninfo.length > argumentValueLimit ∨ conninfo.contains 0 ∨
      (scanKeywords conninfo).isNone then
    .error .conninfoRejected
  else if !granted then .error .outOfMemory
  else match parse conninfo with
  | none => .error .conninfoRejected
  | some options =>
    match conninfoOptions options emptyConfigView with
    | none => .error .conninfoRejected
    | some config => .ok config

/-! ## A service -/

/-- The bytes of a service name. -/
def isServiceByte (byte : UInt8) : Bool :=
  isAlpha byte || isDigit byte || byte == 95 || byte == 45 || byte == 46

/-- `vps_safe_service_name` -/
def safeServiceName (value : List UInt8) : Bool :=
  value.length != 0 && value.length ≤ 128 && value.all isServiceByte

/-- Whether two bytes stand one after the other. -/
def hasPair (first second : UInt8) : List UInt8 → Bool
  | byte :: next :: rest => (byte == first && next == second) || hasPair first second (next :: rest)
  | _ => false

/-- A path that starts at a root. -/
def isAbsolutePath : List UInt8 → Bool
  | drive :: colon :: slash :: _ =>
    drive == 47 || drive == 92 || (isAlpha drive && colon == 58 && (slash == 92 || slash == 47))
  | _ => false

/-- `vps_safe_service_file`; the bytes of the argument, and its C string. -/
def safeServiceFile (value : List UInt8) (string : CString) : Bool :=
  value.length ≥ 3 && value.length ≤ credentialValueMaxLength && isAbsolutePath value &&
    !hasPair 46 46 string.bytes && !string.bytes.contains 37 && !string.bytes.contains 36 &&
    value.all (fun byte => !(isControlByte byte || [60, 62, 34, 124, 63, 42].contains byte)) &&
    -- `value[length] == '\0'`, where no byte before it is
    string.bytes.length == value.length

/-- `source` of `vps_resolve_service` -/
def serviceSource (service : CString) : Option CString → CredentialConfigView
  | none => emptyConfigView.set .service service
  | some file => (emptyConfigView.set .service service).set .serviceFile file

/-- **`vps_resolve_service`** -/
def resolveService (output : ResolvedConnection) (arena : Arena) (arguments : StoredArguments) :
    Buffered (ConnectionStringResult × ResolvedConnection × Arena) :=
  match argumentText arguments .service, argumentText arguments .serviceFile with
  | none, _ => return (.invalidValue, output, arena)
  | some (name, service), file =>
    if !safeServiceName name || !(file.all fun file => safeServiceFile file.1 file.2) then
      return (.invalidValue, output, arena)
    else
      connectionCopyConfig output arena (serviceSource service (file.map Prod.snd))

/-! ## A profile -/

/-- `VPS_PROFILE_NAME_MAX_LENGTH` -/
def profileNameMaxLength : ℕ := 64

/-- What `vps_normalize_profile` makes of a byte. -/
def normalizeProfileByte (byte : UInt8) : Option UInt8 :=
  if 97 ≤ byte && byte ≤ 122 then some (byte - 97 + 65)
  else if (65 ≤ byte && byte ≤ 90) || isDigit byte || byte == 95 then some byte
  else if byte == 45 || byte == 46 then some 95
  else none

/-- `vps_normalize_profile` -/
def normalizeProfile (value : List UInt8) : Option (List UInt8) :=
  if value.length = 0 ∨ value.length > profileNameMaxLength then none
  else value.mapM normalizeProfileByte

/-- `vps_build_profile_name` -/
def buildProfileName (outputSize : ℕ) (profile suffix : List UInt8) : Option (List UInt8) :=
  let name := ascii "VPS_PROFILE_" ++ profile ++ [95] ++ suffix
  if name.length + 1 > outputSize then none else some name

/-- `vps_profile_field` -/
def profileField (suffix : List UInt8) : Option CredentialMember :=
  credentialMembers.find? fun member => member.profileSuffix == suffix

/-- The loop of `vps_resolve_profile_snapshot`. -/
def profileSnapshotFields (profilePrefix : List UInt8) :
    List ProfileEnvironmentEntry → CredentialConfigView → Buffered (Option CredentialConfigView)
  | [], source => return some source
  | entry :: rest, source => do
    match entry.name, entry.value with
    | some name, some value =>
      if !profilePrefix.isPrefixOf name.bytes then return none
      else match profileField (name.bytes.drop profilePrefix.length) with
      | none => return none
      | some member =>
        if source.header.presentFields &&& member.field ≠ 0 then return none
        else if (← valueLength value).isNone then return none
        else profileSnapshotFields profilePrefix rest (source.set member value)
    | _, _ => return none

/-- **`vps_resolve_profile_snapshot`** -/
def resolveProfileSnapshot (output : ResolvedConnection) (arena : Arena)
    (entries : List ProfileEnvironmentEntry) (count : ℕ) :
    Buffered (ConnectionStringResult × ResolvedConnection × Arena) := do
  match buildProfileName (profileNameMaxLength + 14) output.normalizedProfile [] with
  | none => return (.limitExceeded, output, arena)
  | some profilePrefix =>
    if count > entries.length then .error .outside
    else match ← profileSnapshotFields profilePrefix (entries.take count) emptyConfigView with
    | none => return (.invalidValue, output, arena)
    | some source => connectionCopyConfig output arena source

/-- The size of a slot of the scratch block. -/
def profileSlotSize : ℕ := credentialValueMaxLength + 1

/-- The loop of `vps_resolve_profile_environment`, over the scratch block: the members that were
found point to their slots. -/
def profileEnvironmentFields (environment : List UInt8 → EnvironmentAnswer) (profile : List UInt8) :
    List CredentialMember → ℕ → List UInt8 → UInt64 → (CredentialMember → Option ℕ) →
      Buffered (Except ConnectionStringResult (UInt64 × (CredentialMember → Option ℕ)) × List UInt8)
  | [], _, scratch, present, members => return (.ok (present, members), scratch)
  | member :: rest, index, scratch, present, members => do
    let slot := index * profileSlotSize
    match buildProfileName (profileNameMaxLength + 40) profile member.profileSuffix with
    | none => return (.error .limitExceeded, scratch)
    | some name =>
      let answer := environment name
      let scratch ← writeAt scratch slot answer.written
      if answer.status = .notFound then
        profileEnvironmentFields environment profile rest (index + 1) scratch present members
      else if answer.status = .bufferTooSmall ∨ answer.required > profileSlotSize then
        return (.error .limitExceeded, scratch)
      else if answer.status ≠ .ok ∨ answer.required = 0 then
        return (.error .environmentError, scratch)
      else
        let last ← byteAt scratch (slot + (answer.required - 1))
        if last ≠ 0 then return (.error .environmentError, scratch)
        else
          let members := Function.update members member (some slot)
          profileEnvironmentFields environment profile rest (index + 1) scratch
            (present ||| member.field) members

/-- **`vps_resolve_profile_environment`** -/
def resolveProfileEnvironment (output : ResolvedConnection) (arena : Arena)
    (environment : List UInt8 → EnvironmentAnswer) :
    Buffered (ConnectionStringResult × ResolvedConnection × Arena) := do
  let zero : SensitiveMemory := ⟨⟨⟨none, false, false, false⟩, none, 0, false⟩, false⟩
  match sensitiveMemoryInit zero output.storage.storage.allocator true with
  | (.ok, scratch) =>
    match sensitiveMemoryAllocate scratch arena (profileSlotSize * credentialMembers.length) with
    | (.ok, scratch, arena) =>
      match sensitiveMemoryData scratch with
      | none => .error .outside
      | some block =>
        let (found, bytes) ← profileEnvironmentFields environment output.normalizedProfile
          credentialMembers 0 block.bytes 0 fun _ => none
        let scratch := { scratch with storage.memory := some { block with bytes } }
        match found with
        | .error result =>
          let (_, _, arena) := sensitiveMemoryRelease scratch arena
          return (result, output, arena)
        | .ok (present, members) =>
          let config : WinCredConfig := ⟨credentialConfigSize, apiVersion, present, members⟩
          let (result, output, arena) ← connectionCopyConfig output arena (config.view bytes)
          match sensitiveMemoryRelease scratch arena with
          | (.ok, _, arena) => return (result, output, arena)
          | (_, _, arena) => return (.cleanupFailed, output, arena)
    | (_, _, arena) => return (.outOfMemory, output, arena)
  | _ => return (.outOfMemory, output, arena)

/-- **`vps_resolve_profile`** -/
def resolveProfile (output : ResolvedConnection) (arena : Arena) (arguments : StoredArguments)
    (options : ConnectionResolveOptions) :
    Buffered (ConnectionStringResult × ResolvedConnection × Arena) :=
  match (argumentText arguments .profile).bind fun text => normalizeProfile text.1 with
  | none => return (.invalidValue, output, arena)
  | some normalizedProfile =>
    let output := { output with normalizedProfile }
    match options.profileEnvironment with
    | some entries =>
      if options.profileEnvironmentCount = 0 then return (.invalidArgument, output, arena)
      else resolveProfileSnapshot output arena entries options.profileEnvironmentCount
    | none =>
      if options.profileEnvironmentCount ≠ 0 then return (.invalidArgument, output, arena)
      else resolveProfileEnvironment output arena options.environment

/-! ## A credential -/

/-- What a resolved credential shows of its block. -/
def ResolvedCredential.view (resolved : ResolvedCredential) : CredentialConfigView :=
  resolved.config.view ((resolved.storage.storage.memory.map MemoryBlock.bytes).getD [])

/-- **`vps_resolve_reference`** -/
def resolveReference (output : ResolvedConnection) (arena : Arena) (arguments : StoredArguments)
    (options : ConnectionResolveOptions) :
    Buffered (ConnectionStringResult × ResolvedConnection × Option CredentialRegistry × Arena) :=
  match options.credentialRegistry with
  | none => return (.providerUnavailable, output, none, arena)
  | some registry =>
    let reference := (argumentText arguments .credentialRef).map Prod.fst
    match resolvedCredentialInit output.storage.storage.allocator true with
    | (.ok, resolved) => do
      if (reference.getD []).length ≥ 2 ^ 32 then return (.invalidValue, output, registry, arena)
      else
        let (result, registry, resolved, arena) ← credentialRegistryResolve registry
          reference resolved arena options.answer options.enter options.leave
        if result ≠ .ok then
          let (_, _, arena) := resolvedCredentialCleanup resolved arena
          return (if result = .notRegistered then .providerUnavailable else .resolveFailed,
            output, registry, arena)
        else
          let (result, output, arena) ← connectionCopyConfig output arena resolved.view
          let output := { output with
            providerId := resolved.providerId, generation := resolved.generation }
          match resolvedCredentialCleanup resolved arena with
          | (.ok, _, arena) => return (result, output, registry, arena)
          | (_, _, arena) => return (.cleanupFailed, output, registry, arena)
    | (_, _) => return (.invalidValue, output, registry, arena)

/-! ## A connection -/

/-- `vps_connection_config_init` -/
def connectionConfigInit (allocator : Allocator) (operations : Bool) :
    ConnectionStringResult × ResolvedConnection :=
  let zero : WinCredConfig := ⟨0, 0, 0, fun _ => none⟩
  match
    sensitiveMemoryInit ⟨⟨⟨none, false, false, false⟩, none, 0, false⟩, false⟩ allocator operations
  with
  | (.ok, storage) => (.ok, ⟨emptyCredentialConfig, storage, .none, 0, 0, [], false, true⟩)
  | (_, storage) => (.invalidArgument, ⟨zero, storage, .none, 0, 0, [], false, false⟩)

/-- **`vps_connection_config_cleanup`** -/
def connectionConfigCleanup (connection : ResolvedConnection) (arena : Arena) :
    ConnectionStringResult × ResolvedConnection × Arena :=
  let zero : WinCredConfig := ⟨0, 0, 0, fun _ => none⟩
  if !connection.initialized then (.ok, connection, arena)
  else match sensitiveMemoryRelease connection.storage arena with
  | (.ok, _, arena) =>
    (.ok, ⟨zero, ⟨⟨⟨none, false, false, false⟩, none, 0, false⟩, false⟩, .none, 0, 0, [], false,
      false⟩, arena)
  | (_, storage, arena) => (.cleanupFailed, { connection with storage }, arena)

/-- What the chosen source makes of the replacement. -/
def connectionResolveMode (replacement : ResolvedConnection) (arena : Arena)
    (arguments : StoredArguments) (options : ConnectionResolveOptions) :
    Buffered (ConnectionStringResult × ResolvedConnection × Option CredentialRegistry × Arena) := do
  let modes := arguments.presence &&& argumentConnectionModes
  let registry := options.credentialRegistry
  if modes &&& ArgumentId.credentialRef.flag ≠ 0 then
    resolveReference { replacement with mode := .credentialRef } arena arguments options
  else if modes &&& ArgumentId.service.flag ≠ 0 then
    let (result, replacement, arena) ← resolveService { replacement with mode := .service }
      arena arguments
    return (result, replacement, registry, arena)
  else if modes &&& ArgumentId.profile.flag ≠ 0 then
    let (result, replacement, arena) ←
      resolveProfile { replacement with mode := .profile } arena arguments options
    return (result, replacement, registry, arena)
  else
    let replacement := { replacement with mode := .connstr, persistentConnstrRisk := true }
    match options.conninfoParser with
    | none => return (.invalidArgument, replacement, registry, arena)
    | some parse =>
      match parse (((argumentText arguments .connstr).map Prod.fst).getD []) with
      | .error result => return (result, replacement, registry, arena)
      | .ok source =>
        let (result, replacement, arena) ← connectionCopyConfig replacement arena source
        return (result, replacement, registry, arena)

/-- **`vps_connection_config_resolve`**, with what becomes of the registry. -/
def connectionConfigResolve (connection : ResolvedConnection) (arena : Arena)
    (arguments : StoredArguments) (options : ConnectionResolveOptions) :
    Buffered (ConnectionStringResult × ResolvedConnection × Option CredentialRegistry × Arena) := do
  let registry := options.credentialRegistry
  if !connection.initialized || !arguments.initialized then
    return (.invalidArgument, connection, registry, arena)
  else match connectionConfigInit connection.storage.storage.allocator true with
  | (.ok, replacement) =>
    let modes := arguments.presence &&& argumentConnectionModes
    if modes = 0 ∨ modes &&& (modes - 1) ≠ 0 then
      let (_, _, arena) := connectionConfigCleanup replacement arena
      return (.invalidMode, connection, registry, arena)
    else
      let (result, replacement, registry, arena) ← connectionResolveMode replacement arena
        arguments options
      if result ≠ .ok then
        let (_, _, arena) := connectionConfigCleanup replacement arena
        return (result, connection, registry, arena)
      else match sensitiveMemoryRelease connection.storage arena with
      | (.ok, _, arena) => return (.ok, replacement, registry, arena)
      | (_, storage, arena) =>
        let (_, _, arena) := connectionConfigCleanup replacement arena
        return (.cleanupFailed, { connection with storage }, registry, arena)
  | _ => return (.invalidArgument, connection, registry, arena)

end Vps
