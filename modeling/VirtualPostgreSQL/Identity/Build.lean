import Mathlib.Data.List.Basic
import VirtualPostgreSQL.Machinery.Ascii
import VirtualPostgreSQL.Machinery.Frame
import VirtualPostgreSQL.Machinery.Outcome
import VirtualPostgreSQL.Identity.Normalize
import VirtualPostgreSQL.Transaction.Coordinator

/-!
# Identity/Build — the identity of a connection

`vps_identity_build` frames the normalised values of a connection and its session options into one
canonical byte string; `vps_identity_compare` tells whether two connections may be shared.

The buffer of the canonical bytes may fail to grow: `allocates` says for which sizes it does.
-/

namespace Vps

open Machinery

/-! ## The data model -/

/-- `VpsIdentityField`, by its tag. -/
inductive IdentityField
  | backend | hosts | ports | dbname | user | service | serviceFile | sslmode |
    sslrootcert | sslcert
  | sslkey | sslcrl | channelBinding | targetSessionAttrs | searchPath | readWriteClass
  | connectTimeout | statementTimeout | lockTimeout | isolation | transactionReadOnly
  deriving DecidableEq, Repr

/-- The tag of a field. -/
def IdentityField.tag (field : IdentityField) : UInt8 := (field.ctorIdx + 1).toUInt8

/-- `VpsIdentityResult` (failures). -/
inductive IdentityError
  | invalidArgument | invalidValue | limitExceeded | outOfMemory
  deriving DecidableEq, Repr

/-- What is read of a `VpsCredentialConfig`. -/
structure CredentialConfig where
  hosts : Option (List UInt8) := none
  ports : Option (List UInt8) := none
  user : Option (List UInt8) := none
  dbname : Option (List UInt8) := none
  service : Option (List UInt8) := none
  serviceFile : Option (List UInt8) := none
  sslmode : Option (List UInt8) := none
  sslrootcert : Option (List UInt8) := none
  sslcert : Option (List UInt8) := none
  sslkey : Option (List UInt8) := none
  sslcrl : Option (List UInt8) := none
  channelBinding : Option (List UInt8) := none
  targetSessionAttrs : Option (List UInt8) := none
  connectTimeout : Option (List UInt8) := none
  statementTimeout : Option (List UInt8) := none
  lockTimeout : Option (List UInt8) := none
  searchPath : Option (List UInt8) := none
  deriving DecidableEq

/-- `VpsConnectionConfig`. -/
structure ConnectionConfig where
  config : CredentialConfig
  generation : UInt64
  deriving DecidableEq

/-- `VPS_ARGUMENT_ENUM_MODE_*`. -/
inductive ArgumentMode
  | ro | rw
  deriving DecidableEq, Repr

/-- `VPS_ARGUMENT_ENUM_ISOLATION_*`. -/
inductive ArgumentIsolation
  | readCommitted | repeatableRead | serializable
  deriving DecidableEq, Repr

/-- What is read of the `VpsParsedArguments`; `none` for an argument that is not present. -/
structure ParsedArguments where
  mode : Option ArgumentMode := none
  connectTimeout : Option UInt32 := none
  statementTimeout : Option UInt32 := none
  lockTimeout : Option UInt32 := none
  isolation : Option ArgumentIsolation := none
  transactionReadOnly : Option Bool := none
  deriving DecidableEq

/-- `VpsIdentityBuildOptions`. -/
structure IdentityBuildOptions where
  backendName : Option (List UInt8) := none
  credentialGeneration : UInt64 := 0
  configurationGeneration : UInt64 := 0
  deriving DecidableEq

/-! ## The buffer -/

/-- `VPS_IDENTITY_CANONICAL_LIMIT`. -/
def identityCanonicalLimit : ℕ := 65536

variable (allocates : ℕ → Bool)

/-- `vps_buffer_append` within the limit of the canonical bytes. -/
def bufferAppend (buffer bytes : List UInt8) : Except IdentityError (List UInt8) :=
  if identityCanonicalLimit < buffer.length + bytes.length then .error .limitExceeded
  else if !allocates (buffer.length + bytes.length) then .error .outOfMemory
  else .ok (buffer ++ bytes)

/-- `vps_identity_append`. -/
def identityAppend (buffer : List UInt8) (field : IdentityField) (value : List UInt8) :
    Except IdentityError (List UInt8) :=
  if 0xffffffff < value.length then .error .limitExceeded
  else do
    let buffer ← bufferAppend allocates buffer (field.tag :: le32 value.length)
    if value = [] then return buffer
    bufferAppend allocates buffer value

/-- Append a value whose normaliser may have failed. -/
def identityAdd (buffer : List UInt8) (field : IdentityField × Option (List UInt8)) :
    Except IdentityError (List UInt8) :=
  match field.2 with
  | none => .error .invalidValue
  | some value => identityAppend allocates buffer field.1 value

/-! ## The values -/

/-- The value that `vps_identity_add_text` appends. -/
def identityText (value default : Option (List UInt8)) (lowerAscii : Bool) : Option (List UInt8) :=
  (value.or default).bind fun text =>
    if identityBoundedLength text then
      identityCopyNormalized lowerAscii (credentialValueMaxLength + 1) text
    else none

/-- The value that `vps_identity_add_list` appends. -/
def identityList (value : Option (List UInt8)) (default : List UInt8) (ports lowerAscii : Bool) :
    Option (List UInt8) :=
  let text := value.getD default
  if identityBoundedLength text then
    if ports then identityNormalizePorts (credentialValueMaxLength + 1) text
    else identityNormalizeList lowerAscii (credentialValueMaxLength + 1) text
  else none

/-- The value that `vps_identity_add_path` appends. -/
def identityPath : Option (List UInt8) → Option (List UInt8)
  | none => some []
  | some text =>
    if identityBoundedLength text then identityNormalizePath (credentialValueMaxLength + 1) text
    else none

/-- The backend's name. -/
def identityBackend (options : IdentityBuildOptions) : Option (List UInt8) :=
  let backend := options.backendName.getD (ascii "postgresql")
  if backend.length = 0 ∨ 64 < backend.length ∨ 0 ∈ backend then none
  else identityCopyNormalized true 65 backend

/-- The class of access. -/
def readWriteClass (arguments : ParsedArguments) : List UInt8 :=
  if arguments.mode = some .rw then ascii "rw" else ascii "ro"

/-- The isolation level. -/
def isolationText (arguments : ParsedArguments) : List UInt8 :=
  match arguments.isolation with
  | some .repeatableRead => ascii "repeatable_read"
  | some .serializable => ascii "serializable"
  | _ => ascii "read_committed"

/-- Whether the transaction is read-only. -/
def readOnlyText (arguments : ParsedArguments) : List UInt8 :=
  if arguments.transactionReadOnly = some true then ascii "true" else ascii "false"

/-- The fields up to the class of access, in the order they are appended. -/
def identityConnectionFields (config : CredentialConfig) (arguments : ParsedArguments)
    (options : IdentityBuildOptions) : List (IdentityField × Option (List UInt8)) :=
  [(.backend, identityBackend options),
    (.hosts, identityList config.hosts [] false true),
    (.ports, identityList config.ports
      (if config.hosts = none then [] else ascii "5432") true false),
    (.dbname, identityText config.dbname (some []) false),
    (.user, identityText config.user (some []) false),
    (.service, identityText config.service (some []) false),
    (.serviceFile, identityPath config.serviceFile),
    (.sslmode, identityText config.sslmode (some (ascii "verify-full")) true),
    (.sslrootcert, identityPath config.sslrootcert),
    (.sslcert, identityPath config.sslcert),
    (.sslkey, identityPath config.sslkey),
    (.sslcrl, identityPath config.sslcrl),
    (.channelBinding, identityText config.channelBinding (some (ascii "prefer")) true),
    (.targetSessionAttrs, identityText config.targetSessionAttrs (some (ascii "any")) true),
    (.searchPath, identityList config.searchPath [] false false),
    (.readWriteClass, identityText (some (readWriteClass arguments)) none true)]

/-- The timeouts and the transaction's options, in the order they are appended. -/
def identitySessionFields (config : CredentialConfig) (arguments : ParsedArguments) :
    List (IdentityField × Option (List UInt8)) :=
  [(.connectTimeout, identityNormalizeTimeout arguments.connectTimeout config.connectTimeout),
    (.statementTimeout,
      identityNormalizeTimeout arguments.statementTimeout config.statementTimeout),
    (.lockTimeout, identityNormalizeTimeout arguments.lockTimeout config.lockTimeout),
    (.isolation, some (isolationText arguments)),
    (.transactionReadOnly, some (readOnlyText arguments))]

/-! ## The fingerprint -/

/-- The seeds of `vps_identity_hash`. -/
def identityHashSeeds : List UInt64 :=
  [14695981039346656037, 7809847782465536322, 9650029242287828579, 2870177450012600261]

/-- One of the four hashes. -/
def identityHashWord (index : ℕ) (seed : UInt64) (data : List UInt8) : UInt64 :=
  let hash := data.foldl (fun hash byte => (hash ^^^ (byte.toUInt64 + index.toUInt64)) *
    1099511628211) seed
  hash ^^^ (hash >>> 32)

/-- A digit of `"0123456789abcdef"`. -/
def fingerprintDigit (digit : ℕ) : Char :=
  if digit < 10 then Char.ofNat (48 + digit) else Char.ofNat (87 + digit)

/-- `vps_identity_hash`. -/
def identityHash (data : List UInt8) : String :=
  String.ofList (identityHashSeeds.zipIdx.flatMap fun (seed, index) =>
    let hash := identityHashWord index seed data
    (List.range 16).map fun place => fingerprintDigit ((hash.toNat >>> ((15 - place) * 4)) % 16))

/-! ## Building and comparing -/

/-- `vps_identity_header` -/
def identityHeader : List UInt8 := [86, 80, 83, 73, 1]

/-- The canonical bytes. -/
def identityCanonical (config : CredentialConfig) (arguments : ParsedArguments)
    (options : IdentityBuildOptions) : Except IdentityError (List UInt8) := do
  let buffer ← bufferAppend allocates [] identityHeader
  let buffer ← (identityConnectionFields config arguments options).foldlM
    (identityAdd allocates) buffer
  -- all three timeouts are read before the first is appended
  if (identitySessionFields config arguments).any (·.2.isNone) then throw .invalidValue
  (identitySessionFields config arguments).foldlM (identityAdd allocates) buffer

/-- **`vps_identity_build`.** -/
def identityBuild (connection : ConnectionConfig) (arguments : ParsedArguments)
    (options : IdentityBuildOptions) : Except IdentityError ConnectionIdentity := do
  let canonical ← identityCanonical allocates connection.config arguments options
  return {
    canonical := canonical
    credentialGeneration :=
      if options.credentialGeneration ≠ 0 then options.credentialGeneration
      else connection.generation
    configurationGeneration := options.configurationGeneration
    fingerprint := identityHash canonical
    built := true }

/-- `VpsIdentityComparison`. -/
inductive IdentityComparison
  | different | same | generationChanged
  deriving DecidableEq, Repr

/-- **`vps_identity_compare`.** -/
def identityCompare (left right : ConnectionIdentity) : IdentityComparison :=
  if left.built && right.built && left.canonical == right.canonical then
    if left.credentialGeneration == right.credentialGeneration &&
        left.configurationGeneration == right.configurationGeneration then .same
    else .generationChanged
  else .different

/-! ## What the canonical bytes say -/

/-- The fields of an identity. -/
def identityFields (config : CredentialConfig) (arguments : ParsedArguments)
    (options : IdentityBuildOptions) : List (IdentityField × Option (List UInt8)) :=
  identityConnectionFields config arguments options ++ identitySessionFields config arguments

/-- Values that were appended: every normaliser succeeded, and the bytes are the frames. -/
structure Framed (fields : List (IdentityField × Option (List UInt8))) (bytes : List UInt8)
    (values : List (UInt8 × List UInt8)) : Prop where
  written : fields.map (fun field => (field.1.tag, field.2)) =
    values.map fun value => (value.1, some value.2)
  short : ∀ value ∈ values, value.2.length < 2 ^ 32
  framed : bytes = frames values

variable {allocates : ℕ → Bool}

/-- An append that was granted has put its bytes behind the buffer. -/
theorem bufferAppend_ok {buffer bytes after : List UInt8}
    (h : bufferAppend allocates buffer bytes = .ok after) : after = buffer ++ bytes := by
  unfold bufferAppend at h
  split_ifs at h
  exact (Except.ok.inj h).symm

/-- A field that was added stands behind the buffer as a frame, and its length fits into one. -/
theorem identityAppend_ok {buffer value after : List UInt8} {field : IdentityField}
    (h : identityAppend allocates buffer field value = .ok after) :
    value.length < 2 ^ 32 ∧ after = buffer ++ frame field.tag value := by
  unfold identityAppend at h
  split at h
  · cases h
  · rename_i hlength
    obtain ⟨tagged, htagged, h⟩ := ok_of_bind h
    rw [bufferAppend_ok htagged] at h
    refine ⟨by omega, ?_⟩
    split at h
    · rename_i hvalue
      obtain rfl := Except.ok.inj h
      simp [frame, hvalue]
    · rw [bufferAppend_ok h]
      simp [frame]

/-- Fields that were added stand behind the buffer, framed in their order. -/
theorem identityAdd_ok {fields : List (IdentityField × Option (List UInt8))}
    {buffer after : List UInt8} (h : fields.foldlM (identityAdd allocates) buffer = .ok after) :
    ∃ bytes values, Framed fields bytes values ∧ after = buffer ++ bytes := by
  induction fields generalizing buffer with
  | nil =>
    obtain rfl := Except.ok.inj h
    exact ⟨[], [], ⟨rfl, by simp, rfl⟩, by simp⟩
  | cons field fields ih =>
    obtain ⟨middle, hfield, h⟩ := ok_of_foldlM_cons h
    obtain ⟨name, value⟩ := field
    cases value with
    | none => cases hfield
    | some value =>
      obtain ⟨hshort, rfl⟩ := identityAppend_ok hfield
      obtain ⟨bytes, values, hframed, rfl⟩ := ih h
      refine ⟨frame name.tag value ++ bytes, (name.tag, value) :: values,
        ⟨by simp [hframed.written], List.forall_mem_cons.2 ⟨hshort, hframed.short⟩, ?_⟩,
        List.append_assoc ..⟩
      rw [hframed.framed]
      rfl

/-- **Canonical bytes are the header and the framed fields**, in the order of the table. -/
theorem identityCanonical_ok {config : CredentialConfig} {arguments : ParsedArguments}
    {options : IdentityBuildOptions} {canonical : List UInt8}
    (h : identityCanonical allocates config arguments options = .ok canonical) :
    ∃ bytes values, Framed (identityFields config arguments options) bytes values ∧
      canonical = identityHeader ++ bytes := by
  obtain ⟨header, hheader, h⟩ := ok_of_bind h
  obtain rfl := bufferAppend_ok hheader
  obtain ⟨connection, hconnection, h⟩ := ok_of_bind h
  obtain ⟨bytes, values, hframed, rfl⟩ := identityAdd_ok hconnection
  split at h
  · cases h
  · obtain ⟨bytes', values', hframed', rfl⟩ := identityAdd_ok h
    refine ⟨bytes ++ bytes', values ++ values', ⟨?_, ?_, ?_⟩, by simp⟩
    · rw [identityFields, List.map_append, List.map_append, hframed.written, hframed'.written]
    · exact List.forall_mem_append.2 ⟨hframed.short, hframed'.short⟩
    · rw [frames_append, hframed.framed, hframed'.framed]

/-- **Equal canonical bytes have equal fields**, each of which its normaliser wrote. -/
theorem identityFields_eq {config config' : CredentialConfig}
    {arguments arguments' : ParsedArguments} {options options' : IdentityBuildOptions}
    {canonical : List UInt8} {allocates' : ℕ → Bool}
    (h : identityCanonical allocates config arguments options = .ok canonical)
    (h' : identityCanonical allocates' config' arguments' options' = .ok canonical) :
    (identityFields config arguments options).map (·.2) =
        (identityFields config' arguments' options').map (·.2) ∧
      ∀ field ∈ identityFields config arguments options, field.2 ≠ none := by
  obtain ⟨bytes, values, hframed, rfl⟩ := identityCanonical_ok h
  obtain ⟨bytes', values', hframed', heq⟩ := identityCanonical_ok h'
  have hbytes : frames values = frames values' := by
    rw [← hframed.framed, ← hframed'.framed]
    exact List.append_cancel_left heq
  have hvalues := frames_injective hframed.short hframed'.short hbytes
  constructor
  · have hfields := congrArg (List.map Prod.snd)
      (hframed.written.trans (hvalues ▸ hframed'.written.symm))
    rw [List.map_map, List.map_map] at hfields
    exact hfields
  · intro field hfield hnone
    have hmem : (field.1.tag, field.2) ∈ values.map fun value => (value.1, some value.2) := by
      rw [← hframed.written]
      exact List.mem_map.2 ⟨field, hfield, rfl⟩
    rw [hnone] at hmem
    simp at hmem

end Vps
