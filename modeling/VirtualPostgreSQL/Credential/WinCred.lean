import Mathlib.Data.UInt
import Mathlib.Logic.Function.Basic
import VirtualPostgreSQL.Identity.Normalize
import VirtualPostgreSQL.Machinery.Buffer
import VirtualPostgreSQL.Text.Utf8

/-!
# Credential/WinCred — the credential blob of the Windows store

A blob is a header, with the number of fields, and an entry for each: a bit, a length, a reserved
word and the value.  `vps_wincred_validate_blob` goes over it once, to check it and to add up what
the values take; `vps_wincred_decode_blob` goes over it again and copies the values, without a
check.

A read or a write outside of its buffer is a fault, so is the use of a descriptor that was not
found.
-/

namespace Vps

open Machinery

/-! ## Fields -/

/-- The members of `VpsCredentialConfig`. -/
inductive CredentialMember
  | hosts | ports | user | password | dbname | service | serviceFile | sslmode |
    sslrootcert | sslcert
  | sslkey | sslcrl | channelBinding | targetSessionAttrs | connectTimeout | statementTimeout
  | lockTimeout | applicationName | searchPath
  deriving DecidableEq, Repr

/-- How far `VPS_CREDENTIAL_FIELD_…` is shifted. -/
def CredentialMember.shift : CredentialMember → ℕ
  | .hosts => 0
  | .ports => 1
  | .user => 2
  | .password => 3
  | .dbname => 4
  | .service => 5
  | .serviceFile => 6
  | .sslmode => 7
  | .sslrootcert => 8
  | .sslcert => 9
  | .sslkey => 10
  | .sslcrl => 11
  | .channelBinding => 12
  | .targetSessionAttrs => 13
  | .connectTimeout => 14
  | .statementTimeout => 15
  | .lockTimeout => 16
  | .applicationName => 17
  | .searchPath => 18

/-- `VPS_CREDENTIAL_FIELD_…` -/
def CredentialMember.field (member : CredentialMember) : UInt64 := 1 <<< member.shift.toUInt64

/-- `VpsWinCredFieldDescriptor`; the offset in a configuration is that of a member. -/
structure WinCredFieldDescriptor where
  bit : UInt64
  configOffset : CredentialMember
  deriving DecidableEq, Repr

/-- `vps_wincred_fields` -/
def wincredFields : List WinCredFieldDescriptor :=
  [⟨CredentialMember.hosts.field, .hosts⟩, ⟨CredentialMember.ports.field, .ports⟩,
    ⟨CredentialMember.user.field, .user⟩, ⟨CredentialMember.password.field, .password⟩,
    ⟨CredentialMember.dbname.field, .dbname⟩, ⟨CredentialMember.service.field, .service⟩,
    ⟨CredentialMember.serviceFile.field, .serviceFile⟩, ⟨CredentialMember.sslmode.field, .sslmode⟩,
    ⟨CredentialMember.sslrootcert.field, .sslrootcert⟩, ⟨CredentialMember.sslcert.field, .sslcert⟩,
    ⟨CredentialMember.sslkey.field, .sslkey⟩, ⟨CredentialMember.sslcrl.field, .sslcrl⟩,
    ⟨CredentialMember.channelBinding.field, .channelBinding⟩,
    ⟨CredentialMember.targetSessionAttrs.field, .targetSessionAttrs⟩,
    ⟨CredentialMember.connectTimeout.field, .connectTimeout⟩,
    ⟨CredentialMember.statementTimeout.field, .statementTimeout⟩,
    ⟨CredentialMember.lockTimeout.field, .lockTimeout⟩,
    ⟨CredentialMember.applicationName.field, .applicationName⟩,
    ⟨CredentialMember.searchPath.field, .searchPath⟩]

/-- `vps_wincred_find_field` -/
def wincredFindField (bit : UInt64) : Option WinCredFieldDescriptor :=
  wincredFields.find? fun descriptor => descriptor.bit == bit

/-! ## Reading -/

/-- `VPS_WINCRED_FORMAT_MAGIC` -/
def wincredFormatMagic : UInt32 := 0x43535056

/-- `VPS_WINCRED_FORMAT_VERSION` -/
def wincredFormatVersion : UInt16 := 1

/-- `VPS_WINCRED_FORMAT_HEADER_SIZE` -/
def wincredFormatHeaderSize : ℕ := 8

/-- `VPS_WINCRED_FORMAT_ENTRY_SIZE` -/
def wincredFormatEntrySize : ℕ := 16

/-- `VPS_WINCRED_BLOB_MAX_LENGTH` -/
def wincredBlobMaxLength : ℕ := 2560

/-- `SIZE_MAX` -/
def sizeMax : ℕ := 2 ^ 64 - 1

/-- `vps_size_add` -/
def sizeAdd (left right : ℕ) : Option ℕ :=
  if right > sizeMax - left then none else some (left + right)

/-- `vps_wincred_read_u16` -/
def wincredReadU16 (blob : List UInt8) (offset : ℕ) : Buffered UInt16 := do
  let b₀ ← byteAt blob offset
  let b₁ ← byteAt blob (offset + 1)
  return b₀.toUInt16 ||| (b₁.toUInt16 <<< 8)

/-- `vps_wincred_read_u32` -/
def wincredReadU32 (blob : List UInt8) (offset : ℕ) : Buffered UInt32 := do
  let b₀ ← byteAt blob offset
  let b₁ ← byteAt blob (offset + 1)
  let b₂ ← byteAt blob (offset + 2)
  let b₃ ← byteAt blob (offset + 3)
  return b₀.toUInt32 ||| (b₁.toUInt32 <<< 8) ||| (b₂.toUInt32 <<< 16) ||| (b₃.toUInt32 <<< 24)

/-- `vps_wincred_read_u64` -/
def wincredReadU64 (blob : List UInt8) (offset : ℕ) : Buffered UInt64 := do
  let low ← wincredReadU32 blob offset
  let high ← wincredReadU32 blob (offset + 4)
  return low.toUInt64 ||| (high.toUInt64 <<< 32)

/-- `vps_wincred_utf8_valid` of the bytes from an offset on; its loop is that of
`vps_utf8_is_valid`. -/
def wincredUtf8Valid (blob : List UInt8) (offset length : ℕ) (rejectControls : Bool) :
    Buffered Bool := do
  let value ← sliceAt blob offset length
  utf8LoopAt (utf8Plain rejectControls) value value.length 0

/-! ## The first pass -/

/-- What the loop of `vps_wincred_validate_blob` carries. -/
structure WinCredWalk where
  seen : UInt64
  cursor : ℕ
  total : ℕ
  deriving DecidableEq, Repr

/-- A round of the loop; `none` is `return 0`. -/
def wincredValidateEntry (blob : List UInt8) (walk : WinCredWalk) :
    Buffered (Option WinCredWalk) := do
  if walk.cursor > blob.length ∨ wincredFormatEntrySize > blob.length - walk.cursor then return none
  else
    let bit ← wincredReadU64 blob walk.cursor
    let length ← wincredReadU32 blob (walk.cursor + 8)
    if (← wincredReadU32 blob (walk.cursor + 12)) ≠ 0 then return none
    else if (wincredFindField bit).isNone then return none
    else if walk.seen &&& bit ≠ 0 then return none
    else if length.toNat > credentialValueMaxLength then return none
    else match sizeAdd wincredFormatEntrySize length.toNat with
    | none => return none
    | some entrySize =>
      if entrySize > blob.length - walk.cursor then return none
      else if !(← wincredUtf8Valid blob (walk.cursor + wincredFormatEntrySize)
        length.toNat true) then
        return none
      else match sizeAdd walk.total (length.toNat + 1) with
      | none => return none
      | some total => return some ⟨walk.seen ||| bit, walk.cursor + entrySize, total⟩

/-- The loop over the entries. -/
def wincredValidateLoop (blob : List UInt8) : ℕ → WinCredWalk → Buffered (Option WinCredWalk)
  | 0, walk => return some walk
  | rounds + 1, walk => do
    match ← wincredValidateEntry blob walk with
    | none => return none
    | some walk => wincredValidateLoop blob rounds walk

/-- **`vps_wincred_validate_blob`**, with the fields and the size of the values; a blob that is
`none` is `NULL`. -/
def wincredValidateBlob : Option (List UInt8) → Buffered (Option (UInt64 × ℕ))
  | none => return none
  | some blob => do
    if blob.length < wincredFormatHeaderSize ∨ blob.length > wincredBlobMaxLength then return none
    else if (← wincredReadU32 blob 0) ≠ wincredFormatMagic then return none
    else if (← wincredReadU16 blob 4) ≠ wincredFormatVersion then return none
    else
      let fieldCount ← wincredReadU16 blob 6
      if fieldCount = 0 ∨ fieldCount.toNat > wincredFields.length then return none
      else match ← wincredValidateLoop blob fieldCount.toNat ⟨0, wincredFormatHeaderSize, 0⟩ with
      | none => return none
      | some walk =>
        if walk.cursor ≠ blob.length then return none else return some (walk.seen, walk.total)

/-! ## The second pass -/

/-- A `VpsCredentialConfig` whose members point to offsets of the values. -/
structure WinCredConfig where
  structureSize : UInt32
  apiVersion : UInt32
  presentFields : UInt64
  members : CredentialMember → Option ℕ

/-- `VpsWinCredLeaseOwner` -/
structure WinCredLeaseOwner where
  values : List UInt8
  config : WinCredConfig

/-- `sizeof(VpsCredentialConfig)`: the header, the members and four reserved words. -/
def credentialConfigSize : UInt32 := 16 + 19 * 8 + 4 * 8

/-- `VPS_API_VERSION` -/
def apiVersion : UInt32 := ((1 : UInt32) <<< 24) ||| ((0 : UInt32) <<< 16) ||| 0

/-- What the allocator and the platform answer. -/
structure WinCredMemory where
  /-- Whether `vps_memory_allocate` gives the owner. -/
  owner : Bool
  /-- Whether `vps_sensitive_memory_init` succeeds. -/
  sensitive : Bool
  /-- What stands in the bytes that `vps_sensitive_memory_allocate` gives; `none` is its failure. -/
  block : ℕ → Option (List UInt8)

/-- **No allocation fails**, and what is given has the size that was asked for.  The context was
initialised, so it has the allocator and the operations that `vps_sensitive_memory_init` asks
for. -/
structure WinCredMemory.Succeeds (memory : WinCredMemory) : Prop where
  owner : memory.owner
  sensitive : memory.sensitive
  block (size : ℕ) : ∃ bytes, memory.block size = some bytes ∧ bytes.length = size

/-- What the loop of `vps_wincred_decode_blob` carries. -/
structure WinCredCopy where
  cursor : ℕ
  destination : ℕ
  values : List UInt8
  members : CredentialMember → Option ℕ

/-- A round of the loop. -/
def wincredCopyEntry (blob : List UInt8) (copy : WinCredCopy) : Buffered WinCredCopy := do
  let bit ← wincredReadU64 blob copy.cursor
  let length ← wincredReadU32 blob (copy.cursor + 8)
  let field := wincredFindField bit
  let value ← sliceAt blob (copy.cursor + wincredFormatEntrySize) length.toNat
  let values ← writeAt copy.values copy.destination value
  let values ← writeAt values (copy.destination + length.toNat) [0]
  match field with
  | none => .error .outside
  | some field =>
    return {
      cursor := copy.cursor + (wincredFormatEntrySize + length.toNat)
      destination := copy.destination + (length.toNat + 1)
      values
      -- `vps_wincred_config_set`
      members := Function.update copy.members field.configOffset (some copy.destination) }

/-- The loop over the entries. -/
def wincredCopyLoop (blob : List UInt8) : ℕ → WinCredCopy → Buffered WinCredCopy
  | 0, copy => return copy
  | rounds + 1, copy => do wincredCopyLoop blob rounds (← wincredCopyEntry blob copy)

/-- **`vps_wincred_decode_blob`**: the owner, and what it leaves in `fields`. -/
def wincredDecodeBlob (memory : WinCredMemory) (blob : Option (List UInt8)) (fields : UInt64) :
    Buffered (Option WinCredLeaseOwner × UInt64) := do
  match ← wincredValidateBlob blob, blob with
  | some (fields, valuesSize), some blob =>
    if !memory.owner then return (none, fields)
    else if !memory.sensitive then return (none, fields)
    else match memory.block valuesSize with
    | none => return (none, fields)
    | some values =>
      let fieldCount ← wincredReadU16 blob 6
      let copy ← wincredCopyLoop blob fieldCount.toNat
        ⟨wincredFormatHeaderSize, 0, values, fun _ => none⟩
      return (some ⟨copy.values, ⟨credentialConfigSize, apiVersion, fields, copy.members⟩⟩, fields)
  | _, _ => return (none, fields)

end Vps
