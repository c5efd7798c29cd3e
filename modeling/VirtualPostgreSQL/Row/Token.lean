import VirtualPostgreSQL.Machinery.Ascii
import VirtualPostgreSQL.Machinery.Wire

/-!
# Row/Token — the token that names a row

`vps_row_identity_encode` writes the key of a row, and the value its version is checked by, into a
string of bytes that SQLite carries; `vps_row_identity_decode` reads it when the row is written.
All numbers stand with the highest byte first.  A buffer that would outgrow its limit is
`outOfMemory`; no other allocation fails.
-/

namespace Vps

open Machinery

/-! ## Fields -/

/-- A pointer and a length: the null pointer, or the bytes they delimit. -/
inductive ByteSpan
  | null (length : ℕ)
  | bytes (data : List UInt8)
  deriving DecidableEq, Repr

/-- The length beside the pointer. -/
def ByteSpan.length : ByteSpan → ℕ
  | .null length => length
  | .bytes data => data.length

/-- The bytes a copy takes. -/
def ByteSpan.data : ByteSpan → List UInt8
  | .null _ => []
  | .bytes data => data

/-- Whether the pointer is null. -/
def ByteSpan.isNull : ByteSpan → Bool
  | .null _ => true
  | .bytes _ => false

/-- `VpsRowIdentityField`: the kind is the number of the enumeration (NULL 0, INTEGER 1, TEXT 2,
BLOB 3), and `span` is `bytes` with `length`. -/
structure RowIdentityField where
  kind : ℕ
  typeOid : UInt32
  span : ByteSpan := .null 0
  integer : Int64 := 0
  deriving DecidableEq, Repr

/-- `VpsRowIdentitySpec` -/
structure RowIdentitySpec where
  relationOid : UInt32
  keyFields : List RowIdentityField
  optimisticField : Option RowIdentityField
  deriving DecidableEq, Repr

/-- `VpsRowIdentityView`, its optimistic field present when `has_optimistic_field` is set. -/
structure RowIdentityView where
  relationOid : UInt32
  keyFields : List RowIdentityField
  optimisticField : Option RowIdentityField
  deriving DecidableEq, Repr

/-- `VpsRowIdentityResult`, the failures. -/
inductive RowIdentityError
  | invalidArgument
  | malformed
  | limit
  | outOfMemory
  deriving DecidableEq, Repr

/-- `VPS_ROW_IDENTITY_MAX_BYTES` -/
def rowIdentityMaxBytes : ℕ := 65536

/-- `VPS_ROW_IDENTITY_MAX_FIELDS` -/
def rowIdentityMaxFields : ℕ := 32

/-- `UINT32_MAX` -/
def uint32Max : ℕ := 2 ^ 32 - 1

/-- `vps_identity_magic` -/
def identityMagic : List UInt8 := ascii "VPSI"

/-- `VPS_ROW_IDENTITY_FORMAT_VERSION` -/
def rowIdentityFormatVersion : UInt8 := 1

/-- `VPS_IDENTITY_FLAG_OPTIMISTIC` -/
def identityFlagOptimistic : UInt8 := 1

/-- `VPS_IDENTITY_HEADER_BYTES` -/
def identityHeaderBytes : ℕ := 16

/-- `VPS_IDENTITY_FIELD_HEADER_BYTES` -/
def identityFieldHeaderBytes : ℕ := 9

/-! ## Encoding -/

/-- `vps_buffer_append` on the buffer of a token. -/
def rowTokenAppend (token bytes : List UInt8) : Except RowIdentityError (List UInt8) :=
  if token.length + bytes.length ≤ rowIdentityMaxBytes then .ok (token ++ bytes)
  else .error .outOfMemory

/-- What `vps_identity_append_field` refuses. -/
def RowIdentityField.Refused (field : RowIdentityField) : Prop :=
  field.kind > 3 ∨ field.span.length > uint32Max ∨
    ((field.kind = 2 ∨ field.kind = 3) ∧ field.span.length ≠ 0 ∧ field.span.isNull) ∨
    (field.kind = 0 ∧ field.span.length ≠ 0)

/-- A field is refused by its own values. -/
instance (field : RowIdentityField) : Decidable field.Refused :=
  inferInstanceAs (Decidable (_ ∨ _ ∨ _ ∨ _))

/-- `vps_identity_append_field` -/
def rowTokenAppendField (token : List UInt8) (field : RowIdentityField) :
    Except RowIdentityError (List UInt8) :=
  if field.Refused then
    .error (if field.span.length > uint32Max then .limit else .invalidArgument)
  else do
    let length := if field.kind = 1 then 8 else field.span.length
    let token ← rowTokenAppend token [field.kind.toUInt8]
    let token ← rowTokenAppend token (beBytes 4 field.typeOid.toNat)
    let token ← rowTokenAppend token (beBytes 4 length)
    if field.kind = 1 then rowTokenAppend token (beBytes 8 field.integer.toUInt64.toNat)
    else if field.kind ≠ 0 ∧ length ≠ 0 then rowTokenAppend token field.span.data
    else .ok token

/-- **`vps_row_identity_encode`** -/
def rowIdentityEncode (spec : RowIdentitySpec) : Except RowIdentityError (List UInt8) :=
  if spec.keyFields.length = 0 ∨ spec.keyFields.length > rowIdentityMaxFields then
    .error .invalidArgument
  else do
    let flags := if spec.optimisticField.isSome then identityFlagOptimistic else 0
    let token ← rowTokenAppend [] (identityMagic ++ [rowIdentityFormatVersion, flags])
    let token ← rowTokenAppend token (beBytes 2 spec.keyFields.length)
    let token ← rowTokenAppend token (beBytes 4 spec.relationOid.toNat)
    let token ← rowTokenAppend token (beBytes 4 0)
    let token ← spec.keyFields.foldlM rowTokenAppendField token
    let token ← spec.optimisticField.toList.foldlM rowTokenAppendField token
    -- the length is written over the zero
    .ok (token.take 12 ++ beBytes 4 token.length ++ token.drop 16)

/-! ## Decoding -/

/-- `vps_identity_decode_field`, from the bytes behind the offset. -/
def rowTokenDecodeField (rest : List UInt8) :
    Except RowIdentityError (RowIdentityField × List UInt8) :=
  if rest.length < identityFieldHeaderBytes then .error .malformed
  else
    let kind := (rest.headD 0).toNat
    let typeOid := (beValue (slice rest 1 4)).toUInt32
    let length := beValue (slice rest 5 4)
    let rest := rest.drop identityFieldHeaderBytes
    if kind > 3 ∨ (kind = 0 ∧ length ≠ 0) ∨ (kind = 1 ∧ length ≠ 8) ∨ length > rest.length then
      .error .malformed
    else
      let field :=
        if kind = 1 then
          { kind, typeOid, integer := (beValue (rest.take 8)).toUInt64.toInt64 : RowIdentityField }
        else if kind ≠ 0 then { kind, typeOid, span := .bytes (rest.take length) }
        else { kind, typeOid }
      .ok (field, rest.drop length)

/-- How many fields the flags announce behind the key. -/
def optimisticCount (flags : UInt8) : ℕ := if flags &&& identityFlagOptimistic ≠ 0 then 1 else 0

/-- The view that `vps_row_identity_decode` prepares before it touches its output. -/
def rowIdentityCandidate (token : List UInt8) : Except RowIdentityError RowIdentityView :=
  let flags := (slice token 5 1).headD 0
  let fieldCount := beValue (slice token 6 2)
  if token.length < identityHeaderBytes ∨ token.length > rowIdentityMaxBytes ∨
      slice token 0 4 ≠ identityMagic ∨ slice token 4 1 ≠ [rowIdentityFormatVersion] ∨
      flags &&& 0xfe ≠ 0 ∨ beValue (slice token 12 4) ≠ token.length then
    .error .malformed
  else if fieldCount = 0 ∨ fieldCount > rowIdentityMaxFields then .error .malformed
  else do
    let (keyFields, rest) ← readMany rowTokenDecodeField fieldCount (token.drop identityHeaderBytes)
    let (optimistic, rest) ← readMany rowTokenDecodeField (optimisticCount flags) rest
    let relationOid := (beValue (slice token 8 4)).toUInt32
    if rest ≠ [] then .error .malformed
    else .ok { relationOid, keyFields, optimisticField := optimistic.head? }

/-- **`vps_row_identity_decode`**: the result, and what the output view is afterwards. -/
def rowIdentityDecode (token : List UInt8) (view : RowIdentityView) :
    Except RowIdentityError Unit × RowIdentityView :=
  match rowIdentityCandidate token with
  | .ok candidate => (.ok (), candidate)
  | .error failure => (.error failure, view)

/-! ## What a field says -/

/-- The value of a field. -/
inductive IdentityValue
  | null
  | integer (value : Int64)
  | text (bytes : List UInt8)
  | blob (bytes : List UInt8)
  deriving DecidableEq, Repr

/-- The value of a field of a known kind; what the kind does not use says nothing. -/
def RowIdentityField.value (field : RowIdentityField) : Option IdentityValue :=
  match field.kind with
  | 0 => some .null
  | 1 => some (.integer field.integer)
  | 2 => some (.text field.span.data)
  | 3 => some (.blob field.span.data)
  | _ => none

/-- The type and the value of a field. -/
def RowIdentityField.meaning (field : RowIdentityField) : UInt32 × Option IdentityValue :=
  (field.typeOid, field.value)

/-- The relation, the key and the optimistic value that are written. -/
def RowIdentitySpec.meaning (spec : RowIdentitySpec) :
    UInt32 × List (UInt32 × Option IdentityValue) × Option (UInt32 × Option IdentityValue) :=
  (spec.relationOid, spec.keyFields.map (·.meaning), spec.optimisticField.map (·.meaning))

/-- The relation, the key and the optimistic value that were read. -/
def RowIdentityView.meaning (view : RowIdentityView) :
    UInt32 × List (UInt32 × Option IdentityValue) × Option (UInt32 × Option IdentityValue) :=
  (view.relationOid, view.keyFields.map (·.meaning), view.optimisticField.map (·.meaning))

end Vps
