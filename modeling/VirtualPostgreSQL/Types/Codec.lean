import VirtualPostgreSQL.Sqlite.Value
import VirtualPostgreSQL.Machinery.Decimal

/-!
# Types/Codec — from the server's text to SQLite's values

`vps_type_codec_decode` reads the text of a column, by the codec of its type OID, and `xColumn`
hands the decoded value to SQLite.  A zero-length `bytea` is decoded without allocating, so its
bytes are a null pointer, and `sqlite3_result_blob64` makes SQL NULL of a null pointer.
-/

namespace Vps

open Machinery

/-! ## Codecs -/

/-- `VpsCodecId`. -/
inductive CodecId
  | boolean | integer | float | numericText | moneyText | bytea | datetimeText | uuidText | jsonText
  | text
  deriving DecidableEq, Repr

/-- `vps_type_codec_for_oid` (`vps_type_registry_builtin_oid_codec`). -/
def typeCodecForOid (typeOid : UInt32) : CodecId :=
  match typeOid with
  | 16 => .boolean
  | 20 | 21 | 23 | 26 => .integer
  | 700 | 701 => .float
  | 1700 => .numericText
  | 790 => .moneyText
  | 17 => .bytea
  | 1082 | 1083 | 1114 | 1184 | 1186 | 1266 => .datetimeText
  | 2950 => .uuidText
  | 114 | 3802 => .jsonText
  | _ => .text

/-- `VpsDecodedValue`; the bytes of a blob are a pointer that may be null. -/
inductive DecodedValue
  | null
  | integer (value : Int64)
  | real (value : ℚ)
  | text (bytes : List UInt8)
  | blob (bytes : Option (List UInt8))
  deriving DecidableEq

/-- `VPS_TYPE_CODEC_MAX_COLUMN_BYTES`. -/
def typeCodecMaxColumnBytes : ℕ := 16 * 1024 * 1024

/-! ## Digits -/

/-- `vps_hex_digit`. -/
def hexDigit (byte : UInt8) : Option ℕ :=
  if 48 ≤ byte && byte ≤ 57 then some (byte.toNat - 48)
  else if 97 ≤ byte && byte ≤ 102 then some (byte.toNat - 97 + 10)
  else if 65 ≤ byte && byte ≤ 70 then some (byte.toNat - 65 + 10)
  else none

/-- A lower-case hexadecimal digit. -/
def isLowerHex (byte : UInt8) : Bool := (48 ≤ byte && byte ≤ 57) || (97 ≤ byte && byte ≤ 102)

/-- The places of the hyphens in a UUID. -/
def isUuidSeparator (index : ℕ) : Bool := index == 8 || index == 13 || index == 18 || index == 23

/-- `vps_vtab_uuid_canonical`. -/
def vtabUuidCanonical (value : List UInt8) : Bool :=
  value.length == 36 &&
    value.zipIdx.all fun (byte, index) =>
      if isUuidSeparator index then byte == 45 else isLowerHex byte

/-- `vps_uuid_valid`, which tests the same from the other side. -/
def uuidValid (value : List UInt8) : Bool :=
  value.length == 36 &&
    value.zipIdx.all fun (byte, index) =>
      if isUuidSeparator index then byte == 45
      else (hexDigit byte).isSome && !(65 ≤ byte && byte ≤ 70)

/-- `strtoll` in base ten, up to the end of the text: blanks, a sign, digits. -/
def strtoll (text : List UInt8) : Option ℤ :=
  match text.dropWhile isSpace with
  | 43 :: rest => (parseDecimal rest).map fun n : ℕ => (n : ℤ)
  | rest => parseDecimalInt rest

/-- `vps_parse_integer`. -/
def parseInteger (column : List UInt8) : Option Int64 :=
  if column.length = 0 ∨ column.length ≥ 64 then none
  else
    (strtoll column).bind fun value =>
      if -2 ^ 63 ≤ value ∧ value < 2 ^ 63 then some (Int64.ofInt value) else none

/-- The loop over the hexadecimal digits of a `bytea`. -/
def decodeHex : List UInt8 → Option (List UInt8)
  | [] => some []
  | [_] => none
  | high :: low :: rest =>
    match hexDigit high, hexDigit low with
    | some h, some l => (decodeHex rest).map ((16 * h + l).toUInt8 :: ·)
    | _, _ => none

/-- The special values of a float, which stay text. -/
def floatSpecial (value : List UInt8) : Bool :=
  value == [78, 97, 78] || value == [73, 110, 102, 105, 110, 105, 116, 121] ||
    value == [45, 73, 110, 102, 105, 110, 105, 116, 121]

/-- **`vps_type_codec_decode`**, without allocation failures; `strtod` reads a real number. -/
def typeCodecDecode (strtod : List UInt8 → Option ℚ) (codec : CodecId) :
    Option (List UInt8) → Option DecodedValue
  | none => some .null
  | some column =>
    if column.length > typeCodecMaxColumnBytes then none
    else match codec with
    | .boolean =>
      if column = [116] then some (.integer 1)
      else if column = [102] then some (.integer 0)
      else none
    | .integer => (parseInteger column).map .integer
    | .float => if floatSpecial column then some (.text column) else (strtod column).map .real
    | .bytea =>
      match column with
      | 92 :: 120 :: digits =>
        (decodeHex digits).map fun bytes => .blob (if bytes = [] then none else some bytes)
      | _ => none
    | .uuidText => if uuidValid column then some (.text column) else none
    | _ => some (.text column)

/-- `vps_module_column`: what SQLite makes of the decoded value. -/
def moduleColumn : DecodedValue → SqliteValue
  | .null => .null
  | .integer value => .integer value
  | .real value => .real value
  | .text bytes => .text bytes
  | .blob none => .null
  | .blob (some bytes) => .blob bytes

end Vps
