import VirtualPostgreSQL.Types.Codec

/-!
# Server/Value — the values of PostgreSQL

The types the planner pushes predicates on, as the server documents them: what a column may hold,
how two values compare, how a typed parameter is read — a text outside the range of its type raises
an error — and how a value is written.  A value of any other type enters through its text only.

`decode_*` follow a value through the server's text and the codec into SQLite.
-/

namespace Vps

open Machinery

/-! ## Values -/

/-- A value of the server.  A UUID is carried in its canonical text, whose 32 digits are its 128
bits. -/
inductive PgValue
  | null
  | bool (value : Bool)
  | int (value : ℤ)
  | uuid (text : List UInt8)
  | bytea (bytes : List UInt8)
  | other (text : List UInt8)
  deriving DecidableEq

/-- The kinds of types. -/
inductive PgKind
  | bool | int | uuid | bytea | other
  deriving DecidableEq

/-- The kind of a type: `bool`, `int2` to `int8` and `oid`, `uuid`, `bytea`. -/
def PgKind.ofOid (typeOid : UInt32) : PgKind :=
  match typeOid with
  | 16 => .bool
  | 20 | 21 | 23 | 26 => .int
  | 2950 => .uuid
  | 17 => .bytea
  | _ => .other

/-- The integer is a value of the integer type. -/
def inIntegerRange (typeOid : UInt32) (value : ℤ) : Bool :=
  match typeOid with
  | 21 => decide (-2 ^ 15 ≤ value) && decide (value < 2 ^ 15)
  | 23 => decide (-2 ^ 31 ≤ value) && decide (value < 2 ^ 31)
  | 20 => decide (-2 ^ 63 ≤ value) && decide (value < 2 ^ 63)
  | 26 => decide (0 ≤ value) && decide (value < 2 ^ 32)
  | _ => false

/-- The value is one of the type. -/
def PgValue.hasType (typeOid : UInt32) (v : PgValue) : Bool :=
  match PgKind.ofOid typeOid, v with
  | _, .null => true
  | .bool, .bool _ => true
  | .int, .int value => inIntegerRange typeOid value
  | .uuid, .uuid text => vtabUuidCanonical text
  | .bytea, .bytea _ => true
  | .other, .other _ => true
  | _, _ => false

/-- The digits of a UUID. -/
def uuidDigits (text : List UInt8) : List ℕ := (text.filter (· != 45)).filterMap hexDigit

/-- **Comparison of two values of one type**, unknown if one of them is NULL. -/
def PgValue.compare? : PgValue → PgValue → Option Ordering
  | .bool a, .bool b => some (compare a.toNat b.toNat)
  | .int a, .int b => some (compare a b)
  | .uuid a, .uuid b => some ((uuidDigits a).compareLex compare (uuidDigits b))
  | .bytea a, .bytea b => some (compareBytes a b)
  | _, _ => none

/-! ## Writing and reading -/

/-- The digits of a byte. -/
def hexByte (byte : UInt8) : List UInt8 :=
  let digit (n : ℕ) : UInt8 := if n < 10 then 48 + n.toUInt8 else 87 + n.toUInt8
  [digit (byte.toNat / 16), digit (byte.toNat % 16)]

/-- The text of a value in a result column; `none` for NULL. -/
def PgValue.output : PgValue → Option (List UInt8)
  | .null => none
  | .bool value => some [if value then 116 else 102]
  | .int value => some (decimalInt value)
  | .uuid text => some text
  | .bytea bytes => some (92 :: 120 :: bytes.flatMap hexByte)
  | .other text => some text

/-- `VpsClientParameterView`, with the bytes the value points to. -/
structure ClientParameter where
  typeOid : UInt32
  binary : Bool
  value : Option (List UInt8)
  deriving DecidableEq

/-- **How the server reads a typed parameter**; `none` is an error. -/
def PgValue.input (parameter : ClientParameter) : Option PgValue :=
  match parameter.value with
  | none => some .null
  | some bytes =>
    match PgKind.ofOid parameter.typeOid with
    | .bool =>
      if bytes = [116, 114, 117, 101] then some (.bool true)
      else if bytes = [102, 97, 108, 115, 101] then some (.bool false)
      else none
    | .int =>
      (parseDecimalInt bytes).bind fun value =>
        if inIntegerRange parameter.typeOid value then some (.int value) else none
    | .uuid => if vtabUuidCanonical bytes then some (.uuid bytes) else none
    | .bytea => if parameter.binary then some (.bytea bytes) else none
    | .other => some (.other bytes)

/-- A parameter of an integer type is read back if the type holds it. -/
theorem input_int {p : ClientParameter} {n : ℤ} (hkind : PgKind.ofOid p.typeOid = .int)
    (hvalue : p.value = some (decimalInt n)) :
    PgValue.input p = if inIntegerRange p.typeOid n then some (.int n) else none := by
  rw [PgValue.input, hvalue]
  simp only [hkind, parseDecimalInt_decimalInt, Option.bind_some]

/-- What SQLite sees of a value in a column of the type. -/
def PgValue.decoded (strtod : List UInt8 → Option ℚ) (typeOid : UInt32) (v : PgValue) :
    Option SqliteValue :=
  (typeCodecDecode strtod (typeCodecForOid typeOid) v.output).map moduleColumn

/-! ## UUIDs -/

/-- A digit of a UUID has a value, in the order of the digits. -/
theorem hexDigit_of_isLowerHex {byte : UInt8} (h : isLowerHex byte = true) :
    ∃ d, hexDigit byte = some d ∧ byte ≠ 45 ∧
      (byte.toNat = 48 + d ∧ d < 10 ∨ byte.toNat = 87 + d ∧ 10 ≤ d) := by
  simp only [isLowerHex, Bool.or_eq_true, Bool.and_eq_true, decide_eq_true_eq,
    UInt8.le_iff_toNat_le] at h
  have hne : byte ≠ 45 := by
    rintro rfl
    revert h
    decide
  have hbounds : (48 ≤ byte.toNat ∧ byte.toNat ≤ 57) ∨ (97 ≤ byte.toNat ∧ byte.toNat ≤ 102) := h
  rcases hbounds with ⟨hlow, hhigh⟩ | ⟨hlow, hhigh⟩
  · refine ⟨byte.toNat - 48, ?_, hne, .inl (by omega)⟩
    simp [hexDigit, UInt8.le_iff_toNat_le, hlow, hhigh]
  · refine ⟨byte.toNat - 97 + 10, ?_, hne, .inr (by omega)⟩
    have hletter : ¬ byte.toNat ≤ 57 := by omega
    simp [hexDigit, UInt8.le_iff_toNat_le, hlow, hhigh, hletter]

theorem compare_congr {a b c d : ℕ} (hlt : a < b ↔ c < d) (heq : a = b ↔ c = d) :
    compare a b = compare c d := by
  rw [Nat.compare_eq_ite_lt, Nat.compare_eq_ite_lt]
  have hgt : b < a ↔ d < c := by omega
  simp only [hlt, hgt]

/-- A first byte that is the same does not decide. -/
theorem compareBytes_cons_self (x : UInt8) (a b : List UInt8) :
    compareBytes (x :: a) (x :: b) = compareBytes a b := by
  rw [compareBytes, List.compareLex_cons_cons, Nat.compare_eq_eq.mpr rfl]
  rfl

/-- UUIDs compare as their texts do: the hyphens stand in the same places. -/
theorem compareLex_uuidDigits : ∀ {a b : List UInt8} (n : ℕ) (_ : a.length = b.length)
    (_ : (a.zipIdx n).all (fun (byte, index) =>
      if isUuidSeparator index then byte == 45 else isLowerHex byte) = true)
    (_ : (b.zipIdx n).all (fun (byte, index) =>
      if isUuidSeparator index then byte == 45 else isLowerHex byte) = true),
    (uuidDigits a).compareLex compare (uuidDigits b) = compareBytes a b
  | [], [], _, _, _, _ => rfl
  | x :: a, y :: b, n, hlength, ha, hb => by
    simp only [List.zipIdx_cons, List.all_cons, Bool.and_eq_true] at ha hb
    have ih := compareLex_uuidDigits (n + 1) (Nat.succ.inj hlength) ha.2 hb.2
    by_cases hsep : isUuidSeparator n = true
    · simp only [hsep, if_true, beq_iff_eq] at ha hb
      rw [ha.1, hb.1, compareBytes_cons_self]
      exact ih
    · simp only [hsep, if_false, Bool.false_eq_true] at ha hb
      obtain ⟨d, hd, hx, hxd⟩ := hexDigit_of_isLowerHex ha.1
      obtain ⟨e, he, hy, hye⟩ := hexDigit_of_isLowerHex hb.1
      have hdigits : compare d e = compare x.toNat y.toNat := compare_congr (by omega) (by omega)
      have hcons {z : UInt8} {f : ℕ} {c : List UInt8} (hz : z ≠ 45) (hf : hexDigit z = some f) :
          uuidDigits (z :: c) = f :: uuidDigits c := by
        simp [uuidDigits, hz, hf]
      rw [hcons hx hd, hcons hy he, List.compareLex_cons_cons, hdigits, ih, compareBytes,
        compareBytes, List.compareLex_cons_cons]

/-! ## Values as SQLite has them -/

/-- The value of SQLite that stands for a value of the server. -/
def PgValue.asSqlite : PgValue → SqliteValue
  | .null => .null
  | .bool value => .integer (if value then 1 else 0)
  | .int value => .integer (Int64.ofInt value)
  | .uuid text => .text text
  | .bytea bytes => .blob bytes
  | .other text => .text text

/-- An integer of any type fits into 64 bits. -/
theorem inIntegerRange_int64 {typeOid : UInt32} {value : ℤ}
    (h : inIntegerRange typeOid value = true) : -2 ^ 63 ≤ value ∧ value < 2 ^ 63 := by
  unfold inIntegerRange at h
  split at h <;> simp at h <;> omega

theorem toInt_ofInt {value : ℤ} (h : -2 ^ 63 ≤ value ∧ value < 2 ^ 63) :
    (Int64.ofInt value).toInt = value :=
  Int64.toInt_ofInt_of_le (by simpa using h.1) (by simpa using h.2)

/-- **Two engines, one order**: values of one exact type compare as their images do. -/
theorem compare?_asSqlite {typeOid : UInt32} {v w : PgValue}
    (hexact : PgKind.ofOid typeOid ≠ .other) (hv : v.hasType typeOid = true)
    (hw : w.hasType typeOid = true) : v.asSqlite.compare? w.asSqlite = v.compare? w := by
  unfold PgValue.hasType at hv hw
  cases hkind : PgKind.ofOid typeOid <;> rw [hkind] at hv hw
  case other => exact absurd hkind hexact
  all_goals cases v <;> cases w
  all_goals
    try first
    | rfl
    | exact absurd hv Bool.false_ne_true
    | exact absurd hw Bool.false_ne_true
  case bool.bool.bool a b => cases a <;> cases b <;> rfl
  case int.int.int a b =>
    simp only [PgValue.asSqlite, SqliteValue.compare?, PgValue.compare?]
    rw [toInt_ofInt (inIntegerRange_int64 hv), toInt_ofInt (inIntegerRange_int64 hw)]
  case uuid.uuid.uuid a b =>
    simp only [vtabUuidCanonical, Bool.and_eq_true, beq_iff_eq] at hv hw
    simp only [PgValue.asSqlite, SqliteValue.compare?, PgValue.compare?]
    rw [compareLex_uuidDigits 0 (hv.1.trans hw.1.symm) hv.2 hw.2]

/-! ## Decoding -/

/-- The codec of a type, by its kind. -/
def PgKind.codec : PgKind → Option CodecId
  | .bool => some .boolean
  | .int => some .integer
  | .uuid => some .uuidText
  | .bytea => some .bytea
  | .other => none

/-- A type with a codec is read by it. -/
theorem typeCodecForOid_of_kind {typeOid : UInt32} {codec : CodecId}
    (h : (PgKind.ofOid typeOid).codec = some codec) : typeCodecForOid typeOid = codec := by
  unfold PgKind.ofOid at h
  split at h <;> cases h <;> rfl

theorem typeCodecForOid_other {typeOid : UInt32} (h : PgKind.ofOid typeOid = .other) :
    typeCodecForOid typeOid ≠ .boolean ∧ typeCodecForOid typeOid ≠ .integer ∧
      typeCodecForOid typeOid ≠ .uuidText ∧ typeCodecForOid typeOid ≠ .bytea := by
  unfold typeCodecForOid
  split <;> first | (revert h; decide) | exact ⟨by decide, by decide, by decide, by decide⟩

theorem decimalInt_cons (n : ℤ) : ∃ byte rest, decimalInt n = byte :: rest ∧
    isSpace byte = false ∧ byte ≠ 43 := by
  have hdigit {byte : UInt8} (h : isDigit byte = true) : isSpace byte = false ∧ byte ≠ 43 := by
    simp only [isDigit, Bool.and_eq_true, decide_eq_true_eq, UInt8.le_iff_toNat_le] at h
    have hlow : 48 ≤ byte.toNat := h.1
    have hne {b : UInt8} (hb : b.toNat < 48) : byte ≠ b := by
      rintro rfl
      omega
    refine ⟨?_, hne (by decide)⟩
    have hcontrol : ¬ byte.toNat ≤ 13 := by omega
    simp [isSpace, hne (b := 32) (by decide), UInt8.le_iff_toNat_le, hcontrol]
  match n with
  | .ofNat n =>
    obtain ⟨byte, rest, h⟩ := List.exists_cons_of_ne_nil (decimal_ne_nil n)
    exact ⟨byte, rest, h, hdigit (isDigit_of_mem_decimal (h ▸ List.mem_cons_self))⟩
  | .negSucc n => exact ⟨45, decimal (n + 1), rfl, by decide⟩

/-- **An integer that the server wrote is read back.** -/
theorem strtoll_decimalInt (n : ℤ) : strtoll (decimalInt n) = some n := by
  obtain ⟨byte, rest, h, hspace, hplus⟩ := decimalInt_cons n
  have hdrop : (decimalInt n).dropWhile isSpace = decimalInt n := by
    rw [h, List.dropWhile_cons_of_neg (by simp [hspace])]
  rw [strtoll, hdrop]
  split
  · rename_i hsign
    exact absurd (List.cons.inj (h.symm.trans hsign)).1 hplus
  · exact parseDecimalInt_decimalInt n

/-- So are the bytes of a `bytea`, from their hexadecimal digits. -/
theorem decodeHex_flatMap : ∀ bytes : List UInt8, decodeHex (bytes.flatMap hexByte) = some bytes
  | [] => rfl
  | byte :: rest => by
    have hdigit :
      ∀ n < 16, hexDigit (if n < 10 then 48 + n.toUInt8 else 87 + n.toUInt8) = some n := by
      decide
    have hlt := byte.toNat_lt
    have hhigh := hdigit (byte.toNat / 16) (by omega)
    have hlow := hdigit (byte.toNat % 16) (by omega)
    rw [List.flatMap_cons, hexByte, List.cons_append, List.cons_append, List.nil_append, decodeHex,
      hhigh, hlow, decodeHex_flatMap rest]
    simp [Nat.div_add_mod]

/-- **What SQLite sees of an exact type**: the value itself, except that an empty `bytea` is
NULL. -/
theorem decoded_eq {strtod : List UInt8 → Option ℚ} {typeOid : UInt32} {v : PgValue}
    {sv : SqliteValue} (hexact : PgKind.ofOid typeOid ≠ .other) (hv : v.hasType typeOid = true)
    (h : v.decoded strtod typeOid = some sv) :
    sv = if v = .bytea [] then .null else v.asSqlite := by
  rw [PgValue.decoded, Option.map_eq_some_iff] at h
  obtain ⟨d, hd, rfl⟩ := h
  unfold PgValue.hasType at hv
  cases hkind : PgKind.ofOid typeOid <;> rw [hkind] at hv
  case other => exact absurd hkind hexact
  all_goals
    rw [typeCodecForOid_of_kind (by rw [hkind]; rfl)] at hd
    cases v
    all_goals try exact absurd hv Bool.false_ne_true
  all_goals try (cases hd; rfl)
  case bool.bool b => cases b <;> cases hd <;> rfl
  case int.int n =>
    simp only [PgValue.output, typeCodecDecode, parseInteger, strtoll_decimalInt, Option.bind_some,
      if_pos (inIntegerRange_int64 hv)] at hd
    split at hd
    · nomatch hd
    split at hd
    · nomatch hd
    · cases hd
      rfl
  case uuid.uuid text =>
    simp only [PgValue.output, typeCodecDecode] at hd
    split at hd
    · nomatch hd
    split at hd
    · cases hd
      rfl
    · nomatch hd
  case bytea.bytea bytes =>
    simp only [PgValue.output, typeCodecDecode, decodeHex_flatMap, Option.map_some] at hd
    split at hd
    · nomatch hd
    · cases hd
      by_cases hbytes : bytes = []
      · simp [hbytes, moduleColumn]
      · simp [hbytes, moduleColumn, PgValue.asSqlite]

/-- A value of another type is not NULL unless it is. -/
theorem decoded_other_ne_null {strtod : List UInt8 → Option ℚ} {typeOid : UInt32}
    {text : List UInt8} (hkind : PgKind.ofOid typeOid = .other) :
    (PgValue.other text).decoded strtod typeOid ≠ some .null := by
  obtain ⟨hbool, hint, huuid, hbytea⟩ := typeCodecForOid_other hkind
  rw [PgValue.decoded, Ne, Option.map_eq_some_iff]
  rintro ⟨d, hd, hnull⟩
  simp only [PgValue.output, typeCodecDecode] at hd
  split at hd
  · nomatch hd
  split at hd
  case h_1 h => exact hbool h
  case h_2 h => exact hint h
  case h_3 =>
    split at hd
    · cases hd
      nomatch hnull
    · obtain ⟨value, -, rfl⟩ := Option.map_eq_some_iff.mp hd
      nomatch hnull
  case h_4 h => exact hbytea h
  case h_5 h => exact huuid h
  case h_6 =>
    cases hd
    nomatch hnull

end Vps
