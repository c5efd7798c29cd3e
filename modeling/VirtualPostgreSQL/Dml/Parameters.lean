import VirtualPostgreSQL.Dml.Plan
import VirtualPostgreSQL.Planner.Execution

/-!
# Dml/Parameters — the parameters of a written row

A scan names its row by a token, which `vps_cursor_build_identity` writes from the columns of the
key as the server sent them.  `xUpdate` reads the token back and appends the parameters of the
plan's slots to one buffer, each remembered by its offset because the buffer moves while it grows.
libpq takes a text up to its zero byte, and a binary value by its length.
-/

namespace Vps

open Machinery

/-! ## Naming a row -/

/-- `VpsRowIdentityMode` -/
inductive RowIdentityMode
  | scanLocal | stableInteger | hiddenToken
  deriving DecidableEq, Repr

/-- `VpsTable`, the fields that a written row reads. -/
structure DmlTable where
  policy : DmlPolicy
  keyColumns : List ℕ
  identityMode : RowIdentityMode
  spatialSrid : ℕ → UInt32

/-- `VpsCursor`, the fields that name its row; a column is `none` for `UINT16_MAX` and
`SIZE_MAX`. -/
structure IdentityCursor where
  table : DmlTable
  logicalToRemote : ℕ → Option ℕ
  optimisticRemoteColumn : Option ℕ

/-- `VpsClientColumnView`; the bytes are `none` for NULL. -/
structure ClientColumn where
  typeOid : UInt32
  data : Option (List UInt8)
  deriving DecidableEq, Repr

/-- The column of the current row that a logical column was selected as. -/
def IdentityCursor.scanned (cursor : IdentityCursor) (row : List ClientColumn) (logical : ℕ) :
    Option ClientColumn :=
  if logical ≥ planMaxColumns then none else (cursor.logicalToRemote logical).bind (row[·]?)

/-- A column of the key as a field of the token. -/
def ClientColumn.keyField (declaredTypeOid : UInt32) (column : ClientColumn) : RowIdentityField :=
  match column.data with
  | none => { kind := 0, typeOid := declaredTypeOid }
  | some data =>
    { kind := if typeCodecForOid column.typeOid = .bytea then 3 else 2
      typeOid := declaredTypeOid
      span := .bytes data }

/-- The type of the version. -/
def DmlPolicy.versionTypeOid (policy : DmlPolicy) : UInt32 :=
  if policy.optimisticMode = .xmin then 28
  else policy.typeOid (policy.versionVisible.getD policy.columns.length)

/-- The version as a field of the token; the outer `none` is a failure. -/
def IdentityCursor.optimisticField (cursor : IdentityCursor) (row : List ClientColumn) :
    Option (Option RowIdentityField) :=
  if cursor.table.policy.optimisticMode = .off then some none
  else do
    let remote ← cursor.optimisticRemoteColumn
    let column ← row[remote]?
    let data ← column.data
    some (some { kind := 2, typeOid := cursor.table.policy.versionTypeOid, span := .bytes data })

/-- **`vps_cursor_build_identity`** -/
def cursorBuildIdentity (cursor : IdentityCursor) (row : List ClientColumn) :
    Option (List UInt8) := do
  let keyFields ← cursor.table.keyColumns.mapM fun logical =>
    (cursor.scanned row logical).map (·.keyField (cursor.table.policy.typeOid logical))
  let optimisticField ← cursor.optimisticField row
  (rowIdentityEncode
    ⟨cursor.table.policy.metadata.relationOid, keyFields, optimisticField⟩).toOption

/-- **`vps_dml_identity_from_sqlite`** -/
def dmlIdentityFromSqlite (table : DmlTable) (value : SqliteValue) : Option RowIdentityView :=
  if table.identityMode = .hiddenToken then
    match value with
    | .blob bytes => (rowIdentityCandidate bytes).toOption
    | _ => none
  else match value, table.keyColumns with
  | .integer v, [logical] =>
    some
      { relationOid := table.policy.metadata.relationOid
        keyFields := [{
          kind := 2
          typeOid := table.policy.typeOid logical
          span := .bytes (decimalInt v.toInt) }]
        optimisticField := none }
  | _, _ => none

/-! ## Appending a parameter -/

/-- `VpsClientParameterView` before its value points into the buffer. -/
structure DmlParameter where
  typeOid : UInt32
  binary : Bool
  isNull : Bool
  offset : ℕ
  length : ℕ
  deriving DecidableEq, Repr

/-- `vps_buffer_append` on the buffer of the parameters. -/
def parameterAppend (buffer bytes : List UInt8) : Option (List UInt8) :=
  if buffer.length + bytes.length ≤ vtabParameterBytesLimit then some (buffer ++ bytes) else none

/-- A value at the end of the buffer, with or without a zero byte behind it. -/
def dmlAppendValue (buffer : List UInt8) (typeOid : UInt32) (binary terminated : Bool)
    (value : List UInt8) : Option (List UInt8 × DmlParameter) :=
  (parameterAppend buffer value).bind fun stored =>
    (if terminated then parameterAppend stored [0] else some stored).map fun stored =>
      (stored, ⟨typeOid, binary, false, buffer.length, value.length⟩)

/-- NULL takes no room. -/
def dmlAppendNull (buffer : List UInt8) (typeOid : UInt32) : List UInt8 × DmlParameter :=
  (buffer, ⟨typeOid, typeOid == 17, true, buffer.length, 0⟩)

/-- The bytes of a new value; `printReal` is `%.17g`. -/
def dmlParameterBytes (printReal : ℚ → List UInt8) (typeOid : UInt32) (value : SqliteValue) :
    Option (List UInt8) :=
  if typeOid = 17 then
    match value with
    | .blob bytes => some bytes
    | _ => none
  else if typeOid = 16 then
    match value with
    | .integer v => some [if v ≠ 0 then 116 else 102]
    | _ => none
  else match value with
  | .integer v => some (decimalInt v.toInt)
  | .real v => if printReal v = [] ∨ (printReal v).length ≥ 64 then none else some (printReal v)
  | .text bytes => some bytes
  | _ => none

/-- `vps_dml_append_parameter` -/
def dmlAppendParameter (printReal : ℚ → List UInt8) (buffer : List UInt8) (value : SqliteValue)
    (typeOid : UInt32) : Option (List UInt8 × DmlParameter) :=
  if value = .null then some (dmlAppendNull buffer typeOid)
  else (dmlParameterBytes printReal typeOid value).bind
    (dmlAppendValue buffer typeOid (typeOid == 17) (typeOid != 17))

/-- **`vps_dml_append_identity_parameter`** -/
def dmlAppendIdentityParameter (buffer : List UInt8) (field : RowIdentityField) (typeOid : UInt32) :
    Option (List UInt8 × DmlParameter) :=
  if field.kind = 0 then some (dmlAppendNull buffer typeOid)
  else if field.kind = 1 then
    dmlAppendValue buffer typeOid (typeOid == 17) true (decimalInt field.integer.toInt)
  else dmlAppendValue buffer typeOid (typeOid == 17) (typeOid != 17) field.span.data

/-- `vps_dml_append_srid_parameter` -/
def dmlAppendSridParameter (buffer : List UInt8) (srid : UInt32) :
    Option (List UInt8 × DmlParameter) :=
  if srid.toNat > 2 ^ 31 - 1 then none else dmlAppendValue buffer 23 false true (decimal srid.toNat)

/-- A field that `memset` cleared. -/
def RowIdentityField.zero : RowIdentityField := { kind := 0, typeOid := 0 }

/-- The parameter of a slot. -/
def dmlSlotParameter (printReal : ℚ → List UInt8) (table : DmlTable) (arguments : List SqliteValue)
    (identity : RowIdentityView) (buffer : List UInt8) (slot : DmlParameterSlot) :
    Option (List UInt8 × DmlParameter) :=
  match slot.source with
  | .newValue =>
    (arguments[2 + slot.index]?).bind fun value =>
      dmlAppendParameter printReal buffer value slot.typeOid
  | .spatialSrid => dmlAppendSridParameter buffer (table.spatialSrid slot.index)
  | .oldKey =>
    dmlAppendIdentityParameter buffer (identity.keyFields[slot.index]?.getD .zero) slot.typeOid
  | .oldOptimistic =>
    dmlAppendIdentityParameter buffer (identity.optimisticField.getD .zero) slot.typeOid

/-- The loop of `vps_module_update` over the slots. -/
def dmlParameters (printReal : ℚ → List UInt8) (table : DmlTable) (arguments : List SqliteValue)
    (identity : RowIdentityView) :
    List DmlParameterSlot → List UInt8 → Option (List UInt8 × List DmlParameter)
  | [], buffer => some (buffer, [])
  | slot :: slots, buffer => do
    let (buffer, parameter) ← dmlSlotParameter printReal table arguments identity buffer slot
    let (buffer, parameters) ← dmlParameters printReal table arguments identity slots buffer
    some (buffer, parameter :: parameters)

/-- What libpq sends for a parameter. -/
def DmlParameter.sent (buffer : List UInt8) (parameter : DmlParameter) : ClientParameter where
  typeOid := parameter.typeOid
  binary := parameter.binary
  value :=
    if parameter.isNull then none
    else if parameter.binary then some ((buffer.drop parameter.offset).take parameter.length)
    else some ((buffer.drop parameter.offset).takeWhile (· ≠ 0))

/-- **The parameters that `xUpdate` sends.** -/
def dmlSent (printReal : ℚ → List UInt8) (table : DmlTable) (arguments : List SqliteValue)
    (identity : RowIdentityView) (slots : List DmlParameterSlot) : Option (List ClientParameter) :=
  (dmlParameters printReal table arguments identity slots []).map fun (buffer, parameters) =>
    parameters.map (·.sent buffer)

/-! ## What the buffer keeps -/

/-- Bytes that fit go behind the buffer. -/
theorem parameterAppend_eq_some {buffer bytes stored : List UInt8}
    (h : parameterAppend buffer bytes = some stored) : stored = buffer ++ bytes := by
  unfold parameterAppend at h
  split_ifs at h
  exact (Option.some.inj h).symm

/-- A value that fits goes behind the buffer, with a NUL if it is text, and the parameter says
where. -/
theorem dmlAppendValue_eq_some {buffer value stored : List UInt8} {typeOid : UInt32}
    {binary terminated : Bool} {parameter : DmlParameter}
    (h : dmlAppendValue buffer typeOid binary terminated value = some (stored, parameter)) :
    stored = buffer ++ value ++ (if terminated then [0] else []) ∧
      parameter = ⟨typeOid, binary, false, buffer.length, value.length⟩ := by
  obtain ⟨valued, hvalued, hstored⟩ := Option.bind_eq_some_iff.1 h
  obtain ⟨ended, hended, hpair⟩ := Option.map_eq_some_iff.1 hstored
  obtain rfl := parameterAppend_eq_some hvalued
  obtain ⟨rfl, rfl⟩ := Prod.mk.inj hpair
  refine ⟨?_, rfl⟩
  split_ifs at hended ⊢
  · exact parameterAppend_eq_some hended
  · rw [List.append_nil]
    exact (Option.some.inj hended).symm

/-- What is in the buffer stays where it is when a value is appended. -/
theorem prefix_of_dmlAppendValue {buffer value stored : List UInt8} {typeOid : UInt32}
    {binary terminated : Bool} {parameter : DmlParameter}
    (h : dmlAppendValue buffer typeOid binary terminated value = some (stored, parameter)) :
    buffer <+: stored := by
  rw [(dmlAppendValue_eq_some h).1, List.append_assoc]
  exact List.prefix_append _ _

theorem prefix_of_dmlAppendIdentityParameter {buffer stored : List UInt8} {field : RowIdentityField}
    {typeOid : UInt32} {parameter : DmlParameter}
    (h : dmlAppendIdentityParameter buffer field typeOid = some (stored, parameter)) :
    buffer <+: stored := by
  unfold dmlAppendIdentityParameter at h
  split_ifs at h
  · cases h
    exact List.prefix_rfl
  · exact prefix_of_dmlAppendValue h
  · exact prefix_of_dmlAppendValue h

section Slots

variable {printReal : ℚ → List UInt8} {table : DmlTable} {arguments : List SqliteValue}
  {identity : RowIdentityView}

/-- It stays there whatever slot is filled. -/
theorem prefix_of_dmlSlotParameter {buffer stored : List UInt8} {slot : DmlParameterSlot}
    {parameter : DmlParameter}
    (h : dmlSlotParameter printReal table arguments identity buffer slot =
    some (stored, parameter)) :
    buffer <+: stored := by
  unfold dmlSlotParameter at h
  split at h
  · obtain ⟨value, -, h⟩ := Option.bind_eq_some_iff.1 h
    unfold dmlAppendParameter at h
    split_ifs at h
    · cases h
      exact List.prefix_rfl
    · obtain ⟨bytes, -, h⟩ := Option.bind_eq_some_iff.1 h
      exact prefix_of_dmlAppendValue h
  · unfold dmlAppendSridParameter at h
    split_ifs at h
    exact prefix_of_dmlAppendValue h
  · exact prefix_of_dmlAppendIdentityParameter h
  · exact prefix_of_dmlAppendIdentityParameter h

/-- Slots are filled one by one. -/
theorem dmlParameters_cons_eq_some {slot : DmlParameterSlot} {slots : List DmlParameterSlot}
    {buffer final : List UInt8} {parameters : List DmlParameter}
    (h : dmlParameters printReal table arguments identity (slot :: slots) buffer =
      some (final, parameters)) :
    ∃ stored parameter rest,
      dmlSlotParameter printReal table arguments identity buffer slot = some (stored, parameter) ∧
        dmlParameters printReal table arguments identity slots stored = some (final, rest) ∧
        parameters = parameter :: rest := by
  obtain ⟨⟨stored, parameter⟩, hslot, h⟩ := Option.bind_eq_some_iff.1 h
  obtain ⟨⟨final', rest⟩, hslots, h⟩ := Option.bind_eq_some_iff.1 h
  cases h
  exact ⟨stored, parameter, rest, hslot, hslots, rfl⟩

/-- It stays there however many are, so the parameters bound before still point at their bytes. -/
theorem prefix_of_dmlParameters {slots : List DmlParameterSlot} {buffer final : List UInt8}
    {parameters : List DmlParameter}
    (h : dmlParameters printReal table arguments identity slots buffer = some (final, parameters)) :
    buffer <+: final := by
  induction slots generalizing buffer parameters with
  | nil =>
    cases h
    exact List.prefix_rfl
  | cons slot slots ih =>
    obtain ⟨stored, parameter, rest, hslot, hslots, -⟩ := dmlParameters_cons_eq_some h
    exact (prefix_of_dmlSlotParameter hslot).trans (ih hslots)

/-- **What was stored for a slot stays where it was stored.** -/
theorem getElem?_of_dmlParameters {slots : List DmlParameterSlot} {buffer final : List UInt8}
    {parameters : List DmlParameter}
    (h : dmlParameters printReal table arguments identity slots buffer = some (final, parameters))
    {index : ℕ} {slot : DmlParameterSlot} (hslot : slots[index]? = some slot) :
    ∃ start stored parameter,
      dmlSlotParameter printReal table arguments identity start slot = some (stored, parameter) ∧
        stored <+: final ∧ parameters[index]? = some parameter := by
  induction slots generalizing buffer parameters index with
  | nil => simp at hslot
  | cons first slots ih =>
    obtain ⟨stored, parameter, rest, hfirst, hrest, rfl⟩ := dmlParameters_cons_eq_some h
    cases index with
    | zero =>
      obtain rfl : first = slot := by simpa using hslot
      exact ⟨buffer, stored, parameter, hfirst, prefix_of_dmlParameters hrest, rfl⟩
    | succ index => exact ih hrest (by simpa using hslot)

end Slots

/-- **What is sent for a text or a blob of the token**: the bytes by their number if the type is
`bytea`, and up to the first zero byte otherwise. -/
theorem sent_of_dmlAppendIdentityParameter {start stored final : List UInt8}
    {field : RowIdentityField}
    {typeOid : UInt32} {parameter : DmlParameter} (hkind : field.kind = 2 ∨ field.kind = 3)
    (h : dmlAppendIdentityParameter start field typeOid = some (stored, parameter))
    (hfinal : stored <+: final) :
    parameter.sent final = ⟨typeOid, typeOid == 17,
      some (if typeOid = 17 then field.span.data else field.span.data.takeWhile (· ≠ 0))⟩ := by
  unfold dmlAppendIdentityParameter at h
  rw [if_neg (by omega), if_neg (by omega)] at h
  obtain ⟨rfl, rfl⟩ := dmlAppendValue_eq_some h
  obtain ⟨tail, rfl⟩ := hfinal
  have hdrop (text : List UInt8) : (start ++ text).drop start.length = text := List.drop_left
  by_cases h17 : typeOid = 17
  · simp [DmlParameter.sent, h17, hdrop]
  · have htake : (field.span.data ++ 0 :: tail).takeWhile (· ≠ 0) =
        field.span.data.takeWhile (· ≠ 0) := by
      rw [List.takeWhile_append]
      split_ifs with hall
      · rw [List.takeWhile_cons_of_neg (by simp), List.append_nil]
        exact (List.takeWhile_prefix _).eq_of_length hall |>.symm
      · rfl
    simp only [DmlParameter.sent, h17, bne_iff_ne, ne_eq, not_false_eq_true, if_true,
      beq_eq_false_iff_ne.2 h17, Bool.false_eq_true, if_false, List.append_assoc,
      List.singleton_append, hdrop, htake]

end Vps
