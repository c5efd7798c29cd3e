import VirtualPostgreSQL.Row.Token

/-!
# Row/TokenCodec — the writer and the reader of a token agree

A token is a header and the fields behind it, and each field says how long it is
(`rowIdentityEncode_eq_ok_iff`).  What is written is read back (`rowIdentityCandidate_encode`), and
what is accepted was written (`encode_of_rowIdentityCandidate`); the length in the header keeps a
token from being the beginning of another.
-/

namespace Vps

open Machinery

/-! ## One field -/

/-- The bytes of a field behind its header. -/
def RowIdentityField.payload (field : RowIdentityField) : List UInt8 :=
  if field.kind = 1 then beBytes 8 field.integer.toUInt64.toNat
  else if field.kind = 0 then [] else field.span.data

/-- A field as it is written. -/
def RowIdentityField.encoded (field : RowIdentityField) : List UInt8 :=
  field.kind.toUInt8 :: beBytes 4 field.typeOid.toNat ++
    (beBytes 4 field.payload.length ++ field.payload)

/-- A field without what its kind does not use. -/
def RowIdentityField.cleared (field : RowIdentityField) : RowIdentityField :=
  if field.kind = 1 then
    { kind := field.kind, typeOid := field.typeOid, integer := field.integer }
  else if field.kind ≠ 0 then
    { kind := field.kind, typeOid := field.typeOid, span := .bytes field.span.data }
  else { kind := field.kind, typeOid := field.typeOid }

theorem RowIdentityField.meaning_cleared (field : RowIdentityField) :
    field.cleared.meaning = field.meaning := by
  by_cases h1 : field.kind = 1
  · simp [cleared, meaning, value, h1]
  by_cases h0 : field.kind = 0
  · simp [cleared, meaning, value, h0]
  · simp only [cleared, if_neg h1, if_pos h0, meaning, value, Prod.mk.injEq, true_and]
    split <;> simp_all [ByteSpan.data]

theorem ByteSpan.length_data {span : ByteSpan} (h : span.length = 0 ∨ ¬ span.isNull) :
    span.data.length = span.length := by
  cases span with
  | null length => simpa [ByteSpan.length, ByteSpan.data, ByteSpan.isNull, eq_comm] using h
  | bytes data => rfl

section Field

variable {field : RowIdentityField}

/-- The length in the header is that of the payload. -/
theorem length_payload (h : ¬ field.Refused) :
    field.payload.length = if field.kind = 1 then 8 else field.span.length := by
  simp only [RowIdentityField.Refused, not_or, not_and] at h
  obtain ⟨hkind, -, hnull, hempty⟩ := h
  unfold RowIdentityField.payload
  by_cases h1 : field.kind = 1
  · simp [h1]
  by_cases h0 : field.kind = 0
  · simpa [h0, eq_comm] using hempty h0
  · simp only [if_neg h1, if_neg h0]
    refine ByteSpan.length_data (or_iff_not_imp_left.2 fun hlength => ?_)
    exact hnull (by omega) hlength

theorem length_payload_le (h : ¬ field.Refused) : field.payload.length ≤ uint32Max := by
  rw [length_payload h]
  simp only [RowIdentityField.Refused, not_or] at h
  split_ifs
  · decide
  · omega

/-- What is written of a field that is not refused. -/
theorem payload_eq_data (h1 : field.kind ≠ 1) (h0 : field.kind ≠ 0) :
    field.payload = field.span.data := by
  rw [RowIdentityField.payload, if_neg h1, if_neg h0]

theorem rowTokenAppend_eq_ok_iff {token bytes token' : List UInt8} :
    rowTokenAppend token bytes = .ok token' ↔
      token' = token ++ bytes ∧ token'.length ≤ rowIdentityMaxBytes := by
  unfold rowTokenAppend
  constructor
  · intro h
    split_ifs at h with hroom
    obtain rfl : token ++ bytes = token' := by simpa using h
    exact ⟨rfl, by rwa [List.length_append]⟩
  · rintro ⟨rfl, hroom⟩
    rw [List.length_append] at hroom
    rw [if_pos hroom]

/-- The payload is appended, unless it is empty. -/
theorem append_payload_eq_ok_iff {token token' : List UInt8}
    (htoken : token.length ≤ rowIdentityMaxBytes) :
    (if field.kind = 1 then rowTokenAppend token (beBytes 8 field.integer.toUInt64.toNat)
      else if field.kind ≠ 0 ∧ field.payload.length ≠ 0 then rowTokenAppend token field.span.data
      else .ok token) = .ok token' ↔
      token' = token ++ field.payload ∧ token'.length ≤ rowIdentityMaxBytes := by
  by_cases h1 : field.kind = 1
  · rw [if_pos h1, rowTokenAppend_eq_ok_iff, RowIdentityField.payload, if_pos h1]
  by_cases h0 : field.kind ≠ 0 ∧ field.payload.length ≠ 0
  · rw [if_neg h1, if_pos h0, rowTokenAppend_eq_ok_iff, payload_eq_data h1 h0.1]
  have hempty : field.payload = [] := by
    by_cases hkind : field.kind = 0
    · simp [RowIdentityField.payload, hkind]
    · simpa [hkind] using h0
  rw [if_neg h1, if_neg h0, hempty, List.append_nil]
  constructor
  · rintro ⟨⟩
    exact ⟨rfl, htoken⟩
  · rintro ⟨rfl, -⟩
    rfl

/-- **A field is written whole or not at all.** -/
theorem rowTokenAppendField_eq_ok_iff {token token' : List UInt8} :
    rowTokenAppendField token field = .ok token' ↔
      ¬ field.Refused ∧ token' = token ++ field.encoded ∧
        token'.length ≤ rowIdentityMaxBytes := by
  unfold rowTokenAppendField
  by_cases h : field.Refused
  · simp [h]
  rw [if_neg h, ← length_payload h]
  simp only [bind_eq_ok_iff, rowTokenAppend_eq_ok_iff, h, not_false_eq_true, true_and]
  constructor
  · rintro ⟨_, ⟨rfl, -⟩, _, ⟨rfl, -⟩, _, ⟨rfl, hroom⟩, hlast⟩
    rw [append_payload_eq_ok_iff hroom] at hlast
    simpa [RowIdentityField.encoded] using hlast
  · rintro ⟨rfl, hroom⟩
    have hle : (token ++ field.encoded).length = token.length + 9 + field.payload.length := by
      simp [RowIdentityField.encoded]
      omega
    refine ⟨_, ⟨rfl, ?_⟩, _, ⟨rfl, ?_⟩, _, ⟨rfl, ?_⟩, (append_payload_eq_ok_iff ?_).2 ?_⟩
    · simp; omega
    · simp; omega
    · simp; omega
    · simp; omega
    · refine ⟨by simp [RowIdentityField.encoded], hroom⟩

/-- The fields are written one after the other. -/
theorem foldlM_rowTokenAppendField_eq_ok_iff {fields : List RowIdentityField}
    {token token' : List UInt8} (htoken : token.length ≤ rowIdentityMaxBytes) :
    fields.foldlM rowTokenAppendField token = .ok token' ↔
      (∀ field ∈ fields, ¬ field.Refused) ∧
        token' = token ++ fields.flatMap RowIdentityField.encoded ∧
        token'.length ≤ rowIdentityMaxBytes := by
  induction fields generalizing token with
  | nil =>
    simp only [List.foldlM_nil, List.not_mem_nil, false_imp_iff, implies_true, List.flatMap_nil,
      List.append_nil, true_and]
    constructor
    · rintro ⟨⟩
      exact ⟨rfl, htoken⟩
    · rintro ⟨rfl, -⟩
      rfl
  | cons field fields ih =>
    rw [List.foldlM_cons, bind_eq_ok_iff]
    constructor
    · rintro ⟨next, hnext, hrest⟩
      obtain ⟨hfield, rfl, hroom⟩ := rowTokenAppendField_eq_ok_iff.1 hnext
      obtain ⟨hfields, rfl, hroom⟩ := (ih hroom).1 hrest
      exact ⟨List.forall_mem_cons.2 ⟨hfield, hfields⟩, by simp, hroom⟩
    · rintro ⟨hfields, rfl, hroom⟩
      obtain ⟨hfield, hfields⟩ := List.forall_mem_cons.1 hfields
      have hfirst : (token ++ field.encoded).length ≤ rowIdentityMaxBytes := by
        rw [List.flatMap_cons, ← List.append_assoc, List.length_append] at hroom
        omega
      refine ⟨_, rowTokenAppendField_eq_ok_iff.2 ⟨hfield, rfl, hfirst⟩, (ih hfirst).2 ?_⟩
      exact ⟨hfields, by simp, hroom⟩

/-- **A field is read back** from in front of anything. -/
theorem rowTokenDecodeField_encoded (h : ¬ field.Refused) (tail : List UInt8) :
    rowTokenDecodeField (field.encoded ++ tail) = .ok (field.cleared, tail) := by
  have hlength := length_payload_le h
  have hpayload := length_payload h
  simp only [RowIdentityField.Refused, not_or, not_and] at h
  have hkind : field.kind.toUInt8.toNat = field.kind := by
    rw [Nat.toUInt8_eq, UInt8.toNat_ofNat']
    omega
  have hoid : (beValue (slice (field.encoded ++ tail) 1 4)).toUInt32 = field.typeOid := by
    change (beValue (beBytes 4 field.typeOid.toNat)).toUInt32 = field.typeOid
    rw [beValue_beBytes field.typeOid.toNat_lt, Nat.toUInt32_eq, UInt32.ofNat_toNat]
  have hsize : beValue (slice (field.encoded ++ tail) 5 4) = field.payload.length := by
    change beValue (beBytes 4 field.payload.length) = field.payload.length
    exact beValue_beBytes (lt_of_le_of_lt hlength (by decide))
  have hrest : (field.encoded ++ tail).drop identityFieldHeaderBytes = field.payload ++ tail := rfl
  have hhead : ((field.encoded ++ tail).headD 0).toNat = field.kind := hkind
  have hroom : ¬ (field.encoded ++ tail).length < identityFieldHeaderBytes := by
    simp [RowIdentityField.encoded, identityFieldHeaderBytes]
    omega
  have hvalid : ¬ (field.kind > 3 ∨ (field.kind = 0 ∧ field.payload.length ≠ 0) ∨
      (field.kind = 1 ∧ field.payload.length ≠ 8) ∨
      field.payload.length > (field.payload ++ tail).length) := by
    have hroom : field.payload.length ≤ (field.payload ++ tail).length := by simp
    rintro (hbig | ⟨hnull, hlong⟩ | ⟨hinteger, hwide⟩ | hlong)
    · exact h.1 hbig
    · rw [hpayload, if_neg (by omega)] at hlong
      exact h.2.2.2 hnull hlong
    · rw [hpayload, if_pos hinteger] at hwide
      exact hwide rfl
    · omega
  simp only [rowTokenDecodeField, if_neg hroom, hoid, hsize, hrest, hhead, if_neg hvalid,
    List.drop_left, List.take_left]
  unfold RowIdentityField.cleared
  by_cases h1 : field.kind = 1
  · have hinteger : field.payload = beBytes 8 field.integer.toUInt64.toNat := by
      rw [RowIdentityField.payload, if_pos h1]
    have htake : (field.payload ++ tail).take 8 = beBytes 8 field.integer.toUInt64.toNat := by
      rw [hinteger, List.take_left' (length_beBytes 8 _)]
    have hvalue : beValue (beBytes 8 field.integer.toUInt64.toNat) = field.integer.toUInt64.toNat :=
      beValue_beBytes field.integer.toUInt64.toNat_lt
    simp only [if_pos h1, htake, hvalue, Nat.toUInt64_eq, UInt64.ofNat_toNat,
      Int64.toInt64_toUInt64]
  by_cases h0 : field.kind = 0
  · simp [h0]
  · simp only [if_neg h1, if_pos h0, payload_eq_data h1 h0]

/-- Four bytes are a number of 32 bits. -/
theorem toNat_beValue_slice {bs : List UInt8} {offset : ℕ} (h : offset + 4 ≤ bs.length) :
    (beValue (slice bs offset 4)).toUInt32.toNat = beValue (slice bs offset 4) := by
  have hlt := beValue_lt (slice bs offset 4)
  rw [length_slice h] at hlt
  rw [Nat.toUInt32_eq, UInt32.toNat_ofNat']
  exact Nat.mod_eq_of_lt hlt

/-- The bytes of a field whose parts were read where they stand. -/
theorem encoded_append_drop {rest : List UInt8}
    (hroom : ¬ rest.length < identityFieldHeaderBytes)
    (hkind : field.kind = (rest.headD 0).toNat)
    (hoid : field.typeOid = (beValue (slice rest 1 4)).toUInt32)
    (hpayload : field.payload =
      (rest.drop identityFieldHeaderBytes).take (beValue (slice rest 5 4)))
    (hlength : beValue (slice rest 5 4) ≤ (rest.drop identityFieldHeaderBytes).length) :
    rest = field.encoded ++
      (rest.drop identityFieldHeaderBytes).drop (beValue (slice rest 5 4)) := by
  have hroom : 9 ≤ rest.length := by simpa [identityFieldHeaderBytes] using hroom
  have hfirst : slice rest 0 1 = [field.kind.toUInt8] := by
    cases rest with
    | nil => simp at hroom
    | cons byte rest => simp [slice, hkind]
  have hsecond : beBytes 4 field.typeOid.toNat = slice rest 1 4 := by
    rw [hoid, toNat_beValue_slice (by omega), beBytes_beValue_slice (by omega)]
  have hthird : beBytes 4 field.payload.length = slice rest 5 4 := by
    rw [hpayload, List.length_take, Nat.min_eq_left hlength, beBytes_beValue_slice (by omega)]
  have hheader : rest.take identityFieldHeaderBytes =
      slice rest 0 1 ++ (slice rest 1 4 ++ slice rest 5 4) := by
    rw [← slice_add, ← slice_add]
    rfl
  calc rest = rest.take identityFieldHeaderBytes ++
        ((rest.drop identityFieldHeaderBytes).take (beValue (slice rest 5 4)) ++
          (rest.drop identityFieldHeaderBytes).drop (beValue (slice rest 5 4))) := by
        rw [List.take_append_drop, List.take_append_drop]
    _ = _ := by
        rw [← hpayload, hheader, hfirst, ← hsecond, RowIdentityField.encoded, hthird]
        simp

theorem not_refused_of_empty (hkind : field.kind ≤ 3) (hspan : field.span = .null 0) :
    ¬ field.Refused := by
  simp only [RowIdentityField.Refused, hspan, ByteSpan.length, ne_eq, not_true_eq_false, false_and,
    and_false, or_false, not_or, gt_iff_lt, not_lt, Nat.zero_le, and_true]
  exact hkind

/-- **A field that was read can be written back.** -/
theorem encoded_of_rowTokenDecodeField {rest tail : List UInt8}
    (h : rowTokenDecodeField rest = .ok (field, tail)) :
    rest = field.encoded ++ tail ∧ ¬ field.Refused := by
  simp only [rowTokenDecodeField] at h
  have hwide : beValue (slice rest 5 4) ≤ uint32Max := by
    have hlt := beValue_lt (slice rest 5 4)
    have hle : (slice rest 5 4).length ≤ 4 := List.length_take_le _ _
    have hpow : 256 ^ (slice rest 5 4).length ≤ 256 ^ 4 := Nat.pow_le_pow_right (by decide) hle
    have : uint32Max + 1 = 256 ^ 4 := by decide
    omega
  split_ifs at h with hroom hvalid h1 h0
  all_goals
    obtain ⟨rfl, rfl⟩ := Prod.mk.inj (Except.ok.inj h)
    simp only [not_or, not_and, not_not, gt_iff_lt, not_lt] at hvalid
    obtain ⟨hkind, hnull, hinteger, hlength⟩ := hvalid
    refine ⟨encoded_append_drop hroom rfl rfl ?_ hlength, ?_⟩
  · -- an integer takes eight bytes
    rw [hinteger h1] at hlength ⊢
    have hbytes := beBytes_beValue ((rest.drop identityFieldHeaderBytes).take 8)
    rw [List.length_take, Nat.min_eq_left hlength] at hbytes
    have hlt : beValue ((rest.drop identityFieldHeaderBytes).take 8) < 2 ^ 64 := by
      have := beValue_lt ((rest.drop identityFieldHeaderBytes).take 8)
      rwa [List.length_take, Nat.min_eq_left hlength] at this
    rw [RowIdentityField.payload, if_pos h1]
    simp only [UInt64.toUInt64_toInt64, Nat.toUInt64_eq, UInt64.toNat_ofNat', Nat.mod_eq_of_lt hlt,
      hbytes]
  · exact not_refused_of_empty hkind rfl
  · exact payload_eq_data h1 h0
  · rintro (hbig | hlong | ⟨-, -, hpointer⟩ | ⟨hzero, -⟩)
    · exact absurd hkind (Nat.not_le.2 hbig)
    · simp only [ByteSpan.length, List.length_take] at hlong
      omega
    · cases hpointer
    · exact h0 hzero
  · simp only [ne_eq, not_not] at h0
    rw [hnull h0, List.take_zero, RowIdentityField.payload, if_neg h1, if_pos h0]
  · exact not_refused_of_empty hkind rfl

end Field

/-! ## The whole token -/

/-- The header of a token up to its length. -/
def rowTokenStart (flags : UInt8) (fieldCount relationOid : ℕ) : List UInt8 :=
  identityMagic ++ [rowIdentityFormatVersion, flags] ++ beBytes 2 fieldCount ++
    beBytes 4 relationOid

/-- The flags of a token. -/
def RowIdentitySpec.flags (spec : RowIdentitySpec) : UInt8 :=
  if spec.optimisticField.isSome then identityFlagOptimistic else 0

/-- All fields of a token. -/
def RowIdentitySpec.fields (spec : RowIdentitySpec) : List RowIdentityField :=
  spec.keyFields ++ spec.optimisticField.toList

/-- The bytes behind the header. -/
def RowIdentitySpec.body (spec : RowIdentitySpec) : List UInt8 :=
  spec.fields.flatMap RowIdentityField.encoded

/-- The token of a key. -/
def RowIdentitySpec.token (spec : RowIdentitySpec) : List UInt8 :=
  rowTokenStart spec.flags spec.keyFields.length spec.relationOid.toNat ++
    (beBytes 4 (16 + spec.body.length) ++ spec.body)

@[simp] theorem length_rowTokenStart (flags : UInt8) (fieldCount relationOid : ℕ) :
    (rowTokenStart flags fieldCount relationOid).length = 12 := by
  simp [rowTokenStart, identityMagic, ascii]

theorem RowIdentitySpec.length_token (spec : RowIdentitySpec) :
    spec.token.length = 16 + spec.body.length := by
  simp [RowIdentitySpec.token]
  omega

/-- The length is written over the zero. -/
theorem patch_length {start : List UInt8} (hstart : start.length = 12) (size : ℕ)
    (body : List UInt8) :
    (start ++ beBytes 4 0 ++ body).take 12 ++ beBytes 4 size ++
      (start ++ beBytes 4 0 ++ body).drop 16 = start ++ (beBytes 4 size ++ body) := by
  have htake : (start ++ beBytes 4 0 ++ body).take 12 = start := by
    rw [List.append_assoc, List.take_left' hstart]
  have hdrop : (start ++ beBytes 4 0 ++ body).drop 16 = body :=
    List.drop_left' (by rw [List.length_append, hstart, length_beBytes])
  rw [htake, hdrop, List.append_assoc]

/-- The header always fits, so encoding is writing the fields behind it. -/
theorem rowIdentityEncode_eq {spec : RowIdentitySpec}
    (hcount : ¬ (spec.keyFields.length = 0 ∨ spec.keyFields.length > rowIdentityMaxFields)) :
    rowIdentityEncode spec =
      spec.fields.foldlM rowTokenAppendField (rowTokenStart spec.flags spec.keyFields.length
        spec.relationOid.toNat ++ beBytes 4 0) >>= fun token =>
          .ok (token.take 12 ++ beBytes 4 token.length ++ token.drop 16) := by
  have happend (token bytes : List UInt8) (h : token.length + bytes.length ≤ 16) :
      rowTokenAppend token bytes = .ok (token ++ bytes) :=
    rowTokenAppend_eq_ok_iff.2 ⟨rfl, by
      rw [List.length_append]
      exact h.trans (by decide)⟩
  have hmagic := happend [] (identityMagic ++ [rowIdentityFormatVersion, spec.flags])
    (by simp [identityMagic, ascii])
  have hkeys := happend (identityMagic ++ [rowIdentityFormatVersion, spec.flags])
    (beBytes 2 spec.keyFields.length) (by simp [identityMagic, ascii])
  have hrelation := happend (identityMagic ++ [rowIdentityFormatVersion, spec.flags] ++
    beBytes 2 spec.keyFields.length) (beBytes 4 spec.relationOid.toNat)
    (by simp [identityMagic, ascii])
  have hsize := happend (rowTokenStart spec.flags spec.keyFields.length spec.relationOid.toNat)
    (beBytes 4 0) (by simp)
  rw [RowIdentitySpec.fields, List.foldlM_append, bind_assoc, rowIdentityEncode, if_neg hcount]
  change (rowTokenAppend [] (identityMagic ++ [rowIdentityFormatVersion, spec.flags]) >>= _) = _
  rw [hmagic, ok_bind, List.nil_append, hkeys, ok_bind, hrelation, ok_bind]
  change (rowTokenAppend (rowTokenStart _ _ _) (beBytes 4 0) >>= _) = _
  rw [hsize, ok_bind]

/-- **What is encoded, and as what.** -/
theorem rowIdentityEncode_eq_ok_iff {spec : RowIdentitySpec} {token : List UInt8} :
    rowIdentityEncode spec = .ok token ↔
      ¬ (spec.keyFields.length = 0 ∨ spec.keyFields.length > rowIdentityMaxFields) ∧
        (∀ field ∈ spec.fields, ¬ field.Refused) ∧ token = spec.token ∧
        token.length ≤ rowIdentityMaxBytes := by
  by_cases hcount : spec.keyFields.length = 0 ∨ spec.keyFields.length > rowIdentityMaxFields
  · rw [rowIdentityEncode, if_pos hcount]
    exact ⟨fun h => (by cases h), fun h => absurd hcount h.1⟩
  have hstart := length_rowTokenStart spec.flags spec.keyFields.length spec.relationOid.toNat
  have hlength : (rowTokenStart spec.flags spec.keyFields.length spec.relationOid.toNat ++
      beBytes 4 0 ++ spec.body).length = 16 + spec.body.length := by
    rw [List.length_append, List.length_append, hstart, length_beBytes]
  have hwritten {token : List UInt8} := @foldlM_rowTokenAppendField_eq_ok_iff spec.fields
    (rowTokenStart spec.flags spec.keyFields.length spec.relationOid.toNat ++ beBytes 4 0) token
    (by rw [List.length_append, hstart, length_beBytes]; decide)
  change ∀ {token}, _ ↔ _ ∧ token = _ ++ spec.body ∧ _ at hwritten
  rw [rowIdentityEncode_eq hcount, bind_eq_ok_iff]
  constructor
  · rintro ⟨written, h, hpatched⟩
    obtain ⟨hfields, rfl, hroom⟩ := hwritten.1 h
    rw [hlength] at hroom hpatched
    rw [patch_length hstart] at hpatched
    obtain rfl : spec.token = token := Except.ok.inj hpatched
    exact ⟨hcount, hfields, rfl, by rwa [spec.length_token]⟩
  · rintro ⟨-, hfields, rfl, hroom⟩
    rw [spec.length_token] at hroom
    refine ⟨_, hwritten.2 ⟨hfields, rfl, by rwa [hlength]⟩, ?_⟩
    rw [hlength, patch_length hstart]
    rfl

theorem RowIdentitySpec.optimisticCount_flags (spec : RowIdentitySpec) :
    optimisticCount spec.flags = spec.optimisticField.toList.length := by
  unfold RowIdentitySpec.flags
  cases spec.optimisticField with
  | none => rfl
  | some field =>
    change optimisticCount identityFlagOptimistic = 1
    decide

/-- The checks of the header, and the fields that are read behind it. -/
theorem rowIdentityCandidate_eq_ok_iff {token : List UInt8} {view : RowIdentityView} :
    rowIdentityCandidate token = .ok view ↔
      ¬ (token.length < identityHeaderBytes ∨ token.length > rowIdentityMaxBytes ∨
        slice token 0 4 ≠ identityMagic ∨ slice token 4 1 ≠ [rowIdentityFormatVersion] ∨
        (slice token 5 1).headD 0 &&& 0xfe ≠ 0 ∨ beValue (slice token 12 4) ≠ token.length) ∧
      ¬ (beValue (slice token 6 2) = 0 ∨ beValue (slice token 6 2) > rowIdentityMaxFields) ∧
      ∃ rest optimistic,
        readMany rowTokenDecodeField (beValue (slice token 6 2)) (token.drop identityHeaderBytes) =
          .ok (view.keyFields, rest) ∧
        readMany rowTokenDecodeField (optimisticCount ((slice token 5 1).headD 0)) rest =
          .ok (optimistic, []) ∧
        view.relationOid = (beValue (slice token 8 4)).toUInt32 ∧
        view.optimisticField = optimistic.head? := by
  simp only [rowIdentityCandidate]
  split_ifs with hheader hcount
  · exact ⟨fun h => (by cases h), fun h => absurd hheader h.1⟩
  · exact ⟨fun h => (by cases h), fun h => absurd hcount h.2.1⟩
  simp only [bind_eq_ok_iff, Prod.exists, hheader, hcount, not_false_eq_true, true_and]
  constructor
  · rintro ⟨keys, rest, hkeys, optimistic, last, hoptimistic, h⟩
    split_ifs at h with hlast
    obtain rfl : last = [] := not_not.1 hlast
    cases h
    exact ⟨rest, optimistic, hkeys, hoptimistic, rfl, rfl⟩
  · obtain ⟨relationOid, keyFields, optimisticField⟩ := view
    rintro ⟨rest, optimistic, hkeys, hoptimistic, rfl, rfl⟩
    exact ⟨keyFields, rest, hkeys, optimistic, [], hoptimistic, by simp⟩

/-- **A token is read back.** -/
theorem rowIdentityCandidate_encode {spec : RowIdentitySpec} {token : List UInt8}
    (h : rowIdentityEncode spec = .ok token) :
    rowIdentityCandidate token = .ok
      ⟨spec.relationOid, spec.keyFields.map (·.cleared), spec.optimisticField.map (·.cleared)⟩ := by
  obtain ⟨hcount, hfields, rfl, hroom⟩ := rowIdentityEncode_eq_ok_iff.1 h
  have hmagic : slice spec.token 0 4 = identityMagic := rfl
  have hversion : slice spec.token 4 1 = [rowIdentityFormatVersion] := rfl
  have hflags : (slice spec.token 5 1).headD 0 = spec.flags := rfl
  have hkeys : beValue (slice spec.token 6 2) = spec.keyFields.length := by
    change beValue (beBytes 2 spec.keyFields.length) = _
    refine beValue_beBytes ?_
    simp only [rowIdentityMaxFields] at hcount
    omega
  have hrelation : (beValue (slice spec.token 8 4)).toUInt32 = spec.relationOid := by
    change (beValue (beBytes 4 spec.relationOid.toNat)).toUInt32 = _
    rw [beValue_beBytes spec.relationOid.toNat_lt, Nat.toUInt32_eq, UInt32.ofNat_toNat]
  have hsize : beValue (slice spec.token 12 4) = spec.token.length := by
    change beValue (beBytes 4 (16 + spec.body.length)) = _
    rw [spec.length_token] at hroom ⊢
    exact beValue_beBytes (lt_of_le_of_lt hroom (by decide))
  have hbody : spec.token.drop identityHeaderBytes = spec.body := rfl
  have hone : ¬ spec.flags &&& 0xfe ≠ 0 := by
    unfold RowIdentitySpec.flags
    split_ifs <;> decide
  have hoptimistic := readMany_flatMap (fun field hmem =>
    rowTokenDecodeField_encoded (hfields field (List.mem_append_right _ hmem))) []
  rw [List.append_nil] at hoptimistic
  rw [rowIdentityCandidate_eq_ok_iff, hflags, hkeys, hbody, spec.optimisticCount_flags]
  refine ⟨?_, hcount, _, _, ?_, hoptimistic, hrelation.symm, ?_⟩
  · rw [hmagic, hversion, hsize, spec.length_token]
    rw [spec.length_token] at hroom
    simp only [ne_eq, not_true_eq_false, false_or, or_false, not_or, identityHeaderBytes]
    exact ⟨by omega, by omega, hone⟩
  · rw [RowIdentitySpec.body, RowIdentitySpec.fields, List.flatMap_append]
    exact readMany_flatMap (fun field hmem =>
      rowTokenDecodeField_encoded (hfields field (List.mem_append_left _ hmem))) _
  · cases spec.optimisticField <;> rfl

theorem slice_headD {bs : List UInt8} {offset : ℕ} (h : offset < bs.length) :
    slice bs offset 1 = [(slice bs offset 1).headD 0] := by
  have hlength := @length_slice bs offset 1 h
  obtain ⟨byte, hbyte⟩ := List.length_eq_one_iff.1 hlength
  rw [hbyte]
  rfl

theorem flags_cases {flags : UInt8} (h : flags &&& 0xfe = 0) : flags = 0 ∨ flags = 1 :=
  byte_induction (P := fun flags => flags &&& 0xfe = 0 → flags = 0 ∨ flags = 1) 256
    (by decide +kernel) flags flags.toNat_lt h

theorem RowIdentitySpec.flags_cases (spec : RowIdentitySpec) : spec.flags = 0 ∨ spec.flags = 1 := by
  unfold RowIdentitySpec.flags
  split_ifs
  · exact .inr rfl
  · exact .inl rfl

theorem optimisticCount_inj {flags flags' : UInt8} (h : flags = 0 ∨ flags = 1)
    (h' : flags' = 0 ∨ flags' = 1) (heq : optimisticCount flags = optimisticCount flags') :
    flags = flags' := by
  obtain rfl | rfl := h <;> obtain rfl | rfl := h' <;> first | rfl | (revert heq; decide)

/-- **A token that is accepted was written.** -/
theorem encode_of_rowIdentityCandidate {token : List UInt8} {view : RowIdentityView}
    (h : rowIdentityCandidate token = .ok view) :
    rowIdentityEncode ⟨view.relationOid, view.keyFields, view.optimisticField⟩ = .ok token := by
  obtain ⟨hheader, hcount, rest, optimistic, hkeys, hoptimistic, hrelation, hhead⟩ :=
    rowIdentityCandidate_eq_ok_iff.1 h
  simp only [not_or, ne_eq, not_not, not_lt, identityHeaderBytes, gt_iff_lt] at hheader
  obtain ⟨hlong, hroom, hmagic, hversion, hflags, hsize⟩ := hheader
  obtain ⟨hbody, hkeyCount, hkeyFields⟩ := ok_of_readMany
    (fun _ _ _ hread => encoded_of_rowTokenDecodeField hread) hkeys
  obtain ⟨rfl, hoptimisticCount, hoptimisticFields⟩ := ok_of_readMany
    (fun _ _ _ hread => encoded_of_rowTokenDecodeField hread) hoptimistic
  have hlist : view.optimisticField.toList = optimistic := by
    have hle : optimistic.length ≤ 1 := by
      rw [hoptimisticCount, optimisticCount]
      split_ifs <;> simp
    rw [hhead]
    match optimistic, hle with
    | [], _ => rfl
    | [_], _ => rfl
  let spec : RowIdentitySpec := ⟨view.relationOid, view.keyFields, view.optimisticField⟩
  have hspec : token.drop 16 = spec.body := by
    change _ = (view.keyFields ++ view.optimisticField.toList).flatMap _
    rw [hlist, List.flatMap_append]
    rwa [List.append_nil] at hbody
  have hspecFlags : slice token 5 1 = [spec.flags] := by
    rw [slice_headD (by omega)]
    have hcount : optimisticCount ((slice token 5 1).headD 0) = optimisticCount spec.flags := by
      rw [spec.optimisticCount_flags, ← hoptimisticCount, ← hlist]
    rw [optimisticCount_inj (flags_cases hflags) spec.flags_cases hcount]
  have hspecCount : slice token 6 2 = beBytes 2 spec.keyFields.length := by
    change _ = beBytes 2 view.keyFields.length
    rw [hkeyCount, beBytes_beValue_slice (by omega)]
  have hspecRelation : slice token 8 4 = beBytes 4 spec.relationOid.toNat := by
    change _ = beBytes 4 view.relationOid.toNat
    rw [hrelation, toNat_beValue_slice (by omega), beBytes_beValue_slice (by omega)]
  have hspecSize : slice token 12 4 = beBytes 4 (16 + spec.body.length) := by
    rw [← hspec, List.length_drop, Nat.add_sub_cancel' hlong, ← hsize,
      beBytes_beValue_slice (by omega)]
  refine rowIdentityEncode_eq_ok_iff.2 ⟨by rwa [hkeyCount], ?_, ?_, hroom⟩
  · intro field hmem
    change field ∈ view.keyFields ++ view.optimisticField.toList at hmem
    rw [hlist] at hmem
    exact (List.mem_append.1 hmem).elim (hkeyFields field) (hoptimisticFields field)
  · calc token = slice token 0 4 ++ slice token 4 1 ++ slice token 5 1 ++ slice token 6 2 ++
          slice token 8 4 ++ slice token 12 4 ++ token.drop 16 := by
          rw [← slice_add, ← slice_add, ← slice_add, ← slice_add, ← slice_add]
          exact (List.take_append_drop 16 token).symm
      _ = spec.token := by
          rw [hmagic, hversion, hspecFlags, hspecCount, hspecRelation, hspecSize, hspec]
          simp [RowIdentitySpec.token, rowTokenStart]

/-- The length in the header: no token is the beginning of another. -/
theorem eq_of_prefix_of_candidate {token token' : List UInt8} {view view' : RowIdentityView}
    (h : rowIdentityCandidate token = .ok view) (h' : rowIdentityCandidate token' = .ok view')
    (hle : token <+: token') : token = token' := by
  obtain ⟨hheader, -⟩ := rowIdentityCandidate_eq_ok_iff.1 h
  obtain ⟨hheader', -⟩ := rowIdentityCandidate_eq_ok_iff.1 h'
  simp only [not_or, ne_eq, not_not, not_lt, identityHeaderBytes] at hheader hheader'
  obtain ⟨more, rfl⟩ := hle
  have hsame : slice (token ++ more) 12 4 = slice token 12 4 := by
    rw [slice, slice, List.drop_append_of_le_length (by omega), List.take_append_of_le_length]
    rw [List.length_drop]
    omega
  have hlength : token.length = (token ++ more).length := by
    rw [← hheader.2.2.2.2.2, ← hheader'.2.2.2.2.2, hsame]
  exact (List.prefix_append token more).eq_of_length hlength

theorem rowIdentityDecode_ok_iff {token : List UInt8} {view view' : RowIdentityView} :
    rowIdentityDecode token view = (.ok (), view') ↔ rowIdentityCandidate token = .ok view' := by
  unfold rowIdentityDecode
  split <;> simp [*]

theorem meaning_of_rowIdentityEncode {spec : RowIdentitySpec} {token : List UInt8}
    (h : rowIdentityEncode spec = .ok token) :
    ∃ decoded, rowIdentityCandidate token = .ok decoded ∧ decoded.meaning = spec.meaning := by
  refine ⟨_, rowIdentityCandidate_encode h, ?_⟩
  simp only [RowIdentityView.meaning, RowIdentitySpec.meaning, List.map_map, Option.map_map,
    Function.comp_def, RowIdentityField.meaning_cleared]

/-- **The codec of row tokens**: what is encoded is decoded to the same relation, key and optimistic
value; what is decoded is an encoding, and neither a proper prefix nor an extension of one; and a
failed decode leaves the output view as it was. -/
theorem row_token_codec :
    (∀ spec token view, rowIdentityEncode spec = .ok token →
      ∃ decoded, rowIdentityDecode token view = (.ok (), decoded) ∧
        decoded.meaning = spec.meaning) ∧
    (∀ token view decoded, rowIdentityDecode token view = (.ok (), decoded) →
      ∃ spec, rowIdentityEncode spec = .ok token ∧ spec.meaning = decoded.meaning) ∧
    (∀ spec token other view, rowIdentityEncode spec = .ok token → other ≠ token →
      other <+: token ∨ token <+: other →
      ∃ failure, rowIdentityDecode other view = (.error failure, view)) ∧
    (∀ token view failure decoded, rowIdentityDecode token view = (.error failure, decoded) →
      decoded = view) := by
  refine ⟨fun spec token view h => ?_, fun token view decoded h => ?_,
    fun spec token other view h hne hnested => ?_, fun token view failure decoded h => ?_⟩
  · obtain ⟨decoded, hread, hmeaning⟩ := meaning_of_rowIdentityEncode h
    exact ⟨decoded, rowIdentityDecode_ok_iff.2 hread, hmeaning⟩
  · exact ⟨_, encode_of_rowIdentityCandidate (rowIdentityDecode_ok_iff.1 h), rfl⟩
  · have hread := rowIdentityCandidate_encode h
    cases hother : rowIdentityCandidate other with
    | error failure => exact ⟨failure, by rw [rowIdentityDecode, hother]⟩
    | ok decoded =>
      exact absurd (hnested.elim (eq_of_prefix_of_candidate hother hread)
        fun hle => (eq_of_prefix_of_candidate hread hother hle).symm) hne
  · unfold rowIdentityDecode at h
    split at h
    · cases h
    · exact (Prod.mk.inj h).2.symm

/-- A text, a null and the smallest integer, with a version. -/
def sampleSpec : RowIdentitySpec where
  relationOid := 42
  keyFields := [{ kind := 2, typeOid := 2950, span := .bytes (ascii "550e8400") },
    { kind := 0, typeOid := 25 }, { kind := 1, typeOid := 20, integer := Int64.minValue }]
  optimisticField := some { kind := 2, typeOid := 25, span := .bytes (ascii "v7") }

/-- The token of three key fields and a version is read back, and loses its last byte to nobody. -/
theorem row_token_codec_sample :
    ∃ token, rowIdentityEncode sampleSpec = .ok token ∧ token.length = 70 ∧
      (∃ decoded, rowIdentityDecode token ⟨0, [], none⟩ = (.ok (), decoded) ∧
        decoded.meaning = sampleSpec.meaning) ∧
      ∃ failure, rowIdentityDecode token.dropLast ⟨0, [], none⟩ =
        (.error failure, ⟨0, [], none⟩) := by
  obtain ⟨token, h⟩ : ∃ token, rowIdentityEncode sampleSpec = .ok token := ⟨_, rfl⟩
  have hlength : token.length = 70 := by
    cases h
    rfl
  refine ⟨token, h, hlength, row_token_codec.1 _ _ _ h,
    row_token_codec.2.2.1 _ _ _ _ h (fun heq => ?_) (.inl token.dropLast_prefix)⟩
  have := congrArg List.length heq
  rw [List.length_dropLast, hlength] at this
  omega

end Vps
