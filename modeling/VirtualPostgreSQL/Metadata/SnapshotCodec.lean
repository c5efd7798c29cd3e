import VirtualPostgreSQL.Metadata.Snapshot

/-!
# Metadata/SnapshotCodec — a snapshot as a string of bytes

The header has a hundred bytes, every field forty and its name, every key column two; a hash of all
that closes the string.  What the encoder writes the decoder restores, and since the hash tells
apart any two strings that differ in one place, a string with one byte changed is refused.
-/

namespace Vps

open Machinery

/-! ## The hash -/

/-- The factor of every hash of the module. -/
def hashPrime : UInt64 := 1099511628211

/-- The start of every hash of the module. -/
def hashOffset : UInt64 := 1469598103934665603

/-- The prime of the hash has an inverse modulo 2^64. -/
theorem hashPrime_unit : hashPrime * 14886173955864302971 = 1 := by decide

/-- `vps_cache_hash` -/
def cacheHash (bytes : List UInt8) : UInt64 :=
  mixAll hashPrime hashOffset (bytes.map (·.toUInt64))

/-- Bytes that differ in one place have different hashes. -/
theorem cacheHash_ne_of_ne {b b' : UInt8} (before after : List UInt8) (hne : b ≠ b') :
    cacheHash (before ++ b :: after) ≠ cacheHash (before ++ b' :: after) := by
  have hne' : b.toUInt64 ≠ b'.toUInt64 := fun h => hne (UInt8.toUInt64_inj.mp h)
  have := @mixAll_ne_of_ne _ _ hashPrime_unit hashOffset _ _ (before.map (·.toUInt64))
    (after.map (·.toUInt64)) hne'
  simpa [cacheHash] using this

/-! ## Encoding -/

/-- `VPS_CACHE_MAGIC` -/
def cacheMagic : UInt32 := 0x31535056

/-- `VPS_CACHE_HEADER_BYTES` -/
def cacheHeaderBytes : ℕ := 100

/-- `VPS_CACHE_FIELD_BYTES` -/
def cacheFieldBytes : ℕ := 40

/-- One round of the loop that adds up the size. -/
def snapshotAddSize (size : ℕ) (field : MetadataCacheField) : Except MetadataCacheError ℕ :=
  if size > metadataCacheMaxBytes - cacheFieldBytes ∨
      size + cacheFieldBytes > metadataCacheMaxBytes - field.name.length then
    .error .limitExceeded
  else .ok (size + (cacheFieldBytes + field.name.length))

/-- The size that the encoder computes. -/
def snapshotSize (snapshot : MetadataSnapshot) : Except MetadataCacheError ℕ := do
  let size ← snapshot.fields.foldlM snapshotAddSize (cacheHeaderBytes + 8)
  if size > metadataCacheMaxBytes - snapshot.keyColumns.length * 2 then .error .limitExceeded
  else .ok (size + snapshot.keyColumns.length * 2)

/-- The header, from the lowest offset on. -/
def MetadataSnapshot.header (snapshot : MetadataSnapshot) (size : ℕ) : List (ℕ × ℕ) :=
  [(4, cacheMagic.toNat), (4, metadataCacheVersion.toNat), (2, snapshot.fields.length),
    (2, snapshot.visibleCount), (2, snapshot.keyColumns.length), (2, 0),
    (8, snapshot.sourceFingerprint.toNat), (8, snapshot.layoutFingerprint.toNat),
    (8, snapshot.capturedAtMs.toNat), (8, snapshot.validatedAtMs.toNat),
    (8, snapshot.configurationGeneration.toNat), (4, snapshot.relationOid.toNat),
    (4, snapshot.spatialNamespaceOid.toNat), (4, snapshot.spatialGeometryOid.toNat),
    (4, snapshot.spatialGeographyOid.toNat), (4, snapshot.spatialFlags.toNat),
    (4, snapshot.spatialFormat.toNat), (4, size), (8, snapshot.connectionIdentityHash.toNat),
    (8, snapshot.relationPolicyFingerprint.toNat)]

/-- The record of a field, from the lowest offset on. -/
def MetadataCacheField.record (field : MetadataCacheField) : List (ℕ × ℕ) :=
  [(4, field.typeOid.toNat), (4, field.typeModifier.toUInt32.toNat),
    (4, field.originRelationOid.toNat), (4, field.originAttributeNumber.toUInt32.toNat),
    (4, field.spatialSrid.toNat), (1, field.spatialKind.toNat), (1, field.spatialType.toNat),
    (1, field.spatialDimensions.toNat), (1, 0), (2, field.name.length), (2, 0),
    (4, field.collationOid.toNat), (8, field.policyFingerprint.toNat)]

/-- The record of a field and its name. -/
def MetadataCacheField.bytes (field : MetadataCacheField) : List UInt8 :=
  fieldBytes field.record ++ field.name

/-- What the hash is taken of. -/
def MetadataSnapshot.body (snapshot : MetadataSnapshot) (size : ℕ) : List UInt8 :=
  fieldBytes (snapshot.header size) ++
    (snapshot.fields.flatMap (·.bytes) ++ snapshot.keyColumns.flatMap fun key =>
      leBytes 2 key.toNat)

/-- **`vps_metadata_snapshot_encode`**; `granted` is whether the buffer of the computed size is. -/
def snapshotEncode (granted : Bool) (snapshot : MetadataSnapshot) :
    Except MetadataCacheError (List UInt8) :=
  if ¬snapshot.Valid then .error .invalidArgument
  else do
    let size ← snapshotSize snapshot
    if granted = false then .error .outOfMemory
    else .ok (snapshot.body size ++ leBytes 8 (cacheHash (snapshot.body size)).toNat)

/-! ## Decoding -/

/-- `vps_cache_get16` at an offset. -/
def cacheGet16 (bytes : List UInt8) (offset : ℕ) : UInt16 :=
  (leValue (slice bytes offset 2)).toUInt16

/-- `vps_cache_get32` at an offset. -/
def cacheGet32 (bytes : List UInt8) (offset : ℕ) : UInt32 :=
  (leValue (slice bytes offset 4)).toUInt32

/-- `vps_cache_get64` at an offset. -/
def cacheGet64 (bytes : List UInt8) (offset : ℕ) : UInt64 :=
  (leValue (slice bytes offset 8)).toUInt64

/-- The byte at an offset. -/
def cacheGet8 (bytes : List UInt8) (offset : ℕ) : UInt8 := (leValue (slice bytes offset 1)).toUInt8

/-- The record of a field that starts the bytes, with the given name. -/
def cacheFieldAt (bytes name : List UInt8) : MetadataCacheField where
  name := name
  typeOid := cacheGet32 bytes 0
  typeModifier := (cacheGet32 bytes 4).toInt32
  originRelationOid := cacheGet32 bytes 8
  originAttributeNumber := (cacheGet32 bytes 12).toInt32
  spatialSrid := cacheGet32 bytes 16
  collationOid := cacheGet32 bytes 28
  policyFingerprint := cacheGet64 bytes 32
  spatialKind := cacheGet8 bytes 20
  spatialType := cacheGet8 bytes 21
  spatialDimensions := cacheGet8 bytes 22

/-- One round of the loop over the fields: `rest` are the bytes from the offset on, up to the
hash. -/
def snapshotReadField (granted : Bool) (candidate : MetadataSnapshot) (rest : List UInt8) :
    Except MetadataCacheError (MetadataSnapshot × List UInt8) :=
  if cacheFieldBytes > rest.length then .error .invalidFormat
  else
    let nameLength := (cacheGet16 rest 24).toNat
    let behind := rest.drop cacheFieldBytes
    if nameLength = 0 ∨ nameLength > behind.length then .error .invalidFormat
    else match snapshotAddField granted candidate (cacheFieldAt rest (behind.take nameLength)) with
    | .error _ => .error .invalidFormat
    | .ok candidate => .ok (candidate, behind.drop nameLength)

/-- The loop over the fields; `granted` says of every field whether its name could be stored. -/
def snapshotReadFields (granted : ℕ → Bool) :
    ℕ → MetadataSnapshot → List UInt8 → Except MetadataCacheError (MetadataSnapshot × List UInt8)
  | 0, candidate, rest => .ok (candidate, rest)
  | count + 1, candidate, rest => do
    let (candidate, rest) ← snapshotReadField (granted candidate.fields.length) candidate rest
    snapshotReadFields granted count candidate rest

/-- The key columns at the start of the bytes. -/
def cacheKeysAt (rest : List UInt8) (count : ℕ) : List UInt16 :=
  (List.range count).map fun index => cacheGet16 rest (index * 2)

/-- The candidate before the fields are read. -/
def cacheHeaderAt (bytes : List UInt8) : MetadataSnapshot where
  visibleCount := (cacheGet16 bytes 10).toNat
  sourceFingerprint := cacheGet64 bytes 16
  layoutFingerprint := cacheGet64 bytes 24
  capturedAtMs := cacheGet64 bytes 32
  validatedAtMs := cacheGet64 bytes 40
  configurationGeneration := cacheGet64 bytes 48
  relationOid := cacheGet32 bytes 56
  spatialNamespaceOid := cacheGet32 bytes 60
  spatialGeometryOid := cacheGet32 bytes 64
  spatialGeographyOid := cacheGet32 bytes 68
  spatialFlags := cacheGet32 bytes 72
  spatialFormat := cacheGet32 bytes 76
  connectionIdentityHash := cacheGet64 bytes 84
  relationPolicyFingerprint := cacheGet64 bytes 92

/-- The candidate that the decoder prepares. -/
def snapshotCandidate (granted : ℕ → Bool) (bytes : List UInt8) :
    Except MetadataCacheError MetadataSnapshot :=
  let fieldCount := (cacheGet16 bytes 8).toNat
  let keyCount := (cacheGet16 bytes 12).toNat
  let body := bytes.take (bytes.length - 8)
  if bytes.length < cacheHeaderBytes + 8 ∨ bytes.length > metadataCacheMaxBytes ∨
      cacheGet32 bytes 0 ≠ cacheMagic ∨ cacheGet32 bytes 4 ≠ metadataCacheVersion ∨
      (cacheGet32 bytes 80).toNat ≠ bytes.length ∨
      cacheHash body ≠ cacheGet64 bytes (bytes.length - 8) then
    .error .invalidFormat
  else if fieldCount > metadataCacheMaxFields ∨ keyCount > metadataCacheMaxKeys then
    .error .invalidFormat
  else do
    let (candidate, rest) ← snapshotReadFields granted fieldCount (cacheHeaderAt bytes)
      (body.drop cacheHeaderBytes)
    if keyCount * 2 > rest.length then .error .invalidFormat
    else
      let candidate := { candidate with keyColumns := cacheKeysAt rest keyCount }
      if rest.length ≠ keyCount * 2 ∨ ¬candidate.Valid then .error .invalidFormat
      else .ok candidate

/-- **`vps_metadata_snapshot_decode`**: the result, and what the output snapshot is afterwards. -/
def snapshotDecode (granted : ℕ → Bool) (bytes : List UInt8) (snapshot : MetadataSnapshot) :
    Except MetadataCacheError Unit × MetadataSnapshot :=
  match snapshotCandidate granted bytes with
  | .ok candidate => (.ok (), candidate)
  | .error failure => (.error failure, snapshot)

/-! ## Sizes -/

/-- The size of the encoding. -/
def MetadataSnapshot.encodedSize (snapshot : MetadataSnapshot) : ℕ :=
  cacheHeaderBytes + 8 +
    (snapshot.fields.map fun field => cacheFieldBytes + field.name.length).sum +
    snapshot.keyColumns.length * 2

/-- The size is added up field by field, as long as it stays below the limit. -/
theorem foldlM_snapshotAddSize {fields : List MetadataCacheField} {size : ℕ}
    (h : size + (fields.map fun field => cacheFieldBytes + field.name.length).sum ≤
      metadataCacheMaxBytes) :
    fields.foldlM snapshotAddSize size =
      .ok (size + (fields.map fun field => cacheFieldBytes + field.name.length).sum) := by
  induction fields generalizing size with
  | nil => rfl
  | cons field fields ih =>
    rw [List.map_cons, List.sum_cons] at h
    have hround :
      snapshotAddSize size field = .ok (size + (cacheFieldBytes + field.name.length)) := by
      unfold snapshotAddSize
      rw [if_neg (by omega)]
    rw [List.foldlM_cons, hround, ok_bind, ih (by omega), List.map_cons, List.sum_cons,
      Nat.add_assoc]

/-- The size is computed when it fits. -/
theorem snapshotSize_eq_ok {snapshot : MetadataSnapshot}
    (h : snapshot.encodedSize ≤ metadataCacheMaxBytes) :
    snapshotSize snapshot = .ok snapshot.encodedSize := by
  unfold MetadataSnapshot.encodedSize at h ⊢
  unfold snapshotSize
  rw [foldlM_snapshotAddSize (by omega), ok_bind, if_neg (by omega)]

theorem length_header (snapshot : MetadataSnapshot) (size : ℕ) :
    (fieldBytes (snapshot.header size)).length = cacheHeaderBytes := by
  rw [length_fieldBytes]
  simp only [MetadataSnapshot.header, List.map_cons, List.map_nil]
  rfl

theorem length_record (field : MetadataCacheField) :
    (fieldBytes field.record).length = cacheFieldBytes := by
  rw [length_fieldBytes]
  simp only [MetadataCacheField.record, List.map_cons, List.map_nil]
  rfl

theorem MetadataCacheField.length_bytes (field : MetadataCacheField) :
    field.bytes.length = cacheFieldBytes + field.name.length := by
  rw [MetadataCacheField.bytes, List.length_append, length_record]

/-- The bytes before the hash are eight less than the encoding. -/
theorem length_body (snapshot : MetadataSnapshot) (size : ℕ) :
    (snapshot.body size).length + 8 = snapshot.encodedSize := by
  have hfields : (snapshot.fields.flatMap (·.bytes)).length =
      (snapshot.fields.map fun field => cacheFieldBytes + field.name.length).sum := by
    simp only [List.length_flatMap, MetadataCacheField.length_bytes]
  have hkeys : (snapshot.keyColumns.flatMap fun key => leBytes 2 key.toNat).length =
      snapshot.keyColumns.length * 2 :=
    length_flatMap_of_size (fun key : UInt16 => length_leBytes 2 key.toNat) _
  rw [MetadataSnapshot.body, List.length_append, List.length_append, length_header, hfields, hkeys,
    MetadataSnapshot.encodedSize]
  omega

/-! ## What was written is read -/

section Numbers

variable {bytes : List UInt8} {offset : ℕ}

theorem cacheGet8_eq {value : UInt8} (h : leValue (slice bytes offset 1) = value.toNat) :
    cacheGet8 bytes offset = value := by
  rw [cacheGet8, h, Nat.toUInt8_eq, UInt8.ofNat_toNat]

/-- **A number is read back from its bytes**, the least one first. -/
theorem cacheGet16_eq {value : ℕ} (h : leValue (slice bytes offset 2) = value) :
    (cacheGet16 bytes offset).toNat = value := by
  have hlt : leValue (slice bytes offset 2) < 2 ^ 16 := leValue_slice_lt bytes offset 2
  rw [cacheGet16, Nat.toUInt16_eq, UInt16.toNat_ofNat', Nat.mod_eq_of_lt hlt, h]

/-- So is one of four bytes. -/
theorem cacheGet32_eq {value : UInt32} (h : leValue (slice bytes offset 4) = value.toNat) :
    cacheGet32 bytes offset = value := by
  rw [cacheGet32, h, Nat.toUInt32_eq, UInt32.ofNat_toNat]

/-- So is one of eight. -/
theorem cacheGet64_eq {value : UInt64} (h : leValue (slice bytes offset 8) = value.toNat) :
    cacheGet64 bytes offset = value := by
  rw [cacheGet64, h, Nat.toUInt64_eq, UInt64.ofNat_toNat]

end Numbers

/-- Each entry of a record fits into its width. -/
theorem record_fits {field : MetadataCacheField} (hname : field.name.length ≤ 65535) :
    ∀ entry ∈ field.record, entry.2 < 256 ^ entry.1 := by
  simp only [MetadataCacheField.record, List.forall_mem_cons, List.not_mem_nil, false_imp_iff,
    implies_true, and_true]
  refine ⟨field.typeOid.toNat_lt, field.typeModifier.toUInt32.toNat_lt,
    field.originRelationOid.toNat_lt, field.originAttributeNumber.toUInt32.toNat_lt,
    field.spatialSrid.toNat_lt, field.spatialKind.toNat_lt, field.spatialType.toNat_lt,
    field.spatialDimensions.toNat_lt, by decide, by omega, by decide, field.collationOid.toNat_lt,
    field.policyFingerprint.toNat_lt⟩

/-- The record of a field is read back. -/
theorem cacheFieldAt_bytes {field : MetadataCacheField} (hname : field.name.length ≤ 65535)
    (tail : List UInt8) :
    cacheFieldAt (field.bytes ++ tail) field.name = field ∧
      (cacheGet16 (field.bytes ++ tail) 24).toNat = field.name.length := by
  have hread := readFields_fieldBytes (record_fits hname) [] (field.name ++ tail)
  simp only [MetadataCacheField.record, List.nil_append, List.length_nil, List.map_cons,
    List.map_nil, readFields, List.cons.injEq, Prod.mk.injEq, true_and, and_true] at hread
  rw [← MetadataCacheField.record, ← List.append_assoc, ← MetadataCacheField.bytes] at hread
  obtain ⟨h0, h4, h8, h12, h16, h20, h21, h22, -, h24, -, h28, h32⟩ := hread
  refine ⟨?_, cacheGet16_eq h24⟩
  rw [cacheFieldAt, cacheGet32_eq h0, cacheGet32_eq h4, cacheGet32_eq h8, cacheGet32_eq h12,
    cacheGet32_eq h16, cacheGet8_eq h20, cacheGet8_eq h21, cacheGet8_eq h22, cacheGet32_eq h28,
    cacheGet64_eq h32, Int32.toInt32_toUInt32, Int32.toInt32_toUInt32]

/-- One field is read back. -/
theorem snapshotReadField_bytes {candidate : MetadataSnapshot} {field : MetadataCacheField}
    {snapshot' : MetadataSnapshot} (h : snapshotAddField true candidate field = .ok snapshot')
    (tail : List UInt8) :
    snapshotReadField true candidate (field.bytes ++ tail) = .ok (snapshot', tail) := by
  obtain ⟨⟨hne, -⟩, hname, -⟩ := snapshotAddField_eq_ok_iff.mp h
  obtain ⟨hfield, hlength⟩ := cacheFieldAt_bytes hname tail
  have hpositive := List.length_pos_iff.mpr hne
  have hbehind : (field.bytes ++ tail).drop cacheFieldBytes = field.name ++ tail := by
    rw [MetadataCacheField.bytes, List.append_assoc, ← length_record field, List.drop_left]
  unfold snapshotReadField
  rw [if_neg, hlength, hbehind]
  · simp only [List.take_left, List.drop_left, hfield, h]
    rw [if_neg]
    rw [List.length_append]
    omega
  · rw [List.length_append, field.length_bytes]
    omega

theorem textSize_append (snapshot : MetadataSnapshot) (field : MetadataCacheField) :
    ({ snapshot with fields := snapshot.fields ++ [field] } : MetadataSnapshot).textSize =
      snapshot.textSize + field.name.length := by
  simp [MetadataSnapshot.textSize, MetadataSnapshot.names]

/-- The fields are read back, by induction on those still to read. -/
theorem snapshotReadFields_bytes {fields : List MetadataCacheField} {candidate : MetadataSnapshot}
    (hclean : ∀ field ∈ fields, field.name ≠ [] ∧ 0 ∉ field.name)
    (hlength : ∀ field ∈ fields, field.name.length ≤ 65535)
    (hcount : candidate.fields.length + fields.length ≤ metadataCacheMaxFields)
    (htext : candidate.textSize + (fields.map (·.name.length)).sum ≤ metadataCacheMaxBytes)
    (tail : List UInt8) :
    snapshotReadFields (fun _ => true) fields.length candidate (fields.flatMap (·.bytes) ++ tail) =
      .ok ({ candidate with fields := candidate.fields ++ fields }, tail) := by
  induction fields generalizing candidate with
  | nil => simp [snapshotReadFields]
  | cons field fields ih =>
    simp only [List.map_cons, List.sum_cons, List.length_cons] at htext hcount
    obtain ⟨hfield, hclean⟩ := List.forall_mem_cons.mp hclean
    obtain ⟨hname, hlength⟩ := List.forall_mem_cons.mp hlength
    have hadd := snapshotAddField_eq_ok_iff.mpr
      ⟨hfield, hname, by omega, by omega, rfl, (rfl : _ = { candidate with
        fields := candidate.fields ++ [field] })⟩
    have hrest := @ih { candidate with fields := candidate.fields ++ [field] } hclean hlength
      (by rw [List.length_append, List.length_singleton]; omega)
      (by rw [textSize_append]; omega)
    rw [List.flatMap_cons, List.append_assoc, List.length_cons, snapshotReadFields,
      snapshotReadField_bytes hadd, ok_bind]
    simpa only [List.append_assoc, List.singleton_append] using hrest

/-- The key columns are read back. -/
theorem cacheKeysAt_flatMap (keys : List UInt16) :
    cacheKeysAt (keys.flatMap fun key => leBytes 2 key.toNat) keys.length = keys := by
  unfold cacheKeysAt
  apply List.ext_getElem
  · simp
  intro i hi hkeys
  have hsplit : keys = keys.take i ++ keys[i] :: keys.drop (i + 1) := by
    rw [List.getElem_cons_drop, List.take_append_drop]
  have hslice := slice_record (fun key : UInt16 => length_leBytes 2 key.toNat) [] [] (keys.take i)
    (keys.drop (i + 1)) keys[i]
  rw [← hsplit, List.length_take, Nat.min_eq_left hkeys.le, List.nil_append, List.append_nil,
    List.length_nil, Nat.zero_add] at hslice
  rw [List.getElem_map, List.getElem_range, cacheGet16, hslice,
    leValue_leBytes (keys[i].toNat_lt : keys[i].toNat < 256 ^ 2), Nat.toUInt16_eq,
    UInt16.ofNat_toNat]

/-- So does each entry of the header. -/
theorem header_fits {snapshot : MetadataSnapshot} {size : ℕ} (h : snapshot.Valid)
    (hsize : size ≤ metadataCacheMaxBytes) :
    ∀ entry ∈ snapshot.header size, entry.2 < 256 ^ entry.1 := by
  obtain ⟨-, hcount, -, hvisible, hkeys, -⟩ := h
  rw [metadataCacheMaxFields] at hcount
  rw [metadataCacheMaxKeys] at hkeys
  rw [metadataCacheMaxBytes] at hsize
  simp only [MetadataSnapshot.header, List.forall_mem_cons, List.not_mem_nil, false_imp_iff,
    implies_true, and_true]
  refine ⟨by decide, by decide, by omega, by omega, by omega, by decide,
    snapshot.sourceFingerprint.toNat_lt, snapshot.layoutFingerprint.toNat_lt,
    snapshot.capturedAtMs.toNat_lt, snapshot.validatedAtMs.toNat_lt,
    snapshot.configurationGeneration.toNat_lt, snapshot.relationOid.toNat_lt,
    snapshot.spatialNamespaceOid.toNat_lt, snapshot.spatialGeometryOid.toNat_lt,
    snapshot.spatialGeographyOid.toNat_lt, snapshot.spatialFlags.toNat_lt,
    snapshot.spatialFormat.toNat_lt, by omega, snapshot.connectionIdentityHash.toNat_lt,
    snapshot.relationPolicyFingerprint.toNat_lt⟩

/-- What the decoder reads in the header of an encoding. -/
structure HeaderOf (snapshot : MetadataSnapshot) (size : ℕ) (bytes : List UInt8) : Prop where
  magic : cacheGet32 bytes 0 = cacheMagic
  version : cacheGet32 bytes 4 = metadataCacheVersion
  fieldCount : (cacheGet16 bytes 8).toNat = snapshot.fields.length
  keyCount : (cacheGet16 bytes 12).toNat = snapshot.keyColumns.length
  size : (cacheGet32 bytes 80).toNat = size
  header : cacheHeaderAt bytes = { snapshot with fields := [], keyColumns := [] }

/-- The header is read whatever is behind it. -/
theorem headerOf_append {snapshot : MetadataSnapshot} {size : ℕ} (h : snapshot.Valid)
    (hsize : size ≤ metadataCacheMaxBytes) (tail : List UInt8) :
    HeaderOf snapshot size (fieldBytes (snapshot.header size) ++ tail) := by
  have hread := readFields_fieldBytes (header_fits h hsize) [] tail
  simp only [MetadataSnapshot.header, List.nil_append, List.length_nil, List.map_cons,
    List.map_nil, readFields, List.cons.injEq, Prod.mk.injEq, true_and, and_true] at hread
  rw [← MetadataSnapshot.header] at hread
  obtain ⟨h0, h4, h8, h10, h12, -, h16, h24, h32, h40, h48, h56, h60, h64, h68, h72, h76, h80, h84,
    h92⟩ := hread
  refine ⟨cacheGet32_eq h0, cacheGet32_eq h4, cacheGet16_eq h8, cacheGet16_eq h12, ?_, ?_⟩
  · rw [metadataCacheMaxBytes] at hsize
    rw [cacheGet32, h80, Nat.toUInt32_eq, UInt32.toNat_ofNat', Nat.mod_eq_of_lt (by omega)]
  · rw [cacheHeaderAt, cacheGet16_eq h10, cacheGet64_eq h16, cacheGet64_eq h24, cacheGet64_eq h32,
      cacheGet64_eq h40, cacheGet64_eq h48, cacheGet32_eq h56, cacheGet32_eq h60, cacheGet32_eq h64,
      cacheGet32_eq h68, cacheGet32_eq h72, cacheGet32_eq h76, cacheGet64_eq h84, cacheGet64_eq h92]

/-! ## Round trip and corruption -/

/-- The encoding of a valid snapshot that fits. -/
def MetadataSnapshot.encoding (snapshot : MetadataSnapshot) : List UInt8 :=
  snapshot.body snapshot.encodedSize ++
    leBytes 8 (cacheHash (snapshot.body snapshot.encodedSize)).toNat

theorem length_encoding (snapshot : MetadataSnapshot) :
    snapshot.encoding.length = snapshot.encodedSize := by
  rw [MetadataSnapshot.encoding, List.length_append, length_leBytes, length_body]

/-- **A valid snapshot that is small enough is encoded.** -/
theorem snapshotEncode_eq_ok {snapshot : MetadataSnapshot} (h : snapshot.Valid)
    (hsize : snapshot.encodedSize ≤ metadataCacheMaxBytes) :
    snapshotEncode true snapshot = .ok snapshot.encoding := by
  unfold snapshotEncode
  rw [if_neg (not_not.mpr h), snapshotSize_eq_ok hsize, ok_bind, if_neg (by decide)]
  rfl

/-- The hash at the end of bytes. -/
theorem cacheGet64_end (body : List UInt8) (hash : UInt64) :
    cacheGet64 (body ++ leBytes 8 hash.toNat) body.length = hash := by
  have hslice := slice_append body (leBytes 8 hash.toNat) []
  rw [List.append_nil, length_leBytes] at hslice
  apply cacheGet64_eq
  rw [hslice, leValue_leBytes (hash.toNat_lt : hash.toNat < 256 ^ 8)]

/-- **What was encoded is decoded.** -/
theorem snapshotCandidate_encoding {snapshot : MetadataSnapshot} (hfit : snapshot.NamesFit)
    (h : snapshot.Valid) (hsize : snapshot.encodedSize ≤ metadataCacheMaxBytes) :
    snapshotCandidate (fun _ => true) snapshot.encoding = .ok snapshot := by
  have hlength := length_body snapshot snapshot.encodedSize
  have hbody : snapshot.encoding.length - 8 = (snapshot.body snapshot.encodedSize).length := by
    rw [length_encoding]
    omega
  have htake : snapshot.encoding.take (snapshot.body snapshot.encodedSize).length =
      snapshot.body snapshot.encodedSize := by
    rw [MetadataSnapshot.encoding, List.take_left]
  have hheader : HeaderOf snapshot snapshot.encodedSize snapshot.encoding := by
    rw [MetadataSnapshot.encoding, MetadataSnapshot.body, List.append_assoc]
    exact headerOf_append h hsize _
  have hbehind : (snapshot.body snapshot.encodedSize).drop cacheHeaderBytes =
      snapshot.fields.flatMap (·.bytes) ++
        snapshot.keyColumns.flatMap fun key => leBytes 2 key.toNat := by
    rw [MetadataSnapshot.body, ← length_header snapshot snapshot.encodedSize, List.drop_left]
  have hkeys : (snapshot.keyColumns.flatMap fun key => leBytes 2 key.toNat).length =
      snapshot.keyColumns.length * 2 :=
    length_flatMap_of_size (fun key : UInt16 => length_leBytes 2 key.toNat) _
  have hfields := @snapshotReadFields_bytes snapshot.fields
    { snapshot with fields := [], keyColumns := [] }
    (fun field hfield => hfit.clean field.name (List.mem_map_of_mem hfield))
    (fun field hfield => hfit.length field.name (List.mem_map_of_mem hfield))
    (by simpa using hfit.count)
    (by simpa [MetadataSnapshot.textSize, MetadataSnapshot.names,
    Function.comp_def] using hfit.text) (snapshot.keyColumns.flatMap fun key => leBytes 2 key.toNat)
  have hmin : cacheHeaderBytes + 8 ≤ snapshot.encodedSize := by
    rw [MetadataSnapshot.encodedSize]
    omega
  unfold snapshotCandidate
  rw [if_neg, if_neg, hheader.fieldCount, hheader.keyCount, hheader.header, hbody, htake, hbehind,
    hfields]
  · simp only [ok_bind, hkeys, cacheKeysAt_flatMap, List.nil_append]
    rw [if_neg (Nat.lt_irrefl _), if_neg]
    rw [not_or, not_not, not_not]
    exact ⟨rfl, h⟩
  · rw [hheader.fieldCount, hheader.keyCount, not_or, Nat.not_lt, Nat.not_lt]
    exact ⟨h.2.1, h.2.2.2.2.1⟩
  · rw [hbody, htake, hheader.magic, hheader.version, hheader.size, length_encoding,
      MetadataSnapshot.encoding, cacheGet64_end]
    simp only [ne_eq, not_true_eq_false, or_false, not_or, Nat.not_lt]
    exact ⟨hmin, hsize⟩

/-- Bytes whose end is not their hash are refused. -/
theorem snapshotCandidate_of_hash_ne {granted : ℕ → Bool} {bytes : List UInt8}
    (h : cacheHash (bytes.take (bytes.length - 8)) ≠ cacheGet64 bytes (bytes.length - 8)) :
    snapshotCandidate granted bytes = .error .invalidFormat := by
  unfold snapshotCandidate
  rw [if_pos (Or.inr (Or.inr (Or.inr (Or.inr (Or.inr h)))))]

/-- A byte that was changed behind the body changes the hash that is read. -/
theorem hash_ne_of_changed_end {body middle after : List UInt8} {b b' : UInt8}
    (h : leBytes 8 (cacheHash body).toNat = middle ++ b :: after) (hne : b' ≠ b) :
    cacheHash body ≠ cacheGet64 (body ++ (middle ++ b' :: after)) body.length := by
  have hend : (middle ++ b' :: after).length = 8 := by
    have := congrArg List.length h
    rw [length_leBytes] at this
    simpa using this.symm
  have hslice := slice_append body (middle ++ b' :: after) []
  rw [List.append_nil, hend] at hslice
  have hlt : leValue (middle ++ b' :: after) < 2 ^ 64 := by
    have := leValue_lt (middle ++ b' :: after)
    rwa [hend] at this
  rw [cacheGet64, hslice]
  intro hhash
  have hread := congrArg UInt64.toNat hhash
  rw [Nat.toUInt64_eq, UInt64.toNat_ofNat', Nat.mod_eq_of_lt hlt] at hread
  have hbytes := leBytes_leValue (middle ++ b' :: after)
  rw [hend, ← hread, h] at hbytes
  have hcons := List.append_cancel_left hbytes
  exact hne (List.cons.inj hcons).1.symm

/-- A byte that was changed in the body changes its hash. -/
theorem hash_ne_of_changed_body {before after : List UInt8} {b b' : UInt8} (hne : b' ≠ b) :
    cacheHash (before ++ b' :: after) ≠
      cacheGet64 (before ++ b' :: after ++ leBytes 8 (cacheHash (before ++ b :: after)).toNat)
        (before ++ b' :: after).length := by
  rw [cacheGet64_end]
  exact cacheHash_ne_of_ne before after hne

/-- **A byte that was changed shows**, wherever it stands. -/
theorem hash_ne_of_changed {body before after : List UInt8} {b b' : UInt8}
    (h : body ++ leBytes 8 (cacheHash body).toNat = before ++ b :: after) (hne : b' ≠ b) :
    cacheHash ((before ++ b' :: after).take body.length) ≠
      cacheGet64 (before ++ b' :: after) body.length := by
  obtain ⟨middle, rfl, hend⟩ | ⟨middle, hbody, hend⟩ := List.append_eq_append_iff.mp h
  · rw [List.append_assoc, List.take_left]
    exact hash_ne_of_changed_end hend hne
  cases middle with
  | nil =>
    rw [List.append_nil] at hbody
    subst hbody
    rw [List.take_left]
    exact @hash_ne_of_changed_end body [] after b b' hend.symm hne
  | cons c middle =>
    rw [List.cons_append] at hend
    obtain ⟨rfl, rfl⟩ := List.cons.inj hend
    subst hbody
    have hlength : (before ++ b :: middle).length = (before ++ b' :: middle).length := by simp
    have hsplit : ∀ tail, before ++ b' :: (middle ++ tail) = before ++ b' :: middle ++ tail := by
      simp
    rw [hsplit, hlength, List.take_left]
    exact hash_ne_of_changed_body hne

/-- **The codec of snapshots.**  Every snapshot that was built, validates and fits is encoded, with
its size in the header; the encoding is decoded to it, and refused when one byte of it is changed.
A decoding that fails leaves the output as it was. -/
theorem snapshot_codec :
    (∀ snapshot : MetadataSnapshot, snapshot.Built → snapshotValidate snapshot = .ok () →
      snapshot.encodedSize ≤ metadataCacheMaxBytes →
      ∃ encoded, snapshotEncode true snapshot = .ok encoded ∧
        (cacheGet32 encoded 80).toNat = encoded.length ∧
        (∀ output, snapshotDecode (fun _ => true) encoded output = (.ok (), snapshot)) ∧
        ∀ before b b' after, encoded = before ++ b :: after → b' ≠ b → ∀ granted output,
          ∃ failure, snapshotDecode granted (before ++ b' :: after) output =
            (.error failure, output)) ∧
    (∀ granted bytes output failure output',
      snapshotDecode granted bytes output = (.error failure, output') → output' = output) := by
  refine ⟨fun snapshot hbuilt hvalidate hsize => ?_, ?_⟩
  · have hvalid : snapshot.Valid := by
      unfold snapshotValidate at hvalidate
      split at hvalidate
      · assumption
      · cases hvalidate
    have hlength := length_body snapshot snapshot.encodedSize
    refine ⟨_, snapshotEncode_eq_ok hvalid hsize, ?_, fun output => ?_, ?_⟩
    · rw [length_encoding, MetadataSnapshot.encoding, MetadataSnapshot.body, List.append_assoc]
      exact (headerOf_append hvalid hsize _).size
    · rw [snapshotDecode, snapshotCandidate_encoding hbuilt.namesFit hvalid hsize]
    · intro before b b' after hencoded hne granted output
      have hsame : (before ++ b' :: after).length - 8 =
          (snapshot.body snapshot.encodedSize).length := by
        have := congrArg List.length hencoded
        rw [length_encoding] at this
        simp only [List.length_append, List.length_cons] at this ⊢
        omega
      have hhash := hash_ne_of_changed hencoded hne
      rw [← hsame] at hhash
      exact ⟨_, by rw [snapshotDecode, snapshotCandidate_of_hash_ne hhash]⟩
  · intro granted bytes output failure output' h
    unfold snapshotDecode at h
    split at h
    · cases h
    · cases h
      rfl

/-- An integer field. -/
def sampleField : MetadataCacheField := ⟨[105, 100], 23, -1, 42, 1, 0, 0, 0, 0, 0, 0⟩

/-- A snapshot of a table with an integer key. -/
def sampleSnapshot : MetadataSnapshot where
  fields := [sampleField]
  keyColumns := [0]
  visibleCount := 1
  relationOid := 42

theorem snapshot_codec_sample :
    sampleSnapshot.Built ∧ ∃ encoded, snapshotEncode true sampleSnapshot = .ok encoded ∧
      ∀ output, snapshotDecode (fun _ => true) encoded output = (.ok (), sampleSnapshot) := by
  have hadd : snapshotAddField true snapshotInit sampleField =
      .ok { snapshotInit with fields := [sampleField] } := by decide
  have hbuilt : sampleSnapshot.Built := .assign (.add .init hadd) rfl
  have hvalid : sampleSnapshot.Valid := by
    simp [MetadataSnapshot.Valid, MetadataSnapshot.names, sampleSnapshot, sampleField,
      metadataCacheMaxFields, metadataCacheMaxKeys]
  obtain ⟨encoded, hencode, -, hdecode, -⟩ :=
    snapshot_codec.1 sampleSnapshot hbuilt (if_pos hvalid) (by decide)
  exact ⟨hbuilt, encoded, hencode, hdecode⟩

end Vps
