import Mathlib.Data.UInt
import VirtualPostgreSQL.Machinery.Wire
import VirtualPostgreSQL.Machinery.Mix

/-!
# Metadata/Snapshot — what a table remembers of its source

A snapshot holds the fields, the key and the fingerprints of a source; it is kept beside the virtual
table, so that the table can be declared while the server is away, and compared with a live one when
the server is back.  Snapshots here are initialized; the names that C keeps in one text buffer, each
by its offset and length, are the bytes themselves.
-/

namespace Vps

open Machinery

/-! ## Limits and results -/

/-- `VPS_METADATA_CACHE_VERSION` -/
def metadataCacheVersion : UInt32 := 1

/-- `VPS_METADATA_CACHE_MAX_BYTES` -/
def metadataCacheMaxBytes : ℕ := 1024 * 1024

/-- `VPS_METADATA_CACHE_MAX_FIELDS` -/
def metadataCacheMaxFields : ℕ := 64

/-- `VPS_METADATA_CACHE_MAX_KEYS` -/
def metadataCacheMaxKeys : ℕ := 32

/-- `VpsMetadataCacheResult`, the failures. -/
inductive MetadataCacheError
  | invalidArgument
  | invalidFormat
  | limitExceeded
  | outOfMemory
  deriving DecidableEq, Repr

/-- `VpsMetadataDrift` -/
inductive MetadataDrift
  | none
  | refreshable
  | incompatible
  deriving DecidableEq, Repr

/-! ## Snapshots -/

/-- `VpsMetadataCacheField` -/
structure MetadataCacheField where
  name : List UInt8
  typeOid : UInt32
  typeModifier : Int32
  originRelationOid : UInt32
  originAttributeNumber : Int32
  spatialSrid : UInt32
  collationOid : UInt32
  policyFingerprint : UInt64
  spatialKind : UInt8
  spatialType : UInt8
  spatialDimensions : UInt8
  deriving DecidableEq

/-- `VpsMetadataSnapshot` -/
structure MetadataSnapshot where
  fields : List MetadataCacheField := []
  keyColumns : List UInt16 := []
  visibleCount : ℕ := 0
  sourceFingerprint : UInt64 := 0
  layoutFingerprint : UInt64 := 0
  capturedAtMs : UInt64 := 0
  validatedAtMs : UInt64 := 0
  configurationGeneration : UInt64 := 0
  connectionIdentityHash : UInt64 := 0
  relationPolicyFingerprint : UInt64 := 0
  relationOid : UInt32 := 0
  spatialNamespaceOid : UInt32 := 0
  spatialGeometryOid : UInt32 := 0
  spatialGeographyOid : UInt32 := 0
  spatialFlags : UInt32 := 0
  spatialFormat : UInt32 := 0
  deriving DecidableEq

/-- The names, in the order of the fields. -/
def MetadataSnapshot.names (snapshot : MetadataSnapshot) : List (List UInt8) :=
  snapshot.fields.map (·.name)

/-- The size of the text buffer. -/
def MetadataSnapshot.textSize (snapshot : MetadataSnapshot) : ℕ :=
  (snapshot.names.map List.length).sum

/-- `vps_metadata_snapshot_init` -/
def snapshotInit : MetadataSnapshot := {}

/-- `vps_metadata_snapshot_add_field`; `granted` is whether the text buffer can grow. -/
def snapshotAddField (granted : Bool) (snapshot : MetadataSnapshot) (field : MetadataCacheField) :
    Except MetadataCacheError MetadataSnapshot :=
  if field.name.length = 0 ∨ field.name.length > 65535 ∨
      snapshot.fields.length ≥ metadataCacheMaxFields ∨ 0 ∈ field.name then
    .error .invalidArgument
  else if snapshot.textSize + field.name.length > metadataCacheMaxBytes ∨ granted = false then
    .error .outOfMemory
  else .ok { snapshot with fields := snapshot.fields ++ [field] }

/-- What `vps_metadata_snapshot_validate` accepts. -/
def MetadataSnapshot.Valid (snapshot : MetadataSnapshot) : Prop :=
  snapshot.fields.length ≠ 0 ∧ snapshot.fields.length ≤ metadataCacheMaxFields ∧
    snapshot.visibleCount ≠ 0 ∧ snapshot.visibleCount ≤ snapshot.fields.length ∧
    snapshot.keyColumns.length ≤ metadataCacheMaxKeys ∧
    (∀ name ∈ snapshot.names, name ≠ [] ∧ 0 ∉ name) ∧ snapshot.names.Nodup ∧
    ∀ column ∈ snapshot.keyColumns, column.toNat < snapshot.visibleCount

/-- A snapshot is checked as the code checks it, so it can be decided. -/
instance (snapshot : MetadataSnapshot) : Decidable snapshot.Valid :=
  inferInstanceAs (Decidable (_ ∧ _ ∧ _ ∧ _ ∧ _ ∧ _ ∧ _ ∧ _))

/-- `vps_metadata_snapshot_validate` -/
def snapshotValidate (snapshot : MetadataSnapshot) : Except MetadataCacheError Unit :=
  if snapshot.Valid then .ok () else .error .invalidFormat

/-- **`vps_metadata_snapshot_compare`**; the loop over the fields compares all that a field has. -/
def snapshotCompare (stored live : MetadataSnapshot) : MetadataDrift :=
  if ¬stored.Valid ∨ ¬live.Valid ∨ stored.relationOid ≠ live.relationOid ∨
      stored.fields.length ≠ live.fields.length ∨ stored.visibleCount ≠ live.visibleCount ∨
      stored.keyColumns.length ≠ live.keyColumns.length ∨
      stored.spatialNamespaceOid ≠ live.spatialNamespaceOid ∨
      stored.spatialGeometryOid ≠ live.spatialGeometryOid ∨
      stored.spatialGeographyOid ≠ live.spatialGeographyOid ∨
      stored.spatialFlags ≠ live.spatialFlags ∨ stored.spatialFormat ≠ live.spatialFormat ∨
      stored.connectionIdentityHash ≠ live.connectionIdentityHash ∨
      stored.relationPolicyFingerprint ≠ live.relationPolicyFingerprint then
    .incompatible
  else if stored.fields ≠ live.fields then .incompatible
  else if stored.keyColumns ≠ live.keyColumns then .incompatible
  else if stored.sourceFingerprint = live.sourceFingerprint ∧
      stored.layoutFingerprint = live.layoutFingerprint then
    .none
  else .refreshable

theorem snapshotCompare_eq_none {stored live : MetadataSnapshot}
    (h : snapshotCompare stored live = .none) :
    stored.sourceFingerprint = live.sourceFingerprint := by
  unfold snapshotCompare at h
  split at h
  · cases h
  split at h
  · cases h
  split at h
  · cases h
  split at h
  · rename_i hsame
    exact hsame.1
  · cases h

/-! ## Snapshots that were built -/

/-- **A snapshot that was built** from the empty one, by adding fields and by assigning to what is
not a name. -/
inductive MetadataSnapshot.Built : MetadataSnapshot → Prop
  | init : Built snapshotInit
  | add {snapshot snapshot' : MetadataSnapshot} {granted : Bool} {field : MetadataCacheField} :
      Built snapshot → snapshotAddField granted snapshot field = .ok snapshot' → Built snapshot'
  | assign {snapshot snapshot' : MetadataSnapshot} :
      Built snapshot → snapshot'.names = snapshot.names → Built snapshot'

/-- What the steps keep of the names. -/
structure MetadataSnapshot.NamesFit (snapshot : MetadataSnapshot) : Prop where
  count : snapshot.fields.length ≤ metadataCacheMaxFields
  text : snapshot.textSize ≤ metadataCacheMaxBytes
  length : ∀ name ∈ snapshot.names, name.length ≤ 65535
  clean : ∀ name ∈ snapshot.names, name ≠ [] ∧ 0 ∉ name

/-- **A field is taken just when its name can be a name**, there is room for it and memory is
granted. -/
theorem snapshotAddField_eq_ok_iff {granted : Bool} {snapshot snapshot' : MetadataSnapshot}
    {field : MetadataCacheField} :
    snapshotAddField granted snapshot field = .ok snapshot' ↔
      (field.name ≠ [] ∧ 0 ∉ field.name) ∧ field.name.length ≤ 65535 ∧
        snapshot.fields.length < metadataCacheMaxFields ∧
        snapshot.textSize + field.name.length ≤ metadataCacheMaxBytes ∧ granted = true ∧
        snapshot' = { snapshot with fields := snapshot.fields ++ [field] } := by
  unfold snapshotAddField
  split
  · rename_i hrefused
    simp only [List.length_eq_zero_iff] at hrefused
    constructor
    · intro h
      cases h
    · rintro ⟨⟨hne, hclean⟩, hlength, hcount, -⟩
      obtain h | h | h | h := hrefused
      · exact absurd h hne
      · omega
      · omega
      · exact absurd h hclean
  rename_i haccepted
  simp only [not_or, List.length_eq_zero_iff] at haccepted
  obtain ⟨hne, hlength, hcount, hclean⟩ := haccepted
  split
  · rename_i hrefused
    constructor
    · intro h
      cases h
    · rintro ⟨-, -, -, htext, hgranted, -⟩
      rw [hgranted] at hrefused
      obtain hrefused | hrefused := hrefused
      · omega
      · cases hrefused
  · rename_i hroom
    simp only [not_or, Bool.not_eq_false] at hroom
    constructor
    · intro h
      cases h
      exact ⟨⟨hne, hclean⟩, by omega, by omega, by omega, hroom.2, rfl⟩
    · rintro ⟨-, -, -, -, -, rfl⟩
      rfl

/-- A snapshot that was built field by field has names that fit. -/
theorem MetadataSnapshot.Built.namesFit {snapshot : MetadataSnapshot} (h : snapshot.Built) :
    snapshot.NamesFit := by
  induction h with
  | init => exact ⟨by decide, by decide, by decide, by decide⟩
  | @add snapshot snapshot' granted field _ hadd ih =>
    obtain ⟨hclean, hlength, hcount, htext, -, rfl⟩ := snapshotAddField_eq_ok_iff.mp hadd
    have hnames :
      ({ snapshot with fields := snapshot.fields ++ [field] } : MetadataSnapshot).names =
        snapshot.names ++ [field.name] := by
      simp [names]
    refine ⟨?_, ?_, ?_, ?_⟩
    · simpa using Nat.succ_le_of_lt hcount
    · rw [textSize, hnames]
      simpa [textSize] using htext
    · rw [hnames]
      simpa [or_imp, forall_and] using ⟨ih.length, hlength⟩
    · rw [hnames]
      simpa [or_imp, forall_and] using ⟨⟨fun a ha => (ih.clean a ha).1, hclean.1⟩,
        ⟨fun a ha => (ih.clean a ha).2, hclean.2⟩⟩
  | @assign snapshot snapshot' _ hsame ih =>
    have hcount : snapshot'.fields.length = snapshot.fields.length := by
      simpa [names] using congrArg List.length hsame
    exact ⟨hcount ▸ ih.count, by rw [textSize, hsame]; exact ih.text, hsame ▸ ih.length,
      hsame ▸ ih.clean⟩

end Vps
