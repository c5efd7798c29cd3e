import Mathlib.Data.List.Basic
import VirtualPostgreSQL.Machinery.Outcome
import VirtualPostgreSQL.Types.Registry
import VirtualPostgreSQL.Spatial.Basic

/-!
# Dml/Policy — which columns of a table may be written

`vps_dml_policy_build` decides from the metadata of a relation whether and how it is written: the
columns in their visible order, what may be inserted and updated, the columns of the key and the one
that carries the version.  `vps_table_build_dml_policy` adds what it knows of spatial columns.
-/

namespace Vps

open Machinery

/-! ## Metadata -/

/-- `VpsRelationKind` -/
inductive RelationKind
  | table | partitionedTable | view | materializedView | foreignTable |
    inheritanceParent | partition
  | sequence | composite | toast | index | unsupported
  deriving DecidableEq, Repr

/-- `VpsRelationWritePolicy` -/
inductive RelationWritePolicy
  | allowed | noKey | sourceReadOnly | inheritanceUnsafe | partitionKeyUnproven
  deriving DecidableEq, Repr

/-- `VpsKeySource` -/
inductive KeySource
  | none | primary | unique | explicit
  deriving DecidableEq, Repr

/-- `VpsTableMetadata`, the fields that the policy reads. -/
structure TableMetadata where
  loaded : Bool
  relationOid : UInt32
  relationKind : RelationKind
  schemaName : List UInt8
  relationName : List UInt8
  columns : List ColumnMetadata
  keySource : KeySource
  keyReadOnly : Bool
  keyAttributeNumbers : List ℤ
  writePolicy : RelationWritePolicy
  deriving DecidableEq, Repr

/-- `VpsSpatialCapabilities`, the fields that a written value reads. -/
structure SpatialCapabilities where
  schema : List UInt8
  flags : UInt32
  present : Bool
  deriving DecidableEq, Repr

/-! ## The policy -/

/-- `VpsDmlOptimisticMode` -/
inductive DmlOptimisticMode
  | off | column | xmin
  deriving DecidableEq, Repr

/-- `VpsDmlResult`, the failures of building a policy and a plan. -/
inductive DmlError
  | invalidArgument | readOnly | noKey | unsupportedRelation | unsupportedType | generatedColumn
  | identityAlways | optimisticInvalid | malformedIdentity | limit | outOfMemory
  deriving DecidableEq, Repr

/-- What a policy has at a visible column: the column that `visible_to_metadata` names, and the
entries of the arrays beside it. -/
structure DmlColumn where
  column : ColumnMetadata
  selection : TypeSelection
  insertable : Bool
  updatable : Bool
  spatialKind : ℕ := 0
  spatialSrid : UInt32 := 0
  deriving DecidableEq, Repr

/-- `VpsDmlPolicy`; `versionVisible` is `none` for `SIZE_MAX`. -/
structure DmlPolicy where
  metadata : TableMetadata
  columns : List DmlColumn
  keyVisible : List ℕ
  versionVisible : Option ℕ
  optimisticMode : DmlOptimisticMode
  spatial : Option SpatialCapabilities
  spatialFormat : SpatialFormat
  writable : Bool
  deriving DecidableEq, Repr

/-- `VPS_DML_MAX_COLUMNS` -/
def dmlMaxColumns : ℕ := 1024

/-- `VPS_METADATA_MAX_KEY_COLUMNS` -/
def metadataMaxKeyColumns : ℕ := 32

/-- What the policy says of a column with the given selection. -/
def DmlColumn.of (column : ColumnMetadata) (selection : TypeSelection) : DmlColumn :=
  let writes := selection.dml && column.generatedKind == 0
  { column, selection
    insertable := writes && column.identityKind != 97
    updatable := writes && column.identityKind == 0 }

/-- One round of the loop over the columns of the relation. -/
def dmlPolicyColumn (mode : DmlOptimisticMode) (versionColumn : List UInt8) (policy : DmlPolicy)
    (entry : ColumnMetadata × ℕ) : Except DmlError DmlPolicy :=
  let (column, metadataIndex) := entry
  if column.dropped then .ok policy
  else if policy.columns.length ≥ dmlMaxColumns ∨ metadataIndex > 65535 then .error .limit
  else match typeRegistrySelect column with
  | none => .error .unsupportedType
  | some selection =>
    let columns := policy.columns ++ [DmlColumn.of column selection]
    if mode = .column ∧ column.name = some versionColumn then
      if !column.notNull ∨ column.generatedKind ≠ 0 ∨ !selection.dml then .error .optimisticInvalid
      else .ok { policy with columns, versionVisible := some policy.columns.length }
    else .ok { policy with columns }

/-- `vps_dml_find_visible_by_attribute` -/
def dmlFindVisibleByAttribute (policy : DmlPolicy) (attributeNumber : ℤ) : Option ℕ :=
  policy.columns.findIdx? fun column => column.column.attributeNumber == attributeNumber

/-- One round of the loop over the columns of the key. -/
def dmlPolicyKey (policy : DmlPolicy) (attributeNumber : ℤ) : Except DmlError DmlPolicy :=
  match dmlFindVisibleByAttribute policy attributeNumber with
  | none => .error .unsupportedType
  | some visible =>
    match policy.columns[visible]? with
    | some column =>
      if column.selection.dml then .ok { policy with keyVisible := policy.keyVisible ++ [visible] }
      else .error .unsupportedType
    | none => .error .unsupportedType

/-- The policy before the loops, cleared by `memset`. -/
def DmlPolicy.init (metadata : TableMetadata) (mode : DmlOptimisticMode) : DmlPolicy where
  metadata := metadata
  columns := []
  keyVisible := []
  versionVisible := none
  optimisticMode := mode
  spatial := none
  spatialFormat := .wkt
  writable := false

/-- **`vps_dml_policy_build`** -/
def dmlPolicyBuild (metadata : TableMetadata) (modeRw : Bool) (mode : DmlOptimisticMode)
    (versionColumn : List UInt8) : Except DmlError DmlPolicy :=
  if !metadata.loaded ∨ (mode = .column ∧ versionColumn = []) then .error .invalidArgument
  else if !modeRw then .error .readOnly
  else if metadata.relationKind ≠ .table ∧ metadata.relationKind ≠ .partitionedTable ∧
      metadata.relationKind ≠ .partition then .error .unsupportedRelation
  else if metadata.writePolicy ≠ .allowed then
    .error (if metadata.writePolicy = .noKey then .noKey else .unsupportedRelation)
  else if metadata.keySource = .none ∨ metadata.keyReadOnly ∨ metadata.keyAttributeNumbers = [] then
    .error .noKey
  else do
    let policy ← metadata.columns.zipIdx.foldlM (dmlPolicyColumn mode versionColumn)
      (DmlPolicy.init metadata mode)
    if mode = .column ∧ policy.versionVisible = none then .error .optimisticInvalid
    else if metadata.keyAttributeNumbers.length > metadataMaxKeyColumns then .error .limit
    else
      let policy ← metadata.keyAttributeNumbers.foldlM dmlPolicyKey policy
      .ok { policy with writable := true }

/-! ## Spatial columns -/

/-- What a table knows of a spatial column: `spatial_kind` (0 for none, 1 for a geometry, 2 for a
geography) and `spatial_srid`. -/
structure SpatialColumn where
  kind : ℕ
  srid : UInt32
  deriving DecidableEq, Repr

/-- A spatial column can be written even if its type is not known. -/
def DmlColumn.withSpatial (format : SpatialFormat) (column : DmlColumn) (spatial : SpatialColumn) :
    DmlColumn :=
  let column := { column with spatialKind := spatial.kind, spatialSrid := spatial.srid }
  if spatial.kind = 0 ∨ format = .none then column
  else
    let selection :=
      { column.selection with capabilities := column.selection.capabilities ||| codecCapDml }
    if column.column.generatedKind = 0 then
      { column with
        selection
        updatable := column.column.identityKind == 0
        insertable := column.column.identityKind != 97 }
    else { column with selection }

/-- **`vps_table_build_dml_policy`** on a table that is read and written: the arrays `spatial_kind`
and `spatial_srid` of the table are zero where it has no spatial column. -/
def tableBuildDmlPolicy (metadata : TableMetadata) (mode : DmlOptimisticMode)
    (versionColumn : List UInt8) (spatial : SpatialCapabilities) (format : SpatialFormat)
    (spatialColumns : ℕ → SpatialColumn) : Except DmlError DmlPolicy := do
  let policy ← dmlPolicyBuild metadata true mode versionColumn
  .ok { policy with
    spatial := some spatial
    spatialFormat := format
    columns := policy.columns.zipIdx.map fun (column, visible) =>
      column.withSpatial format (spatialColumns visible) }

/-! ## What an accepted policy is -/

/-- The attribute number of a visible column. -/
def DmlPolicy.attributeNumber? (policy : DmlPolicy) (visible : ℕ) : Option ℤ :=
  policy.columns[visible]?.map (·.column.attributeNumber)

/-- A column that is written is not generated. -/
def DmlColumn.WritesOwn (column : DmlColumn) : Prop :=
  column.insertable ∨ column.updatable → column.column.generatedKind = 0

/-- **What an accepted policy keeps.** -/
structure DmlPolicy.Sound (policy : DmlPolicy) : Prop where
  /-- A column that is written is not generated. -/
  writesOwn : ∀ column ∈ policy.columns, column.WritesOwn
  /-- The key has columns, and every column of the relation's key is a visible one. -/
  keyNonempty : policy.keyVisible ≠ []
  key : policy.keyVisible.map policy.attributeNumber? = policy.metadata.keyAttributeNumbers.map some
  /-- The version is a visible column if the mode asks for one. -/
  version : policy.optimisticMode = .column →
    ∃ visible, policy.versionVisible = some visible ∧ visible < policy.columns.length

/-- A column that a policy may write is not generated. -/
theorem DmlColumn.writesOwn_of (column : ColumnMetadata) (selection : TypeSelection) :
    (DmlColumn.of column selection).WritesOwn := by
  intro h
  simp only [DmlColumn.of, Bool.and_eq_true, beq_iff_eq] at h ⊢
  exact h.elim (·.1.2) (·.1.2)

theorem DmlColumn.column_withSpatial (format : SpatialFormat) (column : DmlColumn)
    (spatial : SpatialColumn) : (column.withSpatial format spatial).column = column.column := by
  unfold DmlColumn.withSpatial
  simp only
  split_ifs <;> rfl

/-- …also when it is found to be spatial. -/
theorem DmlColumn.WritesOwn.withSpatial {column : DmlColumn} (h : column.WritesOwn)
    (format : SpatialFormat) (spatial : SpatialColumn) :
    (column.withSpatial format spatial).WritesOwn := by
  unfold DmlColumn.withSpatial
  simp only
  split_ifs with hnone hgenerated
  · exact h
  · exact fun _ => hgenerated
  · exact h

/-- What holds while the columns of the relation are read. -/
structure DmlPolicy.ColumnsRead (metadata : TableMetadata) (mode : DmlOptimisticMode)
    (policy : DmlPolicy) : Prop where
  writesOwn : ∀ column ∈ policy.columns, column.WritesOwn
  version : ∀ visible ∈ policy.versionVisible, visible < policy.columns.length
  keyVisible : policy.keyVisible = []
  optimisticMode : policy.optimisticMode = mode
  metadata : policy.metadata = metadata

/-- A column that is added is the one that was read. -/
theorem dmlPolicyColumn_columnsRead {metadata : TableMetadata} {mode : DmlOptimisticMode}
    {versionColumn : List UInt8} {policy policy' : DmlPolicy} {entry : ColumnMetadata × ℕ}
    (h : policy.ColumnsRead metadata mode)
    (hok : dmlPolicyColumn mode versionColumn policy entry = .ok policy') :
    policy'.ColumnsRead metadata mode := by
  obtain ⟨column, metadataIndex⟩ := entry
  simp only [dmlPolicyColumn] at hok
  by_cases hdropped : column.dropped
  · rw [if_pos hdropped] at hok
    cases hok
    exact h
  rw [if_neg hdropped] at hok
  by_cases hlimit : policy.columns.length ≥ dmlMaxColumns ∨ metadataIndex > 65535
  · rw [if_pos hlimit] at hok
    cases hok
  rw [if_neg hlimit] at hok
  cases hselect : typeRegistrySelect column with
  | none =>
    rw [hselect] at hok
    cases hok
  | some selection =>
    simp only [hselect] at hok
    have hcolumns : ∀ c ∈ policy.columns ++ [DmlColumn.of column selection], c.WritesOwn := by
      intro c hc
      rcases List.mem_append.1 hc with hc | hc
      · exact h.writesOwn c hc
      · rw [List.mem_singleton.1 hc]
        exact DmlColumn.writesOwn_of column selection
    split_ifs at hok <;> cases hok
    · refine ⟨hcolumns, fun visible hvisible => ?_, h.keyVisible, h.optimisticMode, h.metadata⟩
      obtain rfl : policy.columns.length = visible := by simpa using hvisible
      simp
    · refine ⟨hcolumns, fun visible hvisible => ?_, h.keyVisible, h.optimisticMode, h.metadata⟩
      exact (h.version visible hvisible).trans (by simp)

/-- A key column that is found is visible, and stands last in the key. -/
theorem dmlPolicyKey_eq {policy policy' : DmlPolicy} {attributeNumber : ℤ}
    (hok : dmlPolicyKey policy attributeNumber = .ok policy') :
    ∃ visible, policy.attributeNumber? visible = some attributeNumber ∧
      policy' = { policy with keyVisible := policy.keyVisible ++ [visible] } := by
  unfold dmlPolicyKey at hok
  split at hok
  · cases hok
  rename_i visible hfind
  split at hok
  · rename_i column hcolumn
    split_ifs at hok
    cases hok
    refine ⟨visible, ?_, rfl⟩
    obtain ⟨hvisible, hnumber, -⟩ := List.findIdx?_eq_some_iff_getElem.1 hfind
    rw [DmlPolicy.attributeNumber?, List.getElem?_eq_getElem hvisible, Option.map_some,
      beq_iff_eq.1 hnumber]
  · cases hok

/-- The key of a policy is the key of the table, in its order. -/
theorem foldlM_dmlPolicyKey {numbers : List ℤ} {policy policy' : DmlPolicy}
    (hok : numbers.foldlM dmlPolicyKey policy = .ok policy') :
    ∃ visibles, visibles.map policy.attributeNumber? = numbers.map some ∧
      policy' = { policy with keyVisible := policy.keyVisible ++ visibles } := by
  induction numbers generalizing policy with
  | nil =>
    cases hok
    exact ⟨[], rfl, by simp⟩
  | cons number numbers ih =>
    obtain ⟨next, hnext, hrest⟩ := ok_of_foldlM_cons hok
    obtain ⟨visible, hvisible, rfl⟩ := dmlPolicyKey_eq hnext
    obtain ⟨visibles, hvisibles, rfl⟩ := ih hrest
    refine ⟨visible :: visibles, ?_, by simp⟩
    rw [List.map_cons, List.map_cons, hvisible]
    exact congrArg _ hvisibles

/-- **An accepted policy is sound.** -/
theorem sound_of_dmlPolicyBuild {metadata : TableMetadata} {modeRw : Bool}
    {mode : DmlOptimisticMode} {versionColumn : List UInt8} {policy : DmlPolicy}
    (hok : dmlPolicyBuild metadata modeRw mode versionColumn = .ok policy) : policy.Sound := by
  unfold dmlPolicyBuild at hok
  iterate 4
    split at hok
    · cases hok
  split at hok
  · cases hok
  rename_i hkey
  obtain ⟨columns, hcolumns, hok⟩ := ok_of_bind hok
  have hread : columns.ColumnsRead metadata mode := by
    refine foldlM_invariant (fun _ _ _ h hok => dmlPolicyColumn_columnsRead h hok) ?_ hcolumns
    exact ⟨by simp [DmlPolicy.init], by simp [DmlPolicy.init], rfl, rfl, rfl⟩
  split_ifs at hok with hversion _
  obtain ⟨keys, hkeys, hok⟩ := ok_of_bind hok
  obtain ⟨visibles, hvisibles, rfl⟩ := foldlM_dmlPolicyKey hkeys
  cases hok
  rw [hread.keyVisible, List.nil_append]
  refine ⟨hread.writesOwn, ?_, hvisibles.trans (by rw [hread.metadata]), fun hmode => ?_⟩
  · rintro rfl
    simp only [not_or] at hkey
    exact hkey.2.2 (List.map_eq_nil_iff.1 hvisibles.symm)
  · have hmode : mode = .column := hread.optimisticMode.symm.trans hmode
    have hsome : columns.versionVisible ≠ none := fun hnone => hversion ⟨hmode, hnone⟩
    obtain ⟨visible, hvisible⟩ := Option.ne_none_iff_exists'.1 hsome
    exact ⟨visible, hvisible, hread.version visible hvisible⟩

/-- **The policy of a table is sound.** -/
theorem sound_of_tableBuildDmlPolicy {metadata : TableMetadata} {mode : DmlOptimisticMode}
    {versionColumn : List UInt8} {spatial : SpatialCapabilities} {format : SpatialFormat}
    {spatialColumns : ℕ → SpatialColumn} {policy : DmlPolicy}
    (hok : tableBuildDmlPolicy metadata mode versionColumn spatial format spatialColumns =
      .ok policy) : policy.Sound := by
  obtain ⟨base, hbase, hok⟩ := ok_of_bind hok
  have h := sound_of_dmlPolicyBuild hbase
  cases hok
  refine ⟨?_, h.keyNonempty, ?_, by simpa using h.version⟩
  · intro column hcolumn
    obtain ⟨⟨column, visible⟩, hmem, rfl⟩ := List.mem_map.1 hcolumn
    exact (h.writesOwn column (List.fst_mem_of_mem_zipIdx hmem)).withSpatial format _
  · rw [← h.key]
    refine List.map_congr_left fun visible _ => ?_
    simp [DmlPolicy.attributeNumber?, Function.comp_def, DmlColumn.column_withSpatial]

end Vps
