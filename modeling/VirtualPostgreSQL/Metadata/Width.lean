import Mathlib.Algebra.Group.Action.Defs
import Mathlib.Algebra.Order.BigOperators.Group.List
import VirtualPostgreSQL.Metadata.Table

/-!
# Metadata/Width — how wide a table can be and still have a snapshot

The planner, the writes and the connect path take a table of a thousand columns; the snapshot takes
sixty-four fields.  A table that passes the connect checks has a snapshot, and the snapshot an
encoding, exactly when its description has no more fields than that.
-/

namespace Vps

open Machinery

/-- **What a description of the server is**: names that are not empty, without a zero byte, of the
length that a field name may have, and distinct; and behind the columns of the optimistic mode
`xmin` an expression, which comes from no attribute. -/
structure ModuleTable.Describes (table : ModuleTable) : Prop where
  clean : ∀ field ∈ table.described, field.name ≠ [] ∧ 0 ∉ field.name
  length : ∀ field ∈ table.described, field.name.length ≤ clientMaxFieldNameBytes
  distinct : (table.described.map (·.name)).Nodup
  fresh : table.keyColumns = []
  hidden : table.arguments.optimisticMode = .xmin → ∀ field ∈ table.described.getLast?,
    field.originAttributeNumber = 0

/-! ## What the steps keep -/

/-- The names and origins of the description, which no step changes. -/
def ModuleTable.origins (table : ModuleTable) : List (List UInt8 × Int32) :=
  table.described.map fun field => (field.name, field.originAttributeNumber)

theorem connectVisible_frame {table table' : ModuleTable} (h : connectVisible table = .ok table') :
    table' = { table with visibleFieldCount := table'.visibleFieldCount } ∧
      table'.visibleFieldCount =
        if table.arguments.optimisticMode = .xmin then table.described.length - 1
        else table.described.length := by
  unfold connectVisible at h
  split at h
  · split at h
    · cases h
    · cases h
      exact ⟨rfl, by simp_all⟩
  · cases h
    exact ⟨rfl, by simp_all⟩

theorem orConnectError_eq_ok {step : Option ModuleTable} {table : ModuleTable} :
    orConnectError step = .ok table ↔ step = some table := by
  unfold orConnectError
  split <;> simp

theorem projectField_origin {spatial : SpatialCatalog} {format : SpatialFormat}
    {entry : DescribeField × SpatialField} {projected : List UInt8 × DescribeField}
    (h : projectField spatial format entry = some projected) :
    projected.2.name = entry.1.name ∧
      projected.2.originAttributeNumber = entry.1.originAttributeNumber := by
  unfold projectField at h
  dsimp only at h
  split at h
  · cases h
  split at h
  · cases h
    exact ⟨rfl, rfl⟩
  · obtain ⟨sql, -, h⟩ := Option.bind_eq_some_iff.mp h
    cases h
    exact ⟨rfl, rfl⟩

/-- The fields keep their names and origins when they are read through functions. -/
theorem origins_of_mapM {spatial : SpatialCatalog} {format : SpatialFormat}
    {described : List DescribeField} {spatialFields : List SpatialField}
    {projected : List (List UInt8 × DescribeField)}
    (hlength : spatialFields.length = described.length)
    (h : (described.zip spatialFields).mapM (projectField spatial format) = some projected) :
    (projected.map Prod.snd).map (fun field => (field.name, field.originAttributeNumber)) =
      described.map fun field => (field.name, field.originAttributeNumber) := by
  have hfields := map_eq_map_of_forall₂ (f := fun entry : DescribeField × SpatialField =>
      (entry.1.name, entry.1.originAttributeNumber))
    (g := fun entry : List UInt8 × DescribeField => (entry.2.name, entry.2.originAttributeNumber))
    (forall₂_of_mapM h) fun entry projected hproject => by
      obtain ⟨hname, horigin⟩ := projectField_origin hproject
      rw [hname, horigin]
  have hzip : (described.zip spatialFields).map (fun entry =>
      (entry.1.name, entry.1.originAttributeNumber)) =
        described.map fun field => (field.name, field.originAttributeNumber) := by
    have hfst : (described.zip spatialFields).map Prod.fst = described :=
      List.map_fst_zip hlength.ge
    have := congrArg (List.map fun field => (field.name, field.originAttributeNumber)) hfst
    rwa [List.map_map] at this
  rw [List.map_map, ← hzip]
  exact hfields.symm

theorem tableIntegrateSpatial_frame {table table' : ModuleTable}
    (h : tableIntegrateSpatial table = some table') :
    table'.origins = table.origins ∧ table'.arguments = table.arguments ∧
      table'.metadata = table.metadata ∧ table'.visibleFieldCount = table.visibleFieldCount ∧
      table'.keyColumns = table.keyColumns := by
  unfold tableIntegrateSpatial at h
  dsimp only at h
  split at h
  · cases h
  split at h
  · cases h
  obtain ⟨spatialFields, hfields, h⟩ := Option.bind_eq_some_iff.mp h
  split at h
  · cases h
    exact ⟨rfl, rfl, rfl, rfl, rfl⟩
  obtain ⟨projected, hprojected, h⟩ := Option.bind_eq_some_iff.mp h
  split at h
  · cases h
  cases h
  exact ⟨origins_of_mapM (forall₂_of_mapM hfields).length_eq.symm hprojected, rfl, rfl, rfl, rfl⟩

theorem connectSpatial_frame {table table' : ModuleTable} (h : connectSpatial table = .ok table') :
    table'.origins = table.origins ∧ table'.arguments = table.arguments ∧
      table'.metadata = table.metadata ∧ table'.visibleFieldCount = table.visibleFieldCount ∧
      table'.keyColumns = table.keyColumns := by
  unfold connectSpatial at h
  split at h
  · cases h
    exact ⟨rfl, rfl, rfl, rfl, rfl⟩
  · exact tableIntegrateSpatial_frame (orConnectError_eq_ok.mp h)

/-- A table that is written has the metadata of a relation. -/
theorem tableDmlPolicy_frame {table table' : ModuleTable} (h : tableDmlPolicy table = some table') :
    table' = { table with dmlPolicy := table'.dmlPolicy } ∧
      (table.arguments.modeRw = true → ∃ metadata, table.metadata = some metadata) := by
  unfold tableDmlPolicy at h
  split at h
  · rename_i hreads
    cases h
    refine ⟨rfl, fun hwrites => ?_⟩
    simp [hwrites] at hreads
  split at h
  · cases h
  rename_i metadata hmetadata
  split at h
  · cases h
  obtain ⟨policy, -, h⟩ := Option.map_eq_some_iff.mp h
  exact ⟨by rw [← h], fun _ => ⟨metadata, hmetadata⟩⟩

/-! ## Keys -/

/-- An index that is found in a description that is not too wide. -/
theorem toNat_findIdx {described : List DescribeField} {p : DescribeField → Bool} {column : UInt16}
    (hwidth : described.length ≤ 2 ^ 16)
    (h : (described.findIdx? p).map (·.toUInt16) = some column) :
    ∃ field, described[column.toNat]? = some field ∧ p field = true := by
  obtain ⟨index, hindex, rfl⟩ := Option.map_eq_some_iff.mp h
  obtain ⟨hlt, hp, -⟩ := List.findIdx?_eq_some_iff_getElem.mp hindex
  have hcast : index.toUInt16.toNat = index := by
    rw [Nat.toUInt16_eq, UInt16.toNat_ofNat', Nat.mod_eq_of_lt (by omega)]
  exact ⟨described[index], by rw [hcast, List.getElem?_eq_getElem hlt], hp⟩

/-- The key of the catalog is among the fields that come from an attribute. -/
theorem catalogKeyColumns_spec {described : List DescribeField} {key : KeyMetadata}
    {columns : List UInt16} (hwidth : described.length ≤ 2 ^ 16)
    (hpositive : ∀ number ∈ key.attributeNumbers, 0 < number)
    (h : catalogKeyColumns described key = some columns) :
    ∀ column ∈ columns, ∃ field, described[column.toNat]? = some field ∧
      0 < field.originAttributeNumber.toInt := by
  intro column hcolumn
  obtain ⟨number, hnumber, hfind⟩ := forall₂_exists_left (forall₂_of_mapM h) hcolumn
  obtain ⟨field, hfield, horigin⟩ := toNat_findIdx hwidth hfind
  have hsame : field.originAttributeNumber.toInt = number := by simpa using horigin
  exact ⟨field, hfield, hsame ▸ hpositive number hnumber⟩

theorem argumentKeyColumn_spec {described : List DescribeField} {cells : List (List UInt8)}
    {columns columns' : List UInt16} (hwidth : described.length ≤ 2 ^ 16)
    (hcolumns : ∀ column ∈ columns, ∃ field, described[column.toNat]? = some field)
    (h : cells.foldlM (argumentKeyColumn described) columns = some columns') :
    ∀ column ∈ columns', ∃ field, described[column.toNat]? = some field := by
  induction cells generalizing columns with
  | nil =>
    cases h
    exact hcolumns
  | cons cell cells ih =>
    rw [List.foldlM_cons] at h
    obtain ⟨next, hround, h⟩ := Option.bind_eq_some_iff.mp h
    refine ih ?_ h
    unfold argumentKeyColumn at hround
    split at hround
    · cases hround
    obtain ⟨index, hindex, rfl⟩ := Option.map_eq_some_iff.mp hround
    intro column hcolumn
    obtain hcolumn | hcolumn := List.mem_append.1 hcolumn
    · exact hcolumns column hcolumn
    · rw [List.mem_singleton.1 hcolumn]
      obtain ⟨field, hfield, -⟩ := toNat_findIdx hwidth
        (show (described.findIdx? fun field => field.name == cell).map (·.toUInt16) =
          some index.toUInt16 by rw [hindex]; rfl)
      exact ⟨field, hfield⟩

theorem resolveRowIdentity_visible {table table' : ModuleTable}
    (h : resolveRowIdentity table = some table') :
    table'.visibleFieldCount = table.visibleFieldCount := by
  unfold resolveRowIdentity at h
  split at h
  · obtain ⟨key, -, h⟩ := Option.bind_eq_some_iff.mp h
    dsimp only at h
    split at h
    · split at h
      · cases h
      · cases h
        rfl
    · split at h <;> cases h <;> rfl
  · split at h
    · cases h
      rfl
    obtain ⟨columns, -, h⟩ := Option.bind_eq_some_iff.mp h
    split at h <;> cases h <;> rfl

/-- **The key columns are described fields**; those of a relation come from an attribute. -/
theorem resolveRowIdentity_spec {table table' : ModuleTable} (hfresh : table.keyColumns = [])
    (hwidth : table.described.length ≤ 2 ^ 16) (h : resolveRowIdentity table = some table') :
    table'.described = table.described ∧
      ∀ column ∈ table'.keyColumns, ∃ field, table.described[column.toNat]? = some field ∧
        (table.metadata.isSome → 0 < field.originAttributeNumber.toInt) := by
  unfold resolveRowIdentity at h
  split at h
  · rename_i metadata hmetadata
    obtain ⟨key, hkey, h⟩ := Option.bind_eq_some_iff.mp h
    have hcolumns : ∀ column ∈ table.keyColumns ++ key,
        ∃ field, table.described[column.toNat]? = some field ∧
          (table.metadata.isSome → 0 < field.originAttributeNumber.toInt) := by
      rw [hfresh, List.nil_append]
      intro column hcolumn
      obtain ⟨field, hfield, hpositive⟩ :=
        catalogKeyColumns_spec hwidth metadata.positive hkey column hcolumn
      exact ⟨field, hfield, fun _ => hpositive⟩
    dsimp only at h
    split at h
    · split at h
      · cases h
      · cases h
        exact ⟨rfl, hcolumns⟩
    · split at h
      · cases h
        exact ⟨rfl, hcolumns⟩
      · cases h
        exact ⟨rfl, hcolumns⟩
  · rename_i hmetadata
    split at h
    · cases h
      refine ⟨rfl, ?_⟩
      rw [hfresh]
      simp
    obtain ⟨columns, hcolumns, h⟩ := Option.bind_eq_some_iff.mp h
    have hspec : ∀ column ∈ columns, ∃ field, table.described[column.toNat]? = some field ∧
        (table.metadata.isSome → 0 < field.originAttributeNumber.toInt) := by
      intro column hcolumn
      obtain ⟨field, hfield⟩ :=
        argumentKeyColumn_spec hwidth (by simp [hfresh]) hcolumns column hcolumn
      exact ⟨field, hfield, by simp [hmetadata]⟩
    split at h
    · cases h
      exact ⟨rfl, hspec⟩
    · cases h
      exact ⟨rfl, hspec⟩

/-- The width of the description, from that of what is visible. -/
theorem length_of_connectVisible {table table' : ModuleTable}
    (h : connectVisible table = .ok table') :
    table.described.length ≤ table'.visibleFieldCount + 1 := by
  obtain ⟨-, hvisible⟩ := connectVisible_frame h
  split at hvisible <;> omega

/-- **What the connect checks leave**: the names of the description, and a key of visible fields. -/
theorem connectChecks_spec {table table' : ModuleTable} (hdescribes : table.Describes)
    (h : connectChecks table = .ok table') :
    table'.origins = table.origins ∧ table'.visibleFieldCount ≤ table.described.length ∧
      table'.visibleFieldCount ≤ planMaxColumns ∧
      ∀ column ∈ table'.keyColumns, column.toNat < table'.visibleFieldCount := by
  obtain ⟨visible, hvisible, h⟩ := ok_of_bind h
  obtain ⟨spatial, hspatial, h⟩ := ok_of_bind h
  obtain ⟨written, hwritten, h⟩ := ok_of_bind h
  obtain ⟨identified, hidentified, h⟩ := ok_of_bind h
  split at h
  · cases h
  rename_i hbound
  cases h
  have hlength := length_of_connectVisible hvisible
  obtain ⟨hvisibleFrame, hcount⟩ := connectVisible_frame hvisible
  obtain ⟨horigins, harguments, hmetadata, hsameCount, hkeys⟩ := connectSpatial_frame hspatial
  obtain ⟨hwrittenFrame, hrelation⟩ := tableDmlPolicy_frame (orConnectError_eq_ok.mp hwritten)
  have hvisibleOrigins : visible.origins = table.origins := by
    rw [hvisibleFrame]
    rfl
  have hwrittenOrigins : written.origins = table.origins := by
    rw [hwrittenFrame]
    exact horigins.trans hvisibleOrigins
  have hwrittenLength : written.described.length = table.described.length := by
    simpa [ModuleTable.origins] using congrArg List.length hwrittenOrigins
  have hwrittenCount : written.visibleFieldCount = visible.visibleFieldCount := by
    rw [hwrittenFrame]
    exact hsameCount
  have hwrittenArguments : written.arguments = table.arguments := by
    rw [hwrittenFrame]
    refine harguments.trans ?_
    rw [hvisibleFrame]
  have hfresh : written.keyColumns = [] := by
    rw [hwrittenFrame]
    refine hkeys.trans ?_
    rw [hvisibleFrame]
    exact hdescribes.fresh
  have hfinal : table'.visibleFieldCount = visible.visibleFieldCount :=
    (resolveRowIdentity_visible (orConnectError_eq_ok.mp hidentified)).trans hwrittenCount
  have hwidth : written.described.length ≤ 2 ^ 16 := by
    rw [planMaxColumns] at hbound
    omega
  obtain ⟨hdescribed, hcolumns⟩ :=
    resolveRowIdentity_spec hfresh hwidth (orConnectError_eq_ok.mp hidentified)
  refine ⟨?_, ?_, Nat.not_lt.1 hbound, fun column hcolumn => ?_⟩
  · rw [← hwrittenOrigins, ModuleTable.origins, hdescribed, ModuleTable.origins]
  · rw [hfinal, hcount]
    split <;> omega
  · obtain ⟨field, hfield, hpositive⟩ := hcolumns column hcolumn
    obtain ⟨hlt, -⟩ := List.getElem?_eq_some_iff.mp hfield
    rw [hfinal, hcount]
    split
    · -- the hidden field comes from no attribute, so it is not the key column
      rename_i hxmin
      have hmetadata' : written.metadata.isSome := by
        rw [hwrittenFrame]
        have hwrites : spatial.arguments.modeRw = true := by
          rw [harguments, hvisibleFrame]
          exact table.arguments.writes (by rw [hxmin]; decide)
        obtain ⟨metadata, hsome⟩ := hrelation hwrites
        simp [hsome]
      have horigin : table.origins[column.toNat]? =
          some (field.name, field.originAttributeNumber) := by
        rw [← hwrittenOrigins, ModuleTable.origins, List.getElem?_map, hfield]
        rfl
      rw [ModuleTable.origins, List.getElem?_map, Option.map_eq_some_iff] at horigin
      obtain ⟨own, hown, hsame⟩ := horigin
      by_contra hlast
      have hindex : column.toNat = table.described.length - 1 := by omega
      have hnone :=
        hdescribes.hidden hxmin own (by rw [List.getLast?_eq_getElem?, ← hindex]; exact hown)
      have := hpositive hmetadata'
      rw [← (Prod.mk.inj hsame).2, hnone] at this
      exact absurd this (by decide)
    · omega

/-! ## The snapshot -/

theorem snapshotAdd_eq_ok {granted : ℕ → Bool} {snapshot snapshot' : MetadataSnapshot}
    {field : MetadataCacheField} (h : snapshotAdd granted snapshot field = .ok snapshot') :
    snapshot.fields.length < metadataCacheMaxFields ∧
      snapshot' = { snapshot with fields := snapshot.fields ++ [field] } := by
  unfold snapshotAdd at h
  split at h
  · cases h
  rename_i added hadd
  cases h
  obtain ⟨-, -, hcount, -, -, hsnapshot⟩ := snapshotAddField_eq_ok_iff.mp hadd
  exact ⟨hcount, hsnapshot⟩

/-- A loop that succeeded added all fields, and they fit. -/
theorem foldlM_snapshotAdd_eq_ok {granted : ℕ → Bool} {fields : List MetadataCacheField}
    {snapshot snapshot' : MetadataSnapshot}
    (hcount : snapshot.fields.length ≤ metadataCacheMaxFields)
    (h : fields.foldlM (snapshotAdd granted) snapshot = .ok snapshot') :
    snapshot'.fields.length = snapshot.fields.length + fields.length ∧
      snapshot'.fields.length ≤ metadataCacheMaxFields := by
  induction fields generalizing snapshot with
  | nil =>
    cases h
    exact ⟨rfl, hcount⟩
  | cons field fields ih =>
    obtain ⟨next, hnext, h⟩ := ok_of_foldlM_cons h
    obtain ⟨hroom, rfl⟩ := snapshotAdd_eq_ok hnext
    obtain ⟨hlength, hle⟩ := ih (by simpa using Nat.succ_le_of_lt hroom) h
    refine ⟨?_, hle⟩
    simp only [List.length_append, List.length_cons, List.length_nil] at hlength ⊢
    omega

/-- Clean fields that fit are added. -/
theorem foldlM_snapshotAdd {fields : List MetadataCacheField} {snapshot : MetadataSnapshot}
    (hclean : ∀ field ∈ fields, field.name ≠ [] ∧ 0 ∉ field.name)
    (hlength : ∀ field ∈ fields, field.name.length ≤ 65535)
    (hcount : snapshot.fields.length + fields.length ≤ metadataCacheMaxFields)
    (htext : snapshot.textSize + (fields.map (·.name.length)).sum ≤ metadataCacheMaxBytes) :
    fields.foldlM (snapshotAdd fun _ => true) snapshot =
      .ok { snapshot with fields := snapshot.fields ++ fields } := by
  induction fields generalizing snapshot with
  | nil => simp [pure, Except.pure]
  | cons field fields ih =>
    simp only [List.map_cons, List.sum_cons, List.length_cons] at htext hcount
    obtain ⟨hfield, hclean⟩ := List.forall_mem_cons.mp hclean
    obtain ⟨hname, hlength⟩ := List.forall_mem_cons.mp hlength
    have hadd := snapshotAddField_eq_ok_iff.mpr
      ⟨hfield, hname, by omega, by omega, rfl, (rfl : _ = { snapshot with
        fields := snapshot.fields ++ [field] })⟩
    have hround : snapshotAdd (fun _ => true) snapshot field =
        .ok { snapshot with fields := snapshot.fields ++ [field] } := by
      unfold snapshotAdd
      rw [hadd]
    have hrest := @ih { snapshot with fields := snapshot.fields ++ [field] } hclean hlength
      (by rw [List.length_append, List.length_singleton]; omega)
      (by rw [textSize_append]; omega)
    rw [List.foldlM_cons, hround, ok_bind, hrest, List.append_assoc, List.singleton_append]

theorem names_snapshotFields (table : ModuleTable) :
    (snapshotFields table).map (·.name) = table.origins.map Prod.fst := by
  have hnames : (table.described.zipIdx.map Prod.fst).map (fun field => field.name) =
      table.described.map fun field => field.name := by
    rw [List.zipIdx_map_fst]
  unfold snapshotFields ModuleTable.origins
  rw [List.map_map] at hnames ⊢
  rw [List.map_map]
  exact hnames

theorem length_snapshotFields (table : ModuleTable) :
    (snapshotFields table).length = table.described.length := by
  simp [snapshotFields]

/-- The table has a snapshot, and the snapshot an encoding. -/
def Remembered (nowMs : UInt64) (table : ModuleTable) : Prop :=
  ∃ snapshot encoded, tableSnapshotBuild (fun _ => true) nowMs table = .ok snapshot ∧
    snapshotEncode true snapshot = .ok encoded

/-- A table that is remembered has no more fields than a snapshot. -/
theorem length_le_of_remembered {nowMs : UInt64} {table : ModuleTable}
    (h : Remembered nowMs table) : table.described.length ≤ metadataCacheMaxFields := by
  obtain ⟨snapshot, encoded, hbuild, -⟩ := h
  obtain ⟨added, hadded, -⟩ := ok_of_bind hbuild
  have hempty : (snapshotHead nowMs table).fields.length = 0 := rfl
  obtain ⟨hlength, hle⟩ := foldlM_snapshotAdd_eq_ok (Nat.zero_le _) hadded
  rw [hempty, length_snapshotFields] at hlength
  omega

/-- The size of an encoding of clean fields. -/
theorem encodedSize_le {snapshot : MetadataSnapshot}
    (hlength : ∀ field ∈ snapshot.fields, field.name.length ≤ clientMaxFieldNameBytes)
    (hcount : snapshot.fields.length ≤ metadataCacheMaxFields)
    (hkeys : snapshot.keyColumns.length ≤ metadataCacheMaxKeys) :
    snapshot.encodedSize ≤ metadataCacheMaxBytes := by
  have hsum := List.sum_le_card_nsmul
    (snapshot.fields.map fun field => cacheFieldBytes + field.name.length)
    (cacheFieldBytes + clientMaxFieldNameBytes) (by
      rw [List.forall_mem_map]
      exact fun field hfield => Nat.add_le_add_left (hlength field hfield) _)
  rw [List.length_map, smul_eq_mul] at hsum
  have hbound := Nat.mul_le_mul_right (cacheFieldBytes + clientMaxFieldNameBytes) hcount
  rw [MetadataSnapshot.encodedSize]
  simp only [cacheHeaderBytes, cacheFieldBytes, clientMaxFieldNameBytes, metadataCacheMaxFields,
    metadataCacheMaxKeys, metadataCacheMaxBytes] at *
  omega

/-- **The snapshot step and the width.**  A described table that passes the connect checks, with one
visible column or more and no more than thirty-two key columns, is remembered exactly when its
description has at most sixty-four fields. -/
theorem remembered_iff {table table' : ModuleTable} (nowMs : UInt64) (hdescribes : table.Describes)
    (hchecks : connectChecks table = .ok table') (hvisible : 0 < table'.visibleFieldCount)
    (hkeys : table'.keyColumns.length ≤ metadataCacheMaxKeys) :
    Remembered nowMs table' ↔ table.described.length ≤ metadataCacheMaxFields := by
  obtain ⟨horigins, hcount, -, hcolumns⟩ := connectChecks_spec hdescribes hchecks
  have hlength : table'.described.length = table.described.length := by
    simpa [ModuleTable.origins] using congrArg List.length horigins
  refine ⟨fun h => hlength ▸ length_le_of_remembered h, fun hle => ?_⟩
  have hnames : (snapshotFields table').map (·.name) = table.described.map (·.name) := by
    rw [names_snapshotFields, horigins, ModuleTable.origins, List.map_map]
    rfl
  have hmem : ∀ field ∈ snapshotFields table', ∃ own ∈ table.described, own.name = field.name := by
    intro field hfield
    have : field.name ∈ table.described.map (·.name) := hnames ▸ List.mem_map_of_mem hfield
    exact List.mem_map.1 this
  have hclean : ∀ field ∈ snapshotFields table', field.name ≠ [] ∧ 0 ∉ field.name := by
    intro field hfield
    obtain ⟨own, hown, hname⟩ := hmem field hfield
    exact hname ▸ hdescribes.clean own hown
  have hshort : ∀ field ∈ snapshotFields table', field.name.length ≤ clientMaxFieldNameBytes := by
    intro field hfield
    obtain ⟨own, hown, hname⟩ := hmem field hfield
    exact hname ▸ hdescribes.length own hown
  let snapshot : MetadataSnapshot :=
    { snapshotHead nowMs table' with fields := snapshotFields table' }
  have hsnapshot : snapshot.fields.length = table.described.length :=
    (length_snapshotFields table').trans hlength
  have hfields : snapshot.fields.length ≤ metadataCacheMaxFields := hsnapshot ▸ hle
  have hsize : snapshot.encodedSize ≤ metadataCacheMaxBytes := encodedSize_le hshort hfields hkeys
  have hvalid : snapshot.Valid := by
    refine ⟨?_, hfields, hvisible.ne', hsnapshot ▸ hcount, hkeys, ?_, ?_, hcolumns⟩
    · rw [hsnapshot]
      omega
    · intro name hname
      obtain ⟨field, hfield, rfl⟩ := List.mem_map.1 hname
      exact hclean field hfield
    · rw [MetadataSnapshot.names, show snapshot.fields.map (·.name) = _ from hnames]
      exact hdescribes.distinct
  have htext : ((snapshotFields table').map (·.name.length)).sum ≤ metadataCacheMaxBytes := by
    have hsum := List.sum_le_card_nsmul ((snapshotFields table').map (·.name.length))
      clientMaxFieldNameBytes (by rwa [List.forall_mem_map])
    have hbound := Nat.mul_le_mul_right clientMaxFieldNameBytes hfields
    rw [List.length_map, smul_eq_mul] at hsum
    exact hsum.trans (hbound.trans (by decide))
  have hadd := @foldlM_snapshotAdd (snapshotFields table') (snapshotHead nowMs table') hclean
    (fun field hfield => (hshort field hfield).trans (by decide))
      (by simpa [snapshotHead] using hfields)
    (by simpa [MetadataSnapshot.textSize, MetadataSnapshot.names, snapshotHead] using htext)
  refine ⟨snapshot, _, ?_, snapshotEncode_eq_ok hvalid hsize⟩
  unfold tableSnapshotBuild
  rw [hadd, ok_bind]
  exact if_pos hvalid

/-- The arguments of a query source that is only read. -/
def readOnlyArguments : TableArguments where
  modeRw := false
  sourceIsQuery := true
  metadataCached := true
  schemaRefresh := false
  optimisticMode := .off
  versionColumn := []
  keyColumns := []
  spatialFormat := .wkt
  srid := 0
  queryIndexes := []
  materialization := .off
  profile := {}
  identityFingerprint := []
  configurationGeneration := 1
  writes := by decide

/-- A query of integer columns. -/
def wideTable (width : ℕ) : ModuleTable where
  arguments := readOnlyArguments
  scanQuery := ascii "SELECT * FROM (SELECT 1) AS vps_scan"
  described := (List.range width).map fun index => ⟨[(index + 1).toUInt8], 23, -1, 0, 0⟩

theorem describes_wideTable {width : ℕ} (h : width < 255) : (wideTable width).Describes where
  clean := by
    simp only [wideTable, List.forall_mem_map, List.mem_range]
    intro index hindex
    refine ⟨by simp, ?_⟩
    have hne : (index + 1).toUInt8 ≠ 0 := by
      intro hzero
      have := congrArg UInt8.toNat hzero
      rw [Nat.toUInt8_eq, UInt8.toNat_ofNat', Nat.mod_eq_of_lt (by omega)] at this
      simp at this
    simpa using hne.symm
  length := by simp [wideTable, clientMaxFieldNameBytes]
  distinct := by
    rw [wideTable, List.map_map]
    refine (List.nodup_range).map_on ?_
    intro i hi j hj heq
    rw [List.mem_range] at hi hj
    have hnat := congrArg UInt8.toNat (List.cons.inj heq).1
    rw [Nat.toUInt8_eq, Nat.toUInt8_eq, UInt8.toNat_ofNat', UInt8.toNat_ofNat',
      Nat.mod_eq_of_lt (by omega), Nat.mod_eq_of_lt (by omega)] at hnat
    omega
  fresh := rfl
  hidden := by
    intro hxmin
    cases hxmin

theorem remembered_three_columns :
    ∃ table', connectChecks (wideTable 3) = .ok table' ∧ Remembered 7 table' := by
  have hdescribes : (wideTable 3).Describes := describes_wideTable (by decide)
  refine ⟨_, rfl, (remembered_iff 7 hdescribes rfl (by decide) (by decide)).mpr ?_⟩
  decide

/-- Sixty-five columns pass the checks and have no snapshot. -/
theorem forgotten_wide_table :
    (wideTable 65).Describes ∧ ∃ table', connectChecks (wideTable 65) = .ok table' ∧
      table'.visibleFieldCount = 65 ∧ table'.keyColumns = [] ∧ ¬Remembered 7 table' := by
  refine ⟨describes_wideTable (by decide), _, rfl, rfl, rfl, fun h => ?_⟩
  have := length_le_of_remembered h
  exact absurd this (by decide)

end Vps
