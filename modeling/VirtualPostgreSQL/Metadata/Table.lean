import VirtualPostgreSQL.Dml.Parameters
import VirtualPostgreSQL.Metadata.Indexes
import VirtualPostgreSQL.Metadata.Key
import VirtualPostgreSQL.Planner.Compile
import VirtualPostgreSQL.Query.Wrapper
import VirtualPostgreSQL.Types.Codec

/-!
# Metadata/Table — the table that a connect builds, and its snapshot

A table is described by the server, checked step by step, and remembered in a snapshot.  Here are
the table, the steps of `vps_module_connect_common` between the description and the snapshot, and
the building of the snapshot.  No allocation fails but where a parameter says so.
-/

namespace Vps

open Machinery

/-! ## Tables -/

/-- `VpsQueryDescribeField` -/
structure DescribeField where
  name : List UInt8
  typeOid : UInt32
  typeModifier : Int32
  originRelationOid : UInt32
  originAttributeNumber : Int32
  deriving DecidableEq

/-- `VpsTableMetadata`, loaded; the attribute numbers of a discovered key are positive. -/
structure SourceMetadata where
  relation : RelationMetadata
  columns : List CatalogColumn
  key : KeyMetadata
  policy : RelationPolicyMetadata
  positive : ∀ number ∈ key.attributeNumbers, 0 < number

/-- What the writes read of it. -/
def SourceMetadata.tableMetadata (metadata : SourceMetadata) : TableMetadata where
  loaded := true
  relationOid := metadata.relation.relationOid
  relationKind := metadata.relation.kind
  schemaName := metadata.relation.schemaName
  relationName := metadata.relation.relationName
  columns := metadata.columns.map (·.toColumnMetadata)
  keySource := metadata.key.source
  keyReadOnly := metadata.key.readOnly
  keyAttributeNumbers := metadata.key.attributeNumbers
  writePolicy := metadata.policy.writePolicy

/-- `VpsSpatialCapabilities` -/
structure SpatialCatalog extends SpatialCapabilities where
  namespaceOid : UInt32
  geometryOid : UInt32
  geographyOid : UInt32
  deriving DecidableEq, Repr

/-- The entries of a field in the arrays `spatial_kind`, `spatial_type`, `spatial_dimensions` and
`spatial_srid`. -/
structure SpatialField where
  kind : UInt8 := 0
  type : UInt32 := 0
  dimensions : UInt32 := 0
  srid : UInt32 := 0
  deriving DecidableEq, Repr

/-- `VpsQueryMaterializationMode` -/
inductive QueryMaterializationMode
  | off | memory | temp
  deriving DecidableEq, Repr

/-- The fields `query_profile_…` of a table. -/
structure QueryProfile where
  nameFingerprint : UInt64 := 0
  revision : UInt64 := 0
  providerId : UInt64 := 0
  source : UInt64 := 0
  deriving DecidableEq, Repr

/-- What `vps_table_initialize_runtime` reads of the arguments. -/
structure TableArguments where
  modeRw : Bool
  sourceIsQuery : Bool
  metadataCached : Bool
  schemaRefresh : Bool
  optimisticMode : DmlOptimisticMode
  versionColumn : List UInt8
  keyColumns : List UInt8
  /-- `vps_table_spatial_format` -/
  spatialFormat : SpatialFormat
  /-- The argument `srid`, zero when it is absent. -/
  srid : UInt32
  queryIndexes : List UInt8
  /-- `vps_table_materialization_mode` -/
  materialization : QueryMaterializationMode
  profile : QueryProfile
  /-- `vps_identity_fingerprint` -/
  identityFingerprint : List UInt8
  configurationGeneration : UInt64
  /-- A table that is only read has no optimistic mode. -/
  writes : optimisticMode ≠ .off → modeRw = true

/-- `VpsTable`, from the end of `vps_table_initialize_runtime` on. -/
structure ModuleTable where
  arguments : TableArguments
  scanQuery : List UInt8
  described : List DescribeField := []
  metadata : Option SourceMetadata := none
  spatial : SpatialCatalog := ⟨⟨[], 0, false⟩, 0, 0, 0⟩
  spatialFormat : SpatialFormat := .wkt
  spatialFields : ℕ → SpatialField := fun _ => {}
  visibleFieldCount : ℕ := 0
  keyColumns : List UInt16 := []
  identityMode : RowIdentityMode := .stableInteger
  hasHiddenIdentity : Bool := false
  dmlPolicy : Option DmlPolicy := none
  sourceFingerprint : UInt64 := 0
  queryIndexes : List QueryIndexDefinition := []
  cacheFallback : Bool := false

/-- The results of SQLite that the connect path fails with. -/
inductive ConnectError
  | error | nomem | corrupt | schema | auth | toobig | notfound
  deriving DecidableEq, Repr

/-! ## Spatial columns -/

/-- `vps_spatial_typmod_decode`: the geometry type, the dimensions and the reference system. -/
def spatialTypmodDecode (typeModifier : Int32) : Option (UInt32 × UInt32 × UInt32) :=
  if typeModifier < 0 then some (0, 0, 0)
  else
    let packed := typeModifier.toUInt32
    let rawType := packed >>> 2 &&& 0x3f
    if rawType > 7 then none
    else some (rawType,
      2 + (if packed &&& 2 ≠ 0 then 1 else 0) + (if packed &&& 1 ≠ 0 then 1 else 0),
      packed >>> 8 &&& 0x1fffff)

/-- `vps_spatial_required_capability` of a value that is read. -/
def spatialReadCapability : SpatialFormat → UInt32
  | .wkt => 1
  | .wkb => 4
  | .ewkt => 16
  | .ewkb => 64
  | _ => 0

/-- `vps_spatial_identifier` into the buffer of a column. -/
def spatialColumnIdentifier (name : List UInt8) : Option (List UInt8) :=
  if name = [] ∨ 0 ∈ name ∨ (quoteIdentifier name).length ≥ 2 * 255 + 3 then none
  else some (quoteIdentifier name)

/-- The texts that `vps_spatial_read_expression` prints. -/
def spatialReadSql (schema column : List UInt8) (geography : Bool) (format : SpatialFormat) :
    List UInt8 :=
  let function :=
    if format = .wkt then ascii "ST_AsText"
    else if format = .wkb then ascii "ST_AsBinary"
    else if format = .ewkt then ascii "ST_AsEWKT"
    else ascii "ST_AsEWKB"
  let call := schema ++ ascii "." ++ function ++ ascii "(" ++ column
  if geography ∧ (format = .ewkt ∨ format = .ewkb) then
    call ++ ascii "::" ++ schema ++ ascii ".\"geometry\")"
  else if format = .wkb then call ++ ascii ",'NDR')"
  else call ++ ascii ")"

/-- `vps_spatial_read_expression` -/
def spatialReadExpression (capabilities : SpatialCapabilities) (geography : Bool)
    (format : SpatialFormat) (name : List UInt8) : Option (List UInt8) :=
  let required := spatialReadCapability format
  if format = .none ∨ format = .spatialite then none
  else if !capabilities.present ∨ capabilities.flags &&& required ≠ required then none
  else do
    let schema ← spatialIdentifier capabilities.schema
    let column ← spatialColumnIdentifier name
    let sql := spatialReadSql schema column geography format
    if sql.length ≥ 512 then none else some sql

/-- The kind of a spatial field: 1 for a geometry, 2 for a geography. -/
def spatialKindOf (spatial : SpatialCatalog) (typeOid : UInt32) : UInt8 :=
  if spatial.present ∧ typeOid = spatial.geometryOid then 1
  else if spatial.present ∧ typeOid = spatial.geographyOid then 2
  else 0

/-- One round of the first loop of `vps_table_integrate_spatial`. -/
def integrateField (spatial : SpatialCatalog) (overrideSrid : UInt32) (field : DescribeField) :
    Option SpatialField :=
  let kind := spatialKindOf spatial field.typeOid
  if kind = 0 then some {}
  else do
    let (type, dimensions, srid) ← spatialTypmodDecode field.typeModifier
    if overrideSrid ≠ 0 ∧ srid ≠ 0 ∧ overrideSrid ≠ srid then none
    else some { kind, type, dimensions, srid := if overrideSrid ≠ 0 then overrideSrid else srid }

/-- One round of the second loop: what is selected, and the field as it is then. -/
def projectField (spatial : SpatialCatalog) (format : SpatialFormat)
    (entry : DescribeField × SpatialField) : Option (List UInt8 × DescribeField) :=
  let (field, kind) := (entry.1, entry.2.kind)
  if field.name = [] ∨ 0 ∈ field.name then none
  else if kind = 0 then some (quoteIdentifier field.name, field)
  else do
    let sql ← spatialReadExpression spatial.toSpatialCapabilities (kind ≠ 1) format field.name
    let typeOid := if format = .wkb ∨ format = .ewkb then 17 else 25
    some (sql ++ ascii " AS " ++ quoteIdentifier field.name,
      { field with typeOid, typeModifier := -1 })

/-- The query that reads spatial columns through functions. -/
def projectedQuery (columns : List (List UInt8)) (scanQuery : List UInt8) : List UInt8 :=
  ascii "SELECT " ++ (ascii ",").intercalate columns ++ ascii " FROM (" ++ scanQuery ++
    ascii ") AS vps_spatial_source"

/-- **`vps_table_integrate_spatial`**, on a described table. -/
def tableIntegrateSpatial (table : ModuleTable) : Option ModuleTable :=
  let format := table.arguments.spatialFormat
  if table.described.length > planMaxColumns then none
  else if format = .spatialite ∨ table.arguments.srid.toNat > 2 ^ 31 - 1 then none
  else do
    let spatialFields ← table.described.mapM (integrateField table.spatial table.arguments.srid)
    let table := { table with
      spatialFormat := format
      spatialFields := fun index => spatialFields.getD index {} }
    if spatialFields.all (fun field => field.kind = 0) ∨ format = .none then some table
    else do
      let projected ← (table.described.zip spatialFields).mapM (projectField table.spatial format)
      let query := projectedQuery (projected.map Prod.fst) table.scanQuery
      if query.length + 1 > vtabQueryLimit then none
      else some { table with scanQuery := query, described := projected.map Prod.snd }

/-! ## Rows -/

/-- `vps_table_build_dml_policy` -/
def tableDmlPolicy (table : ModuleTable) : Option ModuleTable :=
  if !table.arguments.modeRw then some table
  else match table.metadata with
  | none => none
  | some metadata =>
    if table.arguments.sourceIsQuery then none
    else
      (tableBuildDmlPolicy metadata.tableMetadata table.arguments.optimisticMode
        table.arguments.versionColumn table.spatial.toSpatialCapabilities table.spatialFormat
        fun index =>
          ⟨(table.spatialFields index).kind.toNat, (table.spatialFields index).srid⟩).toOption.map
        fun policy => { table with dmlPolicy := some policy }

/-- `VPS_QUERY_METADATA_MAX_KEY_COLUMNS` -/
def queryMetadataMaxKeyColumns : ℕ := 32

/-- Whether the only key column is an integer. -/
def singleIntegerKey (described : List DescribeField) (keyColumns : List UInt16) : Bool :=
  match keyColumns with
  | [column] =>
    (described[column.toNat]?).any fun field => typeCodecForOid field.typeOid == .integer
  | _ => false

/-- The key of the catalog, as fields of the description. -/
def catalogKeyColumns (described : List DescribeField) (key : KeyMetadata) : Option (List UInt16) :=
  key.attributeNumbers.mapM fun number =>
    (described.findIdx? fun field => field.originAttributeNumber.toInt == number).map (·.toUInt16)

/-- One round of the loop over the argument `key_columns`. -/
def argumentKeyColumn (described : List DescribeField) (keyColumns : List UInt16)
    (name : List UInt8) : Option (List UInt16) :=
  if name = [] ∨ keyColumns.length ≥ queryMetadataMaxKeyColumns then none
  else (described.findIdx? fun field => field.name == name).map fun field =>
    keyColumns ++ [field.toUInt16]

/-- **`vps_resolve_row_identity`** -/
def resolveRowIdentity (table : ModuleTable) : Option ModuleTable :=
  match table.metadata with
  | some metadata => do
    let key ← catalogKeyColumns table.described metadata.key
    let table := { table with keyColumns := table.keyColumns ++ key, identityMode := .scanLocal }
    if table.keyColumns = [] then if table.arguments.modeRw then none else some table
    else if table.arguments.optimisticMode = .off ∧
        singleIntegerKey table.described table.keyColumns then
      some { table with identityMode := .stableInteger, hasHiddenIdentity := false }
    else some { table with identityMode := .hiddenToken, hasHiddenIdentity := true }
  | none =>
    if table.arguments.keyColumns = [] then some { table with identityMode := .scanLocal }
    else do
      let keyColumns ← (queryIndexCells table.arguments.keyColumns).foldlM
        (argumentKeyColumn table.described) table.keyColumns
      if singleIntegerKey table.described keyColumns then
        some { table with keyColumns, identityMode := .stableInteger, hasHiddenIdentity := false }
      else some { table with keyColumns, identityMode := .hiddenToken, hasHiddenIdentity := true }

/-! ## The steps before the snapshot -/

/-- The number of visible fields; the last field of the optimistic mode `xmin` is hidden. -/
def connectVisible (table : ModuleTable) : Except ConnectError ModuleTable :=
  if table.arguments.optimisticMode = .xmin then
    if table.described.length = 0 then .error .error
    else .ok { table with visibleFieldCount := table.described.length - 1 }
  else .ok { table with visibleFieldCount := table.described.length }

/-- A step that fails as a whole. -/
def orConnectError (step : Option ModuleTable) : Except ConnectError ModuleTable :=
  match step with
  | none => .error .error
  | some table => .ok table

/-- The spatial columns; a cached table has them from its snapshot. -/
def connectSpatial (table : ModuleTable) : Except ConnectError ModuleTable :=
  if table.cacheFallback then .ok table else orConnectError (tableIntegrateSpatial table)

/-- **The steps of `vps_module_connect_common`** between the description and the snapshot. -/
def connectChecks (table : ModuleTable) : Except ConnectError ModuleTable := do
  let table ← connectVisible table
  let table ← connectSpatial table
  let table ← orConnectError (tableDmlPolicy table)
  let table ← orConnectError (resolveRowIdentity table)
  if table.visibleFieldCount > planMaxColumns then .error .toobig else .ok table

/-! ## Fingerprints -/

/-- `(uint32_t)table->spatial_format` -/
def SpatialFormat.code : SpatialFormat → UInt32
  | .wkt => 0
  | .wkb => 1
  | .ewkt => 2
  | .ewkb => 3
  | .none => 4
  | .spatialite => 5

/-- What a field adds to the fingerprint of the source. -/
def fieldFingerprintValues (field : DescribeField) (spatial : SpatialField) : List UInt64 :=
  [field.typeOid.toUInt64, field.typeModifier.toUInt32.toUInt64] ++
    field.name.map (·.toUInt64) ++
    [spatial.kind.toUInt64, spatial.type.toUInt64, spatial.dimensions.toUInt64,
      spatial.srid.toUInt64]

/-- What a query profile adds to the fingerprint of the source. -/
def QueryProfile.fingerprintValues (profile : QueryProfile) : List UInt64 :=
  if profile.revision ≠ 0 then
    [profile.nameFingerprint, profile.revision, profile.providerId, profile.source]
  else []

/-- **`vps_vtab_source_fingerprint`** -/
def vtabSourceFingerprint (table : ModuleTable) : UInt64 :=
  mixAll hashPrime hashOffset
    (table.scanQuery.map (·.toUInt64) ++ table.arguments.profile.fingerprintValues ++
      (table.described.zipIdx.flatMap fun (field, index) =>
        fieldFingerprintValues field (table.spatialFields index)) ++
      [table.spatial.namespaceOid.toUInt64, table.spatial.geometryOid.toUInt64,
        table.spatial.geographyOid.toUInt64, table.spatial.flags.toUInt64,
        table.spatialFormat.code.toUInt64])

/-- The identity of the connection, hashed. -/
def connectionIdentityHash (arguments : TableArguments) : UInt64 :=
  cacheHash arguments.identityFingerprint

/-- `(uint64_t)relation->kind` -/
def RelationKind.code : RelationKind → ℕ
  | .table => 0
  | .partitionedTable => 1
  | .view => 2
  | .materializedView => 3
  | .foreignTable => 4
  | .inheritanceParent => 5
  | .partition => 6
  | .sequence => 7
  | .composite => 8
  | .toast => 9
  | .index => 10
  | .unsupported => 11

/-- `(uint64_t)policy->write_policy` -/
def RelationWritePolicy.code : RelationWritePolicy → ℕ
  | .allowed => 0
  | .noKey => 1
  | .sourceReadOnly => 2
  | .inheritanceUnsafe => 3
  | .partitionKeyUnproven => 4

/-- The bytes that `relation_policy_fingerprint` is made of. -/
def relationPolicyBytes (metadata : SourceMetadata) : List UInt8 :=
  ([metadata.relation.kind.code, metadata.relation.persistence.toNat,
      metadata.relation.isPartition.toNat, metadata.relation.rowSecurity.toNat,
      metadata.relation.forceRowSecurity.toNat, metadata.policy.writePolicy.code] ++
    metadata.policy.parentOids.map (·.toNat) ++
    metadata.policy.partitionAttributeNumbers.map fun number =>
      (Int32.ofInt number).toUInt32.toNat).flatMap (leBytes 8)

/-- The bytes that the `policy_fingerprint` of a column is made of. -/
def columnPolicyBytes (column : CatalogColumn) : List UInt8 :=
  ([column.notNull.toNat, column.hasDefault.toNat, column.generatedKind.toNat,
      column.identityKind.toNat, column.storageKind.toNat, column.compressionKind.toNat,
      column.domainNotNull.toNat].flatMap (leBytes 8)) ++
    [column.defaultExpressionHash, column.domainDefaultHash, column.domainConstraintHash,
      column.formattedType].flatMap (·.getD [])

/-! ## The snapshot -/

/-- The column of the catalog that a described field is. -/
def catalogColumnOf (metadata : Option SourceMetadata) (field : DescribeField) :
    Option CatalogColumn :=
  metadata.bind fun metadata =>
    if field.originRelationOid = metadata.relation.relationOid then
      metadata.columns.find? fun column =>
        column.attributeNumber == field.originAttributeNumber.toInt
    else none

/-- What the snapshot has of a described field. -/
def snapshotField (metadata : Option SourceMetadata) (field : DescribeField)
    (spatial : SpatialField) :
    MetadataCacheField where
  name := field.name
  typeOid := field.typeOid
  typeModifier := field.typeModifier
  originRelationOid := field.originRelationOid
  originAttributeNumber := field.originAttributeNumber
  spatialSrid := spatial.srid
  collationOid := ((catalogColumnOf metadata field).map (·.collationOid)).getD 0
  policyFingerprint := cacheHash (((catalogColumnOf metadata field).map columnPolicyBytes).getD [])
  spatialKind := spatial.kind
  spatialType := spatial.type.toUInt8
  spatialDimensions := spatial.dimensions.toUInt8

/-- The snapshot before the fields are added. -/
def snapshotHead (nowMs : UInt64) (table : ModuleTable) : MetadataSnapshot where
  visibleCount := table.visibleFieldCount
  sourceFingerprint := table.sourceFingerprint
  layoutFingerprint := vtabSourceFingerprint table
  configurationGeneration := table.arguments.configurationGeneration
  capturedAtMs := nowMs
  validatedAtMs := nowMs
  connectionIdentityHash := connectionIdentityHash table.arguments
  relationOid :=
    match table.metadata with
    | some metadata => metadata.relation.relationOid
    | none => (table.described.head?.map (·.originRelationOid)).getD 0
  relationPolicyFingerprint := cacheHash ((table.metadata.map relationPolicyBytes).getD [])
  spatialNamespaceOid := table.spatial.namespaceOid
  spatialGeometryOid := table.spatial.geometryOid
  spatialGeographyOid := table.spatial.geographyOid
  spatialFlags := table.spatial.flags
  spatialFormat := table.spatialFormat.code
  keyColumns := table.keyColumns

/-- The fields in the order of the description. -/
def snapshotFields (table : ModuleTable) : List MetadataCacheField :=
  table.described.zipIdx.map fun (field, index) =>
    snapshotField table.metadata field (table.spatialFields index)

/-- One round of the loop over the fields; a field that cannot be added is taken for a lack of
memory. -/
def snapshotAdd (granted : ℕ → Bool) (snapshot : MetadataSnapshot) (field : MetadataCacheField) :
    Except ConnectError MetadataSnapshot :=
  match snapshotAddField (granted snapshot.fields.length) snapshot field with
  | .error _ => .error .nomem
  | .ok snapshot => .ok snapshot

/-- **`vps_table_snapshot_build`**; `granted` says of every field whether its name could be
stored. -/
def tableSnapshotBuild (granted : ℕ → Bool) (nowMs : UInt64) (table : ModuleTable) :
    Except ConnectError MetadataSnapshot := do
  let snapshot ← (snapshotFields table).foldlM (snapshotAdd granted) (snapshotHead nowMs table)
  if snapshot.Valid then .ok snapshot else .error .corrupt

end Vps
