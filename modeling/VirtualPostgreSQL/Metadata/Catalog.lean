import VirtualPostgreSQL.Dml.Policy

/-!
# Metadata/Catalog — what the rows of the catalog say of a relation

The catalog is read as texts.  `vps_relation_metadata_resolve` and `vps_column_set_build` turn the
rows of the first two queries into the relation and its columns.  No allocation fails here.
-/

namespace Vps

open Machinery

/-! ## Row sets -/

/-- `VpsMetadataRowSet`: rows of one width, of cells that are NULL or a text. -/
structure MetadataRowSet where
  fieldCount : ℕ
  rows : List (List (Option (List UInt8)))
  width : ∀ row ∈ rows, row.length = fieldCount

/-- `VpsMetadataResult`, the failures. -/
inductive MetadataError
  | invalidArgument | invalidState | invalidResult | limitExceeded | outOfMemory | notFound
  | unsupported
  deriving DecidableEq, Repr

/-- `vps_metadata_rowset_cell`, in a row that has the field. -/
def metadataCell (row : List (Option (List UInt8))) (field : ℕ) : Option (List UInt8) :=
  row.getD field none

/-! ## Texts of the catalog -/

/-- `VPS_METADATA_NAME_MAX_BYTES` -/
def metadataNameMaxBytes : ℕ := 255

/-- `VPS_METADATA_MAX_CELL_BYTES` -/
def metadataMaxCellBytes : ℕ := 1024 * 1024

/-- `VPS_METADATA_MAX_TOTAL_BYTES` -/
def metadataMaxTotalBytes : ℕ := 16 * 1024 * 1024

/-- One round of the loops over digits. -/
def metadataDigit (limit result : ℕ) (byte : UInt8) : Option ℕ :=
  if byte < 48 ∨ byte > 57 then none
  else
    let digit := (byte - 48).toNat
    if result > (limit - digit) / 10 then none else some (result * 10 + digit)

/-- `vps_metadata_parse_uint32` -/
def metadataParseUint32 (value : List UInt8) : Option UInt32 :=
  if value.length = 0 ∨ value.length > 10 then none
  else (value.foldlM (metadataDigit (2 ^ 32 - 1)) 0).map (·.toUInt32)

/-- `vps_metadata_parse_int32` -/
def metadataParseInt32 (value : List UInt8) : Option ℤ :=
  if value.length = 0 ∨ value.length > 11 then none
  else if value.head? = some 45 then
    if value.length = 1 then none
    else (value.tail.foldlM (metadataDigit (2 ^ 31)) 0).map fun magnitude => -(magnitude : ℤ)
  else (value.foldlM (metadataDigit (2 ^ 31 - 1)) 0).map fun magnitude => (magnitude : ℤ)

/-- `vps_metadata_parse_bool` -/
def metadataParseBool (value : List UInt8) : Option Bool :=
  if value = ascii "t" ∨ value = ascii "true" then some true
  else if value = ascii "f" ∨ value = ascii "false" then some false
  else none

/-- `vps_metadata_char` -/
def metadataChar (allowEmpty : Bool) (value : List UInt8) : Option UInt8 :=
  match value with
  | [] => if allowEmpty then some 0 else none
  | [byte] => some byte
  | _ => none

/-! ## The relation -/

/-- `VpsRelationMetadata` -/
structure RelationMetadata where
  schemaName : List UInt8
  relationName : List UInt8
  namespaceOid : UInt32
  relationOid : UInt32
  accessMethodOid : UInt32
  kind : RelationKind
  persistence : UInt8
  isPartition : Bool
  hasChildren : Bool
  hasParent : Bool
  rowSecurity : Bool
  forceRowSecurity : Bool
  readable : Bool
  writableCandidate : Bool
  deriving DecidableEq, Repr

/-- `vps_relation_kind_from_catalog` -/
def relationKindFromCatalog (relkind : UInt8) (isPartition hasChildren : Bool) : RelationKind :=
  if isPartition then .partition
  else match relkind with
  | 114 => if hasChildren then .inheritanceParent else .table
  | 112 => .partitionedTable
  | 118 => .view
  | 109 => .materializedView
  | 102 => .foreignTable
  | 83 => .sequence
  | 99 => .composite
  | 116 => .toast
  | 105 | 73 => .index
  | _ => .unsupported

/-- What the kind says of `readable` and `writable_candidate`; other kinds are not supported. -/
def RelationKind.access : RelationKind → Option (Bool × Bool)
  | .table | .partitionedTable | .partition => some (true, true)
  | .view | .materializedView | .foreignTable | .inheritanceParent => some (true, false)
  | _ => none

/-- The letter of a cell that must have one. -/
def metadataLetter (cell : List UInt8) : Option UInt8 := metadataChar false cell

/-- The candidate of `vps_relation_metadata_resolve`, from a row without NULL. -/
def relationOfRow (row : List (Option (List UInt8))) : Option RelationMetadata := do
  let namespaceOid ← metadataParseUint32 (← metadataCell row 0)
  let relationOid ← metadataParseUint32 (← metadataCell row 1)
  let relkind ← metadataLetter (← metadataCell row 2)
  let persistence ← metadataLetter (← metadataCell row 3)
  let isPartition ← metadataParseBool (← metadataCell row 4)
  let rowSecurity ← metadataParseBool (← metadataCell row 5)
  let forceRowSecurity ← metadataParseBool (← metadataCell row 6)
  let hasChildren ← metadataParseBool (← metadataCell row 7)
  let hasParent ← metadataParseBool (← metadataCell row 8)
  let accessMethodOid ← metadataParseUint32 (← metadataCell row 11)
  some {
    schemaName := (metadataCell row 9).getD []
    relationName := (metadataCell row 10).getD []
    namespaceOid, relationOid, accessMethodOid, persistence, isPartition, hasChildren, hasParent
    rowSecurity, forceRowSecurity
    kind := relationKindFromCatalog relkind isPartition hasChildren
    readable := false, writableCandidate := false }

/-- **`vps_relation_metadata_resolve`** -/
def relationMetadataResolve (rowset : MetadataRowSet)
    (expectedSchema expectedRelation : List UInt8) :
    Except MetadataError RelationMetadata :=
  if expectedSchema.length = 0 ∨ expectedRelation.length = 0 ∨
      expectedSchema.length > metadataNameMaxBytes ∨
        expectedRelation.length > metadataNameMaxBytes then
    .error .invalidArgument
  else if rowset.fieldCount ≠ 12 then .error .invalidResult
  else match rowset.rows with
  | [] => .error .notFound
  | [row] =>
    if none ∈ row ∨ metadataCell row 9 ≠ some expectedSchema ∨
        metadataCell row 10 ≠ some expectedRelation then
      .error .invalidResult
    else match relationOfRow row with
    | none => .error .invalidResult
    | some relation =>
      match relation.kind.access with
      | none => .error .unsupported
      | some (readable, writableCandidate) => .ok { relation with readable, writableCandidate }
  | _ => .error .invalidResult

/-! ## The columns -/

/-- `VpsColumnMetadata`, with what the type registry and the writes do not read. -/
structure CatalogColumn extends ColumnMetadata where
  typeModifier : ℤ
  typeNamespaceOid : UInt32
  domainBaseModifier : ℤ
  arrayElementOid : UInt32
  collationOid : UInt32
  originRelationOid : UInt32
  originAttributeNumber : ℤ
  statisticsTarget : ℤ
  collationName : Option (List UInt8)
  defaultExpressionHash : Option (List UInt8)
  domainDefaultHash : Option (List UInt8)
  domainConstraintHash : Option (List UInt8)
  formattedType : Option (List UInt8)
  domainBaseCategory : UInt8
  storageKind : UInt8
  compressionKind : UInt8
  collationProvider : UInt8
  defaultKind : UInt8
  hasDefault : Bool
  domainNotNull : Bool
  domainHasDefault : Bool
  collationDeterministic : Bool
  hasComment : Bool
  deriving DecidableEq, Repr

/-- What a cell says that may be NULL. -/
def metadataOptional {α : Type} (parse : List UInt8 → Option α) (absent : α)
    (cell : Option (List UInt8)) : Option α :=
  match cell with
  | none => some absent
  | some value => parse value

/-- The column of a row of the second query. -/
def columnOfRow (row : List (Option (List UInt8))) : Option CatalogColumn := do
  let attributeNumber ← metadataParseInt32 (← metadataCell row 0)
  let typeOid ← metadataParseUint32 (← metadataCell row 2)
  let typeModifier ← metadataParseInt32 (← metadataCell row 3)
  let typeNamespaceOid ← metadataParseUint32 (← metadataCell row 4)
  let name ← metadataCell row 1
  let typeNamespace ← metadataCell row 5
  let typeName ← metadataCell row 6
  let typeCategory ← metadataLetter (← metadataCell row 7)
  let typeKind ← metadataLetter (← metadataCell row 8)
  let domainBaseOid ← metadataParseUint32 (← metadataCell row 9)
  let domainBaseModifier ← metadataParseInt32 (← metadataCell row 10)
  let arrayElementOid ← metadataParseUint32 (← metadataCell row 11)
  let notNull ← metadataParseBool (← metadataCell row 12)
  let dropped ← metadataParseBool (← metadataCell row 13)
  let hasDefault ← metadataParseBool (← metadataCell row 14)
  let generatedKind ← metadataChar true (← metadataCell row 15)
  let identityKind ← metadataChar true (← metadataCell row 16)
  let collationOid ← metadataParseUint32 (← metadataCell row 17)
  let collationProvider ← metadataOptional metadataLetter 0 (metadataCell row 19)
  let collationDeterministic ← metadataOptional metadataParseBool true (metadataCell row 20)
  let storageKind ← metadataLetter (← metadataCell row 21)
  let compressionKind ← metadataChar true (← metadataCell row 22)
  let statisticsTarget ← metadataParseInt32 (← metadataCell row 23)
  let hasComment ← metadataParseBool (← metadataCell row 24)
  let originRelationOid ← metadataParseUint32 (← metadataCell row 25)
  let originAttributeNumber ← metadataParseInt32 (← metadataCell row 26)
  let domainNotNull ← metadataParseBool (← metadataCell row 27)
  let domainBaseCategory ← metadataOptional metadataLetter 0 (metadataCell row 31)
  let domainBaseKind ← metadataOptional metadataLetter 0 (metadataCell row 32)
  let defaultKind ← metadataChar true (← metadataCell row 34)
  let domainHasDefault ← metadataParseBool (← metadataCell row 35)
  some {
    attributeNumber, typeOid, domainBaseOid
    name := some name, typeNamespace := some typeNamespace, typeName := some typeName
    domainBaseNamespace := metadataCell row 29, domainBaseName := metadataCell row 30
    typeCategory, typeKind, domainBaseKind, generatedKind, identityKind, notNull, dropped
    typeModifier, typeNamespaceOid, domainBaseModifier, arrayElementOid, collationOid
    originRelationOid, originAttributeNumber, statisticsTarget
    collationName := metadataCell row 18
    defaultExpressionHash := metadataCell row 33
    domainDefaultHash := metadataCell row 36
    domainConstraintHash := metadataCell row 37
    formattedType := metadataCell row 38
    domainBaseCategory, storageKind, compressionKind, collationProvider, defaultKind, hasDefault
    domainNotNull, domainHasDefault, collationDeterministic, hasComment }

/-- The cells whose texts a column keeps. -/
def CatalogColumn.texts (column : CatalogColumn) : List (List UInt8) :=
  [column.name, column.typeNamespace, column.typeName, column.domainBaseNamespace,
    column.domainBaseName, column.collationName, column.defaultExpressionHash,
    column.domainDefaultHash, column.domainConstraintHash, column.formattedType].filterMap id

/-- `vps_column_string_append`: the size of the text behind it. -/
def columnStringAppend (size : ℕ) (value : List UInt8) : Except MetadataError ℕ :=
  if value.length > metadataMaxCellBytes ∨ size + value.length > metadataMaxTotalBytes then
    .error .limitExceeded
  else .ok (size + value.length)

/-- One round of the loop over the rows: the size of the text, and the columns so far. -/
def columnSetRow (state : ℕ × List CatalogColumn) (row : List (Option (List UInt8))) :
    Except MetadataError (ℕ × List CatalogColumn) :=
  match columnOfRow row with
  | none => .error .invalidResult
  | some column => do
    let size ← column.texts.foldlM columnStringAppend state.1
    .ok (size, state.2 ++ [column])

/-- **`vps_column_set_build`** -/
def columnSetBuild (rowset : MetadataRowSet) : Except MetadataError (List CatalogColumn) :=
  if rowset.fieldCount ≠ 39 then .error .invalidArgument
  else do
    let (_, columns) ← rowset.rows.foldlM columnSetRow (0, [])
    .ok columns

end Vps
