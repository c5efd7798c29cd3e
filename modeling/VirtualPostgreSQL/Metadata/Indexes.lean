import VirtualPostgreSQL.Machinery.Ascii
import VirtualPostgreSQL.Machinery.Trim
import VirtualPostgreSQL.Metadata.SnapshotCodec

/-!
# Metadata/Indexes — the indexes that a query source declares

`query_indexes` is a list of names with columns, `name=column,column;name=column`.
`vps_query_indexes_parse` reads it against the described columns.
-/

namespace Vps

open Machinery

/-- `VpsQueryIndexesResult`, the failures. -/
inductive QueryIndexesError
  | limitExceeded | invalidSyntax | duplicateName | unknownColumn | duplicateColumn
  deriving DecidableEq, Repr

/-- `VpsQueryIndexDefinition` -/
structure QueryIndexDefinition where
  name : List UInt8
  nameHash : UInt64
  columns : List UInt16
  deriving DecidableEq, Repr

/-- `VPS_QUERY_INDEXES_MAX_BYTES` -/
def queryIndexesMaxBytes : ℕ := 8192

/-- `VPS_QUERY_INDEX_MAX_COUNT` -/
def queryIndexMaxCount : ℕ := 64

/-- `VPS_QUERY_INDEX_MAX_COLUMNS` -/
def queryIndexMaxColumns : ℕ := 32

/-- `VPS_CLIENT_MAX_FIELD_NAME_BYTES` -/
def clientMaxFieldNameBytes : ℕ := 255

/-- `vps_query_name_equal` -/
def queryNameEqual (left right : List UInt8) : Bool := left.map toLower == right.map toLower

/-- `vps_query_name_hash` -/
def queryNameHash (name : List UInt8) : UInt64 :=
  mixAll hashPrime hashOffset (name.map fun byte => (toLower byte).toUInt64)

/-- `vps_query_identifier` -/
def queryIdentifier : List UInt8 → Bool
  | [] => false
  | first :: rest =>
    (first == 95 || isAlpha first || first ≥ 128) &&
      rest.all fun byte => byte == 95 || byte == 36 || isAlnum byte || byte ≥ 128

/-- `vps_query_find_column` -/
def queryFindColumn (described : List (List UInt8)) (name : List UInt8) : Option UInt16 :=
  (described.findIdx? fun field => queryNameEqual name field).map (·.toUInt16)

/-- One round of the loop over the columns of an index. -/
def queryIndexColumn (described : List (List UInt8)) (columns : List UInt16) (cell : List UInt8) :
    Except QueryIndexesError (List UInt16) :=
  let name := trim isSpace cell
  if columns.length ≥ queryIndexMaxColumns then .error .limitExceeded
  else if !queryIdentifier name then .error .invalidSyntax
  else match queryFindColumn described name with
  | none => .error .unknownColumn
  | some column => if column ∈ columns then .error .duplicateColumn else .ok (columns ++ [column])

/-- The cells that the loop over the columns looks at: nothing follows a comma at the end. -/
def queryIndexCells (text : List UInt8) : List (List UInt8) :=
  let cells := text.splitOn 44
  if cells.getLast? = some [] then cells.dropLast else cells

/-- One round of the loop over the indexes. -/
def queryIndexItem (described : List (List UInt8)) (indexes : List QueryIndexDefinition)
    (item : List UInt8) : Except QueryIndexesError (List QueryIndexDefinition) :=
  let name := trim isSpace (item.takeWhile (· ≠ 61))
  let text := (item.dropWhile (· ≠ 61)).drop 1
  if indexes.length ≥ queryIndexMaxCount then .error .limitExceeded
  else if 61 ∉ item ∨ item.head? = some 61 ∨ text = [] then .error .invalidSyntax
  else if name.length > clientMaxFieldNameBytes ∨ !queryIdentifier name then .error .invalidSyntax
  else if indexes.any fun prior => queryNameEqual name prior.name then .error .duplicateName
  else do
    let columns ← (queryIndexCells text).foldlM (queryIndexColumn described) []
    if columns = [] then .error .invalidSyntax
    else .ok (indexes ++ [⟨name, queryNameHash name, columns⟩])

/-- The loop over the items; a separator must not end the text. -/
def queryIndexItems (described : List (List UInt8)) :
    List QueryIndexDefinition → List (List UInt8) →
      Except QueryIndexesError (List QueryIndexDefinition)
  | indexes, [] => .ok indexes
  | indexes, item :: rest => do
    let indexes ← queryIndexItem described indexes item
    if rest = [[]] then .error .invalidSyntax else queryIndexItems described indexes rest

/-- **`vps_query_indexes_parse`**, with the names of the described fields. -/
def queryIndexesParse (definition : List UInt8) (described : List (List UInt8)) :
    Except QueryIndexesError (List QueryIndexDefinition) :=
  if definition = [] then .ok []
  else if definition.length > queryIndexesMaxBytes then .error .limitExceeded
  else queryIndexItems described [] (definition.splitOn 59)

end Vps
