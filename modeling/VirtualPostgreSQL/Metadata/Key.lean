import VirtualPostgreSQL.Metadata.Catalog
import VirtualPostgreSQL.Machinery.Lists

/-!
# Metadata/Key — which key names a row, and whether rows may be written

`vps_key_discover` looks at the indexes of a relation for a key that names one row;
`vps_relation_policy_build` decides with it whether the relation may be written.
-/

namespace Vps

open Machinery

/-! ## Lists of attributes -/

/-- `vps_key_uint32` -/
def keyUint32 : List UInt8 → Option UInt32 := metadataParseUint32

/-- `vps_key_bool` -/
def keyBool : List UInt8 → Option Bool := metadataParseBool

/-- `vps_policy_uint32` -/
def policyUint32 : List UInt8 → Option UInt32 := metadataParseUint32

/-- `vps_policy_bool` -/
def policyBool : List UInt8 → Option Bool := metadataParseBool

/-- A word of a list of attributes: digits of a number that is not zero. -/
def attributeNumber (word : List UInt8) : Option ℤ :=
  match word.foldlM (metadataDigit (2 ^ 31 - 1)) 0 with
  | some (number + 1) => some (number + 1 : ℕ)
  | _ => none

/-- The numbers of a list of attributes, which spaces separate. -/
def attributeNumbers (value : List UInt8) : Option (List ℤ) :=
  ((value.splitOn 32).filter (· ≠ [])).mapM attributeNumber

/-- `vps_key_attribute_list`: included columns may follow those of the key. -/
def keyAttributeList (value : List UInt8) (expectedCount : ℕ) : Option (List ℤ) :=
  (attributeNumbers value).bind fun attributes =>
    if attributes.length ≥ expectedCount then some (attributes.take expectedCount) else none

/-- `vps_policy_attributes` -/
def policyAttributes (value : List UInt8) (expected : ℕ) : Option (List ℤ) :=
  (attributeNumbers value).bind fun attributes =>
    if attributes.length = expected then some attributes else none

/-! ## The key -/

/-- `VpsKeyMetadata` -/
structure KeyMetadata where
  source : KeySource
  indexOid : UInt32
  attributeNumbers : List ℤ
  nullsNotDistinct : Bool
  readOnly : Bool
  deriving DecidableEq, Repr

/-- A row of the third query. -/
structure IndexRow where
  indexOid : UInt32
  primary : Bool
  unique : Bool
  valid : Bool
  ready : Bool
  immediate : Bool
  isPartial : Bool
  expression : Bool
  nullsNotDistinct : Bool
  keyCount : ℕ
  totalCount : ℕ
  attributes : List UInt8
  deferrable : Bool
  deriving DecidableEq, Repr

/-- What `vps_key_discover` reads of a row. -/
def indexOfRow (row : List (Option (List UInt8))) : Option IndexRow := do
  let indexOid ← keyUint32 (← metadataCell row 0)
  let primary ← keyBool (← metadataCell row 1)
  let unique ← keyBool (← metadataCell row 2)
  let valid ← keyBool (← metadataCell row 3)
  let ready ← keyBool (← metadataCell row 4)
  let immediate ← keyBool (← metadataCell row 5)
  let isPartial ← keyBool (← metadataCell row 6)
  let expression ← keyBool (← metadataCell row 7)
  let nullsNotDistinct ← keyBool (← metadataCell row 8)
  let keyCount ← keyUint32 (← metadataCell row 9)
  let totalCount ← keyUint32 (← metadataCell row 10)
  let attributes ← metadataCell row 11
  let deferrable ← metadataOptional keyBool false (metadataCell row 12)
  if keyCount = 0 ∨ keyCount.toNat > metadataMaxKeyColumns ∨ totalCount < keyCount then none
  else some {
    indexOid, primary, unique, valid, ready, immediate, isPartial, expression, nullsNotDistinct
    keyCount := keyCount.toNat, totalCount := totalCount.toNat, attributes, deferrable }

/-- `vps_key_column` -/
def keyColumn (columns : List CatalogColumn) (number : ℤ) : Option CatalogColumn :=
  columns.find? fun column => column.attributeNumber == number

/-- What `all_not_null` is behind the loop over the columns of a key. -/
def keyAllNotNull (columns : List CatalogColumn) : List ℤ → Bool
  | [] => true
  | number :: rest =>
    match keyColumn columns number with
    | none => false
    | some column =>
      if column.dropped then false
      else (column.notNull || column.domainNotNull) && keyAllNotNull columns rest

/-- The row is that of an index whose keys are unique in every row of the table, at once. -/
def IndexRow.Usable (row : IndexRow) : Prop :=
  row.unique ∧ row.valid ∧ row.ready ∧ row.immediate ∧ ¬row.isPartial ∧ ¬row.expression ∧
    ¬row.deferrable

/-- An index row is usable by its own fields. -/
instance (row : IndexRow) : Decidable row.Usable :=
  inferInstanceAs (Decidable (_ ∧ _ ∧ _ ∧ _ ∧ _ ∧ _ ∧ _))

/-- The key of an index that `vps_key_discover` does not pass over. -/
def IndexRow.key (columns : List CatalogColumn) (row : IndexRow) : Option KeyMetadata :=
  if ¬row.Usable then none
  else match keyAttributeList row.attributes row.keyCount with
  | none => none
  | some attributes =>
    if !keyAllNotNull columns attributes && !row.nullsNotDistinct then none
    else some {
      source := if row.primary then .primary else .unique
      indexOid := row.indexOid
      attributeNumbers := attributes
      nullsNotDistinct := row.nullsNotDistinct
      readOnly := false }

/-- The rank of a key; a key that was not found has none. -/
def KeyMetadata.rank (key : KeyMetadata) : ℕ :=
  match key.source with
  | .primary => 2
  | .unique => 1
  | _ => 0

/-- The key before the loop. -/
def keyNone : KeyMetadata := ⟨.none, 0, [], false, true⟩

/-- The comparison at the end of a round. -/
def keyBetter (best key : KeyMetadata) : KeyMetadata :=
  if key.rank < best.rank ∨ (key.rank = best.rank ∧ best.indexOid < key.indexOid) then best else key

/-- One round of the loop over the indexes. -/
def keyDiscoverRow (columns : List CatalogColumn) (best : KeyMetadata)
    (row : List (Option (List UInt8))) : Except MetadataError KeyMetadata :=
  match indexOfRow row with
  | none => .error .invalidResult
  | some index =>
    match index.key columns with
    | none => .ok best
    | some key => .ok (keyBetter best key)

/-- The key that the user names. -/
def keyExplicit (columns : List CatalogColumn) (explicit : List ℤ) :
    Except MetadataError KeyMetadata :=
  if explicit.all fun number =>
      (keyColumn columns number).any (fun column => !column.dropped) && decide (0 < number) then
    .ok ⟨.explicit, 0, explicit, false, false⟩
  else .error .invalidArgument

/-- **`vps_key_discover`** -/
def keyDiscover (indexRows : MetadataRowSet) (columns : List CatalogColumn) (explicit : List ℤ)
    (explicitValidated : Bool) : Except MetadataError KeyMetadata :=
  if indexRows.fieldCount ≠ 16 ∨ explicit.length > metadataMaxKeyColumns then
    .error .invalidArgument
  else do
    let best ← indexRows.rows.foldlM (keyDiscoverRow columns) keyNone
    if best.rank = 0 ∧ explicit ≠ [] ∧ explicitValidated then keyExplicit columns explicit
    else .ok best

/-! ## The policy -/

/-- `VpsRelationPolicyMetadata` -/
structure RelationPolicyMetadata where
  parentOids : List UInt32
  partitionAttributeNumbers : List ℤ
  partitionStrategy : UInt8
  rowSecurity : Bool
  forceRowSecurity : Bool
  zeroRowsAmbiguous : Bool
  writePolicy : RelationWritePolicy
  deriving DecidableEq, Repr

/-- What every row of the fourth query repeats of the relation. -/
def policyRowAgrees (relation : RelationMetadata) (row : List (Option (List UInt8))) : Bool :=
  (metadataCell row 0).bind policyUint32 == some relation.relationOid &&
    ((metadataCell row 1).bind metadataLetter).isSome &&
    (metadataCell row 2).bind policyBool == some relation.isPartition &&
    (metadataCell row 3).bind policyBool == some relation.rowSecurity &&
    (metadataCell row 4).bind policyBool == some relation.forceRowSecurity &&
    ((metadataCell row 9).bind policyBool).isSome

/-- The parent of a row. -/
def policyParent (policy : RelationPolicyMetadata) (row : List (Option (List UInt8))) :
    Except MetadataError RelationPolicyMetadata :=
  match metadataCell row 5 with
  | some value =>
    match policyUint32 value with
    | none => .error .limitExceeded
    | some parent =>
      if policy.parentOids.length ≥ metadataMaxKeyColumns ∨ parent = 0 then .error .limitExceeded
      else .ok { policy with parentOids := policy.parentOids ++ [parent] }
  | none =>
    if (metadataCell row 9).bind policyBool = some true then .error .invalidResult else .ok policy

/-- The partition key of a row. -/
def policyPartition (policy : RelationPolicyMetadata) (row : List (Option (List UInt8))) :
    Except MetadataError RelationPolicyMetadata :=
  match metadataCell row 6 with
  | none => .ok policy
  | some strategy =>
    let partition := do
      let strategy ← metadataLetter strategy
      let count ← policyUint32 (← metadataCell row 7)
      let attributes ← policyAttributes (← metadataCell row 8) count.toNat
      if count.toNat > metadataMaxKeyColumns then none else some (strategy, attributes)
    match partition with
    | none => .error .invalidResult
    | some (partitionStrategy, partitionAttributeNumbers) =>
      .ok { policy with partitionStrategy, partitionAttributeNumbers }

/-- One round of the loop over the rows of the policy. -/
def policyRow (relation : RelationMetadata) (policy : RelationPolicyMetadata)
    (row : List (Option (List UInt8))) : Except MetadataError RelationPolicyMetadata :=
  if !policyRowAgrees relation row then .error .invalidResult
  else policyParent policy row >>= fun policy => policyPartition policy row

/-- What is decided behind the loop. -/
def writePolicyOf (relation : RelationMetadata) (key : KeyMetadata) (partitionAttributes : List ℤ) :
    RelationWritePolicy :=
  if key.readOnly ∨ key.source = .none then .noKey
  else if relation.kind = .inheritanceParent then .inheritanceUnsafe
  else if !relation.writableCandidate then .sourceReadOnly
  else if relation.kind = .partitionedTable then
    if partitionAttributes = [] ∨ ¬∀ number ∈ partitionAttributes, number ∈ key.attributeNumbers
    then .partitionKeyUnproven
    else .allowed
  else .allowed

/-- **`vps_relation_policy_build`** -/
def relationPolicyBuild (relation : RelationMetadata) (key : KeyMetadata)
    (policyRows : MetadataRowSet) : Except MetadataError RelationPolicyMetadata :=
  if policyRows.fieldCount ≠ 10 ∨ policyRows.rows = [] then .error .invalidArgument
  else do
    let policy ← policyRows.rows.foldlM (policyRow relation)
      ⟨[], [], 0, relation.rowSecurity, relation.forceRowSecurity, relation.rowSecurity,
        .sourceReadOnly⟩
    .ok { policy with writePolicy := writePolicyOf relation key policy.partitionAttributeNumbers }

end Vps
