import VirtualPostgreSQL.Machinery.Wire
import VirtualPostgreSQL.Machinery.Ascii
import VirtualPostgreSQL.Planner.BestIndex

/-!
# Planner/Wire — the plan as text

`xBestIndex` hands the plan to `xFilter` as text, the only thing SQLite carries from one to the
other: the record of the plan as bytes, in hexadecimal.  `PlanRecord` is the C structure with its
fixed-width fields; `planEncode` and `planDecode` are its writer and its reader, each with offsets
and checks of its own.  `CompiledPlan.record` is the structure that holds a compiled plan.
-/

namespace Vps

open Machinery

/-! ## The C structures -/

/-- `VpsPlanConstraint` as it lies in memory. -/
structure PlanConstraintRecord where
  column : Int32
  typeOid : UInt32
  sourceIndex : UInt16
  argumentIndex : UInt16
  flags : UInt16
  operation : UInt8
  valueClass : UInt8
  deriving DecidableEq

/-- `VpsPlanOrderTerm` as it lies in memory. -/
structure PlanOrderRecord where
  column : UInt16
  descending : UInt8
  nullsFirst : UInt8
  deriving DecidableEq

/-- `VpsCompiledPlan` as it lies in memory; an array with its count is a list. -/
structure PlanRecord where
  version : UInt32
  flags : UInt32
  sourceFingerprint : UInt64
  estimatedRows : UInt64
  estimatedCostMilli : UInt64
  projection : List UInt16
  constraints : List PlanConstraintRecord
  orderTerms : List PlanOrderRecord
  argumentCount : UInt16
  selectedIndexPrefix : UInt16
  selectedIndexOrdinal : UInt16
  deriving DecidableEq

/-- The bits of a plan's flags. -/
def PlanFlags.bits (flags : PlanFlags) : UInt32 :=
  (if flags.orderConsumed then 1 else 0) ||| (if flags.unique then 2 else 0) |||
    (if flags.hasRecheck then 4 else 0) ||| (if flags.limitConsumed then 8 else 0) |||
    (if flags.offsetConsumed then 16 else 0)

/-- The bits of a constraint's flags; the compiler sets `VPS_PLAN_CONSTRAINT_EXACT` on every
constraint of a plan. -/
def PlanConstraintFlags.bits (flags : PlanConstraintFlags) : UInt16 :=
  1 ||| (if flags.recheck then 2 else 0) ||| (if flags.in then 4 else 0) |||
    (if flags.key then 8 else 0) ||| (if flags.nullSafe then 16 else 0)

/-- The number of an operator. -/
def PlanOperator.code : PlanOperator → UInt8
  | .eq => 1
  | .ne => 2
  | .lt => 3
  | .le => 4
  | .gt => 5
  | .ge => 6
  | .isNull => 7
  | .isNotNull => 8
  | .in => 9
  | .limit => 10
  | .offset => 11

/-- The number of a value class. -/
def PlanValueClass.code : PlanValueClass → UInt8
  | .unknown => 0
  | .null => 1
  | .integer => 2
  | .real => 3
  | .text => 4
  | .blob => 5

/-- The structure of a plan constraint. -/
def PlanConstraint.record (c : PlanConstraint) : PlanConstraintRecord where
  column := Int32.ofInt c.column
  typeOid := c.typeOid
  sourceIndex := c.sourceIndex.toUInt16
  argumentIndex := c.argumentIndex.toUInt16
  flags := c.flags.bits
  operation := c.operation.code
  valueClass := c.valueClass.code

/-- The structure of an order term. -/
def PlanOrderTerm.record (term : PlanOrderTerm) : PlanOrderRecord where
  column := term.column.toUInt16
  descending := if term.descending then 1 else 0
  nullsFirst := if term.nullsFirst then 1 else 0

/-- **The structure of a compiled plan.** -/
def CompiledPlan.record (plan : CompiledPlan) : PlanRecord where
  version := plan.version.toUInt32
  flags := plan.flags.bits
  sourceFingerprint := plan.sourceFingerprint
  estimatedRows := plan.estimatedRows
  estimatedCostMilli := plan.estimatedCostMilli
  projection := plan.projection.map Nat.toUInt16
  constraints := plan.constraints.map PlanConstraint.record
  orderTerms := plan.orderTerms.map PlanOrderTerm.record
  argumentCount := plan.argumentCount.toUInt16
  selectedIndexPrefix := plan.selectedIndexPrefix.toUInt16
  selectedIndexOrdinal := plan.selectedIndexOrdinal.toUInt16

/-! ## The plan a record holds -/

/-- The flags of a plan, from their bits. -/
def PlanFlags.ofBits (bits : UInt32) : PlanFlags where
  orderConsumed := bits &&& 1 ≠ 0
  unique := bits &&& 2 ≠ 0
  hasRecheck := bits &&& 4 ≠ 0
  limitConsumed := bits &&& 8 ≠ 0
  offsetConsumed := bits &&& 16 ≠ 0

/-- The flags of a constraint, from their bits. -/
def PlanConstraintFlags.ofBits (bits : UInt16) : PlanConstraintFlags where
  recheck := bits &&& 2 ≠ 0
  «in» := bits &&& 4 ≠ 0
  key := bits &&& 8 ≠ 0
  nullSafe := bits &&& 16 ≠ 0

/-- The operator with a number. -/
def PlanOperator.ofCode (code : UInt8) : PlanOperator :=
  match code with
  | 2 => .ne
  | 3 => .lt
  | 4 => .le
  | 5 => .gt
  | 6 => .ge
  | 7 => .isNull
  | 8 => .isNotNull
  | 9 => .in
  | 10 => .limit
  | 11 => .offset
  | _ => .eq

/-- The value class with a number. -/
def PlanValueClass.ofCode (code : UInt8) : PlanValueClass :=
  match code with
  | 1 => .null
  | 2 => .integer
  | 3 => .real
  | 4 => .text
  | 5 => .blob
  | _ => .unknown

/-- The plan constraint that a structure holds. -/
def PlanConstraintRecord.constraint (item : PlanConstraintRecord) : PlanConstraint where
  column := item.column.toInt
  typeOid := item.typeOid
  sourceIndex := item.sourceIndex.toNat
  argumentIndex := item.argumentIndex.toNat
  flags := .ofBits item.flags
  operation := .ofCode item.operation
  valueClass := .ofCode item.valueClass

/-- The order term that a structure holds. -/
def PlanOrderRecord.term (term : PlanOrderRecord) : PlanOrderTerm where
  column := term.column.toNat
  descending := term.descending ≠ 0
  nullsFirst := term.nullsFirst ≠ 0

/-- The plan that a structure holds. -/
def PlanRecord.plan (record : PlanRecord) : CompiledPlan where
  version := record.version.toNat
  flags := .ofBits record.flags
  sourceFingerprint := record.sourceFingerprint
  estimatedRows := record.estimatedRows
  estimatedCostMilli := record.estimatedCostMilli
  projection := record.projection.map UInt16.toNat
  constraints := record.constraints.map PlanConstraintRecord.constraint
  orderTerms := record.orderTerms.map PlanOrderRecord.term
  argumentCount := record.argumentCount.toNat
  selectedIndexPrefix := record.selectedIndexPrefix.toUInt64
  selectedIndexOrdinal := record.selectedIndexOrdinal.toUInt64

/-! ## The sizes -/

/-- `VPS_PLAN_WIRE_MAGIC`. -/
def planWireMagic : UInt32 := 0x31535056

/-- `VPS_PLAN_WIRE_HEADER_BYTES`. -/
def planWireHeaderBytes : ℕ := 48

/-- `VPS_PLAN_WIRE_CONSTRAINT_BYTES`. -/
def planWireConstraintBytes : ℕ := 16

/-- `VPS_PLAN_WIRE_ORDER_BYTES`. -/
def planWireOrderBytes : ℕ := 4

/-- `VPS_PLAN_MAX_WIRE_BYTES`. -/
def planMaxWireBytes : ℕ :=
  planWireHeaderBytes + planMaxColumns * 2 + planMaxConstraints * planWireConstraintBytes +
    planMaxOrderTerms * planWireOrderBytes

/-- `VPS_PLAN_MAX_ACTUAL_ENCODED_BYTES`. -/
def planMaxActualEncodedBytes : ℕ := planMaxWireBytes * 2

/-- `VPS_PLAN_MAX_ENCODED_BYTES`, the limit of the buffer. -/
def planMaxEncodedBytes : ℕ := 65536

/-- The bytes of a plan with so many columns, constraints and order terms. -/
def planWireSize (projectionCount constraintCount orderCount : ℕ) : ℕ :=
  planWireHeaderBytes + projectionCount * 2 + constraintCount * planWireConstraintBytes +
    orderCount * planWireOrderBytes

/-! ## Hexadecimal -/

/-- `vps_plan_hex_digit`, of a value below sixteen. -/
def planHexDigit (value : UInt8) : UInt8 :=
  if value &&& 15 < 10 then 48 + (value &&& 15) else 87 + (value &&& 15)

/-- `vps_plan_hex_value`. -/
def planHexValue (value : UInt8) : Option UInt8 :=
  if 48 ≤ value && value ≤ 57 then some (value - 48)
  else if 97 ≤ value && value ≤ 102 then some (value - 97 + 10)
  else if 65 ≤ value && value ≤ 70 then some (value - 65 + 10)
  else none

/-- The loop of the encoder over the bytes. -/
def planHexEncode (wire : List UInt8) : List UInt8 :=
  wire.flatMap fun (byte : UInt8) => [planHexDigit (byte >>> 4), planHexDigit byte]

/-- The loop of the decoder over the pairs of digits. -/
def planHexDecode : List UInt8 → Option (List UInt8)
  | high :: low :: rest =>
    match planHexValue high, planHexValue low with
    | some high, some low => (planHexDecode rest).map fun wire => (high <<< 4 ||| low) :: wire
    | _, _ => none
  | _ => some []

/-! ## The encoder -/

/-- The fields of the header, in the order of their offsets. -/
def PlanRecord.headerFields (plan : PlanRecord) : List (ℕ × ℕ) :=
  [(4, planWireMagic.toNat), (4, plan.version.toNat), (4, plan.flags.toNat),
    (8, plan.sourceFingerprint.toNat), (8, plan.estimatedRows.toNat),
    (8, plan.estimatedCostMilli.toNat), (2, plan.projection.length),
    (2, plan.constraints.length), (2, plan.orderTerms.length), (2, plan.argumentCount.toNat),
    (2, plan.selectedIndexPrefix.toNat), (2, plan.selectedIndexOrdinal.toNat)]

/-- The fields of a constraint. -/
def PlanConstraintRecord.fields (item : PlanConstraintRecord) : List (ℕ × ℕ) :=
  [(4, item.column.toUInt32.toNat), (4, item.typeOid.toNat), (2, item.sourceIndex.toNat),
    (2, item.argumentIndex.toNat), (2, item.flags.toNat), (1, item.operation.toNat),
    (1, item.valueClass.toNat)]

/-- The fields of an order term. -/
def PlanOrderRecord.fields (term : PlanOrderRecord) : List (ℕ × ℕ) :=
  [(2, term.column.toNat), (1, term.descending.toNat), (1, term.nullsFirst.toNat)]

/-- The bytes of a plan: the header, the projection, the constraints and the order terms. -/
def planWire (plan : PlanRecord) : List UInt8 :=
  fieldBytes plan.headerFields ++
    (plan.projection.flatMap (fun column => leBytes 2 column.toNat) ++
      (plan.constraints.flatMap (fun item => fieldBytes item.fields) ++
        plan.orderTerms.flatMap (fun term => fieldBytes term.fields)))

/-- **`vps_plan_encode`**; `memoryOk` is whether the allocator grants the buffer. -/
def planEncode (plan : PlanRecord) (memoryOk : Bool) : Except PlannerError (List UInt8) :=
  if plan.version.toNat ≠ planFormatVersion || plan.projection.length > planMaxColumns ||
      plan.constraints.length > planMaxConstraints ||
        plan.orderTerms.length > planMaxOrderTerms then
    .error .invalidArgument
  else if (planWireSize plan.projection.length plan.constraints.length plan.orderTerms.length * 2 +
      1 > planMaxEncodedBytes || !memoryOk) then
    .error .outOfMemory
  else .ok (planHexEncode (planWire plan))

/-! ## The decoder -/

/-- `vps_plan_get_u16` at an offset. -/
def planGetU16 (wire : List UInt8) (offset : ℕ) : UInt16 := (leValue (slice wire offset 2)).toUInt16

/-- `vps_plan_get_u32` at an offset. -/
def planGetU32 (wire : List UInt8) (offset : ℕ) : UInt32 := (leValue (slice wire offset 4)).toUInt32

/-- `vps_plan_get_u64` at an offset. -/
def planGetU64 (wire : List UInt8) (offset : ℕ) : UInt64 := (leValue (slice wire offset 8)).toUInt64

/-- The byte at an offset. -/
def planGetU8 (wire : List UInt8) (offset : ℕ) : UInt8 := (leValue (slice wire offset 1)).toUInt8

/-- One round of the projection loop: the column is in range and not a repetition. -/
def planReadColumn (wire : List UInt8) (previous : List UInt16) (offset : ℕ) :
    Except PlannerError UInt16 :=
  let column := planGetU16 wire offset
  if column.toNat ≥ planMaxColumns then .error .invalidPlan
  else if previous.contains column then .error .invalidPlan
  else .ok column

/-- The constraint that lies at an offset. -/
def planConstraintAt (wire : List UInt8) (offset : ℕ) : PlanConstraintRecord where
  column := (planGetU32 wire offset).toInt32
  typeOid := planGetU32 wire (offset + 4)
  sourceIndex := planGetU16 wire (offset + 8)
  argumentIndex := planGetU16 wire (offset + 10)
  flags := planGetU16 wire (offset + 12)
  operation := planGetU8 wire (offset + 14)
  valueClass := planGetU8 wire (offset + 15)

/-- What the decoder refuses in a constraint: unknown flags or operators, an argument beyond the
count, a column out of range, or no column for an operator that needs one. -/
def PlanConstraintRecord.rejected (item : PlanConstraintRecord) (argumentCount : UInt16) : Bool :=
  item.flags &&& ~~~31 ≠ 0 || item.operation < 1 || item.operation > 11 ||
    item.argumentIndex > argumentCount ||
    (item.column < 0 && item.operation ≠ 10 && item.operation ≠ 11) || item.column ≥ 1024

/-- One round of the constraint loop. -/
def planReadConstraint (wire : List UInt8) (argumentCount : UInt16)
    (_ : List PlanConstraintRecord) (offset : ℕ) : Except PlannerError PlanConstraintRecord :=
  if (planConstraintAt wire offset).rejected argumentCount then .error .invalidPlan
  else .ok (planConstraintAt wire offset)

/-- The order term that lies at an offset. -/
def planOrderAt (wire : List UInt8) (offset : ℕ) : PlanOrderRecord where
  column := planGetU16 wire offset
  descending := planGetU8 wire (offset + 2)
  nullsFirst := planGetU8 wire (offset + 3)

/-- What the decoder refuses in an order term. -/
def PlanOrderRecord.rejected (term : PlanOrderRecord) : Bool :=
  term.column.toNat ≥ planMaxColumns || term.descending > 1 || term.nullsFirst > 1

/-- One round of the order loop. -/
def planReadOrder (wire : List UInt8) (_ : List PlanOrderRecord) (offset : ℕ) :
    Except PlannerError PlanOrderRecord :=
  if (planOrderAt wire offset).rejected then .error .invalidPlan else .ok (planOrderAt wire offset)

/-- The three loops of the decoder, with the counts of the header. -/
def planReadTables (wire : List UInt8) (projectionCount constraintCount orderCount : ℕ)
    (argumentCount : UInt16) :
    Except PlannerError (List UInt16 × List PlanConstraintRecord × List PlanOrderRecord) := do
  let offset := planWireHeaderBytes
  let projection ← readRecords 2 (planReadColumn wire) projectionCount offset []
  let offset := offset + projectionCount * 2
  let constraints ← readRecords planWireConstraintBytes (planReadConstraint wire argumentCount)
    constraintCount offset []
  let offset := offset + constraintCount * planWireConstraintBytes
  let orderTerms ← readRecords planWireOrderBytes (planReadOrder wire) orderCount offset []
  return (projection, constraints, orderTerms)

/-- The decoder behind the hexadecimal digits. -/
def planReadWire (wire : List UInt8) (expectedFingerprint : UInt64) :
    Except PlannerError PlanRecord :=
  let projectionCount := planGetU16 wire 36
  let constraintCount := planGetU16 wire 38
  let orderCount := planGetU16 wire 40
  let argumentCount := planGetU16 wire 42
  if planGetU32 wire 0 ≠ planWireMagic then .error .invalidPlan
  else if (planGetU32 wire 4).toNat ≠ planFormatVersion then .error .versionMismatch
  else if planGetU32 wire 8 &&& ~~~31 ≠ 0 then .error .invalidPlan
  else if planGetU64 wire 12 ≠ expectedFingerprint then .error .fingerprintMismatch
  else if projectionCount.toNat > planMaxColumns || constraintCount.toNat > planMaxConstraints ||
      orderCount.toNat > planMaxOrderTerms || argumentCount.toNat > planMaxConstraints then
    .error .limitExceeded
  else if planWireSize projectionCount.toNat constraintCount.toNat orderCount.toNat ≠
    wire.length then
    .error .invalidPlan
  else do
    let (projection, constraints, orderTerms) ← planReadTables wire projectionCount.toNat
      constraintCount.toNat orderCount.toNat argumentCount
    if planGetU64 wire 20 = 0 || planGetU64 wire 28 = 0 ||
        decide (planGetU32 wire 8 &&& 1 ≠ 0) ≠ decide (orderCount ≠ 0) then
      .error .invalidPlan
    else
      .ok {
        version := planGetU32 wire 4
        flags := planGetU32 wire 8
        sourceFingerprint := planGetU64 wire 12
        estimatedRows := planGetU64 wire 20
        estimatedCostMilli := planGetU64 wire 28
        projection := projection
        constraints := constraints
        orderTerms := orderTerms
        argumentCount := argumentCount
        selectedIndexPrefix := planGetU16 wire 44
        selectedIndexOrdinal := planGetU16 wire 46 }

/-- **`vps_plan_decode`.** -/
def planDecode (encoded : List UInt8) (expectedFingerprint : UInt64) :
    Except PlannerError PlanRecord :=
  if encoded.length = 0 || encoded.length > planMaxActualEncodedBytes ||
      encoded.length % 2 ≠ 0 then
    .error .invalidPlan
  else if encoded.length / 2 < planWireHeaderBytes then .error .invalidPlan
  else match planHexDecode encoded with
  | none => .error .invalidPlan
  | some wire => planReadWire wire expectedFingerprint

end Vps
