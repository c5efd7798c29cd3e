import VirtualPostgreSQL.Planner.Wire

/-!
# Planner/WireCodec — the writer and the reader of a plan agree

The encoder writes a header of twelve numbers and three tables of records; the decoder reads them at
offsets of its own and checks them.  Every valid record is read back (`planDecode_planEncode`), and
every text that is accepted is written again (`planEncode_of_planDecode`).
-/

namespace Vps

open Machinery

/-! ## Hexadecimal -/

/-- The digits of a byte are read back as its two halves. -/
theorem planHexValue_planHexDigit (byte : UInt8) :
    planHexValue (planHexDigit byte) = some (byte &&& 15) :=
  byte_induction (P := fun byte => planHexValue (planHexDigit byte) = some (byte &&& 15)) 256
    (by decide +kernel) byte byte.toNat_lt

theorem byte_of_halves (byte : UInt8) : (byte >>> 4 &&& 15) <<< 4 ||| (byte &&& 15) = byte :=
  byte_induction (P := fun byte => (byte >>> 4 &&& 15) <<< 4 ||| (byte &&& 15) = byte) 256
    (by decide +kernel) byte byte.toNat_lt

/-- A digit that was read is written in lower case. -/
theorem planHexDigit_of_planHexValue {letter digit : UInt8} (h : planHexValue letter = some digit) :
    digit.toNat < 16 ∧ planHexDigit digit = toLower letter :=
  byte_induction
    (P := fun letter => ∀ digit ∈ planHexValue letter,
      digit.toNat < 16 ∧ planHexDigit digit = toLower letter)
    256 (by decide +kernel) letter letter.toNat_lt digit h

/-- The two halves of a byte that was put together. -/
theorem planHexDigit_halves {high low : UInt8} (hhigh : high.toNat < 16) (hlow : low.toNat < 16) :
    planHexDigit ((high <<< 4 ||| low) >>> 4) = planHexDigit high ∧
      planHexDigit (high <<< 4 ||| low) = planHexDigit low := by
  have hall : ∀ n < 16, ∀ k < 16,
      planHexDigit ((Nat.toUInt8 n <<< (4 : UInt8) ||| Nat.toUInt8 k) >>> (4 : UInt8)) =
          planHexDigit (Nat.toUInt8 n) ∧
        planHexDigit (Nat.toUInt8 n <<< (4 : UInt8) ||| Nat.toUInt8 k) =
          planHexDigit (Nat.toUInt8 k) := by
    decide +kernel
  have := hall high.toNat hhigh low.toNat hlow
  rwa [Nat.toUInt8_eq, Nat.toUInt8_eq, UInt8.ofNat_toNat, UInt8.ofNat_toNat] at this

@[simp] theorem length_planHexEncode (wire : List UInt8) :
    (planHexEncode wire).length = wire.length * 2 := by
  induction wire with
  | nil => rfl
  | cons byte wire ih =>
    rw [planHexEncode, List.flatMap_cons, List.length_append, ← planHexEncode, ih,
      List.length_cons, List.length_cons, List.length_cons, List.length_nil]
    omega

/-- The bytes are read back. -/
theorem planHexDecode_planHexEncode (wire : List UInt8) :
    planHexDecode (planHexEncode wire) = some wire := by
  induction wire with
  | nil => rfl
  | cons byte wire ih =>
    rw [planHexEncode, List.flatMap_cons, ← planHexEncode, List.cons_append, List.cons_append,
      List.nil_append, planHexDecode, planHexValue_planHexDigit, planHexValue_planHexDigit, ih]
    simp only [Option.map_some, byte_of_halves]

/-- The digits are written back, in lower case. -/
theorem planHexEncode_of_planHexDecode :
    ∀ {encoded wire : List UInt8}, encoded.length % 2 = 0 → planHexDecode encoded = some wire →
      planHexEncode wire = encoded.map toLower ∧ wire.length = encoded.length / 2
  | [], _, _, h => by
    cases h
    exact ⟨rfl, rfl⟩
  | [_], _, heven, _ => by cases heven
  | high :: low :: rest, wire, heven, h => by
    rw [planHexDecode] at h
    split at h
    · rename_i high' low' hhigh hlow
      obtain ⟨tail, htail, rfl⟩ := Option.map_eq_some_iff.mp h
      simp only [List.length_cons] at heven ⊢
      obtain ⟨hencode, hlength⟩ := planHexEncode_of_planHexDecode (by omega) htail
      obtain ⟨hhigh', hhighDigit⟩ := planHexDigit_of_planHexValue hhigh
      obtain ⟨hlow', hlowDigit⟩ := planHexDigit_of_planHexValue hlow
      obtain ⟨hfirst, hsecond⟩ := planHexDigit_halves hhigh' hlow'
      refine ⟨?_, by omega⟩
      rw [planHexEncode, List.flatMap_cons, ← planHexEncode, hencode, hfirst, hsecond, hhighDigit,
        hlowDigit]
      rfl
    · cases h

/-! ## Numbers -/

section Numbers

variable (wire : List UInt8) (offset : ℕ)

theorem toNat_planGetU8 : (planGetU8 wire offset).toNat = leValue (slice wire offset 1) := by
  rw [planGetU8, Nat.toUInt8_eq, UInt8.toNat_ofNat']
  exact Nat.mod_eq_of_lt (leValue_slice_lt wire offset 1)

theorem toNat_planGetU16 : (planGetU16 wire offset).toNat = leValue (slice wire offset 2) := by
  rw [planGetU16, Nat.toUInt16_eq, UInt16.toNat_ofNat']
  exact Nat.mod_eq_of_lt (leValue_slice_lt wire offset 2)

theorem toNat_planGetU32 : (planGetU32 wire offset).toNat = leValue (slice wire offset 4) := by
  rw [planGetU32, Nat.toUInt32_eq, UInt32.toNat_ofNat']
  exact Nat.mod_eq_of_lt (leValue_slice_lt wire offset 4)

theorem toNat_planGetU64 : (planGetU64 wire offset).toNat = leValue (slice wire offset 8) := by
  rw [planGetU64, Nat.toUInt64_eq, UInt64.toNat_ofNat']
  exact Nat.mod_eq_of_lt (leValue_slice_lt wire offset 8)

end Numbers

/-- A small number is stored as it is. -/
theorem toNat_toUInt16 {n : ℕ} (h : n < 2 ^ 16) : n.toUInt16.toNat = n := by
  rw [Nat.toUInt16_eq, UInt16.toNat_ofNat', Nat.mod_eq_of_lt h]

/-! ## Valid records -/

/-- **What the decoder asks of a plan.** -/
structure PlanRecord.Valid (plan : PlanRecord) : Prop where
  version : plan.version.toNat = planFormatVersion
  flags : plan.flags &&& ~~~31 = 0
  projection_le : plan.projection.length ≤ planMaxColumns
  constraints_le : plan.constraints.length ≤ planMaxConstraints
  orderTerms_le : plan.orderTerms.length ≤ planMaxOrderTerms
  arguments_le : plan.argumentCount.toNat ≤ planMaxConstraints
  projection : ∀ column ∈ plan.projection, column.toNat < planMaxColumns
  once : plan.projection.Nodup
  constraints : ∀ item ∈ plan.constraints, item.rejected plan.argumentCount = false
  orderTerms : ∀ term ∈ plan.orderTerms, term.rejected = false
  rows : plan.estimatedRows ≠ 0
  cost : plan.estimatedCostMilli ≠ 0
  order : plan.flags &&& 1 ≠ 0 ↔ plan.orderTerms.length ≠ 0

/-! ## The bytes of a record -/

theorem length_headerFields (plan : PlanRecord) :
    (fieldBytes plan.headerFields).length = planWireHeaderBytes := by
  simp [PlanRecord.headerFields, planWireHeaderBytes]

theorem PlanConstraintRecord.length_fields (item : PlanConstraintRecord) :
    (fieldBytes item.fields).length = planWireConstraintBytes := by
  simp [PlanConstraintRecord.fields, planWireConstraintBytes]

theorem PlanOrderRecord.length_fields (term : PlanOrderRecord) :
    (fieldBytes term.fields).length = planWireOrderBytes := by
  simp [PlanOrderRecord.fields, planWireOrderBytes]

theorem length_column (column : UInt16) : (leBytes 2 column.toNat).length = 2 := length_leBytes _ _

theorem length_planWire (plan : PlanRecord) :
    (planWire plan).length = planWireSize plan.projection.length plan.constraints.length
      plan.orderTerms.length := by
  rw [planWire, List.length_append, List.length_append, List.length_append, length_headerFields,
    length_flatMap_of_size length_column,
    length_flatMap_of_size PlanConstraintRecord.length_fields,
    length_flatMap_of_size PlanOrderRecord.length_fields, planWireSize]
  omega

/-- The header is read as it was written. -/
theorem readFields_planWire {plan : PlanRecord} (h : plan.Valid) :
    readFields (planWire plan) 0 [4, 4, 4, 8, 8, 8, 2, 2, 2, 2, 2, 2] = plan.headerFields := by
  have hprojection := h.projection_le
  have hconstraints := h.constraints_le
  have horder := h.orderTerms_le
  rw [planMaxColumns] at hprojection
  rw [planMaxConstraints] at hconstraints
  rw [planMaxOrderTerms] at horder
  refine @readFields_fieldBytes plan.headerFields ?_ [] _
  intro field hfield
  simp only [PlanRecord.headerFields, List.mem_cons, List.not_mem_nil, or_false] at hfield
  rcases hfield with rfl | rfl | rfl | rfl | rfl | rfl | rfl | rfl | rfl | rfl | rfl | rfl
  · decide
  · exact plan.version.toNat_lt
  · exact plan.flags.toNat_lt
  · exact plan.sourceFingerprint.toNat_lt
  · exact plan.estimatedRows.toNat_lt
  · exact plan.estimatedCostMilli.toNat_lt
  · show plan.projection.length < 256 ^ 2
    omega
  · show plan.constraints.length < 256 ^ 2
    omega
  · show plan.orderTerms.length < 256 ^ 2
    omega
  · exact plan.argumentCount.toNat_lt
  · exact plan.selectedIndexPrefix.toNat_lt
  · exact plan.selectedIndexOrdinal.toNat_lt

/-- What the decoder reads in the header of a record. -/
theorem planGet_planWire {plan : PlanRecord} (h : plan.Valid) :
    planGetU32 (planWire plan) 0 = planWireMagic ∧ planGetU32 (planWire plan) 4 = plan.version ∧
      planGetU32 (planWire plan) 8 = plan.flags ∧
      planGetU64 (planWire plan) 12 = plan.sourceFingerprint ∧
      planGetU64 (planWire plan) 20 = plan.estimatedRows ∧
      planGetU64 (planWire plan) 28 = plan.estimatedCostMilli ∧
      planGetU16 (planWire plan) 36 = plan.projection.length.toUInt16 ∧
      planGetU16 (planWire plan) 38 = plan.constraints.length.toUInt16 ∧
      planGetU16 (planWire plan) 40 = plan.orderTerms.length.toUInt16 ∧
      planGetU16 (planWire plan) 42 = plan.argumentCount ∧
      planGetU16 (planWire plan) 44 = plan.selectedIndexPrefix ∧
      planGetU16 (planWire plan) 46 = plan.selectedIndexOrdinal := by
  have hfields := readFields_planWire h
  simp only [readFields, PlanRecord.headerFields, List.cons.injEq, Prod.mk.injEq,
    true_and, and_true, Nat.reduceAdd] at hfields
  obtain ⟨h0, h4, h8, h12, h20, h28, h36, h38, h40, h42, h44, h46⟩ := hfields
  simp only [planGetU16, planGetU32, planGetU64, h0, h4, h8, h12, h20, h28, h36, h38, h40, h42, h44,
    h46]
  simp

/-! ## The tables of a record -/

theorem PlanConstraintRecord.fields_lt (item : PlanConstraintRecord) :
    ∀ field ∈ item.fields, field.2 < 256 ^ field.1 := by
  intro field hfield
  simp only [PlanConstraintRecord.fields, List.mem_cons, List.not_mem_nil, or_false] at hfield
  rcases hfield with rfl | rfl | rfl | rfl | rfl | rfl | rfl
  · exact item.column.toUInt32.toNat_lt
  · exact item.typeOid.toNat_lt
  · exact item.sourceIndex.toNat_lt
  · exact item.argumentIndex.toNat_lt
  · exact item.flags.toNat_lt
  · exact item.operation.toNat_lt
  · exact item.valueClass.toNat_lt

theorem PlanOrderRecord.fields_lt (term : PlanOrderRecord) :
    ∀ field ∈ term.fields, field.2 < 256 ^ field.1 := by
  intro field hfield
  simp only [PlanOrderRecord.fields, List.mem_cons, List.not_mem_nil, or_false] at hfield
  rcases hfield with rfl | rfl | rfl
  · exact term.column.toNat_lt
  · exact term.descending.toNat_lt
  · exact term.nullsFirst.toNat_lt

section Tables

variable {wire : List UInt8} {offset : ℕ}

/-- A column that lies at the offset is read, unless it is a repetition. -/
theorem planReadColumn_eq_ok {column : UInt16} {previous : List UInt16}
    (hslice : slice wire offset 2 = leBytes 2 column.toNat)
    (hcolumn : column.toNat < planMaxColumns) (hfresh : column ∉ previous) :
    planReadColumn wire previous offset = .ok column := by
  have hget : planGetU16 wire offset = column := by
    rw [planGetU16, hslice, leValue_leBytes column.toNat_lt]
    simp
  rw [planReadColumn]
  simp only [hget, ge_iff_le, Nat.not_le.mpr hcolumn, if_false, List.contains_eq_mem, hfresh,
    decide_false, Bool.false_eq_true]

/-- A constraint that lies at the offset. -/
theorem planConstraintAt_of_slice {item : PlanConstraintRecord} (hoffset : offset ≤ wire.length)
    (hslice : slice wire offset planWireConstraintBytes = fieldBytes item.fields) :
    planConstraintAt wire offset = item := by
  rw [← item.length_fields] at hslice
  have hfields := readFields_of_slice item.fields_lt hoffset hslice
  simp only [readFields, PlanConstraintRecord.fields, List.map_cons, List.map_nil, List.cons.injEq,
    Prod.mk.injEq, true_and, and_true, Nat.add_assoc, Nat.reduceAdd] at hfields
  obtain ⟨h0, h4, h8, h10, h12, h14, h15⟩ := hfields
  simp only [planConstraintAt, planGetU8, planGetU16, planGetU32, h0, h4, h8, h10, h12, h14, h15]
  simp

/-- An order term that lies at the offset. -/
theorem planOrderAt_of_slice {term : PlanOrderRecord} (hoffset : offset ≤ wire.length)
    (hslice : slice wire offset planWireOrderBytes = fieldBytes term.fields) :
    planOrderAt wire offset = term := by
  rw [← term.length_fields] at hslice
  have hfields := readFields_of_slice term.fields_lt hoffset hslice
  simp only [readFields, PlanOrderRecord.fields, List.map_cons, List.map_nil, List.cons.injEq,
    Prod.mk.injEq, true_and, and_true, Nat.add_assoc, Nat.reduceAdd] at hfields
  obtain ⟨h0, h2, h3⟩ := hfields
  simp only [planOrderAt, planGetU8, planGetU16, h0, h2, h3]
  simp

/-- A constraint is written back as it lies. -/
theorem fieldBytes_planConstraintAt (hroom : offset + planWireConstraintBytes ≤ wire.length) :
    fieldBytes (planConstraintAt wire offset).fields =
      slice wire offset planWireConstraintBytes := by
  have hfields := @fieldBytes_readFields wire offset [4, 4, 2, 2, 2, 1, 1] hroom
  refine Eq.trans (congrArg fieldBytes ?_) hfields
  simp only [PlanConstraintRecord.fields, planConstraintAt, UInt32.toUInt32_toInt32,
    toNat_planGetU8, toNat_planGetU16, toNat_planGetU32, readFields, Nat.add_assoc, Nat.reduceAdd]

/-- An order term is written back as it lies. -/
theorem fieldBytes_planOrderAt (hroom : offset + planWireOrderBytes ≤ wire.length) :
    fieldBytes (planOrderAt wire offset).fields = slice wire offset planWireOrderBytes := by
  have hfields := @fieldBytes_readFields wire offset [2, 1, 1] hroom
  refine Eq.trans (congrArg fieldBytes ?_) hfields
  simp only [PlanOrderRecord.fields, planOrderAt, toNat_planGetU8, toNat_planGetU16, readFields,
    Nat.add_assoc, Nat.reduceAdd]

/-- A column that was read is written back. -/
theorem leBytes_of_planReadColumn {previous : List UInt16} {column : UInt16}
    (hroom : offset + 2 ≤ wire.length) (h : planReadColumn wire previous offset = .ok column) :
    leBytes 2 column.toNat = slice wire offset 2 := by
  unfold planReadColumn at h
  dsimp only at h
  split at h
  · cases h
  split at h
  · cases h
  cases h
  rw [toNat_planGetU16]
  exact leBytes_leValue_slice hroom

/-- A constraint that was read is written back. -/
theorem fieldBytes_of_planReadConstraint {argumentCount : UInt16}
    {previous : List PlanConstraintRecord} {item : PlanConstraintRecord}
    (hroom : offset + planWireConstraintBytes ≤ wire.length)
    (h : planReadConstraint wire argumentCount previous offset = .ok item) :
    fieldBytes item.fields = slice wire offset planWireConstraintBytes := by
  unfold planReadConstraint at h
  split at h
  · cases h
  cases h
  exact fieldBytes_planConstraintAt hroom

/-- An order term that was read is written back. -/
theorem fieldBytes_of_planReadOrder {previous : List PlanOrderRecord} {term : PlanOrderRecord}
    (hroom : offset + planWireOrderBytes ≤ wire.length)
    (h : planReadOrder wire previous offset = .ok term) :
    fieldBytes term.fields = slice wire offset planWireOrderBytes := by
  unfold planReadOrder at h
  split at h
  · cases h
  cases h
  exact fieldBytes_planOrderAt hroom

end Tables

/-! ## Reading what was written -/

section Read

variable {plan : PlanRecord}

theorem readRecords_projection (h : plan.Valid) :
    readRecords 2 (planReadColumn (planWire plan)) plan.projection.length planWireHeaderBytes [] =
      .ok plan.projection := by
  refine readRecords_eq_ok plan.projection fun before column after hsplit => ?_
  have hslice := slice_record length_column (fieldBytes plan.headerFields)
    (plan.constraints.flatMap (fun item => fieldBytes item.fields) ++
      plan.orderTerms.flatMap (fun term => fieldBytes term.fields)) before after column
  rw [length_headerFields, ← hsplit] at hslice
  refine planReadColumn_eq_ok hslice (h.projection column (by simp [hsplit])) ?_
  have honce := h.once
  rw [hsplit, List.nodup_append] at honce
  exact fun hmem => honce.2.2 column hmem column List.mem_cons_self rfl

theorem readRecords_constraints (h : plan.Valid) :
    readRecords planWireConstraintBytes (planReadConstraint (planWire plan) plan.argumentCount)
      plan.constraints.length (planWireHeaderBytes + plan.projection.length * 2) [] =
        .ok plan.constraints := by
  refine readRecords_eq_ok plan.constraints fun before item after hsplit => ?_
  have hslice := slice_record PlanConstraintRecord.length_fields
    (fieldBytes plan.headerFields ++ plan.projection.flatMap fun column => leBytes 2 column.toNat)
    (plan.orderTerms.flatMap (fun term => fieldBytes term.fields)) before after item
  rw [List.length_append, length_headerFields, length_flatMap_of_size length_column, ← hsplit,
    List.append_assoc] at hslice
  have hlength := length_planWire plan
  have hcount := congrArg List.length hsplit
  rw [List.length_append, List.length_cons] at hcount
  have hoffset : planWireHeaderBytes + plan.projection.length * 2 +
      before.length * planWireConstraintBytes ≤ (planWire plan).length := by
    rw [hlength, planWireSize, hcount]
    simp only [planWireConstraintBytes]
    omega
  rw [planReadConstraint, planConstraintAt_of_slice hoffset hslice,
    h.constraints item (by simp [hsplit])]
  rfl

theorem readRecords_orderTerms (h : plan.Valid) :
    readRecords planWireOrderBytes (planReadOrder (planWire plan)) plan.orderTerms.length
      (planWireHeaderBytes + plan.projection.length * 2 +
        plan.constraints.length * planWireConstraintBytes) [] = .ok plan.orderTerms := by
  refine readRecords_eq_ok plan.orderTerms fun before term after hsplit => ?_
  have hslice := slice_record PlanOrderRecord.length_fields
    (fieldBytes plan.headerFields ++ (plan.projection.flatMap (fun column => leBytes 2 column.toNat)
      ++ plan.constraints.flatMap fun item => fieldBytes item.fields)) [] before after term
  rw [List.length_append, List.length_append, length_headerFields,
    length_flatMap_of_size length_column,
    length_flatMap_of_size PlanConstraintRecord.length_fields, ← hsplit, List.append_nil,
    List.append_assoc, List.append_assoc, ← Nat.add_assoc] at hslice
  have hlength := length_planWire plan
  have hcount := congrArg List.length hsplit
  rw [List.length_append, List.length_cons] at hcount
  have hoffset : planWireHeaderBytes + plan.projection.length * 2 +
      plan.constraints.length * planWireConstraintBytes + before.length * planWireOrderBytes ≤
        (planWire plan).length := by
    rw [hlength, planWireSize, hcount]
    simp only [planWireOrderBytes]
    omega
  rw [planReadOrder, planOrderAt_of_slice hoffset hslice, h.orderTerms term (by simp [hsplit])]
  rfl

/-- **What the encoder writes of a valid record, the decoder reads.** -/
theorem planReadWire_planWire (h : plan.Valid) :
    planReadWire (planWire plan) plan.sourceFingerprint = .ok plan := by
  obtain ⟨h0, h4, h8, h12, h20, h28, h36, h38, h40, h42, h44, h46⟩ := planGet_planWire h
  have hprojection : plan.projection.length.toUInt16.toNat = plan.projection.length :=
    toNat_toUInt16 (lt_of_le_of_lt h.projection_le (by decide))
  have hconstraints : plan.constraints.length.toUInt16.toNat = plan.constraints.length :=
    toNat_toUInt16 (lt_of_le_of_lt h.constraints_le (by decide))
  have horder : plan.orderTerms.length.toUInt16.toNat = plan.orderTerms.length :=
    toNat_toUInt16 (lt_of_le_of_lt h.orderTerms_le (by decide))
  have htables : planReadTables (planWire plan) plan.projection.length plan.constraints.length
      plan.orderTerms.length plan.argumentCount =
        .ok (plan.projection, plan.constraints, plan.orderTerms) := by
    simp only [planReadTables, bind, Except.bind, readRecords_projection h,
      readRecords_constraints h, readRecords_orderTerms h]
    rfl
  have hlimits : ¬(decide (plan.projection.length > planMaxColumns) ||
      decide (plan.constraints.length > planMaxConstraints) ||
      decide (plan.orderTerms.length > planMaxOrderTerms) ||
      decide (plan.argumentCount.toNat > planMaxConstraints)) = true := by
    simp only [Bool.or_eq_true, decide_eq_true_eq, not_or, gt_iff_lt, Nat.not_lt]
    exact ⟨⟨⟨h.projection_le, h.constraints_le⟩, h.orderTerms_le⟩, h.arguments_le⟩
  have hzero : plan.orderTerms.length.toUInt16 ≠ 0 ↔ plan.orderTerms.length ≠ 0 := by
    rw [not_iff_not, ← UInt16.toNat_inj, horder]
    rfl
  have hend : ¬(decide (plan.estimatedRows = 0) || decide (plan.estimatedCostMilli = 0) ||
      decide (decide (plan.flags &&& 1 ≠ 0) ≠ decide (plan.orderTerms.length.toUInt16 ≠ 0))) =
        true := by
    simp only [Bool.or_eq_true, decide_eq_true_eq, not_or]
    exact ⟨⟨h.rows, h.cost⟩, not_not.mpr (decide_eq_decide.mpr (h.order.trans hzero.symm))⟩
  unfold planReadWire
  simp only [h0, h4, h8, h12, h20, h28, h36, h38, h40, h42, h44, h46, hprojection, hconstraints,
    horder]
  rw [if_neg (not_not.mpr rfl), if_neg (not_not.mpr h.version), if_neg (not_not.mpr h.flags),
    if_neg (not_not.mpr rfl), if_neg hlimits, if_neg (not_not.mpr (length_planWire plan).symm),
    htables]
  exact if_neg hend

/-- A valid record is encoded, and decoded with its fingerprint to itself. -/
theorem planDecode_planEncode (h : plan.Valid) :
    planEncode plan true = .ok (planHexEncode (planWire plan)) ∧
      planDecode (planHexEncode (planWire plan)) plan.sourceFingerprint = .ok plan := by
  have hprojection := h.projection_le
  have hconstraints := h.constraints_le
  have horder := h.orderTerms_le
  have hwire : planWireHeaderBytes ≤ (planWire plan).length ∧
      (planWire plan).length ≤ planMaxWireBytes := by
    rw [length_planWire, planWireSize, planMaxWireBytes]
    simp only [planMaxColumns, planMaxConstraints, planMaxOrderTerms, planWireHeaderBytes,
      planWireConstraintBytes, planWireOrderBytes] at *
    omega
  have hmax : planMaxWireBytes = 3248 := rfl
  constructor
  · unfold planEncode
    rw [if_neg, if_neg]
    · have hbuffer : (planWire plan).length * 2 + 1 ≤ planMaxEncodedBytes := by
        rw [planMaxEncodedBytes]
        omega
      rw [← length_planWire]
      simpa using hbuffer
    · simp only [Bool.or_eq_true, decide_eq_true_eq, not_or, ne_eq, not_not, gt_iff_lt, Nat.not_lt]
      exact ⟨⟨⟨h.version, hprojection⟩, hconstraints⟩, horder⟩
  · unfold planDecode
    rw [length_planHexEncode, if_neg, if_neg, planHexDecode_planHexEncode]
    · exact planReadWire_planWire h
    · rw [Nat.mul_div_cancel _ (by decide)]
      exact Nat.not_lt.mpr hwire.1
    · have hheader : planWireHeaderBytes = 48 := rfl
      have hodd : (planWire plan).length * 2 % 2 = 0 := Nat.mul_mod_left _ _
      rw [Bool.or_eq_true, Bool.or_eq_true, decide_eq_true_eq, decide_eq_true_eq, decide_eq_true_eq,
        planMaxActualEncodedBytes]
      omega

end Read

/-! ## Writing what was read -/

section Write

variable {wire : List UInt8} {plan : PlanRecord} {fingerprint : UInt64}

/-- The header is written back as it lies. -/
theorem fieldBytes_header (hroom : planWireHeaderBytes ≤ wire.length)
    (hmagic : planGetU32 wire 0 = planWireMagic) (hversion : planGetU32 wire 4 = plan.version)
    (hflags : planGetU32 wire 8 = plan.flags)
    (hfingerprint : planGetU64 wire 12 = plan.sourceFingerprint)
    (hrows : planGetU64 wire 20 = plan.estimatedRows)
    (hcost : planGetU64 wire 28 = plan.estimatedCostMilli)
    (hprojection : (planGetU16 wire 36).toNat = plan.projection.length)
    (hconstraints : (planGetU16 wire 38).toNat = plan.constraints.length)
    (horder : (planGetU16 wire 40).toNat = plan.orderTerms.length)
    (hargument : planGetU16 wire 42 = plan.argumentCount)
    (hselected : planGetU16 wire 44 = plan.selectedIndexPrefix)
    (hordinal : planGetU16 wire 46 = plan.selectedIndexOrdinal) :
    fieldBytes plan.headerFields = slice wire 0 planWireHeaderBytes := by
  have hfields := @fieldBytes_readFields wire 0 [4, 4, 4, 8, 8, 8, 2, 2, 2, 2, 2, 2]
    (by simpa [planWireHeaderBytes] using hroom)
  refine Eq.trans (congrArg fieldBytes ?_) hfields
  rw [PlanRecord.headerFields, ← hmagic, ← hversion, ← hflags, ← hfingerprint, ← hrows, ← hcost,
    ← hprojection, ← hconstraints, ← horder, ← hargument, ← hselected, ← hordinal]
  simp only [toNat_planGetU16, toNat_planGetU32, toNat_planGetU64, readFields, Nat.reduceAdd]

/-- The tables are written back as they lie. -/
theorem flatMap_of_planReadTables {projectionCount constraintCount orderCount : ℕ}
    {argumentCount : UInt16} {projection : List UInt16} {constraints : List PlanConstraintRecord}
    {orderTerms : List PlanOrderRecord}
    (hsize : planWireSize projectionCount constraintCount orderCount = wire.length)
    (h : planReadTables wire projectionCount constraintCount orderCount argumentCount =
      .ok (projection, constraints, orderTerms)) :
    projection.length = projectionCount ∧ constraints.length = constraintCount ∧
      orderTerms.length = orderCount ∧
      projection.flatMap (fun column => leBytes 2 column.toNat) ++
        (constraints.flatMap (fun item => fieldBytes item.fields) ++
          orderTerms.flatMap (fun term => fieldBytes term.fields)) =
        wire.drop planWireHeaderBytes := by
  unfold planReadTables at h
  obtain ⟨columns, hcolumns, h⟩ := ok_of_bind h
  obtain ⟨items, hitems, h⟩ := ok_of_bind h
  obtain ⟨terms, hterms, h⟩ := ok_of_bind h
  cases h
  rw [planWireSize] at hsize
  obtain ⟨_, rfl, hlength, hbytes⟩ := ok_of_readRecords
    (fun _ _ _ hroom hread => leBytes_of_planReadColumn hroom hread)
    (show planWireHeaderBytes + projectionCount * 2 ≤ wire.length by omega) hcolumns
  obtain ⟨_, rfl, hlength', hbytes'⟩ := ok_of_readRecords
    (fun _ _ _ hroom hread => fieldBytes_of_planReadConstraint hroom hread)
    (show planWireHeaderBytes + projectionCount * 2 + constraintCount * planWireConstraintBytes ≤
      wire.length by omega) hitems
  obtain ⟨_, rfl, hlength'', hbytes''⟩ := ok_of_readRecords
    (fun _ _ _ hroom hread => fieldBytes_of_planReadOrder hroom hread)
    (show planWireHeaderBytes + projectionCount * 2 + constraintCount * planWireConstraintBytes +
      orderCount * planWireOrderBytes ≤ wire.length by omega) hterms
  refine ⟨hlength, hlength', hlength'', ?_⟩
  rw [hbytes, hbytes', hbytes'', ← slice_add, ← slice_add, slice, List.take_of_length_le]
  rw [List.length_drop]
  omega

/-- **What the decoder reads, the encoder writes.** -/
theorem planWire_of_planReadWire (h : planReadWire wire fingerprint = .ok plan) :
    planWire plan = wire ∧ plan.version.toNat = planFormatVersion ∧
      plan.projection.length ≤ planMaxColumns ∧ plan.constraints.length ≤ planMaxConstraints ∧
      plan.orderTerms.length ≤ planMaxOrderTerms := by
  unfold planReadWire at h
  dsimp only at h
  split at h
  · cases h
  rename_i hmagic
  split at h
  · cases h
  rename_i hversion
  split at h
  · cases h
  split at h
  · cases h
  split at h
  · cases h
  rename_i hlimits
  split at h
  · cases h
  rename_i hsize
  obtain ⟨⟨projection, constraints, orderTerms⟩, htables, h⟩ := ok_of_bind h
  dsimp only at h
  split at h
  · cases h
  cases h
  rw [not_not] at hmagic hversion hsize
  simp only [Bool.or_eq_true, decide_eq_true_eq, not_or, gt_iff_lt, Nat.not_lt] at hlimits
  obtain ⟨⟨⟨hprojection, hconstraints⟩, horder⟩, -⟩ := hlimits
  obtain ⟨hp, hc, ho, hbytes⟩ := flatMap_of_planReadTables hsize htables
  have hroom : planWireHeaderBytes ≤ wire.length := by
    rw [← hsize, planWireSize]
    omega
  refine ⟨?_, hversion, hp ▸ hprojection, hc ▸ hconstraints, ho ▸ horder⟩
  rw [planWire, hbytes,
    fieldBytes_header hroom hmagic rfl rfl rfl rfl rfl hp.symm hc.symm ho.symm rfl
    rfl rfl, slice, List.drop_zero, List.take_append_drop]

/-- **Every text the decoder accepts is encoded again, in lower case.** -/
theorem planEncode_of_planDecode {encoded : List UInt8}
    (h : planDecode encoded fingerprint = .ok plan) :
    planEncode plan true = .ok (encoded.map toLower) := by
  unfold planDecode at h
  split at h
  · cases h
  rename_i hlength
  split at h
  · cases h
  split at h
  · cases h
  rename_i wire hwire
  simp only [Bool.or_eq_true, decide_eq_true_eq, not_or, ne_eq, not_not, gt_iff_lt,
    Nat.not_lt] at hlength
  obtain ⟨⟨-, hmax⟩, heven⟩ := hlength
  obtain ⟨hencode, hbytes⟩ := planHexEncode_of_planHexDecode heven hwire
  obtain ⟨hplan, hversion, hprojection, hconstraints, horder⟩ := planWire_of_planReadWire h
  have hbuffer : (planWire plan).length * 2 + 1 ≤ planMaxEncodedBytes := by
    have hactual : planMaxActualEncodedBytes = 6496 := rfl
    rw [hplan, hbytes, planMaxEncodedBytes]
    omega
  unfold planEncode
  rw [if_neg, if_neg, hplan, hencode]
  · rw [← length_planWire]
    simpa using hbuffer
  · simp only [Bool.or_eq_true, decide_eq_true_eq, not_or, ne_eq, not_not, gt_iff_lt, Nat.not_lt]
    exact ⟨⟨⟨hversion, hprojection⟩, hconstraints⟩, horder⟩

end Write

end Vps
