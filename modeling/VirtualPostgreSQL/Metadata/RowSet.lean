import VirtualPostgreSQL.Metadata.Catalog

/-!
# Metadata/RowSet — rows of the catalog, packed into two buffers

A row set keeps the cells of its rows in one array and their bytes in another.
`vps_metadata_rowset_copy` packs the rows of one answer, `vps_metadata_rowset_append` packs them
behind the rows that are there, in larger arrays.  What is packed is the same for one answer and for
its rows one by one.
-/

namespace Vps

/-! ## Rows that are supplied -/

/-- `VpsCatalogQuery`; an `outside` value is none of the enumeration. -/
inductive CatalogQuery
  | relation | columns | keys | relationPolicy | postgis | relationsFunction | tableInfoFunction
  | indexListFunction | indexInfoFunction | typeInfoFunction | extensionsFunction
  | outside (value : ℤ)
  deriving DecidableEq, Repr

/-- The `result_field_count` of `vps_metadata_catalog_query_spec`. -/
def catalogQueryFieldCount : CatalogQuery → Option ℕ
  | .relation => some 12
  | .columns => some 39
  | .keys => some 16
  | .relationPolicy => some 10
  | .postgis => some 15
  | .relationsFunction => some 23
  | .tableInfoFunction => some 25
  | .indexListFunction => some 16
  | .indexInfoFunction => some 13
  | .typeInfoFunction => some 18
  | .extensionsFunction => some 8
  | .outside _ => none

/-- What the functions of a `VpsMetadataInput` tell of a cell; the value may be missing. -/
inductive MetadataInputCell
  | null
  | missing (length : ℕ)
  | present (bytes : List UInt8)
  deriving DecidableEq, Repr

/-- The bytes of a cell. -/
def MetadataInputCell.bytes : MetadataInputCell → List UInt8
  | present bytes => bytes
  | _ => []

/-- `VpsMetadataInput` -/
structure MetadataInput where
  rowCount : ℕ
  fieldCount : ℕ
  cell : ℕ → ℕ → MetadataInputCell

namespace MetadataInput

/-- The cells, in the order of the loops. -/
def cells (input : MetadataInput) : List MetadataInputCell :=
  (List.range input.rowCount).flatMap fun row => (List.range input.fieldCount).map (input.cell row)

/-- Two answers as one. -/
def append (input input' : MetadataInput) : MetadataInput where
  rowCount := input.rowCount + input'.rowCount
  fieldCount := input'.fieldCount
  cell row field :=
    if row < input.rowCount then input.cell row field else input'.cell (row - input.rowCount) field

end MetadataInput

/-! ## Row sets -/

/-- `VPS_METADATA_MAX_ROWS` -/
def metadataMaxRows : ℕ := 65536

/-- `VPS_METADATA_MAX_FIELDS` -/
def metadataMaxFields : ℕ := 64

/-- `VPS_METADATA_MAX_CELLS` -/
def metadataMaxCells : ℕ := metadataMaxRows * metadataMaxFields

/-- `VpsMetadataCell` -/
structure MetadataPackedCell where
  offset : ℕ
  length : ℕ
  isNull : Bool
  deriving DecidableEq, Repr

/-- `VpsMetadataRowSet`, an initialised one; `bytes` may be missing. -/
structure MetadataPackedRowSet where
  cells : List MetadataPackedCell := []
  bytes : Option (List UInt8) := none
  rowCount : ℕ := 0
  fieldCount : ℕ := 0
  bytesSize : ℕ := 0
  deriving DecidableEq, Repr

/-- Whether the two arrays can be allocated. -/
structure RowSetMemory where
  cells : Bool
  bytes : Bool

/-- The loop that adds the lengths of the cells. -/
def metadataMeasure : ℕ → List MetadataInputCell → Option ℕ
  | total, [] => some total
  | total, .null :: cells => metadataMeasure total cells
  | _, .missing _ :: _ => none
  | total, .present bytes :: cells =>
    if bytes.length > metadataMaxCellBytes ∨ total + bytes.length > metadataMaxTotalBytes then none
    else metadataMeasure (total + bytes.length) cells

/-- The loop that packs the cells, behind the `cells` and `bytes` that are written. -/
def metadataPack (cellCount totalBytes : ℕ) :
    List MetadataPackedCell → List UInt8 → List MetadataInputCell →
      Option (List MetadataPackedCell × List UInt8)
  | cells, bytes, [] => some (cells, bytes)
  | cells, bytes, cell :: rest =>
    if cells.length ≥ cellCount then none
    else
      match cell with
      | .null => metadataPack cellCount totalBytes (cells ++ [⟨bytes.length, 0, true⟩]) bytes rest
      | .missing length =>
        if length ≠ 0 then none
        else metadataPack cellCount totalBytes (cells ++ [⟨bytes.length, 0, false⟩]) bytes rest
      | .present value =>
        if value.length ≠ 0 ∧
            (bytes.length > totalBytes ∨ value.length > totalBytes - bytes.length) then none
        else
          metadataPack cellCount totalBytes (cells ++ [⟨bytes.length, value.length, false⟩])
            (bytes ++ value) rest

/-- `vps_metadata_rowset_copy`; `none` is `VPS_METADATA_OK`. -/
def metadataRowsetCopy (r : MetadataPackedRowSet) (query : CatalogQuery) (input : MetadataInput)
    (memory : RowSetMemory) : Option MetadataError × MetadataPackedRowSet :=
  match catalogQueryFieldCount query with
  | none => (some .invalidArgument, r)
  | some resultFieldCount =>
    if input.fieldCount ≠ resultFieldCount ∨ input.fieldCount > metadataMaxFields ∨
        input.rowCount > metadataMaxRows then (some .invalidResult, r)
    else if input.rowCount * input.fieldCount > metadataMaxCells then (some .limitExceeded, r)
    else
      match metadataMeasure 0 input.cells with
      | none => (some .limitExceeded, r)
      | some totalBytes =>
        if input.rowCount * input.fieldCount ≠ 0 ∧ memory.cells = false ∨
            totalBytes ≠ 0 ∧ memory.bytes = false then (some .outOfMemory, r)
        else
          match metadataPack (input.rowCount * input.fieldCount) totalBytes [] [] input.cells with
          | none => (some .invalidResult, r)
          | some (cells, bytes) =>
            (none, ⟨cells, if totalBytes = 0 then none else some bytes, input.rowCount,
              input.fieldCount, totalBytes⟩)

/-- `vps_metadata_rowset_append`; `none` is `VPS_METADATA_OK`. -/
def metadataRowsetAppend (r : MetadataPackedRowSet) (query : CatalogQuery) (input : MetadataInput)
    (memory : RowSetMemory) : Option MetadataError × MetadataPackedRowSet :=
  match catalogQueryFieldCount query with
  | none => (some .invalidArgument, r)
  | some resultFieldCount =>
    if input.fieldCount ≠ resultFieldCount ∨ input.fieldCount > metadataMaxFields ∨
        r.rowCount ≠ 0 ∧ r.fieldCount ≠ input.fieldCount ∨
        r.rowCount + input.rowCount > metadataMaxRows then (some .invalidResult, r)
    else
      match metadataMeasure 0 input.cells with
      | none => (some .limitExceeded, r)
      | some addedBytes =>
        let totalBytes := r.bytesSize + addedBytes
        let cellCount := (r.rowCount + input.rowCount) * input.fieldCount
        if totalBytes > metadataMaxTotalBytes ∨ cellCount > metadataMaxCells then
          (some .limitExceeded, r)
        else if r.bytesSize ≠ 0 ∧ r.bytes = none ∨ r.cells.length > cellCount ∨
            r.bytesSize > totalBytes then (some .invalidResult, r)
        else if cellCount ≠ 0 ∧ memory.cells = false ∨ totalBytes ≠ 0 ∧ memory.bytes = false then
          (some .outOfMemory, r)
        else
          match metadataPack cellCount totalBytes r.cells (r.bytes.getD []) input.cells with
          | none => (some .invalidResult, r)
          | some (cells, bytes) =>
            (none, ⟨cells, if totalBytes = 0 then none else some bytes, r.rowCount + input.rowCount,
              input.fieldCount, totalBytes⟩)

/-- What `vps_metadata_rowset_cell` tells of a cell; the value may be a null pointer. -/
structure MetadataCellView where
  isNull : Bool
  length : ℕ
  value : Option (List UInt8)
  deriving DecidableEq, Repr

/-- `vps_metadata_rowset_cell` -/
def metadataRowsetCell (r : MetadataPackedRowSet) (row field : ℕ) :
    Except MetadataError MetadataCellView :=
  if row ≥ r.rowCount ∨ field ≥ r.fieldCount then .error .invalidArgument
  else
    match r.cells[row * r.fieldCount + field]? with
    | none => .error .invalidState
    | some cell =>
      if cell.offset > r.bytesSize ∨ cell.length > r.bytesSize - cell.offset then
        .error .invalidState
      else
        .ok ⟨cell.isNull, cell.length,
          if cell.isNull then none
          else r.bytes.map fun bytes => (bytes.drop cell.offset).take cell.length⟩

/-! ## Calls -/

/-- A call of `vps_metadata_rowset_append`. -/
structure RowSetCall where
  query : CatalogQuery
  input : MetadataInput
  memory : RowSetMemory

/-- A call that has to succeed. -/
def rowsetStep (r : MetadataPackedRowSet) (call : RowSetCall) : Option MetadataPackedRowSet :=
  match metadataRowsetAppend r call.query call.input call.memory with
  | (none, r) => some r
  | (some _, _) => none

/-- The query of the last call, with the rows of all. -/
def joinedCall (first : RowSetCall) (rest : List RowSetCall) : RowSetCall :=
  rest.foldl (fun joined call => { call with input := joined.input.append call.input }) first

/-- What is told of a cell is what was supplied for it. -/
def MetadataInputCell.IsReported : MetadataInputCell → MetadataCellView → Prop
  | null, view => view.isNull = true
  | missing _, _ => False
  | present bytes, view => view = ⟨false, bytes.length, some bytes⟩

/-! ## Cells of an answer -/

namespace MetadataInput

theorem length_cells (input : MetadataInput) :
    input.cells.length = input.rowCount * input.fieldCount := by
  simp [cells, List.length_flatMap]

/-- The cell of a row and a field. -/
theorem getElem?_cells {input : MetadataInput} {row field : ℕ} (hrow : row < input.rowCount)
    (hfield : field < input.fieldCount) :
    input.cells[row * input.fieldCount + field]? = some (input.cell row field) := by
  obtain ⟨rowCount, fieldCount, cell⟩ := input
  simp only [cells] at *
  induction rowCount generalizing row with
  | zero => exact absurd hrow (Nat.not_lt_zero _)
  | succ n ih =>
    have hlength :
      ((List.range n).flatMap fun row => (List.range fieldCount).map (cell row)).length =
        n * fieldCount := by simp [List.length_flatMap]
    rw [List.range_succ, List.flatMap_append, List.flatMap_singleton]
    rcases Nat.lt_succ_iff_lt_or_eq.mp hrow with hrow | rfl
    · have hlt : row * fieldCount + field < n * fieldCount := by
        calc row * fieldCount + field < (row + 1) * fieldCount := by rw [Nat.succ_mul]; omega
          _ ≤ n * fieldCount := Nat.mul_le_mul_right _ hrow
      rw [List.getElem?_append_left (hlength ▸ hlt), ih hrow]
    · rw [List.getElem?_append_right (by omega), hlength, Nat.add_sub_cancel_left,
        List.getElem?_map, List.getElem?_range hfield]
      rfl

/-- The cells of two answers of one width, or of one behind nothing. -/
theorem cells_append {input input' : MetadataInput}
    (h : input.rowCount ≠ 0 → input.fieldCount = input'.fieldCount) :
    (input.append input').cells = input.cells ++ input'.cells := by
  have hwidth : input.cells = (List.range input.rowCount).flatMap fun row =>
      (List.range input'.fieldCount).map (input.cell row) := by
    rcases eq_or_ne input.rowCount 0 with hzero | hne
    · simp [cells, hzero]
    · rw [cells, h hne]
  simp only [cells, append, List.range_add, List.flatMap_append, List.flatMap_map] at hwidth ⊢
  rw [hwidth]
  refine congrArg₂ (· ++ ·) ?_ ?_
  · refine List.flatMap_congr fun row hrow => ?_
    simp [List.mem_range.mp hrow]
  · refine List.flatMap_congr fun row _ => ?_
    simp

end MetadataInput

/-! ## What is packed -/

namespace MetadataInputCell

/-- A cell is null. -/
def isNull : MetadataInputCell → Bool
  | null => true
  | _ => false

/-- A cell within the limits. -/
def Fits : MetadataInputCell → Prop
  | null => True
  | missing _ => False
  | present bytes => bytes.length ≤ metadataMaxCellBytes

end MetadataInputCell

/-- The cells of a row set, from an offset on. -/
def packedCells : ℕ → List MetadataInputCell → List MetadataPackedCell
  | _, [] => []
  | offset, cell :: cells =>
    ⟨offset, cell.bytes.length, cell.isNull⟩ :: packedCells (offset + cell.bytes.length) cells

/-- The bytes of a row set. -/
def packedBytes (cells : List MetadataInputCell) : List UInt8 := cells.flatMap (·.bytes)

/-- The row set of some cells. -/
def packedRowSet (rowCount fieldCount : ℕ) (cells : List MetadataInputCell) :
    MetadataPackedRowSet where
  cells := packedCells 0 cells
  bytes := if (packedBytes cells).length = 0 then none else some (packedBytes cells)
  rowCount
  fieldCount
  bytesSize := (packedBytes cells).length

section Packing

variable {cells cells' : List MetadataInputCell}

theorem packedBytes_cons (cell : MetadataInputCell) (cells : List MetadataInputCell) :
    packedBytes (cell :: cells) = cell.bytes ++ packedBytes cells := List.flatMap_cons

theorem packedBytes_append :
    packedBytes (cells ++ cells') = packedBytes cells ++ packedBytes cells' := List.flatMap_append

theorem length_packedCells {offset : ℕ} : (packedCells offset cells).length = cells.length := by
  induction cells generalizing offset with
  | nil => rfl
  | cons cell cells ih => exact congrArg (· + 1) ih

theorem packedCells_append {offset : ℕ} :
    packedCells offset (cells ++ cells') =
      packedCells offset cells ++ packedCells (offset + (packedBytes cells).length) cells' := by
  induction cells generalizing offset with
  | nil => rfl
  | cons cell cells ih =>
    rw [List.cons_append, packedCells, ih, packedBytes_cons, List.length_append, Nat.add_assoc]
    rfl

/-- A cell knows its bytes. -/
theorem getElem?_packedCells (offset : ℕ) {index : ℕ} {cell : MetadataInputCell}
    (h : cells[index]? = some cell) :
    (packedCells offset cells)[index]? =
      some ⟨offset + (packedBytes (cells.take index)).length, cell.bytes.length, cell.isNull⟩ := by
  induction cells generalizing offset index with
  | nil => cases h
  | cons first cells ih =>
    cases index with
    | zero =>
      cases h
      rfl
    | succ index =>
      rw [List.getElem?_cons_succ] at h
      rw [packedCells, List.getElem?_cons_succ, ih _ h, List.take_succ_cons, packedBytes_cons,
        List.length_append, Nat.add_assoc]

/-- The bytes of a cell lie between those of the cells before and behind it. -/
theorem packedBytes_split {index : ℕ} {cell : MetadataInputCell} (h : cells[index]? = some cell) :
    ∃ behind, packedBytes cells = packedBytes (cells.take index) ++ (cell.bytes ++ behind) := by
  obtain ⟨hlt, hget⟩ := List.getElem?_eq_some_iff.mp h
  have hsplit : cells.take index ++ cell :: cells.drop (index + 1) = cells := by
    rw [← hget, List.getElem_cons_drop, List.take_append_drop]
  refine ⟨packedBytes (cells.drop (index + 1)), ?_⟩
  rw [← packedBytes_cons, ← packedBytes_append, hsplit]

/-- The lengths of the cells are added where they all are within the limits. -/
theorem metadataMeasure_eq_some {total sum : ℕ} (htotal : total ≤ metadataMaxTotalBytes) :
    metadataMeasure total cells = some sum ↔
      (∀ cell ∈ cells, cell.Fits) ∧ sum = total + (packedBytes cells).length ∧
        sum ≤ metadataMaxTotalBytes := by
  induction cells generalizing total with
  | nil =>
    simp only [metadataMeasure, Option.some.injEq, List.not_mem_nil, false_implies, implies_true,
      true_and, packedBytes, List.flatMap_nil, List.length_nil, Nat.add_zero]
    exact ⟨fun h => ⟨h.symm, h ▸ htotal⟩, fun h => h.1.symm⟩
  | cons cell cells ih =>
    rw [packedBytes_cons, List.length_append, List.forall_mem_cons]
    cases cell with
    | null => simpa [metadataMeasure, MetadataInputCell.Fits,
      MetadataInputCell.bytes] using ih htotal
    | missing => simp [metadataMeasure, MetadataInputCell.Fits]
    | present bytes =>
      rw [metadataMeasure, MetadataInputCell.Fits, MetadataInputCell.bytes]
      split
      next hlimit =>
        refine ⟨fun h => absurd h (Option.some_ne_none sum).symm, ?_⟩
        rintro ⟨⟨hcell, -⟩, rfl, hsum⟩
        omega
      next hlimit =>
        rw [ih (by omega)]
        constructor
        · rintro ⟨hcells, rfl, hsum⟩
          exact ⟨⟨by omega, hcells⟩, by omega, hsum⟩
        · rintro ⟨⟨-, hcells⟩, rfl, hsum⟩
          exact ⟨hcells, by omega, hsum⟩

/-- Cells that fit are packed behind those that are written. -/
theorem metadataPack_eq {cellCount totalBytes : ℕ} {written : List MetadataPackedCell}
    {bytes : List UInt8} (hfits : ∀ cell ∈ cells, cell.Fits)
    (hcells : written.length + cells.length ≤ cellCount)
    (hbytes : bytes.length + (packedBytes cells).length ≤ totalBytes) :
    metadataPack cellCount totalBytes written bytes cells =
      some (written ++ packedCells bytes.length cells, bytes ++ packedBytes cells) := by
  induction cells generalizing written bytes with
  | nil => simp [metadataPack, packedCells, packedBytes]
  | cons cell cells ih =>
    obtain ⟨hcell, hrestFits⟩ := List.forall_mem_cons.mp hfits
    rw [packedBytes_cons, List.length_append] at hbytes
    rw [List.length_cons] at hcells
    have hroom : ¬written.length ≥ cellCount := by omega
    have hnext : (written ++ [(⟨bytes.length, cell.bytes.length, cell.isNull⟩ :
        MetadataPackedCell)]).length + cells.length ≤ cellCount := by
      rw [List.length_append, List.length_singleton]
      omega
    cases cell with
    | null =>
      have hrest := ih hrestFits hnext (show bytes.length + _ ≤ _ by omega)
      rw [metadataPack, if_neg hroom]
      simpa [packedCells, packedBytes_cons, MetadataInputCell.bytes, MetadataInputCell.isNull]
        using hrest
    | missing => exact absurd hcell id
    | present value =>
      rw [MetadataInputCell.bytes] at hbytes
      have hrest := ih hrestFits hnext
        (show (bytes ++ value).length + _ ≤ _ by rw [List.length_append]; omega)
      rw [metadataPack, if_neg hroom]
      rw [if_neg (by omega)]
      simpa [packedCells, packedBytes_cons, MetadataInputCell.bytes, MetadataInputCell.isNull]
        using hrest

end Packing

/-! ## What a call leaves -/

/-- An answer within the limits of a row set. -/
structure RowSetFits (query : CatalogQuery) (input : MetadataInput) : Prop where
  query : catalogQueryFieldCount query = some input.fieldCount
  fields : input.fieldCount ≤ metadataMaxFields
  rows : input.rowCount ≤ metadataMaxRows
  count : input.rowCount * input.fieldCount ≤ metadataMaxCells
  cells : ∀ cell ∈ input.cells, cell.Fits
  bytes : (packedBytes input.cells).length ≤ metadataMaxTotalBytes

/-- The row set of an answer. -/
def MetadataInput.rowSet (input : MetadataInput) : MetadataPackedRowSet :=
  packedRowSet input.rowCount input.fieldCount input.cells

/-- `vps_metadata_rowset_copy`, where the memory is there. -/
theorem metadataRowsetCopy_eq {query : CatalogQuery} {input : MetadataInput}
    (h : RowSetFits query input) (r : MetadataPackedRowSet) :
    metadataRowsetCopy r query input ⟨true, true⟩ = (none, input.rowSet) := by
  have hlimits : ¬(input.fieldCount ≠ input.fieldCount ∨ input.fieldCount > metadataMaxFields ∨
      input.rowCount > metadataMaxRows) := by
    have hfields := h.fields
    have hrows := h.rows
    omega
  have hcount : ¬input.rowCount * input.fieldCount > metadataMaxCells := Nat.not_lt.mpr h.count
  have hmeasure : metadataMeasure 0 input.cells = some (packedBytes input.cells).length :=
    (metadataMeasure_eq_some (Nat.zero_le _)).mpr ⟨h.cells, (Nat.zero_add _).symm, h.bytes⟩
  have hpack :
    metadataPack (input.rowCount * input.fieldCount) (packedBytes input.cells).length [] []
      input.cells = some ([] ++ packedCells 0 input.cells, [] ++ packedBytes input.cells) :=
    metadataPack_eq h.cells ((Nat.zero_add _).trans_le input.length_cells.le) (Nat.zero_add _).le
  simp only [metadataRowsetCopy, h.query, if_neg hlimits, if_neg hcount, hmeasure, hpack,
    Bool.true_eq_false, and_false, or_self, if_false, List.nil_append]
  rfl

/-- What a call of `vps_metadata_rowset_append` has checked and packed when it succeeds. -/
theorem metadataRowsetAppend_ok {query : CatalogQuery} {next : MetadataInput}
    {memory : RowSetMemory}
    {r r' : MetadataPackedRowSet} (h : metadataRowsetAppend r query next memory = (none, r')) :
    catalogQueryFieldCount query = some next.fieldCount ∧ next.fieldCount ≤ metadataMaxFields ∧
      (r.rowCount ≠ 0 → r.fieldCount = next.fieldCount) ∧
      r.rowCount + next.rowCount ≤ metadataMaxRows ∧
      ∃ addedBytes, metadataMeasure 0 next.cells = some addedBytes ∧
        r.bytesSize + addedBytes ≤ metadataMaxTotalBytes ∧
        (r.rowCount + next.rowCount) * next.fieldCount ≤ metadataMaxCells ∧
        ∃ cells bytes,
          metadataPack ((r.rowCount + next.rowCount) * next.fieldCount) (r.bytesSize + addedBytes)
            r.cells (r.bytes.getD []) next.cells = some (cells, bytes) ∧
          r' = ⟨cells, if r.bytesSize + addedBytes = 0 then none else some bytes,
            r.rowCount + next.rowCount, next.fieldCount, r.bytesSize + addedBytes⟩ := by
  revert h
  unfold metadataRowsetAppend
  dsimp only
  split
  next => exact fun h => by cases h
  next resultFieldCount hquery =>
  split
  next => exact fun h => by cases h
  next hlimits =>
  split
  next => exact fun h => by cases h
  next addedBytes hmeasure =>
  split
  next => exact fun h => by cases h
  next htotal =>
  split
  next => exact fun h => by cases h
  next hstate =>
  split
  next => exact fun h => by cases h
  next hmemory =>
  split
  next => exact fun h => by cases h
  next cells bytes hpack =>
    rintro ⟨⟩
    simp only [not_or, not_and, ne_eq, not_not, not_lt] at hlimits htotal
    obtain ⟨hspec, hfields, hwidth, hrows⟩ := hlimits
    exact ⟨hspec ▸ hquery, hfields, hwidth, hrows, addedBytes, hmeasure, htotal.1, htotal.2, cells,
      bytes, hpack, rfl⟩

/-- `vps_metadata_rowset_append` behind an answer. -/
theorem metadataRowsetAppend_eq {query : CatalogQuery} {input next : MetadataInput}
    {memory : RowSetMemory} {r : MetadataPackedRowSet} (hinput : ∀ cell ∈ input.cells, cell.Fits)
    (h : metadataRowsetAppend input.rowSet query next memory = (none, r)) :
    RowSetFits query (input.append next) ∧ r = (input.append next).rowSet := by
  obtain ⟨hquery, hfields, hwidth, hrows, addedBytes, hmeasure, hbytes, hcount, cells, bytes, hpack,
    rfl⟩ := metadataRowsetAppend_ok h
  have hcells : (input.append next).cells = input.cells ++ next.cells :=
    MetadataInput.cells_append hwidth
  obtain ⟨hfits, rfl, -⟩ := (metadataMeasure_eq_some (Nat.zero_le _)).mp hmeasure
  rw [Nat.zero_add] at hpack hbytes ⊢
  have hlength : (packedCells 0 input.cells).length + next.cells.length ≤
      (input.rowCount + next.rowCount) * next.fieldCount := by
    rw [length_packedCells, ← List.length_append, ← hcells]
    exact (input.append next).length_cells.le
  have hpacked : input.rowSet.bytes.getD [] = packedBytes input.cells := by
    simp only [MetadataInput.rowSet, packedRowSet]
    split
    next hempty => exact (List.length_eq_zero_iff.mp hempty).symm
    next => rfl
  have hsize : input.rowSet.bytesSize = (packedBytes input.cells).length := rfl
  have hwritten : metadataPack ((input.rowCount + next.rowCount) * next.fieldCount)
      ((packedBytes input.cells).length + (packedBytes next.cells).length)
      (packedCells 0 input.cells) (packedBytes input.cells) next.cells =
        some (packedCells 0 (input.append next).cells, packedBytes (input.append next).cells) := by
    rw [metadataPack_eq hfits hlength le_rfl, hcells, packedCells_append, packedBytes_append,
      Nat.zero_add]
  rw [hpacked, hsize] at hpack
  rw [hsize] at hbytes
  obtain ⟨rfl, rfl⟩ := Prod.mk.inj (Option.some.inj (hwritten.symm.trans hpack))
  have htotal : (packedBytes input.cells).length + (packedBytes next.cells).length =
      (packedBytes (input.append next).cells).length := by
    rw [hcells, packedBytes_append, List.length_append]
  constructor
  · refine ⟨hquery, hfields, hrows, hcount, ?_, htotal ▸ hbytes⟩
    rw [hcells]
    exact List.forall_mem_append.mpr ⟨hinput, hfits⟩
  · rw [hsize, htotal]
    rfl

/-! ## Runs -/

theorem metadataRowsetAppend_refused (r : MetadataPackedRowSet) (call : RowSetCall)
    (h : (metadataRowsetAppend r call.query call.input call.memory).1 ≠ none) :
    (metadataRowsetAppend r call.query call.input call.memory).2 = r := by
  revert h
  unfold metadataRowsetAppend
  dsimp only
  repeat' split
  all_goals first | exact fun _ => rfl | exact fun h => absurd rfl h

/-- The row set of no rows is the initial one. -/
def noRows : MetadataInput := ⟨0, 0, fun _ _ => .null⟩

theorem noRows_append (input : MetadataInput) : noRows.append input = input := by
  simp [noRows, MetadataInput.append]

/-- A call that succeeds leaves the row set with its rows behind the others. -/
theorem rowsetStep_eq {call : RowSetCall} {r : MetadataPackedRowSet} {input : MetadataInput}
    (hinput : ∀ cell ∈ input.cells, cell.Fits) (h : rowsetStep input.rowSet call = some r) :
    RowSetFits call.query (input.append call.input) ∧ r = (input.append call.input).rowSet := by
  rw [rowsetStep] at h
  split at h
  next r' happend =>
    cases h
    exact metadataRowsetAppend_eq hinput happend
  next => cases h

/-- Calls that succeed leave the row set of all their rows. -/
theorem foldlM_rowsetStep {joined : RowSetCall} {rest : List RowSetCall} {r : MetadataPackedRowSet}
    (hfits : RowSetFits joined.query joined.input)
    (h : rest.foldlM rowsetStep joined.input.rowSet = some r) :
    RowSetFits (joinedCall joined rest).query (joinedCall joined rest).input ∧
      r = (joinedCall joined rest).input.rowSet := by
  induction rest generalizing joined with
  | nil =>
    cases h
    exact ⟨hfits, rfl⟩
  | cons call rest ih =>
    rw [List.foldlM_cons, Option.bind_eq_bind, Option.bind_eq_some_iff] at h
    obtain ⟨next, hstep, hrest⟩ := h
    obtain ⟨hnext, rfl⟩ := rowsetStep_eq hfits.cells hstep
    exact @ih { call with input := joined.input.append call.input } hnext hrest

theorem foldlM_rowsetStep_first {first : RowSetCall} {rest : List RowSetCall}
    {r : MetadataPackedRowSet} (h : (first :: rest).foldlM rowsetStep {} = some r) :
    RowSetFits (joinedCall first rest).query (joinedCall first rest).input ∧
      r = (joinedCall first rest).input.rowSet := by
  rw [List.foldlM_cons, Option.bind_eq_bind, Option.bind_eq_some_iff] at h
  obtain ⟨next, hstep, hrest⟩ := h
  have hnone : ∀ cell ∈ noRows.cells, cell.Fits := by simp [noRows, MetadataInput.cells]
  have hfirst := rowsetStep_eq hnone hstep
  rw [noRows_append] at hfirst
  obtain ⟨hfits, rfl⟩ := hfirst
  exact foldlM_rowsetStep hfits hrest

/-! ## What is told of the cells -/

/-- A present empty cell needs a byte of some cell to point to. -/
def EmptyCellsPoint (input : MetadataInput) : Prop :=
  .present [] ∈ input.cells → ∃ value ≠ [], .present value ∈ input.cells

/-- What is told of the cells of a row set is what was supplied for them. -/
def ReportsCells (input : MetadataInput) (r : MetadataPackedRowSet) : Prop :=
  ∀ row < input.rowCount, ∀ field < input.fieldCount, ∃ view,
    metadataRowsetCell r row field = .ok view ∧ (input.cell row field).IsReported view

section Report

variable {input : MetadataInput}

/-- What `vps_metadata_rowset_cell` tells: the pointer is null where there are no bytes at all. -/
theorem metadataRowsetCell_eq {row field : ℕ} (hrow : row < input.rowCount)
    (hfield : field < input.fieldCount) :
    metadataRowsetCell input.rowSet row field =
      .ok ⟨(input.cell row field).isNull, (input.cell row field).bytes.length,
        if (input.cell row field).isNull ∨ packedBytes input.cells = [] then none
        else some (input.cell row field).bytes⟩ := by
  have hcell := MetadataInput.getElem?_cells hrow hfield
  obtain ⟨behind, hbytes⟩ := packedBytes_split hcell
  have hrange : ¬(row ≥ input.rowSet.rowCount ∨ field ≥ input.rowSet.fieldCount) := by
    rintro (h | h)
    · exact absurd hrow (Nat.not_lt.mpr h)
    · exact absurd hfield (Nat.not_lt.mpr h)
  have hpacked : input.rowSet.cells[row * input.rowSet.fieldCount + field]? =
      some ⟨0 + (packedBytes (input.cells.take (row * input.fieldCount + field))).length,
        (input.cell row field).bytes.length, (input.cell row field).isNull⟩ :=
    getElem?_packedCells 0 hcell
  have hsize : input.rowSet.bytesSize = (packedBytes input.cells).length := rfl
  have hpointer : input.rowSet.bytes =
      if (packedBytes input.cells).length = 0 then none else some (packedBytes input.cells) := rfl
  rw [metadataRowsetCell, if_neg hrange, hpacked]
  generalize input.cells.take (row * input.fieldCount + field) = before at hbytes
  generalize input.cell row field = cell at hbytes
  simp only [hsize, hpointer, hbytes, Nat.zero_add]
  rw [if_neg (by rw [List.length_append, List.length_append]; omega)]
  by_cases hnull : cell.isNull
  · simp [hnull]
  · by_cases hempty : packedBytes before ++ (cell.bytes ++ behind) = []
    · simp [hnull, hempty]
    · rw [if_neg hnull, if_neg (mt List.length_eq_zero_iff.mp hempty),
        if_neg (not_or.mpr ⟨hnull, hempty⟩), Option.map_some, List.drop_left, List.take_left]

theorem packedBytes_eq_nil_iff {cells : List MetadataInputCell} :
    packedBytes cells = [] ↔ ∀ cell ∈ cells, cell.bytes = [] := by
  simp [packedBytes]

theorem mem_cells {cell : MetadataInputCell} :
    cell ∈ input.cells ↔
      ∃ row < input.rowCount, ∃ field < input.fieldCount, input.cell row field = cell := by
  simp [MetadataInput.cells]

theorem reportsCells_iff (hfits : ∀ cell ∈ input.cells, cell.Fits) :
    ReportsCells input input.rowSet ↔ EmptyCellsPoint input := by
  constructor
  · intro h hempty
    obtain ⟨row, hrow, field, hfield, hcell⟩ := mem_cells.mp hempty
    obtain ⟨view, hview, hreported⟩ := h row hrow field hfield
    rw [metadataRowsetCell_eq hrow hfield, hcell] at hview
    rw [hcell] at hreported
    cases hview
    have hbytes : packedBytes input.cells ≠ [] := fun hnil => by
      simp [MetadataInputCell.IsReported, hnil] at hreported
    rw [Ne, packedBytes_eq_nil_iff] at hbytes
    push Not at hbytes
    obtain ⟨cell, hmem, hne⟩ := hbytes
    cases cell with
    | null => exact absurd rfl hne
    | missing => exact absurd rfl hne
    | present value => exact ⟨value, hne, hmem⟩
  · intro h row hrow field hfield
    refine ⟨_, metadataRowsetCell_eq hrow hfield, ?_⟩
    have hmem := mem_cells.mpr ⟨row, hrow, field, hfield, rfl⟩
    have hfit := hfits _ hmem
    generalize input.cell row field = cell at hmem hfit
    cases cell with
    | null => rfl
    | missing => exact absurd hfit id
    | present value =>
      have hbytes : packedBytes input.cells ≠ [] := by
        rw [Ne, packedBytes_eq_nil_iff]
        intro hnil
        obtain rfl : value = [] := hnil _ hmem
        obtain ⟨other, hne, hother⟩ := h hmem
        exact hne (hnil _ hother)
      simp [MetadataInputCell.IsReported, MetadataInputCell.isNull, MetadataInputCell.bytes, hbytes]

end Report

/-- **Rows one by one.**  Calls that succeed leave what `vps_metadata_rowset_copy` makes of all
their rows, and what is told of the cells is what was supplied for them, if and only if a present
empty cell does not stand among cells without any byte; and a call that fails leaves the row set as
it is. -/
theorem rowset_appends (first : RowSetCall) (rest : List RowSetCall) (r : MetadataPackedRowSet)
    (h : (first :: rest).foldlM rowsetStep {} = some r) :
    let joined := joinedCall first rest
    ((∀ r₀, metadataRowsetCopy r₀ joined.query joined.input ⟨true, true⟩ = (none, r)) ∧
        ReportsCells joined.input r ↔ EmptyCellsPoint joined.input) ∧
      ∀ (r₀ : MetadataPackedRowSet) (call : RowSetCall),
        (metadataRowsetAppend r₀ call.query call.input call.memory).1 ≠ none →
          (metadataRowsetAppend r₀ call.query call.input call.memory).2 = r₀ := by
  obtain ⟨hfits, rfl⟩ := foldlM_rowsetStep_first h
  refine ⟨?_, metadataRowsetAppend_refused⟩
  rw [reportsCells_iff hfits.cells, and_iff_right fun r₀ => metadataRowsetCopy_eq hfits r₀]

/-- An extension with one and the same text in all of its cells. -/
def extensionsCall (value : List UInt8) : RowSetCall where
  query := .extensionsFunction
  input := ⟨1, 8, fun _ _ => .present value⟩
  memory := ⟨true, true⟩

/-- Empty texts are told where a byte follows. -/
theorem rowset_appends_two :
    ∃ r, [extensionsCall [], extensionsCall [65]].foldlM rowsetStep {} = some r ∧
    ReportsCells (joinedCall (extensionsCall []) [extensionsCall [65]]).input r :=
  ⟨_, rfl, ((rowset_appends (extensionsCall []) [extensionsCall [65]] _ rfl).1.mpr fun _ =>
    ⟨[65], List.cons_ne_nil _ _, mem_cells.mpr ⟨1, by decide, 0, by decide, rfl⟩⟩).2⟩

/-- **Empty texts alone are told with null pointers.** -/
theorem rowset_empty_texts : ∃ r, [extensionsCall []].foldlM rowsetStep {} = some r ∧
    ¬ReportsCells (joinedCall (extensionsCall []) []).input r := by
  refine ⟨_, rfl, fun h => ?_⟩
  obtain ⟨view, hview, hreported⟩ := h 0 (by decide) 0 (by decide)
  cases hview
  cases hreported

end Vps
