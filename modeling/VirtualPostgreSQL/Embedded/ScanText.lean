import VirtualPostgreSQL.Embedded.ScanSql

/-!
# Embedded/ScanText — the text of a scan as a whole

The text of a request (`scanText`) is far below the limit of the buffer, so that the builder writes
it: every fragment has the length that stands beside it, but for the direction of a descending term,
which is cut to ` DES`.
-/

namespace Vps

open Machinery

variable {α : Type} {database : EmbeddedDatabase} {request : EmbeddedScanRequest α}

/-! ## The text -/

/-- A column of the projection. -/
def projectionText (entry : ℕ × ℕ) : List UInt8 :=
  (if entry.2 ≠ 0 then ascii "," else []) ++ columnName entry.1

/-- A constraint. -/
def constraintText (entry : EmbeddedConstraint α × ℕ) : List UInt8 :=
  (if entry.2 = 0 then ascii " WHERE " else ascii " AND ") ++ columnName entry.1.column ++
    embeddedOperatorSql entry.1.operation

/-- A term of the order. -/
def orderText (entry : EmbeddedOrderTerm × ℕ) : List UInt8 :=
  (if entry.2 ≠ 0 then ascii "," else []) ++ columnName entry.1.column ++
    (if entry.1.descending then ascii " DES" else ascii " ASC")

/-- The index hint. -/
def indexHintText (selectedIndex : Option ℕ) : List UInt8 :=
  match selectedIndex with
  | none => []
  | some index => ascii " INDEXED BY vps_idx_" ++ decimal index

/-- The order. -/
def orderByText (orderTerms : List EmbeddedOrderTerm) : List UInt8 :=
  if orderTerms = [] then [] else ascii " ORDER BY " ++ orderTerms.zipIdx.flatMap orderText

/-- LIMIT. -/
def limitText (limit offset : Option UInt64) : List UInt8 :=
  match limit with
  | some limit => ascii " LIMIT " ++ decimal limit.toNat
  | none => if offset.isSome then ascii " LIMIT -1" else []

/-- OFFSET. -/
def offsetText (offset : Option UInt64) : List UInt8 :=
  match offset with
  | some offset => ascii " OFFSET " ++ decimal offset.toNat
  | none => []

/-- The text of a request. -/
def scanText (request : EmbeddedScanRequest α) (explain : Bool) : List UInt8 :=
  (if explain then ascii "EXPLAIN QUERY PLAN " else []) ++ ascii "SELECT " ++
    request.projection.zipIdx.flatMap projectionText ++ ascii " FROM vps_snapshot" ++
    indexHintText request.selectedIndex ++ request.constraints.zipIdx.flatMap constraintText ++
    orderByText request.orderTerms ++ limitText request.limit request.offset ++
    offsetText request.offset

/-! ## The limit is not reached -/

/-- Texts of at most `k` bytes, one for each entry, are no longer than `k` for each. -/
theorem length_flatMap_le {β : Type} {text : β → List UInt8} {k : ℕ} :
    ∀ {l : List β}, (∀ b ∈ l, (text b).length ≤ k) → (l.flatMap text).length ≤ l.length * k
  | [], _ => Nat.zero_le _
  | b :: l, h => by
    have hfirst := h b List.mem_cons_self
    have hrest := length_flatMap_le fun b' hb' => h b' (List.mem_cons_of_mem _ hb')
    rw [List.flatMap_cons, List.length_append, List.length_cons, Nat.succ_mul]
    omega

/-- A column is named by `c` and a number of at most four digits. -/
theorem length_columnName_le {column : ℕ} (h : column < database.columnCount) :
    (columnName column).length ≤ 5 := by
  have hlt : column < 10 ^ 4 := by
    have := database.columnCount_le
    rw [embeddedMaxColumns] at this
    omega
  have hdigits := length_decimal_le (by decide) hlt
  have hletter : (ascii "c").length = 1 := rfl
  rw [columnName, List.length_append]
  omega

/-- A 64-bit number has at most twenty digits. -/
theorem length_decimal_toNat_le (n : UInt64) : (decimal n.toNat).length ≤ 20 :=
  length_decimal_le (by decide) (n.toNat_lt.trans (by decide))

theorem length_decimal_index_le {index : ℕ} (h : index < database.indexCount) :
    (decimal index).length ≤ 2 := by
  refine length_decimal_le (by decide) ?_
  have := database.indexCount_le
  rw [embeddedMaxIndexes] at this
  omega

/-- A part of a text is written while the whole text has room. -/
theorem embeddedSqlAppend_eq {sql text : List UInt8} {length : ℕ}
    (h : sql.length + length ≤ embeddedSqlLimit) :
    embeddedSqlAppend sql text length = some (sql ++ text.take length) :=
  if_neg (Nat.not_lt.mpr h)

/-- **A number that fits into the scratch buffer and the text** is appended whole. -/
theorem embeddedSqlNumber_eq {sql before : List UInt8} {value : ℕ}
    (hshort : (before ++ decimal value).length < 48)
    (h : sql.length + (before ++ decimal value).length ≤ embeddedSqlLimit) :
    embeddedSqlNumber sql before value = some (sql ++ (before ++ decimal value)) := by
  unfold embeddedSqlNumber
  dsimp only
  rw [if_pos hshort, embeddedSqlAppend_eq h, List.take_length]

/-- The name of a column is written. -/
theorem embeddedSqlNumber_columnName {sql : List UInt8} {column : ℕ}
    (hcolumn : column < database.columnCount)
    (h : sql.length + (columnName column).length ≤ embeddedSqlLimit) :
    embeddedSqlNumber sql (ascii "c") column = some (sql ++ columnName column) := by
  have := length_columnName_le hcolumn
  rw [columnName] at this h
  exact embeddedSqlNumber_eq (by omega) h

/-- A loop that writes a text in every round. -/
theorem foldlM_write {β : Type} {f : List UInt8 → β → Option (List UInt8)} {text : β → List UInt8}
    {l : List β}
    (hstep : ∀ b ∈ l, ∀ sql : List UInt8, sql.length + (text b).length ≤ embeddedSqlLimit →
      f sql b = some (sql ++ text b)) {sql : List UInt8}
    (h : sql.length + (l.flatMap text).length ≤ embeddedSqlLimit) :
    l.foldlM f sql = some (sql ++ l.flatMap text) := by
  induction l generalizing sql with
  | nil => simp
  | cons b l ih =>
    rw [List.flatMap_cons, List.length_append] at h
    rw [List.foldlM_cons, hstep b List.mem_cons_self sql (by omega), Option.bind_eq_bind,
      Option.bind_some, ih (fun b' hb' => hstep b' (List.mem_cons_of_mem _ hb'))
        (by rw [List.length_append]; omega), List.flatMap_cons, List.append_assoc]

theorem mem_of_mem_zipIdx' {β : Type} {l : List β} {entry : β × ℕ} (h : entry ∈ l.zipIdx) :
    entry.1 ∈ l := List.mem_of_getElem? (List.mem_zipIdx_iff_getElem?.mp h)

section Writing

variable {sql : List UInt8}

/-- A column that fits is appended with its comma. -/
theorem buildProjection_eq {entry : ℕ × ℕ} (hcolumn : entry.1 < database.columnCount)
    (h : sql.length + (projectionText entry).length ≤ embeddedSqlLimit) :
    buildProjection database sql entry = some (sql ++ projectionText entry) := by
  unfold buildProjection
  rw [if_neg (Nat.not_le.mpr hcolumn)]
  rw [projectionText, List.length_append] at h
  by_cases hfirst : entry.2 ≠ 0
  · rw [if_pos hfirst] at h ⊢
    have hcomma : (ascii ",").length = 1 := rfl
    rw [embeddedSqlAppend_eq (by omega), Option.bind_eq_bind, Option.bind_some]
    dsimp only
    rw [embeddedSqlNumber_columnName hcolumn (by rw [List.length_append, List.length_take]; omega),
      projectionText, if_pos hfirst, List.append_assoc]
    rfl
  · rw [if_neg hfirst] at h ⊢
    rw [List.length_nil] at h
    rw [Option.bind_eq_bind, Option.bind_some]
    dsimp only
    rw [embeddedSqlNumber_columnName hcolumn (by omega), projectionText, if_neg hfirst,
      List.nil_append]

/-- A constraint that fits is appended with its operator and its placeholder. -/
theorem buildConstraint_eq {entry : EmbeddedConstraint α × ℕ}
    (hcolumn : entry.1.column < database.columnCount)
    (h : sql.length + (constraintText entry).length ≤ embeddedSqlLimit) :
    buildConstraint database sql entry = some (sql ++ constraintText entry) := by
  have hword : ((if entry.2 = 0 then ascii " WHERE " else ascii " AND ").take
      (if entry.2 = 0 then 7 else 5)) = if entry.2 = 0 then ascii " WHERE " else ascii " AND " := by
    split <;> rfl
  have hlength : (if entry.2 = 0 then ascii " WHERE " else ascii " AND ").length =
      if entry.2 = 0 then 7 else 5 := by
    split <;> rfl
  unfold buildConstraint
  rw [if_neg (Nat.not_le.mpr hcolumn)]
  rw [constraintText, List.length_append, List.length_append, hlength] at h
  rw [embeddedSqlAppend_eq (by omega), hword, Option.bind_eq_bind, Option.bind_some,
    embeddedSqlNumber_columnName hcolumn (by rw [List.length_append, hlength]; omega),
    Option.bind_some]
  rw [embeddedSqlAppend_eq (by rw [List.length_append, List.length_append, hlength]; omega),
    List.take_length, constraintText]
  simp only [List.append_assoc]

/-- An order term that fits is appended with its direction. -/
theorem buildOrderTerm_eq {entry : EmbeddedOrderTerm × ℕ}
    (hcolumn : entry.1.column < database.columnCount)
    (h : sql.length + (orderText entry).length ≤ embeddedSqlLimit) :
    buildOrderTerm database sql entry = some (sql ++ orderText entry) := by
  have hcut : ((if entry.1.descending then ascii " DESC" else ascii " ASC").take 4) =
      if entry.1.descending then ascii " DES" else ascii " ASC" := by
    split <;> rfl
  have hlength : (if entry.1.descending then ascii " DES" else ascii " ASC").length = 4 := by
    split <;> rfl
  unfold buildOrderTerm
  rw [if_neg (Nat.not_le.mpr hcolumn)]
  rw [orderText, List.length_append, List.length_append, hlength] at h
  by_cases hfirst : entry.2 ≠ 0
  · have hcomma : (ascii ",").length = 1 := rfl
    rw [if_pos hfirst] at h ⊢
    rw [embeddedSqlAppend_eq (by omega), Option.bind_eq_bind, Option.bind_some]
    dsimp only
    rw [embeddedSqlNumber_columnName hcolumn (by rw [List.length_append, List.length_take]; omega),
      Option.bind_some]
    rw [embeddedSqlAppend_eq
        (by rw [List.length_append, List.length_append, List.length_take]; omega), hcut, orderText,
      if_pos hfirst]
    simp only [List.append_assoc]
    rfl
  · rw [if_neg hfirst, List.length_nil] at h
    rw [if_neg hfirst, Option.bind_eq_bind, Option.bind_some]
    dsimp only
    rw [embeddedSqlNumber_columnName hcolumn (by omega), Option.bind_some]
    rw [embeddedSqlAppend_eq (by rw [List.length_append]; omega), hcut, orderText, if_neg hfirst,
      List.nil_append, List.append_assoc]

/-- The hint, if an index was selected, is appended behind the table. -/
theorem buildIndexHint_eq {selectedIndex : Option ℕ}
    (hindex : ∀ index ∈ selectedIndex, index < database.indexCount)
    (h : sql.length + (indexHintText selectedIndex).length ≤ embeddedSqlLimit) :
    buildIndexHint database sql selectedIndex = some (sql ++ indexHintText selectedIndex) := by
  cases selectedIndex with
  | none => rw [indexHintText, List.append_nil]; rfl
  | some index =>
    have hlt := hindex index rfl
    have hdigits := length_decimal_index_le hlt
    have hwords : (ascii " INDEXED BY vps_idx_").length = 20 := by decide
    rw [indexHintText, List.length_append] at h
    unfold buildIndexHint
    dsimp only
    rw [if_neg (Nat.not_le.mpr hlt), embeddedSqlAppend_eq (by omega), Option.bind_eq_bind,
      Option.bind_some, List.take_of_length_le (Nat.le_of_eq hwords)]
    rw [embeddedSqlNumber_eq (by rw [List.nil_append]; omega)
        (by rw [List.length_append, List.nil_append]; omega), indexHintText, List.nil_append,
      List.append_assoc]

/-- An ORDER BY that fits is appended term by term. -/
theorem buildOrder_eq {orderTerms : List EmbeddedOrderTerm}
    (hcolumns : ∀ term ∈ orderTerms, term.column < database.columnCount)
    (h : sql.length + (orderByText orderTerms).length ≤ embeddedSqlLimit) :
    buildOrder database sql orderTerms = .ok (sql ++ orderByText orderTerms) := by
  unfold buildOrder orderByText at *
  by_cases hnone : orderTerms = []
  · rw [if_neg (by simp [hnone]), if_pos hnone, List.append_nil]
  · have hwords : (ascii " ORDER BY ").length = 10 := by decide
    rw [if_neg hnone, List.length_append] at h
    rw [if_pos (by simpa using hnone), if_neg hnone, embeddedSqlAppend_eq (by omega)]
    dsimp only
    rw [List.take_of_length_le (Nat.le_of_eq hwords), @foldlM_write _ _ orderText _
      (fun entry hentry sql' hsql' => buildOrderTerm_eq
        (hcolumns _ (mem_of_mem_zipIdx' hentry)) hsql')
      _ (by rw [List.length_append]; omega), List.append_assoc]
    rfl

/-- So is a LIMIT; an OFFSET without one gets `LIMIT -1`. -/
theorem buildLimit_eq {limit offset : Option UInt64}
    (h : sql.length + (limitText limit offset).length ≤ embeddedSqlLimit) :
    buildLimit sql limit offset = some (sql ++ limitText limit offset) := by
  unfold buildLimit limitText at *
  cases limit with
  | some limit =>
    have hdigits := length_decimal_toNat_le limit
    have hwords : (ascii " LIMIT ").length = 7 := by decide
    exact embeddedSqlNumber_eq (by rw [List.length_append]; omega) h
  | none =>
    dsimp only at h ⊢
    by_cases hoffset : offset.isSome = true
    · have hwords : (ascii " LIMIT -1").length = 9 := by decide
      rw [if_pos hoffset] at h ⊢
      rw [if_pos hoffset, embeddedSqlAppend_eq (by omega),
        List.take_of_length_le (Nat.le_of_eq hwords)]
    · rw [if_neg hoffset, if_neg hoffset, List.append_nil]

theorem buildOffset_eq {offset : Option UInt64}
    (h : sql.length + (offsetText offset).length ≤ embeddedSqlLimit) :
    buildOffset sql offset = some (sql ++ offsetText offset) := by
  unfold buildOffset offsetText at *
  cases offset with
  | none => rw [List.append_nil]
  | some offset =>
    have hdigits := length_decimal_toNat_le offset
    have hwords : (ascii " OFFSET ").length = 8 := by decide
    exact embeddedSqlNumber_eq (by rw [List.length_append]; omega) h

end Writing

/-! ## The whole text -/

/-- A column takes six bytes at most. -/
theorem length_projectionText_le {entry : ℕ × ℕ} (h : entry.1 < database.columnCount) :
    (projectionText entry).length ≤ 6 := by
  have hname := length_columnName_le h
  have hcomma : (if entry.2 ≠ 0 then ascii "," else []).length ≤ 1 := by split <;> decide
  rw [projectionText, List.length_append]
  omega

/-- A constraint takes twenty-four at most. -/
theorem length_constraintText_le {entry : EmbeddedConstraint α × ℕ}
    (h : entry.1.column < database.columnCount) : (constraintText entry).length ≤ 24 := by
  have hname := length_columnName_le h
  have hword : (if entry.2 = 0 then ascii " WHERE " else ascii " AND ").length ≤ 7 := by
    split <;> decide
  have hoperator : (embeddedOperatorSql entry.1.operation).length ≤ 12 := by
    cases entry.1.operation <;> decide
  rw [constraintText, List.length_append, List.length_append]
  omega

theorem length_orderText_le {entry : EmbeddedOrderTerm × ℕ}
    (h : entry.1.column < database.columnCount) : (orderText entry).length ≤ 10 := by
  have hname := length_columnName_le h
  have hcomma : (if entry.2 ≠ 0 then ascii "," else []).length ≤ 1 := by split <;> decide
  have hdirection : (if entry.1.descending then ascii " DES" else ascii " ASC").length ≤ 4 := by
    split <;> decide
  rw [orderText, List.length_append, List.length_append]
  omega

theorem length_indexHintText_le {selectedIndex : Option ℕ}
    (h : ∀ index ∈ selectedIndex, index < database.indexCount) :
    (indexHintText selectedIndex).length ≤ 22 := by
  cases selectedIndex with
  | none => exact Nat.zero_le _
  | some index =>
    have hdigits := length_decimal_index_le (h index rfl)
    have hwords : (ascii " INDEXED BY vps_idx_").length = 20 := by decide
    rw [indexHintText, List.length_append]
    omega

/-- A LIMIT takes twenty-seven at most. -/
theorem length_limitText_le (limit offset : Option UInt64) :
    (limitText limit offset).length ≤ 27 := by
  unfold limitText
  cases limit with
  | some limit =>
    have hdigits := length_decimal_toNat_le limit
    have hwords : (ascii " LIMIT ").length = 7 := by decide
    rw [List.length_append]
    omega
  | none =>
    cases offset with
    | none => exact Nat.zero_le _
    | some offset => exact (by decide : (ascii " LIMIT -1").length ≤ 27)

theorem length_offsetText_le (offset : Option UInt64) : (offsetText offset).length ≤ 28 := by
  cases offset with
  | none => exact Nat.zero_le _
  | some offset =>
    have hdigits := length_decimal_toNat_le offset
    have hwords : (ascii " OFFSET ").length = 8 := by decide
    rw [offsetText, List.length_append]
    omega

/-- **The text has room in the buffer.** -/
theorem length_scanText_le (h : request.Fits database) (explain : Bool) :
    (scanText request explain).length ≤ embeddedSqlLimit := by
  have hexplain : (if explain then ascii "EXPLAIN QUERY PLAN " else []).length ≤ 19 := by
    cases explain <;> decide
  have hselect : (ascii "SELECT ").length = 7 := by decide
  have hfrom : (ascii " FROM vps_snapshot").length = 18 := by decide
  have horder : (ascii " ORDER BY ").length = 10 := by decide
  have hprojection : (request.projection.zipIdx.flatMap projectionText).length ≤ 1024 * 6 := by
    refine (length_flatMap_le fun entry hentry =>
      length_projectionText_le (h.projection _ (mem_of_mem_zipIdx' hentry))).trans ?_
    rw [List.length_zipIdx]
    exact Nat.mul_le_mul_right 6 (h.projection_le.trans database.columnCount_le)
  have hconstraints : (request.constraints.zipIdx.flatMap constraintText).length ≤ 64 * 24 := by
    refine (length_flatMap_le fun entry hentry =>
      length_constraintText_le (h.constraints _ (mem_of_mem_zipIdx' hentry))).trans ?_
    rw [List.length_zipIdx]
    exact Nat.mul_le_mul_right 24 h.constraints_le
  have horderTerms : (request.orderTerms.zipIdx.flatMap orderText).length ≤ 32 * 10 := by
    refine (length_flatMap_le fun entry hentry =>
      length_orderText_le (h.orderTerms _ (mem_of_mem_zipIdx' hentry))).trans ?_
    rw [List.length_zipIdx]
    exact Nat.mul_le_mul_right 10 h.orderTerms_le
  have horderBy : (orderByText request.orderTerms).length ≤ 330 := by
    unfold orderByText
    split
    · exact Nat.zero_le _
    · rw [List.length_append]
      omega
  have hhint := length_indexHintText_le h.selectedIndex
  have hlimit := length_limitText_le request.limit request.offset
  have hoffset := length_offsetText_le request.offset
  unfold scanText embeddedSqlLimit
  simp only [List.length_append]
  omega

/-- **The builder writes the text of the request.** -/
theorem embeddedBuildScanSql_eq (h : request.Fits database) (explain : Bool) :
    embeddedBuildScanSql database request explain = .ok (scanText request explain) := by
  have hroom := length_scanText_le h explain
  unfold scanText at hroom
  simp only [List.length_append] at hroom
  have hexplain :
    (if explain then embeddedSqlAppend [] (ascii "EXPLAIN QUERY PLAN ") 19 else some []) =
      some (if explain then ascii "EXPLAIN QUERY PLAN " else []) := by
    cases explain <;> rfl
  have hselect : (ascii "SELECT ").length = 7 := by decide
  have hfrom : (ascii " FROM vps_snapshot").length = 18 := by decide
  unfold embeddedBuildScanSql
  rw [hexplain]
  simp only [Option.elim_some, bind, Except.bind]
  rw [embeddedSqlAppend_eq (by omega), List.take_of_length_le (Nat.le_of_eq hselect)]
  simp only [Option.elim_some]
  rw [@foldlM_write _ _ projectionText _ (fun entry hentry sql hsql =>
    buildProjection_eq (h.projection _ (mem_of_mem_zipIdx' hentry)) hsql) _
    (by simp only [List.length_append]; omega)]
  simp only [Option.elim_some]
  rw [embeddedSqlAppend_eq (by simp only [List.length_append]; omega),
    List.take_of_length_le (Nat.le_of_eq hfrom)]
  simp only [Option.elim_some]
  rw [buildIndexHint_eq h.selectedIndex (by simp only [List.length_append]; omega)]
  simp only [Option.elim_some]
  rw [@foldlM_write _ _ constraintText _ (fun entry hentry sql hsql =>
    buildConstraint_eq (h.constraints _ (mem_of_mem_zipIdx' hentry)) hsql) _
    (by simp only [List.length_append]; omega)]
  simp only [Option.elim_some]
  rw [buildOrder_eq h.orderTerms (by simp only [List.length_append]; omega)]
  simp only
  rw [buildLimit_eq (by simp only [List.length_append]; omega)]
  simp only [Option.elim_some]
  rw [buildOffset_eq (by simp only [List.length_append]; omega)]
  rfl

end Vps
