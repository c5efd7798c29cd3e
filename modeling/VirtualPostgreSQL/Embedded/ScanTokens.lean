import VirtualPostgreSQL.Embedded.ScanText

/-!
# Embedded/ScanTokens — the tokens of the text of a scan

The text of a scan is a list of pieces that begin with a blank or a comma, so that its tokens
(`scanTokens`) are those of the pieces, one behind the other.
-/

namespace Vps

open Machinery

variable {α : Type} {database : EmbeddedDatabase} {request : EmbeddedScanRequest α}

/-! ## The tokens of a request -/

/-- A keyword as the builder writes it. -/
def keywordToken (keyword : String) : SelectToken := .word (ascii keyword)

/-- The name of an index. -/
def indexName (index : ℕ) : List UInt8 := ascii "vps_idx_" ++ decimal index

/-- The tokens of an operator. -/
def operatorTokens : EmbeddedOperator → List SelectToken
  | .eq => [.comparison .eq, .parameter]
  | .ne => [.comparison .ne, .parameter]
  | .lt => [.comparison .lt, .parameter]
  | .le => [.comparison .le, .parameter]
  | .gt => [.comparison .gt, .parameter]
  | .ge => [.comparison .ge, .parameter]
  | .isNull => [keywordToken "IS", keywordToken "NULL"]
  | .isNotNull => [keywordToken "IS", keywordToken "NOT", keywordToken "NULL"]

/-- The tokens of a constraint. -/
def constraintTokens (constraint : EmbeddedConstraint α) : List SelectToken :=
  .word (columnName constraint.column) :: operatorTokens constraint.operation

/-- The tokens of a term of the order. -/
def orderTermTokens (term : EmbeddedOrderTerm) : List SelectToken :=
  [.word (columnName term.column),
    if term.descending then keywordToken "DES" else keywordToken "ASC"]

/-- The tokens of the projection. -/
def projectionTokens : List ℕ → List SelectToken
  | [] => []
  | column :: rest =>
    .word (columnName column) :: rest.flatMap fun column => [.comma, .word (columnName column)]

/-- The tokens of the index hint. -/
def indexTokens : Option ℕ → List SelectToken
  | none => []
  | some index => [keywordToken "INDEXED", keywordToken "BY", .word (indexName index)]

/-- The tokens of the constraints. -/
def whereTokens : List (EmbeddedConstraint α) → List SelectToken
  | [] => []
  | constraint :: rest =>
    keywordToken "WHERE" :: constraintTokens constraint ++
      rest.flatMap fun constraint => keywordToken "AND" :: constraintTokens constraint

/-- The tokens of the order. -/
def orderByTokens : List EmbeddedOrderTerm → List SelectToken
  | [] => []
  | term :: rest =>
    keywordToken "ORDER" :: keywordToken "BY" :: orderTermTokens term ++
      rest.flatMap fun term => .comma :: orderTermTokens term

/-- The tokens of LIMIT. -/
def limitTokens (limit offset : Option UInt64) : List SelectToken :=
  match limit with
  | some limit => [keywordToken "LIMIT", .integer (decimal limit.toNat)]
  | none => if offset.isSome then [keywordToken "LIMIT", .minus, .integer (ascii "1")] else []

/-- The tokens of OFFSET. -/
def offsetTokens : Option UInt64 → List SelectToken
  | none => []
  | some offset => [keywordToken "OFFSET", .integer (decimal offset.toNat)]

/-- The tokens behind the name of the table. -/
def clauseTokens (request : EmbeddedScanRequest α) : List SelectToken :=
  indexTokens request.selectedIndex ++ (whereTokens request.constraints ++
    (orderByTokens request.orderTerms ++ (limitTokens request.limit request.offset ++
      offsetTokens request.offset)))

/-- **The tokens of a request.** -/
def scanTokens (request : EmbeddedScanRequest α) (explain : Bool) : List SelectToken :=
  (if explain then [keywordToken "EXPLAIN", keywordToken "QUERY", keywordToken "PLAN"] else []) ++
    (keywordToken "SELECT" :: (projectionTokens request.projection ++
      (keywordToken "FROM" :: keywordToken "vps_snapshot" :: clauseTokens request)))

/-! ## The tokens of the pieces -/

section Pieces

variable {text : List UInt8} {tokens : List SelectToken}

theorem isIdChar_of_mem_columnName {column : ℕ} :
    ∀ byte ∈ columnName column, isIdChar byte = true := by
  intro byte hbyte
  rw [columnName, List.mem_append] at hbyte
  rcases hbyte with hbyte | hbyte
  · rw [List.mem_singleton.mp hbyte]
    rfl
  · simp [isIdChar, isAlnum, isDigit_of_mem_decimal hbyte]

/-- A blank before a text says nothing. -/
theorem selectTokens_blank (text : List UInt8) : selectTokens (32 :: text) = selectTokens text := by
  have hblank : selectStep .none 32 = some ([], .none) := rfl
  unfold selectTokens
  rw [selectRun_cons, hblank, Option.bind_some]
  cases selectRun .none text <;> rfl

/-- A comma before a text is a token. -/
theorem selectTokens_comma (h : selectTokens text = some tokens) :
    selectTokens (44 :: text) = some (.comma :: tokens) := by
  have hcomma : selectStep .none 44 = some ([.comma], .none) := rfl
  simp only [selectTokens, Option.bind_eq_bind, Option.bind_eq_some_iff] at h ⊢
  obtain ⟨run, hrun, ended, hended, h⟩ := h
  cases h
  exact ⟨(.comma :: run.1, run.2), by
    rw [selectRun_cons, hcomma, Option.bind_some, hrun]; rfl, ended,
    hended, rfl⟩

/-- The run over the name of a column. -/
theorem selectRun_columnName (column : ℕ) :
    selectRun .none (columnName column) = some ([], .word (columnName column)) := by
  have hletter : selectStep .none 99 = some ([], .word [99]) := rfl
  have hdigits : ∀ byte ∈ decimal column, isIdChar byte = true := fun byte hbyte =>
    isIdChar_of_mem_columnName byte (List.mem_append_right _ hbyte)
  show selectRun .none (99 :: decimal column) = _
  rw [selectRun_cons, hletter, Option.bind_some, selectRun_word hdigits]
  rfl

theorem selectTokens_columnName (column : ℕ) :
    selectTokens (columnName column) = some [.word (columnName column)] := by
  rw [selectTokens, selectRun_columnName]
  rfl

/-- The name of a column, and an operator. -/
theorem selectTokens_constraint (constraint : EmbeddedConstraint α) :
    selectTokens (columnName constraint.column ++ embeddedOperatorSql constraint.operation) =
      some (constraintTokens constraint) := by
  have hoperator : ∃ completed last ended,
      selectRun (.word (columnName constraint.column)) (embeddedOperatorSql constraint.operation) =
        some (completed, last) ∧ last.finish = some ended ∧
      completed ++ ended = constraintTokens constraint := by
    unfold constraintTokens
    cases constraint.operation <;> exact ⟨_, _, _, rfl, rfl, rfl⟩
  obtain ⟨completed, last, ended, hrun, hended, htokens⟩ := hoperator
  rw [selectTokens, selectRun_append (selectRun_columnName _) hrun]
  simp only [Option.bind_eq_bind, Option.bind_some, hended, List.nil_append, htokens]
  rfl

/-- The name of a column, and a direction. -/
theorem selectTokens_orderTerm (term : EmbeddedOrderTerm) :
    selectTokens
      (columnName term.column ++ if term.descending then ascii " DES" else ascii " ASC") =
      some (orderTermTokens term) := by
  refine @selectTokens_append _ _ _ [_] (selectTokens_columnName _) ?_ ?_
  · cases term.descending <;> rfl
  · cases term.descending <;> exact fun byte hbyte => .inl (Option.some_inj.mp hbyte).symm

/-- A number. -/
theorem selectTokens_decimal (n : ℕ) : selectTokens (decimal n) = some [.integer (decimal n)] := by
  have hdigits := fun byte => @isDigit_of_mem_decimal n byte
  obtain ⟨first, rest, hn⟩ := List.exists_cons_of_ne_nil (decimal_ne_nil n)
  rw [hn] at hdigits ⊢
  obtain ⟨hfirst, hrest⟩ := List.forall_mem_cons.mp hdigits
  have hstep : ∀ byte, isDigit byte = true → selectStep .none byte = some ([], .digits [byte]) :=
    fun byte => byte_induction (P := fun byte => isDigit byte = true →
      selectStep .none byte = some ([], .digits [byte])) 256 (by decide +kernel) byte byte.toNat_lt
  rw [selectTokens, selectRun_cons, hstep first hfirst, Option.bind_some, selectRun_digits hrest]
  rfl

/-- The name of an index. -/
theorem selectTokens_indexName (index : ℕ) :
    selectTokens (indexName index) = some [.word (indexName index)] := by
  have hletters : selectRun .none (ascii "vps_idx_") = some ([], .word (ascii "vps_idx_")) := by
    rfl
  have hdigits : ∀ byte ∈ decimal index, isIdChar byte = true := fun byte hbyte =>
    isIdChar_of_mem_columnName byte (List.mem_append_right _ hbyte)
  rw [selectTokens, indexName, selectRun_append hletters (selectRun_word hdigits _)]
  rfl

end Pieces

/-! ## The tokens of the text -/

/-- A list of pieces, of which the first one is told apart. -/
theorem flatMap_zipIdx_cons {β γ : Type} {f : β × ℕ → List γ} {g : β → List γ}
    (h : ∀ b i, i ≠ 0 → f (b, i) = g b) (b : β) (l : List β) :
    (b :: l).zipIdx.flatMap f = f (b, 0) ++ l.flatMap g := by
  have hrest : ∀ (l : List β) (n : ℕ), n ≠ 0 → (l.zipIdx n).flatMap f = l.flatMap g := by
    intro l
    induction l with
    | nil => exact fun n _ => rfl
    | cons b l ih =>
      intro n hn
      rw [List.zipIdx_cons, List.flatMap_cons, List.flatMap_cons, h b n hn,
        ih (n + 1) n.succ_ne_zero]
  rw [List.zipIdx_cons, List.flatMap_cons, hrest l 1 one_ne_zero]

section Text

variable {text : List UInt8} {tokens : List SelectToken}

theorem selectTokens_projection (h : selectTokens text = some tokens) {projection : List ℕ}
    (hne : projection ≠ []) :
    selectTokens (text ++ ascii " " ++ projection.zipIdx.flatMap projectionText) =
      some (tokens ++ projectionTokens projection) := by
  obtain ⟨column, rest, rfl⟩ := List.exists_cons_of_ne_nil hne
  rw [flatMap_zipIdx_cons (g := fun column => 44 :: columnName column) fun column i hi => by
    rw [projectionText, if_pos hi]; rfl]
  have hfirst : selectTokens (text ++ 32 :: columnName column) =
      some (tokens ++ [.word (columnName column)]) :=
    selectTokens_append h (by rw [selectTokens_blank, selectTokens_columnName])
      fun byte hbyte => .inl (Option.some_inj.mp hbyte).symm
  have hall := selectTokens_append_flatMap (fun column => 44 :: columnName column)
    (fun column => [.comma, .word (columnName column)]) hfirst
    (fun column (_ : column ∈ rest) => selectTokens_comma (selectTokens_columnName column))
    (fun column _ byte hbyte => .inr (Option.some_inj.mp hbyte).symm)
  simpa [projectionText, projectionTokens, ascii] using hall

/-- A piece that begins with a blank. -/
theorem selectTokens_append_blank {piece : List UInt8} {read : List SelectToken}
    (h : selectTokens text = some tokens) (hpiece : selectTokens piece = some read) :
    selectTokens (text ++ 32 :: piece) = some (tokens ++ read) :=
  selectTokens_append h (by rw [selectTokens_blank, hpiece])
    fun _ hbyte => .inl (Option.some_inj.mp hbyte).symm

theorem selectTokens_indexHint (h : selectTokens text = some tokens) (selectedIndex : Option ℕ) :
    selectTokens (text ++ indexHintText selectedIndex) =
      some (tokens ++ indexTokens selectedIndex) := by
  cases selectedIndex with
  | none => simpa [indexHintText, indexTokens] using h
  | some index =>
    have hwords : selectTokens (ascii "INDEXED BY") =
        some [keywordToken "INDEXED", keywordToken "BY"] := by rfl
    have hhint := selectTokens_append_blank (selectTokens_append_blank h hwords)
      (selectTokens_indexName index)
    simpa [indexHintText, indexTokens, indexName, ascii] using hhint

theorem selectTokens_where (h : selectTokens text = some tokens)
    (constraints : List (EmbeddedConstraint α)) :
    selectTokens (text ++ constraints.zipIdx.flatMap constraintText) =
      some (tokens ++ whereTokens constraints) := by
  cases constraints with
  | nil => simpa [whereTokens] using h
  | cons constraint rest =>
    have hwhere : selectTokens (ascii "WHERE") = some [keywordToken "WHERE"] := by rfl
    have hand : selectTokens (ascii " AND") = some [keywordToken "AND"] := by rfl
    rw [flatMap_zipIdx_cons (g := fun constraint => ascii " AND" ++ 32 :: (columnName
      constraint.column ++ embeddedOperatorSql constraint.operation)) fun constraint i hi => by
        rw [constraintText, if_neg hi]; rfl]
    have hfirst := selectTokens_append_blank (selectTokens_append_blank h hwhere)
      (selectTokens_constraint constraint)
    have hall := selectTokens_append_flatMap _ (fun constraint =>
        [keywordToken "AND"] ++ constraintTokens constraint) hfirst
      (fun constraint (_ : constraint ∈ rest) => selectTokens_append_blank hand
        (selectTokens_constraint constraint))
      (fun constraint _ byte hbyte => .inl (Option.some_inj.mp hbyte).symm)
    simpa [constraintText, whereTokens, ascii] using hall

theorem selectTokens_orderBy (h : selectTokens text = some tokens)
    (orderTerms : List EmbeddedOrderTerm) :
    selectTokens (text ++ orderByText orderTerms) = some (tokens ++ orderByTokens orderTerms) := by
  cases orderTerms with
  | nil => simpa [orderByText, orderByTokens] using h
  | cons term rest =>
    have hwords :
      selectTokens (ascii "ORDER BY") = some [keywordToken "ORDER", keywordToken "BY"] := by
      rfl
    rw [orderByText, if_neg (List.cons_ne_nil _ _),
      flatMap_zipIdx_cons (g := fun term => 44 :: (columnName term.column ++
        if term.descending then ascii " DES" else ascii " ASC")) fun term i hi => by
          rw [orderText, if_pos hi]; rfl]
    have hfirst := selectTokens_append_blank (selectTokens_append_blank h hwords)
      (selectTokens_orderTerm term)
    have hall := selectTokens_append_flatMap _ (fun term => .comma :: orderTermTokens term) hfirst
      (fun term (_ : term ∈ rest) => selectTokens_comma (selectTokens_orderTerm term))
      (fun term _ byte hbyte => .inr (Option.some_inj.mp hbyte).symm)
    simpa [orderText, orderByTokens, ascii] using hall

theorem selectTokens_limit (h : selectTokens text = some tokens) (limit offset : Option UInt64) :
    selectTokens (text ++ limitText limit offset) = some (tokens ++ limitTokens limit offset) := by
  cases limit with
  | some limit =>
    have hword : selectTokens (ascii "LIMIT") = some [keywordToken "LIMIT"] := by rfl
    have hlimit := selectTokens_append_blank (selectTokens_append_blank h hword)
      (selectTokens_decimal limit.toNat)
    simpa [limitText, limitTokens, ascii] using hlimit
  | none =>
    cases offset with
    | none => simpa [limitText, limitTokens] using h
    | some offset =>
      have hnone : selectTokens (ascii "LIMIT -1") =
          some [keywordToken "LIMIT", .minus, .integer (ascii "1")] := by rfl
      exact selectTokens_append_blank h hnone

theorem selectTokens_offset (h : selectTokens text = some tokens) (offset : Option UInt64) :
    selectTokens (text ++ offsetText offset) = some (tokens ++ offsetTokens offset) := by
  cases offset with
  | none => simpa [offsetText, offsetTokens] using h
  | some offset =>
    have hword : selectTokens (ascii "OFFSET") = some [keywordToken "OFFSET"] := by rfl
    have hoffset := selectTokens_append_blank (selectTokens_append_blank h hword)
      (selectTokens_decimal offset.toNat)
    simpa [offsetText, offsetTokens, ascii] using hoffset

end Text

/-- **The tokens of the text of a request.** -/
theorem selectTokens_scanText (hne : request.projection ≠ []) (explain : Bool) :
    selectTokens (scanText request explain) = some (scanTokens request explain) := by
  have hselect : selectTokens
      ((if explain then ascii "EXPLAIN QUERY PLAN " else []) ++ ascii "SELECT") =
      some ((if explain then [keywordToken "EXPLAIN", keywordToken "QUERY", keywordToken "PLAN"]
        else []) ++ [keywordToken "SELECT"]) := by
    cases explain <;> rfl
  have hfrom : selectTokens (ascii "FROM vps_snapshot") =
      some [keywordToken "FROM", keywordToken "vps_snapshot"] := by rfl
  have htable := selectTokens_append_blank (selectTokens_projection hselect hne) hfrom
  have hall := selectTokens_offset (selectTokens_limit (selectTokens_orderBy (selectTokens_where
    (selectTokens_indexHint htable request.selectedIndex) request.constraints) request.orderTerms)
    request.limit request.offset) request.offset
  have hblank : ascii "SELECT " = ascii "SELECT" ++ ascii " " := by decide
  have htext : ascii " FROM vps_snapshot" = 32 :: ascii "FROM vps_snapshot" := by decide
  rw [scanText, hblank, htext]
  simpa [scanTokens, clauseTokens] using hall

end Vps
