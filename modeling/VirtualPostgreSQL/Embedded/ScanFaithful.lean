import VirtualPostgreSQL.Embedded.ScanTokens

/-!
# Embedded/ScanFaithful — what SQLite reads in the text of a scan

The parser takes up the clauses of a request one behind the other.  ` DES` is no direction, and
nothing else may stand there; and a number from `2⁶³` on is no integer to SQLite, while the request
holds one up to `2⁶⁴ - 1`.  `scan_faithful_iff` says that SQLite reads what was asked for exactly if
no term of the order descends and LIMIT and OFFSET stay below that.
-/

namespace Vps

open Machinery

variable {α : Type} {database : EmbeddedDatabase} {request : EmbeddedScanRequest α}

/-! ## Names and keywords -/

section Parsing

variable {rest : List SelectToken}

theorem takeKeyword_word {word : List UInt8} {keyword : SelectKeyword}
    (h : keywordOf word = some keyword) : takeKeyword keyword (.word word :: rest) = some rest :=
  if_pos h

theorem takeKeyword_keywordToken {text : String} {keyword : SelectKeyword}
    (h : keywordOf (ascii text) = some keyword) :
    takeKeyword keyword (keywordToken text :: rest) = some rest := takeKeyword_word h

theorem takeKeyword_other {word : List UInt8} {keyword : SelectKeyword}
    (h : keywordOf word ≠ some keyword) : takeKeyword keyword (.word word :: rest) = none :=
  if_neg h

theorem takeName_word {word : List UInt8} (h : keywordOf word = none) :
    takeName (.word word :: rest) = some (word, rest) := if_pos h

/-- No keyword begins as the names of the columns and of the indexes do. -/
theorem keywordOf_eq_none (first : UInt8) {word : List UInt8}
    (h : ∀ keyword ∈ selectKeywords, keyword.text.head? ≠ some (toLower first)) :
    keywordOf (first :: word) = none := by
  refine List.find?_eq_none.mpr fun keyword hkeyword heq => h keyword hkeyword ?_
  rw [eq_of_beq heq]
  rfl

/-- No column is named like a keyword… -/
theorem keywordOf_columnName (column : ℕ) : keywordOf (columnName column) = none :=
  keywordOf_eq_none 99 (by decide)

/-- …and no index. -/
theorem keywordOf_indexName (index : ℕ) : keywordOf (indexName index) = none :=
  keywordOf_eq_none 118 (by decide)

/-! ## The clauses one behind the other -/

/-- No clause before it is taken for the OFFSET. -/
theorem takeKeyword_offsetTokens {keyword : SelectKeyword} (h : keyword ≠ .offset)
    (offset : Option UInt64) : takeKeyword keyword (offsetTokens offset) = none := by
  cases offset with
  | none => rfl
  | some offset =>
    have hword : keywordOf (ascii "OFFSET") = some .offset := by decide
    exact takeKeyword_other (by rw [hword]; exact fun heq => h (Option.some_inj.mp heq).symm)

theorem takeKeyword_limitTokens {keyword : SelectKeyword} (h : keyword ≠ .limit)
    (hrest : takeKeyword keyword rest = none) (limit offset : Option UInt64) :
    takeKeyword keyword (limitTokens limit offset ++ rest) = none := by
  have hword : keywordOf (ascii "LIMIT") ≠ some keyword := by
    rw [show keywordOf (ascii "LIMIT") = some .limit by decide]
    exact fun heq => h (Option.some_inj.mp heq).symm
  cases limit with
  | some limit => exact takeKeyword_other hword
  | none =>
    cases offset with
    | none => exact hrest
    | some offset => exact takeKeyword_other hword

theorem takeKeyword_orderByTokens {keyword : SelectKeyword} (h : keyword ≠ .order)
    (hrest : takeKeyword keyword rest = none) (orderTerms : List EmbeddedOrderTerm) :
    takeKeyword keyword (orderByTokens orderTerms ++ rest) = none := by
  cases orderTerms with
  | nil => exact hrest
  | cons term orderTerms =>
    have hword : keywordOf (ascii "ORDER") = some .order := by decide
    exact takeKeyword_other (by rw [hword]; exact fun heq => h (Option.some_inj.mp heq).symm)

theorem takeKeyword_whereTokens {keyword : SelectKeyword} (h : keyword ≠ .where)
    (hrest : takeKeyword keyword rest = none) (constraints : List (EmbeddedConstraint α)) :
    takeKeyword keyword (whereTokens constraints ++ rest) = none := by
  cases constraints with
  | nil => exact hrest
  | cons constraint constraints =>
    have hword : keywordOf (ascii "WHERE") = some .where := by decide
    exact takeKeyword_other (by rw [hword]; exact fun heq => h (Option.some_inj.mp heq).symm)

/-! ## The projection -/

/-- The projection is read back to its last column. -/
theorem takeNames_projection (hrest : rest.head? ≠ some .comma) :
    ∀ (columns : List ℕ) (column fuel : ℕ), columns.length < fuel →
      takeNames fuel (projectionTokens (column :: columns) ++ rest) =
        some ((column :: columns).map columnName, rest)
  | columns, column, 0, h => absurd h (Nat.not_lt_zero _)
  | [], column, fuel + 1, _ => by
    show takeNames (fuel + 1) (.word (columnName column) :: rest) = _
    rw [takeNames, takeName_word (keywordOf_columnName column), Option.bind_eq_bind,
      Option.bind_some]
    dsimp only
    split
    · exact absurd rfl hrest
    · rfl
  | next :: columns, column, fuel + 1, h => by
    have hnext := takeNames_projection hrest columns next fuel (Nat.lt_of_succ_lt_succ h)
    show takeNames (fuel + 1) (.word (columnName column) :: .comma ::
      (projectionTokens (next :: columns) ++ rest)) = _
    rw [takeNames, takeName_word (keywordOf_columnName column), Option.bind_eq_bind,
      Option.bind_some]
    dsimp only
    rw [hnext]
    rfl

/-- A list is not longer than its pieces, of which none is empty. -/
theorem length_le_length_flatMap {β γ : Type} {f : β → List γ} (h : ∀ b, f b ≠ []) :
    ∀ l : List β, l.length ≤ (l.flatMap f).length
  | [] => Nat.le_refl 0
  | b :: l => by
    have hrest := length_le_length_flatMap h l
    have hfirst := List.length_pos_of_ne_nil (h b)
    rw [List.flatMap_cons, List.length_append, List.length_cons]
    omega

/-! ## The index hint -/

/-- The hint is read back. -/
theorem takeIndexedBy_indexTokens (hrest : takeKeyword .indexed rest = none)
    (selectedIndex : Option ℕ) :
    takeIndexedBy (indexTokens selectedIndex ++ rest) =
      some (selectedIndex.map indexName, rest) := by
  cases selectedIndex with
  | none =>
    show takeIndexedBy rest = _
    rw [takeIndexedBy, hrest]
    rfl
  | some index =>
    have hindexed : keywordOf (ascii "INDEXED") = some .indexed := by decide
    have hby : keywordOf (ascii "BY") = some .by := by decide
    show takeIndexedBy (.word (ascii "INDEXED") :: .word (ascii "BY") :: .word (indexName index) ::
      rest) = _
    rw [takeIndexedBy, takeKeyword_word hindexed]
    dsimp only
    rw [takeKeyword_word hby, Option.bind_eq_bind, Option.bind_some,
      takeName_word (keywordOf_indexName index)]
    rfl

/-! ## The conditions -/

/-- The conditions of constraints, from the parameter on that the first of them would have. -/
def requestedConditions : List (EmbeddedConstraint α) → ℕ → List SelectCondition
  | [], _ => []
  | constraint :: rest, parameter =>
    constraint.condition parameter :: requestedConditions rest
      (if constraint.operation.takesValue then parameter + 1 else parameter)

/-- The parameter of a condition. -/
theorem parameter_condition (constraint : EmbeddedConstraint α) (parameter : ℕ) :
    (constraint.condition parameter).parameter =
      if constraint.operation.takesValue then some parameter else none := by
  unfold EmbeddedConstraint.condition
  cases constraint.operation <;> rfl

/-- A constraint is read as its condition. -/
theorem takeCondition_constraintTokens (constraint : EmbeddedConstraint α) (count : ℕ) :
    takeCondition count (constraintTokens constraint ++ rest) =
      some (constraint.condition (count + 1), rest) := by
  unfold takeCondition constraintTokens EmbeddedConstraint.condition
  rw [List.cons_append, takeName_word (keywordOf_columnName constraint.column), Option.bind_eq_bind,
    Option.bind_some]
  cases constraint.operation <;> rfl

/-- The constraints are read back, each with the number of its value. -/
theorem takeConditions_constraints (hrest : takeKeyword .and rest = none) :
    ∀ (constraints : List (EmbeddedConstraint α)) (constraint : EmbeddedConstraint α)
      (fuel count : ℕ), constraints.length < fuel →
      takeConditions fuel count (constraintTokens constraint ++
          ((constraints.flatMap fun constraint =>
            keywordToken "AND" :: constraintTokens constraint) ++ rest)) =
        some (requestedConditions (constraint :: constraints) (count + 1), rest)
  | constraints, constraint, 0, count, h => absurd h (Nat.not_lt_zero _)
  | [], constraint, fuel + 1, count, _ => by
    rw [takeConditions, takeCondition_constraintTokens, Option.bind_eq_bind, Option.bind_some]
    simp only [List.flatMap_nil, List.nil_append, hrest]
    rfl
  | next :: constraints, constraint, fuel + 1, count, h => by
    have hand : keywordOf (ascii "AND") = some .and := by decide
    have hnext := takeConditions_constraints hrest constraints next fuel
      (count + (constraint.condition (count + 1)).parameter.toList.length)
        (Nat.lt_of_succ_lt_succ h)
    have hcount : count + (constraint.condition (count + 1)).parameter.toList.length + 1 =
        if constraint.operation.takesValue then count + 1 + 1 else count + 1 := by
      rw [parameter_condition]
      split <;> rfl
    rw [takeConditions, takeCondition_constraintTokens, Option.bind_eq_bind, Option.bind_some]
    simp only [List.flatMap_cons, List.cons_append, List.append_assoc]
    rw [takeKeyword_keywordToken hand]
    dsimp only
    rw [hnext, hcount]
    rfl

/-- So is the WHERE clause. -/
theorem takeWhere_whereTokens (hrest : takeKeyword .where rest = none)
    (hand : takeKeyword .and rest = none) (constraints : List (EmbeddedConstraint α)) :
    takeWhere (whereTokens constraints ++ rest) =
      some (requestedConditions constraints 1, rest) := by
  cases constraints with
  | nil =>
    show takeWhere rest = _
    rw [takeWhere, hrest]
    rfl
  | cons constraint constraints =>
    have hwhere : keywordOf (ascii "WHERE") = some .where := by decide
    have hfuel : constraints.length < (constraintTokens constraint ++ ((constraints.flatMap
        fun constraint => keywordToken "AND" :: constraintTokens constraint) ++ rest)).length := by
      have hlength := length_le_length_flatMap (fun constraint : EmbeddedConstraint α =>
        List.cons_ne_nil (keywordToken "AND") (constraintTokens constraint)) constraints
      simp only [constraintTokens, List.length_append, List.length_cons] at hlength ⊢
      omega
    show takeWhere (.word (ascii "WHERE") :: (constraintTokens constraint ++ _) ++ rest) = _
    rw [List.cons_append, takeWhere, takeKeyword_word hwhere]
    dsimp only
    rw [List.append_assoc]
    exact takeConditions_constraints hand constraints constraint _ 0 hfuel

/-! ## The order -/

/-- `ASC` is a direction. -/
theorem takeOrderTerm_ascending {term : EmbeddedOrderTerm} (h : term.descending = false) :
    takeOrderTerm (orderTermTokens term ++ rest) =
      some ((columnName term.column, false), rest) := by
  have hasc : keywordOf (ascii "ASC") = some .asc := by decide
  have htokens : orderTermTokens term ++ rest =
      .word (columnName term.column) :: .word (ascii "ASC") :: rest := by
    rw [orderTermTokens, h]
    rfl
  rw [htokens, takeOrderTerm, takeName_word (keywordOf_columnName _), Option.bind_eq_bind,
    Option.bind_some]
  dsimp only
  rw [takeKeyword_word hasc]
  rfl

/-- `DES` is none, and is left. -/
theorem takeOrderTerm_descending {term : EmbeddedOrderTerm} (h : term.descending = true) :
    takeOrderTerm (orderTermTokens term ++ rest) =
      some ((columnName term.column, false), keywordToken "DES" :: rest) := by
  have hdes : ∀ keyword, keywordOf (ascii "DES") ≠ some keyword := by
    rw [show keywordOf (ascii "DES") = none by decide]
    exact fun keyword => nofun
  have htokens : orderTermTokens term ++ rest =
      .word (columnName term.column) :: .word (ascii "DES") :: rest := by
    rw [orderTermTokens, h]
    rfl
  rw [htokens, takeOrderTerm, takeName_word (keywordOf_columnName _), Option.bind_eq_bind,
    Option.bind_some]
  dsimp only
  rw [takeKeyword_other (hdes _), takeKeyword_other (hdes _)]
  rfl

/-- Terms that ascend are all read. -/
theorem takeOrderTerms_ascending (hrest : rest.head? ≠ some .comma) :
    ∀ (orderTerms : List EmbeddedOrderTerm) (term : EmbeddedOrderTerm) (fuel : ℕ),
      orderTerms.length < fuel → (∀ t ∈ term :: orderTerms, t.descending = false) →
      takeOrderTerms fuel (orderTermTokens term ++ ((orderTerms.flatMap fun term =>
        .comma :: orderTermTokens term) ++ rest)) =
        some ((term :: orderTerms).map fun t => (columnName t.column, t.descending), rest)
  | orderTerms, term, 0, h, _ => absurd h (Nat.not_lt_zero _)
  | [], term, fuel + 1, _, hasc => by
    have hterm := hasc term List.mem_cons_self
    rw [takeOrderTerms, takeOrderTerm_ascending hterm, Option.bind_eq_bind, Option.bind_some]
    simp only [List.flatMap_nil, List.nil_append, List.map_cons, List.map_nil, hterm]
    split
    · exact absurd rfl hrest
    · rfl
  | next :: orderTerms, term, fuel + 1, h, hasc => by
    obtain ⟨hterm, hnext⟩ := List.forall_mem_cons.mp hasc
    have hread :=
      takeOrderTerms_ascending hrest orderTerms next fuel (Nat.lt_of_succ_lt_succ h) hnext
    rw [takeOrderTerms, takeOrderTerm_ascending hterm, Option.bind_eq_bind, Option.bind_some]
    simp only [List.flatMap_cons, List.cons_append, List.append_assoc]
    rw [hread]
    simp only [List.map_cons, hterm]
    rfl

/-- A term that descends leaves ` DES`. -/
theorem takeOrderTerms_descending :
    ∀ (orderTerms : List EmbeddedOrderTerm) (term : EmbeddedOrderTerm) (fuel : ℕ),
      orderTerms.length < fuel → (∃ t ∈ term :: orderTerms, t.descending = true) →
      ∃ read left, takeOrderTerms fuel (orderTermTokens term ++ ((orderTerms.flatMap fun term =>
        .comma :: orderTermTokens term) ++ rest)) = some (read, keywordToken "DES" :: left)
  | orderTerms, term, 0, h, _ => absurd h (Nat.not_lt_zero _)
  | orderTerms, term, fuel + 1, h, hdesc => by
    by_cases hterm : term.descending = true
    · refine ⟨[(columnName term.column, false)],
        (orderTerms.flatMap fun term => .comma :: orderTermTokens term) ++ rest, ?_⟩
      rw [takeOrderTerms, takeOrderTerm_descending hterm]
      rfl
    · have hterm := Bool.eq_false_of_not_eq_true hterm
      cases orderTerms with
      | nil =>
        obtain ⟨t, ht, hdesc⟩ := hdesc
        obtain rfl := List.mem_singleton.mp ht
        exact absurd hdesc (by rw [hterm]; exact Bool.false_ne_true)
      | cons next orderTerms =>
        have hnext : ∃ t ∈ next :: orderTerms, t.descending = true := by
          obtain ⟨t, ht, hdesc⟩ := hdesc
          rcases List.mem_cons.mp ht with rfl | ht
          · exact absurd hdesc (by rw [hterm]; exact Bool.false_ne_true)
          · exact ⟨t, ht, hdesc⟩
        obtain ⟨read, left, hread⟩ := takeOrderTerms_descending orderTerms next fuel
          (Nat.lt_of_succ_lt_succ h) hnext
        refine ⟨(columnName term.column, false) :: read, left, ?_⟩
        rw [takeOrderTerms, takeOrderTerm_ascending hterm, Option.bind_eq_bind, Option.bind_some]
        simp only [List.flatMap_cons, List.cons_append, List.append_assoc]
        rw [hread]
        rfl

/-- The words before the terms. -/
theorem takeOrderBy_cons (term : EmbeddedOrderTerm) (orderTerms : List EmbeddedOrderTerm) :
    ∃ fuel, orderTerms.length < fuel ∧ takeOrderBy (orderByTokens (term :: orderTerms) ++ rest) =
      takeOrderTerms fuel (orderTermTokens term ++ ((orderTerms.flatMap fun term =>
        .comma :: orderTermTokens term) ++ rest)) := by
  have horder : keywordOf (ascii "ORDER") = some .order := by decide
  have hby : keywordOf (ascii "BY") = some .by := by decide
  have hlength := length_le_length_flatMap (fun term : EmbeddedOrderTerm =>
    List.cons_ne_nil SelectToken.comma (orderTermTokens term)) orderTerms
  have htokens : orderByTokens (term :: orderTerms) ++ rest = .word (ascii "ORDER") ::
      .word (ascii "BY") :: (orderTermTokens term ++ ((orderTerms.flatMap fun term =>
        .comma :: orderTermTokens term) ++ rest)) := by
    simp [orderByTokens, keywordToken]
  refine ⟨(orderTermTokens term ++ ((orderTerms.flatMap fun term =>
    .comma :: orderTermTokens term) ++ rest)).length, ?_, ?_⟩
  · have hterm : (orderTermTokens term).length = 2 := rfl
    rw [List.length_append, List.length_append]
    omega
  · rw [htokens, takeOrderBy, takeKeyword_word horder]
    dsimp only
    rw [takeKeyword_word hby, Option.bind_eq_bind, Option.bind_some]

/-- **An ascending order is read back**… -/
theorem takeOrderBy_ascending (hcomma : rest.head? ≠ some .comma)
    (hrest : takeKeyword .order rest = none) {orderTerms : List EmbeddedOrderTerm}
    (hasc : ∀ term ∈ orderTerms, term.descending = false) :
    takeOrderBy (orderByTokens orderTerms ++ rest) =
      some (orderTerms.map fun term => (columnName term.column, term.descending), rest) := by
  cases orderTerms with
  | nil =>
    show takeOrderBy rest = _
    rw [takeOrderBy, hrest]
    rfl
  | cons term orderTerms =>
    obtain ⟨fuel, hfuel, horder⟩ := @takeOrderBy_cons rest term orderTerms
    rw [horder]
    exact takeOrderTerms_ascending hcomma orderTerms term fuel hfuel hasc

/-- …but a descending one ends at `DES`, which is no keyword. -/
theorem takeOrderBy_descending {orderTerms : List EmbeddedOrderTerm}
    (hdesc : ∃ term ∈ orderTerms, term.descending = true) :
    ∃ read left, takeOrderBy (orderByTokens orderTerms ++ rest) =
      some (read, keywordToken "DES" :: left) := by
  cases orderTerms with
  | nil => obtain ⟨term, hterm, _⟩ := hdesc; exact absurd hterm List.not_mem_nil
  | cons term orderTerms =>
    obtain ⟨fuel, hfuel, horder⟩ := @takeOrderBy_cons rest term orderTerms
    rw [horder]
    exact takeOrderTerms_descending orderTerms term fuel hfuel hdesc

/-! ## LIMIT and OFFSET -/

/-- The number of LIMIT. -/
def limitNumber (limit offset : Option UInt64) : Option ℤ :=
  match limit with
  | some limit => some limit.toNat
  | none => if offset.isSome then some (-1) else none

theorem takeClause_word {word : List UInt8} {keyword : SelectKeyword}
    (h : keywordOf word = some keyword) {tokens : List SelectToken} {n : ℤ}
    (hnumber : takeNumber tokens = some (n, rest)) :
    takeClause keyword (.word word :: tokens) = some (some n, rest) := by
  rw [takeClause, takeKeyword_word h]
  dsimp only
  rw [hnumber]
  rfl

theorem takeClause_word_none {word : List UInt8} {keyword : SelectKeyword}
    (h : keywordOf word = some keyword) {tokens : List SelectToken}
    (hnumber : takeNumber tokens = none) : takeClause keyword (.word word :: tokens) = none := by
  rw [takeClause, takeKeyword_word h]
  dsimp only
  rw [hnumber]
  rfl

/-- A decimal numeral is read as its number while that is an integer of 64 bits… -/
theorem takeNumber_decimal {n : ℕ} (h : n < 2 ^ 63) :
    takeNumber (.integer (decimal n) :: rest) = some ((n : ℤ), rest) := by
  rw [takeNumber, parseDecimal_decimal, Option.bind_some, if_pos h]

/-- …and is no number of rows from there on. -/
theorem takeNumber_decimal_none {n : ℕ} (h : 2 ^ 63 ≤ n) :
    takeNumber (.integer (decimal n) :: rest) = none := by
  rw [takeNumber, parseDecimal_decimal, Option.bind_some, if_neg (Nat.not_lt.mpr h)]

/-- An offset that SQLite reads as an integer is read back… -/
theorem takeClause_offsetTokens {offset : Option UInt64} (h : ∀ n ∈ offset, n.toNat < 2 ^ 63) :
    takeClause .offset (offsetTokens offset) = some (offset.map fun n => (n.toNat : ℤ), []) := by
  cases offset with
  | none => rfl
  | some offset =>
    have hoffset : keywordOf (ascii "OFFSET") = some .offset := by decide
    exact takeClause_word hoffset (takeNumber_decimal (h offset rfl))

/-- …and so is such a limit, in front of it. -/
theorem takeClause_limitTokens {limit : Option UInt64} (h : ∀ n ∈ limit, n.toNat < 2 ^ 63)
    (offset : Option UInt64) :
    takeClause .limit (limitTokens limit offset ++ offsetTokens offset) =
      some (limitNumber limit offset, offsetTokens offset) := by
  have hlimit : keywordOf (ascii "LIMIT") = some .limit := by decide
  cases limit with
  | some limit => exact takeClause_word hlimit (takeNumber_decimal (h limit rfl))
  | none =>
    cases offset with
    | none => rfl
    | some offset => exact takeClause_word hlimit rfl

theorem takeLimit_limitTokens {limit offset : Option UInt64}
    (hlimit : ∀ n ∈ limit, n.toNat < 2 ^ 63) (hoffset : ∀ n ∈ offset, n.toNat < 2 ^ 63) :
    takeLimit (limitTokens limit offset ++ offsetTokens offset) =
      some ((limitNumber limit offset, offset.map fun n => (n.toNat : ℤ)), []) := by
  rw [takeLimit, takeClause_limitTokens hlimit, Option.bind_eq_bind, Option.bind_some]
  dsimp only
  split
  · rename_i hnone
    cases limit with
    | some limit => exact absurd hnone Bool.false_ne_true
    | none =>
      cases offset with
      | none => rfl
      | some offset => exact absurd hnone Bool.false_ne_true
  · rw [takeClause_offsetTokens hoffset]
    rfl

/-- **A LIMIT or an OFFSET from `2⁶³` on is not read.** -/
theorem takeLimit_limitTokens_none {limit offset : Option UInt64}
    (h : ¬((∀ n ∈ limit, n.toNat < 2 ^ 63) ∧ ∀ n ∈ offset, n.toNat < 2 ^ 63)) :
    takeLimit (limitTokens limit offset ++ offsetTokens offset) = none := by
  have hword : keywordOf (ascii "LIMIT") = some .limit := by decide
  by_cases hlimit : ∀ n ∈ limit, n.toNat < 2 ^ 63
  · have hoffset : ¬∀ n ∈ offset, n.toNat < 2 ^ 63 := fun hoffset => h ⟨hlimit, hoffset⟩
    have hbeyond : ∃ n ∈ offset, 2 ^ 63 ≤ n.toNat := by
      simpa using hoffset
    obtain ⟨n, rfl, hn⟩ := hbeyond
    have hsome : (limitNumber limit (some n)).isNone = false := by cases limit <;> rfl
    have hclause : takeClause .offset (offsetTokens (some n)) = none :=
      takeClause_word_none (by decide) (takeNumber_decimal_none hn)
    rw [takeLimit, takeClause_limitTokens hlimit, Option.bind_eq_bind, Option.bind_some]
    dsimp only
    rw [if_neg (by rw [hsome]; exact Bool.false_ne_true), hclause]
    rfl
  · have hbeyond : ∃ n ∈ limit, 2 ^ 63 ≤ n.toNat := by
      simpa using hlimit
    obtain ⟨n, rfl, hn⟩ := hbeyond
    have hclause : takeClause .limit (limitTokens (some n) offset ++ offsetTokens offset) = none :=
      takeClause_word_none hword (takeNumber_decimal_none hn)
    rw [takeLimit, hclause]
    rfl

end Parsing

/-! ## The statement -/

/-- What the parser has read before it comes to the order. -/
theorem parseSelect_scanTokens (hne : request.projection ≠ []) (explain : Bool) :
    parseSelect (scanTokens request explain) = (takeOrderBy (orderByTokens request.orderTerms ++
      (limitTokens request.limit request.offset ++ offsetTokens request.offset))).bind fun order =>
        (takeLimit order.2).bind fun limits =>
          if limits.2 = [] then
            some ⟨explain, request.projection.map columnName, ascii "vps_snapshot",
              request.selectedIndex.map indexName, requestedConditions request.constraints 1,
              order.1, limits.1.1, limits.1.2⟩
          else none := by
  have hlast : ∀ keyword, keyword ≠ .limit → keyword ≠ .offset → takeKeyword keyword
      (limitTokens request.limit request.offset ++ offsetTokens request.offset) = none :=
    fun keyword hlimit hoffset =>
      takeKeyword_limitTokens hlimit (takeKeyword_offsetTokens hoffset _) _ _
  have hand := takeKeyword_orderByTokens (by decide) (hlast .and (by decide) (by decide))
    request.orderTerms
  have hwhere := takeKeyword_orderByTokens (by decide) (hlast .where (by decide) (by decide))
    request.orderTerms
  have hindexed := takeKeyword_whereTokens (by decide) (takeKeyword_orderByTokens (by decide)
    (hlast .indexed (by decide) (by decide)) request.orderTerms) request.constraints
  have hexplain : takeExplain (scanTokens request explain) =
      some (explain, keywordToken "SELECT" :: (projectionTokens request.projection ++
        (keywordToken "FROM" :: keywordToken "vps_snapshot" :: clauseTokens request))) := by
    cases explain <;> rfl
  have hselect : keywordOf (ascii "SELECT") = some .select := by decide
  have hfrom : keywordOf (ascii "FROM") = some .from := by decide
  have htable : keywordOf (ascii "vps_snapshot") = none := by decide
  obtain ⟨column, columns, hcolumns⟩ := List.exists_cons_of_ne_nil hne
  have hnames := @takeNames_projection (keywordToken "FROM" :: keywordToken "vps_snapshot" ::
      clauseTokens request) (fun h => nomatch h) columns column
    (projectionTokens request.projection ++ (keywordToken "FROM" :: keywordToken "vps_snapshot" ::
      clauseTokens request)).length (by
        have hlength := length_le_length_flatMap (fun column =>
          List.cons_ne_nil SelectToken.comma [.word (columnName column)]) columns
        rw [hcolumns, projectionTokens, List.length_append, List.length_cons]
        omega)
  rw [← hcolumns] at hnames
  have hname : takeName (keywordToken "vps_snapshot" :: clauseTokens request) =
      some (ascii "vps_snapshot", clauseTokens request) := takeName_word htable
  unfold parseSelect
  simp only [hexplain, Option.bind_eq_bind, Option.bind_some,
    takeKeyword_keywordToken hselect, hnames, takeKeyword_keywordToken hfrom, hname]
  rw [clauseTokens, takeIndexedBy_indexTokens hindexed, Option.bind_some]
  dsimp only
  rw [takeWhere_whereTokens hwhere hand, Option.bind_some]
  rfl

/-! ## What was asked for -/

/-- The condition is the one of the constraint; its parameter is bound to the value. -/
def EmbeddedConstraint.Matches (bindings : List (ℕ × α)) (constraint : EmbeddedConstraint α)
    (condition : SelectCondition) : Prop :=
  ∃ parameter, condition = constraint.condition parameter ∧
    (constraint.operation.takesValue = true → (parameter, constraint.value) ∈ bindings)

/-- **The statement is the request**, with the values that are bound to its parameters. -/
structure SelectStatement.Asks (statement : SelectStatement) (request : EmbeddedScanRequest α)
    (explain : Bool) (bindings : List (ℕ × α)) : Prop where
  explain : statement.explain = explain
  columns : statement.columns = request.projection.map columnName
  table : statement.table = ascii "vps_snapshot"
  indexedBy : statement.indexedBy = request.selectedIndex.map indexName
  conditions : List.Forall₂ (EmbeddedConstraint.Matches bindings) request.constraints
    statement.conditions
  parameters : statement.conditions.filterMap SelectCondition.parameter = bindings.map Prod.fst
  orderBy : statement.orderBy =
    request.orderTerms.map fun term => (columnName term.column, term.descending)
  rowLimit : statement.rowLimit = request.limit.map UInt64.toNat
  rowOffset : statement.rowOffset = (request.offset.map UInt64.toNat).getD 0

/-- The parameters in the text are those that are bound. -/
theorem parameters_requestedConditions :
    ∀ (constraints : List (EmbeddedConstraint α)) (parameter : ℕ),
    (requestedConditions constraints parameter).filterMap SelectCondition.parameter =
      (embeddedBindings constraints parameter).map Prod.fst
  | [], _ => rfl
  | constraint :: rest, parameter => by
    rw [requestedConditions, embeddedBindings, List.filterMap_cons, parameter_condition]
    cases constraint.operation.takesValue
    · exact parameters_requestedConditions rest parameter
    · exact congrArg (parameter :: ·) (parameters_requestedConditions rest (parameter + 1))

/-- Every condition has the value of its constraint. -/
theorem matches_requestedConditions {bindings : List (ℕ × α)} :
    ∀ (constraints : List (EmbeddedConstraint α)) (parameter : ℕ),
      embeddedBindings constraints parameter ⊆ bindings →
      List.Forall₂ (EmbeddedConstraint.Matches bindings) constraints
        (requestedConditions constraints parameter)
  | [], _, _ => .nil
  | constraint :: rest, parameter, h => by
    rw [embeddedBindings] at h
    refine .cons ⟨parameter, rfl, fun htakes => ?_⟩ (matches_requestedConditions rest _ ?_)
    · rw [if_pos htakes] at h
      exact h List.mem_cons_self
    · split at h
      · rename_i htakes
        rw [if_pos htakes]
        exact fun entry hentry => h (List.mem_cons_of_mem _ hentry)
      · rename_i htakes
        rw [if_neg htakes]
        exact h

/-- The statement of a request. -/
def requestedStatement (request : EmbeddedScanRequest α) (explain : Bool) : SelectStatement where
  explain
  columns := request.projection.map columnName
  table := ascii "vps_snapshot"
  indexedBy := request.selectedIndex.map indexName
  conditions := requestedConditions request.constraints 1
  orderBy := request.orderTerms.map fun term => (columnName term.column, term.descending)
  limit := limitNumber request.limit request.offset
  offset := request.offset.map fun n => (n.toNat : ℤ)

/-- **The statement that was requested asks for what the request does.** -/
theorem requestedStatement_asks (request : EmbeddedScanRequest α) (explain : Bool) :
    (requestedStatement request explain).Asks request explain
      (embeddedBindings request.constraints 1) where
  explain := rfl
  columns := rfl
  table := rfl
  indexedBy := rfl
  conditions := matches_requestedConditions _ 1 (List.Subset.refl _)
  parameters := parameters_requestedConditions _ 1
  orderBy := rfl
  rowLimit := by
    -- where there is only an OFFSET, the LIMIT is negative, which is none
    show (limitNumber request.limit request.offset).bind _ = _
    cases request.limit with
    | some limit => simp [limitNumber]
    | none => cases request.offset <;> rfl
  rowOffset := by
    show ((request.offset.map fun n => (n.toNat : ℤ)).getD 0).toNat = _
    cases request.offset with
    | some offset => simp
    | none => rfl

/-- A text that is read as what was asked for. -/
def ScanFaithful (database : EmbeddedDatabase) (request : EmbeddedScanRequest α) (explain : Bool) :
    Prop :=
  ∃ sql statement, embeddedBuildScanSql database request explain = .ok sql ∧
    readSelect sql = some statement ∧
    statement.Asks request explain (embeddedBindings request.constraints 1)

/-- A scan with a descending term is not read: its direction is left, and no clause begins so. -/
theorem readSelect_descending (hne : request.projection ≠ []) (explain : Bool)
    (hdesc : ∃ term ∈ request.orderTerms, term.descending = true) :
    readSelect (scanText request explain) = none := by
  obtain ⟨read, left, horder⟩ := @takeOrderBy_descending (limitTokens request.limit
    request.offset ++ offsetTokens request.offset) _ hdesc
  have hlimit : takeLimit (keywordToken "DES" :: left) =
      some ((none, none), keywordToken "DES" :: left) := by
    have hdes : keywordOf (ascii "DES") ≠ some .limit := by decide
    rw [takeLimit, takeClause, keywordToken, takeKeyword_other hdes]
    rfl
  rw [readSelect, selectTokens_scanText hne, Option.bind_some, parseSelect_scanTokens hne, horder,
    Option.bind_some, hlimit, Option.bind_some, if_neg (List.cons_ne_nil _ _)]

/-- A scan in ascending order is read as far as its LIMIT and its OFFSET are. -/
theorem readSelect_ascending (hne : request.projection ≠ []) (explain : Bool)
    (hasc : ∀ term ∈ request.orderTerms, term.descending = false) :
    readSelect (scanText request explain) =
      (takeLimit (limitTokens request.limit request.offset ++ offsetTokens request.offset)).bind
        fun limits => if limits.2 = [] then
          some { requestedStatement request explain with
            limit := limits.1.1, offset := limits.1.2 } else none := by
  have hcomma : (limitTokens request.limit request.offset ++
      offsetTokens request.offset).head? ≠ some .comma := by
    cases request.limit <;> cases request.offset <;> exact fun h => nomatch h
  have horder := takeOrderBy_ascending hcomma (takeKeyword_limitTokens (by decide)
    (takeKeyword_offsetTokens (by decide) request.offset) request.limit request.offset) hasc
  rw [readSelect, selectTokens_scanText hne, Option.bind_some, parseSelect_scanTokens hne, horder,
    Option.bind_some]
  rfl

/-- **The text of a scan is read as what was asked for** exactly if no term of the order descends
and the numbers of LIMIT and OFFSET are integers of 64 bits, with a sign. -/
theorem scan_faithful_iff (h : request.Fits database) :
    (∀ explain, ScanFaithful database request explain) ↔
      (∀ term ∈ request.orderTerms, term.descending = false) ∧
        (∀ n ∈ request.limit, n.toNat < 2 ^ 63) ∧ ∀ n ∈ request.offset, n.toNat < 2 ^ 63 := by
  constructor
  · intro hfaithful
    obtain ⟨sql, statement, hbuild, hselect, -⟩ := hfaithful false
    obtain rfl := Except.ok.inj ((embeddedBuildScanSql_eq h false).symm.trans hbuild)
    have hasc : ∀ term ∈ request.orderTerms, term.descending = false := by
      by_contra hdesc
      rw [readSelect_descending h.projection_ne false (by simpa using hdesc)] at hselect
      exact absurd hselect nofun
    refine ⟨hasc, ?_⟩
    by_contra hbeyond
    rw [readSelect_ascending h.projection_ne false hasc,
      takeLimit_limitTokens_none hbeyond] at hselect
    exact absurd hselect nofun
  · rintro ⟨hasc, hlimit, hoffset⟩ explain
    refine ⟨_, requestedStatement request explain, embeddedBuildScanSql_eq h explain, ?_,
      requestedStatement_asks request explain⟩
    rw [readSelect_ascending h.projection_ne explain hasc, takeLimit_limitTokens hlimit hoffset,
      Option.bind_some, if_pos rfl]
    rfl

/-- A database of two columns, without an index. -/
def twoColumns : EmbeddedDatabase where
  columnCount := 2
  indexCount := 0
  columnCount_le := by decide
  indexCount_le := by decide

/-- `SELECT c1,c0 FROM vps_snapshot WHERE c0>=? ORDER BY c1 ASC LIMIT -1 OFFSET 3` -/
def ascendingRequest : EmbeddedScanRequest ℤ where
  projection := [1, 0]
  constraints := [⟨0, .ge, 7⟩]
  orderTerms := [⟨1, false⟩]
  selectedIndex := none
  limit := none
  offset := some 3

theorem ascendingRequest_fits : ascendingRequest.Fits twoColumns where
  projection_ne := by decide
  projection_le := by decide
  projection := by decide
  constraints_le := by decide
  constraints := fun constraint hconstraint => by
    rw [List.mem_singleton.mp hconstraint]
    decide
  orderTerms_le := by decide
  orderTerms := by decide
  selectedIndex := by decide

theorem scan_faithful_ascending : ScanFaithful twoColumns ascendingRequest false ∧
    ScanFaithful twoColumns ascendingRequest true :=
  have h := (scan_faithful_iff ascendingRequest_fits).mpr
    ⟨by decide, by simp [ascendingRequest], by simp [ascendingRequest]⟩
  ⟨h false, h true⟩

/-- The newest row first. -/
def descendingRequest : EmbeddedScanRequest ℤ where
  projection := [0]
  constraints := []
  orderTerms := [⟨0, true⟩]
  selectedIndex := none
  limit := some 1
  offset := none

/-- `SELECT c0 FROM vps_snapshot ORDER BY c0 DES LIMIT 1` is no statement. -/
theorem scan_unfaithful_descending : descendingRequest.Fits twoColumns ∧
    embeddedBuildScanSql twoColumns descendingRequest false =
      .ok (ascii "SELECT c0 FROM vps_snapshot ORDER BY c0 DES LIMIT 1") ∧
    ¬ScanFaithful twoColumns descendingRequest false := by
  have hfits : descendingRequest.Fits twoColumns :=
    ⟨by decide, by decide, by decide, by decide, fun _ h => absurd h List.not_mem_nil, by decide,
      by decide, by decide⟩
  have hbuild := embeddedBuildScanSql_eq hfits false
  have htext : scanText descendingRequest false =
      ascii "SELECT c0 FROM vps_snapshot ORDER BY c0 DES LIMIT 1" := by decide +kernel
  have hselect :
    readSelect (ascii "SELECT c0 FROM vps_snapshot ORDER BY c0 DES LIMIT 1") = none := by
    decide +kernel
  rw [htext] at hbuild
  refine ⟨hfits, hbuild, ?_⟩
  rintro ⟨sql, statement, hsql, hread, -⟩
  obtain rfl := Except.ok.inj (hbuild.symm.trans hsql)
  rw [hselect] at hread
  exact nomatch hread

/-- A limit that holds nothing back: more rows than SQLite counts. -/
def unboundedRequest : EmbeddedScanRequest ℤ where
  projection := [0]
  constraints := []
  orderTerms := []
  selectedIndex := none
  limit := some 9223372036854775808
  offset := none

/-- `SELECT c0 FROM vps_snapshot LIMIT 9223372036854775808` gives no row. -/
theorem scan_unfaithful_unbounded : unboundedRequest.Fits twoColumns ∧
    embeddedBuildScanSql twoColumns unboundedRequest false =
      .ok (ascii "SELECT c0 FROM vps_snapshot LIMIT 9223372036854775808") ∧
    readSelect (ascii "SELECT c0 FROM vps_snapshot LIMIT 9223372036854775808") = none := by
  have hfits : unboundedRequest.Fits twoColumns :=
    ⟨by decide, by decide, by decide, by decide, fun _ h => absurd h List.not_mem_nil, by decide,
      by decide, by decide⟩
  have hbuild := embeddedBuildScanSql_eq hfits false
  have htext : scanText unboundedRequest false =
      ascii "SELECT c0 FROM vps_snapshot LIMIT 9223372036854775808" := by decide +kernel
  rw [htext] at hbuild
  exact ⟨hfits, hbuild, by decide +kernel⟩

end Vps
