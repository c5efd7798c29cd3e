import VirtualPostgreSQL.Dml.Plan

/-!
# Dml/Statement — what the written statement says

A statement is a list of pieces: words and marks, quoted names, and the places of parameters, each
with the slot it is for.  Its text numbers the places in order (`render`), and its parameters are
the slots in the same order, so the two cannot disagree.  `dmlStatement` is the statement a plan is
meant to be, and `dmlPlanBuild` builds it (`dmlPlanBuild_eq`).
-/

namespace Vps

open Machinery

/-! ## Pieces -/

/-- A piece of a statement. -/
inductive DmlPiece
  | text (bytes : List UInt8)
  | name (bytes : List UInt8)
  | place (slot : DmlParameterSlot)
  deriving DecidableEq, Repr

/-- The slot of a piece, if it is a place of a parameter. -/
def DmlPiece.slot? : DmlPiece → Option DmlParameterSlot
  | .place slot => some slot
  | _ => none

/-- The slots of a statement, in order. -/
def slots (pieces : List DmlPiece) : List DmlParameterSlot := pieces.filterMap DmlPiece.slot?

/-- A piece as it is written; `number` is that of the next place. -/
def DmlPiece.bytes (number : ℕ) : DmlPiece → List UInt8
  | .text bytes => bytes
  | .name bytes => quoteIdentifier bytes
  | .place _ => 36 :: decimal number

/-- **The text of a statement**, its places numbered from `number` on. -/
def render : ℕ → List DmlPiece → List UInt8
  | _, [] => []
  | number, piece :: pieces =>
    piece.bytes number ++ render (number + (slots [piece]).length) pieces

section Pieces

variable (number : ℕ) (bytes : List UInt8) (slot : DmlParameterSlot) (pieces : List DmlPiece)

@[simp] theorem slots_nil : slots [] = [] := rfl

@[simp] theorem slots_text : slots (.text bytes :: pieces) = slots pieces := rfl

@[simp] theorem slots_name : slots (.name bytes :: pieces) = slots pieces := rfl

@[simp] theorem slots_place : slots (.place slot :: pieces) = slot :: slots pieces := rfl

@[simp] theorem render_nil : render number [] = [] := rfl

@[simp] theorem render_text :
    render number (.text bytes :: pieces) = bytes ++ render number pieces :=
  rfl

/-- A name is written in quotes, with its own quotes doubled. -/
@[simp] theorem render_name :
    render number (.name bytes :: pieces) = quoteIdentifier bytes ++ render number pieces := rfl

/-- A place is written as its number, and the places behind it count on from there. -/
@[simp] theorem render_place :
    render number (.place slot :: pieces) = 36 :: decimal number ++ render (number + 1) pieces :=
  rfl

end Pieces

/-- The slots of two lists of pieces are those of the first and then those of the second. -/
@[simp] theorem slots_append (pieces pieces' : List DmlPiece) :
    slots (pieces ++ pieces') = slots pieces ++ slots pieces' := List.filterMap_append

theorem slots_cons (piece : DmlPiece) (pieces : List DmlPiece) :
    slots (piece :: pieces) = slots [piece] ++ slots pieces := slots_append [piece] pieces

/-- The second of two lists of pieces is numbered on from the slots of the first. -/
theorem render_append (number : ℕ) (pieces pieces' : List DmlPiece) :
    render number (pieces ++ pieces') =
      render number pieces ++ render (number + (slots pieces).length) pieces' := by
  induction pieces generalizing number with
  | nil => rfl
  | cons piece pieces ih =>
    rw [List.cons_append, render, ih, render, slots_cons piece pieces, List.length_append,
      List.append_assoc, Nat.add_assoc]

/-- Lists of pieces with a text between two of them. -/
def separated (separator : List UInt8) : List (List DmlPiece) → List DmlPiece
  | [] => []
  | entry :: entries => entry ++ entries.flatMap (.text separator :: ·)

/-- Entries behind a list that is not empty come each with its separator. -/
theorem separated_append (separator : List UInt8) {entries : List (List DmlPiece)}
    (h : entries ≠ []) (entries' : List (List DmlPiece)) :
    separated separator (entries ++ entries') =
      separated separator entries ++ entries'.flatMap (.text separator :: ·) := by
  obtain ⟨entry, entries, rfl⟩ := List.exists_cons_of_ne_nil h
  simp [separated]

/-! ## The statement -/

section Statement

variable (policy : DmlPolicy)

/-- The name of a visible column. -/
def DmlPolicy.columnName (visible : ℕ) : List UInt8 :=
  (policy.columns[visible]?.bind (·.column.name)).getD []

/-- The relation that is written. -/
def dmlTargetPieces : List DmlPiece :=
  [.name policy.metadata.schemaName, .text (ascii "."), .name policy.metadata.relationName]

/-- The function that reads the value of a spatial column, with its opening parenthesis. -/
def SpatialFormat.reader (format : SpatialFormat) (geography : Bool) : List UInt8 :=
  match format with
  | .wkt => ascii ".ST_GeomFromText("
  | .wkb => ascii ".ST_GeomFromWKB("
  | .ewkt => if geography then ascii ".ST_GeogFromText(" else ascii ".ST_GeomFromEWKT("
  | _ => if geography then ascii ".ST_GeogFromWKB(" else ascii ".ST_GeomFromEWKB("

/-- What follows the value of a spatial column. -/
def SpatialFormat.cast (format : SpatialFormat) : List UInt8 :=
  match format with
  | .wkt => ascii "::pg_catalog.text,"
  | .wkb => ascii "::pg_catalog.bytea,"
  | .ewkt => ascii "::pg_catalog.text)"
  | _ => ascii "::pg_catalog.bytea)"

/-- The type of the value of a spatial column. -/
def SpatialFormat.valueOid (format : SpatialFormat) : UInt32 :=
  if format = .wkb ∨ format = .ewkb then 17 else 25

/-- The value of a spatial column: with its reference system as a second parameter where the format
does not carry it. -/
def spatialPieces (schema : List UInt8) (geography : Bool) (format : SpatialFormat) (visible : ℕ) :
    List DmlPiece :=
  let value : List DmlPiece :=
    [.name schema, .text (format.reader geography),
      .place ⟨.newValue, visible, format.valueOid⟩, .text format.cast]
  if format.takesSrid then
    let call := value ++ [.place ⟨.spatialSrid, visible, 23⟩, .text (ascii "::pg_catalog.int4)")]
    if geography then
      .text (ascii "CAST(") :: call ++
        [.text (ascii " AS "), .name schema, .text (ascii "."), .name (ascii "geography"),
          .text (ascii ")")]
    else call
  else value

/-- The new value of a column. -/
def dmlValuePieces (visible : ℕ) : List DmlPiece :=
  match policy.columns[visible]? with
  | none => []
  | some column =>
    if column.spatialKind ≠ 0 ∧ policy.spatialFormat ≠ .none then
      spatialPieces ((policy.spatial.map (·.schema)).getD []) (column.spatialKind != 1)
        policy.spatialFormat visible
    else [.place ⟨.newValue, visible, column.selection.declaredTypeOid⟩]

/-- The conjunct that compares a column with an old value. -/
def dmlSame (visible : ℕ) (slot : DmlParameterSlot) : List DmlPiece :=
  [.name (policy.columnName visible), .text (ascii " IS NOT DISTINCT FROM "), .place slot]

/-- The visible column of the version. -/
def DmlPolicy.version : ℕ := policy.versionVisible.getD policy.columns.length

/-- The conjunct of the version, if the mode asks for one. -/
def dmlOptimistic : List (List DmlPiece) :=
  match policy.optimisticMode with
  | .off => []
  | .column => [dmlSame policy policy.version ⟨.oldOptimistic, 0, policy.typeOid policy.version⟩]
  | .xmin => [[.text (ascii "xmin="), .place ⟨.oldOptimistic, 0, 28⟩,
      .text (ascii "::pg_catalog.xid")]]

/-- **The conjuncts of the predicate**: one for every column of the key, and the version's. -/
def dmlConjuncts : List (List DmlPiece) :=
  (policy.keyVisible.zipIdx.map fun key =>
    dmlSame policy key.1 ⟨.oldKey, key.2, policy.typeOid key.1⟩) ++ dmlOptimistic policy

/-- The predicate. -/
def dmlWhere : List DmlPiece :=
  .text (ascii " WHERE ") :: separated (ascii " AND ") (dmlConjuncts policy)

/-- What is returned: the key, and the version. -/
def dmlReturningPieces : List DmlPiece :=
  .text (ascii " RETURNING ") ::
    separated (ascii ",")
      (policy.keyVisible.map fun visible => [.name (policy.columnName visible)]) ++
    match policy.optimisticMode with
    | .off => []
    | .column => [.text (ascii ","), .name (policy.columnName policy.version)]
    | .xmin => [.text (ascii ",xmin::pg_catalog.text")]

/-- What an INSERT writes. -/
def dmlInsertPieces (written : List ℕ) : List DmlPiece :=
  if written = [] then [.text (ascii " DEFAULT VALUES")]
  else
    .text (ascii " (") ::
      separated (ascii ",") (written.map fun visible => [.name (policy.columnName visible)]) ++
      .text (ascii ") VALUES (") :: separated (ascii ",") (written.map (dmlValuePieces policy)) ++
      [.text (ascii ")")]

/-- The assignment of a column. -/
def dmlAssignmentPieces (visible : ℕ) : List DmlPiece :=
  .name (policy.columnName visible) :: .text (ascii "=") :: dmlValuePieces policy visible

/-- **The statement of an operation** on the included columns. -/
def dmlStatement (operation : DmlOperation) (included : List Bool) : List DmlPiece :=
  let written := includedColumns policy included
  match operation with
  | .insert =>
    .text (ascii "INSERT INTO ") :: dmlTargetPieces policy ++ dmlInsertPieces policy written ++
      dmlReturningPieces policy
  | .update =>
    .text (ascii "UPDATE ") :: dmlTargetPieces policy ++
      .text (ascii " SET ") :: separated (ascii ",") (written.map (dmlAssignmentPieces policy)) ++
      dmlWhere policy ++ dmlReturningPieces policy
  | .delete =>
    .text (ascii "DELETE FROM ") :: dmlTargetPieces policy ++ dmlWhere policy ++
      dmlReturningPieces policy

end Statement

/-! ## Building it -/

/-- A name that can be written: it is not empty, and no byte of it is zero. -/
def DmlPiece.Valid : DmlPiece → Prop
  | .name bytes => bytes ≠ [] ∧ 0 ∉ bytes
  | _ => True

/-- **What was written between two states of a plan**: pieces that are valid; their text was
appended, its places numbered from the next number on, and so were their slots. -/
structure DmlPlan.Wrote (plan plan' : DmlPlan) (pieces : List DmlPiece) : Prop where
  query : plan'.query = plan.query ++ render (plan.parameters.length + 1) pieces
  parameters : plan'.parameters = plan.parameters ++ slots pieces
  valid : ∀ piece ∈ pieces, piece.Valid

/-- What was written in two goes was written. -/
theorem DmlPlan.Wrote.trans {plan plan' plan'' : DmlPlan} {pieces pieces' : List DmlPiece}
    (h : plan.Wrote plan' pieces) (h' : plan'.Wrote plan'' pieces') :
    plan.Wrote plan'' (pieces ++ pieces') where
  query := by
    rw [h'.query, h.query, h.parameters, List.length_append, render_append, List.append_assoc,
      Nat.add_right_comm]
  parameters := by rw [h'.parameters, h.parameters, slots_append, List.append_assoc]
  valid piece hmem := (List.mem_append.1 hmem).elim (h.valid piece) (h'.valid piece)

/-- A step of the builder writes pieces. -/
def DmlWrites (step : DmlPlan → Except DmlError DmlPlan) (pieces : List DmlPiece) : Prop :=
  ∀ plan plan', step plan = .ok plan' → plan.Wrote plan' pieces

/-- **Two steps write what the first writes and then what the second writes.** -/
theorem DmlWrites.bind {step step' : DmlPlan → Except DmlError DmlPlan}
    {pieces pieces' : List DmlPiece} (h : DmlWrites step pieces) (h' : DmlWrites step' pieces') :
    DmlWrites (fun plan => step plan >>= step') (pieces ++ pieces') := by
  intro plan plan'' hok
  obtain ⟨plan', hstep, hstep'⟩ := ok_of_bind hok
  exact (h plan plan' hstep).trans (h' plan' plan'' hstep')

/-- Writing nothing leaves the plan as it is. -/
theorem DmlPlan.Wrote.refl (plan : DmlPlan) : plan.Wrote plan [] := ⟨by simp, by simp, by simp⟩

/-- A step that only succeeds writes nothing. -/
theorem DmlWrites.pure : DmlWrites Except.ok [] := by
  rintro plan _ ⟨⟩
  exact .refl plan

/-- An append that succeeds has put its text behind the query and changed nothing else. -/
theorem dmlAppend_eq {failure : DmlError} {text : List UInt8} {plan plan' : DmlPlan}
    (h : dmlAppend failure text plan = .ok plan') :
    plan' = { plan with query := plan.query ++ text } := by
  unfold dmlAppend at h
  split_ifs at h
  exact (Except.ok.inj h).symm

/-- A parameter that is taken goes behind the ones there are. -/
theorem dmlAddParameter_eq {failure : DmlError} {slot : DmlParameterSlot} {plan plan' : DmlPlan}
    (h : dmlAddParameter failure slot plan = .ok plan') :
    plan' = { plan with parameters := plan.parameters ++ [slot] } := by
  unfold dmlAddParameter at h
  split_ifs at h
  exact (Except.ok.inj h).symm

/-- An append writes its text. -/
theorem writes_append (failure : DmlError) (text : List UInt8) :
    DmlWrites (dmlAppend failure text) [.text text] := by
  intro plan plan' hok
  obtain rfl := dmlAppend_eq hok
  exact ⟨by simp, by simp, by simp [DmlPiece.Valid]⟩

/-- An identifier is written as a name. -/
theorem writes_identifier (failure : DmlError) (name : List UInt8) :
    DmlWrites (dmlIdentifier failure name) [.name name] := by
  intro plan plan' hok
  unfold dmlIdentifier at hok
  split_ifs at hok with hname
  obtain ⟨hquery, hslots, -⟩ := writes_append _ _ _ _ hok
  refine ⟨hquery, hslots, fun piece hmem => ?_⟩
  obtain rfl := List.mem_singleton.1 hmem
  exact not_or.1 hname

/-- A column is written under the name that the policy has for it. -/
theorem writes_columnIdentifier (failure : DmlError) (policy : DmlPolicy) (visible : ℕ) :
    DmlWrites (dmlColumnIdentifier failure policy visible) [.name (policy.columnName visible)] := by
  intro plan plan' hok
  unfold dmlColumnIdentifier at hok
  unfold DmlPolicy.columnName
  split at hok
  · cases hok
  · rename_i name hname
    rw [hname]
    exact writes_identifier _ _ _ _ hok

/-- Bookkeeping beside the text and the slots writes nothing. -/
theorem DmlWrites.map {step : DmlPlan → Except DmlError DmlPlan} {pieces : List DmlPiece}
    (h : DmlWrites step pieces) {f : DmlPlan → DmlPlan}
    (hquery : ∀ plan, (f plan).query = plan.query)
    (hslots : ∀ plan, (f plan).parameters = plan.parameters) :
    DmlWrites (fun plan => step plan >>= fun plan => .ok (f plan)) pieces := by
  intro plan plan'' hok
  obtain ⟨plan', hstep, hok⟩ := ok_of_bind hok
  cases hok
  have hwrote := h plan plan' hstep
  exact ⟨(hquery plan').trans hwrote.query, (hslots plan').trans hwrote.parameters, hwrote.valid⟩

/-- A step that first changes a field which is neither text nor slot writes the same. -/
theorem DmlWrites.comap {step : DmlPlan → Except DmlError DmlPlan} {pieces : List DmlPiece}
    (h : DmlWrites step pieces) {f : DmlPlan → DmlPlan}
    (hquery : ∀ plan, (f plan).query = plan.query)
    (hslots : ∀ plan, (f plan).parameters = plan.parameters) :
    DmlWrites (fun plan => step (f plan)) pieces := by
  intro plan plan' hok
  obtain ⟨hq, hs, hvalid⟩ := h (f plan) plan' hok
  rw [hquery, hslots] at hq
  rw [hslots] at hs
  exact ⟨hq, hs, hvalid⟩

/-- A place: the placeholder is written under the number of the slot that is added. -/
theorem writes_place (failure failure' : DmlError) (slot : DmlParameterSlot) :
    DmlWrites (fun plan => dmlPlaceholder failure (plan.parameters.length + 1) plan >>=
      dmlAddParameter failure' slot) [.place slot] := by
  intro plan plan'' hok
  obtain ⟨plan', hplaceholder, hadd⟩ := ok_of_bind hok
  obtain rfl := dmlAppend_eq hplaceholder
  obtain rfl := dmlAddParameter_eq hadd
  exact ⟨by simp, by simp, by simp [DmlPiece.Valid]⟩

section Loop

variable {ι : Type*} {failure : DmlError} {separator : List UInt8}
  {check : ι → Except DmlError Unit} {item : ι → DmlPlan → Except DmlError DmlPlan}
  {pieces : ι → List DmlPiece}

/-- A loop that is past its first entry writes each entry behind a separator. -/
theorem writes_dmlLoop_false (h : ∀ entry, DmlWrites (item entry) (pieces entry))
    (entries : List ι) :
    DmlWrites (dmlLoop failure separator check item entries false)
      ((entries.map pieces).flatMap (.text separator :: ·)) := by
  induction entries with
  | nil => exact .pure
  | cons entry entries ih =>
    intro plan plan' hok
    obtain ⟨_, -, hok⟩ := ok_of_bind hok
    exact ((writes_append failure separator).bind ((h entry).bind ih)) plan plan' hok

/-- **A loop writes its entries with the separator between them.** -/
theorem writes_dmlLoop (h : ∀ entry, DmlWrites (item entry) (pieces entry)) (entries : List ι) :
    DmlWrites (dmlLoop failure separator check item entries true)
      (separated separator (entries.map pieces)) := by
  cases entries with
  | nil => exact .pure
  | cons entry entries =>
    intro plan plan' hok
    obtain ⟨_, -, hok⟩ := ok_of_bind hok
    exact ((h entry).bind (writes_dmlLoop_false h entries)) plan plan' hok

/-- Every entry of a loop passed its check. -/
theorem check_of_dmlLoop {entries : List ι} {first : Bool} {plan plan' : DmlPlan}
    (hok : dmlLoop failure separator check item entries first plan = .ok plan') :
    ∀ entry ∈ entries, check entry = .ok () := by
  induction entries generalizing first plan with
  | nil => simp
  | cons entry entries ih =>
    obtain ⟨⟨⟩, hcheck, hok⟩ := ok_of_bind hok
    obtain ⟨_, -, hok⟩ := ok_of_bind hok
    obtain ⟨_, -, hok⟩ := ok_of_bind hok
    exact List.forall_mem_cons.2 ⟨hcheck, ih hok⟩

end Loop

/-- The target is written as `"schema"."relation"`. -/
theorem writes_target (policy : DmlPolicy) :
    DmlWrites (dmlTarget policy) (dmlTargetPieces policy) :=
  (writes_identifier _ _).bind ((writes_append _ _).bind (writes_identifier _ _))

/-- A conjunct of the key compares the column with the slot of the old key. -/
theorem writes_keyConjunct (policy : DmlPolicy) (key : ℕ × ℕ) :
    DmlWrites (dmlKeyConjunct policy key)
      (dmlSame policy key.1 ⟨.oldKey, key.2, policy.typeOid key.1⟩) :=
  (writes_columnIdentifier _ _ _).bind ((writes_append _ _).bind (writes_place _ _ _))

/-- An assignment writes the column, `=` and its value. -/
theorem writes_assignment {policy : DmlPolicy} {visible : ℕ}
    (h : DmlWrites (dmlWriteValue policy visible) (dmlValuePieces policy visible)) :
    DmlWrites (dmlAssignment policy visible) (dmlAssignmentPieces policy visible) :=
  (writes_columnIdentifier _ _ _).bind ((writes_append _ _).bind h)

/-- A RETURNING list ends with the optimistic column that the mode asks for. -/
theorem writes_returningOptimistic (policy : DmlPolicy) :
    DmlWrites (dmlReturningOptimistic policy)
      (match policy.optimisticMode with
      | .off => []
      | .column => [.text (ascii ","), .name (policy.columnName policy.version)]
      | .xmin => [.text (ascii ",xmin::pg_catalog.text")]) := by
  unfold dmlReturningOptimistic
  cases policy.optimisticMode with
  | off => exact .pure
  | column =>
    exact (writes_append _ _).bind ((writes_columnIdentifier _ _ _).map (fun _ => rfl) fun _ => rfl)
  | xmin => exact (writes_append _ _).map (fun _ => rfl) fun _ => rfl

/-- A RETURNING list names the key columns and the optimistic one. -/
theorem writes_returning (policy : DmlPolicy) :
    DmlWrites (dmlReturning policy) (dmlReturningPieces policy) := by
  have hkey (visible : ℕ) :
      DmlWrites (dmlReturningKey policy visible) [.name (policy.columnName visible)] :=
    (writes_columnIdentifier _ _ _).map (fun _ => rfl) fun _ => rfl
  exact (writes_append _ _).bind ((writes_dmlLoop hkey _).bind
    ((writes_returningOptimistic policy).comap (fun _ => rfl) fun _ => rfl))

/-! ## Values -/

/-- An identifier of the spatial module is quoted as all others are, and holds no NUL. -/
theorem spatialIdentifier_eq_some {name quoted : List UInt8}
    (h : spatialIdentifier name = some quoted) :
    quoted = quoteIdentifier name ∧ name ≠ [] ∧ 0 ∉ name := by
  unfold spatialIdentifier at h
  split_ifs at h with hname
  simp only [not_or] at hname
  exact ⟨(Option.some.inj h).symm, hname.1, hname.2.1⟩

/-- A spatial expression that is given names a format the server reads and the schema of its
functions. -/
theorem spatialWriteExpression_eq_some {capabilities : SpatialCapabilities} {geography : Bool}
    {format : SpatialFormat} {value srid : ℕ} {sql : List UInt8}
    (h : spatialWriteExpression capabilities geography format value srid = some sql) :
    (format ≠ .none ∧ format ≠ .spatialite) ∧
      (capabilities.schema ≠ [] ∧ 0 ∉ capabilities.schema) ∧
      sql = spatialSql (quoteIdentifier capabilities.schema) geography format value srid := by
  simp only [spatialWriteExpression] at h
  split at h
  · cases h
  split at h
  · cases h
  rename_i hformat
  split at h
  · cases h
  obtain ⟨schema, hschema, h⟩ := Option.bind_eq_some_iff.1 h
  obtain ⟨rfl, hvalid⟩ := spatialIdentifier_eq_some hschema
  split_ifs at h
  exact ⟨not_or.1 hformat, hvalid, (Option.some.inj h).symm⟩

/-- **The expression of a spatial value is its pieces.** -/
theorem spatialSql_eq_render {format : SpatialFormat} (hnone : format ≠ .none)
    (hspatialite : format ≠ .spatialite) (schema : List UInt8) (geography : Bool)
    (value visible : ℕ) :
    spatialSql (quoteIdentifier schema) geography format value
        (if format.takesSrid then value + 1 else 0) =
      render value (spatialPieces schema geography format visible) := by
  have hgeography : quoteIdentifier [103, 101, 111, 103, 114, 97, 112, 104, 121] =
      [34, 103, 101, 111, 103, 114, 97, 112, 104, 121, 34] := by decide
  cases format
  case none => exact absurd rfl hnone
  case spatialite => exact absurd rfl hspatialite
  all_goals
    cases geography <;>
      simp [spatialSql, spatialPieces, SpatialFormat.takesSrid, SpatialFormat.reader,
        SpatialFormat.cast, SpatialFormat.isText, hgeography, ascii]

/-- A spatial value has the slot of its bytes, and one for its SRID where the format leaves it
out. -/
theorem slots_spatialPieces (schema : List UInt8) (geography : Bool) (format : SpatialFormat)
    (visible : ℕ) :
    slots (spatialPieces schema geography format visible) =
      ⟨.newValue, visible, format.valueOid⟩ ::
        if format.takesSrid then [⟨.spatialSrid, visible, 23⟩] else [] := by
  unfold spatialPieces
  split_ifs <;> simp

/-- Every piece of a spatial expression can be written. -/
theorem valid_spatialPieces {schema : List UInt8} (h : schema ≠ [] ∧ 0 ∉ schema) (geography : Bool)
    (format : SpatialFormat) (visible : ℕ) :
    ∀ piece ∈ spatialPieces schema geography format visible, piece.Valid := by
  have hgeography : ascii "geography" ≠ [] ∧ 0 ∉ ascii "geography" := by decide
  unfold spatialPieces
  split_ifs <;> simp [DmlPiece.Valid, h.1, h.2, hgeography.1, hgeography.2]

/-- **A value is written as its column needs it**: a placeholder alone, or in its spatial
wrapper. -/
theorem writes_value (policy : DmlPolicy) (visible : ℕ) :
    DmlWrites (dmlWriteValue policy visible) (dmlValuePieces policy visible) := by
  intro plan plan' hok
  unfold dmlWriteValue at hok
  unfold dmlValuePieces
  cases hcolumn : policy.columns[visible]? with
  | none =>
    rw [hcolumn] at hok
    cases hok
  | some column =>
    simp only [hcolumn] at hok ⊢
    by_cases hspatial : column.spatialKind ≠ 0 ∧ policy.spatialFormat ≠ .none
    · rw [if_pos hspatial] at hok ⊢
      split at hok
      · cases hok
      rename_i expression hexpression
      obtain ⟨spatial, hsome, hexpression⟩ := Option.bind_eq_some_iff.1 hexpression
      obtain ⟨⟨hnone, hspatialite⟩, hschema, rfl⟩ := spatialWriteExpression_eq_some hexpression
      obtain ⟨written, hwritten, hok⟩ := ok_of_bind hok
      obtain ⟨valued, hvalued, hok⟩ := ok_of_bind hok
      obtain rfl := dmlAppend_eq hwritten
      obtain rfl := dmlAddParameter_eq hvalued
      have htext := spatialSql_eq_render hnone hspatialite spatial.schema (column.spatialKind != 1)
        (plan.parameters.length + 1) visible
      have hslots := slots_spatialPieces spatial.schema (column.spatialKind != 1)
        policy.spatialFormat visible
      have hvalid :=
        valid_spatialPieces hschema (column.spatialKind != 1) policy.spatialFormat visible
      rw [hsome]
      by_cases hsrid : policy.spatialFormat.takesSrid
      · simp only [hsrid, if_true] at hok htext hslots
        rw [if_pos (by omega)] at hok
        obtain rfl := dmlAddParameter_eq hok
        exact ⟨congrArg _ htext, by
          rw [Option.map_some, Option.getD_some, hslots]; simp [SpatialFormat.valueOid], hvalid⟩
      · simp only [hsrid, if_false, Bool.false_eq_true, ne_eq,
          not_true_eq_false] at hok htext hslots
        cases hok
        exact ⟨congrArg _ htext, by rw [Option.map_some, Option.getD_some, hslots]; rfl, hvalid⟩
    · rw [if_neg hspatial] at hok ⊢
      exact writes_place _ _ _ plan plan' hok

/-! ## The predicate -/

/-- A mode other than OFF adds one conjunct behind an AND. -/
theorem writes_optimisticConjunct {policy : DmlPolicy} (hmode : policy.optimisticMode ≠ .off)
    (optimistic : RowIdentityField) :
    DmlWrites (dmlOptimisticConjunct policy optimistic)
      ((dmlOptimistic policy).flatMap (.text (ascii " AND ") :: ·)) := by
  intro plan plan' hok
  obtain ⟨joined, hjoined, hok⟩ := ok_of_bind hok
  obtain ⟨compared, hcompared, hok⟩ := ok_of_bind hok
  unfold dmlOptimisticComparison at hcompared
  unfold dmlOptimistic
  cases hm : policy.optimisticMode with
  | off => exact absurd hm hmode
  | column =>
    simp only [hm, reduceCtorEq, if_false] at hcompared hok
    split at hok
    · cases hok
    obtain ⟨named, hnamed, hcompared⟩ := ok_of_bind hcompared
    obtain ⟨worded, hworded, hplaced⟩ := ok_of_bind hcompared
    have hplace : (dmlPlaceholder .outOfMemory (worded.parameters.length + 1) worded >>=
        dmlAddParameter .malformedIdentity ⟨.oldOptimistic, 0, policy.typeOid policy.version⟩) =
        .ok plan' := by
      rw [hplaced]
      exact hok
    exact (writes_append _ _ _ _ hjoined).trans ((writes_columnIdentifier _ _ _ _ _ hnamed).trans
      ((writes_append _ _ _ _ hworded).trans (writes_place _ _ _ _ _ hplace)))
  | xmin =>
    simp only [hm, if_true] at hcompared hok
    split at hok
    · cases hok
    obtain ⟨named, hnamed, hcompared⟩ := ok_of_bind hcompared
    obtain ⟨placed, hplaced, hcast⟩ := ok_of_bind hcompared
    obtain rfl := dmlAppend_eq hjoined
    obtain rfl := dmlAppend_eq hnamed
    obtain rfl := dmlAppend_eq hplaced
    obtain rfl := dmlAppend_eq hcast
    obtain rfl := dmlAddParameter_eq hok
    exact ⟨by simp, by simp, by simp [DmlPiece.Valid]⟩

/-- **The predicate is the conjunction** over the key and the version. -/
theorem writes_originalPredicate {policy : DmlPolicy} (hkey : policy.keyVisible ≠ [])
    (identity : Option RowIdentityView) :
    DmlWrites (dmlOriginalPredicate policy identity)
      (separated (ascii " AND ") (dmlConjuncts policy)) := by
  intro plan plan' hok
  unfold dmlOriginalPredicate at hok
  split at hok
  · cases hok
  split at hok
  · cases hok
  obtain ⟨keyed, hkeyed, hok⟩ := ok_of_bind hok
  have hnonempty : (policy.keyVisible.zipIdx.map fun key =>
      dmlSame policy key.1 ⟨.oldKey, key.2, policy.typeOid key.1⟩) ≠ [] := by
    simpa using hkey
  have hkeys :=
    writes_dmlLoop (writes_keyConjunct policy) policy.keyVisible.zipIdx plan keyed hkeyed
  rw [dmlConjuncts, separated_append _ hnonempty]
  refine hkeys.trans ?_
  split at hok
  · rename_i hmode
    cases hok
    rw [dmlOptimistic, hmode]
    exact .refl _
  · rename_i optimistic _ hmode
    exact writes_optimisticConjunct hmode optimistic keyed plan' hok
  · cases hok

/-! ## The whole statement -/

/-- An INSERT writes its target, its columns and its values. -/
theorem writes_insert (policy : DmlPolicy) (included : List Bool) :
    DmlWrites (dmlInsert policy included)
      (.text (ascii "INSERT INTO ") :: dmlTargetPieces policy ++
        dmlInsertPieces policy (includedColumns policy included)) := by
  intro plan plan' hok
  obtain ⟨opened, hopened, hok⟩ := ok_of_bind hok
  obtain ⟨targeted, htargeted, hok⟩ := ok_of_bind hok
  obtain ⟨_, -, hok⟩ := ok_of_bind hok
  refine ((writes_append _ _ _ _ hopened).trans (writes_target policy _ _ htargeted)).trans ?_
  unfold dmlInsertPieces
  by_cases hwritten : includedColumns policy included = []
  · rw [if_pos hwritten] at hok ⊢
    exact writes_append _ _ _ _ hok
  · rw [if_neg hwritten] at hok ⊢
    obtain ⟨parenthesis, hparenthesis, hok⟩ := ok_of_bind hok
    obtain ⟨named, hnamed, hok⟩ := ok_of_bind hok
    obtain ⟨middle, hmiddle, hok⟩ := ok_of_bind hok
    obtain ⟨valued, hvalued, hok⟩ := ok_of_bind hok
    have hnames := (writes_append _ _ _ _ hparenthesis).trans
      (writes_dmlLoop (writes_columnIdentifier _ policy) _ _ _ hnamed)
    have hvalues := (writes_append _ _ _ _ hmiddle).trans
      (writes_dmlLoop (writes_value policy) _ _ _ hvalued)
    exact (hnames.trans hvalues).trans (writes_append _ _ _ _ hok)

/-- An UPDATE writes its target and its assignments, up to the WHERE. -/
theorem writes_update (policy : DmlPolicy) (included : List Bool) :
    DmlWrites (dmlUpdate policy included)
      (.text (ascii "UPDATE ") :: dmlTargetPieces policy ++ .text (ascii " SET ") ::
        separated (ascii ",")
          ((includedColumns policy included).map (dmlAssignmentPieces policy)) ++
        [.text (ascii " WHERE ")]) := by
  intro plan plan' hok
  obtain ⟨opened, hopened, hok⟩ := ok_of_bind hok
  obtain ⟨targeted, htargeted, hok⟩ := ok_of_bind hok
  obtain ⟨set, hset, hok⟩ := ok_of_bind hok
  obtain ⟨assigned, hassigned, hok⟩ := ok_of_bind hok
  split at hok
  · cases hok
  have htarget := (writes_append _ _ _ _ hopened).trans (writes_target policy _ _ htargeted)
  have hassignments := (writes_append _ _ _ _ hset).trans
    (writes_dmlLoop (fun visible => writes_assignment (writes_value policy visible))
      _ _ _ hassigned)
  exact (htarget.trans hassignments).trans (writes_append _ _ _ _ hok)

/-- A DELETE writes its target, up to the WHERE. -/
theorem writes_delete (policy : DmlPolicy) :
    DmlWrites (dmlDelete policy)
      (.text (ascii "DELETE FROM ") :: dmlTargetPieces policy ++ [.text (ascii " WHERE ")]) := by
  intro plan plan' hok
  obtain ⟨opened, hopened, hok⟩ := ok_of_bind hok
  obtain ⟨targeted, htargeted, hok⟩ := ok_of_bind hok
  exact ((writes_append _ _ _ _ hopened).trans (writes_target policy _ _ htargeted)).trans
    (writes_append _ _ _ _ hok)

/-- **The builder builds the statement.** -/
theorem dmlPlanBuild_eq {policy : DmlPolicy} (hkey : policy.keyVisible ≠ [])
    {operation : DmlOperation} {included : List Bool} {identity : Option RowIdentityView}
    {plan : DmlPlan} (hok : dmlPlanBuild policy operation included identity = .ok plan) :
    plan.query = render 1 (dmlStatement policy operation included) ∧
      plan.parameters = slots (dmlStatement policy operation included) ∧
      ∀ piece ∈ dmlStatement policy operation included, piece.Valid := by
  unfold dmlPlanBuild at hok
  split at hok
  · cases hok
  obtain ⟨body, hbody, hok⟩ := ok_of_bind hok
  obtain ⟨returned, hreturned, hok⟩ := ok_of_bind hok
  split at hok
  swap
  · cases hok
  cases hok
  have hreturning := writes_returning policy _ _ hreturned
  have hwrote : (DmlPlan.init operation).Wrote plan (dmlStatement policy operation included) := by
    cases operation with
    | insert => exact (writes_insert policy included _ _ hbody).trans hreturning
    | update =>
      obtain ⟨assigned, hassigned, hbody⟩ := ok_of_bind hbody
      have h := ((writes_update policy included _ _ hassigned).trans
        (writes_originalPredicate hkey identity _ _ hbody)).trans hreturning
      simpa [dmlStatement, dmlWhere] using h
    | delete =>
      obtain ⟨targeted, htargeted, hbody⟩ := ok_of_bind hbody
      have h := ((writes_delete policy _ _ htargeted).trans
        (writes_originalPredicate hkey identity _ _ hbody)).trans hreturning
      simpa [dmlStatement, dmlWhere] using h
  exact ⟨hwrote.query, hwrote.parameters, hwrote.valid⟩

/-- A column that passed its check is there and may be written. -/
theorem allowed_of_dmlCheckWritten {allowed : DmlColumn → Bool} {policy : DmlPolicy} {visible : ℕ}
    (h : dmlCheckWritten allowed policy visible = .ok ()) :
    ∃ column, policy.columns[visible]? = some column ∧ allowed column := by
  unfold dmlCheckWritten at h
  split at h
  · cases h
  · rename_i column hcolumn
    split_ifs at h with hallowed
    exact ⟨column, hcolumn, hallowed⟩

/-- A check that went through a list let every entry through. -/
theorem ok_of_forM {ι : Type*} {check : ι → Except DmlError Unit} {entries : List ι}
    (h : entries.forM check = .ok ()) : ∀ entry ∈ entries, check entry = .ok () := by
  induction entries with
  | nil => simp
  | cons entry entries ih =>
    obtain ⟨⟨⟩, hentry, hrest⟩ := ok_of_bind h
    exact List.forall_mem_cons.2 ⟨hentry, ih hrest⟩

/-- **Only columns the policy allows are written.** -/
theorem allowed_of_dmlPlanBuild {policy : DmlPolicy} {operation : DmlOperation}
    {included : List Bool} {identity : Option RowIdentityView} {plan : DmlPlan}
    (hok : dmlPlanBuild policy operation included identity = .ok plan)
    (hwrites : operation ≠ .delete) :
    ∀ visible ∈ includedColumns policy included, ∃ column, policy.columns[visible]? = some column ∧
      (operation = .insert → column.insertable) ∧ (operation = .update → column.updatable) := by
  unfold dmlPlanBuild at hok
  split at hok
  · cases hok
  obtain ⟨body, hbody, -⟩ := ok_of_bind hok
  intro visible hvisible
  cases operation with
  | insert =>
    obtain ⟨_, -, hbody⟩ := ok_of_bind hbody
    obtain ⟨_, -, hbody⟩ := ok_of_bind hbody
    obtain ⟨⟨⟩, hcheck, -⟩ := ok_of_bind hbody
    obtain ⟨column, hcolumn, hallowed⟩ :=
      allowed_of_dmlCheckWritten (ok_of_forM hcheck visible hvisible)
    exact ⟨column, hcolumn, fun _ => hallowed, fun h => by cases h⟩
  | update =>
    obtain ⟨assigned, hassigned, -⟩ := ok_of_bind hbody
    obtain ⟨_, -, hassigned⟩ := ok_of_bind hassigned
    obtain ⟨_, -, hassigned⟩ := ok_of_bind hassigned
    obtain ⟨_, -, hassigned⟩ := ok_of_bind hassigned
    obtain ⟨_, hloop, -⟩ := ok_of_bind hassigned
    obtain ⟨column, hcolumn, hallowed⟩ :=
      allowed_of_dmlCheckWritten (check_of_dmlLoop hloop visible hvisible)
    exact ⟨column, hcolumn, fun h => (by cases h), fun _ => hallowed⟩
  | delete => exact absurd rfl hwrites

end Vps
