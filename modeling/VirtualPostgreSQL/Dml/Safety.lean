import VirtualPostgreSQL.Dml.Legible

/-!
# Dml/Safety — a built statement is safe

`DmlPlan.Safe` says what is promised of a statement: it is qualified by the whole key, its
placeholders are those of its slots and each is supplied by the slot of its place, it writes only
what may be written, and its names are read as they are.  `safe_of_dmlPlanBuild` is the promise.
-/

namespace Vps

open Machinery

/-! ## What the server finds -/

/-- The name of a piece. -/
def DmlPiece.name? : DmlPiece → Option (List UInt8)
  | .name bytes => some bytes
  | _ => none

/-- The name that a mark spells. -/
def LexMark.name? : LexMark → Option (List UInt8)
  | .name bytes => some bytes
  | .placeholder _ => none

/-- The number of a placeholder. -/
def LexMark.placeholder? : LexMark → Option (Option ℕ)
  | .name _ => none
  | .placeholder number => some number

/-- The names in the marks of a statement are the names in its pieces. -/
theorem filterMap_name?_marks (number : ℕ) (pieces : List DmlPiece) :
    (marks number pieces).filterMap LexMark.name? = pieces.filterMap DmlPiece.name? := by
  induction pieces generalizing number with
  | nil => rfl
  | cons piece pieces ih =>
    cases piece with
    | text bytes => exact ih number
    | name bytes => exact congrArg (bytes :: ·) (ih number)
    | place slot => exact ih (number + 1)

/-- **The placeholders of a statement count up** from its first number, one for each slot. -/
theorem filterMap_placeholder?_marks (number : ℕ) (pieces : List DmlPiece) :
    (marks number pieces).filterMap LexMark.placeholder? =
      (List.range' number (slots pieces).length).map some := by
  induction pieces generalizing number with
  | nil => rfl
  | cons piece pieces ih =>
    cases piece with
    | text bytes => exact ih number
    | name bytes => exact ih number
    | place slot => exact congrArg (some number :: ·) (ih (number + 1))

/-- The names and placeholders that the server finds in the text of a statement. -/
theorem lexMarks_render (policy : DmlPolicy) (operation : DmlOperation) (included : List Bool) :
    lexMarks (render 1 (dmlStatement policy operation included)) =
      marks 1 (dmlStatement policy operation included) := by
  have h := legible_statement policy operation included 1 [] (fun _ h => by cases h)
  rwa [List.append_nil, show lexMarks [] = [] from rfl, List.append_nil] at h

/-- There is one optimistic conjunct, or none when the mode is OFF. -/
theorem length_dmlOptimistic (policy : DmlPolicy) :
    (dmlOptimistic policy).length = if policy.optimisticMode = .off then 0 else 1 := by
  unfold dmlOptimistic
  cases policy.optimisticMode <;> rfl

/-- The conjuncts of the key stand in the order of the key. -/
theorem dmlConjuncts_getElem? {policy : DmlPolicy} {index visible : ℕ}
    (h : policy.keyVisible[index]? = some visible) :
    (dmlConjuncts policy)[index]? =
      some (dmlSame policy visible ⟨.oldKey, index, policy.typeOid visible⟩) := by
  have hlt := (List.getElem?_eq_some_iff.1 h).1
  rw [dmlConjuncts, List.getElem?_append_left (by simpa using hlt)]
  simp [h]

/-! ## Safety -/

/-- A policy that `vps_dml_policy_build` accepted, as it is or with what the table knows of its
spatial columns. -/
def DmlPolicy.Accepted (policy : DmlPolicy) : Prop :=
  ∃ metadata mode versionColumn,
    (∃ modeRw, dmlPolicyBuild metadata modeRw mode versionColumn = .ok policy) ∨
    ∃ spatial format spatialColumns,
      tableBuildDmlPolicy metadata mode versionColumn spatial format spatialColumns = .ok policy

/-- What the code accepts as a policy is a sound one. -/
theorem DmlPolicy.Accepted.sound {policy : DmlPolicy} (h : policy.Accepted) : policy.Sound := by
  obtain ⟨_, _, _, ⟨_, h⟩ | ⟨_, _, _, h⟩⟩ := h
  · exact sound_of_dmlPolicyBuild h
  · exact sound_of_tableBuildDmlPolicy h

/-- **A safe statement.** -/
structure DmlPlan.Safe (policy : DmlPolicy) (operation : DmlOperation) (included : List Bool)
    (plan : DmlPlan) : Prop where
  /-- The text is that of the statement. -/
  text : plan.query = render 1 (dmlStatement policy operation included)
  /-- A place of the statement is written as the number of the slot that supplies it. -/
  supplied : ∀ before slot after,
    dmlStatement policy operation included = before ++ .place slot :: after →
      ∃ index, plan.parameters[index]? = some slot ∧
        plan.query = render 1 before ++ (36 :: decimal (index + 1)) ++ render (index + 2) after
  /-- The server finds the placeholders `$1` to `$n`, one for each slot. -/
  placeholders : (lexMarks plan.query).filterMap LexMark.placeholder? =
    (List.range' 1 plan.parameters.length).map some
  /-- The server finds the names of the statement, with the bytes they have. -/
  names : (lexMarks plan.query).filterMap LexMark.name? =
    (dmlStatement policy operation included).filterMap DmlPiece.name?
  /-- An UPDATE or DELETE is qualified. -/
  qualified : operation ≠ .insert → ∃ before,
    dmlStatement policy operation included = before ++ dmlWhere policy ++ dmlReturningPieces policy
  /-- There is one conjunct for every column of the key, and one for the version if the mode is
  on. -/
  conjuncts : ∃ keys, dmlConjuncts policy = keys ++ dmlOptimistic policy ∧
    keys.length = policy.metadata.keyAttributeNumbers.length
  optimistic : (dmlOptimistic policy).length = if policy.optimisticMode = .off then 0 else 1
  keyed : policy.metadata.keyAttributeNumbers ≠ []
  /-- The conjunct of a column of the key compares that column with its old value. -/
  key : ∀ index attributeNumber, policy.metadata.keyAttributeNumbers[index]? =
    some attributeNumber →
    ∃ visible, policy.attributeNumber? visible = some attributeNumber ∧
      (dmlConjuncts policy)[index]? =
        some (dmlSame policy visible ⟨.oldKey, index, policy.typeOid visible⟩)
  /-- A written column may be written, and is not generated. -/
  written : operation ≠ .delete → ∀ visible ∈ includedColumns policy included,
    ∃ column, policy.columns[visible]? = some column ∧ column.column.generatedKind = 0 ∧
      (operation = .insert → column.insertable) ∧ (operation = .update → column.updatable)

/-- An UPDATE and a DELETE have the whole WHERE clause. -/
theorem qualified_of_ne_insert (policy : DmlPolicy) {operation : DmlOperation}
    (h : operation ≠ .insert) (included : List Bool) : ∃ before,
      dmlStatement policy operation included =
        before ++ dmlWhere policy ++ dmlReturningPieces policy := by
  cases operation with
  | insert => exact absurd rfl h
  | update => exact ⟨_, rfl⟩
  | delete => exact ⟨_, rfl⟩

/-- **A built statement is safe.** -/
theorem safe_of_dmlPlanBuild {policy : DmlPolicy} (hpolicy : policy.Accepted)
    {operation : DmlOperation} {included : List Bool} {identity : Option RowIdentityView}
    {plan : DmlPlan} (hplan : dmlPlanBuild policy operation included identity = .ok plan) :
    plan.Safe policy operation included := by
  have hsound := hpolicy.sound
  obtain ⟨htext, hslots, -⟩ := dmlPlanBuild_eq hsound.keyNonempty hplan
  have hmarks : lexMarks plan.query = marks 1 (dmlStatement policy operation included) := by
    rw [htext, lexMarks_render]
  have hlength : policy.keyVisible.length = policy.metadata.keyAttributeNumbers.length := by
    simpa using congrArg List.length hsound.key
  refine ⟨htext, ?_, ?_, ?_, fun h => qualified_of_ne_insert policy h included,
    ⟨_, rfl, by simp [hlength]⟩, length_dmlOptimistic policy, ?_, ?_, ?_⟩
  · intro before slot after hsplit
    refine ⟨(slots before).length, ?_, ?_⟩
    · rw [hslots, hsplit, slots_append, slots_place]
      simp
    · rw [htext, hsplit, render_append, render_place, Nat.add_comm 1, List.append_assoc]
  · rw [hmarks, hslots, filterMap_placeholder?_marks]
  · rw [hmarks, filterMap_name?_marks]
  · intro hnil
    exact hsound.keyNonempty (List.length_eq_zero_iff.1 (by rw [hlength, hnil]; rfl))
  · intro index attributeNumber hindex
    have hmap : (policy.keyVisible.map policy.attributeNumber?)[index]? =
      some (some attributeNumber) := by
      rw [hsound.key, List.getElem?_map, hindex]
      rfl
    rw [List.getElem?_map] at hmap
    obtain ⟨visible, hvisible, hnumber⟩ := Option.map_eq_some_iff.1 hmap
    exact ⟨visible, hnumber, dmlConjuncts_getElem? hvisible⟩
  · intro hwrites visible hvisible
    obtain ⟨column, hcolumn, hinsert, hupdate⟩ :=
      allowed_of_dmlPlanBuild hplan hwrites visible hvisible
    refine ⟨column, hcolumn, ?_, hinsert, hupdate⟩
    refine hsound.writesOwn column (List.mem_of_getElem? hcolumn) ?_
    cases operation with
    | insert => exact .inl (hinsert rfl)
    | update => exact .inr (hupdate rfl)
    | delete => exact absurd rfl hwrites

/-- A column of `dmlFixture`. -/
def dmlFixtureColumn (attributeNumber : ℤ) (typeOid : UInt32) (name typeName : List UInt8)
    (notNull : Bool) : ColumnMetadata where
  attributeNumber := attributeNumber
  typeOid := typeOid
  domainBaseOid := 0
  name := some name
  typeNamespace := some (ascii "pg_catalog")
  typeName := some typeName
  domainBaseNamespace := none
  domainBaseName := none
  typeCategory := 85
  typeKind := 98
  domainBaseKind := 0
  generatedKind := 0
  identityKind := 0
  notNull := notNull
  dropped := false

/-- A table with a key, a payload and a version, in a schema whose name has a quotation mark. -/
def dmlFixture : TableMetadata where
  loaded := true
  relationOid := 4242
  relationKind := .table
  schemaName := ascii "odd\"schema"
  relationName := ascii "dml_fixture"
  columns := [dmlFixtureColumn 1 23 (ascii "id") (ascii "int4") true,
    dmlFixtureColumn 2 25 (ascii "payload") (ascii "text") false,
    dmlFixtureColumn 3 20 (ascii "version") (ascii "int8") true]
  keySource := .primary
  keyReadOnly := false
  keyAttributeNumbers := [1]
  writePolicy := .allowed

/-- The row of `dmlFixture` that is updated. -/
def dmlFixtureRow : RowIdentityView where
  relationOid := 4242
  keyFields := [{ kind := 2, typeOid := 23, span := .bytes (ascii "7") }]
  optimisticField := some { kind := 2, typeOid := 20, span := .bytes (ascii "11") }

/-- The policy of `dmlFixture`. -/
def dmlFixturePolicy : DmlPolicy where
  metadata := dmlFixture
  columns := dmlFixture.columns.filterMap fun column =>
    (typeRegistrySelect column).map (DmlColumn.of column)
  keyVisible := [0]
  versionVisible := some 2
  optimisticMode := .column
  spatial := none
  spatialFormat := .wkt
  writable := true

theorem accepted_dmlFixturePolicy : dmlFixturePolicy.Accepted :=
  ⟨dmlFixture, .column, ascii "version", .inl ⟨true, by decide +kernel⟩⟩

theorem safe_dmlFixture_update : ∃ plan,
    dmlPlanBuild dmlFixturePolicy .update [false, true, false] (some dmlFixtureRow) = .ok plan ∧
      plan.query = ascii ("UPDATE \"odd\"\"schema\".\"dml_fixture\" SET \"payload\"=$1 WHERE " ++
        "\"id\" IS NOT DISTINCT FROM $2 AND \"version\" IS NOT DISTINCT FROM $3 " ++
        "RETURNING \"id\",\"version\"") ∧
      plan.Safe dmlFixturePolicy .update [false, true, false] := by
  have hsome : ((dmlPlanBuild dmlFixturePolicy .update [false, true, false]
      (some dmlFixtureRow)).toOption.map (·.query)) =
      some (ascii ("UPDATE \"odd\"\"schema\".\"dml_fixture\" SET \"payload\"=$1 WHERE " ++
        "\"id\" IS NOT DISTINCT FROM $2 AND \"version\" IS NOT DISTINCT FROM $3 " ++
        "RETURNING \"id\",\"version\"")) := by
    decide +kernel
  cases hplan : dmlPlanBuild dmlFixturePolicy .update [false, true, false] (some dmlFixtureRow) with
  | error failure =>
    rw [hplan] at hsome
    cases hsome
  | ok plan =>
    rw [hplan] at hsome
    exact ⟨plan, rfl, Option.some.inj hsome, safe_of_dmlPlanBuild accepted_dmlFixturePolicy hplan⟩

end Vps
