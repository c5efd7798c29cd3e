import VirtualPostgreSQL.Machinery.Decimal
import VirtualPostgreSQL.Dml.Policy
import VirtualPostgreSQL.Row.Token

/-!
# Dml/Plan — the statement that writes a row

`vps_dml_plan_build` writes the text of an INSERT, UPDATE or DELETE into a buffer and, beside it,
the slots that say where each parameter comes from.  The number of a placeholder is the number of
slots so far plus one.  A buffer that would outgrow its limit fails as the caller of the append
says; no other allocation fails.
-/

namespace Vps

open Machinery

/-! ## The plan -/

/-- `VpsDmlOperation` -/
inductive DmlOperation
  | insert | update | delete
  deriving DecidableEq, Repr

/-- `VpsDmlParameterSource` -/
inductive DmlParameterSource
  | newValue | oldKey | oldOptimistic | spatialSrid
  deriving DecidableEq, Repr

/-- `VpsDmlParameterSlot` -/
structure DmlParameterSlot where
  source : DmlParameterSource
  index : ℕ
  typeOid : UInt32
  deriving DecidableEq, Repr

/-- `VpsDmlPlan`; a returned column is `none` for `UINT16_MAX`. -/
structure DmlPlan where
  operation : DmlOperation
  query : List UInt8
  parameters : List DmlParameterSlot
  returningVisible : List (Option ℕ)
  keyReturningCount : ℕ
  returnsOptimistic : Bool
  deriving DecidableEq, Repr

/-- `VPS_DML_MAX_PARAMETERS` -/
def dmlMaxParameters : ℕ := 2 * dmlMaxColumns + metadataMaxKeyColumns + 1

/-- `VPS_DML_QUERY_LIMIT` -/
def dmlQueryLimit : ℕ := 1024 * 1024

/-- `vps_dml_append`, with the failure its caller returns. -/
def dmlAppend (failure : DmlError) (text : List UInt8) (plan : DmlPlan) : Except DmlError DmlPlan :=
  if plan.query.length + text.length ≤ dmlQueryLimit then
    .ok { plan with query := plan.query ++ text }
  else .error failure

/-- A name between quotation marks, each mark inside doubled. -/
def quoteIdentifier (name : List UInt8) : List UInt8 :=
  34 :: (name.flatMap fun byte => if byte = 34 then [34, 34] else [byte]) ++ [34]

/-- `vps_dml_identifier` -/
def dmlIdentifier (failure : DmlError) (name : List UInt8) (plan : DmlPlan) :
    Except DmlError DmlPlan :=
  if name = [] ∨ 0 ∈ name then .error failure else dmlAppend failure (quoteIdentifier name) plan

/-- `vps_dml_column_name`, and the identifier of the name. -/
def dmlColumnIdentifier (failure : DmlError) (policy : DmlPolicy) (visible : ℕ) (plan : DmlPlan) :
    Except DmlError DmlPlan :=
  match policy.columns[visible]?.bind (·.column.name) with
  | none => .error failure
  | some name => dmlIdentifier failure name plan

/-- `vps_dml_placeholder` -/
def dmlPlaceholder (failure : DmlError) (number : ℕ) (plan : DmlPlan) : Except DmlError DmlPlan :=
  dmlAppend failure (36 :: decimal number) plan

/-- `vps_dml_add_parameter`, with the failure its caller returns. -/
def dmlAddParameter (failure : DmlError) (slot : DmlParameterSlot) (plan : DmlPlan) :
    Except DmlError DmlPlan :=
  if plan.parameters.length ≥ dmlMaxParameters ∨ slot.index > 65535 then .error failure
  else .ok { plan with parameters := plan.parameters ++ [slot] }

/-- `vps_dml_target` -/
def dmlTarget (policy : DmlPolicy) (plan : DmlPlan) : Except DmlError DmlPlan := do
  let plan ← dmlIdentifier .outOfMemory policy.metadata.schemaName plan
  let plan ← dmlAppend .outOfMemory (ascii ".") plan
  dmlIdentifier .outOfMemory policy.metadata.relationName plan

/-! ## Written values -/

/-- `vps_spatial_required_capability` of a written value. -/
def spatialRequiredCapability (format : SpatialFormat) (geography : Bool) : UInt32 :=
  match format with
  | .wkt => 2
  | .wkb => 8
  | .ewkt => if geography then 256 else 32
  | .ewkb => if geography then 512 else 128
  | _ => 0

/-- `vps_spatial_identifier` into the buffer of `vps_spatial_write_expression`. -/
def spatialIdentifier (name : List UInt8) : Option (List UInt8) :=
  if name = [] ∨ 0 ∈ name ∨ (quoteIdentifier name).length ≥ 2 * 63 + 3 then none
  else some (quoteIdentifier name)

/-- The format takes the reference system as a parameter of its own. -/
def SpatialFormat.takesSrid (format : SpatialFormat) : Bool := format = .wkt || format = .wkb

/-- The format is a text. -/
def SpatialFormat.isText (format : SpatialFormat) : Bool := format = .wkt || format = .ewkt

/-- The texts that `vps_spatial_write_expression` prints. -/
def spatialSql (schema : List UInt8) (geography : Bool) (format : SpatialFormat)
    (valueParameter sridParameter : ℕ) : List UInt8 :=
  let value := ascii "($" ++ decimal valueParameter ++ ascii "::pg_catalog." ++
    if format.isText then ascii "text" else ascii "bytea"
  if format.takesSrid then
    let call := schema ++ ascii "." ++
      (if format = .wkt then ascii "ST_GeomFromText" else ascii "ST_GeomFromWKB") ++ value ++
      (ascii ",$" ++ decimal sridParameter ++ ascii "::pg_catalog.int4)")
    if geography then ascii "CAST(" ++ call ++ ascii " AS " ++ schema ++ ascii ".\"geography\")"
    else call
  else
    let function :=
      if geography then
        if format = .ewkt then ascii "ST_GeogFromText" else ascii "ST_GeogFromWKB"
      else if format = .ewkt then ascii "ST_GeomFromEWKT" else ascii "ST_GeomFromEWKB"
    schema ++ ascii "." ++ function ++ value ++ ascii ")"

/-- **`vps_spatial_write_expression`** -/
def spatialWriteExpression (capabilities : SpatialCapabilities) (geography : Bool)
    (format : SpatialFormat) (valueParameter sridParameter : ℕ) : Option (List UInt8) :=
  let required := spatialRequiredCapability format geography
  if valueParameter = 0 ∨ valueParameter > 65535 ∨ sridParameter > 65535 then none
  else if format = .none ∨ format = .spatialite then none
  else if !capabilities.present ∨ capabilities.flags &&& required ≠ required then none
  else
    (spatialIdentifier capabilities.schema).bind fun schema =>
      let sql := spatialSql schema geography format valueParameter sridParameter
      if format.takesSrid ∧ sridParameter = 0 then none
      else if sql.length ≥ 512 then none
      else some sql

/-- `vps_dml_write_value` -/
def dmlWriteValue (policy : DmlPolicy) (visible : ℕ) (plan : DmlPlan) : Except DmlError DmlPlan :=
  match policy.columns[visible]? with
  | none => .error .outOfMemory
  | some column =>
    let valueParameter := plan.parameters.length + 1
    if column.spatialKind ≠ 0 ∧ policy.spatialFormat ≠ .none then
      let geography := column.spatialKind != 1
      let sridParameter := if policy.spatialFormat.takesSrid then valueParameter + 1 else 0
      let valueOid : UInt32 :=
        if policy.spatialFormat = .wkb ∨ policy.spatialFormat = .ewkb then 17 else 25
      match policy.spatial.bind fun spatial =>
        spatialWriteExpression spatial geography policy.spatialFormat valueParameter
          sridParameter with
      | none => .error .outOfMemory
      | some expression => do
        let plan ← dmlAppend .outOfMemory expression plan
        let plan ← dmlAddParameter .outOfMemory ⟨.newValue, visible, valueOid⟩ plan
        if sridParameter ≠ 0 then dmlAddParameter .outOfMemory ⟨.spatialSrid, visible, 23⟩ plan
        else .ok plan
    else do
      let plan ← dmlPlaceholder .outOfMemory valueParameter plan
      dmlAddParameter .outOfMemory ⟨.newValue, visible, column.selection.declaredTypeOid⟩ plan

/-! ## Lists -/

/-- The separator before all entries but the first. -/
def dmlSeparator (failure : DmlError) (separator : List UInt8) (first : Bool) (plan : DmlPlan) :
    Except DmlError DmlPlan :=
  if first then .ok plan else dmlAppend failure separator plan

/-- A loop that checks an entry, writes the separator and writes the entry. -/
def dmlLoop {ι : Type*} (failure : DmlError) (separator : List UInt8)
    (check : ι → Except DmlError Unit) (item : ι → DmlPlan → Except DmlError DmlPlan) :
    List ι → Bool → DmlPlan → Except DmlError DmlPlan
  | [], _, plan => .ok plan
  | entry :: entries, first, plan => do
    check entry
    let plan ← dmlSeparator failure separator first plan
    let plan ← item entry plan
    dmlLoop failure separator check item entries false plan

/-- The visible columns that the mask includes. -/
def includedColumns (policy : DmlPolicy) (included : List Bool) : List ℕ :=
  (List.range policy.columns.length).filter fun visible => included.getD visible false

/-- The check of a written column; `allowed` is the policy's array for the operation. -/
def dmlCheckWritten (allowed : DmlColumn → Bool) (policy : DmlPolicy) (visible : ℕ) :
    Except DmlError Unit :=
  match policy.columns[visible]? with
  | none => .error .outOfMemory
  | some column =>
    if allowed column then .ok ()
    else .error (if column.column.generatedKind ≠ 0 then .generatedColumn else .identityAlways)

/-- A returned column of the key. -/
def dmlReturningKey (policy : DmlPolicy) (visible : ℕ) (plan : DmlPlan) :
    Except DmlError DmlPlan := do
  let plan ← dmlColumnIdentifier .outOfMemory policy visible plan
  .ok { plan with returningVisible := plan.returningVisible ++ [some visible] }

/-- The returned version. -/
def dmlReturningOptimistic (policy : DmlPolicy) (plan : DmlPlan) : Except DmlError DmlPlan :=
  match policy.optimisticMode with
  | .off => .ok plan
  | .column => do
    let visible := policy.versionVisible.getD policy.columns.length
    let plan ← dmlAppend .outOfMemory (ascii ",") plan
    let plan ← dmlColumnIdentifier .outOfMemory policy visible plan
    .ok { plan with
      returningVisible := plan.returningVisible ++ [some visible]
      returnsOptimistic := true }
  | .xmin => do
    let plan ← dmlAppend .outOfMemory (ascii ",xmin::pg_catalog.text") plan
    .ok { plan with
      returningVisible := plan.returningVisible ++ [none]
      returnsOptimistic := true }

/-- `vps_dml_returning` -/
def dmlReturning (policy : DmlPolicy) (plan : DmlPlan) : Except DmlError DmlPlan := do
  let plan ← dmlAppend .outOfMemory (ascii " RETURNING ") plan
  let plan ← dmlLoop .outOfMemory (ascii ",") (fun _ => .ok ()) (dmlReturningKey policy)
    policy.keyVisible true plan
  dmlReturningOptimistic policy { plan with keyReturningCount := policy.keyVisible.length }

/-- The declared type of a visible column. -/
def DmlPolicy.typeOid (policy : DmlPolicy) (visible : ℕ) : UInt32 :=
  (policy.columns[visible]?.map (·.selection.declaredTypeOid)).getD 0

/-- One conjunct of the key. -/
def dmlKeyConjunct (policy : DmlPolicy) (key : ℕ × ℕ) (plan : DmlPlan) :
    Except DmlError DmlPlan := do
  let (visible, keyIndex) := key
  let plan ← dmlColumnIdentifier .malformedIdentity policy visible plan
  let plan ← dmlAppend .malformedIdentity (ascii " IS NOT DISTINCT FROM ") plan
  let plan ← dmlPlaceholder .malformedIdentity (plan.parameters.length + 1) plan
  dmlAddParameter .malformedIdentity ⟨.oldKey, keyIndex, policy.typeOid visible⟩ plan

/-- The comparison of the version, without its slot. -/
def dmlOptimisticComparison (policy : DmlPolicy) (plan : DmlPlan) : Except DmlError DmlPlan :=
  if policy.optimisticMode = .xmin then do
    let plan ← dmlAppend .outOfMemory (ascii "xmin=") plan
    let plan ← dmlPlaceholder .outOfMemory (plan.parameters.length + 1) plan
    dmlAppend .outOfMemory (ascii "::pg_catalog.xid") plan
  else do
    let plan ← dmlColumnIdentifier .outOfMemory policy
      (policy.versionVisible.getD policy.columns.length) plan
    let plan ← dmlAppend .outOfMemory (ascii " IS NOT DISTINCT FROM ") plan
    dmlPlaceholder .outOfMemory (plan.parameters.length + 1) plan

/-- The conjunct of the version. -/
def dmlOptimisticConjunct (policy : DmlPolicy) (optimistic : RowIdentityField) (plan : DmlPlan) :
    Except DmlError DmlPlan := do
  let plan ← dmlAppend .outOfMemory (ascii " AND ") plan
  let plan ← dmlOptimisticComparison policy plan
  let typeOid := if policy.optimisticMode = .xmin then 28
    else policy.typeOid (policy.versionVisible.getD policy.columns.length)
  if optimistic.typeOid ≠ typeOid then .error .malformedIdentity
  else dmlAddParameter .malformedIdentity ⟨.oldOptimistic, 0, typeOid⟩ plan

/-- `vps_dml_original_predicate` -/
def dmlOriginalPredicate (policy : DmlPolicy) (identity : Option RowIdentityView) (plan : DmlPlan) :
    Except DmlError DmlPlan :=
  match identity with
  | none => .error .malformedIdentity
  | some identity =>
    if identity.relationOid ≠ policy.metadata.relationOid ∨
        identity.keyFields.length ≠ policy.keyVisible.length ∨
        (policy.optimisticMode ≠ .off ∧ identity.optimisticField = none) then
      .error .malformedIdentity
    else do
      let check (key : ℕ × ℕ) : Except DmlError Unit :=
        if (identity.keyFields[key.2]?.map (·.typeOid)) ≠ some (policy.typeOid key.1) then
          .error .malformedIdentity
        else .ok ()
      let plan ← dmlLoop .malformedIdentity (ascii " AND ") check (dmlKeyConjunct policy)
        policy.keyVisible.zipIdx true plan
      match policy.optimisticMode, identity.optimisticField with
      | .off, _ => .ok plan
      | _, some optimistic => dmlOptimisticConjunct policy optimistic plan
      | _, none => .error .malformedIdentity

/-! ## The three statements -/

/-- The INSERT up to its RETURNING. -/
def dmlInsert (policy : DmlPolicy) (included : List Bool) (plan : DmlPlan) :
    Except DmlError DmlPlan := do
  let plan ← dmlAppend .outOfMemory (ascii "INSERT INTO ") plan
  let plan ← dmlTarget policy plan
  let written := includedColumns policy included
  written.forM (dmlCheckWritten (·.insertable) policy)
  if written = [] then dmlAppend .outOfMemory (ascii " DEFAULT VALUES") plan
  else
    let plan ← dmlAppend .outOfMemory (ascii " (") plan
    let plan ← dmlLoop .outOfMemory (ascii ",") (fun _ => .ok ())
      (dmlColumnIdentifier .outOfMemory policy) written true plan
    let plan ← dmlAppend .outOfMemory (ascii ") VALUES (") plan
    let plan ← dmlLoop .outOfMemory (ascii ",") (fun _ => .ok ())
      (dmlWriteValue policy) written true
      plan
    dmlAppend .outOfMemory (ascii ")") plan

/-- The assignment of a written column. -/
def dmlAssignment (policy : DmlPolicy) (visible : ℕ) (plan : DmlPlan) :
    Except DmlError DmlPlan := do
  let plan ← dmlColumnIdentifier .outOfMemory policy visible plan
  let plan ← dmlAppend .outOfMemory (ascii "=") plan
  dmlWriteValue policy visible plan

/-- The UPDATE up to its predicate. -/
def dmlUpdate (policy : DmlPolicy) (included : List Bool) (plan : DmlPlan) :
    Except DmlError DmlPlan := do
  let plan ← dmlAppend .outOfMemory (ascii "UPDATE ") plan
  let plan ← dmlTarget policy plan
  let plan ← dmlAppend .outOfMemory (ascii " SET ") plan
  let written := includedColumns policy included
  let plan ← dmlLoop .outOfMemory (ascii ",") (dmlCheckWritten (·.updatable) policy)
    (dmlAssignment policy) written true plan
  if written = [] then .error .invalidArgument else dmlAppend .outOfMemory (ascii " WHERE ") plan

/-- The DELETE up to its predicate. -/
def dmlDelete (policy : DmlPolicy) (plan : DmlPlan) : Except DmlError DmlPlan := do
  let plan ← dmlAppend .outOfMemory (ascii "DELETE FROM ") plan
  let plan ← dmlTarget policy plan
  dmlAppend .outOfMemory (ascii " WHERE ") plan

/-- The plan before anything is written. -/
def DmlPlan.init (operation : DmlOperation) : DmlPlan where
  operation := operation
  query := []
  parameters := []
  returningVisible := []
  keyReturningCount := 0
  returnsOptimistic := false

/-- The statement up to its RETURNING. -/
def dmlBody (policy : DmlPolicy) (included : List Bool) (identity : Option RowIdentityView) :
    DmlOperation → Except DmlError DmlPlan
  | .insert => dmlInsert policy included (DmlPlan.init .insert)
  | .update => do
    let plan ← dmlUpdate policy included (DmlPlan.init .update)
    dmlOriginalPredicate policy identity plan
  | .delete => do
    let plan ← dmlDelete policy (DmlPlan.init .delete)
    dmlOriginalPredicate policy identity plan

/-- **`vps_dml_plan_build`** -/
def dmlPlanBuild (policy : DmlPolicy) (operation : DmlOperation) (included : List Bool)
    (identity : Option RowIdentityView) : Except DmlError DmlPlan :=
  if !policy.writable ∨ (operation ≠ .delete ∧ included.length ≠ policy.columns.length) then
    .error .invalidArgument
  else do
    let plan ← dmlBody policy included identity operation
    let plan ← dmlReturning policy plan
    -- the terminator takes a byte of the buffer
    if plan.query.length + 1 ≤ dmlQueryLimit then .ok plan else .error .outOfMemory

end Vps
