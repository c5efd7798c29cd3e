import Mathlib.Data.UInt
import VirtualPostgreSQL.Machinery.Ascii

/-!
# Types/Registry — what may be done with a column of a type

`vps_type_registry_select` looks at the catalog's names of a column's type, of the base type if it
is a domain, and says what the column can be used for.  The codec it names as well is read nowhere
in the modelled code.
-/

namespace Vps

open Machinery

/-- `VpsColumnMetadata`, the fields that decide how a column is written; a string of the metadata is
absent unless `present` is set. -/
structure ColumnMetadata where
  attributeNumber : ℤ
  typeOid : UInt32
  domainBaseOid : UInt32
  name : Option (List UInt8)
  typeNamespace : Option (List UInt8)
  typeName : Option (List UInt8)
  domainBaseNamespace : Option (List UInt8)
  domainBaseName : Option (List UInt8)
  typeCategory : UInt8
  typeKind : UInt8
  domainBaseKind : UInt8
  generatedKind : UInt8
  identityKind : UInt8
  notNull : Bool
  dropped : Bool
  deriving DecidableEq, Repr

/-- `VPS_CODEC_CAP_READ` -/
def codecCapRead : UInt32 := 1

/-- `VPS_CODEC_CAP_EQUALITY` -/
def codecCapEquality : UInt32 := 2

/-- `VPS_CODEC_CAP_ORDER` -/
def codecCapOrder : UInt32 := 4

/-- `VPS_CODEC_CAP_DML` -/
def codecCapDml : UInt32 := 8

/-- `VPS_CODEC_CAP_PUSHDOWN_EXACT` -/
def codecCapPushdownExact : UInt32 := 16

/-- `VPS_CODEC_CAP_BINARY` -/
def codecCapBinary : UInt32 := 32

/-- `VpsTypeSelection` without the codec. -/
structure TypeSelection where
  declaredTypeOid : UInt32
  effectiveTypeOid : UInt32
  capabilities : UInt32
  domain : Bool
  deriving DecidableEq, Repr

/-- Whether a column of the type can be written. -/
def TypeSelection.dml (selection : TypeSelection) : Bool :=
  selection.capabilities &&& codecCapDml != 0

/-- What a type of the system catalog can be used for, by its name. -/
def catalogCapabilities (typeName : List UInt8) : UInt32 :=
  let isAny (names : List String) : Bool := (names.map ascii).contains typeName
  if typeName = ascii "bool" then
    codecCapRead ||| codecCapEquality ||| codecCapOrder ||| codecCapDml ||| codecCapPushdownExact
  else if isAny ["int2", "int4", "int8", "oid", "xid", "cid"] then
    codecCapRead ||| codecCapEquality ||| codecCapOrder ||| codecCapDml ||| codecCapPushdownExact
  else if isAny ["float4", "float8"] then codecCapRead ||| codecCapDml
  else if typeName = ascii "numeric" then codecCapRead ||| codecCapDml
  else if typeName = ascii "money" then codecCapRead ||| codecCapDml
  else if typeName = ascii "bytea" then
    codecCapRead ||| codecCapEquality ||| codecCapDml ||| codecCapPushdownExact ||| codecCapBinary
  else if typeName = ascii "uuid" then
    codecCapRead ||| codecCapEquality ||| codecCapOrder ||| codecCapDml ||| codecCapPushdownExact
  else if isAny ["date", "time", "timetz", "timestamp", "timestamptz", "interval"] then
    codecCapRead ||| codecCapEquality ||| codecCapOrder ||| codecCapDml
  else if isAny ["json", "jsonb"] then codecCapRead ||| codecCapDml
  else if isAny ["text", "varchar", "bpchar", "name", "xml", "inet", "cidr", "macaddr", "macaddr8",
      "bit", "varbit"] then
    codecCapRead ||| codecCapDml
  else codecCapRead

/-- **`vps_type_registry_select`** on a column; `none` is an invalid result. -/
def typeRegistrySelect (column : ColumnMetadata) : Option TypeSelection :=
  let domain := column.typeKind == 100
  let effectiveTypeOid := if domain then column.domainBaseOid else column.typeOid
  let typeKind := if domain then column.domainBaseKind else column.typeKind
  match if domain then column.domainBaseNamespace else column.typeNamespace,
      if domain then column.domainBaseName else column.typeName with
  | some namespaceName, some typeName =>
    if effectiveTypeOid = 0 then none
    else
      let capabilities :=
        if typeKind = 101 then codecCapRead ||| codecCapEquality ||| codecCapDml
        else if typeKind = 114 ∨ typeKind = 109 then codecCapRead ||| codecCapDml
        else if typeKind = 99 then codecCapRead
        else if column.typeCategory = 65 ∧ !domain then codecCapRead ||| codecCapDml
        else if namespaceName = ascii "pg_catalog" then catalogCapabilities typeName
        else codecCapRead
      some { declaredTypeOid := column.typeOid, effectiveTypeOid, capabilities, domain }
  | _, _ => none

/-- The parameters of a column are sent under its declared type. -/
theorem declaredTypeOid_of_select {column : ColumnMetadata} {selection : TypeSelection}
    (h : typeRegistrySelect column = some selection) :
    selection.declaredTypeOid = column.typeOid := by
  simp only [typeRegistrySelect] at h
  split at h
  · split_ifs at h <;> (cases h; rfl)
  · cases h

end Vps
