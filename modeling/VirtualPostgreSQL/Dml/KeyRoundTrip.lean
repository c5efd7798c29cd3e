import VirtualPostgreSQL.Dml.Parameters
import VirtualPostgreSQL.Dml.Safety
import VirtualPostgreSQL.Row.TokenCodec

/-!
# Dml/KeyRoundTrip — the key that is sent and the key that was read

The server writes a key as text; the text goes into the token of the row, and from there into the
parameter of the predicate.  The parameter says the same value if it is sent as text.  A key of the
declared type `bytea` is sent in binary, and then its bytes are the hexadecimal text of the key:
`keyParameter_denotes_iff`.
-/

namespace Vps

open Machinery

/-! ## The types of the server -/

/-- The input and output functions of the server's types, by OID; `bytes` are those of a `bytea`. -/
structure PgTypes (Value : Type*) where
  Has : UInt32 → Value → Prop
  output : UInt32 → Value → List UInt8
  input : UInt32 → List UInt8 → Option Value
  receive : UInt32 → List UInt8 → Option Value
  bytes : Value → List UInt8

/-- **What the server promises**: a value is read back from its text, which is a C string; the text
of a `bytea` is hexadecimal, and its binary form is its bytes. -/
structure PgTypes.Lawful {Value : Type*} (types : PgTypes Value) : Prop where
  input_output : ∀ {typeOid value}, types.Has typeOid value →
    types.input typeOid (types.output typeOid value) = some value
  zero_notMem_output : ∀ {typeOid value}, types.Has typeOid value → 0 ∉ types.output typeOid value
  output_bytea : ∀ {value}, types.Has 17 value →
    types.output 17 value = 92 :: 120 :: (types.bytes value).flatMap hexByte
  bytes_of_receive : ∀ {value data}, types.receive 17 data = some value → types.bytes value = data

/-- The value of a parameter, `some none` for NULL. -/
def PgTypes.denotes {Value : Type*} (types : PgTypes Value) (parameter : ClientParameter) :
    Option (Option Value) :=
  match parameter.value with
  | none => some none
  | some data =>
    (if parameter.binary then types.receive parameter.typeOid data
      else types.input parameter.typeOid data).map some

section Types

variable {Value : Type*} {types : PgTypes Value}

/-- **Text that the server wrote denotes the value it wrote.** -/
theorem PgTypes.Lawful.denotes_text (h : types.Lawful) {typeOid : UInt32} {value : Value}
    (hhas : types.Has typeOid value) :
    types.denotes ⟨typeOid, false, some ((types.output typeOid value).takeWhile (· ≠ 0))⟩ =
      some (some value) := by
  have htake : (types.output typeOid value).takeWhile (· ≠ 0) = types.output typeOid value := by
    rw [List.takeWhile_eq_self_iff]
    intro byte hbyte
    have : byte ≠ 0 := fun hzero => h.zero_notMem_output hhas (hzero ▸ hbyte)
    simpa using this
  rw [PgTypes.denotes, htake]
  simp [h.input_output hhas]

/-- The hexadecimal text of a `bytea` is longer than its bytes. -/
theorem PgTypes.Lawful.denotes_binary_ne (h : types.Lawful) {value : Value}
    (hhas : types.Has 17 value) :
    types.denotes ⟨17, true, some (types.output 17 value)⟩ ≠ some (some value) := by
  intro hdenotes
  simp only [PgTypes.denotes, if_true, Option.map_eq_some_iff, Option.some.injEq, exists_eq_right]
    at hdenotes
  have hlength := congrArg List.length (h.bytes_of_receive hdenotes)
  have hhex : ((types.bytes value).flatMap hexByte).length = 2 * (types.bytes value).length := by
    rw [List.length_flatMap]
    simp [hexByte, Nat.mul_comm]
  rw [h.output_bytea hhas, List.length_cons, List.length_cons, hhex] at hlength
  omega

end Types

/-! ## The slots of the key -/

/-- A slot of a statement stands in one of its pieces. -/
theorem mem_slots {slot : DmlParameterSlot} {pieces : List DmlPiece} :
    slot ∈ slots pieces ↔ .place slot ∈ pieces := by
  induction pieces with
  | nil => simp
  | cons piece pieces ih => cases piece <;> simp [ih]

theorem place_mem_separated {slot : DmlParameterSlot} {separator : List UInt8}
    {entries : List (List DmlPiece)} :
    .place slot ∈ separated separator entries ↔ ∃ entry ∈ entries, .place slot ∈ entry := by
  cases entries with
  | nil => simp [separated]
  | cons entry entries => simp [separated]

section Slots

variable {policy : DmlPolicy} {slot : DmlParameterSlot}

/-- A value that is written is none of the old key. -/
theorem source_of_mem_value {visible : ℕ} (h : .place slot ∈ dmlValuePieces policy visible) :
    slot.source ≠ .oldKey := by
  rw [← mem_slots] at h
  unfold dmlValuePieces at h
  split at h
  · simp at h
  · split_ifs at h
    · rw [slots_spatialPieces] at h
      split_ifs at h <;> simp only [List.mem_cons, List.not_mem_nil, or_false] at h
      · rcases h with rfl | rfl <;> simp
      · simp [h]
    · simp only [slots_place, slots_nil, List.mem_singleton] at h
      simp [h]

theorem place_notMem_names {visibles : List ℕ} {separator : List UInt8} :
    .place slot ∉ separated separator
      (visibles.map fun visible => [DmlPiece.name (policy.columnName visible)]) := by
  rw [place_mem_separated]
  simp

theorem place_notMem_target : .place slot ∉ dmlTargetPieces policy := by
  simp [dmlTargetPieces]

theorem place_notMem_returning : .place slot ∉ dmlReturningPieces policy := by
  have hnames := @place_notMem_names policy slot policy.keyVisible (ascii ",")
  unfold dmlReturningPieces
  cases policy.optimisticMode <;> simpa using hnames

/-- An old key is compared in the conjunct of its column. -/
theorem key_of_mem_where (hsource : slot.source = .oldKey) (h : .place slot ∈ dmlWhere policy) :
    ∃ key ∈ policy.keyVisible.zipIdx, slot = ⟨.oldKey, key.2, policy.typeOid key.1⟩ := by
  simp only [dmlWhere, List.mem_cons, reduceCtorEq, false_or] at h
  obtain ⟨conjunct, hconjunct, hslot⟩ := place_mem_separated.1 h
  rcases List.mem_append.1 hconjunct with hkey | hoptimistic
  · obtain ⟨key, hmem, rfl⟩ := List.mem_map.1 hkey
    refine ⟨key, hmem, ?_⟩
    simpa [dmlSame] using hslot
  · exfalso
    unfold dmlOptimistic at hoptimistic
    cases hmode : policy.optimisticMode <;> rw [hmode] at hoptimistic
    · simp at hoptimistic
    all_goals
      obtain rfl := List.mem_singleton.1 hoptimistic
      obtain rfl : slot = _ := by simpa [dmlSame] using hslot
      cases hsource

/-- An INSERT has no slot of the old key. -/
theorem source_of_mem_insert {written : List ℕ} (h : .place slot ∈ dmlInsertPieces policy written) :
    slot.source ≠ .oldKey := by
  unfold dmlInsertPieces at h
  split_ifs at h
  · simp at h
  · simp only [List.mem_append, List.mem_cons, reduceCtorEq, false_or, List.not_mem_nil,
      or_false] at h
    rcases h with hnames | hvalues
    · exact absurd hnames place_notMem_names
    · obtain ⟨_, hentry, hslot⟩ := place_mem_separated.1 hvalues
      obtain ⟨visible, -, rfl⟩ := List.mem_map.1 hentry
      exact source_of_mem_value hslot

/-- Neither has an assignment. -/
theorem source_of_mem_set {written : List ℕ}
    (h : .place slot ∈ separated (ascii ",") (written.map (dmlAssignmentPieces policy))) :
    slot.source ≠ .oldKey := by
  obtain ⟨_, hentry, hslot⟩ := place_mem_separated.1 h
  obtain ⟨visible, -, rfl⟩ := List.mem_map.1 hentry
  simp only [dmlAssignmentPieces, List.mem_cons, reduceCtorEq, false_or] at hslot
  exact source_of_mem_value hslot

/-- **The slots of old keys** are those of an UPDATE's or DELETE's predicate. -/
theorem key_of_mem_statement {operation : DmlOperation} {included : List Bool}
    (hsource : slot.source = .oldKey) (h : slot ∈ slots (dmlStatement policy operation included)) :
    operation ≠ .insert ∧
      ∃ key ∈ policy.keyVisible.zipIdx, slot = ⟨.oldKey, key.2, policy.typeOid key.1⟩ := by
  rw [mem_slots] at h
  cases operation with
  | insert =>
    exfalso
    simp only [dmlStatement, List.cons_append, List.mem_cons, List.mem_append, reduceCtorEq,
      false_or, place_notMem_target, place_notMem_returning, or_false] at h
    exact source_of_mem_insert h hsource
  | update =>
    simp only [dmlStatement, List.cons_append, List.mem_cons, List.mem_append, reduceCtorEq,
      false_or, place_notMem_target, place_notMem_returning, or_false] at h
    refine ⟨by simp, h.elim (fun hset => absurd hsource (source_of_mem_set hset)) ?_⟩
    exact key_of_mem_where hsource
  | delete =>
    simp only [dmlStatement, List.cons_append, List.mem_cons, List.mem_append, reduceCtorEq,
      false_or, place_notMem_target, place_notMem_returning, or_false] at h
    exact ⟨by simp, key_of_mem_where hsource h⟩

/-- A key that passed the check has the types of its columns. -/
theorem typeOid_of_dmlOriginalPredicate {identity : RowIdentityView} {plan plan' : DmlPlan}
    (h : dmlOriginalPredicate policy (some identity) plan = .ok plan') :
    ∀ key ∈ policy.keyVisible.zipIdx,
      identity.keyFields[key.2]?.map (·.typeOid) = some (policy.typeOid key.1) := by
  intro key hkey
  simp only [dmlOriginalPredicate] at h
  split at h
  · cases h
  obtain ⟨keyed, hloop, -⟩ := ok_of_bind h
  have hcheck := check_of_dmlLoop hloop key hkey
  by_contra hne
  rw [if_pos hne] at hcheck
  cases hcheck

/-- **The slot of an old key has the type of the token's field.** -/
theorem typeOid_of_key_slot (hpolicy : policy.Accepted) {operation : DmlOperation}
    {included : List Bool} {identity : RowIdentityView} {plan : DmlPlan}
    (hplan : dmlPlanBuild policy operation included (some identity) = .ok plan)
    (hslot : slot ∈ plan.parameters) (hsource : slot.source = .oldKey) :
    identity.keyFields[slot.index]?.map (·.typeOid) = some slot.typeOid := by
  obtain ⟨-, hslots, -⟩ := dmlPlanBuild_eq hpolicy.sound.keyNonempty hplan
  rw [hslots] at hslot
  obtain ⟨hoperation, key, hkey, rfl⟩ := key_of_mem_statement hsource hslot
  unfold dmlPlanBuild at hplan
  split at hplan
  · cases hplan
  obtain ⟨body, hbody, -⟩ := ok_of_bind hplan
  cases operation with
  | insert => exact absurd rfl hoperation
  | update =>
    obtain ⟨_, -, hpredicate⟩ := ok_of_bind hbody
    exact typeOid_of_dmlOriginalPredicate hpredicate key hkey
  | delete =>
    obtain ⟨_, -, hpredicate⟩ := ok_of_bind hbody
    exact typeOid_of_dmlOriginalPredicate hpredicate key hkey

end Slots

/-! ## The round trip -/

/-- What a map that succeeded makes of an entry stands in its place. -/
theorem getElem?_of_mapM {α β : Type*} {f : α → Option β} {as : List α} {bs : List β}
    (h : as.mapM f = some bs) {index : ℕ} {a : α} (ha : as[index]? = some a) :
    ∃ b, f a = some b ∧ bs[index]? = some b := by
  induction as generalizing bs index with
  | nil => simp at ha
  | cons first as ih =>
    rw [List.mapM_cons] at h
    obtain ⟨b, hb, h⟩ := Option.bind_eq_some_iff.1 h
    obtain ⟨bs, hbs, h⟩ := Option.bind_eq_some_iff.1 h
    cases h
    cases index with
    | zero =>
      obtain rfl : first = a := by simpa using ha
      exact ⟨b, hb, rfl⟩
    | succ index => exact ih hbs (by simpa using ha)

/-- **A scanned key stands in the token that the row was named by.** -/
theorem keyField_of_cursorBuildIdentity {cursor : IdentityCursor} {row : List ClientColumn}
    {token : List UInt8} (hbuild : cursorBuildIdentity cursor row = some token)
    (hmode : cursor.table.identityMode = .hiddenToken) {identity : RowIdentityView}
    (hidentity : dmlIdentityFromSqlite cursor.table (.blob token) = some identity) {key logical : ℕ}
    (hkey : cursor.table.keyColumns[key]? = some logical) :
    ∃ column, cursor.scanned row logical = some column ∧
      identity.keyFields[key]? =
        some (column.keyField (cursor.table.policy.typeOid logical)).cleared := by
  obtain ⟨keyFields, hkeys, hbuild⟩ := Option.bind_eq_some_iff.1 hbuild
  obtain ⟨optimisticField, -, hencode⟩ := Option.bind_eq_some_iff.1 hbuild
  obtain ⟨field, hfield, hindex⟩ := getElem?_of_mapM hkeys hkey
  obtain ⟨column, hcolumn, rfl⟩ := Option.map_eq_some_iff.1 hfield
  have hread := rowIdentityCandidate_encode (ok_of_toOption hencode)
  rw [dmlIdentityFromSqlite, if_pos hmode, hread] at hidentity
  cases hidentity
  refine ⟨column, hcolumn, ?_⟩
  rw [List.getElem?_map, hindex]
  rfl

/-- **The parameter of an old key denotes the key that was read if and only if its declared type is
not `bytea`.** -/
theorem keyParameter_denotes_iff {Value : Type*} {types : PgTypes Value} (hlawful : types.Lawful)
    {cursor : IdentityCursor} (hpolicy : cursor.table.policy.Accepted)
    (hmode : cursor.table.identityMode = .hiddenToken) {row : List ClientColumn}
    {token : List UInt8}
    (hbuild : cursorBuildIdentity cursor row = some token) {identity : RowIdentityView}
    (hidentity : dmlIdentityFromSqlite cursor.table (.blob token) = some identity)
    {operation : DmlOperation} {included : List Bool} {plan : DmlPlan}
    (hplan : dmlPlanBuild cursor.table.policy operation included (some identity) = .ok plan)
    {printReal : ℚ → List UInt8} {arguments : List SqliteValue} {sent : List ClientParameter}
    (hsent : dmlSent printReal cursor.table arguments identity plan.parameters = some sent)
    {key logical : ℕ} (hkey : cursor.table.keyColumns[key]? = some logical) {value : Value}
    (hhas : types.Has (cursor.table.policy.typeOid logical) value) {column : ClientColumn}
    (hscanned : cursor.scanned row logical = some column)
    (hcolumn : column.data = some (types.output (cursor.table.policy.typeOid logical) value))
    {index : ℕ} {typeOid : UInt32}
    (hslot : plan.parameters[index]? = some ⟨.oldKey, key, typeOid⟩) :
    (∃ parameter, sent[index]? = some parameter ∧ types.denotes parameter = some (some value)) ↔
      cursor.table.policy.typeOid logical ≠ 17 := by
  obtain ⟨column', hscanned', hfield⟩ := keyField_of_cursorBuildIdentity hbuild hmode hidentity hkey
  obtain rfl : column = column' := Option.some.inj (hscanned.symm.trans hscanned')
  set oid := cursor.table.policy.typeOid logical with hoid
  set field := (column.keyField oid).cleared with hcleared
  obtain ⟨hkind, htypeOid, hdata⟩ : (field.kind = 2 ∨ field.kind = 3) ∧ field.typeOid = oid ∧
      field.span.data = types.output oid value := by
    rw [hcleared, ClientColumn.keyField, hcolumn]
    by_cases hbytea : typeCodecForOid column.typeOid = .bytea
    all_goals simp [RowIdentityField.cleared, hbytea, ByteSpan.data]
  have hslotOid : typeOid = oid := by
    have h := typeOid_of_key_slot hpolicy hplan (List.mem_of_getElem? hslot) rfl
    rw [hfield, Option.map_some, htypeOid] at h
    exact (Option.some.inj h).symm
  subst hslotOid
  obtain ⟨⟨final, parameters⟩, hparameters, rfl⟩ := Option.map_eq_some_iff.1 hsent
  obtain ⟨start, stored, parameter, happend, hfinal, hindex⟩ :=
    getElem?_of_dmlParameters hparameters hslot
  have hsentAs := sent_of_dmlAppendIdentityParameter hkind
    (by simpa [dmlSlotParameter, hfield] using happend) hfinal
  have hvalue (P : ClientParameter → Prop) :
      (∃ p, (parameters.map (·.sent final))[index]? = some p ∧ P p) ↔ P (parameter.sent final) := by
    rw [List.getElem?_map, hindex]
    simp
  rw [hvalue, hsentAs, hdata]
  by_cases h17 : oid = 17
  · rw [h17] at hhas ⊢
    simpa using hlawful.denotes_binary_ne hhas
  · rw [beq_eq_false_iff_ne.2 h17, if_neg h17]
    simpa [h17] using hlawful.denotes_text hhas

/-! ## A text and a `bytea` -/

/-- The types `bytea` and, for every other OID, `text`. -/
def bytesTypes : PgTypes (List UInt8) where
  Has typeOid value := typeOid = 17 ∨ 0 ∉ value
  output typeOid value := if typeOid = 17 then 92 :: 120 :: value.flatMap hexByte else value
  input typeOid text := if typeOid = 17 then decodeHex (text.drop 2) else some text
  receive _ data := some data
  bytes value := value

theorem zero_notMem_hexByte (byte : UInt8) : 0 ∉ hexByte byte :=
  byte_induction (P := fun byte => 0 ∉ hexByte byte) 256 (by decide +kernel) byte byte.toNat_lt

/-- A server whose values are their bytes keeps the laws. -/
theorem lawful_bytesTypes : bytesTypes.Lawful where
  input_output {typeOid value} _ := by
    by_cases h17 : typeOid = 17
    · simp [bytesTypes, h17, decodeHex_flatMap]
    · simp [bytesTypes, h17]
  zero_notMem_output {typeOid value} hhas := by
    by_cases h17 : typeOid = 17
    · simp [bytesTypes, h17, zero_notMem_hexByte]
    · simpa [bytesTypes, h17] using hhas
  output_bytea _ := rfl
  bytes_of_receive h := (Option.some.inj h).symm

/-- A table whose only column is its key. -/
def keyFixture (typeOid : UInt32) (typeName : List UInt8) : TableMetadata where
  loaded := true
  relationOid := 4242
  relationKind := .table
  schemaName := ascii "public"
  relationName := ascii "keyed"
  columns := [dmlFixtureColumn 1 typeOid (ascii "k") typeName true]
  keySource := .primary
  keyReadOnly := false
  keyAttributeNumbers := [1]
  writePolicy := .allowed

/-- The cursor of a scan of `keyFixture`. -/
def keyFixtureCursor (typeOid : UInt32) (typeName : List UInt8) : IdentityCursor where
  table :=
    { policy :=
        { metadata := keyFixture typeOid typeName
          columns := (keyFixture typeOid typeName).columns.filterMap fun column =>
            (typeRegistrySelect column).map (DmlColumn.of column)
          keyVisible := [0]
          versionVisible := none
          optimisticMode := .off
          spatial := none
          spatialFormat := .wkt
          writable := true }
      keyColumns := [0]
      identityMode := .hiddenToken
      spatialSrid := fun _ => 0 }
  logicalToRemote := some
  optimisticRemoteColumn := none

/-- The identity of a row of `keyFixture`, read from its token. -/
def keyFixtureIdentity (kind : ℕ) (typeOid : UInt32) (text : List UInt8) : RowIdentityView where
  relationOid := 4242
  keyFields := [{ kind, typeOid, span := .bytes text }]
  optimisticField := none

/-- The DELETE of a row of `keyFixture`. -/
def keyFixturePlan (typeOid : UInt32) : DmlPlan where
  operation := .delete
  query := ascii ("DELETE FROM \"public\".\"keyed\" WHERE \"k\" IS NOT DISTINCT FROM $1 " ++
    "RETURNING \"k\"")
  parameters := [⟨.oldKey, 0, typeOid⟩]
  returningVisible := [some 0]
  keyReturningCount := 1
  returnsOptimistic := false

theorem accepted_keyFixtureText :
    (keyFixtureCursor 25 (ascii "text")).table.policy.Accepted :=
  ⟨keyFixture 25 (ascii "text"), .off, [], .inl ⟨true, by decide +kernel⟩⟩

/-- The text key `a"b` is sent as it was read. -/
theorem keyParameter_denotes_text :
    ∃ token, cursorBuildIdentity (keyFixtureCursor 25 (ascii "text")) [⟨25, some (ascii "a\"b")⟩] =
        some token ∧
      dmlIdentityFromSqlite (keyFixtureCursor 25 (ascii "text")).table (.blob token) =
        some (keyFixtureIdentity 2 25 (ascii "a\"b")) ∧
      ∃ parameter, bytesTypes.denotes parameter = some (some (ascii "a\"b")) ∧
        dmlSent (fun _ => []) (keyFixtureCursor 25 (ascii "text")).table []
          (keyFixtureIdentity 2 25 (ascii "a\"b")) (keyFixturePlan 25).parameters =
            some [parameter] := by
  obtain ⟨token, hbuild, hidentity⟩ : ∃ token,
      cursorBuildIdentity (keyFixtureCursor 25 (ascii "text")) [⟨25, some (ascii "a\"b")⟩] =
        some token ∧
      dmlIdentityFromSqlite (keyFixtureCursor 25 (ascii "text")).table (.blob token) =
        some (keyFixtureIdentity 2 25 (ascii "a\"b")) := ⟨_, rfl, by decide +kernel⟩
  have hplan : dmlPlanBuild (keyFixtureCursor 25 (ascii "text")).table.policy .delete []
      (some (keyFixtureIdentity 2 25 (ascii "a\"b"))) = .ok (keyFixturePlan 25) := by
    decide +kernel
  have hsent : dmlSent (fun _ => []) (keyFixtureCursor 25 (ascii "text")).table []
      (keyFixtureIdentity 2 25 (ascii "a\"b")) (keyFixturePlan 25).parameters =
        some [⟨25, false, some (ascii "a\"b")⟩] := by
    decide +kernel
  have hkey : (keyFixtureCursor 25 (ascii "text")).table.keyColumns[0]? = some 0 := rfl
  have hoid : (keyFixtureCursor 25 (ascii "text")).table.policy.typeOid 0 = 25 := by decide +kernel
  have hhas : bytesTypes.Has ((keyFixtureCursor 25 (ascii "text")).table.policy.typeOid 0)
      (ascii "a\"b") := .inr (by decide +kernel)
  have hslot : (keyFixturePlan 25).parameters[0]? = some ⟨.oldKey, 0, 25⟩ := rfl
  have h := keyParameter_denotes_iff lawful_bytesTypes accepted_keyFixtureText rfl hbuild hidentity
    hplan hsent hkey hhas rfl (by rw [hoid]; rfl) hslot
  obtain ⟨parameter, hparameter, hdenotes⟩ := h.2 (by rw [hoid]; decide)
  refine ⟨token, hbuild, hidentity, parameter, hdenotes, ?_⟩
  rw [hsent]
  exact congrArg some (congrArg (· :: []) (Option.some.inj hparameter))

/-- **A `bytea` key is not the value that is sent**: for the key `A`, whose text is `\x41`, the
DELETE compares with the four bytes of that text. -/
theorem keyParameter_bytea_differs :
    ∃ token, cursorBuildIdentity (keyFixtureCursor 17 (ascii "bytea"))
        [⟨17, some (bytesTypes.output 17 [65])⟩] = some token ∧
      dmlIdentityFromSqlite (keyFixtureCursor 17 (ascii "bytea")).table (.blob token) =
        some (keyFixtureIdentity 3 17 (ascii "\\x41")) ∧
      dmlPlanBuild (keyFixtureCursor 17 (ascii "bytea")).table.policy .delete []
        (some (keyFixtureIdentity 3 17 (ascii "\\x41"))) = .ok (keyFixturePlan 17) ∧
      dmlSent (fun _ => []) (keyFixtureCursor 17 (ascii "bytea")).table []
        (keyFixtureIdentity 3 17 (ascii "\\x41")) (keyFixturePlan 17).parameters =
          some [⟨17, true, some (ascii "\\x41")⟩] ∧
      bytesTypes.denotes ⟨17, true, some (ascii "\\x41")⟩ ≠ some (some [65]) :=
  ⟨_, rfl, by decide +kernel, by decide +kernel, by decide +kernel, by decide +kernel⟩

end Vps
