import Mathlib.Data.Rat.Defs
import VirtualPostgreSQL.Machinery.Decimal
import VirtualPostgreSQL.Row.TokenCodec

/-!
# Row/SnapshotToken — the tokens of materialised rows

A materialised row gives its key as values of SQLite.  `vps_snapshot_advance` hands them to
`vps_row_identity_token` as a server would have sent them: an integer is printed, text and blobs go
as their bytes, all of them under the type 0.  A real number has no bytes, and goes as the empty
text.

The framing of the token keeps the texts apart; what it cannot keep apart is two values that are
handed over as the same text.  `snapshotToken_ne_iff` says which these are.
-/

namespace Vps

open Machinery

variable {ρ : Type*}

/-- `VpsEmbeddedValue`, over any representation of the real numbers. -/
inductive EmbeddedValue (ρ : Type*)
  | null
  | integer (value : Int64)
  | real (value : ρ)
  | text (bytes : List UInt8)
  | blob (bytes : List UInt8)
  deriving DecidableEq

/-- The members `bytes` and `length` as `vps_embedded_sqlite_scan_column` leaves them; SQLite has no
pointer to an empty blob. -/
def EmbeddedValue.span : EmbeddedValue ρ → ByteSpan
  | .null | .integer _ | .real _ => .null 0
  | .text bytes => .bytes bytes
  | .blob bytes => if bytes = [] then .null 0 else .bytes bytes

/-- `VpsClientColumnView` -/
structure KeyColumnView where
  typeOid : UInt32 := 0
  isNull : Bool
  span : ByteSpan

/-- A field of the token from a column. -/
def KeyColumnView.field (column : KeyColumnView) : RowIdentityField where
  kind := if column.isNull then 0 else 2
  typeOid := column.typeOid
  span := column.span

/-- `vps_row_identity_token` -/
def rowIdentityToken (columns : List KeyColumnView) : Except RowIdentityError (List UInt8) :=
  if columns.length = 0 ∨ columns.length > rowIdentityMaxFields then .error .invalidArgument
  else rowIdentityEncode
    { relationOid := 0, keyFields := columns.map (·.field), optimisticField := none }

/-- A key of a materialised row as a column. -/
def EmbeddedValue.keyView (key : EmbeddedValue ρ) : KeyColumnView where
  isNull := match key with
    | .null => true
    | _ => false
  span := match key with
    | .integer value => .bytes (decimalInt value.toInt)
    | _ => key.span

/-- **The token of `vps_snapshot_advance`** for the values of the key columns, which every plan
projects. -/
def snapshotToken (keys : List (EmbeddedValue ρ)) : Except RowIdentityError (List UInt8) :=
  rowIdentityToken (keys.map (·.keyView))

/-! ## What a token tells -/

/-- The text a key is handed over as. -/
def EmbeddedValue.spelling : EmbeddedValue ρ → Option (List UInt8)
  | .null => none
  | .integer value => some (decimalInt value.toInt)
  | .real _ => some []
  | .text bytes | .blob bytes => some bytes

/-- The value of a field of that text. -/
def spelledValue : Option (List UInt8) → IdentityValue
  | none => .null
  | some bytes => .text bytes

/-- The spelling tells NULL and the texts apart. -/
theorem spelledValue_inj {a b : Option (List UInt8)} (h : spelledValue a = spelledValue b) :
    a = b := by
  cases a <;> cases b <;> simp_all [spelledValue]

theorem meaning_field (key : EmbeddedValue ρ) :
    key.keyView.field.meaning = (0, some (spelledValue key.spelling)) := by
  cases key with
  | blob bytes => cases bytes <;> rfl
  | _ => rfl

theorem encoded_field (key : EmbeddedValue ρ) :
    key.keyView.field.encoded = RowIdentityField.encoded
      { kind := if key.spelling.isNone then 0 else 2
        typeOid := 0
        span := .bytes (key.spelling.getD []) } := by
  cases key with
  | blob bytes => cases bytes <;> rfl
  | _ => rfl

/-- The token's specification. -/
def snapshotSpec (keys : List (EmbeddedValue ρ)) : RowIdentitySpec where
  relationOid := 0
  keyFields := keys.map fun key => key.keyView.field
  optimisticField := none

/-- A token of a snapshot is the token of its keys. -/
theorem snapshotToken_eq_ok {keys : List (EmbeddedValue ρ)} {token : List UInt8}
    (h : snapshotToken keys = .ok token) : rowIdentityEncode (snapshotSpec keys) = .ok token := by
  unfold snapshotToken rowIdentityToken at h
  split at h
  · cases h
  · rwa [List.map_map] at h

section Tokens

variable {keys keys' : List (EmbeddedValue ρ)} {token token' : List UInt8}

/-- **Keys that are spelled alike have the same token.** -/
theorem token_snapshotSpec (h : keys.map (·.spelling) = keys'.map (·.spelling)) :
    (snapshotSpec keys).token = (snapshotSpec keys').token := by
  have hlength : keys.length = keys'.length := by simpa using congrArg List.length h
  have hencoded : keys.map (fun key => key.keyView.field.encoded) =
      keys'.map (fun key => key.keyView.field.encoded) := by
    simp only [encoded_field]
    have := congrArg (List.map fun text : Option (List UInt8) => RowIdentityField.encoded
      { kind := if text.isNone then 0 else 2, typeOid := 0, span := .bytes (text.getD []) }) h
    simpa only [List.map_map, Function.comp_def] using this
  have hbody : (snapshotSpec keys).body = (snapshotSpec keys').body := by
    simp only [RowIdentitySpec.body, RowIdentitySpec.fields, snapshotSpec, Option.toList_none,
      List.append_nil, List.flatMap_map]
    rw [List.flatMap_def, List.flatMap_def, hencoded]
  simp only [RowIdentitySpec.token, hbody]
  simp [snapshotSpec, RowIdentitySpec.flags, hlength]

/-- **Two tokens are the same if and only if the keys are handed over as the same texts.** -/
theorem snapshotToken_eq_iff (h : snapshotToken keys = .ok token)
    (h' : snapshotToken keys' = .ok token') :
    token = token' ↔ keys.map (·.spelling) = keys'.map (·.spelling) := by
  have hencode := snapshotToken_eq_ok h
  have hencode' := snapshotToken_eq_ok h'
  constructor
  · rintro rfl
    obtain ⟨view, hview, hmeaning⟩ := meaning_of_rowIdentityEncode hencode
    obtain ⟨view', hview', hmeaning'⟩ := meaning_of_rowIdentityEncode hencode'
    obtain rfl := Except.ok.inj (hview.symm.trans hview')
    have hfields := congrArg (·.2.1) (hmeaning.symm.trans hmeaning')
    simp only [RowIdentitySpec.meaning, snapshotSpec, List.map_map, Function.comp_def,
      meaning_field] at hfields
    have hinj : Function.Injective fun text : Option (List UInt8) =>
        ((0 : UInt32), some (spelledValue text)) := by
      intro a b hab
      exact spelledValue_inj (Option.some.inj (Prod.mk.inj hab).2)
    apply List.map_injective_iff.mpr hinj
    simpa only [List.map_map, Function.comp_def] using hfields
  · intro hspelling
    obtain ⟨-, -, rfl, -⟩ := rowIdentityEncode_eq_ok_iff.mp hencode
    obtain ⟨-, -, rfl, -⟩ := rowIdentityEncode_eq_ok_iff.mp hencode'
    exact token_snapshotSpec hspelling

end Tokens

/-! ## The values that are confused -/

/-- **Two values handed over as one text**: any two reals, a real and an empty string, an integer
and its decimal text, and a text and a blob of the same bytes. -/
def Confused : EmbeddedValue ρ → EmbeddedValue ρ → Prop
  | .real _, .real _ => True
  | .real _, .text bytes | .real _, .blob bytes => [] = bytes
  | .text bytes, .real _ | .blob bytes, .real _ => bytes = []
  | .integer value, .text bytes | .integer value, .blob bytes => decimalInt value.toInt = bytes
  | .text bytes, .integer value | .blob bytes, .integer value => bytes = decimalInt value.toInt
  | .text bytes, .blob bytes' | .blob bytes, .text bytes' => bytes = bytes'
  | _, _ => False

theorem decimalInt_ne_nil : ∀ n : ℤ, decimalInt n ≠ []
  | .ofNat n => decimal_ne_nil n
  | .negSucc _ => List.cons_ne_nil _ _

/-- Integers are spelled apart. -/
theorem decimalInt_toInt_inj {a b : Int64} (h : decimalInt a.toInt = decimalInt b.toInt) :
    a = b := by
  have hread := congrArg parseDecimalInt h
  rw [parseDecimalInt_decimalInt, parseDecimalInt_decimalInt] at hread
  exact Int64.toInt_inj.mp (Option.some.inj hread)

/-- Different values have one text if and only if they are confused. -/
theorem spelling_eq_iff {a b : EmbeddedValue ρ} (hne : a ≠ b) :
    a.spelling = b.spelling ↔ Confused a b := by
  cases a with
  | null => cases b <;> simp_all [EmbeddedValue.spelling, Confused]
  | integer value =>
    cases b with
    | integer other =>
      simp only [EmbeddedValue.spelling, Option.some.injEq, Confused, iff_false]
      exact fun h => hne (congrArg _ (decimalInt_toInt_inj h))
    | _ => simp [EmbeddedValue.spelling, Confused, decimalInt_ne_nil]
  | real value =>
    cases b <;> simp [EmbeddedValue.spelling, Confused, (decimalInt_ne_nil _).symm]
  | text bytes => cases b <;> simp_all [EmbeddedValue.spelling, Confused]
  | blob bytes => cases b <;> simp_all [EmbeddedValue.spelling, Confused]

/-- Keys are spelled alike just when each pair is equal or confused. -/
theorem map_spelling_eq_iff : ∀ {keys keys' : List (EmbeddedValue ρ)},
    keys.length = keys'.length →
    (keys.map (·.spelling) = keys'.map (·.spelling) ↔
      ∀ pair ∈ keys.zip keys', pair.1 ≠ pair.2 → Confused pair.1 pair.2)
  | [], [], _ => by simp
  | key :: keys, key' :: keys', h => by
    have ih := map_spelling_eq_iff (Nat.succ.inj h)
    simp only [List.map_cons, List.cons.injEq, List.zip_cons_cons, List.forall_mem_cons, ih]
    refine and_congr_left fun _ => ⟨fun hsame hne => (spelling_eq_iff hne).mp hsame, fun h => ?_⟩
    by_cases heq : key = key'
    · rw [heq]
    · exact (spelling_eq_iff heq).mpr (h heq)

/-- **When the tokens of two keys differ**: the keys differ in a component that is not confused with
its counterpart. -/
theorem snapshotToken_ne_iff {keys keys' : List (EmbeddedValue ρ)} {token token' : List UInt8}
    (hlength : keys.length = keys'.length) (h : snapshotToken keys = .ok token)
    (h' : snapshotToken keys' = .ok token') :
    token ≠ token' ↔
      ∃ pair ∈ keys.zip keys', pair.1 ≠ pair.2 ∧ ¬Confused pair.1 pair.2 := by
  rw [ne_eq, snapshotToken_eq_iff h h', map_spelling_eq_iff hlength]
  simp only [not_forall, exists_prop]

theorem snapshotToken_ne_sample : ∃ token token',
    snapshotToken [.null, (.text [97] : EmbeddedValue ℚ)] = .ok token ∧
      snapshotToken [.null, (.text [98] : EmbeddedValue ℚ)] = .ok token' ∧
      token ≠ token' := by
  obtain ⟨token, h⟩ : ∃ token,
    snapshotToken [.null, (.text [97] : EmbeddedValue ℚ)] = .ok token := ⟨_, rfl⟩
  obtain ⟨token', h'⟩ : ∃ token,
    snapshotToken [.null, (.text [98] : EmbeddedValue ℚ)] = .ok token := ⟨_, rfl⟩
  refine ⟨token, token', h, h', (snapshotToken_ne_iff (by rfl) h h').mpr ?_⟩
  exact ⟨(.text [97], .text [98]), by simp, by simp, id⟩

/-- Two rows whose keys are different numbers get one token. -/
theorem snapshotToken_collides : ∃ token,
    snapshotToken [EmbeddedValue.real (1 : ℚ)] = .ok token ∧
      snapshotToken [EmbeddedValue.real (2 : ℚ)] = .ok token ∧
      [EmbeddedValue.real (1 : ℚ)] ≠ [EmbeddedValue.real (2 : ℚ)] :=
  ⟨_, rfl, rfl, by decide⟩

end Vps
