import VirtualPostgreSQL.Identity.Sound

/-!
# Identity/Canonical — the canonical bytes of an identity

The canonical bytes are equal exactly where all the normalised values are, whatever the values hold
(`identityStream_eq_iff`).  A list that was normalised keeps its items and stays as it is when it is
normalised again (`identityNormalizeList_normal`, `identityNormalizePorts_normal`).
-/

namespace Vps

open Machinery

/-! ## The stream of values -/

section Stream

variable {allocates allocates' : ℕ → Bool}

theorem tag_injective : Function.Injective IdentityField.tag := fun field field' h => by
  cases field <;> cases field' <;> first | rfl | exact absurd h (by decide)

/-- **Framed fields can be told apart.** -/
theorem Framed.bytes_eq_iff {fields fields' : List (IdentityField × Option (List UInt8))}
    {bytes bytes' : List UInt8} {values values' : List (UInt8 × List UInt8)}
    (h : Framed fields bytes values) (h' : Framed fields' bytes' values') :
    bytes = bytes' ↔ fields = fields' := by
  have htagged : Function.Injective fun field : IdentityField × Option (List UInt8) =>
      (field.1.tag, field.2) := fun field field' heq =>
    Prod.ext (tag_injective (Prod.ext_iff.mp heq).1) (Prod.ext_iff.mp heq).2
  have hsome : Function.Injective fun value : UInt8 × List UInt8 => (value.1, some value.2) :=
    fun value value' heq =>
      Prod.ext (Prod.ext_iff.mp heq).1 (Option.some.inj (Prod.ext_iff.mp heq).2)
  rw [← htagged.list_map.eq_iff, h.written, h'.written, hsome.list_map.eq_iff, h.framed, h'.framed]
  exact ⟨frames_injective h.short h'.short, congrArg frames⟩

/-- **The stream tells the fields apart**, whatever their values hold. -/
theorem identityStream_eq_iff {fields fields' : List (IdentityField × Option (List UInt8))}
    {buffer stream stream' : List UInt8}
    (h : fields.foldlM (identityAdd allocates) buffer = .ok stream)
    (h' : fields'.foldlM (identityAdd allocates') buffer = .ok stream') :
    stream = stream' ↔ fields = fields' := by
  obtain ⟨bytes, values, hframed, rfl⟩ := identityAdd_ok h
  obtain ⟨bytes', values', hframed', rfl⟩ := identityAdd_ok h'
  rw [List.append_cancel_left_eq, hframed.bytes_eq_iff hframed']

theorem identityCanonical_eq_iff {config config' : CredentialConfig}
    {arguments arguments' : ParsedArguments} {options options' : IdentityBuildOptions}
    {canonical canonical' : List UInt8}
    (h : identityCanonical allocates config arguments options = .ok canonical)
    (h' : identityCanonical allocates' config' arguments' options' = .ok canonical') :
    canonical = canonical' ↔
      identityFields config arguments options = identityFields config' arguments' options' := by
  obtain ⟨bytes, values, hframed, rfl⟩ := identityCanonical_ok h
  obtain ⟨bytes', values', hframed', rfl⟩ := identityCanonical_ok h'
  rw [List.append_cancel_left_eq, hframed.bytes_eq_iff hframed']

end Stream

/-! ## Items -/

section Items

variable {lowerAscii : Bool} {item part value output : List UInt8}

theorem isControl_toLower (byte : UInt8) (h : isControl byte = false) :
    isControl (toLower byte) = false :=
  byte_induction (P := fun byte => isControl byte = false → isControl (toLower byte) = false) 256
    (by decide +kernel) byte byte.toNat_lt h

/-- A slash begins an item in either case. -/
theorem head?_any_map_toLower (text : List UInt8) :
    (text.map toLower).head?.any (fun first => first != 47 && first != 92) =
      text.head?.any fun first => first != 47 && first != 92 := by
  cases text with
  | nil => rfl
  | cons first rest =>
    exact byte_induction (P := fun first => (toLower first != 47 && toLower first != 92) =
      (first != 47 && first != 92)) 256 (by decide +kernel) first first.toNat_lt

/-- What is copied has no margins left, and no control characters. -/
theorem identityCopyNormalized_normal {outputSize : ℕ}
    (h : identityCopyNormalized lowerAscii outputSize value = some output) :
    trim isBlank output = output ∧ output.length < outputSize ∧
      ∀ byte ∈ output, isControl byte = false := by
  obtain ⟨hroom, hcontrol, rfl⟩ := identityCopyNormalized_eq_some_iff.mp h
  cases lowerAscii with
  | false => exact ⟨trim_trim value, hroom, hcontrol⟩
  | true =>
    refine ⟨?_, by simpa using hroom, ?_⟩
    · rw [if_pos rfl, trim_map isBlank isBlank_toLower, trim_trim]
    · rw [if_pos rfl, List.forall_mem_map]
      exact fun byte hbyte => isControl_toLower byte (hcontrol byte hbyte)

/-- An item and its normal form are paths alike. -/
theorem foldsCase_normalized
    (h : identityCopyNormalized (foldsCase lowerAscii item) (credentialValueMaxLength + 1) item =
      some part) : foldsCase lowerAscii part = foldsCase lowerAscii item := by
  have hfirst := identityCopyNormalized_some h
  have hnormal := (identityCopyNormalized_normal h).1
  have hhead : part.head?.any (fun first => first != 47 && first != 92) =
      (trim isBlank item).head?.any fun first => first != 47 && first != 92 := by
    rw [hfirst]
    split
    · exact head?_any_map_toLower _
    · rfl
  rw [foldsCase, foldsCase, ← head?_trim, ← head?_trim, hnormal, hhead]

/-- **A normalised item stays as it is.** -/
theorem identityNormalizeItem_normal (h : identityNormalizeItem lowerAscii item = some part) :
    identityNormalizeItem lowerAscii part = some part := by
  obtain ⟨htrim, hroom, hcontrol⟩ := identityCopyNormalized_normal h
  have hfolds := foldsCase_normalized h
  have hpart := identityCopyNormalized_some h
  refine identityCopyNormalized_eq_some_iff.mpr ?_
  rw [htrim, hfolds]
  refine ⟨hroom, hcontrol, ?_⟩
  split
  · rename_i hlower
    rw [if_pos hlower] at hpart
    rw [hpart, List.map_map, show toLower ∘ toLower = toLower from funext toLower_toLower]
  · rfl

/-- **A port item is normalised to the decimal of the port it denotes.** -/
theorem identityNormalizePort_eq_some_iff :
    identityNormalizePort item = some output ↔
      ∃ port, portOf item = some port ∧ 1 ≤ port ∧ port ≤ 65535 ∧ output = decimal port := by
  rw [identityNormalizePort, Option.map_eq_some_iff]
  refine exists_congr fun port => ?_
  rw [← and_assoc, ← and_assoc, eq_comm (a := output)]
  refine and_congr_left fun _ => ?_
  unfold identityParsePort portOf
  split
  · simp only [Option.some.injEq]
    constructor
    · rintro rfl
      simp
    · exact fun h => h.1.1
  · rename_i hne
    rw [Option.filter_eq_some_iff, parseUint32Digits_eq_some_iff (Nat.zero_le _),
      parseDecimal_eq_some_iff]
    simp only [Bool.and_eq_true, bne_iff_ne, ne_eq, decide_eq_true_eq]
    constructor
    · rintro ⟨⟨hdigits, -⟩, hzero, hmax⟩
      exact ⟨⟨⟨hne, hdigits⟩, by omega⟩, hmax⟩
    · rintro ⟨⟨⟨-, hdigits⟩, hone⟩, hmax⟩
      exact ⟨⟨hdigits, by omega⟩, by omega, hmax⟩

theorem trim_decimal (n : ℕ) : trim isBlank (decimal n) = decimal n :=
  trim_eq_self fun byte hbyte hblank => by
    have hdigit := isDigit_of_mem_decimal hbyte
    simp only [isBlank, Bool.or_eq_true, beq_iff_eq] at hblank
    obtain rfl | rfl := hblank <;> exact absurd hdigit (by decide)

/-- **A normalised port stays as it is.** -/
theorem identityNormalizePort_normal (h : identityNormalizePort item = some part) :
    identityNormalizePort part = some part := by
  obtain ⟨port, -, hone, hmax, rfl⟩ := identityNormalizePort_eq_some_iff.mp h
  refine identityNormalizePort_eq_some_iff.mpr ⟨port, ?_, hone, hmax, rfl⟩
  rw [portOf, trim_decimal, if_neg (decimal_ne_nil port), parseDecimal_decimal]

end Items

/-! ## Lists -/

section Lists

variable {lowerAscii : Bool} {outputSize : ℕ} {value output : List UInt8}

/-- **A list of hosts is normalised item by item**, and stays as it is then. -/
theorem identityNormalizeList_normal
    (h : identityNormalizeList lowerAscii outputSize value = some output) :
    identityNormalizeList lowerAscii outputSize output = some output ∧
      List.Forall₂ (fun item part => identityNormalizeItem lowerAscii item = some part)
        (value.splitOn 44) (output.splitOn 44) :=
  normalizeItems_idempotent (fun _ _ => comma_notMem_identityNormalizeItem)
    (fun _ _ => identityNormalizeItem_normal) h

/-- **A list of ports is normalised item by item**, and stays as it is then. -/
theorem identityNormalizePorts_normal (h : identityNormalizePorts outputSize value = some output) :
    identityNormalizePorts outputSize output = some output ∧
      List.Forall₂ (fun item part => identityNormalizePort item = some part)
        (value.splitOn 44) (output.splitOn 44) :=
  normalizeItems_idempotent (fun _ _ _ => comma_notMem_identityNormalizePort)
    (fun _ _ => identityNormalizePort_normal) h

end Lists

/-- **The canonical encoding of an identity**: the bytes of two identities are equal if and only if
all normalised values are, as any two streams of values are; normalised lists keep the number and
the order of their items and are normal; a port becomes the decimal of its number, a blank one
5432. -/
theorem canonical_identity_encoding {allocates allocates' : ℕ → Bool}
    {connection connection' : ConnectionConfig} {arguments arguments' : ParsedArguments}
    {options options' : IdentityBuildOptions} {identity identity' : ConnectionIdentity}
    (h : identityBuild allocates connection arguments options = .ok identity)
    (h' : identityBuild allocates' connection' arguments' options' = .ok identity') :
    (identity.canonical = identity'.canonical ↔
        identityFields connection.config arguments options =
          identityFields connection'.config arguments' options') ∧
      (∀ (fields fields' : List (IdentityField × Option (List UInt8)))
        (buffer stream stream' : List UInt8),
        fields.foldlM (identityAdd allocates) buffer = .ok stream →
        fields'.foldlM (identityAdd allocates') buffer = .ok stream' →
        (stream = stream' ↔ fields = fields')) ∧
      (∀ lowerAscii outputSize value output,
        identityNormalizeList lowerAscii outputSize value = some output →
          identityNormalizeList lowerAscii outputSize output = some output ∧
            List.Forall₂ (fun item part => identityNormalizeItem lowerAscii item = some part)
              (value.splitOn 44) (output.splitOn 44)) ∧
      (∀ outputSize value output, identityNormalizePorts outputSize value = some output →
        identityNormalizePorts outputSize output = some output ∧
          List.Forall₂ (fun item part => identityNormalizePort item = some part)
            (value.splitOn 44) (output.splitOn 44)) ∧
      ∀ item output, identityNormalizePort item = some output ↔
        ∃ port, portOf item = some port ∧ 1 ≤ port ∧ port ≤ 65535 ∧ output = decimal port :=
  ⟨identityCanonical_eq_iff (identityBuild_ok h) (identityBuild_ok h'),
    fun _ _ _ _ _ => identityStream_eq_iff,
    fun _ _ _ _ => identityNormalizeList_normal,
    fun _ _ _ => identityNormalizePorts_normal,
    fun _ _ => identityNormalizePort_eq_some_iff⟩

/-- Two spellings of one connection. -/
theorem canonical_identity_encoding_spelled :
    ∃ identity identity', identityBuild (fun _ => true) ⟨spelled, 7⟩ {} {} = .ok identity ∧
      identityBuild (fun _ => true) ⟨spelledNormal, 7⟩ {} {} = .ok identity' ∧
      identityFields spelled {} {} = identityFields spelledNormal {} {} := by
  obtain ⟨identity, identity', h, h', hsame⟩ : ∃ identity identity',
      identityBuild (fun _ => true) ⟨spelled, 7⟩ {} {} = .ok identity ∧
      identityBuild (fun _ => true) ⟨spelledNormal, 7⟩ {} {} = .ok identity' ∧
      identityCompare identity identity' = .same :=
    exists_same_of_canonical (by decide +kernel) (by decide +kernel) 7
  exact ⟨identity, identity', h, h',
    (canonical_identity_encoding h h').1.mp (identityCompare_same hsame)⟩

end Vps
