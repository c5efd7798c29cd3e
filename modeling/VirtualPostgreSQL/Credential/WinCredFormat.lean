import VirtualPostgreSQL.Credential.WinCred
import VirtualPostgreSQL.Machinery.Mask
import VirtualPostgreSQL.Machinery.Wire

/-!
# Credential/WinCredFormat — the format of a credential blob

The format by itself: `IsWinCredBlob` says which entries a blob holds.  What either pass reads of a
header or of an entry are its words, and a text begins with an entry exactly if its words are those
of the entry (`WinCredEntry.bytes_append_eq_iff`).
-/

namespace Vps

open Machinery

/-! ## The format -/

/-- A field and its value. -/
structure WinCredEntry where
  member : CredentialMember
  value : List UInt8
  deriving DecidableEq, Repr

namespace WinCredEntry

/-- How an entry is written. -/
def bytes (entry : WinCredEntry) : List UInt8 :=
  leBytes 8 entry.member.field.toNat ++
    (leBytes 4 entry.value.length ++ (leBytes 4 0 ++ entry.value))

/-- How the value of an entry is kept. -/
def text (entry : WinCredEntry) : List UInt8 := entry.value ++ [0]

/-- What a value has to be. -/
structure Valid (entry : WinCredEntry) : Prop where
  length : entry.value.length ≤ credentialValueMaxLength
  utf8 : IsUtf8 entry.value
  plain : ∀ byte ∈ entry.value, ¬isControl byte

/-- An entry takes its head and its value. -/
theorem length_bytes (entry : WinCredEntry) :
    entry.bytes.length = wincredFormatEntrySize + entry.value.length := by
  simp only [bytes, List.length_append, length_leBytes, wincredFormatEntrySize]
  omega

theorem length_text (entry : WinCredEntry) : entry.text.length = entry.value.length + 1 :=
  List.length_append

end WinCredEntry

/-- The header of a blob with so many entries. -/
def wincredHeader (count : ℕ) : List UInt8 :=
  leBytes 4 wincredFormatMagic.toNat ++ (leBytes 2 wincredFormatVersion.toNat ++ leBytes 2 count)

/-- **A blob of the format, and the entries it holds.** -/
structure IsWinCredBlob (blob : List UInt8) (entries : List WinCredEntry) : Prop where
  size : blob.length ≤ wincredBlobMaxLength
  pos : 1 ≤ entries.length
  count : entries.length ≤ wincredFields.length
  valid : ∀ entry ∈ entries, entry.Valid
  distinct : (entries.map (·.member)).Nodup
  bytes : blob = wincredHeader entries.length ++ entries.flatMap WinCredEntry.bytes

/-! ## Fields -/

/-- **The table finds each member by its field.** -/
theorem wincredFindField_field (member : CredentialMember) :
    wincredFindField member.field = some ⟨member.field, member⟩ := by
  cases member <;> rfl

/-- Each field has a bit of its own. -/
theorem isFlag_field (member : CredentialMember) : IsFlag member.field member.shift := by
  cases member <;> rfl

/-- A descriptor is found for the bit of a member only. -/
theorem eq_field_of_wincredFindField {bit : UInt64} {descriptor : WinCredFieldDescriptor}
    (h : wincredFindField bit = some descriptor) : bit = descriptor.configOffset.field := by
  have htable : ∀ descriptor ∈ wincredFields, descriptor.bit = descriptor.configOffset.field := by
    decide
  rw [wincredFindField] at h
  have hbit := List.find?_some h
  rw [beq_iff_eq, htable descriptor (List.mem_of_find?_eq_some h)] at hbit
  exact hbit.symm

/-- Fields tell the members apart… -/
theorem field_injective {a b : CredentialMember} (h : a.field = b.field) : a = b := by
  have hfind := wincredFindField_field a
  rw [h, wincredFindField_field] at hfind
  exact ((WinCredFieldDescriptor.mk.injEq _ _ _ _).mp (Option.some.inj hfind)).2.symm

/-- …and so do the shifts. -/
theorem shift_injective {a b : CredentialMember} (h : a.shift = b.shift) : a = b := by
  refine field_injective (UInt64.toNat_inj.mp ?_)
  rw [show a.field.toNat = 2 ^ a.shift from isFlag_field a, h]
  exact (isFlag_field b).symm

/-- The places of fields are as distinct as the fields. -/
theorem shift_mem_iff {member : CredentialMember} {entries : List WinCredEntry} :
    member.shift ∈ entries.map (·.member.shift) ↔ member ∈ entries.map (·.member) := by
  simp only [List.mem_map]
  exact exists_congr fun entry => and_congr_right fun _ => ⟨shift_injective, congrArg _⟩

/-! ## Reading -/

/-- Numbers that are put together with a shift, where nothing is lost. -/
theorem or_shiftLeft_mod {low high k w : ℕ} (hlow : low < 2 ^ k) (hhigh : 2 ^ k * high < 2 ^ w) :
    low ||| high <<< k % 2 ^ w = low + 2 ^ k * high := by
  have hshift : high <<< k = 2 ^ k * high := by rw [Nat.shiftLeft_eq, Nat.mul_comm]
  rw [Nat.mod_eq_of_lt (by rwa [hshift]), Nat.lor_comm,
    ← Nat.shiftLeft_add_eq_or_of_lt hlow, hshift, Nat.add_comm]

section Reading

variable {blob rest : List UInt8} {offset n : ℕ}

/-- **Bytes are read as the number they are**, two of them here. -/
theorem wincredReadU16_eq (h : Stands blob offset (leBytes 2 n ++ rest)) :
    wincredReadU16 blob offset = .ok n.toUInt16 := by
  obtain ⟨b₀, b₁, hbytes⟩ : ∃ b₀ b₁, leBytes 2 n = [b₀, b₁] := ⟨_, _, rfl⟩
  have hvalue := leValue_leBytes_mod 2 n
  rw [hbytes] at h hvalue
  have h₀ := b₀.toNat_lt
  have h₁ := b₁.toNat_lt
  simp only [wincredReadU16, h.byteAt, h.tail.byteAt, ok_bind]
  refine congrArg Except.ok (UInt16.toNat_inj.mp ?_)
  simp only [UInt16.toNat_or, UInt16.toNat_shiftLeft, UInt8.toNat_toUInt16, UInt16.reduceToNat,
    Nat.reduceMod, Nat.toUInt16_eq, UInt16.toNat_ofNat']
  rw [or_shiftLeft_mod (show b₀.toNat < 2 ^ 8 by omega) (by omega)]
  exact hvalue

/-- Four bytes are read as the number they are. -/
theorem wincredReadU32_eq (h : Stands blob offset (leBytes 4 n ++ rest)) :
    wincredReadU32 blob offset = .ok n.toUInt32 := by
  obtain ⟨b₀, b₁, b₂, b₃, hbytes⟩ : ∃ b₀ b₁ b₂ b₃, leBytes 4 n = [b₀, b₁, b₂, b₃] :=
    ⟨_, _, _, _, rfl⟩
  have hvalue := leValue_leBytes_mod 4 n
  rw [hbytes] at h hvalue
  simp only [leValue] at hvalue
  have h₀ := b₀.toNat_lt
  have h₁ := b₁.toNat_lt
  have h₂ := b₂.toNat_lt
  have h₃ := b₃.toNat_lt
  simp only [wincredReadU32, h.byteAt, h.tail.byteAt, h.tail.tail.byteAt, h.tail.tail.tail.byteAt,
    ok_bind]
  refine congrArg Except.ok (UInt32.toNat_inj.mp ?_)
  simp only [UInt32.toNat_or, UInt32.toNat_shiftLeft, UInt8.toNat_toUInt32, UInt32.reduceToNat,
    Nat.reduceMod, Nat.toUInt32_eq, UInt32.toNat_ofNat']
  rw [or_shiftLeft_mod (show b₀.toNat < 2 ^ 8 by omega) (by omega),
    or_shiftLeft_mod (show b₀.toNat + 2 ^ 8 * b₁.toNat < 2 ^ 16 by omega) (by omega),
    or_shiftLeft_mod (show b₀.toNat + 2 ^ 8 * b₁.toNat + 2 ^ 16 * b₂.toNat < 2 ^ 24 by omega)
      (by omega)]
  omega

/-- So are eight. -/
theorem wincredReadU64_eq (h : Stands blob offset (leBytes 8 n ++ rest)) :
    wincredReadU64 blob offset = .ok n.toUInt64 := by
  rw [leBytes_add 4 4, List.append_assoc] at h
  rw [wincredReadU64, wincredReadU32_eq h, ok_bind,
    wincredReadU32_eq (h.behind (length_leBytes _ _)), ok_bind]
  refine congrArg Except.ok (UInt64.toNat_inj.mp ?_)
  simp only [UInt64.toNat_or, UInt64.toNat_shiftLeft, UInt32.toNat_toUInt64, UInt64.reduceToNat,
    Nat.reduceMod, Nat.toUInt32_eq, UInt32.toNat_ofNat', Nat.toUInt64_eq, UInt64.toNat_ofNat']
  rw [or_shiftLeft_mod (Nat.mod_lt _ (by decide)) (by omega)]
  omega

/-- The validator of values reads what it is given, and accepts UTF-8 without controls. -/
theorem wincredUtf8Valid_spec {text : List UInt8} (h : Stands blob offset text)
    (hn : n ≤ text.length) :
    ∃ accepted : Bool, wincredUtf8Valid blob offset n true = .ok accepted ∧
      (accepted ↔ IsUtf8 (text.take n) ∧ ∀ byte ∈ text.take n, ¬isControl byte) := by
  obtain ⟨accepted, hloop, haccepted⟩ := utf8IsValidAt_spec (text.take n) true
  refine ⟨accepted, by rw [wincredUtf8Valid, h.sliceAt hn]; exact hloop, haccepted.trans ?_⟩
  refine and_congr_right fun _ => forall₂_congr fun byte _ => ?_
  refine ⟨fun hbyte => hbyte.2 rfl, fun hbyte => ⟨?_, fun _ => hbyte⟩⟩
  rintro rfl
  exact hbyte rfl

end Reading

/-! ## The words of an entry -/

/-- The words are read, and the value stands behind them. -/
theorem wincred_reads {blob tail : List UInt8} {cursor bit length reserved : ℕ}
    (h : Stands blob cursor (leBytes 8 bit ++ (leBytes 4 length ++ (leBytes 4 reserved ++ tail)))) :
    wincredReadU64 blob cursor = .ok bit.toUInt64 ∧
      wincredReadU32 blob (cursor + 8) = .ok length.toUInt32 ∧
      wincredReadU32 blob (cursor + 12) = .ok reserved.toUInt32 ∧
      Stands blob (cursor + wincredFormatEntrySize) tail := by
  have hlength := h.behind (length_leBytes 8 _)
  have hreserved := hlength.behind (length_leBytes 4 _)
  exact ⟨wincredReadU64_eq h, wincredReadU32_eq hlength, wincredReadU32_eq hreserved,
    hreserved.behind (length_leBytes 4 _)⟩

/-- An entry is known by its words. -/
theorem WinCredEntry.bytes_append_eq_iff {entry : WinCredEntry} {rest tail : List UInt8}
    {bit length reserved : ℕ} (hentry : entry.Valid) (hbit : bit < 2 ^ 64)
    (hlength : length < 2 ^ 32) (hreserved : reserved < 2 ^ 32) :
    leBytes 8 bit ++ (leBytes 4 length ++ (leBytes 4 reserved ++ tail)) = entry.bytes ++ rest ↔
      entry.member.field.toNat = bit ∧ entry.value.length = length ∧ reserved = 0 ∧
        tail = entry.value ++ rest := by
  have hvalue : entry.value.length < 256 ^ 4 := hentry.length.trans_lt (by decide)
  rw [WinCredEntry.bytes, List.append_assoc, List.append_assoc, List.append_assoc,
    leBytes_append_eq_iff hbit entry.member.field.toNat_lt, leBytes_append_eq_iff hlength hvalue,
    leBytes_append_eq_iff hreserved (by decide), @eq_comm _ bit, @eq_comm _ length]

/-- **Entries can be told apart** from what follows them. -/
theorem WinCredEntry.bytes_append_inj {a b : WinCredEntry} (ha : a.Valid) (hb : b.Valid)
    {rest tail : List UInt8} (h : a.bytes ++ rest = b.bytes ++ tail) : a = b ∧ rest = tail := by
  have hlength : a.value.length < 2 ^ 32 := ha.length.trans_lt (by decide)
  have hzero : 0 < 2 ^ 32 := by decide
  rw [WinCredEntry.bytes, List.append_assoc, List.append_assoc, List.append_assoc,
    WinCredEntry.bytes_append_eq_iff hb a.member.field.toNat_lt hlength hzero] at h
  obtain ⟨hfield, hcount, -, hrest⟩ := h
  obtain ⟨hvalue, htail⟩ := List.append_inj hrest hcount.symm
  have hmember : a.member = b.member := field_injective (UInt64.toNat_inj.mp hfield.symm)
  cases a
  cases b
  cases hmember
  cases hvalue
  exact ⟨rfl, htail⟩

/-! ## The words of a header -/

theorem length_wincredHeader (count : ℕ) :
    (wincredHeader count).length = wincredFormatHeaderSize := by
  simp only [wincredHeader, List.length_append, length_leBytes]
  rfl

section Header

variable {blob tail : List UInt8} {magic version count : ℕ}

/-- The header is read as it was written. -/
theorem wincred_header_reads
    (h : blob = leBytes 4 magic ++ (leBytes 2 version ++ (leBytes 2 count ++ tail))) :
    wincredReadU32 blob 0 = .ok magic.toUInt32 ∧ wincredReadU16 blob 4 = .ok version.toUInt16 ∧
      wincredReadU16 blob 6 = .ok count.toUInt16 ∧ Stands blob wincredFormatHeaderSize tail := by
  have hmagic :
    Stands blob 0 (leBytes 4 magic ++ (leBytes 2 version ++ (leBytes 2 count ++ tail))) :=
    h ▸ Stands.zero _
  have hversion := hmagic.behind (length_leBytes 4 _)
  have hcount := hversion.behind (length_leBytes 2 _)
  exact ⟨wincredReadU32_eq hmagic, wincredReadU16_eq hversion, wincredReadU16_eq hcount,
    hcount.behind (length_leBytes 2 _)⟩

/-- A header is known by its words. -/
theorem wincredHeader_append_eq_iff {rest : List UInt8} {n : ℕ} (hmagic : magic < 2 ^ 32)
    (hversion : version < 2 ^ 16) (hcount : count < 2 ^ 16) (hn : n < 2 ^ 16) :
    leBytes 4 magic ++ (leBytes 2 version ++ (leBytes 2 count ++ tail)) = wincredHeader n ++ rest ↔
      magic = wincredFormatMagic.toNat ∧ version = wincredFormatVersion.toNat ∧ count = n ∧
        tail = rest := by
  rw [wincredHeader, List.append_assoc, List.append_assoc, leBytes_append_eq_iff hmagic (by decide),
    leBytes_append_eq_iff hversion (by decide), leBytes_append_eq_iff hcount hn]

end Header

end Vps
