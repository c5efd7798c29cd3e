import VirtualPostgreSQL.Credential.WinCredDecode
import VirtualPostgreSQL.Memory.Ownership

/-!
# Credential/Config — a configuration and its copy

A `VpsCredentialConfig` shows C strings to whoever reads it.  Both `vps_copy_config` of the
credential registry and that of a connection measure the strings that are present, allocate one
block, and copy them into it one after the other; they differ in what a string must be and in how a
member is read. The loops are `configMeasure` and `configCopy`, and `configCopy_spec` is what they
do.
-/

namespace Vps

open Machinery

/-! ## Headers and strings -/

/-- `VpsAbiHeader` -/
structure AbiHeader where
  structureSize : UInt32
  apiVersion : UInt32
  presentFields : UInt64
  deriving DecidableEq, Repr

/-- `VpsAbiValidationResult` -/
inductive AbiValidationResult
  | valid | null | structureTooSmall | versionIncompatible
  deriving DecidableEq, Repr

/-- `vps_abi_validate_header` -/
def abiValidateHeader (header : AbiHeader) (minimumStructureSize supportedApiVersion : UInt32) :
    AbiValidationResult :=
  if header.structureSize < minimumStructureSize then .structureTooSmall
  else if (header.apiVersion >>> 24) &&& (0xff : UInt32) ≠ (supportedApiVersion >>> 24) &&&
    (0xff : UInt32) then
    .versionIncompatible
  else .valid

/-- A C string; the NUL that ends it stands behind its bytes. -/
structure CString where
  bytes : List UInt8
  nul : 0 ∉ bytes
  deriving DecidableEq, Repr

/-- The memory of a C string. -/
def CString.memory (string : CString) : List UInt8 := string.bytes ++ [0]

/-- The C string that a pointer into a block shows. -/
def cStringAt (block : List UInt8) (offset : ℕ) : CString where
  bytes := (block.drop offset).takeWhile (· != 0)
  nul h := by simpa using List.mem_takeWhile_imp h

/-- What a `const VpsCredentialConfig *` shows. -/
structure CredentialConfigView where
  header : AbiHeader
  members : CredentialMember → Option CString

/-- What the pointers of a configuration into its block show. -/
def WinCredConfig.view (config : WinCredConfig) (block : List UInt8) : CredentialConfigView where
  header := ⟨config.structureSize, config.apiVersion, config.presentFields⟩
  members member := (config.members member).map (cStringAt block)

/-- The members in the order of the tables. -/
def credentialMembers : List CredentialMember :=
  [.hosts, .ports, .user, .password, .dbname, .service, .serviceFile, .sslmode,
    .sslrootcert, .sslcert,
    .sslkey, .sslcrl, .channelBinding, .targetSessionAttrs, .connectTimeout, .statementTimeout,
    .lockTimeout, .applicationName, .searchPath]

/-- `offsetof(VpsCredentialConfig, …)` -/
def CredentialMember.offset (member : CredentialMember) : ℕ := 16 + 8 * member.shift

/-- `VPS_CREDENTIAL_FIELDS_CURRENT` -/
def credentialFieldsCurrent : UInt64 :=
  credentialMembers.foldl (fun mask member => mask ||| member.field) 0

/-! ## The loops -/

/-- The first loop: the lengths of the strings that are present, and the room they take. -/
def configMeasure (lengthOf : Option CString → Buffered (Option ℕ))
    (get : CredentialMember → Option CString) (present : UInt64) :
    List CredentialMember → ℕ → (CredentialMember → ℕ) →
      Buffered (Option (ℕ × (CredentialMember → ℕ)))
  | [], total, lengths => return some (total, lengths)
  | member :: rest, total, lengths => do
    if present &&& member.field ≠ 0 then
      match ← lengthOf (get member) with
      | none => return none
      | some length =>
        match sizeAdd total (length + 1) with
        | none => return none
        | some total =>
          configMeasure lengthOf get present rest total (Function.update lengths member length)
    else configMeasure lengthOf get present rest total lengths

/-- What the second loop carries: the cursor, the block and the members that are set. -/
structure ConfigCopy where
  cursor : ℕ
  values : List UInt8
  members : CredentialMember → Option ℕ

/-- The second loop: `memcpy(cursor, value, length + 1)`. -/
def configCopy (get : CredentialMember → Option CString) (present : UInt64)
    (lengths : CredentialMember → ℕ) : List CredentialMember → ConfigCopy → Buffered ConfigCopy
  | [], copy => return copy
  | member :: rest, copy => do
    if present &&& member.field ≠ 0 then
      match get member with
      | none => .error .outside
      | some value =>
        let copied ← sliceAt value.memory 0 (lengths member + 1)
        let values ← writeAt copy.values copy.cursor copied
        configCopy get present lengths rest
          ⟨copy.cursor + (lengths member + 1), values,
            Function.update copy.members member (some copy.cursor)⟩
    else configCopy get present lengths rest copy

/-! ## What is copied -/

section Copy

variable {lengthOf : Option CString → Buffered (Option ℕ)} {accepts : CString → Bool}
  {get : CredentialMember → Option CString} {present : UInt64}

/-- The strings that are present, in the order of the table. -/
def configEntries (get : CredentialMember → Option CString) (present : UInt64)
    (members : List CredentialMember) : List WinCredEntry :=
  members.filterMap fun member =>
    if present &&& member.field ≠ 0 then (get member).map fun value =>
      ⟨member, value.bytes⟩ else none

/-- Every string that is present is there and is accepted. -/
def ConfigAccepted (accepts : CString → Bool) (get : CredentialMember → Option CString)
    (present : UInt64) (members : List CredentialMember) : Prop :=
  ∀ member ∈ members, present &&& member.field ≠ 0 →
    ∃ value, get member = some value ∧ accepts value

/-- **What a measure of strings does**: it takes the length of those it accepts, which are short. -/
structure MeasuresStrings (lengthOf : Option CString → Buffered (Option ℕ))
    (accepts : CString → Bool) :
    Prop where
  null : lengthOf none = .ok none
  accepted : ∀ value, accepts value = true → lengthOf (some value) = .ok (some value.bytes.length)
  refused : ∀ value, accepts value = false → lengthOf (some value) = .ok none
  short : ∀ value, accepts value = true → value.bytes.length ≤ credentialValueMaxLength

theorem configEntries_cons_present {member : CredentialMember} {rest : List CredentialMember}
    {value : CString} (hpresent : present &&& member.field ≠ 0) (hget : get member = some value) :
    configEntries get present (member :: rest) =
      ⟨member, value.bytes⟩ :: configEntries get present rest := by
  rw [configEntries, List.filterMap_cons, if_pos hpresent, hget]
  rfl

theorem configEntries_cons_absent {member : CredentialMember} {rest : List CredentialMember}
    (habsent : ¬present &&& member.field ≠ 0) :
    configEntries get present (member :: rest) = configEntries get present rest := by
  rw [configEntries, List.filterMap_cons, if_neg habsent]
  rfl

/-- An entry is of a member that is present. -/
theorem mem_of_mem_configEntries {members : List CredentialMember} {entry : WinCredEntry}
    (h : entry ∈ configEntries get present members) :
    entry.member ∈ members ∧ present &&& entry.member.field ≠ 0 ∧
      ∃ value, get entry.member = some value ∧ value.bytes = entry.value := by
  obtain ⟨member, hmember, hsome⟩ := List.mem_filterMap.mp h
  split at hsome
  · rename_i hpresent
    obtain ⟨value, hget, rfl⟩ := Option.map_eq_some_iff.mp hsome
    exact ⟨hmember, hpresent, value, hget, rfl⟩
  · cases hsome

/-- The entries name each member once. -/
theorem nodup_configEntries {members : List CredentialMember} (hnodup : members.Nodup) :
    ((configEntries get present members).map (·.member)).Nodup := by
  induction members with
  | nil => exact List.nodup_nil
  | cons member rest ih =>
    rw [List.nodup_cons] at hnodup
    by_cases hpresent : present &&& member.field ≠ 0
    · cases hget : get member with
      | none =>
        rw [configEntries, List.filterMap_cons, if_pos hpresent, hget]
        exact ih hnodup.2
      | some value =>
        rw [configEntries_cons_present hpresent hget, List.map_cons, List.nodup_cons]
        refine ⟨fun hmem => ?_, ih hnodup.2⟩
        obtain ⟨entry, hentry, rfl⟩ := List.mem_map.mp hmem
        exact hnodup.1 (mem_of_mem_configEntries hentry).1
    · rw [configEntries_cons_absent hpresent]
      exact ih hnodup.2

/-- **The first loop refuses** as soon as a string is not accepted. -/
theorem configMeasure_of_not (hlength : MeasuresStrings lengthOf accepts)
    {members : List CredentialMember} (h : ¬ConfigAccepted accepts get present members) {total : ℕ}
    {lengths : CredentialMember → ℕ} :
    configMeasure lengthOf get present members total lengths = .ok none := by
  induction members generalizing total lengths with
  | nil => exact absurd (List.forall_mem_nil _) h
  | cons member rest ih =>
    rw [ConfigAccepted, List.forall_mem_cons, not_and_or] at h
    unfold configMeasure
    split
    · rename_i hpresent
      cases hget : get member with
      | none => rw [hlength.null]; rfl
      | some value =>
        cases haccepts : accepts value with
        | false => rw [hlength.refused value haccepts]; rfl
        | true =>
          have hrest : ¬ConfigAccepted accepts get present rest :=
            h.resolve_left fun hmember => hmember fun _ => ⟨value, hget, haccepts⟩
          rw [hlength.accepted value haccepts, ok_bind]
          dsimp only
          split
          · rfl
          · exact ih hrest
    · rename_i habsent
      exact ih (h.resolve_left fun hmember => hmember fun hpresent => absurd hpresent habsent)

/-- **The first loop adds up** the strings that are present. -/
theorem configMeasure_of_accepted (hlength : MeasuresStrings lengthOf accepts)
    {members : List CredentialMember} (hnodup : members.Nodup)
    (h : ConfigAccepted accepts get present members) (total : ℕ)
    (hroom : total + members.length * (credentialValueMaxLength + 1) ≤ sizeMax)
    (lengths : CredentialMember → ℕ) :
    ∃ lengths', configMeasure lengthOf get present members total lengths =
        .ok (some (total + ((configEntries get present members).map (·.value.length + 1)).sum,
          lengths')) ∧
      (∀ entry ∈ configEntries get present members, lengths' entry.member = entry.value.length) ∧
      ∀ member ∉ members, lengths' member = lengths member := by
  induction members generalizing total lengths with
  | nil => exact ⟨lengths, rfl, List.forall_mem_nil _, fun _ _ => rfl⟩
  | cons member rest ih =>
    rw [ConfigAccepted, List.forall_mem_cons] at h
    rw [List.nodup_cons] at hnodup
    rw [List.length_cons, Nat.add_mul, Nat.one_mul] at hroom
    by_cases hpresent : present &&& member.field ≠ 0
    · obtain ⟨value, hget, haccepts⟩ := h.1 hpresent
      have hshort := hlength.short value haccepts
      have hadd : sizeAdd total (value.bytes.length + 1) =
        some (total + (value.bytes.length + 1)) := by
        rw [sizeAdd, if_neg (by omega)]
      obtain ⟨lengths', heq, hentries, hothers⟩ := ih hnodup.2 h.2
        (total + (value.bytes.length + 1)) (by omega)
        (Function.update lengths member value.bytes.length)
      refine ⟨lengths', ?_, ?_, fun other hother => ?_⟩
      · rw [configMeasure, if_pos hpresent, hget, hlength.accepted value haccepts, ok_bind]
        simp only [hadd, heq, configEntries_cons_present hpresent hget, List.map_cons,
          List.sum_cons, Nat.add_assoc]
      · rw [configEntries_cons_present hpresent hget, List.forall_mem_cons]
        exact ⟨(hothers member hnodup.1).trans (Function.update_self ..), hentries⟩
      · rw [List.mem_cons, not_or] at hother
        exact (hothers other hother.2).trans (Function.update_of_ne hother.1 ..)
    · obtain ⟨lengths', heq, hentries, hothers⟩ := ih hnodup.2 h.2 total (by omega) lengths
      refine ⟨lengths', ?_, ?_,
        fun other hother => hothers other (List.not_mem_of_not_mem_cons hother)⟩
      · rw [configMeasure, if_neg hpresent, configEntries_cons_absent hpresent]
        exact heq
      · rw [configEntries_cons_absent hpresent]
        exact hentries

/-- **The second loop lays them one after the other**, and touches nothing else. -/
theorem configCopy_eq {members : List CredentialMember} (hnodup : members.Nodup)
    (h : ConfigAccepted accepts get present members) {lengths : CredentialMember → ℕ}
    (hlengths : ∀ entry ∈ configEntries get present members, lengths entry.member =
    entry.value.length)
    {copy : ConfigCopy} {before space : List UInt8} (hvalues : copy.values = before ++ space)
    (hbefore : before.length = copy.cursor)
    (hspace : space.length =
    ((configEntries get present members).flatMap WinCredEntry.text).length) :
    ∃ last, configCopy get present lengths members copy = .ok last ∧
      last.values = before ++ (configEntries get present members).flatMap WinCredEntry.text ∧
      Laid (fun entry : WinCredEntry => last.members entry.member)
        (fun entry => entry.value.length + 1)
        copy.cursor (configEntries get present members) ∧
      ∀ member, (∀ entry ∈ configEntries get present members, entry.member ≠ member) →
        last.members member = copy.members member := by
  induction members generalizing copy before space with
  | nil =>
    obtain rfl : space = [] := List.length_eq_zero_iff.mp hspace
    exact ⟨copy, rfl, hvalues, trivial, fun _ _ => rfl⟩
  | cons member rest ih =>
    rw [ConfigAccepted, List.forall_mem_cons] at h
    rw [List.nodup_cons] at hnodup
    by_cases hpresent : present &&& member.field ≠ 0
    · obtain ⟨value, hget, -⟩ := h.1 hpresent
      rw [configEntries_cons_present hpresent hget] at hlengths hspace ⊢
      rw [List.forall_mem_cons] at hlengths
      rw [List.flatMap_cons, List.length_append, WinCredEntry.length_text] at hspace
      dsimp only at hspace
      have hlen : lengths member = value.bytes.length := hlengths.1
      have hslice : sliceAt value.memory 0 (value.bytes.length + 1) = .ok value.memory := by
        rw [sliceAt, if_pos (by simp [CString.memory]), List.drop_zero, List.take_of_length_le]
        simp [CString.memory]
      have hspaceParts : copy.values = before ++ (space.take (value.bytes.length + 1) ++
          space.drop (value.bytes.length + 1)) := by rw [List.take_append_drop, hvalues]
      have hwrite : writeAt copy.values copy.cursor value.memory =
          .ok (before ++ value.memory ++ space.drop (value.bytes.length + 1)) := by
        rw [hspaceParts, ← hbefore]
        refine writeAt_append ?_
        rw [List.length_take, CString.memory, List.length_append, List.length_singleton]
        omega
      let next : ConfigCopy := ⟨copy.cursor + (value.bytes.length + 1),
        before ++ value.memory ++ space.drop (value.bytes.length + 1),
        Function.update copy.members member (some copy.cursor)⟩
      obtain ⟨last, heq, hlast, hlaid, hothers⟩ := @ih hnodup.2 h.2 hlengths.2 next
        (before ++ value.memory) (space.drop (value.bytes.length + 1)) rfl
        (by simp only [List.length_append, CString.memory, hbefore, List.length_singleton, next])
        (by rw [List.length_drop]; omega)
      have hown : last.members member = some copy.cursor := by
        refine (hothers member fun entry hentry heq => ?_).trans (Function.update_self ..)
        exact hnodup.1 (heq ▸ (mem_of_mem_configEntries hentry).1)
      refine ⟨last, ?_, ?_, ⟨hown, hlaid⟩, fun other hother => ?_⟩
      · rw [configCopy, if_pos hpresent, hget]
        simp only [hlen, hslice, ok_bind, hwrite]
        exact heq
      · rw [hlast, List.flatMap_cons, List.append_assoc]
        rfl
      · rw [List.forall_mem_cons] at hother
        exact (hothers other hother.2).trans (Function.update_of_ne (Ne.symm hother.1) ..)
    · rw [configEntries_cons_absent hpresent] at hlengths hspace ⊢
      obtain ⟨last, heq, hlast, hlaid, hothers⟩ := ih hnodup.2 h.2 hlengths hvalues hbefore hspace
      refine ⟨last, ?_, hlast, hlaid, hothers⟩
      rw [configCopy, if_neg hpresent]
      exact heq

end Copy

/-! ## The copy and its source -/

/-- No member is listed twice… -/
theorem credentialMembers_nodup : credentialMembers.Nodup := by decide

/-- …and none is left out. -/
theorem mem_credentialMembers (member : CredentialMember) : member ∈ credentialMembers := by
  cases member <;> decide

theorem toNat_credentialFieldsCurrent : credentialFieldsCurrent.toNat = 2 ^ 19 - 1 := by decide

theorem shift_lt (member : CredentialMember) : member.shift < 19 := by cases member <;> decide

theorem exists_shift {i : ℕ} (hi : i < 19) : ∃ member : CredentialMember, member.shift = i := by
  have htable : ∀ i < 19, ∃ member ∈ credentialMembers, member.shift = i := by decide
  obtain ⟨member, -, hmember⟩ := htable i hi
  exact ⟨member, hmember⟩

/-- A member is present just when its bit is set. -/
theorem and_field_ne_zero_iff {present : UInt64} {member : CredentialMember} :
    present &&& member.field ≠ 0 ↔ present.toNat.testBit member.shift := by
  rw [ne_eq, ← UInt64.toNat_inj, UInt64.toNat_and,
    show member.field.toNat = 2 ^ member.shift from isFlag_field member, Nat.and_two_pow]
  cases present.toNat.testBit member.shift <;> simp

/-- The fields of a copy are those of its entries. -/
theorem isMaskOf_configEntries {accepts : CString → Bool} {get : CredentialMember → Option CString}
    {present : UInt64} (h : ConfigAccepted accepts get present credentialMembers) :
    IsMaskOf (present &&& credentialFieldsCurrent)
      ((configEntries get present credentialMembers).map (·.member.shift)) := fun i => by
  rw [UInt64.toNat_and, toNat_credentialFieldsCurrent, Nat.testBit_and, Nat.testBit_two_pow_sub_one,
    Bool.and_eq_true, decide_eq_true_iff, List.mem_map]
  constructor
  · rintro ⟨hbit, hi⟩
    obtain ⟨member, rfl⟩ := exists_shift hi
    have hpresent := and_field_ne_zero_iff.mpr hbit
    obtain ⟨value, hget, -⟩ := h member (mem_credentialMembers member) hpresent
    refine ⟨⟨member, value.bytes⟩,
      List.mem_filterMap.mpr ⟨member, mem_credentialMembers member, ?_⟩, rfl⟩
    rw [if_pos hpresent, hget]
    rfl
  · rintro ⟨entry, hentry, rfl⟩
    exact ⟨and_field_ne_zero_iff.mp (mem_of_mem_configEntries hentry).2.1, shift_lt _⟩

/-- **What the loops leave**, in a block of the size that was measured. -/
theorem configCopy_spec {accepts : CString → Bool} {get : CredentialMember → Option CString}
    {present : UInt64} (h : ConfigAccepted accepts get present credentialMembers)
    {lengths : CredentialMember → ℕ}
    (hlengths : ∀ entry ∈ configEntries get present credentialMembers,
      lengths entry.member = entry.value.length)
    {block : List UInt8}
    (hblock : block.length =
      ((configEntries get present credentialMembers).map (·.value.length + 1)).sum)
    (structureSize apiVersion : UInt32) :
    ∃ last, configCopy get present lengths credentialMembers ⟨0, block, fun _ => none⟩ = .ok last ∧
      last.values.length = block.length ∧
      WinCredLeaseOwner.Holds ⟨last.values, structureSize, apiVersion,
          present &&& credentialFieldsCurrent, last.members⟩
        (configEntries get present credentialMembers) := by
  have hspace := hblock.trans (WinCredEntry.length_flatMap_text _).symm
  obtain ⟨last, heq, hvalues, hlaid, hothers⟩ :=
    @configCopy_eq accepts get present credentialMembers
    credentialMembers_nodup h lengths hlengths ⟨0, block, fun _ => none⟩ [] block rfl rfl hspace
  rw [List.nil_append] at hvalues
  refine ⟨last, heq, by rw [hvalues, hspace], isMaskOf_configEntries h, fun entry hentry => ?_,
    fun member hmember => ?_, fun i hi => ?_⟩
  · have hstart : ([] : List UInt8).length = 0 := rfl
    have hslice := hlaid.slice WinCredEntry.length_text hstart hentry
    rwa [List.nil_append, ← hvalues] at hslice
  · exact hothers member fun entry hentry heq => hmember (List.mem_map.mpr ⟨entry, hentry, heq⟩)
  · refine hlaid.existsUnique (Nat.zero_le i) ?_
    rw [Nat.zero_add, ← hblock, ← hspace.symm, ← hvalues]
    exact hi

/-- **A block for a copy, and what the second loop leaves in it**, if there is memory. -/
theorem configAllocate_cases {accepts : CString → Bool} {get : CredentialMember → Option CString}
    {present : UInt64} (h : ConfigAccepted accepts get present credentialMembers)
    (hne : configEntries get present credentialMembers ≠ []) {lengths : CredentialMember → ℕ}
    (hlengths : ∀ entry ∈ configEntries get present credentialMembers,
      lengths entry.member = entry.value.length)
    {storage : SensitiveMemory} (hinit : storage.initialized = true)
    (hsound : storage.storage.Sound)
    (hnone : storage.storage.memory = none) (arena : Arena) (structureSize apiVersion : UInt32) :
    let total := ((configEntries get present credentialMembers).map (·.value.length + 1)).sum
    (arena.answer.granted = true ∧ ∃ block arena' last,
      sensitiveMemoryAllocate storage arena total = (.ok, storage.withBlock block, arena') ∧
      configCopy get present lengths credentialMembers ⟨0, block.bytes, fun _ => none⟩ = .ok last ∧
      last.values.length = block.bytes.length ∧
      WinCredLeaseOwner.Holds
        ⟨last.values, structureSize, apiVersion, present &&& credentialFieldsCurrent,
        last.members⟩ (configEntries get present credentialMembers) ∧
      arena.Moves [] [block.address] arena') ∨
    (arena.answer.granted = false ∧ ∃ arena',
      sensitiveMemoryAllocate storage arena total = (.outOfMemory, storage, arena') ∧
      arena.Moves [] [] arena') := by
  intro total
  have htotal : total ≠ 0 := by
    obtain ⟨entry, entries, heq⟩ := List.exists_cons_of_ne_nil hne
    simp only [total, heq, List.map_cons, List.sum_cons]
    omega
  refine (sensitiveMemoryAllocate_cases hinit hsound hnone arena htotal).imp ?_ id
  rintro ⟨hgranted, block, arena', hallocate, hlength, hmoves⟩
  obtain ⟨last, hcopy, hsize, hholds⟩ := configCopy_spec h hlengths hlength structureSize apiVersion
  exact ⟨hgranted, block, arena', last, hallocate, hcopy, hsize, hholds, hmoves⟩

/-- A value that is held is the C string that its member shows. -/
theorem cStringAt_of_slice {block value : List UInt8} {offset : ℕ} (hnul : 0 ∉ value)
    (h : slice block offset (value.length + 1) = value ++ [0]) :
    (cStringAt block offset).bytes = value := by
  have htake : (block.drop offset).take (value.length + 1) = value ++ [0] := h
  have hdrop : block.drop offset = value ++ [0] ++ (block.drop offset).drop (value.length + 1) := by
    rw [← htake, List.take_append_drop]
  show (block.drop offset).takeWhile (· != 0) = value
  rw [hdrop, List.append_assoc, List.takeWhile_append_of_pos]
  · simp
  · intro byte hbyte
    exact bne_iff_ne.mpr fun heq => hnul (heq ▸ hbyte)

/-- **What an owner shows** are the entries that it holds, and nothing else. -/
theorem WinCredLeaseOwner.Holds.view {owner : WinCredLeaseOwner} {entries : List WinCredEntry}
    (h : owner.Holds entries) (hnul : ∀ entry ∈ entries, 0 ∉ entry.value) :
    (∀ entry ∈ entries, ∃ value,
      (owner.config.view owner.values).members entry.member = some value ∧
      value.bytes = entry.value) ∧
    ∀ member ∉ entries.map (·.member), (owner.config.view owner.values).members member = none := by
  refine ⟨fun entry hentry => ?_, fun member hmember => ?_⟩
  · obtain ⟨offset, hoffset, hslice⟩ := h.named entry hentry
    refine ⟨cStringAt owner.values offset, ?_, cStringAt_of_slice (hnul entry hentry) hslice⟩
    exact Option.map_eq_some_iff.mpr ⟨offset, hoffset, rfl⟩
  · exact Option.map_eq_none_iff.mpr (h.others member hmember)

end Vps
