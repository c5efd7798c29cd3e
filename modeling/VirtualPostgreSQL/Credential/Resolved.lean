import VirtualPostgreSQL.Credential.Registry

/-!
# Credential/Resolved — what a resolve copies

A configuration is accepted if its header is compatible, a field is present, and every field that is
present shows a string that is short, UTF-8 and free of controls.  `credentialResolveCopy_spec` says
that an accepted one is copied, byte for byte, unless there is no memory, and that in every other
case the object stays as it was.
-/

namespace Vps

open Machinery

/-! ## Strings -/

section Strings

variable {bytes : List UInt8} {index : ℕ}

/-- A string that the registry takes. -/
def credentialAccepts (value : CString) : Bool :=
  value.bytes.length ≤ credentialValueMaxLength &&
    (utf8IsValidAt value.bytes true).toOption.getD false

theorem credentialAccepts_iff {value : CString} {member : CredentialMember} :
    credentialAccepts value ↔ WinCredEntry.Valid ⟨member, value.bytes⟩ := by
  obtain ⟨accepted, heq, haccepted⟩ := utf8IsValidAt_spec value.bytes true
  rw [credentialAccepts, heq, Bool.and_eq_true, decide_eq_true_iff]
  show _ ∧ accepted = true ↔ _
  rw [haccepted]
  constructor
  · rintro ⟨hlength, hutf8, hplain⟩
    exact ⟨hlength, hutf8, fun byte hbyte => (hplain byte hbyte).2 rfl⟩
  · rintro ⟨hlength, hutf8, hplain⟩
    refine ⟨hlength, hutf8, fun byte hbyte => ⟨?_, fun _ => hplain byte hbyte⟩⟩
    rintro rfl
    exact value.nul hbyte

/-- The scan goes on to the NUL, if it is near enough. -/
theorem boundedStringScan_eq (hnul : 0 ∉ bytes) : ∀ {rounds index : ℕ}, index ≤ bytes.length →
    boundedStringScan (bytes ++ [0]) rounds index =
      if bytes.length < index + rounds then
        (utf8IsValidAt bytes true).map fun valid => if valid then some bytes.length else none
      else .ok none
  | 0, index, hindex => by
    rw [if_neg (by omega)]
    rfl
  | rounds + 1, index, hindex => by
    rcases Nat.lt_or_ge index bytes.length with hlt | hge
    · have hbyte : byteAt (bytes ++ [0]) index = .ok bytes[index] := by
        rw [byteAt, List.getElem?_append_left hlt, List.getElem?_eq_getElem hlt]
      have hne : bytes[index] ≠ 0 := fun heq => hnul (heq ▸ List.getElem_mem hlt)
      rw [boundedStringScan, hbyte, ok_bind, if_neg hne, boundedStringScan_eq hnul hlt]
      congr 1
      exact propext ⟨fun h => by omega, fun h => by omega⟩
    · obtain rfl : index = bytes.length := Nat.le_antisymm hindex hge
      have hbyte : byteAt (bytes ++ [0]) bytes.length = .ok 0 := by
        rw [byteAt, List.getElem?_append_right le_rfl, Nat.sub_self]
        rfl
      obtain ⟨accepted, hutf8, -⟩ := utf8IsValidAt_spec bytes true
      rw [boundedStringScan, hbyte, ok_bind, if_pos rfl, List.take_left, if_pos (by omega), hutf8]
      cases accepted <;> rfl

/-- **`vps_bounded_string_length` measures the strings that the registry takes.** -/
theorem boundedStringLength_measures : MeasuresStrings boundedStringLength credentialAccepts := by
  have hscan (value : CString) : boundedStringLength (some value) =
      .ok (if credentialAccepts value then some value.bytes.length else none) := by
    obtain ⟨accepted, hutf8, -⟩ := utf8IsValidAt_spec value.bytes true
    have heq := @boundedStringScan_eq value.bytes value.nul (credentialValueMaxLength + 1) 0
      (Nat.zero_le _)
    rw [boundedStringLength, CString.memory, heq, credentialAccepts, hutf8, Nat.zero_add]
    by_cases hlength : value.bytes.length ≤ credentialValueMaxLength
    · rw [if_pos (Nat.lt_succ_of_le hlength), decide_eq_true hlength]
      rfl
    · rw [if_neg (fun h => hlength (Nat.le_of_lt_succ h)), decide_eq_false hlength]
      rfl
  refine ⟨rfl, fun value haccepts => ?_, fun value haccepts => ?_, fun value haccepts => ?_⟩
  · rw [hscan, haccepts]
    rfl
  · rw [hscan, haccepts]
    rfl
  · exact of_decide_eq_true ((Bool.and_eq_true _ _).mp haccepts).1

end Strings

/-! ## Configurations -/

/-- The entries that a configuration shows to the registry. -/
def CredentialConfigView.entries (source : CredentialConfigView) : List WinCredEntry :=
  configEntries (configGetString source) source.header.presentFields credentialMembers

/-- **A configuration that the registry takes.** -/
structure CredentialConfigView.Accepted (source : CredentialConfigView) : Prop where
  header : abiValidateHeader source.header 16 apiVersion = .valid
  present : source.header.presentFields &&& credentialFieldsCurrent ≠ 0
  strings : ConfigAccepted credentialAccepts (configGetString source) source.header.presentFields
    credentialMembers

/-- An object as it was initialised, or cleaned up. -/
structure ResolvedCredential.Empty (resolved : ResolvedCredential) : Prop where
  config : resolved.config = emptyCredentialConfig
  storage : resolved.storage.storage.Sound
  memory : resolved.storage.storage.memory = none
  initialized : resolved.initialized = true ∧ resolved.storage.initialized = true

/-- An object that was initialised: where it owns no block, it shows nothing. -/
structure ResolvedCredential.Formed (resolved : ResolvedCredential) : Prop where
  storage : resolved.storage.storage.Sound
  initialized : resolved.storage.initialized = true
  config : resolved.storage.storage.memory = none → resolved.config = emptyCredentialConfig

theorem ResolvedCredential.Formed.empty {resolved : ResolvedCredential} (h : resolved.Formed)
    (hinitialized : resolved.initialized = true) (howned : resolved.storage.storage.owned = false) :
    resolved.Empty := by
  have hnone : resolved.storage.storage.memory = none := by
    rw [h.storage.owned] at howned
    exact Option.not_isSome_iff_eq_none.mp (by simp [howned])
  exact ⟨h.config hnone, h.storage, hnone, hinitialized, h.initialized⟩

/-- **What an object holds of a configuration**: in its own block, every entry and nothing else. -/
def ResolvedCredential.HoldsConfig (resolved : ResolvedCredential)
    (source : CredentialConfigView) : Prop :=
  resolved.storage.storage.Sound ∧ resolved.config.structureSize = credentialConfigSize ∧
    resolved.config.apiVersion = apiVersion ∧
    ∃ block, resolved.storage.storage.memory = some block ∧
      WinCredLeaseOwner.Holds ⟨block.bytes, resolved.config⟩ source.entries

theorem entries_ne_nil {source : CredentialConfigView} (h : source.Accepted) :
    source.entries ≠ [] := by
  have hmask := isMaskOf_configEntries h.strings
  intro hnil
  rw [CredentialConfigView.entries] at hnil
  rw [hnil] at hmask
  refine h.present (UInt64.toNat_inj.mp (Nat.eq_of_testBit_eq fun i => ?_))
  rw [UInt64.toNat_zero, Nat.zero_testBit, Bool.eq_false_iff]
  exact fun hbit => List.not_mem_nil ((hmask i).mp hbit)

/-- **What a copy has done**: it took all of a configuration into a block of its own, or nothing. -/
structure ResolvedCredential.Copied (resolved : ResolvedCredential) (arena : Arena)
    (shows : CredentialConfigView → Prop) (result : CredentialRegistryResult)
    (resolved' : ResolvedCredential) (arena' : Arena) : Prop where
  outcome : (result = .ok ∧ ∃ source, shows source ∧ resolved'.HoldsConfig source) ∨
    (result ≠ .ok ∧ resolved' = resolved)
  initialized : resolved'.initialized = true ∧ resolved'.storage.initialized = true
  moves : arena.Moves [] (addressesOf resolved'.storage.storage.memory) arena'
  complete : arena.Generous → (∃ source, shows source) → result = .ok

section Copy

variable {resolved : ResolvedCredential}

/-- A copy that took nothing. -/
theorem ResolvedCredential.Copied.refused (h : resolved.Empty) {arena arena' : Arena}
    {shows : CredentialConfigView → Prop} {result : CredentialRegistryResult}
    (hfailed : result ≠ .ok)
    (hmoves : arena.Moves [] [] arena') (hnone : arena.Generous → ∀ source, ¬shows source) :
    resolved.Copied arena shows result resolved arena' := by
  refine ⟨.inr ⟨hfailed, rfl⟩, h.initialized, ?_, fun hgenerous ⟨source, hsource⟩ =>
    absurd hsource (hnone hgenerous source)⟩
  rw [h.memory]
  exact hmoves

/-- A configuration that is not accepted. -/
theorem credentialCopyConfig_of_not (resolved : ResolvedCredential) (arena : Arena)
    {source : Option CredentialConfigView} (h : ∀ shown, source = some shown → ¬shown.Accepted) :
    credentialCopyConfig source resolved arena = .ok (.invalidConfig, resolved, arena) := by
  unfold credentialCopyConfig
  cases source with
  | none => rfl
  | some source =>
    dsimp only
    split
    · rfl
    rename_i hheader
    simp only [not_or, not_not] at hheader
    have hstrings : ¬ConfigAccepted credentialAccepts (configGetString source)
        source.header.presentFields credentialMembers :=
      fun hstrings => h source rfl ⟨hheader.1, hheader.2, hstrings⟩
    rw [configMeasure_of_not boundedStringLength_measures hstrings]
    rfl

/-- **An accepted configuration is copied**, byte for byte, unless there is no memory. -/
theorem credentialCopyConfig_of_accepted (hempty : resolved.Empty) (arena : Arena)
    {source : CredentialConfigView} (h : source.Accepted) :
    ∃ result resolved' arena', credentialCopyConfig (some source) resolved arena =
        .ok (result, resolved', arena') ∧
      resolved.Copied arena (· = source) result resolved' arena' := by
  have hroom : 0 + credentialMembers.length * (credentialValueMaxLength + 1) ≤ sizeMax := by decide
  obtain ⟨lengths, hmeasure, hlengths, -⟩ := configMeasure_of_accepted boundedStringLength_measures
    credentialMembers_nodup h.strings 0 hroom fun _ => 0
  rw [Nat.zero_add] at hmeasure
  have hheader : ¬(abiValidateHeader source.header 16 apiVersion ≠ .valid ∨
      source.header.presentFields &&& credentialFieldsCurrent = 0) := by
    rw [not_or, not_not]
    exact ⟨h.header, h.present⟩
  simp only [credentialCopyConfig, if_neg hheader, hmeasure, ok_bind]
  rcases configAllocate_cases h.strings (entries_ne_nil h) hlengths hempty.initialized.2
    hempty.storage hempty.memory arena credentialConfigSize apiVersion with
    ⟨-, block, arena', last, hallocate, hcopy, hsize, hholds, hmoves⟩ | ⟨hdenied, arena',
      hallocate, hmoves⟩
  · have hmembers : resolved.config.members = fun _ => none := by rw [hempty.config]; rfl
    have hdata : sensitiveMemoryData (resolved.storage.withBlock block) = some block := by
      simp [sensitiveMemoryData, SensitiveMemory.withBlock, hempty.initialized.2]
    rw [hallocate]
    simp only [hdata, hmembers, hcopy, ok_bind]
    refine ⟨_, _, _, rfl,
      .inl ⟨rfl, source, rfl, ⟨hempty.storage.valid, rfl, ?_⟩, ?_, ?_, _, rfl, ?_⟩,
      ⟨hempty.initialized.1, hempty.initialized.2⟩, hmoves, fun _ _ => rfl⟩
    · rintro _ ⟨⟩
      exact hsize.symm
    · rw [hempty.config]
      rfl
    · rw [hempty.config]
      rfl
    · rw [hempty.config]
      exact hholds
  · rw [hallocate]
    refine ⟨_, _, _, rfl,
      .refused hempty CredentialRegistryResult.noConfusion hmoves fun hgenerous => ?_⟩
    rw [hgenerous.granted] at hdenied
    cases hdenied

/-- What a lease shows to the registry. -/
structure CredentialLease.Shows (lease : CredentialLease)
    (source : CredentialConfigView) : Prop where
  header : abiValidateHeader lease.header 24 apiVersion = .valid
  present : lease.header.presentFields ≠ 0 → lease.header.presentFields &&& 1 ≠ 0
  config : lease.config = some source
  accepted : source.Accepted

/-- **What is made of a lease**, whatever it is. -/
theorem credentialResolveCopy_spec (hempty : resolved.Empty) (arena : Arena)
    (lease : CredentialLease) :
    ∃ result resolved' arena', credentialResolveCopy lease resolved arena =
        .ok (result, resolved', arena') ∧
      resolved.Copied arena lease.Shows result resolved' arena' := by
  unfold credentialResolveCopy
  split
  · rename_i hheader
    refine ⟨_, _, _, rfl, .refused hempty CredentialRegistryResult.noConfusion (.refl _ _)
      fun _ source hshows => ?_⟩
    rcases hheader with hheader | ⟨hpresent, hzero⟩
    · exact hheader hshows.header
    · exact hshows.present hpresent hzero
  rename_i hheader
  rw [not_or, not_not, not_and] at hheader
  by_cases h : ∃ shown, lease.config = some shown ∧ shown.Accepted
  · obtain ⟨shown, hconfig, haccepted⟩ := h
    obtain ⟨result, resolved', arena', heq, hcopied⟩ :=
      credentialCopyConfig_of_accepted hempty arena haccepted
    have hshows : lease.Shows shown := ⟨hheader.1, hheader.2, hconfig, haccepted⟩
    rw [hconfig]
    refine ⟨result, resolved', arena', heq, ?_, hcopied.initialized, hcopied.moves,
      fun hgenerous _ => hcopied.complete hgenerous ⟨shown, rfl⟩⟩
    rcases hcopied.outcome with ⟨hok, source, rfl, hholds⟩ | hfailed
    · exact .inl ⟨hok, source, hshows, hholds⟩
    · exact .inr hfailed
  · refine ⟨_, _, _, credentialCopyConfig_of_not resolved arena fun shown hshown haccepted => ?_,
      .refused hempty CredentialRegistryResult.noConfusion (.refl _ _) fun _ source hshows => ?_⟩
    · exact h ⟨shown, hshown, haccepted⟩
    · exact h ⟨source, hshows.config, hshows.accepted⟩

end Copy

end Vps
