import VirtualPostgreSQL.Connection.Resolve

/-!
# Connection/Copy — what a connection copies

What a configuration says is a value for some of its members (`CredentialConfigView.values`).  A
connection takes it if there is a value and every value is short, not empty and free of controls
(`AcceptableValues`); `connectionCopyConfig_spec` says that it then holds these values and nothing
else.
-/

namespace Vps

open Machinery

/-! ## Strings -/

/-- A string that a connection takes. -/
def connectionAccepts (value : List UInt8) : Bool :=
  value.length != 0 && value.length ≤ credentialValueMaxLength && value.all fun byte =>
    !isControlByte byte

/-- The scan goes on to the NUL, over plain bytes, if it is near enough. -/
theorem valueLengthScan_eq {bytes : List UInt8} (hnul : 0 ∉ bytes) : ∀ {rounds index : ℕ},
    index ≤ bytes.length → valueLengthScan (bytes ++ [0]) rounds index = .ok
      (if bytes.length < index + rounds ∧ (bytes.drop index).all (fun byte => !isControlByte byte) ∧
        bytes.length ≠ 0 then some bytes.length else none)
  | 0, index, hindex => by
    rw [if_neg fun h => absurd h.1 (by omega)]
    rfl
  | rounds + 1, index, hindex => by
    rcases Nat.lt_or_ge index bytes.length with hlt | hge
    · have hbyte : byteAt (bytes ++ [0]) index = .ok bytes[index] := by
        rw [byteAt, List.getElem?_append_left hlt, List.getElem?_eq_getElem hlt]
      have hne : bytes[index] ≠ 0 := fun heq => hnul (heq ▸ List.getElem_mem hlt)
      rw [valueLengthScan, hbyte, ok_bind, if_neg hne, List.drop_eq_getElem_cons hlt, List.all_cons]
      split
      · rename_i hcontrol
        rw [if_neg (by simp [hcontrol])]
        rfl
      · rename_i hplain
        rw [Bool.not_eq_true] at hplain
        rw [valueLengthScan_eq hnul hlt, hplain, Bool.not_false, Bool.true_and,
          show index + 1 + rounds = index + (rounds + 1) by omega]
    · obtain rfl : index = bytes.length := Nat.le_antisymm hindex hge
      have hbyte : byteAt (bytes ++ [0]) bytes.length = .ok 0 := by
        rw [byteAt, List.getElem?_append_right le_rfl, Nat.sub_self]
        rfl
      rw [valueLengthScan, hbyte, ok_bind, if_pos rfl, List.drop_length]
      by_cases hne : bytes.length = 0
      · rw [if_neg (not_not_intro hne), if_neg fun h => h.2.2 hne]
        rfl
      · rw [if_pos hne, if_pos ⟨by omega, rfl, hne⟩]
        rfl

/-- **`vps_value_length` measures the strings that a connection takes.** -/
theorem valueLength_measures :
    MeasuresStrings valueLength fun value => connectionAccepts value.bytes := by
  have hscan (value : CString) : valueLength (some value) =
      .ok (if connectionAccepts value.bytes then some value.bytes.length else none) := by
    have heq := @valueLengthScan_eq value.bytes value.nul (credentialValueMaxLength + 1) 0
      (Nat.zero_le _)
    rw [valueLength, CString.memory, heq, List.drop_zero]
    congr 2
    simp only [connectionAccepts, Bool.and_eq_true, bne_iff_ne, decide_eq_true_eq, Nat.zero_add,
      Nat.lt_succ_iff, eq_iff_iff]
    tauto
  refine ⟨rfl, fun value haccepts => ?_, fun value haccepts => ?_, fun value haccepts => ?_⟩
  · rw [hscan, haccepts]
    rfl
  · rw [hscan, haccepts]
    rfl
  · simp only [connectionAccepts, Bool.and_eq_true, decide_eq_true_eq] at haccepts
    exact haccepts.1.2

/-! ## What a configuration says -/

/-- The values of some members. -/
abbrev CredentialValues := CredentialMember → Option (List UInt8)

/-- The entries of some values, in the order of the table. -/
def entriesOf (values : CredentialValues) : List WinCredEntry :=
  credentialMembers.filterMap fun member => (values member).map fun value => ⟨member, value⟩

/-- **Values that a connection takes.** -/
structure AcceptableValues (values : CredentialValues) : Prop where
  some : ∃ member value, values member = some value
  accepted : ∀ member value, values member = Option.some value → connectionAccepts value = true

/-- What the members that are present say. -/
def CredentialConfigView.values (view : CredentialConfigView) : CredentialValues := fun member =>
  if view.header.presentFields &&& member.field ≠ 0 then
    (view.members member).map CString.bytes
  else none

/-- A configuration of the current version, with no field that is not known, and a string for every
field. -/
structure CredentialConfigView.Formed (view : CredentialConfigView) : Prop where
  version : view.header.apiVersion = apiVersion
  fields : view.header.presentFields &&& ~~~credentialFieldsCurrent = 0
  whole : ∀ member, view.header.presentFields &&& member.field ≠ 0 → (view.members member).isSome

/-- **What a configuration gives a connection.** -/
structure CredentialConfigView.Gives (view : CredentialConfigView)
    (values : CredentialValues) : Prop where
  formed : view.Formed
  shown : values = view.values
  acceptable : AcceptableValues values

section Views

variable {view : CredentialConfigView}

theorem mem_entriesOf {values : CredentialValues} {entry : WinCredEntry} :
    entry ∈ entriesOf values ↔ values entry.member = some entry.value := by
  simp only [entriesOf, List.mem_filterMap, Option.map_eq_some_iff]
  constructor
  · rintro ⟨member, -, value, hvalue, rfl⟩
    exact hvalue
  · exact fun hvalue => ⟨entry.member, mem_credentialMembers _, entry.value, hvalue, rfl⟩

theorem configEntries_eq_entriesOf (view : CredentialConfigView) :
    configEntries view.members view.header.presentFields credentialMembers =
      entriesOf view.values := by
  refine List.filterMap_congr fun member _ => ?_
  unfold CredentialConfigView.values
  split
  · rw [Option.map_map]
    rfl
  · rfl

theorem configAccepted_iff (hformed : view.Formed) :
    ConfigAccepted (fun value => connectionAccepts value.bytes) view.members
      view.header.presentFields
        credentialMembers ↔
      ∀ member value, view.values member = some value → connectionAccepts value = true := by
  unfold ConfigAccepted CredentialConfigView.values
  constructor
  · intro h member value hvalue
    split at hvalue
    · rename_i hpresent
      obtain ⟨string, hstring, haccepted⟩ := h member (mem_credentialMembers _) hpresent
      rw [hstring] at hvalue
      cases hvalue
      exact haccepted
    · cases hvalue
  · intro h member _ hpresent
    obtain ⟨string, hstring⟩ := Option.isSome_iff_exists.mp (hformed.whole member hpresent)
    refine ⟨string, hstring, h member string.bytes ?_⟩
    rw [if_pos hpresent, hstring]
    rfl

/-- A field is present if a member has a value. -/
theorem presentFields_ne_zero_iff (hformed : view.Formed) :
    view.header.presentFields &&& credentialFieldsCurrent ≠ 0 ↔
      ∃ member value, view.values member = some value := by
  constructor
  · intro hne
    by_contra hnone
    refine hne (UInt64.toNat_inj.mp (Nat.eq_of_testBit_eq fun i => ?_))
    rw [UInt64.toNat_zero, Nat.zero_testBit, UInt64.toNat_and, toNat_credentialFieldsCurrent,
      Nat.testBit_and, Nat.testBit_two_pow_sub_one, Bool.eq_false_iff]
    simp only [ne_eq, Bool.and_eq_true, decide_eq_true_iff, not_and]
    intro hbit hi
    obtain ⟨member, rfl⟩ := exists_shift hi
    have hpresent := and_field_ne_zero_iff.mpr hbit
    obtain ⟨string, hstring⟩ := Option.isSome_iff_exists.mp (hformed.whole member hpresent)
    exact hnone ⟨member,
      string.bytes, by rw [CredentialConfigView.values, if_pos hpresent, hstring]; rfl⟩
  · rintro ⟨member, value, hvalue⟩ hzero
    unfold CredentialConfigView.values at hvalue
    split at hvalue
    · rename_i hpresent
      have hbit := and_field_ne_zero_iff.mp hpresent
      have hboth : (view.header.presentFields &&& credentialFieldsCurrent).toNat.testBit
        member.shift = true := by
        rw [UInt64.toNat_and, toNat_credentialFieldsCurrent, Nat.testBit_and,
          Nat.testBit_two_pow_sub_one, hbit, decide_eq_true (shift_lt member), Bool.and_self]
      rw [hzero, UInt64.toNat_zero, Nat.zero_testBit] at hboth
      cases hboth
    · cases hvalue

end Views

/-! ## Connections -/

/-- Where a connection has its configuration from. -/
structure ConnectionOrigin where
  mode : ConnectionMode
  providerId : UInt64
  generation : UInt64
  normalizedProfile : List UInt8
  persistentConnstrRisk : Bool

namespace ResolvedConnection

def origin (connection : ResolvedConnection) : ConnectionOrigin :=
  ⟨connection.mode, connection.providerId, connection.generation, connection.normalizedProfile,
    connection.persistentConnstrRisk⟩

/-- A connection between operations. -/
structure Sound (connection : ResolvedConnection) : Prop where
  initialized : connection.initialized = true
  storageInitialized : connection.storage.initialized = true
  storage : connection.storage.storage.Sound

/-- A connection as it was initialised, wherever its configuration will come from. -/
structure Fresh (connection : ResolvedConnection) : Prop where
  sound : connection.Sound
  config : connection.config = emptyCredentialConfig
  memory : connection.storage.storage.memory = none

/-- **What a connection holds of values**: in its own block, every one of them and nothing else. -/
structure HoldsValues (connection : ResolvedConnection) (values : CredentialValues) : Prop where
  structureSize : connection.config.structureSize = credentialConfigSize
  apiVersion : connection.config.apiVersion = apiVersion
  block : ∃ block, connection.storage.storage.memory = some block ∧
    WinCredLeaseOwner.Holds ⟨block.bytes, connection.config⟩ (entriesOf values)

/-- **What a source has made of a fresh connection**: it was filled with what the source offers, or
the source has failed; a block that nobody owns any more was not zeroed. -/
structure Filled (arena : Arena) (offers : ConnectionOrigin → CredentialValues → Prop)
    (result : ConnectionStringResult) (connection : ResolvedConnection)
    (arena' : Arena) : Prop where
  sound : connection.Sound
  outcome : result = .ok → ∃ values, offers connection.origin values ∧ connection.HoldsValues values
  moves : ∃ lost, arena.Moves [] (addressesOf connection.storage.storage.memory ++ lost) arena' ∧
    (arena.Zeroes → lost = [])
  complete : arena.Generous → (∃ origin values, offers origin values) → result = .ok

end ResolvedConnection

section Copy

variable {connection : ResolvedConnection}

/-- A source that failed before it took memory. -/
theorem ResolvedConnection.Filled.refused (h : connection.Fresh) {arena arena' : Arena}
    {offers : ConnectionOrigin → CredentialValues → Prop} {result : ConnectionStringResult}
    (hfailed : result ≠ .ok) (hmoves : arena.Moves [] [] arena')
    (hnone : arena.Generous → ∀ origin values, ¬offers origin values) :
    connection.Filled arena offers result arena' := by
  refine ⟨h.sound, fun hok => absurd hok hfailed, ⟨[], ?_, fun _ => rfl⟩,
    fun hgenerous ⟨origin, values, hoffers⟩ =>
    absurd hoffers (hnone hgenerous origin values)⟩
  rw [h.memory]
  exact hmoves

/-- **What the copy of a configuration does**, whatever it is: the origin stays. -/
theorem connectionCopyConfig_spec (h : connection.Fresh) (arena : Arena)
    (source : CredentialConfigView) :
    ∃ result connection' arena', connectionCopyConfig connection arena source =
        .ok (result, connection', arena') ∧ connection'.origin = connection.origin ∧
      connection'.Filled arena
        (fun origin values => origin = connection.origin ∧ source.Gives values) result
        arena' := by
  have hmeasures := valueLength_measures
  unfold connectionCopyConfig
  simp only []
  split
  · rename_i hheader
    refine ⟨_, _, _, rfl, rfl, .refused h ConnectionStringResult.noConfusion (.refl _ _)
      fun _ origin values ⟨_, hgives⟩ => ?_⟩
    rcases hheader with hversion | hfields | hnone
    · exact hversion hgives.formed.version
    · exact hfields hgives.formed.fields
    · obtain ⟨member, value, hvalue⟩ := hgives.acceptable.some
      rw [hgives.shown] at hvalue
      exact (presentFields_ne_zero_iff hgives.formed).mpr ⟨member, value, hvalue⟩ hnone
  rename_i hheader
  simp only [not_or, not_not] at hheader
  by_cases hstrings : ConfigAccepted (fun value => connectionAccepts value.bytes) source.members
      source.header.presentFields credentialMembers
  · have hroom :
      0 + credentialMembers.length * (credentialValueMaxLength + 1) ≤ sizeMax := by decide
    obtain ⟨lengths, hmeasure, hlengths, -⟩ :=
      configMeasure_of_accepted hmeasures credentialMembers_nodup
      hstrings 0 hroom fun _ => 0
    rw [Nat.zero_add] at hmeasure
    have hformed : source.Formed := ⟨hheader.1, hheader.2.1, fun member hpresent => by
      obtain ⟨string, hstring, -⟩ := hstrings member (mem_credentialMembers _) hpresent
      rw [hstring]
      rfl⟩
    have hsome := (presentFields_ne_zero_iff hformed).mp hheader.2.2
    have hgives : source.Gives source.values :=
      ⟨hformed, rfl, hsome, (configAccepted_iff hformed).mp hstrings⟩
    have hne : configEntries source.members source.header.presentFields credentialMembers ≠ [] := by
      obtain ⟨member, value, hvalue⟩ := hsome
      rw [configEntries_eq_entriesOf]
      exact List.ne_nil_of_mem
        (mem_entriesOf.mpr (show source.values (⟨member, value⟩ : WinCredEntry).member =
        some value from hvalue))
    simp only [hmeasure, ok_bind]
    rcases configAllocate_cases hstrings hne hlengths h.sound.storageInitialized h.sound.storage
      h.memory arena credentialConfigSize apiVersion with
      ⟨-, block, arena', last, hallocate, hcopy, hsize, hholds, hmoves⟩ | ⟨hdenied, arena',
        hallocate, hmoves⟩
    · have hmembers : connection.config.members = fun _ => none := by rw [h.config]; rfl
      have hdata : sensitiveMemoryData (connection.storage.withBlock block) = some block := by
        simp [sensitiveMemoryData, SensitiveMemory.withBlock, h.sound.storageInitialized]
      rw [hallocate]
      simp only [hdata, hmembers, hcopy, ok_bind]
      refine ⟨_, _, _, rfl, rfl,
        ⟨h.sound.initialized, h.sound.storageInitialized, h.sound.storage.valid, rfl, ?_⟩,
        fun _ => ⟨source.values, ⟨rfl, hgives⟩, ?_, ?_, _, rfl, ?_⟩,
        ⟨[], by rw [List.append_nil]; exact hmoves, fun _ => rfl⟩, fun _ _ => rfl⟩
      · rintro _ ⟨⟩
        exact hsize.symm
      · rw [h.config]
        rfl
      · rw [h.config]
        rfl
      · rw [h.config, ← configEntries_eq_entriesOf]
        exact hholds
    · rw [hallocate]
      refine ⟨_, _, _, rfl, rfl,
        .refused h ConnectionStringResult.noConfusion hmoves fun hgenerous => ?_⟩
      rw [hgenerous.granted] at hdenied
      cases hdenied
  · rw [configMeasure_of_not hmeasures hstrings]
    refine ⟨_, _, _, rfl, rfl, .refused h ConnectionStringResult.noConfusion (.refl _ _)
      fun _ origin values ⟨_, hgives⟩ => hstrings ((configAccepted_iff hgives.formed).mpr ?_)⟩
    rw [← hgives.shown]
    exact hgives.acceptable.accepted

end Copy

end Vps
