import VirtualPostgreSQL.Connection.Environment

/-!
# Connection/Contract — a connection is replaced as a whole, or stays

`ConnectionOffer` says what arguments and options offer a connection, by any of the four sources.
`connectionConfigResolve_spec` is the result: a resolve that succeeds has put what is offered into
the connection, and nothing else; one that fails has left the connection alone; and whatever
happens, no byte is read or written outside of its block, and what comes back to the allocator was
zeroed.
-/

namespace Vps

open Machinery

/-! ## A credential -/

/-- What a configuration says to the registry. -/
def CredentialConfigView.leaseValues (view : CredentialConfigView) :
    CredentialValues := fun member =>
  if view.header.presentFields &&& member.field ≠ 0 then
    (configGetString view member).map CString.bytes
  else none

theorem entries_eq_entriesOf (view : CredentialConfigView) :
    view.entries = entriesOf view.leaseValues := by
  refine List.filterMap_congr fun member _ => ?_
  unfold CredentialConfigView.leaseValues
  split
  · rw [Option.map_map]
    rfl
  · rfl

theorem shift_inj {member other : CredentialMember} :
    member.shift = other.shift ↔ member = other := by
  have htable : ∀ member ∈ credentialMembers, ∀ other ∈ credentialMembers,
      (member.shift = other.shift ↔ member = other) := by decide
  exact htable member (mem_credentialMembers _) other (mem_credentialMembers _)

section Held

variable {config : WinCredConfig} {block : List UInt8} {values : CredentialValues}

/-- A field of an owner is there if its member has a value. -/
theorem present_of_holds (h : WinCredLeaseOwner.Holds ⟨block, config⟩ (entriesOf values))
    (member : CredentialMember) :
    config.presentFields &&& member.field ≠ 0 ↔ (values member).isSome := by
  rw [and_field_ne_zero_iff, h.present, List.mem_map, Option.isSome_iff_exists]
  constructor
  · rintro ⟨entry, hentry, hshift⟩
    rw [← shift_inj.mp hshift]
    exact ⟨entry.value, mem_entriesOf.mp hentry⟩
  · rintro ⟨value, hvalue⟩
    exact ⟨⟨member, value⟩, mem_entriesOf.mpr hvalue, rfl⟩

/-- **An owner shows the values that it holds.** -/
theorem view_of_holds (h : WinCredLeaseOwner.Holds ⟨block, config⟩ (entriesOf values))
    (hversion : config.apiVersion = apiVersion)
    (hnul : ∀ member value, values member = some value → 0 ∉ value) :
    (config.view block).Formed ∧ (config.view block).values = values := by
  obtain ⟨hnamed, -⟩ := h.view fun entry hentry => hnul _ _ (mem_entriesOf.mp hentry)
  have hshown (member : CredentialMember) (value : List UInt8)
    (hvalue : values member = some value) :
      ∃ string, (config.view block).members member = some string ∧ string.bytes = value :=
    hnamed ⟨member, value⟩ (mem_entriesOf.mpr hvalue)
  refine ⟨⟨hversion, ?_, fun member hmember => ?_⟩, funext fun member => ?_⟩
  · refine UInt64.toNat_inj.mp (Nat.eq_of_testBit_eq fun i => ?_)
    rw [UInt64.toNat_zero, Nat.zero_testBit, Bool.eq_false_iff]
    intro hbit
    rw [UInt64.toNat_and, Nat.testBit_and, Bool.and_eq_true] at hbit
    obtain ⟨entry, -, rfl⟩ := List.mem_map.mp ((h.present i).mp hbit.1)
    have htable : ∀ member ∈ credentialMembers,
        (~~~credentialFieldsCurrent).toNat.testBit member.shift = false := by decide
    rw [htable _ (mem_credentialMembers _)] at hbit
    exact Bool.false_ne_true hbit.2
  · obtain ⟨value, hvalue⟩ := Option.isSome_iff_exists.mp ((present_of_holds h member).mp hmember)
    obtain ⟨string, hstring, -⟩ := hshown member value hvalue
    exact Option.isSome_iff_exists.mpr ⟨string, hstring⟩
  · have hpresent := present_of_holds h member
    show (if config.presentFields &&& member.field ≠ 0 then
      ((config.view block).members member).map CString.bytes else none) = _
    simp only [hpresent]
    cases hvalue : values member with
    | none => rfl
    | some value =>
      obtain ⟨string, hstring, hbytes⟩ := hshown member value hvalue
      rw [hstring, Option.map_some, hbytes]
      rfl

end Held

/-- What a resolved credential shows is what its lease has shown. -/
theorem ResolvedCredential.HoldsConfig.view {resolved : ResolvedCredential}
    {source : CredentialConfigView} (h : resolved.HoldsConfig source) :
    resolved.view.Formed ∧ resolved.view.values = source.leaseValues := by
  obtain ⟨-, -, hversion, block, hblock, hholds⟩ := h
  rw [entries_eq_entriesOf] at hholds
  have hview : resolved.view = resolved.config.view block.bytes := by
    rw [ResolvedCredential.view, hblock]
    rfl
  rw [hview]
  refine view_of_holds hholds hversion fun member value hvalue => ?_
  unfold CredentialConfigView.leaseValues at hvalue
  split at hvalue
  · obtain ⟨string, -, rfl⟩ := Option.map_eq_some_iff.mp hvalue
    exact string.nul
  · cases hvalue

/-- **What a credential offers**: the registry lets the connection in, the provider gives a lease,
and what the lease shows is acceptable. -/
structure CredentialOffers (model : ParsedArgumentValues) (options : ConnectionResolveOptions)
    (registry : CredentialRegistry) (values : CredentialValues) : Prop where
  admits : registry.Admits (model.text .credentialRef) options.enter
  status : options.answer.status = 0
  lease : ∃ source, options.answer.lease.Shows source ∧ values = source.leaseValues
  acceptable : AcceptableValues values

section Reference

variable {connection : ResolvedConnection} {arguments : StoredArguments}
    {model : ParsedArgumentValues}
  {options : ConnectionResolveOptions}

theorem resolvedCredentialInit_eq {allocator : Allocator}
    (hvalid : allocatorIsValid allocator = true) :
    ∃ resolved, resolvedCredentialInit allocator true = (.ok, resolved) ∧ resolved.Empty := by
  have hinit :
    sensitiveMemoryInit ⟨⟨⟨none, false, false, false⟩, none, 0, false⟩, false⟩ allocator true =
      (.ok, ⟨⟨allocator, none, 0, false⟩, true⟩) := by
    simp [sensitiveMemoryInit, ownedMemoryInit, hvalid]
  refine ⟨⟨emptyCredentialConfig, ⟨⟨allocator, none, 0, false⟩, true⟩, 0, 0, true⟩, ?_, rfl,
    .start hvalid, rfl, rfl, rfl⟩
  rw [resolvedCredentialInit, hinit]

theorem resolvedCredentialCleanup_eq {resolved : ResolvedCredential}
    (hinit : resolved.initialized = true)
    {arena arena' : Arena} {result : SecureMemoryResult} {storage : SensitiveMemory}
    (hrelease : sensitiveMemoryRelease resolved.storage arena = (result, storage, arena')) :
    ∃ resolved', resolvedCredentialCleanup resolved arena =
      (if result = .ok then .ok else .cleanupFailed, resolved', arena') := by
  unfold resolvedCredentialCleanup
  rw [hinit, hrelease]
  cases result <;> exact ⟨_, rfl⟩

/-- **What a reference is resolved to.** -/
theorem resolveReference_spec (h : connection.Fresh) (arena : Arena)
    (hmeans : arguments.Says model) :
    ∃ result connection' registry' arena', resolveReference connection arena arguments options =
        .ok (result, connection', registry', arena') ∧
      connection'.Filled arena
        (fun origin values => ∃ registry, options.credentialRegistry = some registry ∧
        origin = { connection.origin with
          providerId := registry.providerId, generation := registry.generation } ∧
        CredentialOffers model options registry values) result arena' ∧
      registry'.map CredentialRegistry.registration =
        options.credentialRegistry.map CredentialRegistry.registration := by
  unfold resolveReference
  cases hregistry : options.credentialRegistry with
  | none =>
    refine ⟨_, _, _, _, rfl, .refused h ConnectionStringResult.noConfusion (.refl _ _)
      fun _ origin values hoffers => ?_, rfl⟩
    obtain ⟨registry, hsome, -⟩ := hoffers
    cases hsome
  | some registry =>
    obtain ⟨resolved, hinit, hempty⟩ := resolvedCredentialInit_eq h.sound.storage.valid
    rw [hinit, hmeans.text]
    dsimp only
    split
    · rename_i hlong
      refine ⟨_, _, _, _, rfl, .refused h ConnectionStringResult.noConfusion (.refl _ _)
        fun _ origin values hoffers => ?_, rfl⟩
      obtain ⟨_, hsome, -, hoffers⟩ := hoffers
      cases hsome
      obtain ⟨bytes, hbytes, -, hle, -⟩ := hoffers.admits.reference
      rw [hbytes] at hlong
      have hlong' : bytes.length ≥ 2 ^ 32 := hlong
      omega
    · obtain ⟨result, registry', resolved', between, hresolve, hcopied, hids, hregistration⟩ :=
        @credentialRegistryResolve_spec registry (model.text .credentialRef) resolved hempty arena
          options.answer options.enter options.leave
      rw [hresolve, ok_bind]
      dsimp only
      split
      · -- the registry, the provider or the copy has refused
        rename_i hfailed
        have hsame : resolved' = resolved :=
          hcopied.outcome.elim (fun hok => absurd hok.1 hfailed) And.right
        obtain ⟨released, storage, arena', hrelease, ⟨lost, hlost, hzeroes⟩, -⟩ :=
          Arena.Moves.releaseScratch
          hcopied.initialized.2 (hsame ▸ hempty.storage) hcopied.moves (.refl _ [])
        obtain ⟨cleaned, hcleanup⟩ := resolvedCredentialCleanup_eq hcopied.initialized.1 hrelease
        rw [hcleanup]
        refine ⟨_, _, _, _, rfl,
          ⟨h.sound, fun hok => ?_, ⟨lost, ?_, hzeroes⟩, fun hgenerous hsome => ?_⟩,
          congrArg some hregistration⟩
        · split at hok <;> cases hok
        · rw [h.memory]
          exact hlost
        · obtain ⟨origin, values, _, hsome, -, hoffers⟩ := hsome
          cases hsome
          obtain ⟨source, hshows, -⟩ := hoffers.lease
          exact absurd
            (hcopied.complete hgenerous ⟨source, hoffers.admits, hoffers.status, hshows⟩) hfailed
      · rename_i hok
        rw [not_not] at hok
        obtain ⟨source, ⟨hadmits, hstatus, hshows⟩, hholds⟩ :=
          (hcopied.outcome.resolve_right fun h => h.1 hok).2
        obtain ⟨hformed, hvalues⟩ := hholds.view
        obtain ⟨copyResult, connection', after, hcopy, horigin, hfilled⟩ :=
          connectionCopyConfig_formed h between hformed
        obtain ⟨kept, hkept, hkeptZeroes⟩ := hfilled.moves
        obtain ⟨released, storage, arena', hrelease, ⟨lost, hlost, hzeroes⟩, hreleased⟩ :=
          Arena.Moves.releaseScratch hcopied.initialized.2 hholds.1 hcopied.moves hkept
        obtain ⟨cleaned, hcleanup⟩ := resolvedCredentialCleanup_eq hcopied.initialized.1 hrelease
        obtain ⟨hprovider, hgeneration⟩ := hids hok
        have hall : ∃ lost,
          arena.Moves [] (addressesOf connection'.storage.storage.memory ++ lost) arena' ∧
            (arena.Zeroes → lost = []) := by
          refine ⟨kept ++ lost, by rwa [← List.append_assoc], fun hzero => ?_⟩
          rw [hkeptZeroes (hcopied.moves.zeroes hzero), hzeroes hzero]
          rfl
        have hunique {source' : CredentialConfigView} (h : options.answer.lease.Shows source') :
          source' = source :=
          Option.some.inj (h.config.symm.trans hshows.config)
        rw [hcopy, ok_bind]
        dsimp only
        rw [hcleanup]
        by_cases hclean : released = .ok
        · rw [if_pos hclean]
          refine ⟨_, _, _, _, rfl,
            ⟨⟨hfilled.sound.initialized, hfilled.sound.storageInitialized, hfilled.sound.storage⟩,
            fun hresult => ?_, hall, fun hgenerous hsome => ?_⟩, congrArg some hregistration⟩
          · obtain ⟨values, ⟨-, hsame, hacceptable⟩, hcontents⟩ := hfilled.outcome hresult
            refine ⟨values, ⟨registry, rfl, ?_, hadmits, hstatus,
              ⟨source, hshows, hsame.trans hvalues⟩, hacceptable⟩,
              ⟨hcontents.structureSize, hcontents.apiVersion, hcontents.block⟩⟩
            show ({ connection'.origin with
              providerId := resolved'.providerId,
                generation := resolved'.generation } : ConnectionOrigin) = _
            rw [horigin, hprovider, hgeneration]
          · obtain ⟨origin, values, _, hsome, -, hoffers⟩ := hsome
            obtain ⟨source', hshows', hsame⟩ := hoffers.lease
            rw [hunique hshows'] at hsame
            exact hfilled.complete (hcopied.moves.generous hgenerous)
              ⟨_, values, rfl, hsame.trans hvalues.symm, hoffers.acceptable⟩
        · rw [if_neg hclean]
          exact ⟨_, _, _, _, rfl,
            ⟨⟨hfilled.sound.initialized, hfilled.sound.storageInitialized, hfilled.sound.storage⟩,
              fun hresult => ConnectionStringResult.noConfusion hresult, hall,
              fun hgenerous _ => absurd (hreleased hgenerous.2) hclean⟩,
                congrArg some hregistration⟩

end Reference

/-! ## The four sources -/

/-- **What a profile offers**, from a snapshot of the environment or from the environment itself. -/
structure ProfileOffers (model : ParsedArgumentValues) (options : ConnectionResolveOptions)
    (profile : List UInt8) (values : CredentialValues) : Prop where
  name : (model.text .profile).bind normalizeProfile = some profile
  settings : match options.profileEnvironment with
    | some entries => options.profileEnvironmentCount ≠ 0 ∧ SnapshotOffers profile entries values
    | none => options.profileEnvironmentCount = 0 ∧
      EnvironmentOffers options.environment profile values

/-- **What a connection string offers**: what its parser makes of it. -/
structure ConninfoOffers (model : ParsedArgumentValues) (options : ConnectionResolveOptions)
    (values : CredentialValues) : Prop where
  parsed : ∃ parse view, options.conninfoParser = some parse ∧
    parse ((model.text .connstr).getD []) = .ok view ∧ view.Gives values

/-- The settings that libpq found, of the keywords that are known. -/
def settingsOf (options : List PQconninfoOption) : List (CredentialMember × CString) :=
  options.filterMap fun option => match option.val, findKeyword option.keyword with
    | some val, some field => some (field.member, val)
    | _, _ => none

/-- An application name that libpq falls back to, and is not ours. -/
def IsForeignFallback (option : PQconninfoOption) : Prop :=
  option.keyword = ascii "fallback_application_name" ∧ ∃ val, option.val = some val ∧
    val.bytes ≠ ascii "VirtualPostgreSQL"

theorem conninfoOptions_eq_some_iff {options : List PQconninfoOption}
    {config config' : CredentialConfigView} :
    conninfoOptions options config = some config' ↔
      (∀ option ∈ options, ¬IsForeignFallback option) ∧
        config' = config.setAll (settingsOf options) := by
  have hknown : (findKeyword (ascii "fallback_application_name")).isSome := by decide
  fun_induction conninfoOptions options config with
  | case1 config => simp [settingsOf, CredentialConfigView.setAll, eq_comm]
  | case2 option rest config val field hfield hval hforeign =>
    simp only [reduceCtorEq, List.forall_mem_cons, false_iff, not_and]
    exact fun hnone => absurd ⟨hforeign.1, val, hval, hforeign.2⟩ hnone.1
  | case3 option rest config val field hfield hval hforeign ih =>
    have hmine : ¬IsForeignFallback option := by
      rintro ⟨hkeyword, other, hother, hne⟩
      rw [hval] at hother
      cases hother
      exact hforeign ⟨hkeyword, hne⟩
    refine Iff.trans ih ?_
    rw [List.forall_mem_cons, and_iff_right hmine, settingsOf, settingsOf,
      List.filterMap_cons, hval, hfield]
    rfl
  | case4 option rest config hnone ih =>
    have hmine : ¬IsForeignFallback option := by
      rintro ⟨hkeyword, val, hval, -⟩
      obtain ⟨field, hfield⟩ := Option.isSome_iff_exists.mp hknown
      exact hnone val field hval (hkeyword ▸ hfield)
    have hskip : (match option.val, findKeyword option.keyword with
        | some val, some field => some (field.member, val)
        | _, _ => none) = none := by
      split
      · rename_i val field hval hfield
        exact absurd hfield (hnone val field hval)
      · rfl
    refine Iff.trans ih ?_
    rw [List.forall_mem_cons, and_iff_right hmine, settingsOf, settingsOf,
      List.filterMap_cons, hskip]

/-- **What the parser of libpq's client accepts**: a string that the pre-scan lets through and libpq
takes, with no application name to fall back to but ours. -/
theorem libpqClientConninfoParse_eq_ok_iff {granted : Bool}
    {parse : List UInt8 → Option (List PQconninfoOption)}
    {text : List UInt8} {view : CredentialConfigView} :
    libpqClientConninfoParse granted parse text = .ok view ↔
      (text.length ≠ 0 ∧ text.length ≤ argumentValueLimit ∧ 0 ∉ text ∧ (scanKeywords text).isSome) ∧
        granted = true ∧ ∃ options, parse text = some options ∧
          (∀ option ∈ options, ¬IsForeignFallback option) ∧
            view = emptyConfigView.setAll (settingsOf options) := by
  unfold libpqClientConninfoParse
  split
  · rename_i hbad
    refine iff_of_false (fun hok => by cases hok) fun ⟨⟨hne, hle, hnul, hscan⟩, _⟩ => ?_
    rcases hbad with hzero | hlong | hbyte | hnone
    · exact hne hzero
    · omega
    · exact hnul (List.contains_iff_mem.mp hbyte)
    · rw [Option.isNone_iff_eq_none.mp hnone] at hscan
      cases hscan
  rename_i hgood
  simp only [not_or, not_lt, List.contains_iff_mem, Bool.not_eq_true,
    Option.isNone_eq_false_iff] at hgood
  rw [and_iff_right (⟨hgood.1, hgood.2⟩ : _ ∧ _)]
  cases granted with
  | false => simp
  | true =>
    cases hparse : parse text with
    | none => simp
    | some options =>
      simp only [Bool.not_true, Bool.false_eq_true, if_false, true_and, Option.some.injEq,
        exists_eq_left', ← conninfoOptions_eq_some_iff]
      cases conninfoOptions options emptyConfigView <;> simp

/-- Such a parser refuses with a reason. -/
theorem libpqClientConninfoParse_ne (granted : Bool)
    (parse : List UInt8 → Option (List PQconninfoOption))
    (text : List UInt8) : libpqClientConninfoParse granted parse text ≠ .error .ok := by
  unfold libpqClientConninfoParse
  intro h
  split at h
  · cases h
  split at h
  · cases h
  split at h
  · cases h
  · split at h <;> cases h

/-- **What is offered to a connection**, and from where. -/
inductive ConnectionOffer (model : ParsedArgumentValues) (options : ConnectionResolveOptions) :
    ConnectionOrigin → CredentialValues → Prop
  | credentialRef {registry : CredentialRegistry} {values : CredentialValues}
      (mode : model.Has .credentialRef) (given : options.credentialRegistry = some registry)
      (offers : CredentialOffers model options registry values) :
      ConnectionOffer model options
        ⟨.credentialRef, registry.providerId, registry.generation, [], false⟩ values
  | service {values : CredentialValues} (mode : model.Has .service)
    (offers : ServiceOffers model values) :
      ConnectionOffer model options ⟨.service, 0, 0, [], false⟩ values
  | profile {profile : List UInt8} {values : CredentialValues} (mode : model.Has .profile)
      (offers : ProfileOffers model options profile values) :
      ConnectionOffer model options ⟨.profile, 0, 0, profile, false⟩ values
  | connstr {values : CredentialValues} (mode : model.Has .connstr)
      (offers : ConninfoOffers model options values) :
      ConnectionOffer model options ⟨.connstr, 0, 0, [], true⟩ values

/-- The options that choose a source. -/
def connectionModes : List ArgumentId := [.credentialRef, .service, .profile, .connstr]

/-- One source is chosen. -/
def OneMode (model : ParsedArgumentValues) : Prop :=
  ∃! argumentId, argumentId ∈ connectionModes ∧ model.Has argumentId

/-- **Options that a caller may pass**: a snapshot has as many entries as it says, the platform
keeps to its contract, and a parser that refuses does not say that all is well. -/
structure ConnectionResolveOptions.Sound (options : ConnectionResolveOptions) : Prop where
  snapshot : ∀ entries, options.profileEnvironment = some entries →
    options.profileEnvironmentCount = entries.length
  environment : FaithfulEnvironment options.environment
  parser : ∀ parse, options.conninfoParser = some parse → ∀ text, parse text ≠ .error .ok

section Sources

variable {connection : ResolvedConnection} {arguments : StoredArguments}
    {model : ParsedArgumentValues}
  {options : ConnectionResolveOptions}

theorem resolveProfile_spec (h : connection.Fresh) (arena : Arena) (hmeans : arguments.Says model)
    (hoptions : options.Sound) :
    ∃ result connection' arena', resolveProfile connection arena arguments options =
        .ok (result, connection', arena') ∧
      connection'.Filled arena (fun origin values => ∃ profile,
        origin = { connection.origin with normalizedProfile := profile } ∧
        ProfileOffers model options profile values) result arena' := by
  have hname : ((argumentText arguments .profile).bind fun text => normalizeProfile text.1) =
      (model.text .profile).bind normalizeProfile := by
    rw [← hmeans.text]
    cases argumentText arguments .profile <;> rfl
  unfold resolveProfile
  rw [hname]
  cases hprofile : (model.text .profile).bind normalizeProfile with
  | none =>
    refine ⟨_, _, _, rfl, .refused h ConnectionStringResult.noConfusion (.refl _ _)
      fun _ origin values ⟨profile, _, hoffers⟩ => ?_⟩
    rw [hoffers.name] at hprofile
    cases hprofile
  | some profile =>
    have hlength : profile.length ≤ profileNameMaxLength := by
      obtain ⟨value, -, hvalue⟩ := Option.bind_eq_some_iff.mp hprofile
      exact length_normalizeProfile hvalue
    have hfresh : ResolvedConnection.Fresh { connection with normalizedProfile := profile } :=
      ⟨⟨h.sound.initialized, h.sound.storageInitialized, h.sound.storage⟩, h.config, h.memory⟩
    have hoffer (values : CredentialValues) (origin : ConnectionOrigin) : (∃ profile,
        origin = { connection.origin with normalizedProfile := profile } ∧
          ProfileOffers model options profile values) ↔
        origin = { connection.origin with normalizedProfile := profile } ∧
          ProfileOffers model options profile values := by
      refine ⟨fun ⟨profile', horigin, hoffers⟩ => ?_, fun hoffers => ⟨profile, hoffers⟩⟩
      obtain rfl : profile' = profile := Option.some.inj (hoffers.name.symm.trans hprofile)
      exact ⟨horigin, hoffers⟩
    dsimp only
    cases hsnapshot : options.profileEnvironment with
    | none =>
      dsimp only
      split
      · rename_i hcount
        refine ⟨_, _, _, rfl, .refused hfresh ConnectionStringResult.noConfusion (.refl _ _)
          fun _ origin values ⟨_, _, hoffers⟩ => ?_⟩
        have hsettings := hoffers.settings
        rw [hsnapshot] at hsettings
        exact hcount hsettings.1
      · rename_i hcount
        obtain ⟨result, connection', arena', heq, -, hfilled⟩ :=
          resolveProfileEnvironment_spec hfresh arena hlength hoptions.environment
        refine ⟨_, _, _, heq, hfilled.congr fun origin values => ?_⟩
        rw [hoffer]
        refine and_congr_right fun _ => ⟨fun hoffers => ⟨hprofile, ?_⟩, fun hoffers => ?_⟩
        · rw [hsnapshot]
          exact ⟨not_not.mp hcount, hoffers⟩
        · have hsettings := hoffers.settings
          rw [hsnapshot] at hsettings
          exact hsettings.2
    | some entries =>
      dsimp only
      split
      · rename_i hcount
        refine ⟨_, _, _, rfl, .refused hfresh ConnectionStringResult.noConfusion (.refl _ _)
          fun _ origin values ⟨_, _, hoffers⟩ => ?_⟩
        have hsettings := hoffers.settings
        rw [hsnapshot] at hsettings
        exact hsettings.1 hcount
      · rename_i hcount
        obtain ⟨result, connection', arena', heq, -, hfilled⟩ :=
          @resolveProfileSnapshot_spec _ hfresh arena hlength entries
        rw [← hoptions.snapshot entries hsnapshot] at heq
        refine ⟨_, _, _, heq, hfilled.congr fun origin values => ?_⟩
        rw [hoffer]
        refine and_congr_right fun _ => ⟨fun hoffers => ⟨hprofile, ?_⟩, fun hoffers => ?_⟩
        · rw [hsnapshot]
          exact ⟨hcount, hoffers⟩
        · have hsettings := hoffers.settings
          rw [hsnapshot] at hsettings
          exact hsettings.2

theorem mode_ne_zero_iff (hmeans : arguments.Says model) {argumentId : ArgumentId}
    (hmode : argumentId ∈ connectionModes) :
    arguments.presence &&& argumentConnectionModes &&& argumentId.flag ≠ 0 ↔
      model.Has argumentId := by
  have htable : ∀ argumentId ∈ connectionModes,
      argumentConnectionModes &&& argumentId.flag = argumentId.flag := by decide
  rw [UInt64.and_assoc, htable argumentId hmode, ne_eq,
    hmeans.presence.and_flag_eq_zero_iff, not_not]

/-- A connection of no origin yet. -/
def noOrigin : ConnectionOrigin := ⟨.none, 0, 0, [], false⟩

/-- **What the source that is chosen makes of the replacement.** -/
theorem connectionResolveMode_spec (h : connection.Fresh) (horigin : connection.origin = noOrigin)
    (arena : Arena) (hmeans : arguments.Says model) (hmode : OneMode model)
    (hoptions : options.Sound) :
    ∃ result connection' registry' arena',
      connectionResolveMode connection arena arguments options =
        .ok (result, connection', registry', arena') ∧
      connection'.Filled arena (ConnectionOffer model options) result arena' ∧
      registry'.map CredentialRegistry.registration =
        options.credentialRegistry.map CredentialRegistry.registration := by
  obtain ⟨chosen, ⟨hchosen, hhas⟩, hunique⟩ := hmode
  have honly {other : ArgumentId} (hother : other ∈ connectionModes) (hne : other ≠ chosen) :
    ¬model.Has other :=
    fun hpresent => hne (hunique other ⟨hother, hpresent⟩)
  -- the replacement, with its mode
  have hfresh (mode : ConnectionMode) (risk : Bool) :
      ResolvedConnection.Fresh { connection with mode, persistentConnstrRisk := risk } :=
    ⟨⟨h.sound.initialized, h.sound.storageInitialized, h.sound.storage⟩, h.config, h.memory⟩
  have hfrom (mode : ConnectionMode) (risk : Bool) :
      ({ connection with mode, persistentConnstrRisk := risk } : ResolvedConnection).origin =
        ⟨mode, 0, 0, [], risk⟩ := by
    have hparts := horigin
    simp only [ResolvedConnection.origin, noOrigin, ConnectionOrigin.mk.injEq] at hparts ⊢
    exact ⟨trivial, hparts.2.1, hparts.2.2.1, hparts.2.2.2.1, trivial⟩
  have hrisk : connection.persistentConnstrRisk = false :=
    congrArg ConnectionOrigin.persistentConnstrRisk horigin
  have hmodeFresh (mode : ConnectionMode) :
    ResolvedConnection.Fresh { connection with mode } := hfresh mode _
  have hmodeFrom (mode : ConnectionMode) : ({ connection with mode } : ResolvedConnection).origin =
      ⟨mode, 0, 0, [], false⟩ := (hfrom mode _).trans (by rw [hrisk])
  have hbit {other : ArgumentId} (hother : other ∈ connectionModes) (hne : other ≠ chosen) :
      ¬arguments.presence &&& argumentConnectionModes &&& other.flag ≠ 0 :=
    fun hset => honly hother hne ((mode_ne_zero_iff hmeans hother).mp hset)
  have hchosenBit := (mode_ne_zero_iff hmeans hchosen).mpr hhas
  unfold connectionResolveMode
  dsimp only
  simp only [connectionModes, List.mem_cons, List.not_mem_nil, or_false] at hchosen
  rcases hchosen with rfl | rfl | rfl | rfl
  · rw [if_pos hchosenBit]
    obtain ⟨result, connection', registry', arena', heq, hfilled, hregistration⟩ :=
      @resolveReference_spec _ arguments model options (hmodeFresh .credentialRef) arena hmeans
    refine ⟨_, _, _, _, heq, hfilled.congr fun origin values => ?_, hregistration⟩
    rw [hmodeFrom]
    constructor
    · rintro ⟨registry, hgiven, rfl, hoffers⟩
      exact .credentialRef hhas hgiven hoffers
    · rintro (⟨hother, hgiven, hoffers⟩ | ⟨hother, _⟩ | ⟨hother, _⟩ | ⟨hother, _⟩)
      · exact ⟨_, hgiven, rfl, hoffers⟩
      all_goals exact absurd hother (honly (by decide) (by decide))
  · rw [if_neg (hbit (by decide) (by decide)), if_pos hchosenBit]
    obtain ⟨result, connection', arena', heq, -, hfilled⟩ :=
      resolveService_spec (hmodeFresh .service) arena hmeans
    rw [heq, ok_bind]
    refine ⟨_, _, _, _, rfl, hfilled.congr fun origin values => ?_, rfl⟩
    rw [hmodeFrom]
    constructor
    · rintro ⟨rfl, hoffers⟩
      exact .service hhas hoffers
    · rintro (⟨hother, _⟩ | ⟨_, hoffers⟩ | ⟨hother, _⟩ | ⟨hother, _⟩)
      · exact absurd hother (honly (by decide) (by decide))
      · exact ⟨rfl, hoffers⟩
      all_goals exact absurd hother (honly (by decide) (by decide))
  · rw [if_neg (hbit (by decide) (by decide)), if_neg (hbit (by decide) (by decide)),
      if_pos hchosenBit]
    obtain ⟨result, connection', arena', heq, hfilled⟩ :=
      resolveProfile_spec (hmodeFresh .profile) arena hmeans hoptions
    rw [heq, ok_bind]
    refine ⟨_, _, _, _, rfl, hfilled.congr fun origin values => ?_, rfl⟩
    rw [hmodeFrom]
    constructor
    · rintro ⟨profile, rfl, hoffers⟩
      exact .profile hhas hoffers
    · rintro (⟨hother, _⟩ | ⟨hother, _⟩ | ⟨_, hoffers⟩ | ⟨hother, _⟩)
      · exact absurd hother (honly (by decide) (by decide))
      · exact absurd hother (honly (by decide) (by decide))
      · exact ⟨_, rfl, hoffers⟩
      · exact absurd hother (honly (by decide) (by decide))
  · rw [if_neg (hbit (by decide) (by decide)), if_neg (hbit (by decide) (by decide)),
      if_neg (hbit (by decide) (by decide)), hmeans.text]
    have hoffer (origin : ConnectionOrigin) (values : CredentialValues) :
        ConnectionOffer model options origin values ↔
          origin = ⟨.connstr, 0, 0, [], true⟩ ∧ ConninfoOffers model options values := by
      constructor
      · rintro (⟨hother, _⟩ | ⟨hother, _⟩ | ⟨hother, _⟩ | ⟨_, hoffers⟩)
        · exact absurd hother (honly (by decide) (by decide))
        · exact absurd hother (honly (by decide) (by decide))
        · exact absurd hother (honly (by decide) (by decide))
        · exact ⟨rfl, hoffers⟩
      · rintro ⟨rfl, hoffers⟩
        exact .connstr hhas hoffers
    cases hparser : options.conninfoParser with
    | none =>
      refine ⟨_, _, _, _, rfl, .refused (hfresh _ _) ConnectionStringResult.noConfusion (.refl _ _)
        fun _ origin values hoffers => ?_, rfl⟩
      obtain ⟨parse, -, hsome, -⟩ := ((hoffer _ _).mp hoffers).2.parsed
      rw [hparser] at hsome
      cases hsome
    | some parse =>
      dsimp only
      cases hparse : parse ((model.text .connstr).getD []) with
      | error result =>
        have hfailed : result ≠ .ok := fun hok => hoptions.parser parse hparser _ (hok ▸ hparse)
        refine ⟨_, _, _, _, rfl,
          .refused (hfresh _ _) hfailed (.refl _ _) fun _ origin values hoffers => ?_, rfl⟩
        obtain ⟨parse', view, hsome, hview, -⟩ := ((hoffer _ _).mp hoffers).2.parsed
        cases hparser.symm.trans hsome
        cases hparse.symm.trans hview
      | ok view =>
        obtain ⟨result, connection', arena', heq, -, hfilled⟩ :=
          connectionCopyConfig_spec (hfresh .connstr true) arena view
        dsimp only
        rw [heq, ok_bind]
        refine ⟨_, _, _, _, rfl, hfilled.congr fun origin values => ?_, rfl⟩
        rw [hoffer, hfrom]
        refine and_congr_right fun _ => ⟨fun hgives => ⟨parse, view, hparser, hparse, hgives⟩, ?_⟩
        rintro ⟨parse', view', hsome, hview, hgives⟩
        cases hparser.symm.trans hsome
        cases hparse.symm.trans hview
        exact hgives

end Sources

/-! ## A resolve -/

/-- **What a resolve has done.** -/
structure ResolveOutcome (connection : ResolvedConnection) (arena : Arena)
    (model : ParsedArgumentValues)
    (options : ConnectionResolveOptions) (result : ConnectionStringResult)
    (connection' : ResolvedConnection) (arena' : Arena) : Prop where
  sound : connection'.Sound
  replaced : result = .ok → OneMode model ∧
    ∃ values, ConnectionOffer model options connection'.origin values ∧
      connection'.HoldsValues values
  kept : result ≠ .ok → connection' = connection
  moves : ∃ lost, arena.Moves (addressesOf connection.storage.storage.memory)
    (addressesOf connection'.storage.storage.memory ++ lost) arena' ∧ (arena.Zeroes → lost = [])
  complete : arena.Generous → OneMode model →
    (∃ origin values, ConnectionOffer model options origin values) → result = .ok

section Whole

variable {connection : ResolvedConnection} {arguments : StoredArguments}
    {model : ParsedArgumentValues}
  {options : ConnectionResolveOptions}

theorem connectionConfigInit_eq {allocator : Allocator}
    (hvalid : allocatorIsValid allocator = true) :
    ∃ connection, connectionConfigInit allocator true = (.ok, connection) ∧ connection.Fresh ∧
      connection.origin = noOrigin := by
  have hinit :
    sensitiveMemoryInit ⟨⟨⟨none, false, false, false⟩, none, 0, false⟩, false⟩ allocator true =
      (.ok, ⟨⟨allocator, none, 0, false⟩, true⟩) := by
    simp [sensitiveMemoryInit, ownedMemoryInit, hvalid]
  refine ⟨⟨emptyCredentialConfig, ⟨⟨allocator, none, 0, false⟩, true⟩, .none, 0, 0, [],
    false, true⟩, ?_, ⟨⟨rfl, rfl, .start hvalid⟩, rfl, rfl⟩, rfl⟩
  rw [connectionConfigInit, hinit]

/-- **What a cleanup does**: the block goes and the connection with it, or everything stays. -/
theorem connectionConfigCleanup_moves (h : connection.Sound) (arena : Arena) :
    ∃ result connection' arena', connectionConfigCleanup connection arena =
      (result, connection', arena') ∧ arena.Moves (addressesOf connection.storage.storage.memory)
        (addressesOf connection'.storage.storage.memory) arena' ∧
      (result = .ok → connection'.initialized = false ∧ connection'.storage.storage.memory = none) ∧
      (result ≠ .ok → connection' = connection) ∧ (arena.Zeroes → result = .ok) := by
  obtain ⟨result, storage, arena', heq, hmoves, -, hgone, hkept, hok⟩ :=
    sensitiveMemoryRelease_moves h.storageInitialized h.storage arena
  unfold connectionConfigCleanup
  dsimp only
  rw [if_neg (by rw [h.initialized]; exact Bool.false_ne_true), heq]
  by_cases hresult : result = .ok
  · subst hresult
    rw [hgone rfl] at hmoves
    exact ⟨_, _, _, rfl, hmoves, fun _ => ⟨rfl, rfl⟩, fun hne => absurd rfl hne, fun _ => rfl⟩
  · obtain rfl := hkept hresult
    refine ⟨.cleanupFailed, connection, arena', ?_, hmoves, fun hok => (by cases hok), fun _ => rfl,
      fun hzero => absurd (hok hzero) hresult⟩
    cases result with
    | ok => exact absurd rfl hresult
    | _ => rfl

/-- A resolve that gives up has its replacement cleaned up, and leaves the connection alone. -/
theorem replacement_abandoned {arena between : Arena} {replacement : ResolvedConnection}
    {held lost : List ℕ} (hreplacement : replacement.Sound)
    (hmoves : arena.Moves held
    (addressesOf replacement.storage.storage.memory ++ lost ++ held) between)
    (hzeroes : arena.Zeroes → lost = []) :
    ∃ result replacement' arena', connectionConfigCleanup replacement between =
      (result, replacement', arena') ∧
      ∃ lost', arena.Moves held (held ++ lost') arena' ∧ (arena.Zeroes → lost' = []) := by
  obtain ⟨result, replacement', arena', heq, hcleanup, hgone, -, hok⟩ :=
    connectionConfigCleanup_moves hreplacement between
  refine ⟨result, replacement', arena', heq,
    addressesOf replacement'.storage.storage.memory ++ lost, ?_, fun hzero => ?_⟩
  · have hframed := hcleanup.frame (lost ++ held)
    rw [← List.append_assoc, ← List.append_assoc] at hframed
    exact (hmoves.trans hframed).perm (List.Perm.refl _) List.perm_append_comm
  · rw [(hgone (hok (hmoves.zeroes hzero))).2, hzeroes hzero]
    rfl

/-- **What `vps_connection_config_resolve` does.** -/
theorem connectionConfigResolve_spec (h : connection.Sound) (arena : Arena)
    (hinit : arguments.initialized = true) (hmeans : arguments.Says model)
    (hoptions : options.Sound) :
    ∃ result connection' registry' arena',
      connectionConfigResolve connection arena arguments options =
        .ok (result, connection', registry', arena') ∧
      ResolveOutcome connection arena model options result connection' arena' ∧
      registry'.map CredentialRegistry.registration =
        options.credentialRegistry.map CredentialRegistry.registration := by
  obtain ⟨replacement, hreplacement, hfresh, horigin⟩ := connectionConfigInit_eq h.storage.valid
  have hmodes : argumentConnectionModes = maskOf connectionModes := by decide
  have hone := hmeans.presence.one_of_maskOf_iff connectionModes
  rw [← hmodes] at hone
  unfold connectionConfigResolve
  dsimp only
  rw [if_neg (by rw [h.initialized, hinit]; exact Bool.false_ne_true), hreplacement]
  dsimp only
  have hstart : arena.Moves (addressesOf connection.storage.storage.memory)
      (addressesOf replacement.storage.storage.memory ++ [] ++
        addressesOf connection.storage.storage.memory)
      arena := by
    rw [hfresh.memory]
    exact .refl _ _
  split
  · -- no source, or more than one
    rename_i hnone
    obtain ⟨_, _, arena', hcleanup, hlost⟩ :=
      replacement_abandoned hfresh.sound hstart fun _ => rfl
    rw [hcleanup]
    refine ⟨_, _, _, _, rfl,
      ⟨h, fun hok => ConnectionStringResult.noConfusion hok, fun _ => rfl, hlost,
      fun _ hmode _ => ?_⟩, rfl⟩
    have hboth := hone.mpr hmode
    rcases hnone with hzero | hmany
    · exact absurd hzero hboth.1
    · exact absurd hboth.2 hmany
  rename_i hmode
  rw [not_or, not_not] at hmode
  have hmode := hone.mp hmode
  obtain ⟨result, filled, registry', between, hresolve, hfilled, hregistration⟩ :=
    connectionResolveMode_spec hfresh horigin arena hmeans hmode hoptions
  obtain ⟨lost, hmoves, hzeroes⟩ := hfilled.moves
  have hframed : arena.Moves (addressesOf connection.storage.storage.memory)
      (addressesOf filled.storage.storage.memory ++ lost ++
        addressesOf connection.storage.storage.memory)
      between := hmoves.frame _
  rw [hresolve, ok_bind]
  dsimp only
  split
  · -- the source has failed
    rename_i hfailed
    obtain ⟨_, _, arena', hcleanup, hlost⟩ := replacement_abandoned hfilled.sound hframed hzeroes
    rw [hcleanup]
    exact ⟨_, _, _, _, rfl, ⟨h, fun hok => absurd hok hfailed, fun _ => rfl, hlost,
      fun hgenerous _ hoffer => absurd (hfilled.complete hgenerous hoffer) hfailed⟩, hregistration⟩
  rename_i hok
  rw [not_not] at hok
  obtain ⟨values, hoffer, hholds⟩ := hfilled.outcome hok
  obtain ⟨released, storage, after, hrelease, hback, -, hgone, hkept, hreleased⟩ :=
    sensitiveMemoryRelease_moves h.storageInitialized h.storage between
  rw [hrelease]
  by_cases hclean : released = .ok
  · -- the old block is gone
    subst hclean
    refine ⟨_, _, _, _, rfl,
      ⟨hfilled.sound, fun _ => ⟨hmode, values, hoffer, hholds⟩, fun hne => absurd rfl hne,
      ⟨lost, ?_, hzeroes⟩, fun _ _ _ => rfl⟩, hregistration⟩
    rw [hgone rfl, addressesOf_none] at hback
    exact hframed.trans ((hback.frame _).perm List.perm_append_comm (List.Perm.refl _))
  · obtain rfl := hkept hclean
    have hboth := hframed.trans ((hback.frame _).perm List.perm_append_comm List.perm_append_comm)
    obtain ⟨_, _, arena', hcleanup, hlost⟩ := replacement_abandoned hfilled.sound hboth hzeroes
    refine ⟨.cleanupFailed, connection, registry', arena', ?_,
      ⟨h, fun hok => ConnectionStringResult.noConfusion hok,
      fun _ => rfl, hlost, fun hgenerous _ _ =>
        absurd (hreleased (hframed.zeroes hgenerous.2)) hclean⟩,
      hregistration⟩
    cases released with
    | ok => exact absurd rfl hclean
    | _ =>
      dsimp only
      rw [hcleanup]
      rfl

end Whole

end Vps
