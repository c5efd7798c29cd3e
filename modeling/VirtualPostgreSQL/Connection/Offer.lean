import VirtualPostgreSQL.Arguments.Contract
import VirtualPostgreSQL.Connection.Copy
import VirtualPostgreSQL.Credential.Protocol

/-!
# Connection/Offer — what the sources of a connection offer

Each source offers values, or nothing: `ServiceOffers`, `SnapshotOffers`, `EnvironmentOffers`,
`CredentialOffers` and `ConninfoOffers` say which, in terms of the arguments, of the environment, of
the lease and of what libpq reads.  The code of each source fills a fresh connection with what is
offered.
-/

namespace Vps

open Machinery

/-! ## Configurations that are put together -/

section Views

variable {view : CredentialConfigView}

/-- The empty view is well formed… -/
theorem formed_emptyConfigView : emptyConfigView.Formed :=
  ⟨rfl, by decide, fun member hmember => absurd (UInt64.zero_and) hmember⟩

/-- …and offers nothing. -/
theorem values_emptyConfigView : emptyConfigView.values = fun _ => none :=
  funext fun _ => if_neg (not_not_intro UInt64.zero_and)

/-- Two members have different bits. -/
theorem field_and_field_eq_zero_iff {member other : CredentialMember} :
    member.field &&& other.field = 0 ↔ member ≠ other := by
  have htable : ∀ member ∈ credentialMembers, ∀ other ∈ credentialMembers,
      (member.field &&& other.field = 0 ↔ member ≠ other) := by decide
  exact htable member (mem_credentialMembers _) other (mem_credentialMembers _)

/-- A field is there once it was set. -/
theorem present_set {member other : CredentialMember} {value : CString} :
    (view.set member value).header.presentFields &&& other.field ≠ 0 ↔
      member = other ∨ view.header.presentFields &&& other.field ≠ 0 := by
  show (view.header.presentFields ||| member.field) &&& other.field ≠ 0 ↔ _
  rw [ne_eq, or_and_eq_zero_iff, field_and_field_eq_zero_iff]
  tauto

/-- A view stays well formed when a member is set. -/
theorem CredentialConfigView.Formed.set (h : view.Formed) (member : CredentialMember)
    (value : CString) :
    (view.set member value).Formed := by
  have hfield : member.field &&& ~~~credentialFieldsCurrent = 0 := by cases member <;> decide
  refine ⟨h.version, or_and_eq_zero_iff.mpr ⟨h.fields, hfield⟩, fun other hother => ?_⟩
  show (Function.update view.members member (some value) other).isSome
  rcases eq_or_ne other member with rfl | hne
  · rw [Function.update_self]
    rfl
  · rw [Function.update_of_ne hne]
    exact h.whole other ((present_set.mp hother).resolve_left (Ne.symm hne))

/-- A member that is set is offered, and the others as before. -/
theorem values_set (member : CredentialMember) (value : CString) :
    (view.set member value).values = Function.update view.values member (some value.bytes) := by
  funext other
  show (if _ then (Function.update view.members member (some value) other).map CString.bytes
    else none) = _
  simp only [present_set]
  rcases eq_or_ne other member with rfl | hne
  · rw [Function.update_self, Function.update_self, if_pos (.inl rfl)]
    rfl
  · rw [Function.update_of_ne hne, Function.update_of_ne hne]
    simp only [or_iff_right (Ne.symm hne)]
    rfl

/-- What was put together gives what it says, if that is acceptable. -/
theorem gives_iff (h : view.Formed) {values : CredentialValues} :
    view.Gives values ↔ values = view.values ∧ AcceptableValues values :=
  ⟨fun hgives => ⟨hgives.shown, hgives.acceptable⟩,
    fun ⟨hshown, hacceptable⟩ => ⟨h, hshown, hacceptable⟩⟩

end Views

/-- Only what is offered matters, not how it is said. -/
theorem ResolvedConnection.Filled.congr {arena arena' : Arena} {result : ConnectionStringResult}
    {connection : ResolvedConnection} {offers offers' : ConnectionOrigin → CredentialValues → Prop}
    (h : connection.Filled arena offers result arena')
    (hsame : ∀ origin values, offers origin values ↔ offers' origin values) :
    connection.Filled arena offers' result arena' := by
  obtain rfl : offers = offers' :=
    funext fun origin => funext fun values => propext (hsame origin values)
  exact h

/-- **A source that puts a configuration together**, and has it copied. -/
theorem connectionCopyConfig_formed {connection : ResolvedConnection} (h : connection.Fresh)
    (arena : Arena) {source : CredentialConfigView} (hformed : source.Formed) :
    ∃ result connection' arena', connectionCopyConfig connection arena source =
        .ok (result, connection', arena') ∧ connection'.origin = connection.origin ∧
      connection'.Filled arena
        (fun origin values => origin = connection.origin ∧ values = source.values ∧
        AcceptableValues values) result arena' := by
  obtain ⟨result, connection', arena', heq, horigin, hfilled⟩ :=
    connectionCopyConfig_spec h arena source
  exact ⟨_, _, _, heq, horigin, hfilled.congr fun _ _ => and_congr_right fun _ => gives_iff hformed⟩

/-! ## The text of an argument -/

/-- The bytes of an option. -/
def ParsedArgumentValues.text (model : ParsedArgumentValues) (argumentId : ArgumentId) :
    Option (List UInt8) :=
  (model.values argumentId).map (·.bytes)

/-- The text of an argument is the one the model has. -/
theorem StoredArguments.Says.text {arguments : StoredArguments} {model : ParsedArgumentValues}
    (h : arguments.Says model) (argumentId : ArgumentId) :
    (argumentText arguments argumentId).map Prod.fst = model.text argumentId := by
  rw [ParsedArgumentValues.text, ← h.view, StoredArguments.view]
  cases htext : argumentText arguments argumentId with
  | none => cases arguments.values argumentId <;> rfl
  | some text =>
    cases hstored : arguments.values argumentId with
    | none =>
      unfold argumentText at htext
      rw [hstored] at htext
      split at htext <;> cases htext
    | some stored => rfl

/-! ## A service -/

/-- A path that `vps_safe_service_file` takes. -/
def acceptsServiceFile (value : List UInt8) : Bool :=
  value.length ≥ 3 && value.length ≤ credentialValueMaxLength && isAbsolutePath value &&
    !hasPair 46 46 value && !value.contains 37 && !value.contains 36 &&
    value.all fun byte => !(isControlByte byte || [60, 62, 34, 124, 63, 42].contains byte)

/-- A service file is judged by its bytes. -/
theorem safeServiceFile_eq {value : List UInt8} {string : CString} (h : string.bytes = value) :
    safeServiceFile value string = acceptsServiceFile value := by
  simp [safeServiceFile, acceptsServiceFile, h]

/-- The values of a service. -/
def serviceValues (service : List UInt8) : Option (List UInt8) → CredentialValues
  | none => Function.update (fun _ => none) .service (some service)
  | some file => Function.update (Function.update (fun _ => none) .service (some service))
    .serviceFile (some file)

/-- A service is a well-formed source… -/
theorem formed_serviceSource (service : CString) (file : Option CString) :
    (serviceSource service file).Formed := by
  cases file with
  | none => exact formed_emptyConfigView.set _ _
  | some file => exact (formed_emptyConfigView.set _ _).set _ _

/-- …that offers its name, and its file if there is one. -/
theorem values_serviceSource (service : CString) (file : Option CString) :
    (serviceSource service file).values = serviceValues service.bytes (file.map CString.bytes) := by
  cases file with
  | none =>
    rw [serviceSource, values_set, values_emptyConfigView]
    rfl
  | some file =>
    rw [serviceSource, values_set, values_set, values_emptyConfigView]
    rfl

/-- **What a service offers.** -/
structure ServiceOffers (model : ParsedArgumentValues) (values : CredentialValues) : Prop where
  service : ∃ service, model.text .service = some service ∧ safeServiceName service = true ∧
    values = serviceValues service (model.text .serviceFile)
  file : ∀ file, model.text .serviceFile = some file → acceptsServiceFile file = true
  acceptable : AcceptableValues values

/-- **A connection from a service** offers the service and its file, as the arguments have them, or
nothing. -/
theorem resolveService_spec {connection : ResolvedConnection} (h : connection.Fresh) (arena : Arena)
    {arguments : StoredArguments} {model : ParsedArgumentValues} (hmeans : arguments.Says model) :
    ∃ result connection' arena', resolveService connection arena arguments =
        .ok (result, connection', arena') ∧ connection'.origin = connection.origin ∧
      connection'.Filled arena
        (fun origin values => origin = connection.origin ∧ ServiceOffers model values)
        result arena' := by
  have hservice := hmeans.text .service
  have hfile := hmeans.text .serviceFile
  have hstring := hmeans.string
  unfold resolveService
  cases hshown : argumentText arguments .service with
  | none =>
    rw [hshown] at hservice
    refine ⟨_, _, _, rfl, rfl, .refused h ConnectionStringResult.noConfusion (.refl _ _)
      fun _ origin values ⟨_, hoffers⟩ => ?_⟩
    obtain ⟨service, hsome, -⟩ := hoffers.service
    rw [hsome] at hservice
    cases hservice
  | some service =>
    obtain ⟨name, service⟩ := service
    rw [hshown] at hservice
    have hname := hstring .service _ hshown
    have hfileString := hstring .serviceFile
    generalize argumentText arguments .serviceFile = file at hfile hfileString ⊢
    dsimp only
    split
    · rename_i hbad
      refine ⟨_, _, _, rfl, rfl, .refused h ConnectionStringResult.noConfusion (.refl _ _)
        fun _ origin values ⟨_, hoffers⟩ => ?_⟩
      obtain ⟨_, hsome, hsafe, -⟩ := hoffers.service
      cases hservice.trans hsome
      refine absurd hbad ?_
      rw [hsafe, Bool.not_true, Bool.false_or, Bool.not_eq_true', Bool.not_eq_false,
        Option.all_eq_true]
      rintro given rfl
      rw [safeServiceFile_eq (hfileString given rfl)]
      exact hoffers.file given.1 hfile.symm
    · rename_i hgood
      simp only [Bool.or_eq_true, Bool.not_eq_true', not_or, Bool.not_eq_false,
        Option.all_eq_true] at hgood
      have hvalues := values_serviceSource service (file.map Prod.snd)
      have hbytes : (file.map Prod.snd).map CString.bytes = model.text .serviceFile := by
        rw [← hfile, Option.map_map]
        exact Option.map_congr hfileString
      rw [hname, hbytes] at hvalues
      obtain ⟨result, connection', arena', heq, horigin, hfilled⟩ :=
        connectionCopyConfig_formed h arena
        (formed_serviceSource service (file.map Prod.snd))
      refine ⟨_, _, _, heq, horigin, hfilled.congr fun origin values => and_congr_right fun _ => ?_⟩
      rw [hvalues]
      constructor
      · rintro ⟨hshape, hacceptable⟩
        refine ⟨⟨name, hservice.symm, hgood.1, hshape⟩, fun given hgiven => ?_, hacceptable⟩
        obtain ⟨given, hmem, rfl⟩ := Option.map_eq_some_iff.mp (hfile.trans hgiven)
        rw [← safeServiceFile_eq (hfileString given hmem)]
        exact hgood.2 given hmem
      · rintro ⟨⟨_, hsome, -, hshape⟩, -, hacceptable⟩
        cases hservice.trans hsome
        exact ⟨hshape, hacceptable⟩

/-! ## A profile -/

/-- The name of a setting of a profile in the environment. -/
def profileName (profile suffix : List UInt8) : List UInt8 :=
  ascii "VPS_PROFILE_" ++ profile ++ [95] ++ suffix

/-- A profile that is accepted is short enough. -/
theorem length_normalizeProfile {value profile : List UInt8}
    (h : normalizeProfile value = some profile) :
    profile.length ≤ profileNameMaxLength := by
  unfold normalizeProfile at h
  split at h
  · cases h
  · rename_i hlength
    have hsame := (forall₂_of_mapM h).length_eq
    omega

/-- The name of a variable that fits is built whole. -/
theorem buildProfileName_eq {outputSize : ℕ} {profile suffix : List UInt8}
    (h : profile.length + suffix.length + 14 ≤ outputSize) :
    buildProfileName outputSize profile suffix = some (profileName profile suffix) := by
  unfold buildProfileName
  have hprefix : (ascii "VPS_PROFILE_").length = 12 := by decide
  rw [if_neg (by simp only [List.length_append, hprefix, List.length_singleton]; omega)]
  rfl

theorem profileName_eq_append (profile suffix : List UInt8) :
    profileName profile suffix = profileName profile [] ++ suffix := by
  simp [profileName]

theorem length_profileSuffix (member : CredentialMember) : member.profileSuffix.length ≤ 20 := by
  cases member <;> decide

/-- A suffix is that of one member only. -/
theorem profileField_eq_some_iff {suffix : List UInt8} {member : CredentialMember} :
    profileField suffix = some member ↔ suffix = member.profileSuffix := by
  constructor
  · intro h
    have hfound := List.find?_some h
    exact (beq_iff_eq.mp hfound).symm
  · rintro rfl
    have htable : ∀ member ∈ credentialMembers, profileField member.profileSuffix =
      some member := by decide
    exact htable member (mem_credentialMembers _)

theorem profileSuffix_inj {member other : CredentialMember} :
    member.profileSuffix = other.profileSuffix ↔ member = other := by
  refine ⟨fun heq => ?_, fun heq => heq ▸ rfl⟩
  have hfield := profileField_eq_some_iff.mpr heq
  rw [profileField_eq_some_iff.mpr rfl] at hfield
  exact Option.some.inj hfield

/-- A setting of a profile, as it stands in a snapshot of the environment. -/
def SettingOf (profile : List UInt8) (entry : ProfileEnvironmentEntry)
    (setting : CredentialMember × CString) :
    Prop :=
  entry.value = some setting.2 ∧
    ∃ name, entry.name = some name ∧ name.bytes = profileName profile setting.1.profileSuffix

/-- **What a snapshot of the environment offers**: each entry is a setting of the profile, no two
are the same. -/
structure SnapshotOffers (profile : List UInt8) (entries : List ProfileEnvironmentEntry)
    (values : CredentialValues) : Prop where
  settings : ∃ settings : List (CredentialMember × CString), (settings.map Prod.fst).Nodup ∧
    List.Forall₂ (SettingOf profile) entries settings ∧
    ∀ member value, values member = some value ↔
      ∃ string, (member, string) ∈ settings ∧ string.bytes = value
  acceptable : AcceptableValues values

/-- The configuration that settings make. -/
def CredentialConfigView.setAll (view : CredentialConfigView)
    (settings : List (CredentialMember × CString)) :
    CredentialConfigView :=
  settings.foldl (fun view setting => view.set setting.1 setting.2) view

section Snapshot

variable {profile : List UInt8} {view : CredentialConfigView}
    {settings : List (CredentialMember × CString)}

theorem CredentialConfigView.Formed.setAll (h : view.Formed) : (view.setAll settings).Formed := by
  induction settings generalizing view with
  | nil => exact h
  | cons setting settings ih => exact ih (h.set setting.1 setting.2)

/-- **Settings of different members say what each of them says.** -/
theorem values_setAll (hnodup : (settings.map Prod.fst).Nodup)
    (hfree : ∀ setting ∈ settings, view.values setting.1 = none) {member : CredentialMember}
    {value : List UInt8} : (view.setAll settings).values member = some value ↔
      (∃ string, (member, string) ∈ settings ∧ string.bytes = value) ∨
        view.values member = some value := by
  induction settings generalizing view with
  | nil => simp [CredentialConfigView.setAll]
  | cons setting settings ih =>
    obtain ⟨own, string⟩ := setting
    rw [List.map_cons, List.nodup_cons] at hnodup
    have hother {setting : CredentialMember × CString} (hmem : setting ∈ settings) :
      setting.1 ≠ own :=
      fun heq => hnodup.1 (List.mem_map.mpr ⟨setting, hmem, heq⟩)
    have hnext : ∀ setting ∈ settings, (view.set own string).values setting.1 = none :=
      fun setting hmem => by
      rw [values_set, Function.update_of_ne (hother hmem)]
      exact hfree setting (List.mem_cons_of_mem _ hmem)
    show ((view.set own string).setAll settings).values member = some value ↔ _
    rw [ih hnodup.2 hnext, values_set]
    rcases eq_or_ne member own with rfl | hne
    · have hnone := hfree (member, string) List.mem_cons_self
      have hmine {other : CString} : (member, other) ∉ settings := fun hmem => hother hmem rfl
      simp [Function.update_self, hnone, hmine]
    · simp [hne]

/-- A setting, and no other entry. -/
theorem settingOf_iff {name value : CString} {member : CredentialMember} {string : CString} :
    SettingOf profile ⟨some name, some value⟩ (member, string) ↔
      value = string ∧ name.bytes = profileName profile member.profileSuffix := by
  simp [SettingOf]

/-- **The loop over a snapshot** collects its settings. -/
theorem profileSnapshotFields_spec (entries : List ProfileEnvironmentEntry) :
    ∃ found, profileSnapshotFields (profileName profile []) entries view = .ok found ∧
      ∀ view', found = some view' ↔ ∃ settings, List.Forall₂ (SettingOf profile) entries settings ∧
        (settings.map Prod.fst).Nodup ∧
        (∀ setting ∈ settings, view.header.presentFields &&& setting.1.field = 0 ∧
          connectionAccepts setting.2.bytes = true) ∧ view' = view.setAll settings := by
  induction entries generalizing view with
  | nil =>
    refine ⟨some view, rfl,
      fun view' => ⟨fun heq => ⟨[], .nil, List.nodup_nil, List.forall_mem_nil _, ?_⟩, ?_⟩⟩
    · exact (Option.some.inj heq).symm
    · rintro ⟨settings, hall, -, -, rfl⟩
      cases hall
      rfl
  | cons entry entries ih =>
    -- an entry that is no setting, or is none that can be taken
    have hrefused (hnone : ∀ setting, SettingOf profile entry setting →
        ¬(view.header.presentFields &&& setting.1.field = 0 ∧
          connectionAccepts setting.2.bytes = true)) :
        ∀ view', (none : Option CredentialConfigView) = some view' ↔ ∃ settings,
          List.Forall₂ (SettingOf profile) (entry :: entries) settings ∧
            (settings.map Prod.fst).Nodup ∧
          (∀ setting ∈ settings, view.header.presentFields &&& setting.1.field = 0 ∧
            connectionAccepts setting.2.bytes = true) ∧
              view' = view.setAll settings := fun view' => by
      refine ⟨fun heq => (by cases heq), ?_⟩
      rintro ⟨settings, hall, -, hfree, -⟩
      cases hall with
      | cons hsetting hrest => exact absurd (hfree _ List.mem_cons_self) (hnone _ hsetting)
    obtain ⟨name, value⟩ := entry
    unfold profileSnapshotFields
    cases name with
    | none => exact ⟨none, rfl, hrefused fun setting ⟨_, name, hname, _⟩ => by cases hname⟩
    | some name =>
      cases value with
      | none => exact ⟨none, rfl, hrefused fun setting ⟨hvalue, _⟩ => by cases hvalue⟩
      | some value =>
        dsimp only
        by_cases hmember :
          ∃ member : CredentialMember, name.bytes = profileName profile member.profileSuffix
        · obtain ⟨member, hname⟩ := hmember
          have hparts := hname.trans (profileName_eq_append profile member.profileSuffix)
          rw [hparts, List.isPrefixOf_iff_prefix.mpr (List.prefix_append _ _), Bool.not_true,
            if_neg Bool.false_ne_true, List.drop_left, profileField_eq_some_iff.mpr rfl]
          dsimp only
          -- the setting that the entry is
          have hsetting : SettingOf profile ⟨some name, some value⟩ (member, value) :=
            ⟨rfl, name, rfl, hname⟩
          have hunique {setting : CredentialMember × CString}
              (h : SettingOf profile ⟨some name, some value⟩ setting) :
                setting = (member, value) := by
            obtain ⟨other, string⟩ := setting
            obtain ⟨rfl, hother⟩ := settingOf_iff.mp h
            rw [hname, profileName_eq_append, profileName_eq_append profile other.profileSuffix,
              List.append_cancel_left_eq] at hother
            rw [profileSuffix_inj.mp hother]
          split
          · rename_i htaken
            exact ⟨none, rfl,
              hrefused fun setting h => by rw [hunique h]; exact fun hfree => htaken hfree.1⟩
          rename_i hfree
          rw [not_not] at hfree
          cases haccepts : connectionAccepts value.bytes with
          | false =>
            rw [valueLength_measures.refused value haccepts]
            refine ⟨none, rfl, hrefused fun setting h => ?_⟩
            rw [hunique h, haccepts]
            exact fun hall => Bool.false_ne_true hall.2
          | true =>
            rw [valueLength_measures.accepted value haccepts]
            obtain ⟨found, heq, hfound⟩ := @ih (view.set member value)
            refine ⟨found, heq, fun view' => (hfound view').trans ⟨?_, ?_⟩⟩
            · rintro ⟨settings, hall, hnodup, hrest, rfl⟩
              refine ⟨(member, value) :: settings, .cons hsetting hall,
                List.nodup_cons.mpr ⟨?_, hnodup⟩,
                List.forall_mem_cons.mpr ⟨⟨hfree, haccepts⟩, fun setting hmem => ?_⟩, rfl⟩
              · intro hmem
                obtain ⟨setting, hmem, hsame⟩ := List.mem_map.mp hmem
                exact present_set.mpr (.inl hsame.symm) (hrest setting hmem).1
              · refine ⟨?_, (hrest setting hmem).2⟩
                by_contra hpresent
                exact present_set.mpr (.inr hpresent) (hrest setting hmem).1
            · rintro ⟨settings, hall, hnodup, hrest, rfl⟩
              cases hall with
              | cons hfirst hall =>
                rename_i settings
                rw [hunique hfirst, List.map_cons, List.nodup_cons] at hnodup
                refine ⟨settings, hall, hnodup.2,
                  fun setting hmem => ⟨?_, (hrest _ (List.mem_cons_of_mem _ hmem)).2⟩,
                  by rw [hunique hfirst]; rfl⟩
                by_contra hpresent
                rcases present_set.mp hpresent with heq | hpresent
                · exact hnodup.1 (List.mem_map.mpr ⟨setting, hmem, heq.symm⟩)
                · exact hpresent (hrest _ (List.mem_cons_of_mem _ hmem)).1
        · refine ⟨none, ?_, hrefused fun setting h => ?_⟩
          · split
            · rfl
            rename_i hprefix
            rw [Bool.not_eq_true', Bool.not_eq_false, List.isPrefixOf_iff_prefix] at hprefix
            obtain ⟨suffix, hsuffix⟩ := hprefix
            rw [← hsuffix, List.drop_left]
            cases hfield : profileField suffix with
            | none => rfl
            | some member =>
              rw [profileField_eq_some_iff.mp hfield] at hsuffix
              exact absurd ⟨member, hsuffix.symm.trans (profileName_eq_append _ _).symm⟩ hmember
          · obtain ⟨-, other, hother, hname⟩ := h
            cases hother
            exact absurd ⟨setting.1, hname⟩ hmember

/-- **A connection from a snapshot of the environment** holds what its entries offer, or nothing. -/
theorem resolveProfileSnapshot_spec {connection : ResolvedConnection} (h : connection.Fresh)
    (arena : Arena) (hprofile : connection.normalizedProfile.length ≤ profileNameMaxLength)
    {entries : List ProfileEnvironmentEntry} :
    ∃ result connection' arena', resolveProfileSnapshot connection arena entries entries.length =
        .ok (result, connection', arena') ∧ connection'.origin = connection.origin ∧
      connection'.Filled arena (fun origin values => origin = connection.origin ∧
        SnapshotOffers connection.normalizedProfile entries values) result arena' := by
  obtain ⟨found, heq, hfound⟩ :=
    @profileSnapshotFields_spec connection.normalizedProfile emptyConfigView entries
  have hname : buildProfileName (profileNameMaxLength + 14) connection.normalizedProfile [] =
      some (profileName connection.normalizedProfile []) := by
    refine buildProfileName_eq ?_
    rw [List.length_nil]
    omega
  have hfree (settings : List (CredentialMember × CString)) :
      ∀ setting ∈ settings, emptyConfigView.values setting.1 = none := fun setting _ => by
    rw [values_emptyConfigView]
  unfold resolveProfileSnapshot
  rw [hname]
  dsimp only
  rw [if_neg (Nat.lt_irrefl _), List.take_length, heq, ok_bind]
  cases found with
  | none =>
    refine ⟨_, _, _, rfl, rfl, .refused h ConnectionStringResult.noConfusion (.refl _ _)
      fun _ origin values ⟨_, hoffers⟩ => ?_⟩
    obtain ⟨settings, hnodup, hall, hvalues⟩ := hoffers.settings
    have hsome :=
      (hfound (emptyConfigView.setAll settings)).mpr ⟨settings, hall, hnodup, fun setting hmem =>
      ⟨UInt64.zero_and,
        hoffers.acceptable.accepted setting.1 _ ((hvalues _ _).mpr ⟨setting.2, hmem, rfl⟩)⟩, rfl⟩
    cases hsome
  | some source =>
    obtain ⟨settings, hall, hnodup, -, rfl⟩ := (hfound source).mp rfl
    obtain ⟨result, connection', arena', heq, horigin, hfilled⟩ :=
      connectionCopyConfig_formed h arena
        (@CredentialConfigView.Formed.setAll _ settings formed_emptyConfigView)
    have hmeans (member : CredentialMember) (value : List UInt8) :
        (emptyConfigView.setAll settings).values member = some value ↔
          ∃ string, (member, string) ∈ settings ∧ string.bytes = value := by
      rw [values_setAll hnodup (hfree settings), values_emptyConfigView]
      simp
    refine ⟨_, _, _, heq, horigin, hfilled.congr fun origin values => and_congr_right fun _ => ?_⟩
    constructor
    · rintro ⟨rfl, hacceptable⟩
      exact ⟨⟨settings, hnodup, hall, hmeans⟩, hacceptable⟩
    · rintro ⟨⟨settings', hnodup', hall', hvalues⟩, hacceptable⟩
      have hsame : emptyConfigView.setAll settings' = emptyConfigView.setAll settings :=
        (Option.some.inj
          ((hfound _).mpr ⟨settings', hall', hnodup', fun setting hmem => ⟨UInt64.zero_and,
          hacceptable.accepted setting.1 _ ((hvalues _ _).mpr ⟨setting.2, hmem, rfl⟩)⟩, rfl⟩)).symm
      refine ⟨funext fun member => Option.ext fun value => ?_, hacceptable⟩
      rw [hvalues, ← hsame, values_setAll hnodup' (hfree settings'), values_emptyConfigView]
      simp

end Snapshot

end Vps
