import VirtualPostgreSQL.Connection.Offer

/-!
# Connection/Environment — a profile that is read from the environment

Each setting has a slot of a scratch block.  The platform writes into the slots, one after the
other, and the configuration points into them; it is copied, and the block is zeroed and given back.
`profileEnvironmentFields_spec` is the loop: what stands in the slots in the end is what the
environment says.
-/

namespace Vps

open Machinery

/-- **A platform that keeps to its contract**: it writes into its buffer only, and an answer that is
fine is a string with its NUL, of the size that it tells. -/
structure FaithfulEnvironment (environment : List UInt8 → EnvironmentAnswer) : Prop where
  within : ∀ name, (environment name).written.length ≤ profileSlotSize
  string : ∀ name, (environment name).status = .ok → ∃ value : CString,
    (environment name).written = value.memory ∧ (environment name).required = value.memory.length

/-- **What the environment says about a member** of a profile. -/
def EnvironmentSays (environment : List UInt8 → EnvironmentAnswer) (profile : List UInt8)
    (member : CredentialMember) (value : Option (List UInt8)) : Prop :=
  let answer := environment (profileName profile member.profileSuffix)
  (answer.status = .notFound ∧ value = none) ∨
    (answer.status = .ok ∧ ∃ string : CString, answer.written = string.memory ∧
      value = some string.bytes)

/-- **What the environment offers** as a profile. -/
structure EnvironmentOffers (environment : List UInt8 → EnvironmentAnswer) (profile : List UInt8)
    (values : CredentialValues) : Prop where
  settings : ∀ member, EnvironmentSays environment profile member (values member)
  acceptable : AcceptableValues values

section Environment

variable {environment : List UInt8 → EnvironmentAnswer} {profile : List UInt8}

theorem EnvironmentSays.unique {member : CredentialMember} {value value' : Option (List UInt8)}
    (h : EnvironmentSays environment profile member value)
    (h' : EnvironmentSays environment profile member value') : value = value' := by
  rcases h with ⟨hstatus, rfl⟩ | ⟨hstatus, string, hwritten, rfl⟩
  · rcases h' with ⟨-, rfl⟩ | ⟨hstatus', -⟩
    · rfl
    · rw [hstatus] at hstatus'
      cases hstatus'
  · rcases h' with ⟨hstatus', -⟩ | ⟨-, string', hwritten', rfl⟩
    · rw [hstatus] at hstatus'
      cases hstatus'
    · have hsame := hwritten.symm.trans hwritten'
      rw [CString.memory, CString.memory, List.append_left_inj] at hsame
      rw [hsame]

/-- What a slot shows does not depend on what stands behind it. -/
theorem cStringAt_of_take {scratch scratch' bytes : List UInt8} {offset stop : ℕ} (hnul : 0 ∉ bytes)
    (hsame : scratch'.take stop = scratch.take stop) (hstop : offset + (bytes.length + 1) ≤ stop)
    (h : slice scratch offset (bytes.length + 1) = bytes ++ [0]) :
    (cStringAt scratch' offset).bytes = bytes := by
  refine cStringAt_of_slice hnul ?_
  have hslice (block : List UInt8) : slice block offset (bytes.length + 1) =
      slice (block.take stop) offset (bytes.length + 1) := by
    rw [slice, slice, List.drop_take, List.take_take, Nat.min_eq_left (by omega)]
  rw [hslice, hsame, ← hslice, h]

/-- **What the loop leaves**: the members that were found point to what the environment says of
them. -/
structure EnvironmentFound (environment : List UInt8 → EnvironmentAnswer) (profile : List UInt8)
    (rest : List CredentialMember) (present : UInt64) (members : CredentialMember → Option ℕ)
    (present' : UInt64) (members' : CredentialMember → Option ℕ) (scratch' : List UInt8)
    (values : CredentialValues) : Prop where
  settings : ∀ member ∈ rest, EnvironmentSays environment profile member (values member)
  found : ∀ member ∈ rest, present' &&& member.field ≠ 0 ↔
    present &&& member.field ≠ 0 ∨ (values member).isSome
  shown : ∀ member ∈ rest, ∀ value, values member = some value →
    ∃ offset, members' member = some offset ∧ (cStringAt scratch' offset).bytes = value
  others : ∀ member ∉ rest, members' member = members member ∧
    (present' &&& member.field ≠ 0 ↔ present &&& member.field ≠ 0)
  stray : present &&& ~~~credentialFieldsCurrent = 0 → present' &&& ~~~credentialFieldsCurrent = 0

/-- One more member in front. -/
theorem EnvironmentFound.cons {rest : List CredentialMember} {member : CredentialMember}
    {value : Option (List UInt8)} {present between present' : UInt64}
    {members membersBetween members' : CredentialMember → Option ℕ} {scratch' : List UInt8}
    {values : CredentialValues}
    (h : EnvironmentFound environment profile rest between membersBetween present' members'
    scratch' values)
    (hnew : member ∉ rest) (hmeans : EnvironmentSays environment profile member value)
    (hpresent : ∀ other, between &&& other.field ≠ 0 ↔
      present &&& other.field ≠ 0 ∨ (member = other ∧ value.isSome))
    (hmembers : ∀ other ≠ member, membersBetween other = members other)
    (hshown : ∀ bytes, value = some bytes →
      ∃ offset, membersBetween member = some offset ∧ (cStringAt scratch' offset).bytes = bytes)
    (hstray : present &&& ~~~credentialFieldsCurrent = 0 →
    between &&& ~~~credentialFieldsCurrent = 0) :
    EnvironmentFound environment profile (member :: rest) present members present' members' scratch'
      (Function.update values member value) := by
  obtain ⟨hmine, hminePresent⟩ := h.others member hnew
  have hrest {other : CredentialMember} (hother : other ∈ rest) : other ≠ member :=
    fun heq => hnew (heq ▸ hother)
  refine ⟨List.forall_mem_cons.mpr ⟨?_, fun other hother => ?_⟩,
    List.forall_mem_cons.mpr ⟨?_, fun other hother => ?_⟩,
    List.forall_mem_cons.mpr ⟨?_, fun other hother => ?_⟩, fun other hother => ?_, h.stray ∘ hstray⟩
  · rw [Function.update_self]
    exact hmeans
  · rw [Function.update_of_ne (hrest hother)]
    exact h.settings other hother
  · rw [Function.update_self, hminePresent, hpresent]
    simp
  · rw [Function.update_of_ne (hrest hother), h.found other hother, hpresent,
      or_iff_left (a := present &&& other.field ≠ 0) fun hboth => hrest hother hboth.1.symm]
  · rw [Function.update_self, hmine]
    exact hshown
  · rw [Function.update_of_ne (hrest hother)]
    exact h.shown other hother
  · rw [List.mem_cons, not_or] at hother
    obtain ⟨hsame, hsamePresent⟩ := h.others other hother.2
    rw [hsame, hmembers other hother.1, hsamePresent, hpresent,
      or_iff_left (a := present &&& other.field ≠ 0) fun hboth => hother.1 hboth.1.symm]
    exact ⟨rfl, Iff.rfl⟩

/-- **The loop over the members.** -/
theorem profileEnvironmentFields_spec (hfaithful : FaithfulEnvironment environment)
    (hprofile : profile.length ≤ profileNameMaxLength) {rest : List CredentialMember}
    (hnodup : rest.Nodup) {index : ℕ} {scratch : List UInt8}
    (hroom : (index + rest.length) * profileSlotSize ≤ scratch.length)
    {present : UInt64} {members : CredentialMember → Option ℕ} :
    ∃ found scratch',
      profileEnvironmentFields environment profile rest index scratch present members =
        .ok (found, scratch') ∧ scratch'.length = scratch.length ∧
      scratch'.take (index * profileSlotSize) = scratch.take (index * profileSlotSize) ∧
      match found with
      | .error result => result ≠ .ok ∧
        ¬∃ values : CredentialValues, ∀ member ∈ rest,
          EnvironmentSays environment profile member (values member)
      | .ok (present', members') => ∃ values,
        EnvironmentFound environment profile rest present members present' members'
          scratch' values := by
  induction rest generalizing index scratch present members with
  | nil =>
    exact ⟨_, _, rfl, rfl, rfl, fun _ => none, List.forall_mem_nil _, List.forall_mem_nil _,
      List.forall_mem_nil _, fun _ _ => ⟨rfl, Iff.rfl⟩, id⟩
  | cons member rest ih =>
    rw [List.nodup_cons] at hnodup
    have hname : buildProfileName (profileNameMaxLength + 40) profile member.profileSuffix =
        some (profileName profile member.profileSuffix) := by
      refine buildProfileName_eq ?_
      have hsuffix := length_profileSuffix member
      omega
    have hwithin := hfaithful.within (profileName profile member.profileSuffix)
    have hstring := hfaithful.string (profileName profile member.profileSuffix)
    obtain ⟨answer, hanswer⟩ : ∃ answer, environment (profileName profile member.profileSuffix) =
      answer := ⟨_, rfl⟩
    have hmeans (value : Option (List UInt8)) : EnvironmentSays environment profile member value ↔
        (answer.status = .notFound ∧ value = none) ∨ (answer.status = .ok ∧ ∃ string : CString,
          answer.written = string.memory ∧ value = some string.bytes) := by
      rw [← hanswer]
      exact Iff.rfl
    unfold profileEnvironmentFields
    rw [hname]
    dsimp only
    rw [hanswer] at hwithin hstring ⊢
    rw [List.length_cons, Nat.add_mul, Nat.add_mul, Nat.one_mul] at hroom
    have hslot : index * profileSlotSize + answer.written.length ≤ scratch.length := by omega
    -- the platform writes into the slot
    let written := scratch.take (index * profileSlotSize) ++ answer.written ++
      scratch.drop (index * profileSlotSize + answer.written.length)
    have hwrite : writeAt scratch (index * profileSlotSize) answer.written = .ok written := by
      rw [writeAt, if_pos hslot]
    have hlength : written.length = scratch.length := by
      simp only [written, List.length_append, List.length_take, List.length_drop]
      omega
    have hbefore :
      written.take (index * profileSlotSize) = scratch.take (index * profileSlotSize) := by
      simp only [written, List.append_assoc]
      exact List.take_left' (List.length_take_of_le (by omega))
    have hroom' : (index + 1 + rest.length) * profileSlotSize ≤ written.length := by
      rw [hlength, Nat.add_mul, Nat.add_mul, Nat.one_mul]
      omega
    have htake {scratch' : List UInt8} (h : scratch'.take ((index + 1) * profileSlotSize) =
        written.take ((index + 1) * profileSlotSize)) :
        scratch'.take (index * profileSlotSize) = scratch.take (index * profileSlotSize) := by
      have hle : index * profileSlotSize ≤ (index + 1) * profileSlotSize :=
        Nat.mul_le_mul_right _ (Nat.le_succ _)
      rw [← Nat.min_eq_left hle, ← List.take_take, h, List.take_take, Nat.min_eq_left hle, hbefore]
    rw [hwrite, ok_bind]
    split
    · -- the setting is not there
      rename_i hstatus
      obtain ⟨found, scratch', heq, hlen, hsame, hout⟩ :=
        @ih hnodup.2 (index + 1) written hroom' present members
      refine ⟨found, scratch', heq, hlen.trans hlength, htake hsame, ?_⟩
      cases found with
      | error result =>
        exact ⟨hout.1, mt (Exists.imp fun _ hall => (List.forall_mem_cons.mp hall).2) hout.2⟩
      | ok found =>
        obtain ⟨values, hfound⟩ := hout
        exact ⟨_, hfound.cons hnodup.1 ((hmeans none).mpr (.inl ⟨hstatus, rfl⟩))
          (fun other => by simp) (fun _ _ => rfl) (fun _ h => (by cases h)) id⟩
    rename_i hmissing
    -- an answer that is not fine
    have hrefused (hstatus : answer.status ≠ .ok) : ¬∃ values : CredentialValues,
        ∀ other ∈ member :: rest, EnvironmentSays environment profile other (values other) := by
      rintro ⟨values, hall⟩
      rcases (hmeans _).mp ((List.forall_mem_cons.mp hall).1) with ⟨hnone, -⟩ | ⟨hok, -⟩
      · exact hmissing hnone
      · exact hstatus hok
    by_cases hstatus : answer.status = .ok
    · -- the string stands in its slot
      obtain ⟨string, hbytes, hrequired⟩ := hstring hstatus
      have hsize : answer.required = string.bytes.length + 1 := by
        rw [hrequired, CString.memory, List.length_append, List.length_singleton]
      rw [hbytes, CString.memory, List.length_append, List.length_singleton] at hwithin
      have hstands : Stands written (index * profileSlotSize) (string.bytes ++
          (0 :: scratch.drop (index * profileSlotSize + answer.written.length))) := by
        refine ⟨scratch.take (index * profileSlotSize), ?_, List.length_take_of_le (by omega)⟩
        simp only [written, hbytes, CString.memory, List.append_assoc, List.singleton_append]
      have hslice : slice written (index * profileSlotSize) (string.bytes.length + 1) =
        string.bytes ++ [0] := by
        obtain ⟨before, heq, hbefore⟩ := hstands
        rw [slice, heq, ← hbefore, List.drop_left, List.append_cons]
        exact List.take_left' (by rw [List.length_append, List.length_singleton])
      have hlast : byteAt written (index * profileSlotSize + (answer.required - 1)) = .ok 0 := by
        rw [hsize, Nat.add_sub_cancel]
        exact (hstands.behind rfl).byteAt
      have hsmall : ¬(answer.status = .bufferTooSmall ∨ answer.required > profileSlotSize) := by
        rw [hstatus, not_or]
        exact ⟨PlatformStatus.noConfusion, by omega⟩
      have hfine : ¬(answer.status ≠ .ok ∨ answer.required = 0) := by
        rw [not_or]
        exact ⟨not_not_intro hstatus, by omega⟩
      rw [if_neg hsmall, if_neg hfine, hlast, ok_bind, if_neg (not_not_intro rfl)]
      obtain ⟨found, scratch', heq, hlen, hsame, hout⟩ := @ih hnodup.2 (index + 1) written hroom'
        (present ||| member.field) (Function.update members member (some (index * profileSlotSize)))
      refine ⟨found, scratch', heq, hlen.trans hlength, htake hsame, ?_⟩
      cases found with
      | error result =>
        exact ⟨hout.1, mt (Exists.imp fun _ hall => (List.forall_mem_cons.mp hall).2) hout.2⟩
      | ok found =>
        obtain ⟨values, hfound⟩ := hout
        have hfield : member.field &&& ~~~credentialFieldsCurrent = 0 := by cases member <;> decide
        refine ⟨_, hfound.cons hnodup.1
          ((hmeans (some string.bytes)).mpr (.inr ⟨hstatus, string, hbytes, rfl⟩))
          (fun other => ?_) (fun other hother => Function.update_of_ne hother ..)
          (fun bytes hvalue => ?_) (fun hstray => or_and_eq_zero_iff.mpr ⟨hstray, hfield⟩)⟩
        · rw [ne_eq, or_and_eq_zero_iff, field_and_field_eq_zero_iff, not_and_or, not_not]
          exact or_congr_right (and_iff_left rfl).symm
        · cases hvalue
          refine ⟨_, Function.update_self .., cStringAt_of_take string.nul hsame ?_ hslice⟩
          rw [Nat.add_mul, Nat.one_mul]
          omega
    · have hfailed := hrefused hstatus
      split
      · exact ⟨_, _, rfl, hlength, hbefore, ConnectionStringResult.noConfusion, hfailed⟩
      · rw [if_pos (.inl hstatus)]
        exact ⟨_, _, rfl, hlength, hbefore, ConnectionStringResult.noConfusion, hfailed⟩

/-- The configuration that the loop leaves says what the environment says. -/
theorem EnvironmentFound.view {present : UInt64} {members : CredentialMember → Option ℕ}
    {scratch : List UInt8} {values : CredentialValues}
    (h : EnvironmentFound environment profile credentialMembers 0 (fun _ => none) present members
    scratch values) :
    let view := WinCredConfig.view ⟨credentialConfigSize, apiVersion, present, members⟩ scratch
    view.Formed ∧ view.values = values := by
  have hfound (member : CredentialMember) : present &&& member.field ≠ 0 ↔
    (values member).isSome := by
    rw [h.found member (mem_credentialMembers _), or_iff_right (not_not_intro UInt64.zero_and)]
  refine ⟨⟨rfl, h.stray UInt64.zero_and, fun member hmember => ?_⟩, funext fun member => ?_⟩
  · obtain ⟨value, hvalue⟩ := Option.isSome_iff_exists.mp ((hfound member).mp hmember)
    obtain ⟨offset, hoffset, -⟩ := h.shown member (mem_credentialMembers _) value hvalue
    exact Option.isSome_map.trans (congrArg Option.isSome hoffset)
  · show (if present &&& member.field ≠ 0 then
      ((members member).map (cStringAt scratch)).map CString.bytes else none) = values member
    simp only [hfound]
    cases hvalue : values member with
    | none => rfl
    | some value =>
      obtain ⟨offset, hoffset, hbytes⟩ := h.shown member (mem_credentialMembers _) value hvalue
      rw [hoffset, Option.map_some, Option.map_some, hbytes]
      rfl

theorem resolveProfileEnvironment_spec {connection : ResolvedConnection} (h : connection.Fresh)
    (arena : Arena) (hprofile : connection.normalizedProfile.length ≤ profileNameMaxLength)
    (hfaithful : FaithfulEnvironment environment) :
    ∃ result connection' arena', resolveProfileEnvironment connection arena environment =
        .ok (result, connection', arena') ∧ connection'.origin = connection.origin ∧
      connection'.Filled arena (fun origin values => origin = connection.origin ∧
        EnvironmentOffers environment connection.normalizedProfile values) result arena' := by
  have hinit : sensitiveMemoryInit ⟨⟨⟨none, false, false, false⟩, none, 0, false⟩, false⟩
      connection.storage.storage.allocator true =
      (.ok, ⟨⟨connection.storage.storage.allocator, none, 0, false⟩, true⟩) := by
    simp [sensitiveMemoryInit, ownedMemoryInit, h.sound.storage.valid]
  have hne : profileSlotSize * credentialMembers.length ≠ 0 := by decide
  unfold resolveProfileEnvironment
  dsimp only
  rw [hinit]
  dsimp only
  rcases @sensitiveMemoryAllocate_cases
    ⟨⟨connection.storage.storage.allocator, none, 0, false⟩, true⟩ rfl
    (.start h.sound.storage.valid) rfl arena _ hne with
    ⟨-, block, between, hallocate, hlength, hmoves⟩ | ⟨hdenied, arena', hallocate, hmoves⟩
  · obtain ⟨found, bytes, hloop, hbytes, -, hfound⟩ := @profileEnvironmentFields_spec environment
      connection.normalizedProfile hfaithful hprofile credentialMembers
        credentialMembers_nodup 0 block.bytes
      (by rw [hlength, Nat.zero_add, Nat.mul_comm]) 0 fun _ => none
    -- the slots, with what the platform has written into them
    let scratch : SensitiveMemory :=
      ⟨⟨connection.storage.storage.allocator, some { block with bytes },
      block.bytes.length, true⟩, true⟩
    have hscratch : scratch.storage.Sound := by
      refine ⟨h.sound.storage.valid, rfl, ?_⟩
      rintro _ ⟨⟩
      exact hbytes.symm
    have hbefore : arena.Moves [] (addressesOf scratch.storage.memory) between := hmoves
    rw [hallocate]
    simp only [sensitiveMemoryData, SensitiveMemory.withBlock, Bool.not_true, Bool.or_self,
      Bool.false_eq_true, if_false, hloop, ok_bind]
    cases found with
    | error result =>
      obtain ⟨released, scratch', arena', hrelease, ⟨lost, hlost, hzeroes⟩, -⟩ :=
        Arena.Moves.releaseScratch rfl hscratch hbefore (.refl _ [])
      rw [show sensitiveMemoryRelease scratch between = _ from hrelease]
      refine ⟨_, _, _, rfl, rfl, h.sound, fun hok => absurd hok hfound.1, ⟨lost, ?_, hzeroes⟩, ?_⟩
      · rw [h.memory]
        exact hlost
      · rintro - ⟨origin, values, -, hoffers⟩
        exact absurd ⟨values, fun member _ => hoffers.settings member⟩ hfound.2
    | ok found =>
      obtain ⟨present, members⟩ := found
      obtain ⟨values, hvalues⟩ := hfound
      obtain ⟨hformed, hshown⟩ := hvalues.view
      obtain ⟨result, connection', after, hcopy, horigin, hfilled⟩ :=
        connectionCopyConfig_formed h between hformed
      obtain ⟨kept, hkept, hkeptZeroes⟩ := hfilled.moves
      obtain ⟨released, scratch', arena', hrelease, ⟨lost, hlost, hzeroes⟩, hreleased⟩ :=
        Arena.Moves.releaseScratch rfl hscratch hbefore hkept
      have hoffers (values' : CredentialValues) :
        EnvironmentOffers environment connection.normalizedProfile values' ↔
          values' = values ∧ AcceptableValues values' := by
        constructor
        · rintro ⟨hsettings, hacceptable⟩
          exact ⟨funext fun member => (hsettings member).unique
            (hvalues.settings member (mem_credentialMembers _)), hacceptable⟩
        · rintro ⟨rfl, hacceptable⟩
          exact ⟨fun member => hvalues.settings member (mem_credentialMembers _), hacceptable⟩
      have hall : ∃ lost,
        arena.Moves [] (addressesOf connection'.storage.storage.memory ++ lost) arena' ∧
          (arena.Zeroes → lost = []) := by
        refine ⟨kept ++ lost, by rwa [← List.append_assoc], fun hzero => ?_⟩
        rw [hkeptZeroes (hbefore.zeroes hzero), hzeroes hzero]
        rfl
      simp only [hcopy, ok_bind]
      rw [show sensitiveMemoryRelease scratch after = _ from hrelease]
      by_cases hok : released = .ok
      · subst hok
        refine ⟨_, _, _, rfl, horigin, hfilled.sound, fun hresult => ?_, hall,
          fun hgenerous hsome => ?_⟩
        · obtain ⟨values', ⟨hfrom, hsame, hacceptable⟩, hholds⟩ := hfilled.outcome hresult
          exact ⟨values', ⟨hfrom, (hoffers values').mpr ⟨hsame.trans hshown, hacceptable⟩⟩, hholds⟩
        · obtain ⟨origin, values', hfrom, hoffer⟩ := hsome
          obtain ⟨hsame, hacceptable⟩ := (hoffers values').mp hoffer
          exact hfilled.complete (hbefore.generous hgenerous)
            ⟨origin, values', hfrom, hsame.trans hshown.symm, hacceptable⟩
      · refine ⟨.cleanupFailed, connection', arena', ?_, horigin, hfilled.sound,
          fun hresult => ConnectionStringResult.noConfusion hresult, hall,
          fun hgenerous _ => absurd (hreleased hgenerous.2) hok⟩
        cases released with
        | ok => exact absurd rfl hok
        | _ => rfl
  · rw [hallocate]
    refine ⟨_, _, _, rfl, rfl,
      .refused h ConnectionStringResult.noConfusion hmoves fun hgenerous => ?_⟩
    rw [hgenerous.granted] at hdenied
    cases hdenied

end Environment

end Vps
