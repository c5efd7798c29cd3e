import VirtualPostgreSQL.Credential.Resolved
import VirtualPostgreSQL.Machinery.Count
import VirtualPostgreSQL.Machinery.Run

/-!
# Credential/Protocol — the registry across interleavings

The registry, seen with the threads that are between the sections of a resolve, is a broker
(`CredentialSystem.broker`): each step of the code is one that a broker may do
(`CredentialSystem.Sound.simulates`).  `credential_registry_protocol` is the result: whatever the
threads, the providers, the allocator and the mutex do, `active_resolves` counts who is in, nobody's
provider is replaced, and each lease is given back once, to the provider it is from.
-/

namespace Vps

open Machinery

/-! ## The registry is a broker -/

/-- The provider that is registered, with its id and generation. -/
def CredentialRegistry.registration (registry : CredentialRegistry) : Option ResolveCall :=
  if registry.registered then
    some ⟨registry.provider, registry.providerId, registry.generation⟩
  else none

/-- A lease is held until it is given back. -/
def ResolveStage.stage : ResolveStage → Stage CredentialLease
  | .calling => .asking
  | .leased lease => .holding lease
  | .copied lease _ => .holding lease
  | .finishing _ => .leaving

/-- A thread as a caller of the broker. -/
def ResolveThread.caller (thread : ResolveThread) : BrokerCall ResolveCall CredentialLease :=
  ⟨thread.key, thread.call, thread.stage.stage⟩

/-- **The registry as a broker.** -/
def CredentialSystem.broker (s : CredentialSystem) : Broker ResolveCall CredentialLease where
  registered := s.registry.registration
  used := s.registry.resolveStarted
  calls := s.threads.map ResolveThread.caller
  next := s.next
  log := s.log

/-! ## What holds at any time -/

/-- What the object of a successful resolve shows, and of which registration. -/
def ResolvedCredential.Shows (resolved : ResolvedCredential) (call : ResolveCall)
    (lease : CredentialLease) : Prop :=
  resolved.providerId = call.providerId ∧ resolved.generation = call.generation ∧
    ∃ source, lease.config = some source ∧ source.Accepted ∧ resolved.HoldsConfig source

/-- A thread in the middle: its object is as it was given, or holds the configuration of its
lease. -/
def ResolveThread.Good (log : List (LedgerEvent (ℕ × ResolveCall × CredentialLease)))
    (thread : ResolveThread) : Prop :=
  thread.given.Empty ∧
    match thread.stage with
    | .calling => thread.resolved = thread.given
    | .leased lease =>
      thread.resolved = thread.given ∧ .acquired (thread.key, thread.call, lease) ∈ log
    | .copied lease result =>
      .acquired (thread.key, thread.call, lease) ∈ log ∧
        ((result = .ok ∧ ∃ source, lease.config = some source ∧ source.Accepted ∧
            thread.resolved.HoldsConfig source) ∨
          (result ≠ .ok ∧ thread.resolved = thread.given))
    | .finishing result =>
      (result = .ok ∧ ∃ lease, .acquired (thread.key, thread.call, lease) ∈ log ∧
          thread.resolved.Shows thread.call lease) ∨
        (result ≠ .ok ∧ thread.resolved = thread.given)

/-- A resolve that has returned: it failed and left its object alone, or it gave what a lease
showed. -/
def ResolveReturn.Good (log : List (LedgerEvent (ℕ × ResolveCall × CredentialLease)))
    (returned : ResolveReturn) : Prop :=
  (returned.result = .ok ∧ ∃ key call lease, returned.key = some key ∧
      .acquired (key, call, lease) ∈ log ∧ returned.resolved.Shows call lease) ∨
    (returned.result ≠ .ok ∧ returned.resolved = returned.given)

/-- **What holds at any time.** -/
structure CredentialSystem.Sound (s : CredentialSystem) : Prop where
  broker : s.broker.Sound
  count : s.registry.activeResolves.toNat = s.threads.length + s.stranded
  threads : ∀ thread ∈ s.threads, thread.Good s.log
  returned : ∀ returned ∈ s.returned, returned.Good s.log

section Good

variable {log : List (LedgerEvent (ℕ × ResolveCall × CredentialLease))}
  {event : LedgerEvent (ℕ × ResolveCall × CredentialLease)}

/-- What has happened stays so. -/
theorem ResolveThread.Good.cons {thread : ResolveThread} (h : thread.Good log) :
    thread.Good (event :: log) := by
  obtain ⟨key, call, given, resolved, stage⟩ := thread
  obtain ⟨hgiven, h⟩ := h
  refine ⟨hgiven, ?_⟩
  cases stage with
  | calling => exact h
  | leased lease => exact ⟨h.1, List.mem_cons_of_mem _ h.2⟩
  | copied lease result => exact ⟨List.mem_cons_of_mem _ h.1, h.2⟩
  | finishing result =>
    exact h.imp_left fun ⟨hresult, lease, hlease, hshows⟩ =>
      ⟨hresult, lease, List.mem_cons_of_mem _ hlease, hshows⟩

theorem ResolveReturn.Good.cons {returned : ResolveReturn} (h : returned.Good log) :
    returned.Good (event :: log) :=
  Or.imp_left (fun ⟨hresult, key, call, lease, hkey, hlease, hshows⟩ =>
    ⟨hresult, key, call, lease, hkey, List.mem_cons_of_mem _ hlease, hshows⟩) h

end Good

/-! ## The sections -/

section Sections

variable (registry : CredentialRegistry) (mutex : MutexAnswer)

/-- What a registration does: nothing, or it puts a provider where none was used. -/
theorem credentialRegistryRegister_cases (providerId : UInt64)
    (provider : Option CredentialProvider) :
    (credentialRegistryRegister registry providerId provider mutex).2 = registry ∨
      (registry.resolveStarted = false ∧ ∃ copied generation,
        (credentialRegistryRegister registry providerId provider mutex).2 = { registry with
          provider := copied, providerId := providerId, generation := generation,
            registered := true }) := by
  unfold credentialRegistryRegister
  split
  · exact .inl rfl
  split
  · split
    · exact .inl rfl
    split
    · exact .inl rfl
    split
    · exact .inl rfl
    · rename_i hstarted _
      exact .inr ⟨Bool.eq_false_iff.mpr hstarted, _, _, rfl⟩
  · exact .inl rfl

/-- **What the first section does.** -/
inductive EnterEffect (registry : CredentialRegistry) (resolved : ResolvedCredential) :
    CredentialRegistry × Except CredentialRegistryResult ResolveCall → Prop
  | refused {result : CredentialRegistryResult} (failed : result ≠ .ok) :
      EnterEffect registry resolved (registry, .error result)
  | busy : EnterEffect registry resolved ({ registry with resolveStarted := true }, .error .busy)
  /-- The mutex could not be unlocked. -/
  | stranded (room : registry.activeResolves ≠ 0xffffffffffffffff) :
      EnterEffect registry resolved ({ registry with
        resolveStarted := true, activeResolves := registry.activeResolves + 1 },
          .error .platformError)
  | entered {call : ResolveCall} (current : registry.registration = some call)
      (room : registry.activeResolves ≠ 0xffffffffffffffff)
      (initialized : resolved.initialized = true) (owned : resolved.storage.storage.owned = false) :
      EnterEffect registry resolved ({ registry with
        resolveStarted := true, activeResolves := registry.activeResolves + 1 }, .ok call)

theorem credentialResolveEnter_effect (reference : Option (List UInt8))
    (resolved : ResolvedCredential) :
    EnterEffect registry resolved (credentialResolveEnter registry reference resolved mutex) := by
  unfold credentialResolveEnter
  cases reference with
  | none => exact .refused (by decide)
  | some reference =>
    dsimp only
    split
    · exact .refused (by decide)
    rename_i haccepted
    split
    · exact .refused (by decide)
    split
    · exact .refused (by decide)
    split
    · exact .busy
    rename_i hregistered hroom
    split
    · simp only [Bool.or_eq_true, not_or, Bool.not_eq_true', Bool.not_eq_false, Bool.not_eq_true]
        at haccepted
      refine .entered ?_ hroom haccepted.1.1.1.1.2 haccepted.1.1.1.2
      rw [CredentialRegistry.registration, if_pos (by simpa using hregistered)]
    · exact .stranded hroom

@[simp] theorem credentialResolveFinish_registration :
    (credentialResolveFinish registry mutex).registration = registry.registration := by
  unfold credentialResolveFinish
  split
  · rfl
  · split <;> rfl

@[simp] theorem credentialResolveFinish_resolveStarted :
    (credentialResolveFinish registry mutex).resolveStarted = registry.resolveStarted := by
  unfold credentialResolveFinish
  split
  · rfl
  · split <;> rfl

theorem credentialResolveFinish_activeResolves (h : registry.activeResolves.toNat ≠ 0) :
    (credentialResolveFinish registry mutex).activeResolves.toNat + 1 =
      registry.activeResolves.toNat + (!mutex.lock).toNat := by
  have hne : registry.activeResolves ≠ 0 := fun heq => h (by rw [heq]; rfl)
  unfold credentialResolveFinish
  cases mutex.lock with
  | false => rfl
  | true =>
    simp only [Bool.not_true, Bool.false_eq_true, if_false, hne, ne_eq, not_false_iff, if_true,
      toNat_pred hne, Bool.toNat_false]
    omega

/-- **What a cleanup does**: nothing while anybody is in. -/
theorem credentialRegistryCleanup_cases (destroyed : Bool) :
    (credentialRegistryCleanup registry mutex destroyed).2 = registry ∨
      (registry.activeResolves = 0 ∧ ∃ initialized,
        (credentialRegistryCleanup registry mutex destroyed).2 = { registry with
          registered := false, provider := ⟨⟨0, 0, 0⟩, 0, 0, 0⟩, initialized := initialized }) := by
  unfold credentialRegistryCleanup
  split
  · exact .inl rfl
  split
  · exact .inl rfl
  split
  · exact .inl rfl
  rename_i hactive
  rw [not_not] at hactive
  split
  · exact .inr ⟨hactive, _, rfl⟩
  split
  · exact .inr ⟨hactive, _, rfl⟩
  · exact .inr ⟨hactive, _, rfl⟩

end Sections

/-! ## Steps -/

/-- What the environment is trusted with: an object that says so was initialised.  One that holds a
configuration may be passed too; it is refused. -/
def CredentialTrusted (_ : CredentialSystem) : CredentialEvent → Prop
  | .enter _ resolved _ => resolved.initialized = true → resolved.Formed
  | _ => True

namespace CredentialSystem

variable {s : CredentialSystem} {key : ℕ} {thread : ResolveThread}

/-- The thread that was found, and the others. -/
theorem find_thread (h : s.threads.find? (·.key == key) = some thread) :
    thread.key = key ∧ s.threads.Perm (thread :: s.threads.eraseP (·.key == key)) :=
  ⟨by simpa using List.find?_some h, perm_eraseP_of_find? h⟩

namespace Sound

/-- A thread that goes on takes the place of what it was. -/
theorem proceed (h : Sound s) (hfind : s.threads.find? (·.key == key) = some thread)
    (thread' : ResolveThread) (hkey : thread'.key = thread.key)
    {log : List (LedgerEvent (ℕ × ResolveCall × CredentialLease))}
    (hlog : log = s.log ∨ ∃ event, log = event :: s.log) (hgood : thread'.Good log)
    {arena : Arena} (hbroker : Broker.Step s.broker { s.proceed thread' with log, arena }.broker) :
    Sound { s.proceed thread' with log, arena } := by
  obtain ⟨hthread, hperm⟩ := find_thread hfind
  have hmem {t : ResolveThread} (ht : t ∈ s.threads.eraseP (·.key == thread'.key)) :
    t ∈ s.threads :=
    List.mem_of_mem_eraseP ht
  have hthreads (t : ResolveThread) (ht : t ∈ s.threads) : t.Good log := by
    rcases hlog with rfl | ⟨event, rfl⟩
    · exact h.threads t ht
    · exact (h.threads t ht).cons
  refine ⟨hbroker.sound h.broker, ?_, ?_, fun returned hreturned => ?_⟩
  · have hcount := h.count
    rw [hperm.length_eq, List.length_cons] at hcount
    show s.registry.activeResolves.toNat =
      (thread' :: s.threads.eraseP (·.key == thread'.key)).length + _
    rw [List.length_cons, hkey, hthread]
    exact hcount
  · exact List.forall_mem_cons.mpr ⟨hgood, fun t ht => hthreads t (hmem ht)⟩
  · rcases hlog with rfl | ⟨event, rfl⟩
    · exact h.returned returned hreturned
    · exact (h.returned returned hreturned).cons

/-- The callers, with the one that was found in front. -/
theorem callers (hfind : s.threads.find? (·.key == key) = some thread) :
    s.broker.calls.Perm (thread.caller ::
      (s.threads.eraseP (·.key == thread.key)).map ResolveThread.caller) := by
  obtain ⟨hthread, hperm⟩ := find_thread hfind
  have hcallers := hperm.map ResolveThread.caller
  rwa [hthread]

theorem step (h : Sound s) (e : CredentialEvent) (htrusted : CredentialTrusted s e) :
    Broker.Step s.broker (s.step e).broker ∧ Sound (s.step e) := by
  cases e with
  | register providerId provider mutex =>
    rcases credentialRegistryRegister_cases s.registry mutex providerId provider
      with heq | ⟨hunused, copied, generation, heq⟩
    · simp only [CredentialSystem.step, heq]
      exact ⟨.stay _, h⟩
    · have hbroker :
        Broker.Step s.broker (s.step (.register providerId provider mutex)).broker := by
        simp only [CredentialSystem.step, heq]
        exact Broker.Step.put (b := s.broker) ⟨copied, providerId, generation⟩ hunused
      refine ⟨hbroker, hbroker.sound h.broker, ?_, h.threads, h.returned⟩
      simp only [CredentialSystem.step, heq]
      exact h.count
  | enter reference resolved mutex =>
    have heffect := credentialResolveEnter_effect s.registry mutex reference resolved
    simp only [CredentialSystem.step]
    generalize credentialResolveEnter s.registry reference resolved mutex = out at heffect ⊢
    cases heffect with
    | refused hfailed =>
      dsimp only
      refine ⟨.stay _, h.broker, ?_, h.threads,
        List.forall_mem_cons.mpr ⟨.inr ⟨hfailed, rfl⟩, h.returned⟩⟩
      rw [if_pos rfl]
      exact h.count
    | busy =>
      dsimp only
      have hbroker : Broker.Step s.broker { s.broker with used := true } := .mark _
      refine ⟨hbroker, hbroker.sound h.broker, ?_, h.threads,
        List.forall_mem_cons.mpr ⟨.inr ⟨CredentialRegistryResult.noConfusion, rfl⟩, h.returned⟩⟩
      rw [if_pos rfl]
      exact h.count
    | stranded hroom =>
      dsimp only
      have hbroker : Broker.Step s.broker { s.broker with used := true } := .mark _
      refine ⟨hbroker, hbroker.sound h.broker, ?_, h.threads,
        List.forall_mem_cons.mpr ⟨.inr ⟨CredentialRegistryResult.noConfusion, rfl⟩, h.returned⟩⟩
      have hne : s.registry.activeResolves + 1 ≠ s.registry.activeResolves := fun heq => by
        have hsucc := toNat_succ hroom
        rw [heq] at hsucc
        omega
      have hcount := h.count
      rw [if_neg hne]
      show (s.registry.activeResolves + 1).toNat = s.threads.length + (s.stranded + 1)
      rw [toNat_succ hroom]
      omega
    | @entered call hcurrent hroom hinitialized howned =>
      dsimp only
      have hempty : resolved.Empty := (htrusted hinitialized).empty hinitialized howned
      have hbroker : Broker.Step s.broker { s.broker with
          used := true, calls := ⟨s.next, call, .asking⟩ :: s.broker.calls, next := s.next + 1 } :=
        .enter hcurrent
      refine ⟨hbroker, hbroker.sound h.broker, ?_,
        List.forall_mem_cons.mpr ⟨⟨hempty, rfl⟩, h.threads⟩, h.returned⟩
      have hcount := h.count
      show (s.registry.activeResolves + 1).toNat = (s.threads.length + 1) + s.stranded
      rw [toNat_succ hroom]
      omega
  | answer key answer =>
    simp only [CredentialSystem.step]
    split
    · rename_i key' call given resolved hfind
      have hgood := h.threads _ (List.mem_of_find?_eq_some hfind)
      have hcallers := callers hfind
      split
      · have hbroker : Broker.Step s.broker
            (s.proceed ⟨key', call, given, resolved, .finishing .resolveFailed⟩).broker :=
              .refuse hcallers
        refine ⟨hbroker,
          h.proceed hfind ⟨key', call, given, resolved, .finishing .resolveFailed⟩ rfl
          (.inl rfl) ⟨hgood.1, ?_⟩ hbroker⟩
        exact .inr ⟨CredentialRegistryResult.noConfusion, hgood.2⟩
      · have hbroker : Broker.Step s.broker
            { s.proceed ⟨key', call, given, resolved, .leased answer.lease⟩ with
              log := .acquired (key', call, answer.lease) :: s.log }.broker := .acquire _ hcallers
        exact ⟨hbroker, h.proceed hfind ⟨key', call, given, resolved, .leased answer.lease⟩ rfl
          (.inr ⟨_, rfl⟩) ⟨hgood.1, hgood.2, List.mem_cons_self⟩ hbroker⟩
    · exact ⟨.stay _, h⟩
  | copy key =>
    simp only [CredentialSystem.step]
    split
    · rename_i key' call given resolved lease hfind
      obtain ⟨hgiven, hsame, hlease⟩ := h.threads _ (List.mem_of_find?_eq_some hfind)
      obtain rfl : resolved = given := hsame
      obtain ⟨result, resolved', arena, heq, hcopied⟩ :=
        credentialResolveCopy_spec hgiven s.arena lease
      have hcases : (result = .ok ∧ ∃ source, lease.config = some source ∧ source.Accepted ∧
          resolved'.HoldsConfig source) ∨ (result ≠ .ok ∧ resolved' = resolved) :=
        hcopied.outcome.imp_left fun ⟨hok, source, hshows, hholds⟩ =>
          ⟨hok, source, hshows.config, hshows.accepted, hholds⟩
      rw [heq]
      have hcallers := callers hfind
      have hbroker : Broker.Step s.broker
          { s.proceed ⟨key', call, resolved, resolved', .copied lease result⟩ with arena }.broker :=
        .reorder hcallers
      exact ⟨hbroker, h.proceed hfind ⟨key', call, resolved, resolved', .copied lease result⟩ rfl
        (.inl rfl) ⟨hgiven, hlease, hcases⟩ hbroker⟩
    · exact ⟨.stay _, h⟩
  | release key =>
    simp only [CredentialSystem.step]
    split
    · rename_i key' call given resolved lease result hfind
      obtain ⟨hgiven, hlease, hcases⟩ := h.threads _ (List.mem_of_find?_eq_some hfind)
      have hcallers := callers hfind
      have hbroker : Broker.Step s.broker
          { s.proceed ⟨key', call, given, credentialResolveNote call result resolved,
              .finishing result⟩
            with log := .released (key', call, lease) :: s.log }.broker := .release hcallers
      refine ⟨hbroker, h.proceed hfind
        ⟨key', call, given, credentialResolveNote call result resolved, .finishing result⟩ rfl
        (.inr ⟨_, rfl⟩) ⟨hgiven, ?_⟩ hbroker⟩
      rcases hcases with ⟨rfl, source, hsource, haccepted, hholds⟩ | ⟨hfailed, hsame⟩
      · exact .inl ⟨rfl, lease, List.mem_cons_of_mem _ hlease, rfl, rfl, source, hsource,
          haccepted, hholds⟩
      · refine .inr ⟨hfailed, ?_⟩
        show credentialResolveNote call result resolved = given
        rw [credentialResolveNote, if_neg hfailed]
        exact hsame
    · exact ⟨.stay _, h⟩
  | leave key mutex =>
    simp only [CredentialSystem.step]
    split
    · rename_i key' call given resolved result hfind
      obtain ⟨hkey, hperm⟩ := find_thread hfind
      obtain ⟨hgiven, hcases⟩ := h.threads _ (List.mem_of_find?_eq_some hfind)
      have hcallers := callers hfind
      rw [hkey] at hcallers
      have hbroker : Broker.Step s.broker { s.broker with
          calls := (s.threads.eraseP (·.key == key)).map ResolveThread.caller } := .leave hcallers
      have hview : CredentialSystem.broker { s with
          registry := credentialResolveFinish s.registry mutex
          threads := s.threads.eraseP (·.key == key)
          returned := ⟨some key, given, result, resolved⟩ :: s.returned
          stranded := if mutex.lock then s.stranded else s.stranded + 1 } = { s.broker with
          calls := (s.threads.eraseP (·.key == key)).map ResolveThread.caller } := by
        simp [CredentialSystem.broker]
      rw [hview]
      refine ⟨hbroker, ?_, ?_, fun t ht => h.threads t (List.mem_of_mem_eraseP ht),
        List.forall_mem_cons.mpr ⟨?_, h.returned⟩⟩
      · rw [hview]
        exact hbroker.sound h.broker
      · have hcount := h.count
        rw [hperm.length_eq, List.length_cons] at hcount
        have hfinish := credentialResolveFinish_activeResolves s.registry mutex (by omega)
        show (credentialResolveFinish s.registry mutex).activeResolves.toNat =
          (s.threads.eraseP (·.key == key)).length +
            if mutex.lock then s.stranded else s.stranded + 1
        cases hlock : mutex.lock with
        | false =>
          rw [hlock] at hfinish
          simp only [Bool.not_false, Bool.toNat_true] at hfinish
          simp only [Bool.false_eq_true, if_false]
          omega
        | true =>
          rw [hlock] at hfinish
          simp only [Bool.not_true, Bool.toNat_false] at hfinish
          simp only [if_true]
          omega
      · rcases hcases with ⟨hresult, lease, hlease, hshows⟩ | hfailed
        · exact .inl ⟨hresult, _, call, lease, congrArg some hkey.symm, hlease, hshows⟩
        · exact .inr hfailed
    · exact ⟨.stay _, h⟩
  | cleanup mutex destroyed =>
    rcases credentialRegistryCleanup_cases s.registry mutex destroyed
      with heq | ⟨hzero, initialized, heq⟩
    · simp only [CredentialSystem.step, heq]
      exact ⟨.stay _, h⟩
    · have hempty : s.threads = [] := by
        have hcount := h.count
        rw [hzero, UInt64.toNat_zero] at hcount
        exact List.length_eq_zero_iff.mp (by omega)
      have hbroker : Broker.Step s.broker (s.step (.cleanup mutex destroyed)).broker := by
        simp only [CredentialSystem.step, heq]
        exact .clear s.registry.resolveStarted (by rw [CredentialSystem.broker, hempty]; rfl)
      refine ⟨hbroker, hbroker.sound h.broker, ?_, h.threads, h.returned⟩
      simp only [CredentialSystem.step, heq]
      exact h.count

end Sound

/-- Nobody has come in yet. -/
theorem Sound.start (answers : ℕ → MemoryAnswer) : Sound (start answers) :=
  ⟨.start _ _, rfl, List.forall_mem_nil _, List.forall_mem_nil _⟩

theorem Sound.run (h : Sound s) {es : List CredentialEvent}
    (hrun : Along CredentialTrusted CredentialSystem.step s es) :
    Sound (es.foldl CredentialSystem.step s) :=
  hrun.invariant Sound (fun _ e hs htrusted => (hs.step e htrusted).2) h

/-- Once a resolve has begun, a step leaves the registration, or takes it away. -/
theorem step_started (h : s.registry.resolveStarted = true) (e : CredentialEvent) :
    (s.step e).registry.resolveStarted = true ∧
      ((s.step e).registry.registration = s.registry.registration ∨
        (s.step e).registry.registration = none) := by
  cases e with
  | register providerId provider mutex =>
    rcases credentialRegistryRegister_cases s.registry mutex providerId provider
      with heq | ⟨hunused, -⟩
    · simp only [CredentialSystem.step, heq]
      exact ⟨h, .inl trivial⟩
    · rw [h] at hunused
      cases hunused
  | enter reference resolved mutex =>
    have heffect := credentialResolveEnter_effect s.registry mutex reference resolved
    simp only [CredentialSystem.step]
    generalize credentialResolveEnter s.registry reference resolved mutex = out at heffect ⊢
    cases heffect with
    | refused => exact ⟨h, .inl rfl⟩
    | busy | stranded | entered => exact ⟨rfl, .inl rfl⟩
  | answer key answer =>
    simp only [CredentialSystem.step]
    split
    · split <;> exact ⟨h, .inl rfl⟩
    · exact ⟨h, .inl rfl⟩
  | copy key =>
    simp only [CredentialSystem.step]
    split
    · split <;> exact ⟨h, .inl rfl⟩
    · exact ⟨h, .inl rfl⟩
  | release key =>
    simp only [CredentialSystem.step]
    split <;> exact ⟨h, .inl rfl⟩
  | leave key mutex =>
    simp only [CredentialSystem.step]
    split
    · rw [credentialResolveFinish_resolveStarted, credentialResolveFinish_registration]
      exact ⟨h, .inl rfl⟩
    · exact ⟨h, .inl rfl⟩
  | cleanup mutex destroyed =>
    rcases credentialRegistryCleanup_cases s.registry mutex destroyed
      with heq | ⟨-, initialized, heq⟩
    · simp only [CredentialSystem.step, heq]
      exact ⟨h, .inl trivial⟩
    · simp only [CredentialSystem.step, heq]
      exact ⟨h, .inr rfl⟩

/-- **Once a resolve has begun, no provider is ever put in the place of another.** -/
theorem run_started (h : s.registry.resolveStarted = true) (es : List CredentialEvent) :
    (es.foldl CredentialSystem.step s).registry.registration = s.registry.registration ∨
      (es.foldl CredentialSystem.step s).registry.registration = none := by
  induction es generalizing s with
  | nil => exact .inl rfl
  | cons e es ih =>
    obtain ⟨hstarted, hnext⟩ := step_started h e
    refine (ih hstarted).elim (fun heq => ?_) .inr
    rw [List.foldl_cons, heq]
    exact hnext

/-- A cleanup that succeeds finds nobody in. -/
theorem Sound.cleanup (h : Sound s) {mutex : MutexAnswer} {destroyed : Bool}
    (hinit : s.registry.initialized = true)
    (hok : (credentialRegistryCleanup s.registry mutex destroyed).1 = .ok) : s.threads = [] := by
  have hcount := h.count
  unfold credentialRegistryCleanup at hok
  rw [hinit] at hok
  simp only [Bool.not_true, Bool.false_eq_true, if_false] at hok
  split at hok
  · cases hok
  split at hok
  · cases hok
  rename_i hactive
  rw [not_not.mp hactive, UInt64.toNat_zero] at hcount
  exact List.length_eq_zero_iff.mp (by omega)

end CredentialSystem

/-- The lease that a thread has to give back. -/
def ResolveThread.Holds (thread : ResolveThread) (lease : CredentialLease) : Prop :=
  thread.stage = .leased lease ∨ ∃ result, thread.stage = .copied lease result

theorem ResolveThread.holds_of_held {thread : ResolveThread} {r : ℕ × ResolveCall × CredentialLease}
    (h : thread.caller.held = some r) :
    thread.key = r.1 ∧ thread.call = r.2.1 ∧ thread.Holds r.2.2 := by
  obtain ⟨key, call, given, resolved, stage⟩ := thread
  cases stage with
  | calling => cases h
  | leased lease =>
    cases h
    exact ⟨rfl, rfl, .inl rfl⟩
  | copied lease result =>
    cases h
    exact ⟨rfl, rfl, .inr ⟨result, rfl⟩⟩
  | finishing result => cases h

section Alone

variable {registry : CredentialRegistry} {reference : Option (List UInt8)}
    {resolved : ResolvedCredential}

/-- **When a registry lets somebody in.** -/
structure CredentialRegistry.Admits (registry : CredentialRegistry)
    (reference : Option (List UInt8)) (mutex : MutexAnswer) : Prop where
  initialized : registry.initialized = true
  registered : registry.registered = true
  room : registry.activeResolves ≠ 0xffffffffffffffff
  mutex : mutex.lock = true ∧ mutex.unlock = true
  reference : ∃ bytes, reference = some bytes ∧ bytes.length ≠ 0 ∧ bytes.length ≤ 1024 ∧
    (utf8IsValidAt bytes true).toOption = some true

theorem credentialResolveEnter_of_admits {mutex : MutexAnswer} (h : registry.Admits reference mutex)
    (hempty : resolved.Empty) : credentialResolveEnter registry reference resolved mutex =
      ({ registry with resolveStarted := true, activeResolves := registry.activeResolves + 1 },
        .ok ⟨registry.provider, registry.providerId, registry.generation⟩) := by
  obtain ⟨hinit, hregistered, hroom, ⟨hlock, hunlock⟩, bytes, rfl, hne, hle, hutf8⟩ := h
  have howned : resolved.storage.storage.owned = false := by
    rw [hempty.storage.owned, hempty.memory]
    rfl
  simp [credentialResolveEnter, hinit, hempty.initialized.1, howned, hne,
    Nat.not_lt.mpr hle, hutf8, hlock, hregistered, hroom, hunlock]

/-- Whoever is let in was admitted. -/
theorem admits_of_credentialResolveEnter {mutex : MutexAnswer} {registry' : CredentialRegistry}
    {call : ResolveCall}
    (h : credentialResolveEnter registry reference resolved mutex = (registry', .ok call)) :
    registry.Admits reference mutex ∧
      call = ⟨registry.provider, registry.providerId, registry.generation⟩ := by
  unfold credentialResolveEnter at h
  cases reference with
  | none => cases h
  | some bytes =>
    dsimp only at h
    split at h
    · cases h
    rename_i haccepted
    split at h
    · cases h
    rename_i hlock
    split at h
    · cases h
    rename_i hregistered
    split at h
    · cases h
    rename_i hroom
    split at h
    · rename_i hunlock
      simp only [Bool.or_eq_true, not_or, Bool.not_eq_true, Bool.not_eq_eq_eq_not, Bool.not_true,
        Bool.not_eq_false, beq_eq_false_iff_ne, decide_eq_false_iff_not, not_lt] at haccepted
      obtain ⟨⟨⟨⟨⟨hinit, -⟩, -⟩, hne⟩, hle⟩, hutf8⟩ := haccepted
      cases h
      refine ⟨⟨hinit, by simpa using hregistered, hroom, ⟨by simpa using hlock, hunlock⟩, bytes,
        rfl, hne, hle, ?_⟩, rfl⟩
      cases hvalid : (utf8IsValidAt bytes true).toOption with
      | none =>
        rw [hvalid] at hutf8
        cases hutf8
      | some valid =>
        rw [hvalid] at hutf8
        exact congrArg some hutf8
    · cases h

/-- **What a resolve gives**, when nothing comes between its parts. -/
theorem credentialRegistryResolve_spec (hempty : resolved.Empty) (arena : Arena)
    (answer : CredentialAnswer) (enter leave : MutexAnswer) :
    ∃ result registry' resolved' arena',
      credentialRegistryResolve registry reference resolved arena answer
        enter leave = .ok (result, registry', resolved', arena') ∧
      resolved.Copied arena (fun source => registry.Admits reference enter ∧ answer.status = 0 ∧
        answer.lease.Shows source) result resolved' arena' ∧
      (result = .ok → resolved'.providerId = registry.providerId ∧
        resolved'.generation = registry.generation) ∧
      registry'.registration = registry.registration := by
  unfold credentialRegistryResolve
  have heffect := credentialResolveEnter_effect registry enter reference resolved
  cases henter :
    credentialResolveEnter registry reference resolved enter with | mk registry' outcome => ?_
  rw [henter] at heffect
  cases outcome with
  | error result =>
    have hnone : ∀ source,
      ¬(registry.Admits reference enter ∧ answer.status = 0 ∧ answer.lease.Shows source) :=
      fun _ ⟨hadmits, _⟩ => by
        rw [credentialResolveEnter_of_admits hadmits hempty] at henter
        cases henter
    have hfailed : result ≠ .ok := by
      cases heffect with
      | refused hfailed => exact hfailed
      | busy | stranded => exact CredentialRegistryResult.noConfusion
    refine ⟨_, _, _, _, rfl, .refused hempty hfailed (.refl _ _) fun _ => hnone,
      fun hok => absurd hok hfailed, ?_⟩
    cases heffect <;> rfl
  | ok call =>
    obtain ⟨hadmits, rfl⟩ := admits_of_credentialResolveEnter henter
    have hregistration : registry'.registration = registry.registration := by cases heffect; rfl
    dsimp only
    split
    · rename_i hstatus
      exact ⟨_, _, _, _, rfl, .refused hempty CredentialRegistryResult.noConfusion (.refl _ _)
        fun _ _ hall => hstatus hall.2.1, fun hok => (by cases hok),
        (credentialResolveFinish_registration registry' leave).trans hregistration⟩
    · rename_i hstatus
      rw [not_not] at hstatus
      obtain ⟨result, resolved', arena', heq, hcopied⟩ :=
        credentialResolveCopy_spec hempty arena answer.lease
      rw [heq]
      refine ⟨_, _, _, _, rfl, ?_, fun hok => ?_,
        (credentialResolveFinish_registration registry' leave).trans hregistration⟩
      · rcases hcopied.outcome with ⟨rfl, source, hshows, hholds⟩ | ⟨hfailed, rfl⟩
        · exact ⟨.inl ⟨rfl, source, ⟨hadmits, hstatus, hshows⟩, hholds⟩, hcopied.initialized,
            hcopied.moves, fun _ _ => rfl⟩
        · rw [credentialResolveNote, if_neg hfailed]
          exact ⟨.inr ⟨hfailed, rfl⟩, hcopied.initialized, hcopied.moves,
            fun hgenerous ⟨source, hsource⟩ => hcopied.complete hgenerous ⟨source, hsource.2.2⟩⟩
      · rw [credentialResolveNote, if_pos hok]
        exact ⟨rfl, rfl⟩

/-- **Such a resolve is a run of the protocol**: the thread comes in, asks, copies, gives back, and
leaves. -/
theorem credentialRegistryResolve_run (s : CredentialSystem) {answer : CredentialAnswer}
    {enter leave : MutexAnswer} {result : CredentialRegistryResult} {registry' : CredentialRegistry}
    {resolved' : ResolvedCredential} {arena' : Arena}
    (h : credentialRegistryResolve s.registry reference resolved s.arena answer enter leave =
      .ok (result, registry', resolved', arena'))
    (hkey : ∀ thread ∈ s.threads, thread.key ≠ s.next) :
    ∃ key, let s' :=
  [.enter reference resolved enter, .answer s.next answer, .copy s.next, .release s.next,
        .leave s.next leave].foldl CredentialSystem.step s
      s'.registry = registry' ∧ s'.arena = arena' ∧ s'.threads = s.threads ∧
        s'.returned = ⟨key, resolved, result, resolved'⟩ :: s.returned := by
  have hnone : s.threads.find? (·.key == s.next) = none :=
    List.find?_eq_none.mpr fun thread hthread => by simpa using hkey thread hthread
  unfold credentialRegistryResolve at h
  cases henter :
    credentialResolveEnter s.registry reference resolved enter with | mk entered outcome => ?_
  rw [henter] at h
  cases outcome with
  | error failed =>
    cases h
    exact ⟨none, by simp [CredentialSystem.step, henter, hnone]⟩
  | ok call =>
    dsimp only at h
    split at h
    · rename_i hstatus
      cases h
      exact ⟨some s.next, by
        simp [CredentialSystem.step, henter, hstatus, CredentialSystem.proceed]⟩
    · rename_i hstatus
      cases hcopy : credentialResolveCopy answer.lease resolved s.arena with
      | error fault =>
        rw [hcopy] at h
        cases h
      | ok copied =>
        obtain ⟨copyResult, copied, copyArena⟩ := copied
        rw [hcopy] at h
        cases h
        exact ⟨some s.next, by
          simp [CredentialSystem.step, henter, hstatus, CredentialSystem.proceed, hcopy]⟩

end Alone

/-- A provider, and an object for its credentials. -/
def plainProvider : CredentialProvider := ⟨⟨72, apiVersion, 7⟩, 1, 2, 3⟩

def plainResolved : ResolvedCredential :=
  (resolvedCredentialInit ⟨some .system, true, true, true⟩ true).2

theorem plainResolved_empty : plainResolved.Empty :=
  ⟨rfl, .start (by decide), rfl, rfl, rfl⟩

/-- An object that owns a block. -/
def fullResolved : ResolvedCredential :=
  { plainResolved with storage := { plainResolved.storage with
      storage := ⟨⟨some .system, true, true, true⟩, some ⟨8, [118]⟩, 1, true⟩ } }

theorem plainResolved_formed : plainResolved.Formed :=
  ⟨plainResolved_empty.storage, rfl, fun _ => rfl⟩

theorem fullResolved_formed : fullResolved.Formed :=
  ⟨⟨by decide, rfl, fun block h => by cases h; rfl⟩, rfl, fun h => by cases h⟩

/-- Two threads resolve, and a third whose object is full is refused; a registration comes too late,
and a cleanup too early. -/
def twoResolves : List CredentialEvent :=
  let lock : MutexAnswer := ⟨true, true⟩
  let shown : CredentialConfigView := ⟨⟨200, apiVersion, 4⟩, fun _ => some ⟨[118], by decide⟩⟩
  [.register 1 (some plainProvider) lock, .enter (some [97]) plainResolved lock,
    .register 2 (some plainProvider) lock, .enter (some [98]) plainResolved lock,
    .answer 0 ⟨0, ⟨⟨64, apiVersion, 1⟩, some shown, 5⟩⟩,
      .answer 1 ⟨3, ⟨⟨64, apiVersion, 1⟩, none, 0⟩⟩,
    .enter (some [97]) fullResolved lock, .copy 0, .cleanup lock true, .release 0, .leave 1 lock,
      .leave 0 lock, .cleanup lock true]

end Vps
