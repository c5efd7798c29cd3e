import VirtualPostgreSQL.Connection.Contract

/-!
# Connection/Protocol — the life of a connection

A connection is initialised, resolved as often as its owner likes, and cleaned up.  What it holds at
any time is what the last resolve that succeeded was offered (`connection_resolve_protocol`).
-/

namespace Vps

open Machinery

/-- A resolve that has returned. -/
structure ConnectionReturn where
  arguments : StoredArguments
  options : ConnectionResolveOptions
  result : ConnectionStringResult

/-- A connection, its arena, and the resolves that have returned. -/
structure ConnectionSystem where
  connection : ResolvedConnection
  arena : Arena
  returned : List ConnectionReturn

/-- What the owner of a connection does. -/
inductive ConnectionEvent
  | resolve (arguments : StoredArguments) (options : ConnectionResolveOptions)
  | cleanup

namespace ConnectionSystem

/-- **One operation.** -/
def step (s : ConnectionSystem) : ConnectionEvent → Buffered ConnectionSystem
  | .resolve arguments options => do
    let (result, connection, _, arena) ← connectionConfigResolve s.connection s.arena
      arguments options
    return ⟨connection, arena, ⟨arguments, options, result⟩ :: s.returned⟩
  | .cleanup =>
    let (_, connection, arena) := connectionConfigCleanup s.connection s.arena
    return { s with connection, arena }

/-- A connection that was just initialised. -/
def start (allocator : Allocator) (answers : ℕ → MemoryAnswer) : ConnectionSystem where
  connection := (connectionConfigInit allocator true).2
  arena := .fresh answers
  returned := []

/-- The last resolve that succeeded. -/
def last (s : ConnectionSystem) : Option ConnectionReturn := s.returned.find? (·.result == .ok)

/-- **What a connection is to hold**: nothing, or what the last resolve that succeeded was
offered. -/
def Holds (connection : ResolvedConnection) : Option ConnectionReturn → Prop
  | none => connection.Fresh
  | some returned => ∃ model values, returned.arguments.Says model ∧ OneMode model ∧
    ConnectionOffer model returned.options connection.origin values ∧ connection.HoldsValues values

/-- **What holds at any time.** -/
structure Sound (answers : ℕ → MemoryAnswer) (s : ConnectionSystem) : Prop where
  live : (s.connection.Sound ∧ Holds s.connection s.last) ∨
    (s.connection.initialized = false ∧ s.connection.storage.storage.memory = none)
  answers : s.arena.answers = answers
  wiped : s.arena.Wiped
  holds : ∃ lost, s.arena.Holds (addressesOf s.connection.storage.storage.memory ++ lost) ∧
    (s.arena.Zeroes → lost = [])

/-- What a caller may pass. -/
def Callable : ConnectionEvent → Prop
  | .resolve arguments options =>
    arguments.initialized = true ∧ (∃ model, arguments.Says model) ∧ options.Sound
  | .cleanup => True

variable {answers : ℕ → MemoryAnswer} {s : ConnectionSystem}

/-- What an operation moves is moved beside what was lost before. -/
theorem Sound.moved (h : Sound answers s) {arena : Arena} {held : List ℕ}
    (hmoves : ∃ lost,
    s.arena.Moves (addressesOf s.connection.storage.storage.memory) (held ++ lost) arena ∧
      (s.arena.Zeroes → lost = [])) :
    arena.answers = answers ∧ arena.Wiped ∧ ∃ lost, arena.Holds (held ++ lost) ∧
    (arena.Zeroes → lost = []) := by
  obtain ⟨lost, hmoves, hzeroes⟩ := hmoves
  obtain ⟨before, hbefore, hbeforeZeroes⟩ := h.holds
  refine ⟨hmoves.answers.trans h.answers, hmoves.wiped h.wiped, lost ++ before, ?_, fun hzero => ?_⟩
  · rw [← List.append_assoc]
    exact hmoves.holds before hbefore
  · have hback : s.arena.Zeroes := fun n => hmoves.answers ▸ hzero n
    rw [hzeroes hback, hbeforeZeroes hback]
    rfl

/-- **A call keeps the connection sound**, and does not go wrong. -/
theorem Sound.step (h : Sound answers s) {e : ConnectionEvent} (hcall : Callable e) :
    ∃ s', s.step e = .ok s' ∧ Sound answers s' := by
  cases e with
  | resolve arguments options =>
    obtain ⟨hinit, ⟨model, hmeans⟩, hoptions⟩ := hcall
    rcases h.live with ⟨hsound, hholds⟩ | ⟨hdead, hnone⟩
    · obtain ⟨result, connection, registry, arena, heq, hout, -⟩ :=
        connectionConfigResolve_spec hsound s.arena hinit hmeans hoptions
      obtain ⟨hanswers, hwiped, hheld⟩ := h.moved hout.moves
      refine ⟨⟨connection, arena, ⟨arguments, options, result⟩ :: s.returned⟩,
        by rw [ConnectionSystem.step, heq]; rfl, .inl ⟨hout.sound, ?_⟩, hanswers, hwiped, hheld⟩
      rw [last, List.find?_cons]
      by_cases hok : result = .ok
      · rw [beq_iff_eq.mpr hok]
        obtain ⟨hmode, values, hoffer, hcontents⟩ := hout.replaced hok
        exact ⟨model, values, hmeans, hmode, hoffer, hcontents⟩
      · rw [beq_eq_false_iff_ne.mpr hok]
        rw [show connection = s.connection from hout.kept hok]
        exact hholds
    · have hresolve : connectionConfigResolve s.connection s.arena arguments options =
          .ok (.invalidArgument, s.connection, options.credentialRegistry, s.arena) := by
        simp [connectionConfigResolve, hdead]
        rfl
      exact ⟨⟨s.connection, s.arena, _ :: s.returned⟩, by rw [ConnectionSystem.step, hresolve]; rfl,
        .inr ⟨hdead, hnone⟩, h.answers, h.wiped, h.holds⟩
  | cleanup =>
    rcases h.live with ⟨hsound, hholds⟩ | ⟨hdead, hnone⟩
    · obtain ⟨result, connection, arena, heq, hmoves, hgone, hkept, -⟩ :=
        connectionConfigCleanup_moves hsound s.arena
      rw [← List.append_nil (addressesOf connection.storage.storage.memory)] at hmoves
      obtain ⟨hanswers, hwiped, hheld⟩ := h.moved ⟨[], hmoves, fun _ => rfl⟩
      refine ⟨{ s with connection, arena }, by
        rw [ConnectionSystem.step, heq]; rfl, ?_, hanswers, hwiped, hheld⟩
      by_cases hok : result = .ok
      · exact .inr (hgone hok)
      · rw [hkept hok]
        exact .inl ⟨hsound, hholds⟩
    · have hcleanup :
        connectionConfigCleanup s.connection s.arena = (.ok, s.connection, s.arena) := by
        simp [connectionConfigCleanup, hdead]
      exact ⟨s, by
        rw [ConnectionSystem.step, hcleanup]; rfl, .inr ⟨hdead, hnone⟩, h.answers, h.wiped, h.holds⟩

/-- A connection that was initialised is sound. -/
theorem Sound.start {allocator : Allocator} (hvalid : allocatorIsValid allocator = true)
    (answers : ℕ → MemoryAnswer) : Sound answers (start allocator answers) := by
  obtain ⟨connection, heq, hfresh, -⟩ := connectionConfigInit_eq hvalid
  have hstart : ConnectionSystem.start allocator answers = ⟨connection, .fresh answers, []⟩ := by
    rw [ConnectionSystem.start, heq]
  rw [hstart]
  refine ⟨.inl ⟨hfresh.sound, hfresh⟩, rfl, List.forall_mem_nil _, [], ?_, fun _ => rfl⟩
  rw [hfresh.memory]
  exact .fresh answers

end ConnectionSystem

/-- **A connection holds what its last successful resolve was offered.**  Its owner resolves it from
any arguments and options, as often as they like, and cleans it up; the allocator, the platform, the
registry, the environment and the parser answer anything that their contracts allow.  No byte is
read or written outside of its block, every block that comes back was zeroed, and the only block
that is out is that of the connection and those that the platform failed to zero.  A resolve that
fails leaves the connection as it was, and where there is memory it fails exactly if there is not
one source, or the source offers nothing. -/
theorem connection_resolve_protocol {allocator : Allocator}
    (hvalid : allocatorIsValid allocator = true)
    (answers : ℕ → MemoryAnswer) (es : List ConnectionEvent)
    (hcalls : ∀ e ∈ es, ConnectionSystem.Callable e) :
    ∃ s, es.foldlM ConnectionSystem.step (ConnectionSystem.start allocator answers) = .ok s ∧
      s.arena.Wiped ∧
      (∃ lost, s.arena.Holds (addressesOf s.connection.storage.storage.memory ++ lost) ∧
        ((∀ n, (answers n).zeroed = true) → lost = [])) ∧
      (s.connection.initialized = true → ConnectionSystem.Holds s.connection s.last) ∧
      (s.connection.initialized = false → s.connection.storage.storage.memory = none) ∧
      ∀ arguments model options, s.connection.initialized = true → arguments.initialized = true →
        arguments.Says model → options.Sound → ∃ result connection' registry' arena',
          connectionConfigResolve s.connection s.arena arguments options =
            .ok (result, connection', registry', arena') ∧
          (result ≠ .ok → connection' = s.connection) ∧
          ((∀ n, (answers n).granted = true ∧ (answers n).zeroed = true) →
            (result = .ok ↔
              OneMode model ∧ ∃ origin values, ConnectionOffer model options origin values)) := by
  obtain ⟨s, hrun, hsound⟩ := foldlM_total (I := ConnectionSystem.Sound answers)
    (fun s hs e he => hs.step (hcalls e he)) (ConnectionSystem.Sound.start hvalid answers)
  have hzeroed (hzero : ∀ n, (answers n).zeroed = true) : s.arena.Zeroes := fun n => by
    rw [hsound.answers]
    exact hzero n
  obtain ⟨lost, hholds, hzeroes⟩ := hsound.holds
  refine ⟨s, hrun, hsound.wiped, ⟨lost, hholds, fun hzero => hzeroes (hzeroed hzero)⟩,
    fun hinit => ?_, fun hdead => ?_, fun arguments model options hinit hargs hmeans hoptions => ?_⟩
  · rcases hsound.live with ⟨-, hheld⟩ | ⟨hdead, -⟩
    · exact hheld
    · rw [hinit] at hdead
      cases hdead
  · rcases hsound.live with ⟨hlive, -⟩ | ⟨-, hnone⟩
    · rw [hlive.initialized] at hdead
      cases hdead
    · exact hnone
  · rcases hsound.live with ⟨hlive, -⟩ | ⟨hdead, -⟩
    · obtain ⟨result, connection', registry', arena', heq, hout, -⟩ :=
        connectionConfigResolve_spec hlive s.arena hargs hmeans hoptions
      refine ⟨result, connection', registry', arena', heq, hout.kept,
        fun hgenerous => ⟨fun hok => ?_, ?_⟩⟩
      · obtain ⟨hmode, values, hoffer, -⟩ := hout.replaced hok
        exact ⟨hmode, _, values, hoffer⟩
      · rintro ⟨hmode, hoffer⟩
        refine hout.complete ⟨fun n => ?_, hzeroed fun n => (hgenerous n).2⟩ hmode hoffer
        rw [hsound.answers]
        exact (hgenerous n).1
    · rw [hinit] at hdead
      cases hdead

/-- `service = db`, as it is stored. -/
def serviceArguments : StoredArguments :=
  ⟨⟨⟨⟨some .system, true, true, true⟩, some ⟨0, [100, 98, 0]⟩, 3, true⟩, true⟩,
    fun argumentId => if argumentId = .service then some ⟨.string, 0, 2, 0, .none, false⟩ else none,
    ArgumentId.service.flag, true⟩

/-- `service = db` -/
def serviceModel : ParsedArgumentValues :=
  { values := fun argumentId =>
      if argumentId = .service then some ⟨.string, [100, 98], 0, .none, false⟩ else none }

theorem serviceArguments_tells : serviceArguments.Says serviceModel := by
  have h : serviceArguments.Represents ⟨some .system, true, true, true⟩ ⟨0, [100, 98, 0]⟩ 3
    serviceModel := by
    refine ⟨rfl, rfl, by decide, fun argumentId => ?_, fun i => ?_⟩
    · show Option.Rel _ (if argumentId = .service then some _ else none)
        (if argumentId = .service then some _ else none)
      split
      · exact .some ⟨rfl, rfl, rfl, rfl, rfl, by decide, by decide, by decide⟩
      · exact .none
    · have hzero : Marks 0 fun _ => False := fun i => by simp
      have hservice : serviceArguments.presence = 0 ||| ArgumentId.service.flag := by decide
      rw [hservice]
      refine (hzero.or_flag.congr fun argumentId => ?_) i
      show _ ↔ (if argumentId = .service then some _ else none : Option ArgumentValue).isSome
      split <;> simp [*]
  exact h.tells

/-- No registry, an empty environment, and the parser of libpq's client. -/
def bareOptions : ConnectionResolveOptions :=
  ⟨none, some (libpqClientConninfoParse true fun _ => none), none, 0, fun _ => ⟨.notFound, [], 0⟩,
    ⟨0, ⟨⟨0, 0, 0⟩, none, 0⟩⟩, ⟨true, true⟩, ⟨true, true⟩⟩

theorem bareOptions_sound : bareOptions.Sound :=
  ⟨fun _ h => (by cases h), ⟨fun _ => Nat.zero_le _, fun _ h => (by cases h)⟩,
    fun parse hparse text => by
    cases hparse
    exact libpqClientConninfoParse_ne _ _ _⟩

theorem connection_resolve_protocol_service :
    let allocator : Allocator := ⟨some .system, true, true, true⟩
    let answers : ℕ → MemoryAnswer := fun _ => ⟨true, fun _ => 0, true⟩
    let es : List ConnectionEvent :=
      [.resolve serviceArguments bareOptions, .resolve serviceArguments bareOptions, .cleanup]
    ∃ s, es.foldlM ConnectionSystem.step (ConnectionSystem.start allocator answers) = .ok s ∧
      s.arena.Wiped ∧
      (∃ lost, s.arena.Holds (addressesOf s.connection.storage.storage.memory ++ lost) ∧
        ((∀ n, (answers n).zeroed = true) → lost = [])) ∧
      (s.connection.initialized = true → ConnectionSystem.Holds s.connection s.last) ∧
      (s.connection.initialized = false → s.connection.storage.storage.memory = none) ∧
      ∀ arguments model options, s.connection.initialized = true → arguments.initialized = true →
        arguments.Says model → options.Sound → ∃ result connection' registry' arena',
          connectionConfigResolve s.connection s.arena arguments options =
            .ok (result, connection', registry', arena') ∧
          (result ≠ .ok → connection' = s.connection) ∧
          ((∀ n, (answers n).granted = true ∧ (answers n).zeroed = true) →
            (result = .ok ↔
              OneMode model ∧ ∃ origin values, ConnectionOffer model options origin values)) := by
  refine connection_resolve_protocol (by decide) _ _ fun e he => ?_
  simp only [List.mem_cons, List.not_mem_nil, or_false] at he
  rcases he with rfl | rfl | rfl
  · exact ⟨rfl, ⟨_, serviceArguments_tells⟩, bareOptions_sound⟩
  · exact ⟨rfl, ⟨_, serviceArguments_tells⟩, bareOptions_sound⟩
  · trivial

end Vps
