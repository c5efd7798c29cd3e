import Mathlib.Data.UInt
import VirtualPostgreSQL.Machinery.Rounds

/-!
# Platform/Deadline — waiting for a socket until a deadline

`vps_socket_wait_execute` asks for an interrupt, reads the clock and waits for the socket a slice of
the time that is left, round by round.  Neither the clock nor the socket is trusted: a clock that
goes back, or stands still across a wait that timed out, ends the loop, and so do too many wake-ups
for nothing.  No operation on a time wraps here, so times are natural numbers.
-/

namespace Vps

open Machinery

/-! ## The platform -/

/-- `VpsPlatformStatus`; a platform may return anything. -/
inductive PlatformStatus
  | ok | timeout | unsupported | invalidArgument | bufferTooSmall | notFound | systemError
  | other (code : ℤ)
  deriving DecidableEq, Repr

/-- `VpsWaitInterest` -/
inductive WaitInterest
  | read | write | readWrite
  deriving DecidableEq, Repr

/-- The bits of an interest. -/
def WaitInterest.mask : WaitInterest → UInt32
  | read => 1
  | write => 2
  | readWrite => 3

/-- `VpsInterruptProbeResult` -/
inductive InterruptProbeResult
  | proceed | requested | probeError | other (code : ℤ)
  deriving DecidableEq, Repr

/-- What the platform answers in one round: the probe, the clock, and the wait with the interest
that is ready. -/
structure WaitReply where
  interrupt : InterruptProbeResult
  clock : PlatformStatus × ℕ
  wait : PlatformStatus × UInt32

/-! ## The wait -/

/-- `VpsDeadlineStatus` -/
inductive DeadlineStatus
  | ok | invalidArgument | overflow | clockError | waitError | interruptError | retryLimit
  deriving DecidableEq, Repr

/-- `VpsDeadline` -/
structure WaitDeadline where
  startedAtMs : ℕ
  expiresAtMs : ℕ

/-- `VpsSocketWaitOutcome` -/
inductive SocketWaitOutcome
  | ready | deadlineExpired | interrupted | failed
  deriving DecidableEq, Repr

/-- `VpsSocketWaitRequest`; `usable` is the validation of the operations. -/
structure SocketWaitRequest where
  usable : Bool
  interest : WaitInterest
  deadline : WaitDeadline
  maxSliceMs : ℕ
  hasProbe : Bool

/-- `VpsSocketWaitResult` -/
structure SocketWaitResult where
  outcome : SocketWaitOutcome := .failed
  readyInterest : UInt32 := 0
  platformStatus : PlatformStatus := .ok
  remainingMs : ℕ := 0
  waitCount : UInt64 := 0
  spuriousWakeupCount : ℕ := 0

/-- What the loop has asked the platform for. -/
inductive WaitEvent
  | probed (result : InterruptProbeResult)
  | read (nowMs : ℕ)
  | waited (timeoutMs : ℕ)
  deriving DecidableEq, Repr

/-- The variables of the loop, and what it has done, the newest event first. -/
structure WaitState where
  result : SocketWaitResult := {}
  previousNow : Option ℕ := none
  requireClockProgress : Bool := false
  events : List WaitEvent := []

/-- `VPS_WAIT_MAX_SLICE_MS` -/
def socketWaitMaxSliceMs : ℕ := 1000

/-- `VPS_WAIT_MAX_SPURIOUS_WAKEUPS` -/
def waitMaxSpuriousWakeups : ℕ := 64

/-- `vps_deadline_remaining_at`: the time that is left, or none if the deadline has passed. -/
def waitDeadlineRemainingAt (deadline : WaitDeadline) (nowMs : ℕ) :
    Except DeadlineStatus (Option ℕ) :=
  if deadline.expiresAtMs < deadline.startedAtMs then .error .invalidArgument
  else if nowMs < deadline.startedAtMs then .error .clockError
  else if deadline.expiresAtMs ≤ nowMs then .ok none
  else .ok (some (deadline.expiresAtMs - nowMs))

/-- How a call ends. -/
abbrev WaitEnd := DeadlineStatus × WaitState

/-- The call ends as a failure. -/
def WaitState.fail (s : WaitState) (status : DeadlineStatus) : WaitEnd :=
  (status, { s with result := { s.result with outcome := .failed } })

/-- The call ends with an outcome. -/
def WaitState.done (s : WaitState) (outcome : SocketWaitOutcome) : WaitEnd :=
  (.ok, { s with result := { s.result with outcome } })

/-- An event is noted. -/
def WaitState.note (s : WaitState) (event : WaitEvent) : WaitState :=
  { s with events := event :: s.events }

/-- The wait of a round and what follows from it. -/
def waitRoundWait (request : SocketWaitRequest) (s : WaitState) (remainingMs : ℕ)
    (wait : PlatformStatus × UInt32) : WaitState ⊕ WaitEnd :=
  let timeoutMs := if remainingMs > request.maxSliceMs then request.maxSliceMs else remainingMs
  let ready := wait.2 &&& request.interest.mask
  let s := { s.note (.waited timeoutMs) with
    result := { s.result with
      platformStatus := wait.1
      waitCount := s.result.waitCount + 1 } }
  match wait.1 with
  | .ok =>
    if ready ≠ 0 then
      .inr ({ s with result := { s.result with readyInterest := ready } }.done .ready)
    else
      let s := { s with
        result := { s.result with spuriousWakeupCount := s.result.spuriousWakeupCount + 1 } }
      if s.result.spuriousWakeupCount ≥ waitMaxSpuriousWakeups then .inr (s.fail .retryLimit)
      else .inl s
  | .timeout => .inl { s with requireClockProgress := true }
  | _ => .inr (s.fail .waitError)

/-- A round behind its probe: the clock is read. -/
def waitRoundClock (request : SocketWaitRequest) (s : WaitState) (reply : WaitReply) :
    WaitState ⊕ WaitEnd :=
  let (status, nowMs) := reply.clock
  let s := { s with result := { s.result with platformStatus := status } }
  if status ≠ .ok ∨ (∃ previous ∈ s.previousNow, nowMs < previous) ∨
      (s.requireClockProgress ∧ nowMs ≤ s.previousNow.getD 0) then .inr (s.fail .clockError)
  else
    let s := { s.note (.read nowMs) with previousNow := some nowMs, requireClockProgress := false }
    match waitDeadlineRemainingAt request.deadline nowMs with
    | .error status => .inr (s.fail status)
    | .ok none =>
      let s := { s with
        result := { s.result with remainingMs := 0, platformStatus := .timeout } }
      .inr (s.done .deadlineExpired)
    | .ok (some remainingMs) =>
      waitRoundWait request { s with result := { s.result with remainingMs } }
        remainingMs reply.wait

/-- **A round of the loop.** -/
def waitRound (request : SocketWaitRequest) (s : WaitState) (reply : WaitReply) :
    WaitState ⊕ WaitEnd :=
  if request.hasProbe then
    let s := s.note (.probed reply.interrupt)
    match reply.interrupt with
    | .requested => .inr (s.done .interrupted)
    | .proceed => waitRoundClock request s reply
    | _ => .inr (s.fail .interruptError)
  else waitRoundClock request s reply

/-- **`vps_socket_wait_execute`**, as far as `n` rounds of its loop take it. -/
def socketWaitExecute (request : SocketWaitRequest) (platform : ℕ → WaitReply) (n : ℕ) :
    WaitState ⊕ WaitEnd :=
  if !request.usable ∨ request.maxSliceMs = 0 ∨ request.maxSliceMs > socketWaitMaxSliceMs then
    .inr (.invalidArgument, {})
  else rounds (waitRound request) platform n {}

/-! ## What a round does -/

section Round

variable {request : SocketWaitRequest} {s s' : WaitState} {out : WaitEnd}

/-- The slice that a wait may take. -/
def waitSlice (request : SocketWaitRequest) (remainingMs : ℕ) : ℕ :=
  if remainingMs > request.maxSliceMs then request.maxSliceMs else remainingMs

/-- **The wait of a round**: the loop goes on behind a time-out or one of the wake-ups for nothing,
and ends otherwise. -/
theorem waitRoundWait_cases (request : SocketWaitRequest) (s : WaitState) (remainingMs : ℕ)
    (wait : PlatformStatus × UInt32) :
    (∃ s', waitRoundWait request s remainingMs wait = .inl s' ∧
      s'.events = .waited (waitSlice request remainingMs) :: s.events ∧
      s'.previousNow = s.previousNow ∧
      (s'.requireClockProgress = true ∧
          s'.result.spuriousWakeupCount = s.result.spuriousWakeupCount ∨
        s'.requireClockProgress = s.requireClockProgress ∧
          s'.result.spuriousWakeupCount = s.result.spuriousWakeupCount + 1 ∧
          s'.result.spuriousWakeupCount < waitMaxSpuriousWakeups)) ∨
    ∃ out, waitRoundWait request s remainingMs wait = .inr out ∧
      out.2.events = .waited (waitSlice request remainingMs) :: s.events ∧
      (out.2.result.outcome = .failed ∨ out.2.result.outcome = .ready ∧
        out.2.result.readyInterest ≠ 0 ∧
        out.2.result.readyInterest = wait.2 &&& request.interest.mask) := by
  obtain ⟨status, mask⟩ := wait
  cases status with
  | ok =>
    by_cases hready : mask &&& request.interest.mask ≠ 0
    · refine .inr ⟨_, if_pos hready, rfl, .inr ⟨rfl, hready, rfl⟩⟩
    · by_cases hlimit : s.result.spuriousWakeupCount + 1 ≥ waitMaxSpuriousWakeups
      · exact .inr ⟨_, (if_neg hready).trans (if_pos hlimit), rfl, .inl rfl⟩
      · exact .inl ⟨_, (if_neg hready).trans (if_neg hlimit), rfl, rfl,
          .inr ⟨rfl, rfl, Nat.lt_of_not_le hlimit⟩⟩
  | timeout => exact .inl ⟨_, rfl, rfl, rfl, .inl ⟨rfl, rfl⟩⟩
  | _ => exact .inr ⟨_, rfl, rfl, .inl rfl⟩

/-- **The clock of a round**: it fails, it is past the deadline, or the socket is waited for. -/
theorem waitRoundClock_cases (request : SocketWaitRequest) (s : WaitState) (reply : WaitReply) :
    (∃ out, waitRoundClock request s reply = .inr out ∧ out.2.result.outcome = .failed ∧
      (out.2.events = s.events ∨ out.2.events = .read reply.clock.2 :: s.events)) ∨
    (∃ out, waitRoundClock request s reply = .inr out ∧
      out.2.result.outcome = .deadlineExpired ∧ out.2.events = .read reply.clock.2 :: s.events ∧
      request.deadline.expiresAtMs ≤ reply.clock.2) ∨
    ∃ s₁, waitRoundClock request s reply =
        waitRoundWait request s₁ (request.deadline.expiresAtMs - reply.clock.2) reply.wait ∧
      s₁.events = .read reply.clock.2 :: s.events ∧ s₁.previousNow = some reply.clock.2 ∧
      s₁.requireClockProgress = false ∧
      s₁.result.spuriousWakeupCount = s.result.spuriousWakeupCount ∧
      request.deadline.startedAtMs ≤ reply.clock.2 ∧
      reply.clock.2 < request.deadline.expiresAtMs ∧
      (∀ previous ∈ s.previousNow, previous ≤ reply.clock.2) ∧
      (s.requireClockProgress = true → s.previousNow.getD 0 < reply.clock.2) := by
  obtain ⟨interrupt, ⟨status, nowMs⟩, wait⟩ := reply
  unfold waitRoundClock
  dsimp only
  split_ifs with hclock
  · exact .inl ⟨_, rfl, rfl, .inl rfl⟩
  · obtain ⟨-, hforward, hprogress⟩ := by simpa only [not_or, not_and, not_exists, not_lt, not_le]
      using hclock
    unfold waitDeadlineRemainingAt
    split_ifs with hinvalid hearly hexpired
    · exact .inl ⟨_, rfl, rfl, .inr rfl⟩
    · exact .inl ⟨_, rfl, rfl, .inr rfl⟩
    · exact .inr (.inl ⟨_, rfl, rfl, rfl, hexpired⟩)
    · exact .inr (.inr ⟨_, rfl, rfl, rfl, rfl, rfl, Nat.le_of_not_lt hearly,
        Nat.lt_of_not_le hexpired, hforward, hprogress⟩)

/-- The probe of a round. -/
theorem waitRound_cases (request : SocketWaitRequest) (s : WaitState) (reply : WaitReply) :
    (∃ out, waitRound request s reply = .inr out ∧ out.2.result.outcome = .failed ∧
      ∃ result, out.2.events = .probed result :: s.events) ∨
    (∃ out, waitRound request s reply = .inr out ∧ out.2.result.outcome = .interrupted ∧
      out.2.events = .probed .requested :: s.events) ∨
    ∃ s₁, waitRound request s reply = waitRoundClock request s₁ reply ∧
      (s₁.events = s.events ∨ ∃ result, s₁.events = .probed result :: s.events) ∧
      s₁.previousNow = s.previousNow ∧ s₁.requireClockProgress = s.requireClockProgress ∧
      s₁.result.spuriousWakeupCount = s.result.spuriousWakeupCount := by
  unfold waitRound
  split_ifs
  · cases reply.interrupt with
    | proceed => exact .inr (.inr ⟨_, rfl, .inr ⟨_, rfl⟩, rfl, rfl, rfl⟩)
    | requested => exact .inr (.inl ⟨_, rfl, rfl, rfl⟩)
    | probeError => exact .inl ⟨_, rfl, rfl, _, rfl⟩
    | other code => exact .inl ⟨_, rfl, rfl, _, rfl⟩
  · exact .inr (.inr ⟨s, rfl, .inl rfl, rfl, rfl, rfl⟩)

end Round

/-! ## The end of the loop -/

section Loop

variable {request : SocketWaitRequest} {s s' : WaitState} {out : WaitEnd} {reply : WaitReply}

/-- **What every further round makes smaller**: the time that is left, the wake-ups for nothing that
are left, and whether the clock may stand still. -/
def waitMeasure (request : SocketWaitRequest) (s : WaitState) : ℕ :=
  2 * (request.deadline.expiresAtMs - s.previousNow.getD 0) +
    2 * (waitMaxSpuriousWakeups - s.result.spuriousWakeupCount) +
    if s.requireClockProgress then 0 else 1

theorem waitMeasure_falls (h : waitRound request s reply = .inl s') :
    waitMeasure request s' < waitMeasure request s := by
  obtain ⟨out, hout, -⟩ | ⟨out, hout, -⟩ | ⟨s₁, hclock, -, hprevious, hrequire, hspurious⟩ :=
    waitRound_cases request s reply
  · cases hout.symm.trans h
  · cases hout.symm.trans h
  rw [hclock] at h
  obtain ⟨out, hout, -⟩ | ⟨out, hout, -⟩ | ⟨s₂, hwait, -, hnow, hrequire₂, hspurious₂, -, hlt,
    hforward, hprogress⟩ := waitRoundClock_cases request s₁ reply
  · cases hout.symm.trans h
  · cases hout.symm.trans h
  rw [hwait] at h
  obtain ⟨after, hafter, -, hnow', hend⟩ | ⟨out, hout, -⟩ := waitRoundWait_cases request s₂
    (request.deadline.expiresAtMs - reply.clock.2) reply.wait
  · obtain rfl : after = s' := Sum.inl.inj (hafter.symm.trans h)
    have hle : s.previousNow.getD 0 ≤ reply.clock.2 := by
      cases hs : s.previousNow with
      | none => exact Nat.zero_le _
      | some previous => exact hforward previous (hprevious.trans hs)
    rw [hprevious, hrequire] at hprogress
    simp only [waitMeasure, hnow', hnow, Option.getD_some]
    obtain ⟨hrequire', hspurious'⟩ | ⟨hrequire', hspurious', hbelow⟩ := hend
    · -- behind a time-out the clock has to move on
      rw [hrequire', hspurious', hspurious₂, hspurious]
      by_cases hr : s.requireClockProgress = true
      · have := hprogress hr
        simp only [hr, if_true]
        omega
      · simp only [hr, if_true, Bool.false_eq_true, if_false]
        omega
    · rw [hrequire', hrequire₂, hspurious', hspurious₂, hspurious]
      rw [hspurious', hspurious₂, hspurious] at hbelow
      simp only [Bool.false_eq_true, if_false]
      split <;> omega
  · cases hout.symm.trans h

/-- **A wait that may be issued**: right behind a reading of the clock within the time of the
deadline and not before an earlier reading, for at most the time that is left and at most a
slice. -/
def WaitAllowed (request : SocketWaitRequest) (timeoutMs : ℕ) (earlier : List WaitEvent) : Prop :=
  ∃ nowMs before, earlier = .read nowMs :: before ∧ request.deadline.startedAtMs ≤ nowMs ∧
    nowMs < request.deadline.expiresAtMs ∧ 1 ≤ timeoutMs ∧
    timeoutMs ≤ min (request.deadline.expiresAtMs - nowMs) request.maxSliceMs ∧
    ∀ previous, .read previous ∈ before → previous ≤ nowMs

/-- All waits of a call may be issued. -/
def WaitsAllowed (request : SocketWaitRequest) (events : List WaitEvent) : Prop :=
  ∀ timeoutMs earlier, .waited timeoutMs :: earlier <:+ events →
    WaitAllowed request timeoutMs earlier

/-- **The contract of a wait.** -/
structure WaitContract (request : SocketWaitRequest) (out : WaitEnd) : Prop where
  waits : WaitsAllowed request out.2.events
  ready : out.2.result.outcome = .ready → out.2.result.readyInterest ≠ 0 ∧
    out.2.result.readyInterest &&& request.interest.mask = out.2.result.readyInterest
  expired : out.2.result.outcome = .deadlineExpired →
    ∃ nowMs earlier, out.2.events = .read nowMs :: earlier ∧ request.deadline.expiresAtMs ≤ nowMs
  interrupted : out.2.result.outcome = .interrupted →
    ∃ earlier, out.2.events = .probed .requested :: earlier

/-- What the loop keeps. -/
structure WaitInvariant (request : SocketWaitRequest) (s : WaitState) : Prop where
  waits : WaitsAllowed request s.events
  latest : ∀ nowMs, .read nowMs ∈ s.events → ∃ previous ∈ s.previousNow, nowMs ≤ previous

theorem waitsAllowed_cons {event : WaitEvent} {events : List WaitEvent}
    (h : WaitsAllowed request events)
    (hevent : ∀ timeoutMs, event = .waited timeoutMs → WaitAllowed request timeoutMs events) :
    WaitsAllowed request (event :: events) := by
  intro timeoutMs earlier hsuffix
  rcases List.suffix_cons_iff.mp hsuffix with heq | hsuffix
  · obtain ⟨rfl, rfl⟩ := List.cons.inj heq
    exact hevent timeoutMs rfl
  · exact h timeoutMs earlier hsuffix

theorem WaitContract.of_failed (hwaits : WaitsAllowed request out.2.events)
    (h : out.2.result.outcome = .failed) : WaitContract request out where
  waits := hwaits
  ready hready := by cases h.symm.trans hready
  expired hexpired := by cases h.symm.trans hexpired
  interrupted hinterrupted := by cases h.symm.trans hinterrupted

/-- The probe keeps the invariant. -/
theorem WaitInvariant.probe (h : WaitInvariant request s)
    (hevents : s'.events = s.events ∨ ∃ result, s'.events = .probed result :: s.events)
    (hprevious : s'.previousNow = s.previousNow) : WaitInvariant request s' := by
  obtain hevents | ⟨result, hevents⟩ := hevents
  · exact ⟨hevents ▸ h.waits, fun nowMs hread => hprevious ▸ h.latest nowMs (hevents ▸ hread)⟩
  · refine ⟨hevents ▸ waitsAllowed_cons h.waits fun timeoutMs heq => (by cases heq),
      fun nowMs hread => ?_⟩
    rw [hevents] at hread
    exact hprevious ▸ h.latest nowMs (List.mem_of_ne_of_mem (by simp) hread)

/-- The slice is positive and fits both bounds. -/
theorem waitSlice_bounds {remainingMs : ℕ} (hslice : request.maxSliceMs ≠ 0)
    (hremaining : 0 < remainingMs) : 1 ≤ waitSlice request remainingMs ∧
      waitSlice request remainingMs ≤ min remainingMs request.maxSliceMs := by
  unfold waitSlice
  split <;> omega

/-- **A round keeps the invariant**, and the last one leaves the contract. -/
theorem waitRound_keeps (hslice : request.maxSliceMs ≠ 0) (h : WaitInvariant request s)
    (reply : WaitReply) :
    (∀ s', waitRound request s reply = .inl s' → WaitInvariant request s') ∧
      ∀ out, waitRound request s reply = .inr out → WaitContract request out := by
  obtain ⟨out, hout, hfailed, result, hevents⟩ | ⟨out, hout, hinterrupted, hevents⟩ |
    ⟨s₁, hclock, hevents, hprevious, -⟩ := waitRound_cases request s reply
  · rw [hout]
    refine ⟨fun s' heq => (by cases heq), fun out' heq => ?_⟩
    obtain rfl := Sum.inr.inj heq
    exact .of_failed (hevents ▸ waitsAllowed_cons h.waits fun _ heq => by cases heq) hfailed
  · rw [hout]
    refine ⟨fun s' heq => (by cases heq), fun out' heq => ?_⟩
    obtain rfl := Sum.inr.inj heq
    exact {
      waits := hevents ▸ waitsAllowed_cons h.waits fun _ heq => by cases heq
      ready := fun hready => by cases hinterrupted.symm.trans hready
      expired := fun hexpired => by cases hinterrupted.symm.trans hexpired
      interrupted := fun _ => ⟨_, hevents⟩ }
  have h₁ := h.probe hevents hprevious
  rw [hclock]
  have hread : WaitsAllowed request (.read reply.clock.2 :: s₁.events) :=
    waitsAllowed_cons h₁.waits fun _ heq => by cases heq
  obtain ⟨out, hout, hfailed, hevents⟩ | ⟨out, hout, hexpired, hevents, hle⟩ | ⟨s₂, hwait, hevents,
    hnow, -, -, hstarted, hlt, hforward, -⟩ := waitRoundClock_cases request s₁ reply
  · rw [hout]
    refine ⟨fun s' heq => (by cases heq), fun out' heq => ?_⟩
    obtain rfl := Sum.inr.inj heq
    obtain hevents | hevents := hevents
    · exact .of_failed (hevents ▸ h₁.waits) hfailed
    · exact .of_failed (hevents ▸ hread) hfailed
  · rw [hout]
    refine ⟨fun s' heq => (by cases heq), fun out' heq => ?_⟩
    obtain rfl := Sum.inr.inj heq
    exact {
      waits := hevents ▸ hread
      ready := fun hready => by cases hexpired.symm.trans hready
      expired := fun _ => ⟨_, _, hevents, hle⟩
      interrupted := fun hinterrupted => by cases hexpired.symm.trans hinterrupted }
  rw [hwait]
  -- no reading so far lies behind the one just made
  have hlatest : ∀ previous, .read previous ∈ s₁.events → previous ≤ reply.clock.2 := by
    intro previous hmem
    obtain ⟨latest, hlatest, hle⟩ := h₁.latest previous hmem
    exact hle.trans (hforward latest hlatest)
  have hallowed := waitSlice_bounds hslice (Nat.sub_pos_of_lt hlt)
  have hwaits : WaitsAllowed request (.waited (waitSlice request (request.deadline.expiresAtMs -
      reply.clock.2)) :: s₂.events) := by
    rw [hevents]
    refine waitsAllowed_cons hread fun timeoutMs heq => ?_
    obtain rfl := WaitEvent.waited.inj heq
    exact ⟨_, _, rfl, hstarted, hlt, hallowed.1, hallowed.2, hlatest⟩
  obtain ⟨after, hafter, hevents', hnow', -⟩ | ⟨out, hout, hevents', houtcome⟩ :=
    waitRoundWait_cases request s₂ (request.deadline.expiresAtMs - reply.clock.2) reply.wait
  · rw [hafter]
    refine ⟨fun s' heq => ?_, fun out heq => by cases heq⟩
    obtain rfl := Sum.inl.inj heq
    refine ⟨hevents' ▸ hwaits, fun nowMs hmem => ⟨_, hnow'.trans hnow, ?_⟩⟩
    rw [hevents', hevents] at hmem
    rcases List.mem_cons.mp (List.mem_of_ne_of_mem (by simp) hmem) with heq | hmem
    · exact (WaitEvent.read.inj heq).le
    · exact hlatest nowMs hmem
  · rw [hout]
    refine ⟨fun s' heq => (by cases heq), fun out' heq => ?_⟩
    obtain rfl := Sum.inr.inj heq
    obtain hfailed | ⟨hready, hne, hmask⟩ := houtcome
    · exact .of_failed (hevents' ▸ hwaits) hfailed
    · exact {
        waits := hevents' ▸ hwaits
        ready := fun _ => ⟨hne, by rw [hmask, UInt32.and_assoc, UInt32.and_self]⟩
        expired := fun hexpired => by cases hready.symm.trans hexpired
        interrupted := fun hinterrupted => by cases hready.symm.trans hinterrupted }

/-- **A wait ends, and keeps its contract**, whatever the platform answers: within as many rounds as
twice the time of the deadline and twice the wake-ups for nothing allow. -/
theorem socket_wait_contract (request : SocketWaitRequest) (platform : ℕ → WaitReply) :
    ∃ n ≤ 2 * request.deadline.expiresAtMs + 2 * waitMaxSpuriousWakeups + 2, ∃ out,
      (∀ m, n ≤ m → socketWaitExecute request platform m = .inr out) ∧
        WaitContract request out := by
  unfold socketWaitExecute
  by_cases hguard : !request.usable ∨ request.maxSliceMs = 0 ∨
    request.maxSliceMs > socketWaitMaxSliceMs
  · refine ⟨0, Nat.zero_le _, _, fun m _ => if_pos hguard, .of_failed ?_ rfl⟩
    intro timeoutMs earlier hsuffix
    cases List.suffix_nil.mp hsuffix
  · have hfalls : ∀ s reply s', waitRound request s reply = .inl s' →
        waitMeasure request s' < waitMeasure request s := fun s reply s' => waitMeasure_falls
    obtain ⟨n, hn, out, hout⟩ := rounds_end (waitMeasure request) hfalls platform {}
    have hslice : request.maxSliceMs ≠ 0 := fun h => hguard (.inr (.inl h))
    have hinit : WaitInvariant request {} :=
      ⟨fun timeoutMs earlier hsuffix => (by cases List.suffix_nil.mp hsuffix),
        fun nowMs hmem => absurd hmem List.not_mem_nil⟩
    refine ⟨n, hn.trans ?_, out, fun m hm => ?_, rounds_invariant
      (fun s reply s' hs => (waitRound_keeps hslice hs reply).1 s')
      (fun s reply out hs => (waitRound_keeps hslice hs reply).2 out) hinit hout⟩
    · simp [waitMeasure]
    · rw [if_neg hguard]
      exact rounds_inr_mono hout hm

end Loop

end Vps
