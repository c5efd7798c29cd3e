import Mathlib.Data.List.FinRange
import VirtualPostgreSQL.Machinery.Lists
import VirtualPostgreSQL.Machinery.Run
import VirtualPostgreSQL.Pool.Interleaving

/-!
# Pool/Fairness — connections are granted in the order of the tickets

A call that finds no connection draws a ticket and waits.  `TicketsHeld` ties the tickets of the
parked threads to the waiters the pool compares: a call is served with its ticket when no waiter has
a smaller one, and without a ticket when nobody waits (`FairGrant`).  Along every interleaving the
tickets served are increasing, and nothing is granted after the pool was closed: `pool_fairness`.
-/

namespace Vps

open Machinery

variable {n m : ℕ}

/-! ## Work that concerns no waiter -/

/-- **The frame of the queue**: waiters, tickets and the closed flag are the same. -/
structure SameQueue (p q : Pool n m) : Prop where
  waiters : q.waiters = p.waiters
  nextTicket : q.nextTicket = p.nextTicket
  closed : q.closed = p.closed

namespace SameQueue

theorem refl (p : Pool n m) : SameQueue p p := ⟨rfl, rfl, rfl⟩

theorem trans {p q r : Pool n m} (h : SameQueue p q) (h' : SameQueue q r) : SameQueue p r :=
  ⟨h'.waiters.trans h.waiters, h'.nextTicket.trans h.nextTicket, h'.closed.trans h.closed⟩

theorem destroySlot (p : Pool n m) (i : Fin n) : SameQueue p (poolDestroySlot p i) := by
  unfold poolDestroySlot
  split
  · exact .refl p
  · exact ⟨rfl, rfl, rfl⟩

theorem createSlot (p : Pool n m) (reply : CreateReply) :
    SameQueue p (poolCreateSlot p reply).1 := by
  unfold poolCreateSlot
  split
  · exact .refl p
  · split
    · exact .refl p
    · split <;> exact ⟨rfl, rfl, rfl⟩

theorem takeIdle (nowMs : UInt64) (validate : Fin n → Bool) (l : List (Fin n)) (p : Pool n m) :
    SameQueue p (poolTakeIdle nowMs validate l p).1 := by
  induction l generalizing p with
  | nil => exact .refl p
  | cons i rest ih =>
    rw [poolTakeIdle]
    split
    · exact ih p
    · split
      · exact (destroySlot p i).trans (ih _)
      · exact .refl p

theorem takeAvailable (p : Pool n m) (nowMs : UInt64) (validate : Fin n → Bool)
    (create : CreateReply) : SameQueue p (poolTakeAvailable p nowMs validate create).1 := by
  have hidle := takeIdle nowMs validate (List.finRange n) p
  unfold poolTakeAvailable
  split
  · rename_i heq
    rw [heq] at hidle
    exact hidle
  · rename_i heq
    rw [heq] at hidle
    split
    · exact hidle.trans (createSlot _ create)
    · exact hidle

theorem destroyIdle (l : List (Fin n)) (p : Pool n m) : SameQueue p (poolDestroyIdle l p) := by
  induction l generalizing p with
  | nil => exact .refl p
  | cons i rest ih =>
    rw [poolDestroyIdle]
    split
    · exact ih p
    · exact (destroySlot p i).trans (ih _)

theorem leaseRelease (p : Pool n m) (lease : Option Lease) (disposition : LeaseDisposition)
    (r : ReleaseReplies) : SameQueue p (connectionLeaseRelease p lease disposition r).1 := by
  unfold connectionLeaseRelease
  split
  · exact .refl p
  split
  · exact .refl p
  split
  case isFalse => exact .refl p
  rename_i named _ hlt
  have hend : SameQueue p (poolEndLease p ⟨named.slotIndex, hlt⟩) := ⟨rfl, rfl, rfl⟩
  dsimp only
  split
  · exact .refl p
  split
  · exact hend.trans (destroySlot _ _)
  split
  · exact hend.trans (destroySlot _ _)
  split
  · exact hend.trans (destroySlot _ _)
  · exact ⟨rfl, rfl, rfl⟩

end SameQueue

/-! ## One round of an acquire -/

/-- Every waiter that was active, but for the call's own, is the same. -/
def KeepsWaiters (p q : Pool n m) (call : AcquireCall m) : Prop :=
  ∀ i, (p.waiters i).active = true → call.waiterIndex ≠ some i → q.waiters i = p.waiters i

/-- **What one round does to the queue**: the call leaves it, stays where it is, or enters it with
the next ticket. -/
inductive QueueEffect (p : Pool n m) (call : AcquireCall m) : Pool n m × AcquireOutcome m → Prop
  | leaves {q : Pool n m} {result : PoolResult} {lease : Option Lease}
    (keeps : KeepsWaiters p q call)
      (next : q.nextTicket = p.nextTicket ∨ q.nextTicket = poolNextNonzero p.nextTicket)
      (closed : q.closed = p.closed) : QueueEffect p call (q, .done result lease)
  | stays {q : Pool n m} {slice : UInt64} (same : SameQueue p q) :
      QueueEffect p call (q, .park call slice)
  | enters {q : Pool n m} {call' : AcquireCall m} {slice : UInt64} (waiter : Fin m)
      (free : (p.waiters waiter).active = false) (keeps : KeepsWaiters p q call)
      (own : call'.waiterIndex = some waiter) (ticket : call'.ticket = poolNextNonzero p.nextTicket)
      (held : (q.waiters waiter).ticket = call'.ticket) (next : q.nextTicket = call'.ticket)
      (closed : q.closed = p.closed) : QueueEffect p call (q, .park call' slice)

section Round

variable {p q : Pool n m} {call : AcquireCall m}

theorem poolWaiterRemove_of_ne {i : Fin m} {own : Option (Fin m)} (h : own ≠ some i) :
    (poolWaiterRemove p own).waiters i = p.waiters i := by
  cases own with
  | none => rfl
  | some w =>
    have hne : i ≠ w := fun heq => h (by rw [heq])
    simp only [poolWaiterRemove]
    split
    · exact Function.update_of_ne hne _ _
    · rfl

theorem poolWaiterRemove_nextTicket (p : Pool n m) (own : Option (Fin m)) :
    (poolWaiterRemove p own).nextTicket = p.nextTicket ∧
      (poolWaiterRemove p own).closed = p.closed := by
  cases own with
  | none => exact ⟨rfl, rfl⟩
  | some w =>
    simp only [poolWaiterRemove]
    split <;> exact ⟨rfl, rfl⟩

theorem acquireFinish_queue (h : SameQueue p q) (result : PoolResult) :
    QueueEffect p call (acquireFinish q call result) := by
  obtain ⟨hnext, hclosed⟩ := poolWaiterRemove_nextTicket q call.waiterIndex
  refine .leaves (fun i _ hne => ?_) (.inl (hnext.trans h.nextTicket)) (hclosed.trans h.closed)
  rw [poolWaiterRemove_of_ne hne, h.waiters]

theorem acquirePark_queue (h : SameQueue p q) (nowMs : UInt64) :
    QueueEffect p call (acquirePark q call nowMs) := by
  unfold acquirePark
  split
  · exact acquireFinish_queue h _
  · exact acquireFinish_queue h _
  · exact .stays h

/-- The waiter a call is given was free, and holds the next ticket. -/
theorem poolWaiterAdd_spec {q' : Pool n m} {w : Fin m} {ticket : UInt64}
    (h : poolWaiterAdd q = some (q', w, ticket)) :
    (q.waiters w).active = false ∧ ticket = poolNextNonzero q.nextTicket ∧
      q'.waiters = Function.update q.waiters w ⟨ticket, true⟩ ∧ q'.nextTicket = ticket ∧
      q'.closed = q.closed := by
  unfold poolWaiterAdd at h
  split at h
  · cases h
  · rename_i index hfind
    obtain ⟨rfl, rfl, rfl⟩ : _ ∧ index = w ∧ poolNextNonzero q.nextTicket = ticket := by
      simpa using h
    exact ⟨by simpa using List.find?_some hfind, rfl, rfl, rfl, rfl⟩

theorem acquireQueue_queue (h : SameQueue p q) (hcall : call.Consistent) (nowMs : UInt64) :
    QueueEffect p call (acquireQueue q call nowMs) := by
  unfold acquireQueue
  split
  case isFalse => exact acquirePark_queue h nowMs
  rename_i hzero
  have hnone : call.waiterIndex = none := by
    obtain ⟨-, hnone⟩ | ⟨hticket, -⟩ := hcall
    · exact hnone
    · exact absurd hzero hticket
  split
  · exact acquireFinish_queue h _
  rename_i q' w ticket hadd
  obtain ⟨hfree, hticket, hwaiters, hnext, hclosed⟩ := poolWaiterAdd_spec hadd
  rw [h.waiters] at hfree hwaiters
  rw [h.nextTicket] at hticket
  have hkeeps : KeepsWaiters p q' call := fun i hi _ => by
    have hne : i ≠ w := by
      rintro rfl
      rw [hfree] at hi
      cases hi
    rw [hwaiters, Function.update_of_ne hne]
  -- a call that gives up at once leaves the waiter it was given, which was free
  have hleave (result : PoolResult) : QueueEffect p call
      (acquireFinish q' { call with waiterIndex := some w, ticket := ticket } result) := by
    obtain ⟨hnext', hclosed'⟩ := poolWaiterRemove_nextTicket q' (some w)
    refine .leaves (fun i hi hne => ?_) (.inr ?_) (hclosed'.trans (hclosed.trans h.closed))
    · rw [poolWaiterRemove_of_ne, hkeeps i hi hne]
      rintro ⟨⟩
      rw [hfree] at hi
      cases hi
    · rw [hnext', hnext, hticket]
  unfold acquirePark
  split
  · exact hleave _
  · exact hleave _
  · exact .enters w hfree hkeeps rfl hticket (by rw [hwaiters, Function.update_self]) hnext
      (hclosed.trans h.closed)

/-- A served call leaves the queue. -/
theorem grant_queue (h : SameQueue p q) (index : Fin n) :
    QueueEffect p call
      (poolWaiterRemove (poolFillLease (poolWaiterRemove q call.waiterIndex) index).1
        call.waiterIndex,
        .done .ok (some (poolFillLease (poolWaiterRemove q call.waiterIndex) index).2)) := by
  obtain ⟨hnext, hclosed⟩ := poolWaiterRemove_nextTicket q call.waiterIndex
  obtain ⟨hnext', hclosed'⟩ := poolWaiterRemove_nextTicket
    (poolFillLease (poolWaiterRemove q call.waiterIndex) index).1 call.waiterIndex
  refine .leaves (fun i _ hne => ?_) (.inl ?_) ?_
  · have hfill : (poolFillLease (poolWaiterRemove q call.waiterIndex) index).1.waiters i =
        (poolWaiterRemove q call.waiterIndex).waiters i := rfl
    rw [poolWaiterRemove_of_ne hne, hfill, poolWaiterRemove_of_ne hne, h.waiters]
  · exact hnext'.trans (hnext.trans h.nextTicket)
  · exact hclosed'.trans (hclosed.trans h.closed)

/-- **One round of the acquire loop, for the queue.** -/
theorem acquireRound_queue (hcall : call.Consistent) (r : AcquireReplies n) :
    QueueEffect p call (acquireRound p call r) := by
  unfold acquireRound
  split
  · exact acquireFinish_queue (.refl p) _
  split
  · exact acquireFinish_queue (.refl p) _
  split
  · exact acquireFinish_queue (.refl p) _
  split
  · exact acquireFinish_queue (.refl p) _
  rename_i nowMs _
  split
  · have htake := SameQueue.takeAvailable p nowMs r.validate r.create
    split
    · rename_i q i heq
      rw [heq] at htake
      exact grant_queue htake i
    · rename_i q heq
      rw [heq] at htake
      exact acquireQueue_queue htake hcall nowMs
    · rename_i q result _ heq
      rw [heq] at htake
      exact acquireFinish_queue htake result
  · exact acquireQueue_queue (.refl p) hcall nowMs

/-- A call that queues up, or waits on, is not served in this round. -/
theorem acquireQueue_ne_ok (nowMs : UInt64) (lease : Option Lease) :
    (acquireQueue p call nowMs).2 ≠ .done .ok lease := by
  have hpark (q : Pool n m) (call' : AcquireCall m) :
      (acquirePark q call' nowMs).2 ≠ .done .ok lease := by
    unfold acquirePark
    split <;> simp [acquireFinish]
  unfold acquireQueue
  split
  · split
    · simp [acquireFinish]
    · exact hpark _ _
  · exact hpark _ _

/-- **A call is served only in an open pool and in its turn.** -/
theorem acquireRound_ok {r : AcquireReplies n} {lease : Option Lease}
    (h : (acquireRound p call r).2 = .done .ok lease) :
    p.closed = false ∧ acquireTurn p call = true := by
  unfold acquireRound at h
  split at h
  · simp [acquireFinish] at h
  rename_i hclosed
  split at h
  · simp [acquireFinish] at h
  split at h
  · simp [acquireFinish] at h
  split at h
  · simp [acquireFinish] at h
  rename_i nowMs _
  split at h
  · rename_i hturn
    exact ⟨by simpa using hclosed, hturn⟩
  · exact absurd h (acquireQueue_ne_ok nowMs lease)

/-- The checks before the loop refuse and leave everything as it is, or the first round runs without
a ticket. -/
theorem connectionPoolAcquire_cases (p : Pool n m) (request : AcquireRequest)
    (r : AcquireReplies n) :
    (∃ result, result ≠ .ok ∧ connectionPoolAcquire p request r = (p, .done result none)) ∨
      ∃ deadline, connectionPoolAcquire p request r = acquireRound p ⟨deadline, none, 0⟩ r := by
  unfold connectionPoolAcquire
  split
  · exact .inl ⟨_, by simp, rfl⟩
  split
  · exact .inl ⟨_, by simp, rfl⟩
  split
  · exact .inl ⟨_, by simp, rfl⟩
  split
  · exact .inl ⟨_, by simp, rfl⟩
  · exact .inr ⟨_, rfl⟩

end Round

/-! ## Tickets and waiters -/

/-- **Calls against waiters**: the waiter of a call holds its ticket; tickets were issued, and no
two calls have the same. -/
structure TicketsHeld (p : Pool n m) (calls : List (AcquireCall m)) : Prop where
  held : ∀ call ∈ calls, ∀ w, call.waiterIndex = some w → (p.waiters w).ticket = call.ticket
  issued : ∀ call ∈ calls, call.ticket ≤ p.nextTicket
  once : (calls.map (·.ticket)).Nodup

namespace TicketsHeld

variable {p q : Pool n m} {calls : List (AcquireCall m)} {call : AcquireCall m}

theorem perm {calls' : List (AcquireCall m)} (h : TicketsHeld p calls) (hperm : calls.Perm calls') :
    TicketsHeld p calls' where
  held c hc := h.held c (hperm.mem_iff.mpr hc)
  issued c hc := h.issued c (hperm.mem_iff.mpr hc)
  once := (hperm.map _).nodup_iff.mp h.once

theorem frame (h : TicketsHeld p calls) (hsame : SameQueue p q) : TicketsHeld q calls where
  held := by rw [hsame.waiters]; exact h.held
  issued := by rw [hsame.nextTicket]; exact h.issued
  once := h.once

/-- A call with a ticket of its own joins. -/
theorem cons (h : TicketsHeld p calls)
    (hheld : ∀ w, call.waiterIndex = some w → (p.waiters w).ticket = call.ticket)
    (hissued : call.ticket ≤ p.nextTicket) (hfresh : call.ticket ∉ calls.map (·.ticket)) :
    TicketsHeld p (call :: calls) where
  held := by
    rintro c (_ | ⟨_, hc⟩)
    · exact hheld
    · exact h.held c hc
  issued := by
    rintro c (_ | ⟨_, hc⟩)
    · exact hissued
    · exact h.issued c hc
  once := List.nodup_cons.mpr ⟨hfresh, h.once⟩

/-- A call that starts has no ticket yet. -/
theorem start (h : TicketsHeld p calls) (hqueued : ∀ c ∈ calls, c.ticket ≠ 0)
    (hnone : call.waiterIndex = none) (hzero : call.ticket = 0) :
    TicketsHeld p (call :: calls) := by
  refine h.cons (fun w hw => ?_) ?_ fun hmem => ?_
  · rw [hnone] at hw
    cases hw
  · rw [hzero]
    exact UInt64.le_iff_toNat_le.mpr (Nat.zero_le _)
  · obtain ⟨c, hc, hcz⟩ := List.mem_map.mp hmem
    exact hqueued c hc (hcz.trans hzero)

/-- The other calls keep their tickets when their waiters are kept. -/
theorem others (h : TicketsHeld p (call :: calls))
    (hactive : ∀ c ∈ calls, ∀ w, c.waiterIndex = some w →
      (p.waiters w).active = true ∧ call.waiterIndex ≠ some w)
    (hkeeps : KeepsWaiters p q call) (hnext : p.nextTicket ≤ q.nextTicket) :
    TicketsHeld q calls where
  held c hc w hw := by
    obtain ⟨hw', hne⟩ := hactive c hc w hw
    rw [hkeeps w hw' hne]
    exact h.held c (List.mem_cons_of_mem _ hc) w hw
  issued c hc := UInt64.le_trans (h.issued c (List.mem_cons_of_mem _ hc)) hnext
  once := (List.nodup_cons.mp h.once).2

end TicketsHeld

/-! ## One step of the system -/

namespace PoolSystem

/-- What the acquire that runs in a step answers: the thread, its ticket when the step starts (`0`
before it has drawn one), and how the step ends for it. -/
def answer (s : PoolSystem n m) : PoolEvent n → Option (ℕ × UInt64 × AcquireOutcome m)
  | .acquire thread request r =>
    if thread ∈ s.parked.map Prod.fst then none
    else some (thread, 0, (connectionPoolAcquire s.pool request r).2)
  | .resume thread status r =>
    (s.parked.find? (·.1 == thread)).map fun t =>
      (thread, t.2.ticket, (connectionPoolResume s.pool t.2 status r).2)
  | .release _ _ _ => none
  | .close _ => none

/-- The thread whose acquire returns `VPS_CONNECTION_POOL_OK` in a step, with its ticket. -/
def served (s : PoolSystem n m) (e : PoolEvent n) : Option (ℕ × UInt64) :=
  match s.answer e with
  | some (thread, ticket, .done .ok _) => some (thread, ticket)
  | _ => none

theorem served_eq_some {s : PoolSystem n m} {e : PoolEvent n} {thread : ℕ} {ticket : UInt64} :
    s.served e = some (thread, ticket) ↔
      ∃ lease, s.answer e = some (thread, ticket, .done .ok lease) := by
  unfold served
  split
  · rename_i heq
    rw [heq]
    simp
  · rename_i hne
    constructor
    · rintro ⟨⟩
    · rintro ⟨lease, heq⟩
      exact absurd heq (hne thread ticket lease)

/-- Who is served by a round that answers. -/
theorem done_of_served {s : PoolSystem n m} {e : PoolEvent n} {thread thread' : ℕ}
    {ticket ticket' : UInt64} {outcome : AcquireOutcome m}
    (hanswer : s.answer e = some (thread', ticket', outcome))
    (hserved : s.served e = some (thread, ticket)) :
    thread' = thread ∧ ticket' = ticket ∧ ∃ lease, outcome = .done .ok lease := by
  obtain ⟨lease, heq⟩ := served_eq_some.mp hserved
  rw [hanswer] at heq
  cases heq
  exact ⟨rfl, rfl, lease, rfl⟩

end PoolSystem

/-- **What a step is for the queue**: work beside it, or one round of a call. -/
inductive StepShape (s : PoolSystem n m) (e : PoolEvent n) : Prop
  | beside (inv : PoolInvariant (s.step e).pool) (parked : (s.step e).parked = s.parked)
      (waiters : (s.step e).pool.waiters = s.pool.waiters)
      (next : (s.step e).pool.nextTicket = s.pool.nextTicket)
      (closed : s.pool.closed = true → (s.step e).pool.closed = true)
      (idle : ∀ served, s.served e ≠ some served)
  | round (t : PoolSystem n m) (thread : ℕ) (call : AcquireCall m)
      (out : Pool n m × AcquireOutcome m) (pool : t.pool = s.pool)
      (queued : QueuedBeside s.pool t.parked call) (fresh : thread ∉ t.parked.map Prod.fst)
      (tickets : TicketsHeld s.pool (call :: t.parked.map Prod.snd))
      (rest : ∀ x, x ∈ t.parked ↔ x ∈ s.parked ∧ x.1 ≠ thread)
      (own : call.ticket = 0 ∨ (thread, call) ∈ s.parked)
      (effect : RoundEffect s.pool call out) (queue : QueueEffect s.pool call out)
      (step : s.step e = t.settle thread out)
      (answer : s.answer e = some (thread, call.ticket, out.2))
      (turn : ∀ lease, out.2 = .done .ok lease →
        s.pool.closed = false ∧ acquireTurn s.pool call = true)

/-- A release keeps the accounts. -/
theorem ReleaseEffect.invariant {p : Pool n m} {lease : Option Lease}
    {out : Pool n m × PoolResult × Bool} (heffect : ReleaseEffect p lease out)
    (h : PoolInvariant p) : PoolInvariant out.1 := by
  cases heffect with
  | refused => exact h
  | ended _ _ _ _ _ _ inv => exact inv

/-- **The invariant of the queue.** -/
structure QueueInvariant (s : PoolSystem n m) : Prop where
  pool : PoolInvariant s.pool
  threads : ThreadsQueued s.pool s.parked
  tickets : TicketsHeld s.pool (s.parked.map Prod.snd)

namespace QueueInvariant

variable {s : PoolSystem n m}

/-- An acquire by a thread that is not parked. -/
theorem shape_acquire (h : QueueInvariant s) (thread : ℕ) (request : AcquireRequest)
    (r : AcquireReplies n) : StepShape s (.acquire thread request r) := by
  by_cases hthread : thread ∈ s.parked.map Prod.fst
  · have hstep : s.step (.acquire thread request r) = s := by rw [PoolSystem.step, if_pos hthread]
    refine .beside ?_ ?_ ?_ ?_ ?_ ?_
    all_goals first | rw [hstep] | skip
    · exact h.pool
    · exact id
    · intro served
      simp [PoolSystem.served, PoolSystem.answer, hthread]
  have hstep : s.step (.acquire thread request r) =
      s.settle thread (connectionPoolAcquire s.pool request r) := by
    rw [PoolSystem.step, if_neg hthread]
  have hanswer : s.answer (.acquire thread request r) =
      some (thread, 0, (connectionPoolAcquire s.pool request r).2) := by
    rw [PoolSystem.answer, if_neg hthread]
  obtain ⟨result, hne, hrefused⟩ | ⟨deadline, hround⟩ :=
    connectionPoolAcquire_cases s.pool request r
  · rw [hrefused] at hstep hanswer
    refine .beside ?_ ?_ ?_ ?_ ?_ ?_
    all_goals first | rw [hstep, PoolSystem.settle] | skip
    · exact h.pool
    · exact id
    · rintro ⟨thread', ticket⟩ hserved
      obtain ⟨lease, hserved⟩ := PoolSystem.served_eq_some.mp hserved
      rw [hanswer] at hserved
      simp [hne] at hserved
  rw [hround] at hstep hanswer
  refine .round s thread ⟨deadline, none, 0⟩ _ rfl (h.threads.beside_start rfl) hthread ?_ ?_
    (.inl rfl) (acquireRound_effect h.pool (.inl ⟨rfl, rfl⟩) r)
    (acquireRound_queue (.inl ⟨rfl, rfl⟩) r) hstep hanswer fun lease => acquireRound_ok
  · refine h.tickets.start ?_ rfl rfl
    intro c hc
    obtain ⟨t, ht, rfl⟩ := List.mem_map.mp hc
    exact (h.threads.queued t ht).1
  · intro x
    refine ⟨fun hx => ⟨hx, ?_⟩, And.left⟩
    rintro rfl
    exact hthread (List.mem_map_of_mem hx)

/-- A parked thread takes up its call. -/
theorem shape_resume (h : QueueInvariant s) (thread : ℕ) (status : WaitStatus)
    (r : AcquireReplies n) : StepShape s (.resume thread status r) := by
  rcases hfind : s.parked.find? (·.1 == thread) with _ | ⟨thread', call⟩
  · have hstep : s.step (.resume thread status r) = s := by rw [PoolSystem.step, hfind]
    refine .beside ?_ ?_ ?_ ?_ ?_ ?_
    all_goals first | rw [hstep] | skip
    · exact h.pool
    · exact id
    · intro served
      simp [PoolSystem.served, PoolSystem.answer, hfind]
  obtain ⟨hqueue, hticket, hsome, hthread⟩ := h.threads.beside_resume hfind
  have hmem := List.mem_of_find?_eq_some hfind
  obtain rfl : thread' = thread := by simpa using List.find?_some hfind
  have hperm : s.parked.Perm ((thread', call) :: s.parked.eraseP (·.1 == thread')) :=
    perm_eraseP_of_find? hfind
  refine .round { s with parked := s.parked.eraseP (·.1 == thread') } thread' call
    (connectionPoolResume s.pool call status r) rfl hqueue hthread ?_ ?_ (.inr hmem) ?_ ?_ ?_ ?_ ?_
  · exact h.tickets.perm (hperm.map Prod.snd)
  · intro x
    rw [hperm.mem_iff, List.mem_cons]
    constructor
    · intro hx
      refine ⟨.inr hx, ?_⟩
      rintro rfl
      exact hthread (List.mem_map_of_mem hx)
    · rintro ⟨rfl | hx, hne⟩
      · exact absurd rfl hne
      · exact hx
  · unfold connectionPoolResume
    split
    · exact acquireFinish_effect h.pool (.refl _) rfl _
    · exact acquireRound_effect h.pool (.inr ⟨hticket, hsome⟩) r
  · unfold connectionPoolResume
    split
    · exact acquireFinish_queue (.refl _) _
    · exact acquireRound_queue (.inr ⟨hticket, hsome⟩) r
  · rw [PoolSystem.step, hfind]
  · rw [PoolSystem.answer, hfind]
    rfl
  · intro lease hlease
    unfold connectionPoolResume at hlease
    split at hlease
    · simp [acquireFinish] at hlease
    · exact acquireRound_ok hlease

theorem shape_release (h : QueueInvariant s) (lease : Option Lease)
    (disposition : LeaseDisposition) (r : ReleaseReplies) :
    StepShape s (.release lease disposition r) := by
  have hsame := SameQueue.leaseRelease s.pool lease disposition r
  have hinv := (connectionLeaseRelease_effect h.pool lease disposition r).invariant h.pool
  have hpool : (s.step (.release lease disposition r)).pool =
      (connectionLeaseRelease s.pool lease disposition r).1 ∧
      (s.step (.release lease disposition r)).parked = s.parked := by
    rw [PoolSystem.step]
    split
    all_goals
      rename_i heq
      rw [heq]
      exact ⟨rfl, rfl⟩
  obtain ⟨hpool, hparked⟩ := hpool
  refine .beside ?_ hparked ?_ ?_ ?_ fun served => by simp [PoolSystem.served, PoolSystem.answer]
  all_goals rw [hpool]
  · exact hinv
  · exact hsame.waiters
  · exact hsame.nextTicket
  · intro hclosed
    rw [hsame.closed, hclosed]

theorem shape_close (h : QueueInvariant s) (lockOk : Bool) : StepShape s (.close lockOk) := by
  have hidle (served : ℕ × UInt64) : s.served (.close lockOk) ≠ some served := by
    simp [PoolSystem.served, PoolSystem.answer]
  have hclosed : PoolInvariant { s.pool with closed := true } := { h.pool with }
  have hsame := SameQueue.destroyIdle (List.finRange n) { s.pool with closed := true }
  cases lockOk with
  | false => exact .beside h.pool rfl rfl rfl id hidle
  | true =>
    exact .beside (PoolInvariant.destroyIdle (List.finRange n) hclosed).1 rfl hsame.waiters
      hsame.nextTicket (fun _ => hsame.closed) hidle

/-- **The shape of every step.** -/
theorem shape (h : QueueInvariant s) (e : PoolEvent n) : StepShape s e := by
  cases e with
  | acquire thread request r => exact h.shape_acquire thread request r
  | resume thread status r => exact h.shape_resume thread status r
  | release lease disposition r => exact h.shape_release lease disposition r
  | close lockOk => exact h.shape_close lockOk

end QueueInvariant

/-! ## What a step keeps -/

/-- The step draws no ticket, or the counter has not reached its end. -/
def TicketsLeft (s : PoolSystem n m) (e : PoolEvent n) : Prop :=
  (s.step e).pool.nextTicket ≠ s.pool.nextTicket → s.pool.nextTicket.toNat + 1 < 2 ^ 64

theorem poolNextNonzero_ne (v : UInt64) : poolNextNonzero v ≠ v := by
  unfold poolNextNonzero
  split
  · rintro rfl
    contradiction
  · simp

theorem lt_poolNextNonzero {v : UInt64} (h : v.toNat + 1 < 2 ^ 64) : v < poolNextNonzero v := by
  rw [UInt64.lt_iff_toNat_lt, LeasesOwned.toNat_poolNextNonzero h]
  exact Nat.lt_succ_self _

namespace QueueInvariant

variable {s : PoolSystem n m} {e : PoolEvent n}

/-- A step draws one ticket, or none. -/
theorem step_nextTicket (h : QueueInvariant s) (e : PoolEvent n) :
    (s.step e).pool.nextTicket = s.pool.nextTicket ∨
      (s.step e).pool.nextTicket = poolNextNonzero s.pool.nextTicket := by
  cases h.shape e with
  | beside _ _ _ next => exact .inl next
  | round t thread call out pool _ _ _ _ _ _ queue step =>
    rw [step]
    cases queue with
    | @leaves _ _ lease _ next => cases lease <;> exact next
    | stays same => exact .inl same.nextTicket
    | enters _ _ _ _ ticket _ next => exact .inr (next.trans ticket)

/-- Tickets are drawn in increasing order. -/
theorem le_step_nextTicket (h : QueueInvariant s) (he : TicketsLeft s e) :
    s.pool.nextTicket ≤ (s.step e).pool.nextTicket := by
  rcases eq_or_ne (s.step e).pool.nextTicket s.pool.nextTicket with heq | hne
  · exact heq ▸ UInt64.le_refl _
  · rw [(h.step_nextTicket e).resolve_left hne]
    exact UInt64.le_of_lt (lt_poolNextNonzero (he hne))

/-- The pool stays closed. -/
theorem step_closed (h : QueueInvariant s) (e : PoolEvent n) (hclosed : s.pool.closed = true) :
    (s.step e).pool.closed = true := by
  cases h.shape e with
  | beside _ _ _ _ closed => exact closed hclosed
  | round t thread call out pool _ _ _ _ _ _ queue step =>
    rw [step]
    cases queue with
    | @leaves _ _ lease _ _ closed => cases lease <;> exact closed.trans hclosed
    | stays same => exact same.closed.trans hclosed
    | enters _ _ _ _ _ _ _ closed => exact closed.trans hclosed

/-- **Every step keeps the invariant of the queue.** -/
theorem step (h : QueueInvariant s) (he : TicketsLeft s e) : QueueInvariant (s.step e) := by
  have hle := h.le_step_nextTicket he
  have hroom : (s.step e).pool.nextTicket = poolNextNonzero s.pool.nextTicket →
      s.pool.nextTicket < poolNextNonzero s.pool.nextTicket :=
    fun heq => lt_poolNextNonzero (he (heq ▸ poolNextNonzero_ne _))
  cases h.shape e with
  | beside inv parked waiters next =>
    refine ⟨inv, ?_, ?_⟩
    · rw [parked]
      exact h.threads.frame waiters
    · rw [parked]
      exact {
        held := by rw [waiters]; exact h.tickets.held
        issued := by rw [next]; exact h.tickets.issued
        once := h.tickets.once }
  | round t thread call out pool queued fresh tickets rest own effect queue step =>
    -- the waiters of the parked threads are active, and none of them is the call's
    have hactive : ∀ c ∈ t.parked.map Prod.snd, ∀ w, c.waiterIndex = some w →
        (s.pool.waiters w).active = true ∧ call.waiterIndex ≠ some w := by
      intro c hc w hw
      obtain ⟨x, hx, rfl⟩ := List.mem_map.mp hc
      have hmem : some w ∈ t.parked.map (·.2.waiterIndex) := List.mem_map.mpr ⟨x, hx, hw⟩
      exact ⟨(queued.waiters w).mpr (.inl hmem), fun hown => queued.apart w hown hmem⟩
    rw [step] at hle hroom ⊢
    have hthreads : PoolInvariant (t.settle thread out).pool ∧
        ThreadsQueued (t.settle thread out).pool (t.settle thread out).parked := by
      cases effect with
      | returns inv _ leaves => exact ⟨inv, queued.leave leaves⟩
      | grants _ inv _ _ _ _ _ _ _ _ leaves => exact ⟨inv, queued.leave leaves⟩
      | parks _ inv _ hticket hown hqueue => exact ⟨inv, queued.park fresh hticket hown hqueue⟩
    refine ⟨hthreads.1, hthreads.2, ?_⟩
    cases queue with
    | @leaves _ _ lease keeps =>
      cases lease with
      | none => exact tickets.others hactive keeps hle
      | some lease => exact tickets.others hactive keeps hle
    | stays same => exact tickets.frame same
    | @enters q call' slice waiter free keeps own ticket held next closed =>
      refine (tickets.others hactive keeps hle).cons ?_ ?_ ?_
      · intro w hw
        obtain rfl : waiter = w := Option.some.inj (own.symm.trans hw)
        exact held
      · exact next ▸ UInt64.le_refl _
      · intro hmem
        obtain ⟨c, hc, heq⟩ := List.mem_map.mp hmem
        have hissued := tickets.issued c (List.mem_cons_of_mem _ hc)
        rw [heq, ticket] at hissued
        exact absurd hissued (UInt64.not_le.mpr (hroom (next.trans ticket)))

end QueueInvariant

/-! ## Fair grants -/

/-- One visit of the loop of `vps_pool_first_ticket`. -/
def lowerTicket (p : Pool n m) (first : UInt64) (index : Fin m) : UInt64 :=
  if (p.waiters index).active && (p.waiters index).ticket < first then (p.waiters index).ticket
  else first

theorem lowerTicket_le (p : Pool n m) (first : UInt64) (index : Fin m) :
    lowerTicket p first index ≤ first := by
  unfold lowerTicket
  split
  · rename_i hlt
    simp only [Bool.and_eq_true, decide_eq_true_eq] at hlt
    exact UInt64.le_of_lt hlt.2
  · exact UInt64.le_refl _

theorem lowerTicket_le_ticket {p : Pool n m} {index : Fin m}
    (h : (p.waiters index).active = true) (first : UInt64) :
    lowerTicket p first index ≤ (p.waiters index).ticket := by
  unfold lowerTicket
  split
  · exact UInt64.le_refl _
  · rename_i hlt
    simp only [h, Bool.true_and, decide_eq_true_eq, UInt64.not_lt] at hlt
    exact hlt

/-- The loop only goes down, and below every active waiter it visits. -/
theorem foldl_lowerTicket_le {p : Pool n m} (l : List (Fin m)) (first : UInt64) :
    l.foldl (lowerTicket p) first ≤ first ∧
      ∀ w ∈ l, (p.waiters w).active = true →
        l.foldl (lowerTicket p) first ≤ (p.waiters w).ticket := by
  induction l generalizing first with
  | nil => exact ⟨UInt64.le_refl _, fun _ hw => absurd hw List.not_mem_nil⟩
  | cons index rest ih =>
    obtain ⟨hfirst, hrest⟩ := ih (lowerTicket p first index)
    refine ⟨UInt64.le_trans hfirst (lowerTicket_le p first index), fun w hw hactive => ?_⟩
    rcases List.mem_cons.mp hw with rfl | hw
    · exact UInt64.le_trans hfirst (lowerTicket_le_ticket hactive first)
    · exact hrest w hw hactive

/-- The first ticket is not above the ticket of any active waiter. -/
theorem poolFirstTicket_le {p : Pool n m} {w : Fin m} (hw : (p.waiters w).active = true) :
    poolFirstTicket p ≤ (p.waiters w).ticket :=
  (foldl_lowerTicket_le (List.finRange m) _).2 w (List.mem_finRange w) hw

/-- **A fair grant**: the pool is open, the call served has a ticket when somebody waits, and no
waiter — and no other thread — has a smaller one. -/
structure FairGrant (s : PoolSystem n m) (thread : ℕ) (ticket : UInt64) : Prop where
  notClosed : s.pool.closed = false
  waiters : ∀ w, (s.pool.waiters w).active = true →
    ticket ≠ 0 ∧ ticket ≤ (s.pool.waiters w).ticket
  others : ∀ t ∈ s.parked, t.1 ≠ thread → ticket ≠ 0 ∧ ticket < t.2.ticket

namespace QueueInvariant

variable {s : PoolSystem n m} {e : PoolEvent n}

/-- **Every grant is fair.** -/
theorem fairGrant (h : QueueInvariant s) {thread : ℕ} {ticket : UInt64}
    (hserved : s.served e = some (thread, ticket)) : FairGrant s thread ticket := by
  cases h.shape e with
  | beside _ _ _ _ _ idle => exact absurd hserved (idle _)
  | round t thread' call out pool queued fresh tickets rest own effect queue step answer turn =>
    obtain ⟨rfl, rfl, lease, hout⟩ := PoolSystem.done_of_served answer hserved
    obtain ⟨hopen, hturn⟩ := turn lease hout
    have hwaiters : ∀ w, (s.pool.waiters w).active = true →
        call.ticket ≠ 0 ∧ call.ticket ≤ (s.pool.waiters w).ticket := by
      intro w hw
      simp only [acquireTurn, Bool.or_eq_true, Bool.and_eq_true, beq_iff_eq, bne_iff_ne] at hturn
      obtain ⟨-, hnobody⟩ | ⟨hticket, hfirst⟩ := hturn
      · have hcount := h.pool.waiting
        rw [hnobody] at hcount
        have := countWhere_eq_zero.mp hcount.symm w
        rw [hw] at this
        cases this
      · exact ⟨hticket, hfirst ▸ poolFirstTicket_le hw⟩
    refine ⟨hopen, hwaiters, fun x hx hne => ?_⟩
    have hx' := (rest x).mpr ⟨hx, hne⟩
    obtain ⟨w, hw⟩ := Option.isSome_iff_exists.mp (queued.queued x hx').2
    have hactive := (queued.waiters w).mpr (.inl (List.mem_map.mpr ⟨x, hx', hw⟩))
    obtain ⟨hticket, hle⟩ := hwaiters w hactive
    rw [tickets.held x.2 (List.mem_cons_of_mem _ (List.mem_map_of_mem hx')) w hw] at hle
    refine ⟨hticket, UInt64.lt_of_le_of_ne hle fun heq => ?_⟩
    exact (List.nodup_cons.mp tickets.once).1
      (List.mem_map.mpr ⟨x.2, List.mem_map_of_mem hx', heq.symm⟩)

/-- A call that is served leaves the queue to the other threads. -/
theorem step_served (h : QueueInvariant s) {thread : ℕ} {ticket : UInt64}
    (hserved : s.served e = some (thread, ticket)) :
    (∀ x ∈ (s.step e).parked, x ∈ s.parked ∧ x.1 ≠ thread) ∧
      (ticket = 0 ∨ ∃ x ∈ s.parked, x.2.ticket = ticket) := by
  cases h.shape e with
  | beside _ _ _ _ _ idle => exact absurd hserved (idle _)
  | round t thread' call out pool queued fresh tickets rest own effect queue step answer turn =>
    obtain ⟨rfl, rfl, lease, hout⟩ := PoolSystem.done_of_served answer hserved
    obtain ⟨q, outcome⟩ := out
    obtain rfl : outcome = .done .ok lease := hout
    refine ⟨fun x hx => ?_, own.imp_right fun hmem => ⟨_, hmem, rfl⟩⟩
    rw [step] at hx
    cases lease with
    | none => exact (rest x).mp hx
    | some lease => exact (rest x).mp hx

end QueueInvariant

/-! ## The order of the grants -/

/-- A ticket that was issued, and is below those of the parked threads. -/
structure BelowQueue (s : PoolSystem n m) (bound : UInt64) : Prop where
  issued : bound ≤ s.pool.nextTicket
  parked : ∀ t ∈ s.parked, bound < t.2.ticket

namespace BelowQueue

variable {s : PoolSystem n m} {e : PoolEvent n} {bound : UInt64}

/-- A step leaves it below the queue: who parks anew has the newest ticket. -/
theorem step (hbelow : BelowQueue s bound) (h : QueueInvariant s) (he : TicketsLeft s e) :
    BelowQueue (s.step e) bound := by
  refine ⟨UInt64.le_trans hbelow.issued (h.le_step_nextTicket he), ?_⟩
  have hroom : (s.step e).pool.nextTicket = poolNextNonzero s.pool.nextTicket →
      s.pool.nextTicket < poolNextNonzero s.pool.nextTicket :=
    fun heq => lt_poolNextNonzero (he (heq ▸ poolNextNonzero_ne _))
  cases h.shape e with
  | beside _ parked => exact parked ▸ hbelow.parked
  | round t thread call out pool queued fresh tickets rest own effect queue step =>
    have hrest : ∀ x ∈ t.parked, bound < x.2.ticket :=
      fun x hx => hbelow.parked x ((rest x).mp hx).1
    rw [step] at hroom ⊢
    cases queue with
    | @leaves _ _ lease => cases lease <;> exact hrest
    | stays same =>
      rintro x (_ | ⟨_, hx⟩)
      · cases effect with
        | parks _ _ _ hticket => exact hbelow.parked _ (own.resolve_left hticket)
      · exact hrest x hx
    | enters waiter free keeps hown ticket held next =>
      rintro x (_ | ⟨_, hx⟩)
      · rw [ticket]
        exact UInt64.lt_of_le_of_lt hbelow.issued (hroom (next.trans ticket))
      · exact hrest x hx

/-- A ticket that is served is above. -/
theorem lt_served (hbelow : BelowQueue s bound) (h : QueueInvariant s) {thread : ℕ}
    {ticket : UInt64} (hserved : s.served e = some (thread, ticket)) (hticket : ticket ≠ 0) :
    bound < ticket := by
  obtain ⟨x, hx, rfl⟩ := (h.step_served hserved).2.resolve_left hticket
  exact hbelow.parked x hx

/-- A ticket that was served is below the queue itself. -/
theorem of_served (h : QueueInvariant s) (he : TicketsLeft s e) {thread : ℕ} {ticket : UInt64}
    (hserved : s.served e = some (thread, ticket)) (hticket : ticket ≠ 0) :
    BelowQueue (s.step e) ticket := by
  obtain ⟨hparked, hown⟩ := h.step_served hserved
  obtain ⟨x, hx, rfl⟩ := hown.resolve_left hticket
  refine ⟨?_, fun y hy => ?_⟩
  · exact UInt64.le_trans (h.tickets.issued x.2 (List.mem_map_of_mem hx)) (h.le_step_nextTicket he)
  · obtain ⟨hy', hne⟩ := hparked y hy
    exact ((h.fairGrant hserved).others y hy' hne).2

end BelowQueue

/-- The tickets of the calls served along a run, in order; calls served without a ticket are left
out. -/
def servedTickets (s : PoolSystem n m) : List (PoolEvent n) → List UInt64
  | [] => []
  | e :: es => ((s.served e).map Prod.snd).toList.filter (· ≠ 0) ++ servedTickets (s.step e) es

theorem servedTickets_above {bound : UInt64} {es : List (PoolEvent n)} {s : PoolSystem n m}
    (hrun : Along TicketsLeft PoolSystem.step s es) (h : QueueInvariant s)
    (hbelow : BelowQueue s bound) : ∀ ticket ∈ servedTickets s es, bound < ticket := by
  induction es generalizing s with
  | nil => exact fun _ hmem => absurd hmem List.not_mem_nil
  | cons e es ih =>
    obtain ⟨he, hrun⟩ := hrun
    intro ticket hmem
    rw [servedTickets, List.mem_append, List.mem_filter, Option.mem_toList, Option.map_eq_some_iff]
      at hmem
    obtain ⟨⟨⟨thread, _⟩, hserved, rfl⟩, hticket⟩ | hmem := hmem
    · exact hbelow.lt_served h hserved (by simpa using hticket)
    · exact ih hrun (h.step he) (hbelow.step h he) ticket hmem

/-- **The tickets served are increasing.** -/
theorem pairwise_servedTickets {es : List (PoolEvent n)} {s : PoolSystem n m}
    (hrun : Along TicketsLeft PoolSystem.step s es) (h : QueueInvariant s) :
    (servedTickets s es).Pairwise (· < ·) := by
  induction es generalizing s with
  | nil => exact List.Pairwise.nil
  | cons e es ih =>
    obtain ⟨he, hrun⟩ := hrun
    rw [servedTickets, List.pairwise_append]
    refine ⟨?_, ih hrun (h.step he), fun ticket hmem later hlater => ?_⟩
    · exact List.Pairwise.filter _ (by cases s.served e <;> simp)
    · rw [List.mem_filter, Option.mem_toList, Option.map_eq_some_iff] at hmem
      obtain ⟨⟨⟨thread, _⟩, hserved, rfl⟩, hticket⟩ := hmem
      have hbelow := BelowQueue.of_served h he hserved (by simpa using hticket)
      exact servedTickets_above hrun (h.step he) hbelow later hlater

/-! ## Every interleaving -/

/-- The tickets a run issues. -/
def ticketsIssued (s : PoolSystem n m) : List (PoolEvent n) → ℕ
  | [] => 0
  | e :: es => (if (s.step e).pool.nextTicket = s.pool.nextTicket then 0 else 1) +
      ticketsIssued (s.step e) es

/-- As long as fewer than `2 ^ 64` tickets are issued, the counter does not wrap. -/
theorem along_ticketsLeft {es : List (PoolEvent n)} {s : PoolSystem n m} (h : QueueInvariant s)
    (hfew : s.pool.nextTicket.toNat + ticketsIssued s es < 2 ^ 64) :
    Along TicketsLeft PoolSystem.step s es := by
  induction es generalizing s with
  | nil => trivial
  | cons e es ih =>
    rw [ticketsIssued] at hfew
    rcases h.step_nextTicket e with hsame | hdrawn
    · rw [if_pos hsame, Nat.zero_add] at hfew
      have he : TicketsLeft s e := fun hne => absurd hsame hne
      exact ⟨he, ih (h.step he) (hsame ▸ hfew)⟩
    · rw [if_neg (hdrawn ▸ poolNextNonzero_ne _)] at hfew
      have hroom : s.pool.nextTicket.toNat + 1 < 2 ^ 64 := by omega
      have he : TicketsLeft s e := fun _ => hroom
      refine ⟨he, ih (h.step he) ?_⟩
      rw [hdrawn, LeasesOwned.toNat_poolNextNonzero hroom]
      omega

/-- Opening the minimum queues nobody and draws no ticket. -/
theorem SameQueue.fillMinimum (p : Pool n m) (reply : ℕ → CreateReply) (k : ℕ) :
    SameQueue p (poolFillMinimum p reply k).1 := by
  induction k with
  | zero => exact .refl p
  | succ k ih =>
    rw [poolFillMinimum]
    split
    · rename_i q hq
      rw [hq] at ih
      have hcreate := SameQueue.createSlot q (reply k)
      split
      all_goals
        rename_i heq
        rw [heq] at hcreate
        exact ih.trans hcreate
    · rename_i q _ _ hq
      rw [hq] at ih
      exact ih

/-- A created pool has drawn no ticket. -/
theorem connectionPoolCreate_nextTicket (config : PoolConfig) (reply : ℕ → CreateReply)
    (hcreate : (connectionPoolCreate config reply).2 = .ok) :
    (connectionPoolCreate config reply).1.nextTicket = 0 := by
  unfold connectionPoolCreate at hcreate ⊢
  dsimp only at hcreate ⊢
  have hsame := SameQueue.fillMinimum
    (poolEmpty config config.maximumSize.toNat config.maximumWaiters.toNat) reply
    config.minimumSize.toNat
  split
  · rfl
  rename_i hvalid
  rw [if_neg hvalid] at hcreate
  split at hcreate
  · rename_i q hq
    rw [hq] at hsame
    exact hsame.nextTicket
  · rename_i result hne _
    exact absurd hcreate hne

/-- A created pool starts with the invariant of the queue. -/
theorem QueueInvariant.start {config : PoolConfig} {reply : ℕ → CreateReply}
    (hcreate : (connectionPoolCreate config reply).2 = .ok) :
    QueueInvariant (PoolSystem.start (connectionPoolCreate config reply).1) where
  pool := (PoolSystemInvariant.start hcreate).pool
  threads := (PoolSystemInvariant.start hcreate).threads
  tickets := ⟨fun _ hmem => absurd hmem List.not_mem_nil,
    fun _ hmem => absurd hmem List.not_mem_nil, List.nodup_nil⟩

/-- Closing closes. -/
theorem step_close_closed (s : PoolSystem n m) : (s.step (.close true)).pool.closed = true :=
  (SameQueue.destroyIdle (List.finRange n) { s.pool with closed := true }).closed

/-- **Pool fairness.**  Along every interleaving of acquires (cut at every condition wait),
timeouts, interrupts, releases and closes that issues fewer than `2 ^ 64` tickets: whenever an
acquire returns `OK`, no waiter and no other thread has a smaller ticket, and a call without a
ticket is served only when nobody waits; the tickets served are increasing; and after a close no
acquire returns `OK`. -/
theorem pool_fairness (config : PoolConfig) (reply : ℕ → CreateReply)
    (hcreate : (connectionPoolCreate config reply).2 = .ok)
    (es : List (PoolEvent config.maximumSize.toNat))
    (hfew : ticketsIssued (PoolSystem.start (connectionPoolCreate config reply).1) es < 2 ^ 64) :
    let start := PoolSystem.start (connectionPoolCreate config reply).1
    (∀ before e after, es = before ++ e :: after → ∀ thread ticket,
        (before.foldl PoolSystem.step start).served e = some (thread, ticket) →
          FairGrant (before.foldl PoolSystem.step start) thread ticket) ∧
      (servedTickets start es).Pairwise (· < ·) ∧
      (∀ before middle e after, es = before ++ .close true :: (middle ++ e :: after) →
        ((before ++ .close true :: middle).foldl PoolSystem.step start).served e = none) := by
  intro start
  have hstart : QueueInvariant start := .start hcreate
  have hrun : Along TicketsLeft PoolSystem.step start es := by
    refine along_ticketsLeft hstart ?_
    have hzero : start.pool.nextTicket = 0 := connectionPoolCreate_nextTicket config reply hcreate
    rw [hzero]
    simpa using hfew
  refine ⟨?_, pairwise_servedTickets hrun hstart, ?_⟩
  · rintro before e after rfl thread ticket hserved
    have hbefore : QueueInvariant (before.foldl PoolSystem.step start) :=
      (Along.append.mp hrun).1.invariant QueueInvariant (fun _ _ h he => h.step he) hstart
    exact hbefore.fairGrant hserved
  · rintro before middle e after rfl
    obtain ⟨hbefore, hclose, hmiddle⟩ := Along.append.mp hrun
    have hinv : QueueInvariant (before.foldl PoolSystem.step start) :=
      hbefore.invariant QueueInvariant (fun _ _ h he => h.step he) hstart
    obtain ⟨hinv', hclosed⟩ := (Along.append.mp hmiddle).1.invariant
      (fun s => QueueInvariant s ∧ s.pool.closed = true)
      (fun _ e h he => ⟨h.1.step he, h.1.step_closed e h.2⟩)
      ⟨hinv.step hclose, step_close_closed _⟩
    rw [List.foldl_append, List.foldl_cons]
    by_contra hserved
    obtain ⟨⟨thread, ticket⟩, hserved⟩ := Option.ne_none_iff_exists'.mp hserved
    have hopen := (hinv'.fairGrant hserved).notClosed
    rw [hclosed] at hopen
    cases hopen

/-- Two threads wait for the connection of a third one.  The second of them wakes up first, finds
that it is not its turn, and is served after the other; then the pool is closed. -/
def queueRun : List (PoolEvent singleConfig.maximumSize.toNat) :=
  let request : AcquireRequest := ⟨true, some ⟨[1], 0, 0, false⟩, 100, some 5, true⟩
  let replies : AcquireReplies _ := ⟨none, some 6, fun _ => true, ⟨true, some 9⟩⟩
  [.acquire 1 request replies, .acquire 2 request replies, .acquire 3 request replies,
    .release (some ⟨7, 1, 0⟩) .clean ⟨true, true, some 8⟩, .resume 3 .ok replies,
    .resume 2 .ok replies, .release (some ⟨7, 2, 0⟩) .clean ⟨true, true, some 8⟩,
    .resume 3 .ok replies, .close true, .acquire 4 request replies]

theorem pool_fairness_queueRun :
    let start := PoolSystem.start (connectionPoolCreate singleConfig fun _ => ⟨true, some 7⟩).1
    servedTickets start queueRun = [1, 2] ∧
    (∀ before e after, queueRun = before ++ e :: after → ∀ thread ticket,
        (before.foldl PoolSystem.step start).served e = some (thread, ticket) →
          FairGrant (before.foldl PoolSystem.step start) thread ticket) ∧
      (servedTickets start queueRun).Pairwise (· < ·) ∧
      (∀ before middle e after, queueRun = before ++ .close true :: (middle ++ e :: after) →
        ((before ++ .close true :: middle).foldl PoolSystem.step start).served e = none) :=
  ⟨by decide +kernel,
    pool_fairness singleConfig (fun _ => ⟨true, some 7⟩) (by decide) queueRun (by decide +kernel)⟩

end Vps
