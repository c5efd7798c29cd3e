import VirtualPostgreSQL.Machinery.Run
import VirtualPostgreSQL.Pool.Accounting

/-!
# Pool/Interleaving — threads, leases and the exclusivity of the pool

Any number of threads acquire, wait, release and close.  A thread parked in the condition wait keeps
the locals of its call; leases are values that their holders may copy, so a release may name any
lease value at all.  The system records which leases are outstanding and which were released;
`PoolSystemInvariant` ties them to the slots in use, and the parked threads to the active waiters.

`pool_accounting` is the result: it holds along every interleaving with every outcome of the
callbacks, and a lease that is not outstanding can be released without effect.
-/

namespace Vps

open Machinery

variable {n m : ℕ}

/-! ## The waiters are not touched by slot work -/

@[simp] theorem poolDestroySlot_waiters (p : Pool n m) (i : Fin n) :
    (poolDestroySlot p i).waiters = p.waiters := by
  unfold poolDestroySlot
  split <;> rfl

@[simp] theorem poolCreateSlot_waiters (p : Pool n m) (reply : CreateReply) :
    (poolCreateSlot p reply).1.waiters = p.waiters := by
  unfold poolCreateSlot
  split
  · rfl
  · split
    · rfl
    · split <;> rfl

@[simp] theorem poolTakeIdle_waiters (nowMs : UInt64) (validate : Fin n → Bool) :
    ∀ (l : List (Fin n)) (p : Pool n m), (poolTakeIdle nowMs validate l p).1.waiters = p.waiters
  | [], _ => rfl
  | i :: rest, p => by
    rw [poolTakeIdle]
    split
    · exact poolTakeIdle_waiters nowMs validate rest p
    · split
      · rw [poolTakeIdle_waiters nowMs validate rest, poolDestroySlot_waiters]
      · rfl

@[simp] theorem poolTakeAvailable_waiters (p : Pool n m) (nowMs : UInt64) (validate : Fin n → Bool)
    (create : CreateReply) : (poolTakeAvailable p nowMs validate create).1.waiters = p.waiters := by
  have hidle := poolTakeIdle_waiters nowMs validate (List.finRange n) p
  unfold poolTakeAvailable
  split
  · rename_i heq
    rw [heq] at hidle
    exact hidle
  · rename_i heq
    rw [heq] at hidle
    split
    · rw [poolCreateSlot_waiters]
      exact hidle
    · exact hidle

@[simp] theorem poolDestroyIdle_waiters :
    ∀ (l : List (Fin n)) (p : Pool n m), (poolDestroyIdle l p).waiters = p.waiters
  | [], _ => rfl
  | i :: rest, p => by
    rw [poolDestroyIdle, poolDestroyIdle_waiters rest]
    split
    · rfl
    · exact poolDestroySlot_waiters p i

/-! ## One round of an acquire -/

/-- The locals of a call are consistent: queued with a waiter and a ticket, or with neither. -/
def AcquireCall.Consistent (call : AcquireCall m) : Prop :=
  (call.ticket = 0 ∧ call.waiterIndex = none) ∨ (call.ticket ≠ 0 ∧ call.waiterIndex.isSome)

/-- The queue after a call has left it: its own waiter is inactive. -/
def LeavesQueue (p q : Pool n m) (call : AcquireCall m) : Prop :=
  ∀ i, (q.waiters i).active = ((p.waiters i).active && decide (call.waiterIndex ≠ some i))

/-- **What one round does**: it returns empty-handed, returns a lease of an idle slot, or parks. -/
inductive RoundEffect (p : Pool n m) (call : AcquireCall m) : Pool n m × AcquireOutcome m → Prop
  | returns {q : Pool n m} {result : PoolResult} (inv : PoolInvariant q) (same : SameLeases p q)
      (leaves : LeavesQueue p q call) : RoundEffect p call (q, .done result none)
  | grants {q : Pool n m} {result : PoolResult} {lease : Lease} (index : Fin n)
      (inv : PoolInvariant q) (free : (p.slots index).inUse = false)
      (others : ∀ j, j ≠ index → (p.slots j).inUse = true ∨ (q.slots j).inUse = true →
        q.slots j = p.slots j)
      (slotIndex : lease.slotIndex = index) (used : (q.slots index).inUse = true)
      (address : (q.slots index).connection.map Connection.address = some lease.address)
      (token : (q.slots index).leaseToken = lease.token)
      (drawn : lease.token = poolNextNonzero p.nextToken) (nextToken : q.nextToken = lease.token)
      (leaves : LeavesQueue p q call) : RoundEffect p call (q, .done result (some lease))
  | parks {q : Pool n m} {call' : AcquireCall m} {slice : UInt64} (waiter : Fin m)
      (inv : PoolInvariant q) (same : SameLeases p q) (ticket : call'.ticket ≠ 0)
      (own : call'.waiterIndex = some waiter)
      (queue : (call.waiterIndex = some waiter ∧ q.waiters = p.waiters) ∨
        (call.waiterIndex = none ∧ (p.waiters waiter).active = false ∧
          ∀ i, (q.waiters i).active = ((p.waiters i).active || decide (i = waiter)))) :
      RoundEffect p call (q, .park call' slice)

section Round

variable {p q : Pool n m} {call : AcquireCall m}

theorem acquireFinish_effect (h : PoolInvariant q) (hsame : SameLeases p q)
    (hwaiters : q.waiters = p.waiters) (result : PoolResult) :
    RoundEffect p call (acquireFinish q call result) := by
  obtain ⟨h', hsame'⟩ := h.waiterRemove call.waiterIndex
  refine .returns h' (hsame.trans hsame') fun i => ?_
  rw [poolWaiterRemove_active, hwaiters]

/-- A queued call waits on, or gives up at its deadline. -/
theorem acquirePark_effect (h : PoolInvariant q) (hsame : SameLeases p q)
    (hwaiters : q.waiters = p.waiters) (hticket : call.ticket ≠ 0) {w : Fin m}
    (hw : call.waiterIndex = some w) (nowMs : UInt64) :
    RoundEffect p call (acquirePark q call nowMs) := by
  unfold acquirePark
  split
  · exact acquireFinish_effect h hsame hwaiters _
  · exact acquireFinish_effect h hsame hwaiters _
  · exact .parks w h hsame hticket hw (Or.inl ⟨hw, hwaiters⟩)

/-- A call that just queued up: the waiter it took was inactive, so leaving at once restores the
queue. -/
theorem acquireQueue_effect (h : PoolInvariant q) (hsame : SameLeases p q)
    (hwaiters : q.waiters = p.waiters) (hcall : call.Consistent) (nowMs : UInt64) :
    RoundEffect p call (acquireQueue q call nowMs) := by
  unfold acquireQueue
  rcases hcall with ⟨hzero, hnone⟩ | ⟨hticket, hsome⟩
  · rw [if_pos hzero]
    split
    · exact acquireFinish_effect h hsame hwaiters _
    · rename_i q' w ticket hadd
      obtain ⟨h', hsame', hticket, hfree, hupdate⟩ := h.waiterAdd hadd
      rw [hwaiters] at hfree hupdate
      have hactive : ∀ i, (q'.waiters i).active = ((p.waiters i).active || decide (i = w)) := by
        intro i
        rw [hupdate]
        rcases eq_or_ne i w with rfl | hne
        · simp
        · simp [hne]
      have hleave : ∀ result, RoundEffect p call (acquireFinish q'
          { call with waiterIndex := some w, ticket := ticket } result) := by
        intro result
        obtain ⟨h'', hsame''⟩ := h'.waiterRemove (some w)
        refine .returns h'' ((hsame.trans hsame').trans hsame'') fun i => ?_
        rw [poolWaiterRemove_active, hactive, hnone]
        rcases eq_or_ne i w with rfl | hne
        · simp [hfree]
        · simp [hne, hne.symm]
      unfold acquirePark
      split
      · exact hleave _
      · exact hleave _
      · exact .parks w h' (hsame.trans hsame') hticket rfl (Or.inr ⟨hnone, hfree, hactive⟩)
  · rw [if_neg hticket]
    obtain ⟨w, hw⟩ := Option.isSome_iff_exists.mp hsome
    exact acquirePark_effect h hsame hwaiters hticket hw nowMs

/-- An idle connection found in a round is leased, after the call has left the queue. -/
theorem grant_effect (h : PoolInvariant q) (hsame : SameLeases p q)
    (hwaiters : q.waiters = p.waiters)
    {i : Fin n} (hsome : (q.slots i).connection.isSome = true) (hfree : (q.slots i).inUse = false) :
    RoundEffect p call
      (poolWaiterRemove (poolFillLease (poolWaiterRemove q call.waiterIndex) i).1 call.waiterIndex,
        .done .ok (some (poolFillLease (poolWaiterRemove q call.waiterIndex) i).2)) := by
  obtain ⟨h₂, -⟩ := h.waiterRemove call.waiterIndex
  have h₃ := h₂.fillLease (i := i) (by simpa using hsome) (by simpa using hfree)
  obtain ⟨h₄, -⟩ := h₃.waiterRemove call.waiterIndex
  obtain ⟨c, hc⟩ := Option.isSome_iff_exists.mp hsome
  have hfree' : (p.slots i).inUse = false := by
    by_contra hused
    rw [hsame.slots i (Or.inl (by simpa using hused))] at hfree
    exact hused hfree
  refine .grants i h₄ hfree' ?_ rfl ?_ ?_ ?_ ?_ ?_ ?_
  · intro j hj hused
    have hj' : (poolFillLease (poolWaiterRemove q call.waiterIndex) i).1.slots j = q.slots j := by
      simp [poolFillLease, Function.update_of_ne hj]
    simp only [poolWaiterRemove_slots, hj'] at hused ⊢
    exact hsame.slots j hused
  · simp [poolFillLease]
  · simp [poolFillLease, hc]
  · simp [poolFillLease]
  · simp [poolFillLease, hsame.nextToken]
  · simp [poolFillLease]
  · intro w
    have hkeep : (poolFillLease (poolWaiterRemove q call.waiterIndex) i).1.waiters =
        (poolWaiterRemove q call.waiterIndex).waiters := rfl
    rw [poolWaiterRemove_active, hkeep, poolWaiterRemove_active, hwaiters, Bool.and_assoc,
      Bool.and_self]

/-- **One round of the acquire loop.** -/
theorem acquireRound_effect (h : PoolInvariant p) (hcall : call.Consistent) (r : AcquireReplies n) :
    RoundEffect p call (acquireRound p call r) := by
  have hfinish (result : PoolResult) : RoundEffect p call (acquireFinish p call result) :=
    acquireFinish_effect h (.refl p) rfl result
  unfold acquireRound
  split
  · exact hfinish _
  split
  · exact hfinish _
  split
  · exact hfinish _
  split
  · exact hfinish _
  rename_i nowMs _
  split
  · obtain ⟨h₁, hsame, hfound⟩ := h.takeAvailable nowMs r.validate r.create
    have hw₁ := poolTakeAvailable_waiters p nowMs r.validate r.create
    split
    · rename_i q i heq
      rw [heq] at h₁ hsame hfound hw₁
      obtain ⟨hsome, hfree⟩ := hfound i rfl
      exact grant_effect h₁ hsame hw₁ hsome hfree
    · rename_i q heq
      rw [heq] at h₁ hsame hw₁
      exact acquireQueue_effect h₁ hsame hw₁ hcall nowMs
    · rename_i q result _ heq
      rw [heq] at h₁ hsame hw₁
      exact acquireFinish_effect h₁ hsame hw₁ result
  · exact acquireQueue_effect h (.refl p) rfl hcall nowMs

end Round

/-! ## One release -/

/-- **What a release does**: nothing at all, or it ends the lease of the slot it names. -/
inductive ReleaseEffect (p : Pool n m) (lease : Option Lease) : Pool n m × PoolResult × Bool → Prop
  | refused {result : PoolResult} : ReleaseEffect p lease (p, result, false)
  | ended {q : Pool n m} {result : PoolResult} {named : Lease} (index : Fin n)
      (names : lease = some named) (slotIndex : named.slotIndex = index)
      (used : (p.slots index).inUse = true)
      (address : (p.slots index).connection.map Connection.address = some named.address)
      (token : (p.slots index).leaseToken = named.token)
      (inv : PoolInvariant q) (free : (q.slots index).inUse = false)
      (others : ∀ j, j ≠ index → q.slots j = p.slots j) (nextToken : q.nextToken = p.nextToken)
      (waiters : q.waiters = p.waiters) : ReleaseEffect p lease (q, result, true)

theorem poolDestroySlot_of_ne {p : Pool n m} {i j : Fin n} (h : j ≠ i) :
    (poolDestroySlot p i).slots j = p.slots j := by
  unfold poolDestroySlot
  split
  · rfl
  · exact Function.update_of_ne h _ _

theorem poolDestroySlot_inUse {p : Pool n m} {i : Fin n} (h : (p.slots i).inUse = false) :
    ((poolDestroySlot p i).slots i).inUse = false := by
  unfold poolDestroySlot
  split
  · exact h
  · simp

theorem connectionLeaseRelease_effect {p : Pool n m} (h : PoolInvariant p) (lease : Option Lease)
    (disposition : LeaseDisposition) (r : ReleaseReplies) :
    ReleaseEffect p lease (connectionLeaseRelease p lease disposition r) := by
  unfold connectionLeaseRelease
  split
  · exact .refused
  rename_i named
  split
  · exact .refused
  split
  case isFalse => exact .refused
  rename_i hlt
  dsimp only
  split
  · exact .refused
  rename_i hmatch
  simp only [Bool.or_eq_true, Bool.not_eq_true', decide_eq_true_eq, not_or, Bool.not_eq_false,
    ne_eq, not_not] at hmatch
  obtain ⟨⟨hused, haddress⟩, htoken⟩ := hmatch
  have hidle := h.endLease hused
  have hfree : ((poolEndLease p ⟨named.slotIndex, hlt⟩).slots ⟨named.slotIndex, hlt⟩).inUse =
      false := by simp [poolEndLease]
  have hothers : ∀ j, j ≠ ⟨named.slotIndex, hlt⟩ →
      (poolEndLease p ⟨named.slotIndex, hlt⟩).slots j = p.slots j :=
    fun j hj => Function.update_of_ne hj _ _
  have hdestroy : ∀ result, ReleaseEffect p (some named)
      (poolDestroySlot (poolEndLease p ⟨named.slotIndex, hlt⟩) ⟨named.slotIndex, hlt⟩, result,
        true) := by
    intro result
    obtain ⟨h', hsame⟩ := hidle.destroySlot hfree
    exact .ended ⟨named.slotIndex, hlt⟩ rfl rfl hused haddress htoken h'
      (poolDestroySlot_inUse hfree)
      (fun j hj => (poolDestroySlot_of_ne hj).trans (hothers j hj))
      hsame.nextToken (poolDestroySlot_waiters _ _)
  split
  · exact hdestroy _
  split
  · exact hdestroy _
  split
  · exact hdestroy _
  · refine .ended ⟨named.slotIndex, hlt⟩ rfl rfl hused haddress htoken (hidle.touch _ _) ?_ ?_ rfl
      rfl
    · simp [poolTouch, hfree]
    · intro j hj
      exact (Function.update_of_ne hj _ _).trans (hothers j hj)

/-! ## The system -/

/-- **The pool with its threads and leases.** -/
structure PoolSystem (n m : ℕ) where
  pool : Pool n m
  /-- The threads in the condition wait, with the locals of their calls. -/
  parked : List (ℕ × AcquireCall m)
  /-- The leases granted and not yet released. -/
  outstanding : List Lease
  /-- The leases released so far. -/
  released : List Lease

/-- What a thread does next, with what its environment answers. -/
inductive PoolEvent (n : ℕ)
  | acquire (thread : ℕ) (request : AcquireRequest) (r : AcquireReplies n)
  | resume (thread : ℕ) (status : WaitStatus) (r : AcquireReplies n)
  | release (lease : Option Lease) (disposition : LeaseDisposition) (r : ReleaseReplies)
  | close (lockOk : Bool)

namespace PoolSystem

/-- The end of a thread's step in an acquire. -/
def settle (s : PoolSystem n m) (thread : ℕ) : Pool n m × AcquireOutcome m → PoolSystem n m
  | (q, .done _ none) => { s with pool := q }
  | (q, .done _ (some lease)) => { s with pool := q, outstanding := lease :: s.outstanding }
  | (q, .park call _) => { s with pool := q, parked := (thread, call) :: s.parked }

/-- **One atomic step.**  A thread that is parked resumes its call before it starts another. -/
def step (s : PoolSystem n m) : PoolEvent n → PoolSystem n m
  | .acquire thread request r =>
    if thread ∈ s.parked.map Prod.fst then s
    else s.settle thread (connectionPoolAcquire s.pool request r)
  | .resume thread status r =>
    match s.parked.find? (·.1 == thread) with
    | none => s
    | some (_, call) =>
      { s with parked := s.parked.eraseP (·.1 == thread) }.settle thread
        (connectionPoolResume s.pool call status r)
  | .release lease disposition r =>
    match connectionLeaseRelease s.pool lease disposition r with
    | (q, _, false) => { s with pool := q }
    | (q, _, true) =>
      { s with
        pool := q
        outstanding := s.outstanding.filter fun other => some other ≠ lease
        released := lease.toList ++ s.released }
  | .close lockOk => { s with pool := (connectionPoolClose s.pool lockOk).1 }

end PoolSystem

/-! ## Leases and slots in use -/

/-- The slot a lease names is in use under that lease. -/
def Lease.Holds (p : Pool n m) (lease : Lease) : Prop :=
  ∃ i : Fin n, lease.slotIndex = i ∧ (p.slots i).inUse = true ∧
    (p.slots i).connection.map Connection.address = some lease.address ∧
    (p.slots i).leaseToken = lease.token

/-- **Leases against slots**: the outstanding leases are exactly the slots in use, one each, and the
tokens drawn so far are all different. -/
structure LeasesOwned (p : Pool n m) (outstanding released : List Lease) : Prop where
  holds : ∀ lease ∈ outstanding, lease.Holds p
  owned : ∀ i, (p.slots i).inUse = true → ∃ lease ∈ outstanding, lease.slotIndex = i
  exclusive : (outstanding.map Lease.slotIndex).Nodup
  tokens : ((outstanding ++ released).map Lease.token).Nodup
  drawn : ∀ lease ∈ outstanding ++ released, lease.token.toNat ≤ p.nextToken.toNat
  count : p.nextToken.toNat = outstanding.length + released.length

namespace LeasesOwned

variable {p q : Pool n m} {outstanding released : List Lease}

/-- Work on idle slots concerns no lease. -/
theorem frame (h : LeasesOwned p outstanding released) (hsame : SameLeases p q) :
    LeasesOwned q outstanding released where
  holds lease hmem := by
    obtain ⟨i, hi, hused, haddress, htoken⟩ := h.holds lease hmem
    have hslot := hsame.slots i (Or.inl hused)
    exact ⟨i, hi, by rw [hslot]; exact hused, by rw [hslot]; exact haddress,
      by rw [hslot]; exact htoken⟩
  owned i hi := by
    have hslot := hsame.slots i (Or.inr hi)
    exact h.owned i (by rw [← hslot]; exact hi)
  exclusive := h.exclusive
  tokens := h.tokens
  drawn := by rw [hsame.nextToken]; exact h.drawn
  count := by rw [hsame.nextToken]; exact h.count

theorem toNat_poolNextNonzero {v : UInt64} (h : v.toNat + 1 < 2 ^ 64) :
    (poolNextNonzero v).toNat = v.toNat + 1 := by
  have hadd : (v + 1).toNat = v.toNat + 1 := by
    rw [UInt64.toNat_add]
    exact Nat.mod_eq_of_lt h
  unfold poolNextNonzero
  split
  · rename_i hzero
    rw [hzero] at hadd
    cases hadd
  · exact hadd

/-- A new lease draws a new token for a slot that was idle. -/
theorem grant (h : LeasesOwned p outstanding released) (hroom : p.nextToken.toNat + 1 < 2 ^ 64)
    {lease : Lease} {index : Fin n} (hfree : (p.slots index).inUse = false)
    (hothers : ∀ j, j ≠ index → (p.slots j).inUse = true ∨ (q.slots j).inUse = true →
      q.slots j = p.slots j)
    (hindex : lease.slotIndex = index) (hused : (q.slots index).inUse = true)
    (haddress : (q.slots index).connection.map Connection.address = some lease.address)
    (htoken : (q.slots index).leaseToken = lease.token)
    (hdrawn : lease.token = poolNextNonzero p.nextToken) (hnext : q.nextToken = lease.token) :
    LeasesOwned q (lease :: outstanding) released := by
  have hvalue : lease.token.toNat = p.nextToken.toNat + 1 := by
    rw [hdrawn]
    exact toNat_poolNextNonzero hroom
  have hne : ∀ other ∈ outstanding, other.slotIndex ≠ index := by
    intro other hmem heq
    obtain ⟨i, hi, hi', -⟩ := h.holds other hmem
    obtain rfl : i = index := Fin.ext (hi.symm.trans heq)
    rw [hi'] at hfree
    cases hfree
  exact {
    holds := by
      intro other hmem
      rcases List.mem_cons.mp hmem with rfl | hmem
      · exact ⟨index, hindex, hused, haddress, htoken⟩
      · obtain ⟨i, hi, hi', haddress', htoken'⟩ := h.holds other hmem
        have hslot := hothers i (fun heq => hne other hmem (by rw [hi, heq])) (Or.inl hi')
        exact ⟨i, hi, by rw [hslot]; exact hi', by rw [hslot]; exact haddress',
          by rw [hslot]; exact htoken'⟩
    owned := by
      intro i hi
      rcases eq_or_ne i index with rfl | hi'
      · exact ⟨lease, List.mem_cons_self, hindex⟩
      · have hslot := hothers i hi' (Or.inr hi)
        obtain ⟨other, hmem, hother⟩ := h.owned i (by rw [← hslot]; exact hi)
        exact ⟨other, List.mem_cons_of_mem _ hmem, hother⟩
    exclusive := by
      rw [List.map_cons, List.nodup_cons]
      refine ⟨fun hmem => ?_, h.exclusive⟩
      obtain ⟨other, hother, heq⟩ := List.mem_map.mp hmem
      exact hne other hother (heq.trans hindex)
    tokens := by
      rw [List.cons_append, List.map_cons, List.nodup_cons]
      refine ⟨fun hmem => ?_, h.tokens⟩
      obtain ⟨other, hother, heq⟩ := List.mem_map.mp hmem
      have := h.drawn other hother
      rw [heq, hvalue] at this
      omega
    drawn := by
      intro other hmem
      rw [hnext]
      rcases List.mem_cons.mp hmem with rfl | hmem
      · exact le_rfl
      · exact (h.drawn other hmem).trans (by omega)
    count := by
      rw [hnext, hvalue, h.count, List.length_cons]
      omega }

/-- Leases of one slot index are one lease. -/
theorem eq_of_slotIndex (h : LeasesOwned p outstanding released) {a b : Lease}
    (ha : a ∈ outstanding) (hb : b ∈ outstanding) (heq : a.slotIndex = b.slotIndex) : a = b :=
  List.inj_on_of_nodup_map h.exclusive ha hb heq

/-- A lease that matches a slot in use is an outstanding one. -/
theorem mem_of_matches (h : LeasesOwned p outstanding released) {lease : Lease} {i : Fin n}
    (hindex : lease.slotIndex = i) (hused : (p.slots i).inUse = true)
    (haddress : (p.slots i).connection.map Connection.address = some lease.address)
    (htoken : (p.slots i).leaseToken = lease.token) : lease ∈ outstanding := by
  obtain ⟨other, hmem, hother⟩ := h.owned i hused
  obtain ⟨j, hj, -, haddress', htoken'⟩ := h.holds other hmem
  obtain rfl : j = i := Fin.ext (hj.symm.trans hother)
  have : lease = other := by
    have h₁ : lease.address = other.address := Option.some.inj (haddress.symm.trans haddress')
    have h₂ : lease.token = other.token := htoken.symm.trans htoken'
    have h₃ : lease.slotIndex = other.slotIndex := hindex.trans hother.symm
    cases lease
    cases other
    simp_all
  rw [this]
  exact hmem

/-- Ending the lease of a slot. -/
theorem release (h : LeasesOwned p outstanding released) {lease : Lease} {index : Fin n}
    (hmem : lease ∈ outstanding) (hindex : lease.slotIndex = index)
    (hfree : (q.slots index).inUse = false) (hothers : ∀ j, j ≠ index → q.slots j = p.slots j)
    (hnext : q.nextToken = p.nextToken) :
    LeasesOwned q (outstanding.filter fun other => some other ≠ some lease)
      (lease :: released) := by
  have hkept : ∀ other, other ∈ outstanding.filter (fun other => some other ≠ some lease) ↔
      other ∈ outstanding ∧ other ≠ lease := by simp
  have hnodup : outstanding.Nodup := .of_map _ h.exclusive
  have herase : outstanding.filter (fun other => some other ≠ some lease) =
      outstanding.erase lease := by
    rw [hnodup.erase_eq_filter]
    exact List.filter_congr fun other _ => by rw [Bool.eq_iff_iff]; simp
  have hperm : List.Perm (outstanding.filter (fun other => some other ≠ some lease) ++
      lease :: released) (outstanding ++ released) := by
    rw [herase]
    exact List.perm_middle.trans ((List.perm_cons_erase hmem).symm.append_right released)
  exact {
    holds := by
      intro other hother
      obtain ⟨hother, hne⟩ := (hkept other).mp hother
      obtain ⟨i, hi, hi', haddress, htoken⟩ := h.holds other hother
      have hslot := hothers i fun heq =>
        hne (h.eq_of_slotIndex hother hmem (by rw [hi, heq, hindex]))
      exact ⟨i, hi, by rw [hslot]; exact hi', by rw [hslot]; exact haddress,
        by rw [hslot]; exact htoken⟩
    owned := by
      intro i hi
      have hne : i ≠ index := by
        rintro rfl
        rw [hi] at hfree
        cases hfree
      rw [hothers i hne] at hi
      obtain ⟨other, hother, heq⟩ := h.owned i hi
      refine ⟨other, (hkept other).mpr ⟨hother, ?_⟩, heq⟩
      rintro rfl
      exact hne (Fin.ext (heq.symm.trans hindex))
    exclusive := (h.exclusive.sublist (List.filter_sublist.map _))
    tokens := (hperm.map Lease.token).nodup_iff.mpr h.tokens
    drawn := by
      intro other hother
      rw [hnext]
      exact h.drawn other (hperm.mem_iff.mp hother)
    count := by
      have hlen := hperm.length_eq
      rw [List.length_append, List.length_append] at hlen
      rw [hnext, h.count, hlen] }

end LeasesOwned

/-! ## Parked threads and active waiters -/

/-- **Threads against waiters**: the parked threads own the active waiters, one each. -/
structure ThreadsQueued (p : Pool n m) (parked : List (ℕ × AcquireCall m)) : Prop where
  threads : (parked.map Prod.fst).Nodup
  queued : ∀ t ∈ parked, t.2.ticket ≠ 0 ∧ t.2.waiterIndex.isSome
  once : (parked.map (·.2.waiterIndex)).Nodup
  waiters : ∀ w, (p.waiters w).active = true ↔ some w ∈ parked.map (·.2.waiterIndex)

/-- The queue while one call is running: its waiter, if it has one, is beside those of the parked
threads. -/
structure QueuedBeside (p : Pool n m) (parked : List (ℕ × AcquireCall m)) (call : AcquireCall m) :
    Prop where
  threads : (parked.map Prod.fst).Nodup
  queued : ∀ t ∈ parked, t.2.ticket ≠ 0 ∧ t.2.waiterIndex.isSome
  once : (parked.map (·.2.waiterIndex)).Nodup
  apart : ∀ w, call.waiterIndex = some w → some w ∉ parked.map (·.2.waiterIndex)
  waiters : ∀ w, (p.waiters w).active = true ↔
    some w ∈ parked.map (·.2.waiterIndex) ∨ call.waiterIndex = some w

namespace QueuedBeside

variable {p q : Pool n m} {parked : List (ℕ × AcquireCall m)} {call : AcquireCall m}

/-- The call returns. -/
theorem leave (h : QueuedBeside p parked call) (hleaves : LeavesQueue p q call) :
    ThreadsQueued q parked where
  threads := h.threads
  queued := h.queued
  once := h.once
  waiters w := by
    rw [hleaves w, Bool.and_eq_true, h.waiters, decide_eq_true_eq]
    constructor
    · rintro ⟨hmem | hown, hne⟩
      · exact hmem
      · exact absurd hown hne
    · exact fun hmem => ⟨Or.inl hmem, fun hown => h.apart w hown hmem⟩

/-- The call parks: with the waiter it had, or with one that was inactive. -/
theorem park (h : QueuedBeside p parked call) {thread : ℕ}
    (hthread : thread ∉ parked.map Prod.fst) {call' : AcquireCall m} {waiter : Fin m}
    (hticket : call'.ticket ≠ 0) (hown : call'.waiterIndex = some waiter)
    (hqueue : (call.waiterIndex = some waiter ∧ q.waiters = p.waiters) ∨
      (call.waiterIndex = none ∧ (p.waiters waiter).active = false ∧
        ∀ i, (q.waiters i).active = ((p.waiters i).active || decide (i = waiter)))) :
    ThreadsQueued q ((thread, call') :: parked) where
  threads := List.nodup_cons.mpr ⟨hthread, h.threads⟩
  queued t ht := by
    rcases List.mem_cons.mp ht with rfl | ht
    · exact ⟨hticket, by simp [hown]⟩
    · exact h.queued t ht
  once := by
    refine List.nodup_cons.mpr ⟨?_, h.once⟩
    dsimp only
    rw [hown]
    rcases hqueue with ⟨hold, -⟩ | ⟨-, hfree, -⟩
    · exact h.apart waiter hold
    · intro hmem
      have := (h.waiters waiter).mpr (Or.inl hmem)
      rw [hfree] at this
      cases this
  waiters w := by
    rw [List.map_cons, List.mem_cons, hown]
    rcases hqueue with ⟨hold, hsame⟩ | ⟨hnone, -, hactive⟩
    · rw [hsame, h.waiters, hold, or_comm, eq_comm]
    · rw [hactive, Bool.or_eq_true, h.waiters, hnone, decide_eq_true_eq, Option.some_inj]
      simp [or_comm]

end QueuedBeside

namespace ThreadsQueued

variable {p : Pool n m} {parked : List (ℕ × AcquireCall m)}

theorem frame {q : Pool n m} (h : ThreadsQueued p parked) (hwaiters : q.waiters = p.waiters) :
    ThreadsQueued q parked :=
  { h with waiters := by rw [hwaiters]; exact h.waiters }

/-- A thread that is not parked starts a call. -/
theorem beside_start (h : ThreadsQueued p parked) {call : AcquireCall m}
    (hnone : call.waiterIndex = none) : QueuedBeside p parked call where
  threads := h.threads
  queued := h.queued
  once := h.once
  apart w hw := by rw [hnone] at hw; cases hw
  waiters w := by simp [h.waiters, hnone]

/-- A parked thread takes up its call. -/
theorem beside_resume (h : ThreadsQueued p parked) {thread thread' : ℕ} {call : AcquireCall m}
    (hfind : parked.find? (·.1 == thread) = some (thread', call)) :
    QueuedBeside p (parked.eraseP (·.1 == thread)) call ∧ call.ticket ≠ 0 ∧
      call.waiterIndex.isSome ∧ thread ∉ (parked.eraseP (·.1 == thread)).map Prod.fst := by
  obtain ⟨hpos, before, after, rfl, hbefore⟩ := List.find?_eq_some_iff_append.mp hfind
  obtain rfl : thread' = thread := by simpa using hpos
  have herase : (before ++ (thread', call) :: after).eraseP (·.1 == thread') = before ++ after := by
    rw [List.eraseP_append_right _ (fun t ht => by simpa using hbefore t ht)]
    simp
  have hperm : List.Perm (before ++ (thread', call) :: after)
      ((thread', call) :: (before ++ after)) := List.perm_middle
  have hthreads := (hperm.map Prod.fst).nodup_iff.mp h.threads
  have honce := (hperm.map (·.2.waiterIndex)).nodup_iff.mp h.once
  rw [List.map_cons, List.nodup_cons] at hthreads honce
  obtain ⟨hticket, hsome⟩ := h.queued (thread', call) (by simp)
  rw [herase]
  refine ⟨?_, hticket, hsome, hthreads.1⟩
  exact {
    threads := hthreads.2
    queued := fun t ht => h.queued t (hperm.mem_iff.mpr (List.mem_cons_of_mem _ ht))
    once := honce.2
    apart := fun w hw => by rw [← hw]; exact honce.1
    waiters := fun w => by
      rw [h.waiters, (hperm.map (·.2.waiterIndex)).mem_iff, List.map_cons, List.mem_cons, or_comm,
        eq_comm] }

end ThreadsQueued

/-! ## The invariant of the system -/

/-- **The invariant of the pool with its threads and leases.** -/
structure PoolSystemInvariant (s : PoolSystem n m) : Prop where
  pool : PoolInvariant s.pool
  leases : LeasesOwned s.pool s.outstanding s.released
  threads : ThreadsQueued s.pool s.parked

/-- The tokens have not wrapped: fewer than `2 ^ 64 - 1` leases have been granted. -/
def TokensLeft (s : PoolSystem n m) (_ : PoolEvent n) : Prop :=
  s.outstanding.length + s.released.length + 1 < 2 ^ 64

/-- The leases that were granted can be counted. -/
instance (s : PoolSystem n m) (e : PoolEvent n) : Decidable (TokensLeft s e) :=
  inferInstanceAs (Decidable (_ < _))

namespace PoolSystemInvariant

variable {s : PoolSystem n m}

/-- The end of a thread's step. -/
theorem settle {t : PoolSystem n m} {thread : ℕ} {call : AcquireCall m}
    {out : Pool n m × AcquireOutcome m} (hleases : LeasesOwned t.pool t.outstanding t.released)
    (htokens : t.outstanding.length + t.released.length + 1 < 2 ^ 64)
    (hqueue : QueuedBeside t.pool t.parked call) (hthread : thread ∉ t.parked.map Prod.fst)
    (heffect : RoundEffect t.pool call out) : PoolSystemInvariant (t.settle thread out) := by
  cases heffect with
  | returns inv same leaves => exact ⟨inv, hleases.frame same, hqueue.leave leaves⟩
  | grants index inv free others slotIndex used address token drawn nextToken leaves =>
    refine ⟨inv, ?_, hqueue.leave leaves⟩
    exact hleases.grant (by rw [hleases.count]; exact htokens) free others slotIndex used address
      token drawn nextToken
  | parks waiter inv same ticket own queue =>
    exact ⟨inv, hleases.frame same, hqueue.park hthread ticket own queue⟩

/-- **Every atomic step keeps the invariant.** -/
theorem step (h : PoolSystemInvariant s) (e : PoolEvent n) (he : TokensLeft s e) :
    PoolSystemInvariant (s.step e) := by
  cases e with
  | acquire thread request r =>
    rw [PoolSystem.step]
    split
    · exact h
    · rename_i hthread
      have hstart : ∀ deadline, QueuedBeside s.pool s.parked ⟨deadline, none, 0⟩ :=
        fun deadline => h.threads.beside_start rfl
      have hidle : ∀ result, PoolSystemInvariant (s.settle thread (s.pool, .done result none)) :=
        fun _ => h
      unfold connectionPoolAcquire
      split
      · exact hidle _
      split
      · exact hidle _
      split
      · exact hidle _
      split
      · exact hidle _
      exact settle h.leases he (hstart _) hthread
        (acquireRound_effect h.pool (Or.inl ⟨rfl, rfl⟩) r)
  | resume thread status r =>
    rw [PoolSystem.step]
    split
    · exact h
    · rename_i thread' call hfind
      obtain ⟨hqueue, hticket, hsome, hthread⟩ := h.threads.beside_resume hfind
      refine settle (t := { s with parked := s.parked.eraseP (·.1 == thread) }) h.leases he hqueue
        hthread ?_
      unfold connectionPoolResume
      split
      · exact acquireFinish_effect h.pool (.refl _) rfl _
      · exact acquireRound_effect h.pool (Or.inr ⟨hticket, hsome⟩) r
  | release lease disposition r =>
    rw [PoolSystem.step]
    have heffect := connectionLeaseRelease_effect h.pool lease disposition r
    split
    · rename_i q result heq
      rw [heq] at heffect
      cases heffect
      exact h
    · rename_i q result heq
      rw [heq] at heffect
      cases heffect with
      | ended index names slotIndex used address token inv free others nextToken waiters =>
        subst names
        have hmem := h.leases.mem_of_matches slotIndex used address token
        exact ⟨inv, h.leases.release hmem slotIndex free others nextToken, h.threads.frame waiters⟩
  | close lockOk =>
    rw [PoolSystem.step, connectionPoolClose]
    split
    · exact h
    · have hclosed : PoolInvariant { s.pool with closed := true } := { h.pool with }
      obtain ⟨hinv, hsame⟩ := PoolInvariant.destroyIdle (List.finRange n) hclosed
      exact ⟨hinv, h.leases.frame ⟨hsame.slots, hsame.nextToken⟩,
        h.threads.frame (poolDestroyIdle_waiters _ _)⟩

end PoolSystemInvariant

/-! ## Creation -/

/-- Opening the minimum keeps the accounts, leases nothing and queues nobody. -/
theorem poolFillMinimum_spec {p : Pool n m} (h : PoolInvariant p) (reply : ℕ → CreateReply) :
    ∀ k, PoolInvariant (poolFillMinimum p reply k).1 ∧ SameLeases p (poolFillMinimum p reply k).1 ∧
      (poolFillMinimum p reply k).1.waiters = p.waiters
  | 0 => ⟨h, .refl p, rfl⟩
  | k + 1 => by
    obtain ⟨h₁, hsame, hwaiters⟩ := poolFillMinimum_spec h reply k
    rw [poolFillMinimum]
    split
    · rename_i q hq
      rw [hq] at h₁ hsame hwaiters
      obtain ⟨h₂, hsame₂, -⟩ := h₁.createSlot (reply k)
      have hwaiters₂ := poolCreateSlot_waiters q (reply k)
      split
      all_goals
        rename_i heq
        rw [heq] at h₂ hsame₂ hwaiters₂
        exact ⟨h₂, hsame.trans hsame₂, hwaiters₂.trans hwaiters⟩
    · rename_i q result _ hq
      rw [hq] at h₁ hsame hwaiters
      exact ⟨h₁, hsame, hwaiters⟩

theorem poolConfigValid_sizes {config : PoolConfig} (h : poolConfigValid config = true) :
    config.maximumSize.toNat ≤ 1024 ∧ config.maximumWaiters.toNat ≤ 4096 := by
  simp only [poolConfigValid, Bool.and_eq_true, Bool.not_eq_true', Bool.or_eq_false_iff,
    decide_eq_false_iff_not, gt_iff_lt, UInt32.not_lt, UInt32.le_iff_toNat_le] at h
  obtain ⟨⟨⟨⟨⟨⟨⟨-, hslots⟩, -⟩, hwaiters⟩, -⟩, -⟩, -⟩, -⟩ := h
  exact ⟨hslots, hwaiters⟩

theorem poolEmpty_invariant (config : PoolConfig) (hn : n ≤ 1024) (hm : m ≤ 4096) :
    PoolInvariant (poolEmpty config n m) where
  slots_le := hn
  waiters_le := hm
  total := (countWhere_eq_zero.mpr fun _ => rfl).symm
  active := (countWhere_eq_zero.mpr fun _ => rfl).symm
  waiting := (countWhere_eq_zero.mpr fun _ => rfl).symm
  used := fun _ hi => by cases hi
  accounted := fun serial => by
    have : countWhere (PoolSlot.holds serial) (poolEmpty config n m).slots = 0 :=
      countWhere_eq_zero.mpr fun _ => rfl
    rw [this]
    simp [poolEmpty]

/-- The system of a freshly created pool. -/
def PoolSystem.start (p : Pool n m) : PoolSystem n m := ⟨p, [], [], []⟩

/-- A created pool starts with the invariant. -/
theorem PoolSystemInvariant.start {config : PoolConfig} {reply : ℕ → CreateReply}
    (hcreate : (connectionPoolCreate config reply).2 = .ok) :
    PoolSystemInvariant (PoolSystem.start (connectionPoolCreate config reply).1) := by
  unfold connectionPoolCreate at hcreate ⊢
  dsimp only at hcreate ⊢
  split at hcreate
  · cases hcreate
  rename_i hvalid
  rw [if_neg hvalid]
  obtain ⟨hn, hm⟩ := poolConfigValid_sizes (by simpa using hvalid)
  obtain ⟨hinv, hsame, hwaiters⟩ := poolFillMinimum_spec (poolEmpty_invariant config hn hm) reply
    config.minimumSize.toNat
  split at hcreate
  · rename_i p hp
    rw [hp] at hinv hsame hwaiters
    refine ⟨hinv, ?_, ?_⟩
    · have hidle : ∀ i, (p.slots i).inUse ≠ true := by
        intro i hi
        rw [hsame.slots i (Or.inr hi)] at hi
        cases hi
      exact {
        holds := fun _ hmem => by cases hmem
        owned := fun i hi => absurd hi (hidle i)
        exclusive := List.nodup_nil
        tokens := List.nodup_nil
        drawn := fun _ hmem => by cases hmem
        count := by rw [PoolSystem.start, hsame.nextToken]; rfl }
    · exact {
        threads := List.nodup_nil
        queued := fun _ hmem => by cases hmem
        once := List.nodup_nil
        waiters := fun w => by
          rw [PoolSystem.start, hwaiters]
          simp [poolEmpty] }
  · rename_i result hne _
    exact absurd hcreate hne

/-! ## Every interleaving -/

/-- The produced connection an outstanding lease borrows. -/
def PoolSystem.borrowed (s : PoolSystem n m) (lease : Lease) : Option ℕ :=
  if h : lease.slotIndex < n then (s.pool.slots ⟨lease.slotIndex, h⟩).connection.map (·.serial)
  else none

namespace PoolSystemInvariant

variable {s : PoolSystem n m}

/-- **Exclusivity**: two outstanding leases borrow different connections. -/
theorem borrowed_ne (h : PoolSystemInvariant s) {a b : Lease} (ha : a ∈ s.outstanding)
    (hb : b ∈ s.outstanding) (hne : a ≠ b) :
    s.borrowed a ≠ none ∧ s.borrowed a ≠ s.borrowed b := by
  obtain ⟨i, hi, hiused, -⟩ := h.leases.holds a ha
  obtain ⟨j, hj, hjused, -⟩ := h.leases.holds b hb
  obtain ⟨c, hc⟩ := Option.isSome_iff_exists.mp (h.pool.used i hiused)
  obtain ⟨d, hd⟩ := Option.isSome_iff_exists.mp (h.pool.used j hjused)
  have hij : j ≠ i := by
    rintro rfl
    exact hne (h.leases.eq_of_slotIndex ha hb (hi.trans hj.symm))
  have ha' : s.borrowed a = some c.serial := by
    simp [PoolSystem.borrowed, hi, hc]
  have hb' : s.borrowed b = some d.serial := by
    simp [PoolSystem.borrowed, hj, hd]
  rw [ha', hb']
  refine ⟨by simp, fun heq => ?_⟩
  have htwo := two_le_countWhere (p := PoolSlot.holds c.serial) (f := s.pool.slots) hij
    (by simp [PoolSlot.holds, hc]) (by simp [PoolSlot.holds, hd, (Option.some.inj heq).symm])
  have := h.pool.accounted c.serial
  split_ifs at this <;> omega

/-- **A lease that is not outstanding is released without effect.** -/
theorem release_stale (h : PoolSystemInvariant s) {lease : Lease} (hstale : lease ∉ s.outstanding)
    (disposition : LeaseDisposition) (r : ReleaseReplies) :
    s.step (.release (some lease) disposition r) = s := by
  have heffect := connectionLeaseRelease_effect h.pool (some lease) disposition r
  rw [PoolSystem.step]
  split
  · rename_i q result heq
    rw [heq] at heffect
    cases heffect
    rfl
  · rename_i q result heq
    rw [heq] at heffect
    cases heffect with
    | ended index names slotIndex used address token =>
      cases names
      exact absurd (h.leases.mem_of_matches slotIndex used address token) hstale

/-- A released lease is never outstanding again. -/
theorem not_outstanding_of_released (h : PoolSystemInvariant s) {lease : Lease}
    (hreleased : lease ∈ s.released) : lease ∉ s.outstanding := by
  intro hmem
  have htokens := h.leases.tokens
  rw [List.map_append, List.nodup_append] at htokens
  exact htokens.2.2 _ (List.mem_map_of_mem hmem) _ (List.mem_map_of_mem hreleased) rfl

end PoolSystemInvariant

/-- **Pool accounting and exclusivity.**  Along every interleaving of acquires (cut at every
condition wait), releases of any lease values and closes, with every outcome of the callbacks, the
clock and the probes: the counters count, the parked threads own the active waiters, every produced
connection is in exactly one slot or was destroyed exactly once, outstanding leases borrow different
connections, and releasing a lease that was released before, or that is not outstanding, changes
nothing. -/
theorem pool_accounting (config : PoolConfig) (reply : ℕ → CreateReply)
    (hcreate : (connectionPoolCreate config reply).2 = .ok)
    (es : List (PoolEvent config.maximumSize.toNat))
    (hrun : Along TokensLeft PoolSystem.step
      (PoolSystem.start (connectionPoolCreate config reply).1) es) :
    let s := es.foldl PoolSystem.step (PoolSystem.start (connectionPoolCreate config reply).1)
    PoolSystemInvariant s ∧
      s.pool.active ≤ s.pool.total ∧ s.pool.total ≤ config.maximumSize ∧
      (∀ a ∈ s.outstanding, ∀ b ∈ s.outstanding, a ≠ b →
        s.borrowed a ≠ none ∧ s.borrowed a ≠ s.borrowed b) ∧
      (∀ lease, lease ∉ s.outstanding → ∀ disposition r,
        s.step (.release (some lease) disposition r) = s) ∧
      (∀ lease ∈ s.released, ∀ disposition r,
        s.step (.release (some lease) disposition r) = s) := by
  intro s
  have h : PoolSystemInvariant s :=
    hrun.invariant PoolSystemInvariant (fun _ e hs he => hs.step e he) (.start hcreate)
  refine ⟨h, h.pool.active_le_total, UInt32.le_iff_toNat_le.mpr h.pool.total_le,
    fun a ha b hb hne => h.borrowed_ne ha hb hne,
    fun lease hstale disposition r => h.release_stale hstale disposition r,
    fun lease hreleased disposition r =>
      h.release_stale (h.not_outstanding_of_released hreleased) disposition r⟩

/-- A pool of one connection, opened at creation. -/
def singleConfig : PoolConfig where
  key := ⟨[1], 0, 0, false⟩
  fingerprintLength := 64
  hasValidate := true
  hasReset := true
  minimumSize := 1
  maximumSize := 1
  maximumWaiters := 2
  waitSliceMs := 10
  idleValidationMs := 0

/-- One thread takes the connection, a second one waits for it, gets it after the release and gives
it back dirty. -/
def handoverRun : List (PoolEvent singleConfig.maximumSize.toNat) :=
  let request : AcquireRequest := ⟨true, some ⟨[1], 0, 0, false⟩, 100, some 5, true⟩
  let replies : AcquireReplies _ := ⟨none, some 6, fun _ => true, ⟨true, some 9⟩⟩
  [.acquire 1 request replies, .acquire 2 request replies,
    .release (some ⟨7, 1, 0⟩) .clean ⟨true, true, some 8⟩, .resume 2 .ok replies,
    .release (some ⟨7, 1, 0⟩) .clean ⟨true, true, some 8⟩,
    .release (some ⟨7, 2, 0⟩) .dirty ⟨true, true, some 9⟩]

theorem pool_accounting_handoverRun :
    let s := handoverRun.foldl PoolSystem.step
      (PoolSystem.start (connectionPoolCreate singleConfig fun _ => ⟨true, some 7⟩).1)
    PoolSystemInvariant s ∧
      s.pool.active ≤ s.pool.total ∧ s.pool.total ≤ singleConfig.maximumSize ∧
      (∀ a ∈ s.outstanding, ∀ b ∈ s.outstanding, a ≠ b →
        s.borrowed a ≠ none ∧ s.borrowed a ≠ s.borrowed b) ∧
      (∀ lease, lease ∉ s.outstanding → ∀ disposition r,
        s.step (.release (some lease) disposition r) = s) ∧
      (∀ lease ∈ s.released, ∀ disposition r,
        s.step (.release (some lease) disposition r) = s) :=
  pool_accounting singleConfig (fun _ => ⟨true, some 7⟩) (by decide) handoverRun (by decide)

/-! ## The end of the pool -/

theorem poolDestroySlot_connection (p : Pool n m) (i : Fin n) :
    ((poolDestroySlot p i).slots i).connection = none := by
  unfold poolDestroySlot
  split
  · assumption
  · simp

/-- Destroying slots brings no connection back. -/
theorem poolDestroySlot_keeps_empty {p : Pool n m} {i j : Fin n}
    (h : (p.slots j).connection = none) : ((poolDestroySlot p i).slots j).connection = none := by
  rcases eq_or_ne j i with rfl | hne
  · exact poolDestroySlot_connection p _
  · rw [poolDestroySlot_of_ne hne]
    exact h

/-- A pass over the slots leaves those it visits, and those that were empty, empty. -/
theorem poolDestroyEach_connection {i : Fin n} :
    ∀ (l : List (Fin n)) (p : Pool n m), i ∈ l ∨ (p.slots i).connection = none →
      ((poolDestroyEach l p).slots i).connection = none
  | [], _, h => h.resolve_left List.not_mem_nil
  | j :: rest, p, h => by
    rw [poolDestroyEach]
    refine poolDestroyEach_connection rest _ ?_
    rcases h with h | h
    · rcases List.mem_cons.mp h with rfl | h
      · exact Or.inr (poolDestroySlot_connection p _)
      · exact Or.inl h
    · exact Or.inr (poolDestroySlot_keeps_empty h)

/-- While no slot is in use, the pass keeps the accounts. -/
theorem PoolInvariant.destroyEach (l : List (Fin n)) :
    ∀ {p : Pool n m}, PoolInvariant p → (∀ i, (p.slots i).inUse = false) →
      PoolInvariant (poolDestroyEach l p) := by
  induction l with
  | nil => exact fun h _ => h
  | cons i rest ih =>
    intro p h hidle
    obtain ⟨h₁, hsame⟩ := h.destroySlot (hidle i)
    refine ih h₁ fun j => ?_
    by_contra hused
    have hslot := hsame.slots j (Or.inr (by simpa using hused))
    rw [hslot, hidle j] at hused
    exact hused rfl

/-- One pass of the `fail:` loop empties the pool. -/
theorem total_poolDestroyEach {p : Pool n m} (h : PoolInvariant p)
    (hidle : ∀ i, (p.slots i).inUse = false) :
    (poolDestroyEach (List.finRange n) p).total = 0 := by
  have htotal := (h.destroyEach (List.finRange n) hidle).total
  rw [countWhere_eq_zero.mpr fun i => ?_] at htotal
  · exact UInt32.toNat_inj.mp htotal
  · rw [poolDestroyEach_connection _ _ (Or.inl (List.mem_finRange i))]
    rfl

/-- A pool without connections has destroyed every connection it was given, exactly once. -/
theorem PoolInvariant.all_destroyed {p : Pool n m} (h : PoolInvariant p) (htotal : p.total = 0)
    (serial : ℕ) :
    p.context.destroyed.count serial = if serial < p.context.produced then 1 else 0 := by
  have hempty : ∀ i, (p.slots i).connection.isSome = false := by
    refine countWhere_eq_zero.mp (h.total.symm.trans ?_)
    rw [htotal]
    rfl
  have hnone : countWhere (PoolSlot.holds serial) p.slots = 0 := by
    refine countWhere_eq_zero.mpr fun i => ?_
    have := hempty i
    unfold PoolSlot.holds
    cases hc : (p.slots i).connection with
    | none => rfl
    | some c =>
      rw [hc] at this
      cases this
  have := h.accounted serial
  omega

/-- **A failed creation leaks nothing**: every connection opened for the minimum is destroyed
exactly once. -/
theorem create_failed_destroys_all {config : PoolConfig} {reply : ℕ → CreateReply}
    (hfailed : (connectionPoolCreate config reply).2 ≠ .ok) (serial : ℕ) :
    (connectionPoolCreate config reply).1.context.destroyed.count serial =
      if serial < (connectionPoolCreate config reply).1.context.produced then 1 else 0 := by
  unfold connectionPoolCreate at hfailed ⊢
  dsimp only at hfailed ⊢
  split at hfailed
  · rename_i hvalid
    rw [if_pos hvalid]
    simp [poolEmpty]
  rename_i hvalid
  rw [if_neg hvalid]
  obtain ⟨hn, hm⟩ := poolConfigValid_sizes (by simpa using hvalid)
  obtain ⟨hinv, hsame, -⟩ := poolFillMinimum_spec (poolEmpty_invariant config hn hm) reply
    config.minimumSize.toNat
  split at hfailed
  · exact absurd rfl hfailed
  · rename_i p result _ hp
    rw [hp] at hinv hsame
    have hidle : ∀ i, (p.slots i).inUse = false := by
      intro i
      by_contra hused
      have hslot := hsame.slots i (Or.inr (by simpa using hused))
      dsimp only at hslot
      rw [hslot] at hused
      exact hused rfl
    dsimp only
    unfold poolDrain
    split
    · exact (hinv.destroyEach _ hidle).all_destroyed (total_poolDestroyEach hinv hidle) serial
    · rename_i hzero
      exact hinv.all_destroyed (by simpa using hzero) serial

end Vps
