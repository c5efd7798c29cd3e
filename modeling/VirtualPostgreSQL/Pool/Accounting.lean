import VirtualPostgreSQL.Pool.Pool

/-!
# Pool/Accounting — the counters and the connections of the pool

`PoolInvariant` says what the hand-kept counters count and where every produced connection is; each
function of the pool has one lemma that keeps it.  `SameLeases` is the frame condition they share:
slots in use are left alone.
-/

namespace Vps

open Machinery

variable {n m : ℕ}

/-- The slot holds the produced connection number `serial`. -/
def PoolSlot.holds (serial : ℕ) (slot : PoolSlot) : Bool :=
  slot.connection.any (·.serial == serial)

/-- **The accounting invariant of the pool.** -/
structure PoolInvariant (p : Pool n m) : Prop where
  slots_le : n ≤ 1024
  waiters_le : m ≤ 4096
  total : p.total.toNat = countWhere (fun slot => slot.connection.isSome) p.slots
  active : p.active.toNat = countWhere (·.inUse) p.slots
  waiting : p.waiting.toNat = countWhere (·.active) p.waiters
  /-- A slot in use holds a connection. -/
  used : ∀ i, (p.slots i).inUse = true → (p.slots i).connection.isSome = true
  /-- Every produced connection is in exactly one slot or was destroyed exactly once. -/
  accounted : ∀ serial, countWhere (PoolSlot.holds serial) p.slots +
    p.context.destroyed.count serial = if serial < p.context.produced then 1 else 0

/-- **The frame**: slots in use, before or after, are the same; no token is drawn. -/
structure SameLeases (p q : Pool n m) : Prop where
  slots : ∀ i, (p.slots i).inUse = true ∨ (q.slots i).inUse = true → q.slots i = p.slots i
  nextToken : q.nextToken = p.nextToken

namespace SameLeases

theorem refl (p : Pool n m) : SameLeases p p := ⟨fun _ _ => rfl, rfl⟩

theorem trans {p q r : Pool n m} (h : SameLeases p q) (h' : SameLeases q r) : SameLeases p r where
  slots i hi := by
    rcases hi with hi | hi
    · have hq := h.slots i (Or.inl hi)
      rw [h'.slots i (Or.inl (by rw [hq]; exact hi)), hq]
    · have hr := h'.slots i (Or.inr hi)
      rw [hr, h.slots i (Or.inr (by rw [← hr]; exact hi))]
  nextToken := h'.nextToken.trans h.nextToken

/-- Writing an idle slot with an idle one is within the frame. -/
theorem of_update {p q : Pool n m} {i : Fin n} {slot : PoolSlot}
    (hslots : q.slots = Function.update p.slots i slot) (hfree : (p.slots i).inUse = false)
    (hslot : slot.inUse = false) (htoken : q.nextToken = p.nextToken) : SameLeases p q where
  slots j hj := by
    rw [hslots] at hj ⊢
    rcases eq_or_ne j i with rfl | hne
    · simp [hfree, hslot] at hj
    · rw [Function.update_of_ne hne]
  nextToken := htoken

end SameLeases

namespace PoolInvariant

variable {p : Pool n m}

theorem total_lt (h : PoolInvariant p) : p.total.toNat + 1 < 2 ^ 32 := by
  have := countWhere_le (fun slot : PoolSlot => slot.connection.isSome) p.slots
  have := h.slots_le
  have := h.total
  omega

theorem active_lt (h : PoolInvariant p) : p.active.toNat + 1 < 2 ^ 32 := by
  have := countWhere_le (fun slot : PoolSlot => slot.inUse) p.slots
  have := h.slots_le
  have := h.active
  omega

theorem waiting_lt (h : PoolInvariant p) : p.waiting.toNat + 1 < 2 ^ 32 := by
  have := countWhere_le (fun waiter : PoolWaiter => waiter.active) p.waiters
  have := h.waiters_le
  have := h.waiting
  omega

/-- `active ≤ total ≤ maximum_size`. -/
theorem active_le_total (h : PoolInvariant p) : p.active ≤ p.total := by
  rw [UInt32.le_iff_toNat_le, h.active, h.total]
  exact countWhere_le_countWhere h.used

theorem total_le (h : PoolInvariant p) : p.total.toNat ≤ n := by
  rw [h.total]
  exact countWhere_le _ _

/-! ## Slots -/

/-- **Destroying an idle slot** moves its connection to the destroyed ones. -/
theorem destroySlot (h : PoolInvariant p) {i : Fin n} (hfree : (p.slots i).inUse = false) :
    PoolInvariant (poolDestroySlot p i) ∧ SameLeases p (poolDestroySlot p i) := by
  unfold poolDestroySlot
  split
  · exact ⟨h, .refl p⟩
  · rename_i c hc
    refine ⟨{ h with total := ?_, active := ?_, used := ?_, accounted := ?_ },
      .of_update rfl hfree rfl rfl⟩
    · have hpos : 0 < p.total.toNat := by
        rw [h.total]
        exact countWhere_pos i (by simp [hc])
      have hcount := countWhere_update (fun slot : PoolSlot => slot.connection.isSome) p.slots i
        ⟨none, 0, 0, false⟩
      simp only [hc, Option.isSome_some, Option.isSome_none, Bool.toNat_true,
        Bool.toNat_false, ← h.total] at hcount
      dsimp only
      rw [toNat_sub_one hpos]
      omega
    · rw [h.active]
      exact (countWhere_update_eq (by simp [hfree])).symm
    · intro j hj
      rcases eq_or_ne j i with rfl | hne
      · simp at hj
      · simp only [Function.update_of_ne hne] at hj ⊢
        exact h.used j hj
    · intro serial
      have hcount := countWhere_update (PoolSlot.holds serial) p.slots i ⟨none, 0, 0, false⟩
      rw [← h.accounted serial, List.count_cons]
      simp only [PoolSlot.holds, hc, Option.any_some, Option.any_none, Bool.toNat_false,
        Nat.add_zero] at hcount
      cases hs : c.serial == serial <;>
        simp only [hs, Bool.toNat_true, Bool.toNat_false] at hcount <;>
        simp <;> omega

/-- Destroying the slots of a list leaves no slot in use changed. -/
theorem destroyIdle (l : List (Fin n)) :
    ∀ {p : Pool n m}, PoolInvariant p →
      PoolInvariant (poolDestroyIdle l p) ∧ SameLeases p (poolDestroyIdle l p) := by
  induction l with
  | nil => exact fun h => ⟨h, .refl _⟩
  | cons i rest ih =>
    intro p h
    rw [poolDestroyIdle]
    split
    · exact ih h
    · rename_i hfree
      obtain ⟨h₁, hsame⟩ := h.destroySlot (by simpa using hfree)
      obtain ⟨h₂, hsame₂⟩ := ih h₁
      exact ⟨h₂, hsame.trans hsame₂⟩

/-- **Creating a connection** fills an empty slot, or accounts for the connection it discards. -/
theorem createSlot (h : PoolInvariant p) (reply : CreateReply) :
    PoolInvariant (poolCreateSlot p reply).1 ∧ SameLeases p (poolCreateSlot p reply).1 ∧
      ∀ i, (poolCreateSlot p reply).2 = .ok i →
        ((poolCreateSlot p reply).1.slots i).connection.isSome = true ∧
        ((poolCreateSlot p reply).1.slots i).inUse = false := by
  unfold poolCreateSlot
  split
  · exact ⟨h, .refl p, fun i hi => by cases hi⟩
  · rename_i i hfind
    have hempty : (p.slots i).connection = none := by
      simpa using List.find?_some hfind
    have hfree : (p.slots i).inUse = false := by
      by_contra hused
      have := h.used i (by simpa using hused)
      rw [hempty] at this
      cases this
    split
    · exact ⟨h, .refl p, fun i hi => by cases hi⟩
    · rename_i address _
      split
      · refine ⟨{ h with total := ?_, active := ?_, used := ?_, accounted := ?_ },
          .of_update rfl hfree hfree rfl, ?_⟩
        · have hcount := countWhere_update (fun slot : PoolSlot => slot.connection.isSome) p.slots i
            { p.slots i with connection := some ⟨address, p.context.produced⟩, lastUsedMs := 0 }
          simp only [hempty, Option.isSome_some, Option.isSome_none, Bool.toNat_true,
            Bool.toNat_false, ← h.total] at hcount
          dsimp only
          rw [toNat_add_one h.total_lt]
          omega
        · rw [h.active]
          exact (countWhere_update_eq (by simp)).symm
        · intro j hj
          rcases eq_or_ne j i with rfl | hne
          · simp
          · simp only [Function.update_of_ne hne] at hj ⊢
            exact h.used j hj
        · intro serial
          have hcount := countWhere_update (PoolSlot.holds serial) p.slots i
            { p.slots i with connection := some ⟨address, p.context.produced⟩, lastUsedMs := 0 }
          have hold := h.accounted serial
          simp only [PoolSlot.holds, hempty, Option.any_some, Option.any_none, Bool.toNat_false,
            Nat.add_zero] at hcount
          dsimp only at hold ⊢
          rw [hcount]
          rcases eq_or_ne p.context.produced serial with rfl | hne
          · simp at hold ⊢
            omega
          · have : ¬(p.context.produced = serial) := hne
            simp only [beq_eq_false_iff_ne.mpr hne, Bool.toNat_false, Nat.add_zero]
            rw [hold]
            split_ifs <;> omega
        · intro j hj
          cases hj
          simp [hfree]
      · refine ⟨{ h with accounted := ?_ }, ⟨fun _ _ => rfl, rfl⟩, fun i hi => by cases hi⟩
        intro serial
        have hold := h.accounted serial
        rw [List.count_cons]
        rcases eq_or_ne p.context.produced serial with rfl | hne
        · simp at hold ⊢
          omega
        · have : ¬(p.context.produced = serial) := hne
          simp only [beq_eq_false_iff_ne.mpr hne, Bool.false_eq_true, if_false, Nat.add_zero]
          rw [hold]
          split_ifs <;> omega

/-- The search for an idle connection keeps the accounts and the slots in use; what it finds is an
idle connection. -/
theorem takeIdle (nowMs : UInt64) (validate : Fin n → Bool) (l : List (Fin n)) :
    ∀ {p : Pool n m}, PoolInvariant p →
      PoolInvariant (poolTakeIdle nowMs validate l p).1 ∧
      SameLeases p (poolTakeIdle nowMs validate l p).1 ∧
      ∀ i, (poolTakeIdle nowMs validate l p).2 = some i →
        ((poolTakeIdle nowMs validate l p).1.slots i).connection.isSome = true ∧
        ((poolTakeIdle nowMs validate l p).1.slots i).inUse = false := by
  induction l with
  | nil => exact fun h => ⟨h, .refl _, fun i hi => by cases hi⟩
  | cons i rest ih =>
    intro p h
    rw [poolTakeIdle]
    split
    · exact ih h
    · rename_i hidle
      simp only [Bool.or_eq_true, Option.isNone_iff_eq_none, not_or, Bool.not_eq_true] at hidle
      split
      · obtain ⟨h₁, hsame⟩ := h.destroySlot hidle.2
        obtain ⟨h₂, hsame₂, hfound⟩ := ih h₁
        exact ⟨h₂, hsame.trans hsame₂, hfound⟩
      · refine ⟨h, .refl p, fun j hj => ?_⟩
        cases hj
        exact ⟨Option.isSome_iff_ne_none.mpr hidle.1, hidle.2⟩

/-- **Taking a connection**: the slot handed out holds an idle connection. -/
theorem takeAvailable (h : PoolInvariant p) (nowMs : UInt64) (validate : Fin n → Bool)
    (create : CreateReply) :
    PoolInvariant (poolTakeAvailable p nowMs validate create).1 ∧
      SameLeases p (poolTakeAvailable p nowMs validate create).1 ∧
      ∀ i, (poolTakeAvailable p nowMs validate create).2 = .ok i →
        ((poolTakeAvailable p nowMs validate create).1.slots i).connection.isSome = true ∧
        ((poolTakeAvailable p nowMs validate create).1.slots i).inUse = false := by
  obtain ⟨h₁, hsame, hfound⟩ := takeIdle nowMs validate (List.finRange n) h
  unfold poolTakeAvailable
  split
  · rename_i q i heq
    rw [heq] at h₁ hsame hfound
    exact ⟨h₁, hsame, fun j hj => hfound j (by cases hj; rfl)⟩
  · rename_i q heq
    rw [heq] at h₁ hsame
    split
    · obtain ⟨h₂, hsame₂, hnew⟩ := h₁.createSlot create
      exact ⟨h₂, hsame.trans hsame₂, hnew⟩
    · exact ⟨h₁, hsame, fun j hj => by cases hj⟩

/-- **Handing out an idle connection.** -/
theorem fillLease (h : PoolInvariant p) {i : Fin n}
    (hsome : (p.slots i).connection.isSome = true) (hfree : (p.slots i).inUse = false) :
    PoolInvariant (poolFillLease p i).1 := by
  refine { h with total := ?_, active := ?_, used := ?_, accounted := ?_ }
  · rw [poolFillLease, h.total]
    exact (countWhere_update_eq (by simp)).symm
  · have hcount := countWhere_update (fun slot : PoolSlot => slot.inUse) p.slots i
      { p.slots i with inUse := true, leaseToken := poolNextNonzero p.nextToken }
    simp only [hfree, Bool.toNat_true, Bool.toNat_false, ← h.active] at hcount
    dsimp only [poolFillLease]
    rw [toNat_add_one h.active_lt]
    omega
  · intro j hj
    simp only [poolFillLease] at hj ⊢
    rcases eq_or_ne j i with rfl | hne
    · simpa using hsome
    · simp only [Function.update_of_ne hne] at hj ⊢
      exact h.used j hj
  · intro serial
    refine Eq.trans ?_ (h.accounted serial)
    exact congrArg (· + _) (countWhere_update_eq (by simp [PoolSlot.holds]))

/-- Ending a lease: the slot becomes idle. -/
theorem endLease (h : PoolInvariant p) {i : Fin n} (hused : (p.slots i).inUse = true) :
    PoolInvariant (poolEndLease p i) := by
  refine { h with total := ?_, active := ?_, used := ?_, accounted := ?_ }
  · rw [poolEndLease, h.total]
    exact (countWhere_update_eq (by simp)).symm
  · have hpos : 0 < p.active.toNat := by
      rw [h.active]
      exact countWhere_pos i hused
    have hcount := countWhere_update (fun slot : PoolSlot => slot.inUse) p.slots i
      { p.slots i with inUse := false, leaseToken := 0 }
    simp only [hused, Bool.toNat_true, Bool.toNat_false, ← h.active] at hcount
    dsimp only [poolEndLease]
    rw [toNat_sub_one hpos]
    omega
  · intro j hj
    simp only [poolEndLease] at hj ⊢
    rcases eq_or_ne j i with rfl | hne
    · simp at hj
    · simp only [Function.update_of_ne hne] at hj ⊢
      exact h.used j hj
  · intro serial
    refine Eq.trans ?_ (h.accounted serial)
    exact congrArg (· + _) (countWhere_update_eq (by simp [PoolSlot.holds]))

/-- The time stamp of a slot is not accounted for. -/
theorem touch (h : PoolInvariant p) (i : Fin n) (nowMs : UInt64) :
    PoolInvariant (poolTouch p i nowMs) := by
  refine { h with total := ?_, active := ?_, used := ?_, accounted := ?_ }
  · rw [poolTouch, h.total]
    exact (countWhere_update_eq (by simp)).symm
  · rw [poolTouch, h.active]
    exact (countWhere_update_eq (by simp)).symm
  · intro j hj
    simp only [poolTouch] at hj ⊢
    rcases eq_or_ne j i with rfl | hne
    · simp only [Function.update_self] at hj ⊢
      exact h.used _ hj
    · simp only [Function.update_of_ne hne] at hj ⊢
      exact h.used j hj
  · intro serial
    refine Eq.trans ?_ (h.accounted serial)
    exact congrArg (· + _) (countWhere_update_eq (by simp [PoolSlot.holds]))

/-! ## Waiters -/

/-- The waiters and their count do not concern the slots. -/
theorem withWaiters (h : PoolInvariant p) {waiters : Fin m → PoolWaiter} {waiting : UInt32}
    (ticket : UInt64) (hcount : waiting.toNat = countWhere (·.active) waiters) :
    PoolInvariant { p with waiters := waiters, waiting := waiting, nextTicket := ticket } :=
  { h with waiting := hcount }

/-- **Queueing** takes an inactive waiter and a nonzero ticket. -/
theorem waiterAdd (h : PoolInvariant p) {q : Pool n m} {w : Fin m} {ticket : UInt64}
    (hadd : poolWaiterAdd p = some (q, w, ticket)) :
    PoolInvariant q ∧ SameLeases p q ∧ ticket ≠ 0 ∧ (p.waiters w).active = false ∧
      q.waiters = Function.update p.waiters w ⟨ticket, true⟩ := by
  unfold poolWaiterAdd at hadd
  split at hadd
  · cases hadd
  · rename_i i hfind
    have hfree : (p.waiters i).active = false := by
      simpa using List.find?_some hfind
    simp only [Option.some.injEq, Prod.mk.injEq] at hadd
    obtain ⟨rfl, rfl, rfl⟩ := hadd
    refine ⟨h.withWaiters _ ?_, ⟨fun _ _ => rfl, rfl⟩, ?_, hfree, rfl⟩
    · have hcount := countWhere_update (fun waiter : PoolWaiter => waiter.active) p.waiters i
        ⟨poolNextNonzero p.nextTicket, true⟩
      simp only [hfree, Bool.toNat_true, Bool.toNat_false, ← h.waiting] at hcount
      rw [toNat_add_one h.waiting_lt]
      omega
    · unfold poolNextNonzero
      split
      · decide
      · assumption

/-- **Leaving the queue**, once or twice. -/
theorem waiterRemove (h : PoolInvariant p) (w : Option (Fin m)) :
    PoolInvariant (poolWaiterRemove p w) ∧ SameLeases p (poolWaiterRemove p w) := by
  unfold poolWaiterRemove
  split
  · exact ⟨h, .refl p⟩
  · rename_i i
    split
    · rename_i hactive
      refine ⟨h.withWaiters _ ?_, ⟨fun _ _ => rfl, rfl⟩⟩
      have hpos : 0 < p.waiting.toNat := by
        rw [h.waiting]
        exact countWhere_pos i hactive
      have hcount := countWhere_update (fun waiter : PoolWaiter => waiter.active) p.waiters i
        ⟨0, false⟩
      simp only [hactive, Bool.toNat_true, Bool.toNat_false, ← h.waiting] at hcount
      rw [toNat_sub_one hpos]
      omega
    · exact ⟨h, .refl p⟩

end PoolInvariant

@[simp] theorem poolWaiterRemove_slots (p : Pool n m) (w : Option (Fin m)) :
    (poolWaiterRemove p w).slots = p.slots := by
  unfold poolWaiterRemove
  split
  · rfl
  · split <;> rfl

@[simp] theorem poolWaiterRemove_nextToken (p : Pool n m) (w : Option (Fin m)) :
    (poolWaiterRemove p w).nextToken = p.nextToken := by
  unfold poolWaiterRemove
  split
  · rfl
  · split <;> rfl

/-- After leaving the queue a call's waiter is inactive, the others are as before. -/
theorem poolWaiterRemove_active (p : Pool n m) (w : Option (Fin m)) (i : Fin m) :
    ((poolWaiterRemove p w).waiters i).active = ((p.waiters i).active && decide (w ≠ some i)) := by
  unfold poolWaiterRemove
  split
  · simp
  · rename_i j
    rcases eq_or_ne i j with rfl | hne
    · split <;> simp_all
    · split <;> simp [Function.update_of_ne hne, hne.symm]

end Vps
