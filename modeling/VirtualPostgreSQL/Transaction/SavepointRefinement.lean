import VirtualPostgreSQL.Transaction.Savepoint

/-!
# Transaction/SavepointRefinement — when the coordinator simulates the nested savepoints

Each savepoint callback has one lemma saying what it does to a block that mirrors the ideal stack;
the broadcast repeats the callback once for every joined table, and only the first call does the
work.  `mirrors_step` assembles them into the step of the shared session.
-/

namespace Vps

open Machinery

variable {σ : Type*}

/-! ## The list at a listed level -/

private theorem level_not_neg (n : ℕ) : ¬ (n : ℤ) < 0 := by omega

namespace BlockMirrors

variable {c : Coordinator} {b : Block σ} {t : SavepointStack σ}

/-- **The split at a listed level** — the block's stack and the coordinator's list are cut at the
same place. -/
theorem split (h : BlockMirrors c b t) {n : ℕ} (hn : (n : ℤ) ∈ c.savepoints.toList) :
    ∃ inner saved outer, b.savepoints = inner ++ ((n : ℤ), saved) :: outer ∧
      b.outwards n = ((n : ℤ), saved) :: outer ∧
      (∀ p ∈ inner, (n : ℤ) < p.1) ∧ (∀ p ∈ outer, p.1 < n) ∧
      t.levels[n]? = some (some saved) ∧
      transactionFindSavepoint c n = some outer.length ∧
      c.savepoints.toList =
        (outer.map Prod.fst).reverse ++ (n : ℤ) :: (inner.map Prod.fst).reverse := by
  obtain ⟨inner, saved, outer, hb, hout, hin, ho⟩ :=
    Block.outwards_split h.sorted ((h.mem_listed n).mp hn)
  have hlist : c.savepoints.toList =
      (outer.map Prod.fst).reverse ++ (n : ℤ) :: (inner.map Prod.fst).reverse := by
    rw [h.listed, hb]
    simp
  have hsaved : t.levels[n]? = some (some saved) := by
    obtain ⟨m, hm, hv⟩ := (h.issued n saved).mp (by rw [hb]; simp)
    obtain rfl : n = m := by exact_mod_cast hm
    exact hv
  refine ⟨inner, saved, outer, hb, hout, hin, ho, hsaved, ?_, hlist⟩
  have hnone : List.findIdx? (fun x => x == (n : ℤ)) (outer.map Prod.fst).reverse = none := by
    rw [List.findIdx?_eq_none_iff]
    intro k hk
    rw [List.mem_reverse, List.mem_map] at hk
    obtain ⟨p, hp, rfl⟩ := hk
    simpa using (ho p hp).ne
  rw [transactionFindSavepoint, hlist, List.findIdx?_append, hnone]
  simp [List.findIdx?_cons]

/-! ## One callback -/

/-- A rollback to a listed level restores what the ideal stack restores. -/
theorem rollbackTo_listed (h : BlockMirrors c b t) {n : ℕ} (hn : (n : ℤ) ∈ c.savepoints.toList) :
    ∃ c' b', moduleSavepointAction .rollbackTo n (c, b) = ((c', b'), .ok) ∧
      BlockMirrors c' b' (t.rollbackTo n) ∧ (n : ℤ) ∈ c'.savepoints.toList := by
  obtain ⟨inner, saved, outer, hb, hout, hin, ho, hsaved, hfind, hlist⟩ := h.split hn
  refine ⟨{ c with
      savepoints := c.savepoints.take (outer.length + 1)
      state := .active
      lastSqlstate := "" }, ⟨saved, (n, saved) :: outer, false⟩, ?_, ?_, ?_⟩
  · simp [moduleSavepointAction, SavepointAction.ask, transactionRollbackTo, level_not_neg,
      h.initialized, h.noStream, h.active, hfind, SavepointAction.command, Block.execute, hout]
  · have hsorted := h.sorted
    rw [hb, List.pairwise_append] at hsorted
    exact {
      initialized := h.initialized
      active := rfl
      noStream := h.noStream
      notAborted := rfl
      working := by simp [SavepointStack.rollbackTo, SavepointStack.restored, hsaved]
      listed := by simp [hlist, List.take_append, List.take_of_length_le]
      sorted := hsorted.2.1
      issued := by
        intro k v
        have hmem := h.issued k v
        rw [hb] at hmem
        constructor
        · intro hkv
          obtain ⟨m, rfl, hv⟩ := hmem.mp (List.mem_append_right _ hkv)
          have hle : (m : ℤ) ≤ n := by
            rcases List.mem_cons.mp hkv with heq | hkv
            · exact (congrArg Prod.fst heq).le
            · exact (ho _ hkv).le
          refine ⟨m, rfl, ?_⟩
          rw [SavepointStack.rollbackTo, List.getElem?_take_of_lt (by omega)]
          exact hv
        · rintro ⟨m, rfl, hv⟩
          rw [SavepointStack.rollbackTo, List.getElem?_take] at hv
          split at hv
          · rename_i hlt
            rcases List.mem_append.mp (hmem.mpr ⟨m, rfl, hv⟩) with hkv | hkv
            · have := hin _ hkv
              simp only at this
              omega
            · exact hkv
          · cases hv }
  · simp [hlist, List.take_append]

/-- A listed level is released with everything inside it. -/
theorem release_listed (h : BlockMirrors c b t) {n : ℕ} (hn : (n : ℤ) ∈ c.savepoints.toList) :
    ∃ c' b', moduleSavepointAction .release n (c, b) = ((c', b'), .ok) ∧
      BlockMirrors c' b' (t.release n) ∧
      c'.savepoints.toList = c.savepoints.toList.filter (· < (n : ℤ)) ∧
      b'.savepoints = b.savepoints.filter (·.1 < (n : ℤ)) := by
  obtain ⟨inner, saved, outer, hb, hout, hin, ho, hsaved, hfind, hlist⟩ := h.split hn
  refine ⟨{ c with savepoints := c.savepoints.take outer.length },
    { b with savepoints := outer }, ?_, ?_, ?_, ?_⟩
  · simp [moduleSavepointAction, SavepointAction.ask, transactionRelease, level_not_neg,
      h.commandAllowed, hfind,
      SavepointAction.command, Block.execute, hout, h.notAborted]
  · have hsorted := h.sorted
    rw [hb, List.pairwise_append, List.pairwise_cons] at hsorted
    exact {
      initialized := h.initialized
      active := h.active
      noStream := h.noStream
      notAborted := h.notAborted
      working := h.working
      listed := by simp [hlist]
      sorted := hsorted.2.1.2
      issued := by
        intro k v
        have hmem := h.issued k v
        rw [hb] at hmem
        constructor
        · intro hkv
          obtain ⟨m, rfl, hv⟩ := hmem.mp (List.mem_append_right _ (List.mem_cons_of_mem _ hkv))
          have hlt := ho _ hkv
          refine ⟨m, rfl, ?_⟩
          rw [SavepointStack.release, List.getElem?_take_of_lt (by simpa using hlt)]
          exact hv
        · rintro ⟨m, rfl, hv⟩
          rw [SavepointStack.release, List.getElem?_take] at hv
          split at hv
          · rename_i hlt
            rcases List.mem_append.mp (hmem.mpr ⟨m, rfl, hv⟩) with hkv | hkv
            · have := hin _ hkv
              simp only at this
              omega
            · rcases List.mem_cons.mp hkv with heq | hkv
              · have := congrArg Prod.fst heq
                simp only at this
                omega
              · exact hkv
          · cases hv }
  · have hinner : ((inner.map Prod.fst).reverse).filter (· < (n : ℤ)) = [] := by
      rw [List.filter_eq_nil_iff]
      intro k hk
      rw [List.mem_reverse, List.mem_map] at hk
      obtain ⟨p, hp, rfl⟩ := hk
      simpa using (hin p hp).le
    have houter : ((outer.map Prod.fst).reverse).filter (· < (n : ℤ)) =
        (outer.map Prod.fst).reverse := by
      rw [List.filter_eq_self]
      intro k hk
      rw [List.mem_reverse, List.mem_map] at hk
      obtain ⟨p, hp, rfl⟩ := hk
      simpa using ho p hp
    rw [hlist, List.filter_append, houter, List.filter_cons_of_neg (by simp), hinner]
    simp [hlist]
  · have hinner : inner.filter (fun p => p.1 < (n : ℤ)) = [] := by
      rw [List.filter_eq_nil_iff]
      intro p hp
      simpa using (hin p hp).le
    have houter : outer.filter (fun p => p.1 < (n : ℤ)) = outer := by
      rw [List.filter_eq_self]
      intro p hp
      simpa using ho p hp
    rw [hb, List.filter_append, hinner, List.filter_cons_of_neg (by simp), houter]
    rfl

/-- Releasing a level with nothing listed at or above it changes nothing. -/
theorem release_unlisted (h : BlockMirrors c b t) {n : ℕ}
    (hn : ∀ k ∈ c.savepoints.toList, k < (n : ℤ)) :
    moduleSavepointAction .release n (c, b) = ((c, b), .ok) ∧ BlockMirrors c b (t.release n) := by
  have hnot : transactionFindSavepoint c n = none := by
    rw [← Option.not_isSome_iff_eq_none, find_isSome]
    exact fun hmem => (hn _ hmem).false
  refine ⟨?_, { h with issued := ?_ }⟩
  · simp [moduleSavepointAction, SavepointAction.ask, transactionRelease, level_not_neg,
      h.commandAllowed, hnot]
  · intro k v
    rw [h.issued]
    refine exists_congr fun m => and_congr_right ?_
    rintro rfl
    rw [SavepointStack.release, List.getElem?_take]
    split
    · rfl
    · refine iff_of_false (fun hv => ?_) (by simp)
      have := hn _ ((h.listed_iff m).mpr ⟨v, hv⟩)
      omega

/-- `xSavepoint` of a level that is already listed changes nothing. -/
theorem savepoint_listed (h : BlockMirrors c b t) {n : ℕ} (hn : (n : ℤ) ∈ c.savepoints.toList) :
    moduleSavepointAction .savepoint n (c, b) = ((c, b), .ok) := by
  have hsome := (find_isSome c n).mpr hn
  simp [moduleSavepointAction, SavepointAction.ask, transactionSavepoint, level_not_neg,
    h.commandAllowed, hsome]

/-- `xSavepoint` of an unlisted level above all listed ones: a fresh savepoint on both sides, or a
refusal that changes nothing when the list is full. -/
theorem savepoint_unlisted (h : BlockMirrors c b t) {n : ℕ}
    (hn : ∀ k ∈ c.savepoints.toList, k < (n : ℤ)) :
    (moduleSavepointAction .savepoint n (c, b) = ((c, b), .abort) ∧
      c.savepoints.toList.length = transactionMaxSavepoints) ∨
    ∃ c', moduleSavepointAction .savepoint n (c, b) =
        ((c', { b with savepoints := ((n : ℤ), b.working) :: b.savepoints }), .ok) ∧
      c'.savepoints.toList = c.savepoints.toList ++ [(n : ℤ)] ∧
      ∀ t' : SavepointStack σ, t'.current = t.current →
        (∀ m v, t'.levels[m]? = some (some v) ↔
          t.levels[m]? = some (some v) ∨ m = n ∧ v = t.current) →
        BlockMirrors c' { b with savepoints := ((n : ℤ), b.working) :: b.savepoints } t' := by
  have hnot : transactionFindSavepoint c n = none := by
    rw [← Option.not_isSome_iff_eq_none, find_isSome]
    exact fun hmem => (hn _ hmem).false
  cases hpush : c.savepoints.push? (n : ℤ) with
  | none =>
    refine Or.inl ⟨?_, Bounded.push?_eq_none hpush⟩
    simp [moduleSavepointAction, SavepointAction.ask, transactionSavepoint, level_not_neg,
      h.commandAllowed, hnot, hpush]
  | some savepoints =>
    refine Or.inr ⟨{ c with savepoints := savepoints }, ?_, Bounded.push?_eq_some hpush, ?_⟩
    · simp [moduleSavepointAction, SavepointAction.ask, transactionSavepoint, level_not_neg,
        h.commandAllowed, hnot, hpush, SavepointAction.command, Block.execute, h.notAborted]
    · intro t' hcurrent hlevels
      exact {
        initialized := h.initialized
        active := h.active
        noStream := h.noStream
        notAborted := h.notAborted
        working := h.working.trans hcurrent.symm
        listed := by simp [Bounded.push?_eq_some hpush, h.listed]
        sorted := by
          refine List.pairwise_cons.mpr ⟨fun p hp => ?_, h.sorted⟩
          exact hn _ ((h.mem_listed _).mpr (List.mem_map_of_mem hp))
        issued := by
          intro k v
          rw [List.mem_cons, h.issued, Prod.mk.injEq, h.working]
          constructor
          · rintro (⟨rfl, rfl⟩ | ⟨m, rfl, hv⟩)
            · exact ⟨n, rfl, (hlevels _ _).mpr (Or.inr ⟨rfl, rfl⟩)⟩
            · exact ⟨m, rfl, (hlevels _ _).mpr (Or.inl hv)⟩
          · rintro ⟨m, rfl, hv⟩
            rcases (hlevels _ _).mp hv with hv | ⟨rfl, rfl⟩
            · exact Or.inr ⟨m, rfl, hv⟩
            · exact Or.inl ⟨rfl, rfl⟩ }

end BlockMirrors

/-! ## The broadcast -/

/-- **The broadcast rule**: a condition that each callback accepts and keeps is kept by the whole
broadcast. -/
theorem broadcast_keeps {action : SavepointAction} {level : ℤ} {P : Coordinator × Block σ → Prop}
    (keep : ∀ s, P s → ∃ t, moduleSavepointAction action level s = (t, .ok) ∧ P t) :
    ∀ (k : ℕ) (s : Coordinator × Block σ), P s → ∃ t, broadcast action level k s = (t, .ok) ∧ P t
  | 0, s, hs => ⟨s, rfl, hs⟩
  | k + 1, s, hs => by
    obtain ⟨t, hst, ht⟩ := keep s hs
    rw [broadcast, hst]
    exact broadcast_keeps keep k t ht

namespace BlockMirrors

variable {c : Coordinator} {b : Block σ} {t : SavepointStack σ}

/-- Listed levels are open. -/
theorem lt_of_listed (h : BlockMirrors c b t) {k : ℤ} (hk : k ∈ c.savepoints.toList) :
    k < t.levels.length := by
  rw [h.mem_listed, List.mem_map] at hk
  obtain ⟨⟨_, v⟩, hmem, rfl⟩ := hk
  obtain ⟨m, rfl, hv⟩ := (h.issued _ v).mp hmem
  have := (List.getElem?_eq_some_iff.mp hv).1
  simpa using this

/-- Once rolled back to, an issued level restores the same contents again. -/
theorem rollbackTo_rollbackTo (h : BlockMirrors c b t) {n : ℕ}
    (hn : (n : ℤ) ∈ c.savepoints.toList) : (t.rollbackTo n).rollbackTo n = t.rollbackTo n := by
  obtain ⟨v, hv⟩ := (h.listed_iff n).mp hn
  simp [SavepointStack.rollbackTo, SavepointStack.restored, hv, List.take_take]

/-- The broadcast of a rollback to a listed level. -/
theorem broadcast_rollbackTo (h : BlockMirrors c b t) {n : ℕ}
    (hn : (n : ℤ) ∈ c.savepoints.toList) (k : ℕ) :
    ∃ c' b', broadcast .rollbackTo n (k + 1) (c, b) = ((c', b'), .ok) ∧
      BlockMirrors c' b' (t.rollbackTo n) := by
  obtain ⟨c₁, b₁, hcall, h₁, hn₁⟩ := h.rollbackTo_listed hn
  obtain ⟨⟨c', b'⟩, hrest, h', -⟩ := broadcast_keeps
    (P := fun s => BlockMirrors s.1 s.2 (t.rollbackTo n) ∧ (n : ℤ) ∈ s.1.savepoints.toList)
    (fun s hs => by
      obtain ⟨c₂, b₂, hcall₂, h₂, hn₂⟩ := hs.1.rollbackTo_listed hs.2
      rw [h.rollbackTo_rollbackTo hn] at h₂
      exact ⟨(c₂, b₂), hcall₂, h₂, hn₂⟩) k (c₁, b₁) ⟨h₁, hn₁⟩
  refine ⟨c', b', ?_, h'⟩
  rw [broadcast, hcall]
  exact hrest

/-- The broadcast of a release: the first table's call removes the suffix, the others find nothing
left to do. -/
theorem broadcast_release (h : BlockMirrors c b t) {n : ℕ}
    (hn : (n : ℤ) ∈ c.savepoints.toList ∨ ∀ k ∈ c.savepoints.toList, k < (n : ℤ)) (k : ℕ) :
    ∃ c' b', broadcast .release n (k + 1) (c, b) = ((c', b'), .ok) ∧
      BlockMirrors c' b' (t.release n) ∧
      c'.savepoints.toList = c.savepoints.toList.filter (· < (n : ℤ)) ∧
      b'.savepoints = b.savepoints.filter (·.1 < (n : ℤ)) := by
  obtain ⟨c₁, b₁, hcall, h₁, hlist, hstack⟩ :
      ∃ c' b', moduleSavepointAction .release n (c, b) = ((c', b'), .ok) ∧
        BlockMirrors c' b' (t.release n) ∧
        c'.savepoints.toList = c.savepoints.toList.filter (· < (n : ℤ)) ∧
        b'.savepoints = b.savepoints.filter (·.1 < (n : ℤ)) := by
    rcases hn with hn | hn
    · exact h.release_listed hn
    · obtain ⟨hcall, h'⟩ := h.release_unlisted hn
      refine ⟨c, b, hcall, h', ?_, ?_⟩
      · exact (List.filter_eq_self.mpr fun k hk => by simpa using hn k hk).symm
      · refine (List.filter_eq_self.mpr fun p hp => ?_).symm
        simpa using hn _ ((h.mem_listed _).mpr (List.mem_map_of_mem hp))
  have hbelow : ∀ k ∈ c₁.savepoints.toList, k < (n : ℤ) := by
    rw [hlist]
    exact fun k hk => by simpa using (List.mem_filter.mp hk).2
  obtain ⟨s', hrest, rfl⟩ := broadcast_keeps (P := fun s => s = (c₁, b₁))
    (fun s hs => ⟨s, by rw [hs]; exact (h₁.release_unlisted hbelow).1, hs⟩) k (c₁, b₁) rfl
  refine ⟨c₁, b₁, ?_, h₁, hlist, hstack⟩
  rw [broadcast, hcall]
  exact hrest

/-- The broadcast of a new level: refused as a whole when the list is full, otherwise one fresh
savepoint. -/
theorem broadcast_savepoint (h : BlockMirrors c b t) (k : ℕ) :
    (broadcast .savepoint t.levels.length (k + 1) (c, b) = ((c, b), .abort) ∧
      c.savepoints.toList.length = transactionMaxSavepoints) ∨
    ∃ c' b', broadcast .savepoint t.levels.length (k + 1) (c, b) = ((c', b'), .ok) ∧
      BlockMirrors c' b' (t.push true) ∧
      c'.savepoints.toList = c.savepoints.toList ++ [(t.levels.length : ℤ)] ∧
      b'.savepoints = ((t.levels.length : ℤ), b.working) :: b.savepoints := by
  rcases h.savepoint_unlisted (n := t.levels.length) (fun k hk => h.lt_of_listed hk) with
    ⟨hcall, hfull⟩ | ⟨c₁, hcall, hlist, hmirror⟩
  · refine Or.inl ⟨?_, hfull⟩
    rw [broadcast, hcall]
  · have h₁ := hmirror (t.push true) rfl fun m v => by
      rw [SavepointStack.push, List.getElem?_append]
      split
      · rename_i hlt
        simp only [iff_self_or, and_imp]
        omega
      · rename_i hge
        rw [List.getElem?_eq_none (not_lt.mp hge)]
        rcases Nat.eq_or_lt_of_le (not_lt.mp hge) with rfl | hlt
        · simp [eq_comm]
        · simp [Nat.sub_eq_zero_iff_le, hlt.ne', not_le.mpr hlt]
    have hmem : ((t.levels.length : ℕ) : ℤ) ∈ c₁.savepoints.toList := by simp [hlist]
    obtain ⟨s', hrest, rfl⟩ := broadcast_keeps (P := fun s => s = (c₁, _))
      (fun s hs => ⟨s, by rw [hs]; exact h₁.savepoint_listed hmem, hs⟩) k (c₁, _) rfl
    refine Or.inr ⟨c₁, _, ?_, h₁, hlist, rfl⟩
    rw [broadcast, hcall]
    exact hrest

end BlockMirrors

/-! ## The shared session -/

/-- **The two sides agree**: nothing has been issued before the first table joins, and from then on
the block mirrors the ideal stack. -/
def Mirrors (s : SharedSession σ) : Prop :=
  match s.block with
  | none => s.coordinator = transactionInit ∧ ∀ l ∈ s.stack.levels, l = none
  | some b => 0 < s.tables ∧ BlockMirrors s.coordinator b s.stack

/-- **The condition on a step**: a level that is rolled back to is on the coordinator's list, and
so is a level that is released while levels inside it are. -/
def NamesListedLevel (s : SharedSession σ) : SavepointEvent σ → Prop
  | .rollbackTo n => s.block.isSome → (transactionFindSavepoint s.coordinator n).isSome
  | .release n => s.block.isSome →
      (transactionFindSavepoint s.coordinator n).isSome ∨
        ∀ k ∈ s.coordinator.savepoints.toList, k < (n : ℤ)
  | _ => True

/-- The list can be searched for the level. -/
instance (s : SharedSession σ) : (e : SavepointEvent σ) → Decidable (NamesListedLevel s e)
  | .rollbackTo _ => inferInstanceAs (Decidable (_ → _))
  | .release _ => inferInstanceAs (Decidable (_ → _))
  | .join _ | .savepoint | .write _ => isTrue trivial

/-- **What a savepoint operation owes SQLite** once a table has joined: a new level is a fresh
savepoint holding the present contents (unless the list is full), a rollback restores the contents
of the level it names, a release removes exactly the levels from the one it names on. -/
def SavepointContract (s : SharedSession σ) (e : SavepointEvent σ) (s' : SharedSession σ) : Prop :=
  match e with
  | .savepoint => ∀ b, s.block = some b →
      s.coordinator.savepoints.toList.length < transactionMaxSavepoints →
      ∃ b', s'.block = some b' ∧
        b'.savepoints = ((s.stack.levels.length : ℤ), b.working) :: b.savepoints ∧
        s'.coordinator.savepoints.toList =
          s.coordinator.savepoints.toList ++ [(s.stack.levels.length : ℤ)]
  | .rollbackTo n => ∀ b, s.block = some b → n < s.stack.levels.length →
      ∃ b', s'.block = some b' ∧ b'.working = s.stack.restored n
  | .release n => ∀ b, s.block = some b → n < s.stack.levels.length →
      ∃ b', s'.block = some b' ∧ b'.working = b.working ∧
        b'.savepoints = b.savepoints.filter (·.1 < (n : ℤ)) ∧
        s'.coordinator.savepoints.toList = s.coordinator.savepoints.toList.filter (· < (n : ℤ))
  | .join _ | .write _ => True

namespace Mirrors

variable {identity : ConnectionIdentity} {s : SharedSession σ} {b : Block σ}

theorem blockMirrors (h : Mirrors s) (hb : s.block = some b) :
    BlockMirrors s.coordinator b s.stack := by
  rw [Mirrors, hb] at h
  exact h.2

theorem tables_pos (h : Mirrors s) (hb : s.block = some b) : 0 < s.tables := by
  rw [Mirrors, hb] at h
  exact h.1

theorem of_block (hb : s.block = some b) (htables : 0 < s.tables)
    (h : BlockMirrors s.coordinator b s.stack) : Mirrors s := by
  rw [Mirrors, hb]
  exact ⟨htables, h⟩

theorem init (contents : σ) : Mirrors (SharedSession.init contents) :=
  ⟨rfl, by simp [SharedSession.init]⟩

/-- Telling a late table about the innermost level issues it, or finds it issued. -/
theorem tellInnermost (h : Mirrors s) : Mirrors s.tellInnermost := by
  unfold SharedSession.tellInnermost
  split
  case h_2 => exact h
  case h_1 b n hb hlen =>
    have hm := h.blockMirrors hb
    have htables := h.tables_pos hb
    have hget : ∀ m v, (s.stack.mark n).levels[m]? = some (some v) ↔
        s.stack.levels[m]? = some (some v) ∨
          s.stack.levels[n]? = some none ∧ m = n ∧ v = s.stack.current := by
      intro m v
      rw [SavepointStack.mark, List.getElem?_modify]
      rcases eq_or_ne n m with rfl | hne
      · obtain ⟨l, hl⟩ : ∃ l, s.stack.levels[n]? = some l :=
          ⟨_, List.getElem?_eq_getElem (by omega)⟩
        rw [hl]
        cases l <;> simp [eq_comm]
      · simp [hne, hne.symm]
    by_cases hn : (n : ℤ) ∈ s.coordinator.savepoints.toList
    · rw [hm.savepoint_listed hn]
      refine of_block rfl htables { hm with issued := fun k v => ?_ }
      obtain ⟨w, hw⟩ := (hm.listed_iff n).mp hn
      simp only [hm.issued, hget, hw, Option.some.injEq, reduceCtorEq, false_and, or_false]
    · have hbelow : ∀ k ∈ s.coordinator.savepoints.toList, k < (n : ℤ) := by
        intro k hk
        have hlt := hm.lt_of_listed hk
        have hne : k ≠ n := fun heq => hn (heq ▸ hk)
        omega
      rcases hm.savepoint_unlisted hbelow with ⟨hcall, -⟩ | ⟨c', hcall, -, hmirror⟩
      · rw [hcall]
        exact of_block rfl htables hm
      · rw [hcall]
        refine of_block rfl htables (hmirror _ rfl fun m v => ?_)
        have hnone : s.stack.levels[n]? = some none := by
          obtain ⟨l, hl⟩ : ∃ l, s.stack.levels[n]? = some l :=
            ⟨_, List.getElem?_eq_getElem (by omega)⟩
          cases l with
          | none => exact hl
          | some w => exact absurd ((hm.listed_iff n).mpr ⟨w, hl⟩) hn
        rw [hget]
        simp [hnone]

/-- The first table starts the block; a further one only adds itself to the participants. -/
theorem begin (h : Mirrors s) {t : SharedSession σ} {table : UInt64}
    (hbegin : s.begin identity table = (t, .ok)) : Mirrors t := by
  unfold SharedSession.begin at hbegin
  split at hbegin
  next c hc =>
    obtain ⟨hinit, hidle, rfl⟩ := transactionBegin_commandRequired hc
    obtain rfl : _ = t := (Prod.mk.inj hbegin).1
    refine of_block rfl (Nat.succ_pos _) ?_
    cases hb : s.block with
    | some b =>
      rw [(h.blockMirrors hb).active] at hidle
      cases hidle
    | none =>
      rw [Mirrors, hb] at h
      obtain ⟨hcoord, hlevels⟩ := h
      rw [hcoord]
      exact {
        initialized := rfl
        active := rfl
        noStream := rfl
        notAborted := rfl
        working := rfl
        listed := rfl
        sorted := List.Pairwise.nil
        issued := fun k v => by
          refine iff_of_false List.not_mem_nil ?_
          rintro ⟨m, -, hv⟩
          cases hlevels _ (List.mem_of_getElem? hv) }
  next c hc =>
    obtain ⟨hstate, participants, rfl⟩ := transactionBegin_ok hc
    obtain rfl : _ = t := (Prod.mk.inj hbegin).1
    cases hb : s.block with
    | none =>
      rw [Mirrors, hb] at h
      rw [h.1] at hstate
      cases hstate <;> contradiction
    | some b =>
      have hm := h.blockMirrors hb
      exact of_block rfl (Nat.succ_pos _) ⟨hm.1, hm.2, hm.3, hm.4, hm.5, hm.6, hm.7, hm.8⟩
  next => cases hbegin

/-- **One step keeps the agreement**, when it meets the condition. -/
theorem step (h : Mirrors s) (e : SavepointEvent σ) (he : NamesListedLevel s e) :
    Mirrors (s.step identity e) := by
  cases e with
  | join table =>
    rw [SharedSession.step]
    split
    · rename_i t hbegin
      exact (h.begin hbegin).tellInnermost
    · rename_i t r hne hbegin
      have : t = s := by
        unfold SharedSession.begin at hbegin
        split at hbegin
        · exact absurd (Prod.mk.inj hbegin).2.symm hne
        · exact absurd (Prod.mk.inj hbegin).2.symm hne
        · exact (Prod.mk.inj hbegin).1.symm
      rw [this]
      exact h
  | savepoint =>
    cases hb : s.block with
    | none =>
      rw [Mirrors, hb] at h
      simp only [SharedSession.step, SharedSession.call, hb]
      refine ⟨h.1, ?_⟩
      simpa [SavepointStack.push, or_imp, forall_and] using h.2
    | some b =>
      obtain ⟨k, hk⟩ := Nat.exists_eq_succ_of_ne_zero (h.tables_pos hb).ne'
      simp only [SharedSession.step, SharedSession.call, hb, hk]
      rcases (h.blockMirrors hb).broadcast_savepoint k with ⟨hcall, -⟩ | ⟨c', b', hcall, h', -⟩
      · rw [hcall]
        exact of_block rfl (by simp) (h.blockMirrors hb)
      · rw [hcall]
        exact of_block rfl (by simp) h'
  | write f =>
    cases hb : s.block with
    | none => simpa only [SharedSession.step, hb] using h
    | some b =>
      have hm := h.blockMirrors hb
      simp only [SharedSession.step, hb]
      refine of_block rfl (h.tables_pos hb) ?_
      simp only [Block.execute, hm.notAborted, Bool.false_eq_true, if_false]
      exact { hm with
        notAborted := rfl
        working := congrArg f hm.working }
  | rollbackTo n =>
    rw [SharedSession.step]
    split
    · cases hb : s.block with
      | none =>
        rw [Mirrors, hb] at h
        simp only [SharedSession.call, hb]
        exact ⟨h.1, fun l hl => h.2 l (List.mem_of_mem_take hl)⟩
      | some b =>
        obtain ⟨k, hk⟩ := Nat.exists_eq_succ_of_ne_zero (h.tables_pos hb).ne'
        have hn := (find_isSome _ _).mp (he (by simp [hb]))
        obtain ⟨c', b', hcall, h'⟩ := (h.blockMirrors hb).broadcast_rollbackTo hn k
        simp only [SharedSession.call, hb, hk, hcall]
        exact of_block rfl (by simp) h'
    · exact h
  | release n =>
    rw [SharedSession.step]
    split
    · cases hb : s.block with
      | none =>
        rw [Mirrors, hb] at h
        simp only [SharedSession.call, hb]
        exact ⟨h.1, fun l hl => h.2 l (List.mem_of_mem_take hl)⟩
      | some b =>
        obtain ⟨k, hk⟩ := Nat.exists_eq_succ_of_ne_zero (h.tables_pos hb).ne'
        have hn := (he (by simp [hb])).imp_left (find_isSome _ _).mp
        obtain ⟨c', b', hcall, h', -⟩ := (h.blockMirrors hb).broadcast_release hn k
        simp only [SharedSession.call, hb, hk, hcall]
        exact of_block rfl (by simp) h'
    · exact h

/-- **One step meets the contract**, when it meets the condition. -/
theorem contract (h : Mirrors s) (e : SavepointEvent σ) (he : NamesListedLevel s e) :
    SavepointContract s e (s.step identity e) := by
  cases e with
  | join table => trivial
  | write f => trivial
  | savepoint =>
    intro b hb hroom
    obtain ⟨k, hk⟩ := Nat.exists_eq_succ_of_ne_zero (h.tables_pos hb).ne'
    simp only [SharedSession.step, SharedSession.call, hb, hk]
    rcases (h.blockMirrors hb).broadcast_savepoint k with
      ⟨hcall, hfull⟩ | ⟨c', b', hcall, -, hlist, hstack⟩
    · exact absurd hfull hroom.ne
    · rw [hcall]
      exact ⟨b', rfl, hstack, hlist⟩
  | rollbackTo n =>
    intro b hb hopen
    obtain ⟨k, hk⟩ := Nat.exists_eq_succ_of_ne_zero (h.tables_pos hb).ne'
    have hn := (find_isSome _ _).mp (he (by simp [hb]))
    obtain ⟨c', b', hcall, h'⟩ := (h.blockMirrors hb).broadcast_rollbackTo hn k
    simp only [SharedSession.step, if_pos hopen, SharedSession.call, hb, hk, hcall]
    exact ⟨b', rfl, h'.working⟩
  | release n =>
    intro b hb hopen
    obtain ⟨k, hk⟩ := Nat.exists_eq_succ_of_ne_zero (h.tables_pos hb).ne'
    have hm := h.blockMirrors hb
    have hn := (he (by simp [hb])).imp_left (find_isSome _ _).mp
    obtain ⟨c', b', hcall, h', hlist, hstack⟩ := hm.broadcast_release hn k
    simp only [SharedSession.step, if_pos hopen, SharedSession.call, hb, hk, hcall]
    exact ⟨b', rfl, h'.working.trans hm.working.symm, hstack, hlist⟩

end Mirrors

/-! ## Runs -/

/-- **Savepoint refinement.**  In every run of the savepoint protocol in which each rolled-back or
released level is one the coordinator lists, the coordinator and the server simulate SQLite's
nested savepoints: the two sides agree in the state reached, and the next operation — new level,
rollback, release — does what it owes. -/
theorem savepoints_simulate_nested_levels (identity : ConnectionIdentity) (contents : σ)
    (es : List (SavepointEvent σ))
    (hrun : Along NamesListedLevel (SharedSession.step identity) (SharedSession.init contents) es) :
    Mirrors (es.foldl (SharedSession.step identity) (SharedSession.init contents)) ∧
      ∀ e, NamesListedLevel
        (es.foldl (SharedSession.step identity) (SharedSession.init contents)) e →
        SavepointContract (es.foldl (SharedSession.step identity) (SharedSession.init contents)) e
          ((es ++ [e]).foldl (SharedSession.step identity) (SharedSession.init contents)) := by
  have hm : Mirrors (es.foldl (SharedSession.step identity) (SharedSession.init contents)) :=
    hrun.invariant Mirrors (fun _ e hs he => hs.step e he) (Mirrors.init contents)
  refine ⟨hm, fun e he => ?_⟩
  rw [List.foldl_append]
  exact hm.contract e he

/-- Two tables over nested levels, one of them joining late: open, write, roll back, release. -/
def nestedRun : List (SavepointEvent ℕ) :=
  [.savepoint, .join 1, .write (· + 1), .savepoint, .write (· + 2), .join 2, .rollbackTo 1,
    .savepoint, .release 2]

theorem savepoints_simulate_nestedRun :
    Mirrors (nestedRun.foldl (SharedSession.step ⟨[1], 0, 0, "", true⟩) (SharedSession.init 0)) ∧
      ∀ e, NamesListedLevel
          (nestedRun.foldl (SharedSession.step ⟨[1], 0, 0, "", true⟩) (SharedSession.init 0)) e →
        SavepointContract
          (nestedRun.foldl (SharedSession.step ⟨[1], 0, 0, "", true⟩) (SharedSession.init 0)) e
          ((nestedRun ++ [e]).foldl (SharedSession.step ⟨[1], 0, 0, "", true⟩)
            (SharedSession.init 0)) :=
  savepoints_simulate_nested_levels ⟨[1], 0, 0, "", true⟩ 0 nestedRun (by decide)

/-- A table that joined inside two levels, so that only level `1` was issued, sees both released and
reopened. -/
def staleRun : List (SavepointEvent ℕ) :=
  [.savepoint, .savepoint, .join 1, .release 0, .savepoint, .write (· + 5), .savepoint,
    .write (· + 7), .rollbackTo 1]

/-- **A release of an unlisted level leaves a stale savepoint**: `xRelease(0)` is taken as done with
level `1` still listed, so the new level `1` makes no savepoint and the rollback to it also undoes
the write made before it was opened. -/
theorem release_of_unlisted_level_leaves_stale_savepoint :
    ¬ Mirrors (staleRun.foldl (SharedSession.step ⟨[1], 0, 0, "", true⟩) (SharedSession.init 0)) ∧
      ((staleRun.foldl (SharedSession.step ⟨[1], 0, 0, "", true⟩)
        (SharedSession.init 0)).block.map Block.working) = some 0 ∧
      (staleRun.foldl (SharedSession.step ⟨[1], 0, 0, "", true⟩)
        (SharedSession.init 0)).stack.current = 5 := by
  refine ⟨fun h => ?_, by decide, by decide⟩
  have hblock : (staleRun.foldl (SharedSession.step ⟨[1], 0, 0, "", true⟩)
      (SharedSession.init 0)).block.map Block.working = some 0 := by decide
  obtain ⟨b, hb, hworking⟩ := Option.map_eq_some_iff.mp hblock
  have := (h.blockMirrors hb).working
  rw [hworking] at this
  revert this
  decide

end Vps
