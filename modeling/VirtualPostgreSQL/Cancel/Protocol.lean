import VirtualPostgreSQL.Cancel.Registry
import VirtualPostgreSQL.Machinery.Outcome
import VirtualPostgreSQL.Machinery.Run

/-!
# Cancel/Protocol — the tokens that a request reaches

The list of a registry always ends, holds each registered token once and no other, and is as long as
its count says (`CancelMemory.Sound`), whatever the mutexes answer.  So a request reaches the tokens
that are registered when it is made, and no other: `cancel_registry_protocol`.
-/

namespace Vps

open Machinery

namespace CancelMemory

/-- A token is registered in a registry. -/
def RegisteredAt (memory : CancelMemory) (registry token : ℕ) : Prop :=
  (memory.tokens token).registered = true ∧ (memory.tokens token).registry = some registry

/-- **The list of a registry**: its tokens, counted. -/
structure Listed (memory : CancelMemory) (registry : ℕ) (nodes : List ℕ) : Prop where
  chain : Chain (nextToken memory.tokens) (memory.registries registry).head nodes
  count : (memory.registries registry).tokenCount.toNat = nodes.length
  mem : ∀ token, token ∈ nodes ↔ memory.RegisteredAt registry token

/-- **What holds at any time.** -/
structure Sound (memory : CancelMemory) : Prop where
  listed : ∀ registry, ∃ nodes, memory.Listed registry nodes
  idle : ∀ registry, (memory.registries registry).initialized = false →
    memory.registries registry = .zero
  owned : ∀ token, (memory.tokens token).registered = true →
    ∃ registry, (memory.tokens token).registry = some registry

variable {memory memory' : CancelMemory} {registry registry' token : ℕ} {nodes : List ℕ}

theorem RegisteredAt.unique (h : memory.RegisteredAt registry token)
    (h' : memory.RegisteredAt registry' token) : registry = registry' :=
  Option.some.inj (h.2.symm.trans h'.2)

theorem Listed.length_lt (h : memory.Listed registry nodes) : nodes.length < 2 ^ 64 :=
  h.count ▸ (memory.registries registry).tokenCount.toNat_lt

/-- A list stays when its head, its count and the links of its tokens do. -/
theorem Listed.frame (h : memory.Listed registry nodes)
    (hhead : (memory'.registries registry).head = (memory.registries registry).head)
    (hcount : (memory'.registries registry).tokenCount = (memory.registries registry).tokenCount)
    (hlinks : ∀ token ∈ nodes, nextToken memory'.tokens token = nextToken memory.tokens token)
    (htokens : ∀ token, memory'.RegisteredAt registry token ↔ memory.RegisteredAt registry token) :
    memory'.Listed registry nodes where
  chain := hhead ▸ h.chain.congr hlinks
  count := hcount ▸ h.count
  mem token := (h.mem token).trans (htokens token).symm

/-- A registry that is not in use has no token. -/
theorem Sound.not_registered (h : memory.Sound)
    (hidle : (memory.registries registry).initialized = false) (token : ℕ) :
    ¬memory.RegisteredAt registry token := by
  obtain ⟨nodes, hnodes⟩ := h.listed registry
  have hhead : (memory.registries registry).head = none := by rw [h.idle registry hidle]; rfl
  have hnil : nodes = [] := by
    cases nodes with
    | nil => rfl
    | cons a nodes => cases hhead.symm.trans hnodes.chain.1
  rw [← hnodes.mem, hnil]
  exact List.not_mem_nil

/-- What a write to a token changes of where the tokens are. -/
theorem registeredAt_update (registries : ℕ → CancelRegistry) (tokens : ℕ → CancelToken) (t : ℕ)
    (value : CancelToken) (registry token : ℕ) :
    (CancelMemory.mk registries (Function.update tokens t value)).RegisteredAt registry token ↔
      if token = t then value.registered = true ∧ value.registry = some registry
      else (CancelMemory.mk registries tokens).RegisteredAt registry token := by
  unfold RegisteredAt
  dsimp only
  by_cases ht : token = t
  · subst ht
    rw [Function.update_self, if_pos rfl]
  · rw [Function.update_of_ne ht, if_neg ht]

end CancelMemory

theorem nextToken_update (tokens : ℕ → CancelToken) (t : ℕ) (value : CancelToken) :
    nextToken (Function.update tokens t value) =
      Function.update (nextToken tokens) t value.next := by
  funext token
  unfold nextToken
  by_cases ht : token = t
  · subst ht
    simp only [Function.update_self]
  · simp only [Function.update_of_ne ht]

/-! ## The operations -/

section Operations

variable {memory : CancelMemory} {rounds : ℕ}

section Emptied

variable {registry : ℕ} {tokens : ℕ → CancelToken}
  (hgone : ∀ token, memory.RegisteredAt registry token → tokens token = .zero)
  (hkept : ∀ token, ¬memory.RegisteredAt registry token → tokens token = memory.tokens token)
include hgone hkept

/-- What is registered when the tokens of a registry are forgotten. -/
theorem registeredAt_emptied (registries : ℕ → CancelRegistry) (other token : ℕ) :
    (CancelMemory.mk registries tokens).RegisteredAt other token ↔
      other ≠ registry ∧ memory.RegisteredAt other token := by
  by_cases hbefore : memory.RegisteredAt registry token
  · refine iff_of_false (fun hat => ?_) fun hat => hat.1 (hat.2.unique hbefore)
    exact Bool.noConfusion
      ((congrArg CancelToken.registered (hgone token hbefore)).symm.trans hat.1)
  · unfold CancelMemory.RegisteredAt
    simp only [hkept token hbefore]
    refine ⟨fun hat => ⟨?_, hat⟩, And.right⟩
    rintro rfl
    exact hbefore hat

/-- **A registry is emptied**: its tokens are forgotten, and no other token is touched. -/
theorem CancelMemory.Sound.emptied (h : memory.Sound) {value : CancelRegistry}
    (hhead : value.head = none)
    (hcount : value.tokenCount = 0) (hzero : value.initialized = false → value = .zero) :
    (CancelMemory.mk (Function.update memory.registries registry value) tokens).Sound := by
  have hat := registeredAt_emptied hgone hkept (Function.update memory.registries registry value)
  refine ⟨fun other => ?_, fun other hother => ?_, fun token htoken => ?_⟩
  · by_cases hne : other = registry
    · subst hne
      refine ⟨[], ?_, ?_,
        fun token => iff_of_false List.not_mem_nil fun h => ((hat _ _).mp h).1 rfl⟩
      · simp only [Function.update_self]
        exact hhead
      · simp only [Function.update_self, hcount]
        rfl
    · obtain ⟨nodes, hnodes⟩ := h.listed other
      refine ⟨nodes, hnodes.frame ?_ ?_ (fun token hmem => ?_) fun token => ?_⟩
      · simp only [Function.update_of_ne hne]
      · simp only [Function.update_of_ne hne]
      · exact congrArg CancelToken.next
          (hkept token fun hat => hne (((hnodes.mem token).mp hmem).unique hat))
      · rw [hat]
        exact and_iff_right hne
  · by_cases hne : other = registry
    · subst hne
      simp only [Function.update_self] at hother ⊢
      exact hzero hother
    · simp only [Function.update_of_ne hne] at hother ⊢
      exact h.idle other hother
  · by_cases hbefore : memory.RegisteredAt registry token
    · exact Bool.noConfusion
        ((congrArg CancelToken.registered (hgone token hbefore)).symm.trans htoken)
    · dsimp only at htoken ⊢
      rw [hkept token hbefore] at htoken ⊢
      exact h.owned token htoken

end Emptied

/-- **A registry is initialised**: it has no token, before and after. -/
theorem cancelRegistryInit_spec (h : memory.Sound) (registry : ℕ) (mutex : Bool)
    (hidle : (memory.registries registry).initialized = false) :
    (cancelRegistryInit memory registry mutex).2.Sound ∧
      (cancelRegistryInit memory registry mutex).2.tokens = memory.tokens := by
  have hnone := h.not_registered hidle
  unfold cancelRegistryInit
  split
  · exact ⟨.emptied (fun token hat => absurd hat (hnone token)) (fun _ _ => rfl) h rfl rfl
      fun _ => rfl, rfl⟩
  · exact ⟨.emptied (fun token hat => absurd hat (hnone token)) (fun _ _ => rfl) h rfl rfl
      fun hinit => Bool.noConfusion hinit, rfl⟩

/-- **A token is registered**, or nothing happens. -/
theorem cancelTokenRegister_spec (h : memory.Sound) (registry token : ℕ) (cursorId : UInt64)
    (lock : Bool) :
    ((cancelTokenRegister memory registry token cursorId lock).1 ≠ .ok ∧
        (cancelTokenRegister memory registry token cursorId lock).2 = memory) ∨
      ∃ memory', cancelTokenRegister memory registry token cursorId lock = (.ok, memory') ∧
        memory'.Sound ∧
        (memory.tokens token).registered = false ∧
        (∀ r t, memory'.RegisteredAt r t ↔ (r = registry ∧ t = token) ∨ memory.RegisteredAt r t) ∧
        (memory'.tokens token).requested = false ∧ ∀ t, t ≠ token →
          memory'.tokens t = memory.tokens t := by
  unfold cancelTokenRegister
  dsimp only
  split
  · exact .inl ⟨by simp, rfl⟩
  rename_i hargument
  split
  · exact .inl ⟨by simp, rfl⟩
  split
  · exact .inl ⟨by simp, rfl⟩
  rename_i hfull
  simp only [not_or, Bool.not_eq_false, Bool.not_eq_true] at hargument hfull
  obtain ⟨-, hinit, hfree⟩ := hargument
  have hnot : ∀ r, ¬memory.RegisteredAt r token := fun r hat => by
    rw [hat.1] at hfree
    exact Bool.noConfusion hfree
  refine .inr ⟨_, rfl, ⟨fun other => ?_, fun other hother => ?_, fun t ht => ?_⟩, hfree,
    fun r t => ?_, ?_, fun t ht => ?_⟩
  · obtain ⟨nodes, hnodes⟩ := h.listed other
    have hnew : token ∉ nodes := fun hmem => hnot other ((hnodes.mem token).mp hmem)
    by_cases hne : other = registry
    · subst hne
      refine ⟨token :: nodes, ?_, ?_, fun t => ?_⟩
      · rw [nextToken_update]
        simp only [Function.update_self]
        exact hnodes.chain.push hnew
      · simp only [Function.update_self, List.length_cons, ← hnodes.count]
        rw [UInt64.toNat_add]
        have hlt := (memory.registries other).tokenCount.toNat_lt
        have hmax : (memory.registries other).tokenCount.toNat ≠ 2 ^ 64 - 1 := fun heq =>
          hfull.2 (UInt64.toNat_inj.mp heq)
        exact Nat.mod_eq_of_lt (by simp; omega)
      · rw [CancelMemory.registeredAt_update, List.mem_cons, hnodes.mem]
        by_cases ht : t = token
        · simp [ht]
        · simp only [ht, false_or, if_false]
          rfl
    · refine ⟨nodes, hnodes.frame ?_ ?_ (fun t ht => ?_) (fun t => ?_)⟩
      · simp only [Function.update_of_ne hne]
      · simp only [Function.update_of_ne hne]
      · rw [nextToken_update]
        refine Function.update_of_ne ?_ ..
        rintro rfl
        exact hnew ht
      · rw [CancelMemory.registeredAt_update]
        split
        · rename_i ht
          subst ht
          refine iff_of_false (fun hat => hne (Option.some.inj hat.2).symm) (hnot other)
        · rfl
  · by_cases hne : other = registry
    · subst hne
      simp only [Function.update_self] at hother
      rw [hinit] at hother
      exact Bool.noConfusion hother
    · simp only [Function.update_of_ne hne] at hother ⊢
      exact h.idle other hother
  · by_cases hne : t = token
    · subst hne
      exact ⟨registry, by simp only [Function.update_self]⟩
    · simp only [Function.update_of_ne hne] at ht ⊢
      exact h.owned t ht
  · rw [CancelMemory.registeredAt_update]
    split
    · rename_i ht
      subst ht
      simp [hnot r, eq_comm]
    · rename_i ht
      simp only [ht, and_false, false_or]
      rfl
  · simp only [Function.update_self]
  · simp only [Function.update_of_ne ht]

/-- A write to a link changes nothing of a token but what it points to. -/
theorem writeLink_tokens (memory : CancelMemory) (registry : ℕ)
    (link value : Option ℕ) (token : ℕ) :
    ∃ next, (writeLink memory registry link value).tokens token =
      { memory.tokens token with next } := by
  cases link with
  | none => exact ⟨(memory.tokens token).next, rfl⟩
  | some b =>
    by_cases hb : token = b
    · subst hb
      exact ⟨value, Function.update_self ..⟩
    · exact ⟨(memory.tokens token).next, Function.update_of_ne hb ..⟩

/-- Only the token whose link is written is touched. -/
theorem writeLink_tokens_of_not_mem (memory : CancelMemory) (registry : ℕ) (value : Option ℕ)
    {nodes : List ℕ} {token : ℕ} (h : token ∉ nodes) :
    (writeLink memory registry nodes.getLast? value).tokens token = memory.tokens token := by
  cases hlast : nodes.getLast? with
  | none => rfl
  | some b =>
    refine Function.update_of_ne ?_ ..
    rintro rfl
    exact h (List.mem_of_getLast? hlast)

/-- A write to a link of a registry changes nothing of another, nor its count. -/
theorem writeLink_registries (memory : CancelMemory) (registry : ℕ) (link value : Option ℕ) :
    ∃ head, (writeLink memory registry link value).registries =
      Function.update memory.registries registry { memory.registries registry with head } := by
  cases link with
  | none => exact ⟨value, rfl⟩
  | some b => exact ⟨(memory.registries registry).head, (Function.update_eq_self ..).symm⟩

/-- **The token is out of the list** when the link to it has been written. -/
theorem writeLink_chain {registry token : ℕ} {before after : List ℕ}
    (h : Chain (nextToken memory.tokens) (memory.registries registry).head
    (before ++ token :: after)) :
    Chain (nextToken (writeLink memory registry before.getLast? (memory.tokens token).next).tokens)
      ((writeLink memory registry before.getLast? (memory.tokens token).next).registries
      registry).head (before ++ after) := by
  have hout := h.unlink
  cases hlast : before.getLast? with
  | none =>
    rw [hlast] at hout
    simp only [writeLink, Function.update_self]
    exact hout
  | some b =>
    rw [hlast] at hout
    simp only [writeLink, nextToken_update]
    exact hout

/-- A token that is written to its link, counted out and forgotten: the others stay as they are. -/
theorem CancelMemory.Sound.unlinked (h : memory.Sound) {registry token : ℕ} {before after : List ℕ}
    (hnodes : memory.Listed registry (before ++ token :: after)) {linked : CancelMemory}
    (hlinked : linked = writeLink memory registry before.getLast? (memory.tokens token).next)
    {tokenCount : UInt64} (hcount : tokenCount.toNat = before.length + after.length) :
    let memory' : CancelMemory := ⟨Function.update linked.registries registry
      { linked.registries registry with tokenCount }, Function.update linked.tokens token .zero⟩
    memory'.Sound ∧ (∀ r t, memory'.RegisteredAt r t ↔ t ≠ token ∧ memory.RegisteredAt r t) ∧
      ∀ t, t ≠ token → (memory'.tokens t).requested = (memory.tokens t).requested := by
  intro memory'
  have hchain := writeLink_chain hnodes.chain
  rw [← hlinked] at hchain
  obtain ⟨head, hregistries⟩ :=
    writeLink_registries memory registry before.getLast? (memory.tokens token).next
  have htokens := writeLink_tokens memory registry before.getLast? (memory.tokens token).next
  rw [← hlinked] at hregistries htokens
  have hat : memory.RegisteredAt registry token := (hnodes.mem token).mp (by simp)
  have hinit : (memory.registries registry).initialized = true := by
    by_contra hidle
    exact h.not_registered (Bool.eq_false_iff.mpr hidle) token hat
  have hout : token ∉ before ++ after := by
    have hnodup := List.perm_middle.nodup_iff.mp hnodes.chain.nodup
    exact (List.nodup_cons.mp hnodup).1
  have hregistered : ∀ r t, memory'.RegisteredAt r t ↔ t ≠ token ∧ memory.RegisteredAt r t := by
    intro r t
    rw [CancelMemory.registeredAt_update]
    split
    · rename_i ht
      exact iff_of_false (fun hzero => Bool.noConfusion hzero.1) fun hne => hne.1 ht
    · rename_i ht
      obtain ⟨next, hnext⟩ := htokens t
      unfold CancelMemory.RegisteredAt
      simp only [hnext]
      exact (and_iff_right ht).symm
  refine ⟨⟨fun other => ?_, fun other hother => ?_, fun t ht => ?_⟩, hregistered, fun t ht => ?_⟩
  · by_cases hne : other = registry
    · subst hne
      refine ⟨before ++ after, ?_, ?_, fun t => ?_⟩
      · simp only [memory', nextToken_update, Function.update_self]
        refine hchain.congr fun t ht => Function.update_of_ne ?_ ..
        rintro rfl
        exact hout ht
      · simp only [memory', Function.update_self, hcount, List.length_append]
      · rw [hregistered, ← hnodes.mem, List.perm_middle.mem_iff, List.mem_cons]
        constructor
        · refine fun ht => ⟨?_, .inr ht⟩
          rintro rfl
          exact hout ht
        · exact fun ⟨hne, ht⟩ => ht.resolve_left hne
    · obtain ⟨nodes, hothers⟩ := h.listed other
      have hforeign : ∀ t ∈ nodes, t ∉ before ++ token :: after := fun t ht hmem =>
        hne (((hothers.mem t).mp ht).unique ((hnodes.mem t).mp hmem))
      refine ⟨nodes, hothers.frame ?_ ?_ (fun t ht => ?_) fun t => ?_⟩
      · simp only [memory', hregistries, Function.update_of_ne hne]
      · simp only [memory', hregistries, Function.update_of_ne hne]
      · have hnot := hforeign t ht
        rw [List.mem_append, List.mem_cons, not_or, not_or] at hnot
        simp only [memory', Function.update_of_ne hnot.2.1, nextToken]
        rw [hlinked, writeLink_tokens_of_not_mem _ _ _ hnot.1]
      · rw [hregistered]
        refine and_iff_right_of_imp fun hother => ?_
        rintro rfl
        exact hne (hother.unique hat)
  · by_cases hne : other = registry
    · subst hne
      simp only [memory', hregistries, Function.update_self, hinit] at hother
      exact Bool.noConfusion hother
    · simp only [memory', hregistries, Function.update_of_ne hne] at hother ⊢
      exact h.idle other hother
  · by_cases hne : t = token
    · subst hne
      simp only [memory', Function.update_self] at ht
      exact Bool.noConfusion ht
    · obtain ⟨next, hnext⟩ := htokens t
      simp only [memory', Function.update_of_ne hne, hnext] at ht ⊢
      exact h.owned t ht
  · obtain ⟨next, hnext⟩ := htokens t
    simp only [memory', Function.update_of_ne ht, hnext]

/-- **A token is unregistered**; only the mutex may refuse it. -/
theorem cancelTokenUnregister_spec (h : memory.Sound) (hrounds : 2 ^ 64 ≤ rounds) (token : ℕ)
    (lock : Bool) :
    ∃ result memory', cancelTokenUnregister rounds memory token lock = .ok (result, memory') ∧
      ((result = .platformError ∧ lock = false ∧ memory' = memory) ∨
        (result = .ok ∧ memory'.Sound ∧
          (∀ r t, memory'.RegisteredAt r t ↔ t ≠ token ∧ memory.RegisteredAt r t) ∧
          ∀ t, t ≠ token → (memory'.tokens t).requested = (memory.tokens t).requested)) := by
  unfold cancelTokenUnregister
  dsimp only
  cases hregistered : (memory.tokens token).registered with
  | false =>
    refine ⟨_, _, rfl, .inr ⟨rfl, h, fun r t => ⟨fun hat => ⟨?_, hat⟩, And.right⟩, fun _ _ => rfl⟩⟩
    rintro rfl
    exact Bool.noConfusion (hregistered.symm.trans hat.1)
  | true =>
    obtain ⟨registry, hregistry⟩ := h.owned token hregistered
    have hat : memory.RegisteredAt registry token := ⟨hregistered, hregistry⟩
    rw [if_neg (by simp), hregistry]
    dsimp only
    cases hinit : (memory.registries registry).initialized with
    | false => exact absurd hat (h.not_registered hinit token)
    | true =>
      rw [if_neg (by simp)]
      cases lock with
      | false => exact ⟨_, _, rfl, .inl ⟨rfl, rfl, rfl⟩⟩
      | true =>
        rw [if_neg (by simp)]
        obtain ⟨nodes, hnodes⟩ := h.listed registry
        obtain ⟨before, after, rfl⟩ := List.append_of_mem ((hnodes.mem token).mpr hat)
        have hlength := hnodes.length_lt
        have hnodup := hnodes.chain.nodup
        rw [List.length_append, List.length_cons] at hlength
        have hnew : token ∉ before := fun hmem =>
          (List.nodup_append.mp hnodup).2.2 token hmem token List.mem_cons_self rfl
        have hlink :=
          @seekLink_of_mem _ (memory.registries registry).head _ _ _ _ none _ rounds hnodes.chain
          hnew (by omega)
        have hfound := @linkAt_found _ (memory.registries registry).head _ _ _ _ none hnodes.chain
        rw [Option.or_none] at hlink hfound
        rw [hlink]
        dsimp only [bind, Except.bind]
        rw [if_neg (not_not_intro hfound)]
        refine ⟨_, _, rfl, .inr ⟨rfl, h.unlinked hnodes rfl ?_⟩⟩
        obtain ⟨head, hregistries⟩ :=
          writeLink_registries memory registry before.getLast? (memory.tokens token).next
        have hcount := hnodes.count
        rw [List.length_append, List.length_cons] at hcount
        simp only [hregistries, Function.update_self]
        rw [if_pos, UInt64.toNat_sub_of_le]
        · rw [hcount]
          rfl
        · rw [UInt64.le_iff_toNat_le, hcount]
          exact Nat.succ_le_of_lt (by omega)
        · intro hzero
          rw [hzero] at hcount
          exact absurd hcount.symm (by simp)

/-- The tokens that a cleanup forgets. -/
theorem foldl_forgetToken (nodes : List ℕ) (tokens : ℕ → CancelToken) (token : ℕ) :
    nodes.foldl forgetToken tokens token = if token ∈ nodes then .zero else tokens token := by
  induction nodes generalizing tokens with
  | nil => rfl
  | cons a nodes ih =>
    rw [List.foldl_cons, ih]
    by_cases ha : token = a
    · subst ha
      simp [forgetToken]
    · simp [forgetToken, ha]

/-- **A cleanup** forgets the tokens of its registry. -/
theorem cancelRegistryCleanup_spec (h : memory.Sound) (hrounds : 2 ^ 64 ≤ rounds) (registry : ℕ)
    (lock destroyed : Bool) :
    ∃ result memory', cancelRegistryCleanup rounds memory registry lock destroyed =
      .ok (result, memory') ∧
      (if (memory.registries registry).initialized && lock then
        memory'.Sound ∧ (∀ r t, memory'.RegisteredAt r t ↔ r ≠ registry ∧ memory.RegisteredAt r t) ∧
          ∀ t, ¬memory.RegisteredAt registry t → memory'.tokens t = memory.tokens t
      else memory' = memory) := by
  unfold cancelRegistryCleanup
  dsimp only
  cases hinit : (memory.registries registry).initialized with
  | false => exact ⟨_, _, rfl, rfl⟩
  | true =>
    cases lock with
    | false => exact ⟨_, _, rfl, rfl⟩
    | true =>
      obtain ⟨nodes, hnodes⟩ := h.listed registry
      have hwalk := @walk_eq _ _ nextToken forgetToken
        (fun tokens a b hne => congrArg CancelToken.next (Function.update_of_ne hne ..))
        _ _ _ hnodes.chain rounds (hnodes.length_lt.le.trans hrounds)
      rw [if_neg (by simp), if_neg (by simp), hwalk]
      have hgone : ∀ t, memory.RegisteredAt registry t →
        nodes.foldl forgetToken memory.tokens t = .zero := by
        intro t ht
        rw [foldl_forgetToken, if_pos ((hnodes.mem t).mpr ht)]
      have hkept : ∀ t, ¬memory.RegisteredAt registry t →
          nodes.foldl forgetToken memory.tokens t = memory.tokens t := by
        intro t ht
        rw [foldl_forgetToken, if_neg fun hmem => ht ((hnodes.mem t).mp hmem)]
      cases destroyed with
      | false =>
        refine ⟨_, _, rfl, .emptied hgone hkept h rfl rfl fun hidle => ?_,
          registeredAt_emptied hgone hkept _, hkept⟩
        exact Bool.noConfusion hidle
      | true =>
        exact ⟨_, _, rfl, .emptied hgone hkept h rfl rfl fun _ => rfl,
          registeredAt_emptied hgone hkept _, hkept⟩

/-- The tokens that a request marks, and its count. -/
theorem foldl_markToken (generation : UInt64) (nodes : List ℕ)
    (marked : (ℕ → CancelToken) × UInt64) :
    (nodes.foldl (markToken generation) marked).2 = marked.2 + UInt64.ofNat nodes.length ∧
      ∀ token, (nodes.foldl (markToken generation) marked).1 token =
        if token ∈ nodes then
          { marked.1 token with requested := true, requestGeneration := generation }
        else marked.1 token := by
  induction nodes generalizing marked with
  | nil => exact ⟨(UInt64.add_zero _).symm, fun _ => rfl⟩
  | cons a nodes ih =>
    obtain ⟨hcount, htokens⟩ := ih (markToken generation marked a)
    refine ⟨?_, fun token => ?_⟩
    · rw [List.foldl_cons, hcount, List.length_cons, UInt64.ofNat_add,
        UInt64.add_comm (UInt64.ofNat _), ← UInt64.add_assoc]
      rfl
    · rw [List.foldl_cons, htokens]
      by_cases ha : token = a
      · subst ha
        simp [markToken]
      · simp [markToken, ha]

/-- **A request** marks the tokens that are registered, and counts them. -/
theorem cancelRegistryRequestAll_spec (h : memory.Sound) (hrounds : 2 ^ 64 ≤ rounds) (registry : ℕ)
    (lock : Bool) :
    ∃ result count memory', cancelRegistryRequestAll rounds memory registry lock =
      .ok (result, count, memory') ∧
      ((result ≠ .ok ∧ memory' = memory) ∨
        ∃ nodes marked, result = .ok ∧ memory.Listed registry nodes ∧ count = some marked ∧
          marked.toNat = nodes.length ∧ memory'.Sound ∧
          (∀ r t, memory'.RegisteredAt r t ↔ memory.RegisteredAt r t) ∧
          ∀ t, (memory'.tokens t).requested = true ↔
            t ∈ nodes ∨ (memory.tokens t).requested = true) := by
  unfold cancelRegistryRequestAll
  dsimp only
  cases hinit : (memory.registries registry).initialized with
  | false => exact ⟨_, _, _, rfl, .inl ⟨CancelRegistryResult.noConfusion, rfl⟩⟩
  | true =>
    cases lock with
    | false => exact ⟨_, _, _, rfl, .inl ⟨CancelRegistryResult.noConfusion, rfl⟩⟩
    | true =>
      rw [if_neg (by simp), if_neg (by simp)]
      split
      · exact ⟨_, _, _, rfl, .inl ⟨CancelRegistryResult.noConfusion, rfl⟩⟩
      obtain ⟨nodes, hnodes⟩ := h.listed registry
      have hwalk := @walk_eq _ _ (fun marked token => nextToken marked.1 token)
        (markToken ((memory.registries registry).generation + 1))
        (fun marked a b hne => congrArg CancelToken.next (Function.update_of_ne hne ..))
        (memory.tokens, 0) _ _ hnodes.chain rounds (hnodes.length_lt.le.trans hrounds)
      rw [hwalk]
      obtain ⟨hcount, htokens⟩ :=
        foldl_markToken ((memory.registries registry).generation + 1) nodes (memory.tokens, 0)
      have hlinks :
        ∀ t, nextToken (nodes.foldl (markToken ((memory.registries registry).generation + 1))
          (memory.tokens, 0)).1 t = nextToken memory.tokens t := by
        intro t
        unfold nextToken
        rw [htokens]
        split <;> rfl
      have hregistered : ∀ registries r t, (CancelMemory.mk registries
          (nodes.foldl (markToken ((memory.registries registry).generation + 1))
            (memory.tokens, 0)).1).RegisteredAt r t ↔ memory.RegisteredAt r t := by
        intro registries r t
        unfold CancelMemory.RegisteredAt
        dsimp only
        rw [htokens]
        split <;> rfl
      refine ⟨_, _, _, rfl,
        .inr ⟨nodes, _, rfl, hnodes, rfl, ?_, ⟨fun other => ?_, fun other hother => ?_,
        fun t ht => ?_⟩, hregistered _, fun t => ?_⟩⟩
      · rw [hcount]
        simp only [UInt64.zero_add]
        exact UInt64.toNat_ofNat_of_lt' hnodes.length_lt
      · obtain ⟨others, hothers⟩ := h.listed other
        refine ⟨others, hothers.frame ?_ ?_ (fun t _ => hlinks t) (hregistered _ other)⟩
        · by_cases hne : other = registry
          · subst hne
            simp only [Function.update_self]
          · simp only [Function.update_of_ne hne]
        · by_cases hne : other = registry
          · subst hne
            simp only [Function.update_self]
          · simp only [Function.update_of_ne hne]
      · by_cases hne : other = registry
        · subst hne
          simp only [Function.update_self] at hother
          exact Bool.noConfusion hother
        · simp only [Function.update_of_ne hne] at hother ⊢
          exact h.idle other hother
      · dsimp only at ht ⊢
        rw [htokens] at ht ⊢
        by_cases hmem : t ∈ nodes
        · rw [if_pos hmem]
          exact h.owned t ((hnodes.mem t).mp hmem).1
        · rw [if_neg hmem] at ht ⊢
          exact h.owned t ht
      · dsimp only
        rw [htokens]
        by_cases hmem : t ∈ nodes
        · rw [if_pos hmem]
          exact iff_of_true rfl (.inl hmem)
        · rw [if_neg hmem]
          exact (or_iff_right hmem).symm

end Operations

/-! ## Runs -/

/-- A token has been registered, and since then neither unregistered nor cleaned up. -/
def RegisteredIn (registry token : ℕ) (history : List CancelRecord) : Prop :=
  Since (· = .registered registry token)
    (fun e => e = .unregistered token ∨ e = .cleaned registry) history

/-- There has been a request since a token was registered. -/
def RequestedIn (registry token : ℕ) (history : List CancelRecord) : Prop :=
  Since (fun e => ∃ count, e = .requested registry count) (· = .registered registry token) history

/-- Each request counted the tokens that were registered when it was made. -/
def Counted (history : List CancelRecord) : Prop :=
  ∀ later registry count earlier, history = later ++ .requested registry count :: earlier →
    ∃ nodes : List ℕ, nodes.Nodup ∧ count.toNat = nodes.length ∧
      ∀ token, token ∈ nodes ↔ RegisteredIn registry token earlier

/-- **What holds after any run**: the flags of the tokens say what has happened. -/
structure CancelSystem.Sound (s : CancelSystem) : Prop where
  memory : s.memory.Sound
  registered : ∀ registry token, s.memory.RegisteredAt registry token ↔
    RegisteredIn registry token s.history
  requested : ∀ registry token, s.memory.RegisteredAt registry token →
    ((s.memory.tokens token).requested = true ↔ RequestedIn registry token s.history)
  counted : Counted s.history

theorem Counted.cons {history : List CancelRecord} {e : CancelRecord} (h : Counted history)
    (hnew : ∀ registry count, e = .requested registry count → ∃ nodes : List ℕ, nodes.Nodup ∧
      count.toNat = nodes.length ∧ ∀ token, token ∈ nodes ↔ RegisteredIn registry token history) :
    Counted (e :: history) := by
  intro later registry count earlier heq
  cases later with
  | nil =>
    obtain ⟨rfl, rfl⟩ := List.cons.inj heq
    exact hnew registry count rfl
  | cons first later => exact h later registry count earlier (List.cons.inj heq).2

/-- An init is of a registry that is not in use: it writes over a registry without looking at it,
and would lose the tokens of one that is. -/
def CancelSystem.InitialisesUnused (s : CancelSystem) : CancelEvent → Prop
  | .init registry _ => (s.memory.registries registry).initialized = false
  | _ => True

theorem CancelSystem.start_sound : CancelSystem.start.Sound where
  memory := ⟨fun _ =>
    ⟨[], rfl, rfl, fun _ => iff_of_false List.not_mem_nil fun h => Bool.noConfusion h.1⟩,
    fun _ _ => rfl, fun _ h => Bool.noConfusion h⟩
  registered _ _ := iff_of_false (fun h => Bool.noConfusion h.1) not_since_nil
  requested _ _ h := Bool.noConfusion h.1
  counted later _ _ _ h := by
    have hlength := congrArg List.length h
    simp [CancelSystem.start] at hlength

section Steps

variable {s : CancelSystem} {rounds : ℕ}

/-- **One operation** keeps what holds, as long as no registry in use is initialised. -/
theorem CancelSystem.Sound.step (h : s.Sound) (hrounds : 2 ^ 64 ≤ rounds) (event : CancelEvent)
    (hunused : s.InitialisesUnused event) : ∃ s', s.step rounds event = .ok s' ∧ s'.Sound := by
  cases event with
  | init registry mutex =>
    obtain ⟨hmemory, htokens⟩ := cancelRegistryInit_spec h.memory registry mutex hunused
    refine ⟨_, rfl, hmemory, fun r t => ?_, fun r t ht => ?_, h.counted⟩
    · refine Iff.trans ?_ (h.registered r t)
      simp only [CancelMemory.RegisteredAt, htokens]
    · simp only [CancelMemory.RegisteredAt, htokens] at ht ⊢
      exact h.requested r t ht
  | register registry token cursorId lock =>
    simp only [CancelSystem.step]
    rcases cancelTokenRegister_spec h.memory registry token cursorId lock with
      ⟨hfailed, hsame⟩ | ⟨memory', heq, hmemory, hfree, hregistered, hfresh, hothers⟩
    · generalize cancelTokenRegister s.memory registry token cursorId lock = out at hfailed hsame
      obtain ⟨result, memory'⟩ := out
      cases hsame
      cases result with
      | ok => exact absurd rfl hfailed
      | invalidArgument | platformError | invalidState => exact ⟨s, rfl, h⟩
    · rw [heq]
      refine ⟨_, rfl, hmemory, fun r t => ?_, fun r t ht => ?_,
        h.counted.cons fun _ _ he => by cases he⟩
      · rw [hregistered, h.registered, RegisteredIn, RegisteredIn, since_cons]
        simp [eq_comm]
      · rw [RequestedIn, since_cons]
        by_cases hne : t = token
        · subst hne
          have hr : r = registry := ((hregistered r t).mp ht).elim And.left fun hat =>
            Bool.noConfusion (hfree.symm.trans hat.1)
          subst hr
          refine iff_of_false (fun hon => Bool.noConfusion (hfresh.symm.trans hon)) ?_
          simp
        · dsimp only
          rw [hothers t hne,
            h.requested r t (((hregistered r t).mp ht).resolve_left fun hat => hne hat.2)]
          simp [RequestedIn, Ne.symm hne]
  | unregister token lock =>
    obtain ⟨result, memory', heq, hresult⟩ := cancelTokenUnregister_spec h.memory hrounds token lock
    simp only [CancelSystem.step, heq, bind, Except.bind]
    rcases hresult with ⟨rfl, -, rfl⟩ | ⟨rfl, hmemory, hregistered, hothers⟩
    · exact ⟨s, rfl, h⟩
    · refine ⟨_, rfl, hmemory, fun r t => ?_, fun r t ht => ?_,
        h.counted.cons fun _ _ he => by cases he⟩
      · rw [hregistered, h.registered, RegisteredIn, RegisteredIn, since_cons]
        simp [eq_comm]
      · obtain ⟨hne, hat⟩ := (hregistered r t).mp ht
        rw [RequestedIn, since_cons]
        dsimp only
        rw [hothers t hne, h.requested r t hat]
        simp [RequestedIn]
  | requestAll registry lock =>
    obtain ⟨result, count, memory', heq, hresult⟩ :=
      cancelRegistryRequestAll_spec h.memory hrounds registry lock
    simp only [CancelSystem.step, heq, bind, Except.bind]
    rcases hresult with ⟨hfailed, rfl⟩ |
      ⟨nodes, marked, rfl, hnodes, rfl, hcount, hmemory, hregistered, hrequested⟩
    · cases result with
      | ok => exact absurd rfl hfailed
      | invalidArgument | platformError | invalidState => exact ⟨s, rfl, h⟩
    · refine ⟨_, rfl, hmemory, fun r t => ?_, fun r t ht => ?_, h.counted.cons fun r c he => ?_⟩
      · rw [hregistered, h.registered, RegisteredIn, RegisteredIn, since_cons]
        simp
      · have hat := (hregistered r t).mp ht
        rw [RequestedIn, since_cons]
        dsimp only
        rw [hrequested, hnodes.mem, h.requested r t hat]
        have hsame : memory'.RegisteredAt registry t ↔ r = registry := by
          rw [hregistered]
          refine ⟨fun hother => hat.unique hother, ?_⟩
          rintro rfl
          exact hat
        rw [← hregistered, hsame]
        simp [RequestedIn, eq_comm]
      · cases he
        exact ⟨nodes, hnodes.chain.nodup, hcount, fun t => (hnodes.mem t).trans (h.registered _ t)⟩
  | cleanup registry lock destroyed =>
    obtain ⟨result, memory', heq, hresult⟩ :=
      cancelRegistryCleanup_spec h.memory hrounds registry lock destroyed
    simp only [CancelSystem.step, heq, bind, Except.bind]
    split
    · rename_i hdone
      rw [if_pos hdone] at hresult
      obtain ⟨hmemory, hregistered, hkept⟩ := hresult
      refine ⟨_, rfl, hmemory, fun r t => ?_, fun r t ht => ?_,
        h.counted.cons fun _ _ he => by cases he⟩
      · rw [hregistered, h.registered, RegisteredIn, RegisteredIn, since_cons]
        simp [eq_comm]
      · obtain ⟨hne, hat⟩ := (hregistered r t).mp ht
        rw [RequestedIn, since_cons]
        dsimp only
        rw [hkept t fun hother => hne (hat.unique hother), h.requested r t hat]
        simp [RequestedIn]
    · rename_i hnot
      rw [if_neg hnot] at hresult
      subst hresult
      exact ⟨s, rfl, h⟩

end Steps

/-- **Cancel requests reach what is registered, and nothing else.**  Whatever is initialised while
it is not in use, registered, unregistered, requested and cleaned up, in any order, and whatever the
mutexes answer, no loop over a list runs on; the list of a registry holds each of its registered
tokens once, and its count says how many they are; a token that is registered is found when it is
unregistered; a probe says that its token is requested exactly if there was a request since the
token was registered; and each request counted the tokens that were registered when it was made. -/
theorem cancel_registry_protocol {rounds : ℕ} (hrounds : 2 ^ 64 ≤ rounds)
    {events : List CancelEvent}
    (hunused : AlongOk CancelSystem.InitialisesUnused (CancelSystem.step rounds) .start events) :
    ∃ s, events.foldlM (CancelSystem.step rounds) .start = .ok s ∧
      (∀ registry, ∃ nodes,
        Chain (nextToken s.memory.tokens) (s.memory.registries registry).head nodes ∧
        nodes.Nodup ∧ (s.memory.registries registry).tokenCount.toNat = nodes.length ∧
        ∀ token, token ∈ nodes ↔ RegisteredIn registry token s.history) ∧
      (∀ registry token, RegisteredIn registry token s.history →
        (∃ memory, cancelTokenUnregister rounds s.memory token true = .ok (.ok, memory)) ∧
        cancelTokenProbe s.memory token true =
          open Classical in if RequestedIn registry token s.history then .requested else .proceed) ∧
      (∀ token lock, (∀ registry, ¬RegisteredIn registry token s.history) →
        cancelTokenProbe s.memory token lock = .probeError) ∧
      Counted s.history := by
  obtain ⟨s, hrun, h⟩ := hunused.total CancelSystem.Sound
    (fun s event hs hevent => hs.step hrounds event hevent) CancelSystem.start_sound
  refine ⟨s, hrun, fun registry => ?_, fun registry token htoken => ⟨?_, ?_⟩,
    fun token lock hnone => ?_, h.counted⟩
  · obtain ⟨nodes, hnodes⟩ := h.memory.listed registry
    exact ⟨nodes, hnodes.chain, hnodes.chain.nodup, hnodes.count,
      fun token => (hnodes.mem token).trans (h.registered registry token)⟩
  · obtain ⟨result, memory', heq, ⟨-, hlock, -⟩ | ⟨rfl, -⟩⟩ :=
      cancelTokenUnregister_spec h.memory hrounds token true
    · exact Bool.noConfusion hlock
    · exact ⟨memory', heq⟩
  · have hat := (h.registered registry token).mpr htoken
    have hrequested := h.requested registry token hat
    unfold cancelTokenProbe
    dsimp only
    rw [hat.1, hat.2]
    by_cases hreached : RequestedIn registry token s.history
    · simp [hreached, hrequested.mpr hreached]
    · simp [hreached, Bool.eq_false_iff.mpr (mt hrequested.mp hreached)]
  · unfold cancelTokenProbe
    cases hregistered : (s.memory.tokens token).registered with
    | false => simp [hregistered]
    | true =>
      obtain ⟨registry, hregistry⟩ := h.memory.owned token hregistered
      exact absurd ((h.registered registry token).mp ⟨hregistered, hregistry⟩) (hnone registry)

/-- Two tokens are registered, requested and cleaned up, and the registry is made anew for a
third. -/
def reusedRun : List CancelEvent :=
  [.init 0 true, .register 0 1 7 true, .register 0 2 8 true, .requestAll 0 true,
    .cleanup 0 true true, .init 0 true, .register 0 3 9 true]

theorem reusedRun_initialisesUnused :
    AlongOk CancelSystem.InitialisesUnused (CancelSystem.step (2 ^ 64)) .start reusedRun := by
  refine ⟨rfl, ?_⟩
  rintro _ ⟨⟩
  refine ⟨trivial, ?_⟩
  rintro _ ⟨⟩
  refine ⟨trivial, ?_⟩
  rintro _ ⟨⟩
  refine ⟨trivial, ?_⟩
  rintro _ ⟨⟩
  refine ⟨trivial, ?_⟩
  rintro _ ⟨⟩
  exact ⟨rfl, fun _ _ => ⟨trivial, fun _ _ => trivial⟩⟩

theorem cancel_registry_protocol_reusedRun :
    ∃ s, reusedRun.foldlM (CancelSystem.step (2 ^ 64)) .start = .ok s ∧
      (∀ registry, ∃ nodes,
        Chain (nextToken s.memory.tokens) (s.memory.registries registry).head nodes ∧
        nodes.Nodup ∧ (s.memory.registries registry).tokenCount.toNat = nodes.length ∧
        ∀ token, token ∈ nodes ↔ RegisteredIn registry token s.history) ∧
      (∀ registry token, RegisteredIn registry token s.history →
        (∃ memory, cancelTokenUnregister (2 ^ 64) s.memory token true = .ok (.ok, memory)) ∧
        cancelTokenProbe s.memory token true =
          open Classical in if RequestedIn registry token s.history then .requested else .proceed) ∧
      (∀ token lock, (∀ registry, ¬RegisteredIn registry token s.history) →
        cancelTokenProbe s.memory token lock = .probeError) ∧
      Counted s.history :=
  cancel_registry_protocol le_rfl reusedRun_initialisesUnused

end Vps
