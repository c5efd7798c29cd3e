import Mathlib.Data.List.Perm.Basic
import Mathlib.Data.List.Nodup
import Mathlib.Order.Basic
import VirtualPostgreSQL.Machinery.Ledger

/-!
# Machinery/Broker — a provider that callers copy and use outside of the lock

A broker keeps at most one provider.  A caller enters and copies it, asks it for a lease, gives the
lease back to the copy, and leaves; any number of callers do so at a time.  The provider is put
there before the first of them enters and taken away when none is in.

`Broker.Sound` is what every step keeps (`Broker.Step.sound`): whoever is in uses the provider that
is registered, and each lease is given back once.
-/

namespace Machinery

universe u v

variable {P : Type u} {L : Type v}

/-- Where a caller is. -/
inductive Stage (L : Type v)
  | asking
  | holding (lease : L)
  | leaving

/-- A caller with its copy of the provider. -/
structure BrokerCall (P : Type u) (L : Type v) where
  key : ℕ
  provider : P
  stage : Stage L

/-- The lease that a caller holds. -/
def BrokerCall.held : BrokerCall P L → Option (ℕ × P × L)
  | ⟨key, provider, .holding lease⟩ => some (key, provider, lease)
  | ⟨_, _, .asking⟩ => none
  | ⟨_, _, .leaving⟩ => none

/-- The provider, the callers that are in, the key of the next one, and what was leased. -/
structure Broker (P : Type u) (L : Type v) where
  registered : Option P
  used : Bool
  calls : List (BrokerCall P L)
  next : ℕ
  log : List (LedgerEvent (ℕ × P × L))

namespace Broker

/-- **What may happen.** -/
inductive Step : Broker P L → Broker P L → Prop
  | stay (b : Broker P L) : Step b b
  | reorder {b : Broker P L} {calls : List (BrokerCall P L)} (perm : b.calls.Perm calls) :
      Step b { b with calls := calls }
  /-- Keys are taken elsewhere. -/
  | skip {b : Broker P L} {next : ℕ} (later : b.next ≤ next) : Step b { b with next := next }
  /-- A provider is registered, or replaced. -/
  | put {b : Broker P L} (provider : P) (unused : b.used = false) :
      Step b { b with registered := some provider }
  /-- A caller was refused at the door. -/
  | mark (b : Broker P L) : Step b { b with used := true }
  | enter {b : Broker P L} {provider : P} (current : b.registered = some provider) :
      Step b { b with
        used := true, calls := ⟨b.next, provider, .asking⟩ :: b.calls, next := b.next + 1 }
  | refuse {b : Broker P L} {key : ℕ} {provider : P} {rest : List (BrokerCall P L)}
      (call : b.calls.Perm (⟨key, provider, .asking⟩ :: rest)) :
      Step b { b with calls := ⟨key, provider, .leaving⟩ :: rest }
  | acquire {b : Broker P L} {key : ℕ} {provider : P} {rest : List (BrokerCall P L)} (lease : L)
      (call : b.calls.Perm (⟨key, provider, .asking⟩ :: rest)) :
      Step b { b with
        calls := ⟨key, provider, .holding lease⟩ :: rest
        log := .acquired (key, provider, lease) :: b.log }
  | release {b : Broker P L} {key : ℕ} {provider : P} {lease : L} {rest : List (BrokerCall P L)}
      (call : b.calls.Perm (⟨key, provider, .holding lease⟩ :: rest)) :
      Step b { b with
        calls := ⟨key, provider, .leaving⟩ :: rest
        log := .released (key, provider, lease) :: b.log }
  | leave {b : Broker P L} {key : ℕ} {provider : P} {rest : List (BrokerCall P L)}
      (call : b.calls.Perm (⟨key, provider, .leaving⟩ :: rest)) : Step b { b with calls := rest }
  /-- The provider is taken away. -/
  | clear {b : Broker P L} (used : Bool) (empty : b.calls = []) :
      Step b { b with registered := none, used := used }

/-- **What holds at any time.** -/
structure Sound (b : Broker P L) : Prop where
  current : ∀ call ∈ b.calls, b.registered = some call.provider
  used : b.calls ≠ [] → b.used = true
  keys : (b.calls.map BrokerCall.key).Nodup
  below : ∀ call ∈ b.calls, call.key < b.next
  ledger : Ledger b.log (b.calls.filterMap BrokerCall.held)
  earlier : ∀ key provider lease, .acquired (key, provider, lease) ∈ b.log → key < b.next
  fresh : ∀ call ∈ b.calls, call.stage = .asking → ∀ provider lease,
    .acquired (call.key, provider, lease) ∉ b.log

namespace Sound

variable {b : Broker P L}

/-- A broker that nobody has entered. -/
theorem start (registered : Option P) (used : Bool) :
    Sound (⟨registered, used, [], 0, []⟩ : Broker P L) where
  current := List.forall_mem_nil _
  used h := absurd rfl h
  keys := List.nodup_nil
  below := List.forall_mem_nil _
  ledger := .nil
  earlier _ _ _ h := absurd h List.not_mem_nil
  fresh := List.forall_mem_nil _

/-- The order of the callers does not matter. -/
theorem perm (h : Sound b) {calls : List (BrokerCall P L)} (hperm : b.calls.Perm calls) :
    Sound { b with calls := calls } where
  current call hcall := h.current call (hperm.mem_iff.mpr hcall)
  used hne := h.used fun hnil => hne (List.nil_perm.mp (hnil ▸ hperm))
  keys := (hperm.map _).nodup_iff.mp h.keys
  below call hcall := h.below call (hperm.mem_iff.mpr hcall)
  ledger := h.ledger.perm (hperm.filterMap _).symm
  earlier := h.earlier
  fresh call hcall := h.fresh call (hperm.mem_iff.mpr hcall)

/-- A caller that changes its stage: the callers and their providers are the same. -/
theorem move {key : ℕ} {provider : P} {stage : Stage L} {rest : List (BrokerCall P L)}
    (stage' : Stage L) {log : List (LedgerEvent (ℕ × P × L))}
    (h : Sound { b with calls := ⟨key, provider, stage⟩ :: rest })
    (hstage : stage' ≠ .asking)
    (hledger : Ledger log ((⟨key, provider, stage'⟩ :: rest).filterMap BrokerCall.held))
    (hlog : ∀ key' provider' lease, .acquired (key', provider', lease) ∈ log →
      .acquired (key', provider', lease) ∈ b.log ∨ key' = key) :
    Sound { b with calls := ⟨key, provider, stage'⟩ :: rest, log := log } where
  current call hcall := by
    obtain rfl | hcall := List.mem_cons.mp hcall
    · exact h.current ⟨key, provider, stage⟩ List.mem_cons_self
    · exact h.current call (List.mem_cons_of_mem _ hcall)
  used _ := h.used (List.cons_ne_nil _ _)
  keys := h.keys
  below call hcall := by
    obtain rfl | hcall := List.mem_cons.mp hcall
    · exact h.below ⟨key, provider, stage⟩ List.mem_cons_self
    · exact h.below call (List.mem_cons_of_mem _ hcall)
  ledger := hledger
  earlier key' provider' lease hacquired := by
    obtain hbefore | rfl := hlog key' provider' lease hacquired
    · exact h.earlier key' provider' lease hbefore
    · exact h.below _ List.mem_cons_self
  fresh call hcall hasking provider' lease hacquired := by
    obtain rfl | hcall := List.mem_cons.mp hcall
    · exact hstage hasking
    · obtain hbefore | hkey := hlog _ provider' lease hacquired
      · exact h.fresh call (List.mem_cons_of_mem _ hcall) hasking provider' lease hbefore
      · have hkeys := List.nodup_cons.mp h.keys
        exact hkeys.1 (List.mem_map.mpr ⟨call, hcall, hkey⟩)

end Sound

/-- **Every step keeps it.** -/
theorem Step.sound {b c : Broker P L} (hstep : Step b c) (h : Sound b) : Sound c := by
  cases hstep with
  | stay => exact h
  | reorder hperm => exact h.perm hperm
  | skip hlater =>
    exact ⟨h.current, h.used, h.keys,
      fun call hcall => Nat.lt_of_lt_of_le (h.below call hcall) hlater,
      h.ledger, fun key provider lease hacquired =>
        Nat.lt_of_lt_of_le (h.earlier key provider lease hacquired) hlater, h.fresh⟩
  | mark =>
    exact ⟨h.current, fun _ => rfl, h.keys, h.below, h.ledger, h.earlier, h.fresh⟩
  | put provider hunused =>
    have hempty : b.calls = [] := by
      by_contra hne
      rw [h.used hne] at hunused
      cases hunused
    refine ⟨fun call hcall => ?_, h.used, h.keys, h.below, h.ledger, h.earlier, h.fresh⟩
    rw [hempty] at hcall
    cases hcall
  | @enter provider hcurrent =>
    refine ⟨?_, fun _ => rfl, ?_, ?_, h.ledger, ?_, ?_⟩
    · exact List.forall_mem_cons.mpr ⟨hcurrent, h.current⟩
    · refine List.nodup_cons.mpr ⟨fun hmem => ?_, h.keys⟩
      obtain ⟨call, hcall, hkey⟩ := List.mem_map.mp hmem
      exact absurd hkey (Nat.ne_of_lt (h.below call hcall))
    · exact List.forall_mem_cons.mpr
        ⟨Nat.lt_succ_self _, fun call hcall => Nat.lt_succ_of_lt (h.below call hcall)⟩
    · exact fun key provider lease hacquired =>
        Nat.lt_succ_of_lt (h.earlier key provider lease hacquired)
    · refine List.forall_mem_cons.mpr ⟨fun _ provider lease hacquired => ?_, h.fresh⟩
      exact absurd (h.earlier _ provider lease hacquired) (Nat.lt_irrefl _)
  | refuse hcall =>
    refine (h.perm hcall).move .leaving (fun hstage => by cases hstage) ?_ fun _ _ _ => .inl
    exact (h.perm hcall).ledger
  | acquire lease hcall =>
    have hsound := h.perm hcall
    refine hsound.move (.holding lease) (fun hstage => by cases hstage) ?_ fun _ _ _ hacquired => ?_
    · exact .acquire _ hsound.ledger (hsound.fresh _ List.mem_cons_self rfl _ _) (List.Perm.refl _)
    · obtain heq | hbefore := List.mem_cons.mp hacquired
      · cases heq
        exact .inr rfl
      · exact .inl hbefore
  | release hcall =>
    have hsound := h.perm hcall
    refine hsound.move .leaving (fun hstage => by cases hstage) ?_ fun _ _ _ hacquired => ?_
    · exact .release _ hsound.ledger (List.Perm.refl _)
    · exact .inl ((List.mem_cons.mp hacquired).resolve_left fun heq => by cases heq)
  | leave hcall =>
    have hsound := h.perm hcall
    refine ⟨fun call hrest => hsound.current call (List.mem_cons_of_mem _ hrest), ?_,
      (List.nodup_cons.mp hsound.keys).2,
      fun call hrest => hsound.below call (List.mem_cons_of_mem _ hrest), hsound.ledger, h.earlier,
      fun call hrest => hsound.fresh call (List.mem_cons_of_mem _ hrest)⟩
    exact fun _ => hsound.used (List.cons_ne_nil _ _)
  | clear used hempty =>
    refine ⟨fun call hcall => ?_, fun hne => absurd hempty hne, h.keys, h.below,
      h.ledger, h.earlier, h.fresh⟩
    rw [hempty] at hcall
    cases hcall

/-- **A provider that was used is not replaced**: it stays, or is taken away when nobody is in. -/
theorem Step.kept {b c : Broker P L} (hstep : Step b c) (hused : b.used = true) :
    (c.used = true ∧ c.registered = b.registered) ∨ (b.calls = [] ∧ c.registered = none) := by
  cases hstep with
  | put provider hunused =>
    rw [hused] at hunused
    cases hunused
  | clear used hempty => exact .inr ⟨hempty, rfl⟩
  | mark => exact .inl ⟨rfl, rfl⟩
  | enter hcurrent => exact .inl ⟨rfl, rfl⟩
  | stay | reorder | skip | refuse | acquire | release | leave => exact .inl ⟨hused, rfl⟩

end Broker

end Machinery
