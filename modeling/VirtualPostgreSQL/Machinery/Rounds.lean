import Mathlib.Order.Basic

/-!
# Machinery/Rounds — loops that an environment answers

A loop goes round by round: the environment replies with whatever it likes, and the round either
ends the loop or leaves the state of the next one.  Nothing is asked of the environment, so a loop
ends because of a **measure** that every further round makes smaller (`rounds_end`), and its result
is what it is because of an **invariant** (`rounds_invariant`).
-/

namespace Machinery

universe u v w

variable {S : Type u} {E : Type v} {R : Type w}

/-- The state after `n` rounds, or the result if there were not as many. -/
def rounds (round : S → E → S ⊕ R) (env : ℕ → E) : ℕ → S → S ⊕ R
  | 0, s => .inl s
  | n + 1, s =>
    match rounds round env n s with
    | .inl s => round s (env n)
    | .inr r => .inr r

variable {round : S → E → S ⊕ R} {env : ℕ → E} {s : S}

theorem rounds_inl_succ {n : ℕ} {s' : S} (h : rounds round env n s = .inl s') :
    rounds round env (n + 1) s = round s' (env n) := by
  rw [rounds, h]

/-- The result stays. -/
theorem rounds_inr_mono {n m : ℕ} {r : R} (h : rounds round env n s = .inr r) (hle : n ≤ m) :
    rounds round env m s = .inr r := by
  induction hle with
  | refl => exact h
  | step _ ih => rw [rounds, ih]

/-- **A loop ends** within as many rounds as the measure allows. -/
theorem rounds_end (measure : S → ℕ)
    (falls : ∀ s e s', round s e = .inl s' → measure s' < measure s) (env : ℕ → E) (s : S) :
    ∃ n ≤ measure s + 1, ∃ r, rounds round env n s = .inr r := by
  -- as long as the loop goes on, the measure has fallen by the number of rounds
  have hfallen : ∀ n s', rounds round env n s = .inl s' → measure s' + n ≤ measure s := by
    intro n
    induction n with
    | zero =>
      intro s' h
      cases h
      exact Nat.le_refl _
    | succ n ih =>
      intro s' h
      cases hn : rounds round env n s with
      | inl before =>
        rw [rounds_inl_succ hn] at h
        have hbefore := ih before hn
        have hstep := falls before _ s' h
        omega
      | inr r =>
        rw [rounds_inr_mono hn (Nat.le_succ n)] at h
        cases h
  refine ⟨measure s + 1, Nat.le_refl _, ?_⟩
  cases h : rounds round env (measure s + 1) s with
  | inl s' =>
    have := hfallen _ s' h
    omega
  | inr r => exact ⟨r, rfl⟩

/-- **What every round keeps, the loop keeps**, and its last round turns into a fact about the
result. -/
theorem rounds_invariant {I : S → Prop} {P : R → Prop}
    (keep : ∀ s e s', I s → round s e = .inl s' → I s')
    (last : ∀ s e r, I s → round s e = .inr r → P r) (hs : I s) {n : ℕ} {r : R}
    (h : rounds round env n s = .inr r) : P r := by
  have hkept : ∀ n, (∀ s', rounds round env n s = .inl s' → I s') ∧
      ∀ r, rounds round env n s = .inr r → P r := by
    intro n
    induction n with
    | zero => exact ⟨fun s' h => by cases h; exact hs, fun r h => (by cases h)⟩
    | succ n ih =>
      cases hn : rounds round env n s with
      | inl before =>
        rw [rounds_inl_succ hn]
        exact ⟨fun s' h => keep before _ s' (ih.1 before hn) h,
          fun r h => last before _ r (ih.1 before hn) h⟩
      | inr r =>
        rw [rounds_inr_mono hn (Nat.le_succ n)]
        exact ⟨fun s' h => (by cases h), fun r' h => ih.2 r' (hn.trans h)⟩
  exact (hkept n).2 r h

end Machinery
