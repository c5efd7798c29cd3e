import Mathlib.Algebra.BigOperators.Fin
import Mathlib.Algebra.Order.BigOperators.Group.Finset

/-!
# Machinery/Count — counting the entries of a fixed array

A fixed array of `n` entries is a function on `Fin n`; `countWhere p f` is the number of entries
satisfying `p`.  Hand-kept counters of such arrays are compared with it: one rule for the write of a
single entry (`countWhere_update`), and the wrap-free cases of a machine counter's `± 1`.
-/

namespace Machinery

variable {α : Type*} {n : ℕ}

/-- **The number of entries satisfying `p`.** -/
def countWhere (p : α → Bool) (f : Fin n → α) : ℕ := ∑ i, (p (f i)).toNat

/-- **The update rule**: writing one entry moves the count by the difference it makes there. -/
theorem countWhere_update (p : α → Bool) (f : Fin n → α) (i : Fin n) (x : α) :
    countWhere p (Function.update f i x) + (p (f i)).toNat =
      countWhere p f + (p x).toNat := by
  unfold countWhere
  rw [← Finset.add_sum_erase _ _ (Finset.mem_univ i),
    ← Finset.add_sum_erase Finset.univ (fun j => (p (f j)).toNat) (Finset.mem_univ i),
    Function.update_self]
  have hrest : ∑ j ∈ Finset.univ.erase i, (p (Function.update f i x j)).toNat =
      ∑ j ∈ Finset.univ.erase i, (p (f j)).toNat :=
    Finset.sum_congr rfl fun j hj => by rw [Function.update_of_ne (Finset.ne_of_mem_erase hj)]
  rw [hrest]
  omega

/-- A write that does not change `p` of the entry does not change the count. -/
theorem countWhere_update_eq {p : α → Bool} {f : Fin n → α} {i : Fin n} {x : α}
    (h : p x = p (f i)) : countWhere p (Function.update f i x) = countWhere p f := by
  have := countWhere_update p f i x
  rw [h] at this
  omega

/-- A wider predicate counts no fewer. -/
theorem countWhere_le_countWhere {p q : α → Bool} {f : Fin n → α}
    (h : ∀ i, p (f i) = true → q (f i) = true) : countWhere p f ≤ countWhere q f :=
  Finset.sum_le_sum fun i _ => by
    cases hp : p (f i) with
    | false => exact Nat.zero_le _
    | true => rw [h i hp]

/-- No more are counted than there are. -/
theorem countWhere_le (p : α → Bool) (f : Fin n → α) : countWhere p f ≤ n := by
  calc countWhere p f ≤ ∑ _i : Fin n, 1 := Finset.sum_le_sum fun i _ => Bool.toNat_le _
    _ = n := by simp

theorem countWhere_eq_zero {p : α → Bool} {f : Fin n → α} :
    countWhere p f = 0 ↔ ∀ i, p (f i) = false := by
  simp [countWhere, Finset.sum_eq_zero_iff]

/-- Where there is one, some are counted. -/
theorem countWhere_pos {p : α → Bool} {f : Fin n → α} (i : Fin n) (h : p (f i) = true) :
    0 < countWhere p f := by
  refine Nat.pos_of_ne_zero fun hzero => ?_
  rw [countWhere_eq_zero.mp hzero i] at h
  cases h

/-- Two different entries satisfying `p` are counted twice. -/
theorem two_le_countWhere {p : α → Bool} {f : Fin n → α} {i j : Fin n} (hne : j ≠ i)
    (hi : p (f i) = true) (hj : p (f j) = true) : 2 ≤ countWhere p f := by
  by_contra hlt
  have hsum : countWhere p f =
      (p (f i)).toNat + ∑ k ∈ Finset.univ.erase i, (p (f k)).toNat :=
    (Finset.add_sum_erase _ _ (Finset.mem_univ i)).symm
  have hle : (p (f j)).toNat ≤ ∑ k ∈ Finset.univ.erase i, (p (f k)).toNat :=
    Finset.single_le_sum (f := fun k => (p (f k)).toNat) (fun _ _ => Nat.zero_le _)
      (Finset.mem_erase.mpr ⟨hne, Finset.mem_univ j⟩)
  rw [hi] at hsum
  rw [hj] at hle
  simp only [Bool.toNat_true] at hsum hle
  omega

/-! ## Machine counters -/

theorem toNat_add_one {x : UInt32} (h : x.toNat + 1 < 2 ^ 32) : (x + 1).toNat = x.toNat + 1 := by
  rw [UInt32.toNat_add]
  exact Nat.mod_eq_of_lt h

theorem toNat_sub_one {x : UInt32} (h : 0 < x.toNat) : (x - 1).toNat = x.toNat - 1 := by
  have hle : (1 : UInt32) ≤ x := UInt32.le_iff_toNat_le.mpr h
  rw [UInt32.toNat_sub_of_le _ _ hle]
  rfl

/-- A counter of 64 bits that has room goes up by one… -/
theorem toNat_succ_of_lt {count : UInt64} (h : count.toNat + 1 < 2 ^ 64) :
    (count + 1).toNat = count.toNat + 1 := by
  rw [UInt64.toNat_add, UInt64.toNat_one]
  exact Nat.mod_eq_of_lt h

/-- A 64-bit counter that is not at its limit does not wrap. -/
theorem toNat_succ {count : UInt64} (h : count ≠ 0xffffffffffffffff) :
    (count + 1).toNat = count.toNat + 1 := by
  have hlt := count.toNat_lt
  have hne : count.toNat ≠ 2 ^ 64 - 1 := fun heq => h (UInt64.toNat_inj.mp heq)
  exact toNat_succ_of_lt (by omega)

/-- …and one that is not zero goes down by one. -/
theorem toNat_pred {count : UInt64} (h : count ≠ 0) : (count - 1).toNat = count.toNat - 1 := by
  have hne : count.toNat ≠ 0 := fun heq => h (UInt64.toNat_inj.mp heq)
  have hle : (1 : UInt64) ≤ count := UInt64.le_iff_toNat_le.mpr (by rw [UInt64.toNat_one]; omega)
  rw [UInt64.toNat_sub_of_le _ _ hle, UInt64.toNat_one]

end Machinery
