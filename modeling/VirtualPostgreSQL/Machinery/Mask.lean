import Mathlib.Data.UInt
import Mathlib.Data.Nat.Bitwise

/-!
# Machinery/Mask — a set of places as the bits of a word

A flag is a word with one bit.  A mask that collects flags with `|` has their bits and no others, so
that `&` with a flag asks whether it was collected.  A word has one bit exactly if it is not zero
and has none in common with the word below it.
-/

namespace Machinery

/-- A word with the bit at one place. -/
def IsFlag (flag : UInt64) (place : ℕ) : Prop := flag.toNat = 2 ^ place

/-- **A word with the bits at the given places.** -/
def IsMaskOf (mask : UInt64) (places : List ℕ) : Prop := ∀ i, mask.toNat.testBit i ↔ i ∈ places

theorem isMaskOf_zero : IsMaskOf 0 [] := fun i => by simp

namespace IsMaskOf

variable {mask flag : UInt64} {places : List ℕ} {place : ℕ}

theorem or (h : IsMaskOf mask places) (hflag : IsFlag flag place) :
    IsMaskOf (mask ||| flag) (places ++ [place]) := fun i => by
  rw [UInt64.toNat_or, Nat.testBit_or, Bool.or_eq_true, h i, show flag.toNat = 2 ^ place from hflag,
    Nat.testBit_two_pow, decide_eq_true_iff, List.mem_append, List.mem_singleton, eq_comm]

/-- A flag that was not collected. -/
theorem and_eq_zero_iff (h : IsMaskOf mask places) (hflag : IsFlag flag place) :
    mask &&& flag = 0 ↔ place ∉ places := by
  rw [← UInt64.toNat_inj, UInt64.toNat_and, show flag.toNat = 2 ^ place from hflag, Nat.and_two_pow,
    ← h place]
  cases mask.toNat.testBit place <;> simp

end IsMaskOf

/-! ## One bit -/

theorem exists_unique_testBit_iff {n : ℕ} : n.isPowerOfTwo ↔ ∃! i, n.testBit i = true := by
  constructor
  · rintro ⟨k, rfl⟩
    refine ⟨k, Nat.testBit_two_pow_self, fun i hi => ?_⟩
    have hbit : (2 ^ k).testBit i = true := hi
    rw [Nat.testBit_two_pow, decide_eq_true_iff] at hbit
    exact hbit.symm
  · rintro ⟨k, hk, hunique⟩
    refine ⟨k, Nat.eq_of_testBit_eq fun i => ?_⟩
    rw [Nat.testBit_two_pow, Bool.eq_iff_iff, decide_eq_true_iff]
    exact ⟨fun hi => (hunique i hi).symm, fun hi => hi ▸ hk⟩

/-- Words that are joined have a bit of a mask if one of them has. -/
theorem or_and_eq_zero_iff {a b mask : UInt64} :
    (a ||| b) &&& mask = 0 ↔ a &&& mask = 0 ∧ b &&& mask = 0 := by
  simp only [← UInt64.toNat_inj, UInt64.toNat_and, UInt64.toNat_or, UInt64.toNat_zero,
    Nat.and_or_distrib_right, Nat.or_eq_zero_iff]

/-- **A word with one bit**: the one below it has none of its bits. -/
theorem and_pred_eq_zero_iff {mask : UInt64} :
    (mask ≠ 0 ∧ mask &&& (mask - 1) = 0) ↔ ∃! i, mask.toNat.testBit i = true := by
  rw [← exists_unique_testBit_iff, ← Nat.ne_zero_and_sub_one_eq_zero_iff_isPowerOfTwo, ne_eq,
    ← UInt64.toNat_inj, ← UInt64.toNat_inj, UInt64.toNat_and, UInt64.toNat_zero]
  refine and_congr_right fun hne => ?_
  have hle : (1 : UInt64) ≤ mask := UInt64.le_iff_toNat_le.mpr (by rw [UInt64.toNat_one]; omega)
  rw [UInt64.toNat_sub_of_le _ _ hle, UInt64.toNat_one]

end Machinery
