import Mathlib.Data.List.Range
import Mathlib.Logic.Function.Basic

/-!
# Machinery/Flat — regions of a flat memory

A flat memory is a function on addresses, and a region is an address with a length.  A write into
one region is not seen in a region **apart** from it: `cellsAt_congr` and `cellsAt_update` are all
that is used of that.
-/

namespace Machinery

variable {α : Type*} {memory memory' : ℕ → α} {address length target count : ℕ}

/-- The cells of a region, in order. -/
def cellsAt (memory : ℕ → α) (address length : ℕ) : List α :=
  (List.range length).map fun i => memory (address + i)

@[simp] theorem length_cellsAt : (cellsAt memory address length).length = length := by
  simp [cellsAt]

@[simp] theorem cellsAt_zero (memory : ℕ → α) (address : ℕ) : cellsAt memory address 0 = [] := rfl

/-- A region is its first cell, and the others behind it… -/
theorem cellsAt_succ (memory : ℕ → α) (address length : ℕ) :
    cellsAt memory address (length + 1) =
      memory address :: cellsAt memory (address + 1) length := by
  simp only [cellsAt, List.range_succ_eq_map, List.map_cons, List.map_map, Nat.add_zero]
  congr 1
  exact List.map_congr_left fun i _ => by
    rw [Function.comp_apply, Nat.succ_eq_add_one, Nat.add_comm i 1, Nat.add_assoc]

/-- …and its last cell behind the others. -/
theorem cellsAt_concat (memory : ℕ → α) (address length : ℕ) :
    cellsAt memory address (length + 1) =
      cellsAt memory address length ++ [memory (address + length)] := by
  simp [cellsAt, List.range_succ]

/-- **The frame rule**: a region is read the same in memories that agree on it. -/
theorem cellsAt_congr
    (h : ∀ i, address ≤ i → i < address + length → memory' i = memory i) :
    cellsAt memory' address length = cellsAt memory address length :=
  List.map_congr_left fun i hi => by
    have hlt := List.mem_range.mp hi
    exact h _ (Nat.le_add_right _ _) (by omega)

theorem cellsAt_update {value : α} (h : target < address ∨ address + length ≤ target) :
    cellsAt (Function.update memory target value) address length = cellsAt memory address length :=
  cellsAt_congr fun _ hle hlt => Function.update_of_ne (by omega) _ _

/-- **Two regions apart**: no address is in both. -/
def Apart (address length target count : ℕ) : Prop :=
  address + length ≤ target ∨ target + count ≤ address

/-- Two ranges are apart by their ends. -/
instance : Decidable (Apart address length target count) := inferInstanceAs (Decidable (_ ∨ _))

/-- What is written into a region is not seen in one apart from it. -/
theorem Apart.cellsAt_eq (h : Apart address length target count)
    (hwritten : ∀ i, i < target ∨ target + count ≤ i → memory' i = memory i) :
    cellsAt memory' address length = cellsAt memory address length :=
  cellsAt_congr fun i hle hlt => hwritten i (by unfold Apart at h; omega)

end Machinery
