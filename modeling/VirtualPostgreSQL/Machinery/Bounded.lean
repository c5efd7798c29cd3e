import Mathlib.Data.List.Basic
import Mathlib.Algebra.Order.Ring.Int

/-!
# Machinery/Bounded — lists that fit in a fixed-size array

A C array with a fill count is modelled as a list carrying the proof that it fits: `push?` is the
guarded append (`count >= MAX` refuses), `take` the truncation of the count.
-/

namespace Machinery

/-- **A list of at most `cap` entries** — a fixed array together with its fill count. -/
structure Bounded (α : Type*) (cap : ℕ) where
  /-- The entries below the fill count. -/
  toList : List α
  length_le : toList.length ≤ cap

namespace Bounded

variable {α : Type*} {cap : ℕ}

/-- Bounded lists are compared as lists. -/
instance [DecidableEq α] : DecidableEq (Bounded α cap) := fun a b =>
  decidable_of_iff (a.toList = b.toList) ⟨fun h => by cases a; cases b; congr, congrArg _⟩

/-- The array with fill count zero. -/
def empty : Bounded α cap := ⟨[], Nat.zero_le _⟩

/-- The array holding one entry. -/
def single (a : α) (h : 0 < cap) : Bounded α cap := ⟨[a], h⟩

/-- Append an entry unless the array is full. -/
def push? (l : Bounded α cap) (a : α) : Option (Bounded α cap) :=
  if h : l.toList.length < cap then
    some ⟨l.toList ++ [a], by rw [List.length_append]; exact h⟩
  else
    none

/-- Cut the fill count down to `n`. -/
def take (l : Bounded α cap) (n : ℕ) : Bounded α cap :=
  ⟨l.toList.take n, Nat.le_trans (List.length_take_le' n l.toList) l.length_le⟩

@[simp] theorem toList_empty : (empty : Bounded α cap).toList = [] := rfl

/-- A prefix of a bounded list fits as well, so `take` keeps the bound. -/
@[simp] theorem toList_take (l : Bounded α cap) (n : ℕ) :
    (l.take n).toList = l.toList.take n := rfl

/-- A push that succeeds puts its entry last. -/
theorem push?_eq_some {l m : Bounded α cap} {a : α} (h : l.push? a = some m) :
    m.toList = l.toList ++ [a] := by
  unfold push? at h
  split at h
  · cases h; rfl
  · cases h

/-- A push only fails when the list is full. -/
theorem push?_eq_none {l : Bounded α cap} {a : α} (h : l.push? a = none) :
    l.toList.length = cap := by
  unfold push? at h
  split at h
  · cases h
  · exact Nat.le_antisymm l.length_le (Nat.le_of_not_lt ‹_›)

end Bounded

end Machinery
