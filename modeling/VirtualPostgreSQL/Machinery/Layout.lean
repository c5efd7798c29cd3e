import Mathlib.Data.List.Basic
import VirtualPostgreSQL.Machinery.Wire

/-!
# Machinery/Layout — values laid one after the other

A writer puts values into a buffer one after the other and notes where each begins.  Whatever their
sizes are, their parts are disjoint and fill the buffer (`Laid.existsUnique`), and each part holds
its value (`Laid.slice`).
-/

namespace Machinery

variable {α : Type*} {place : α → Option ℕ} {size : α → ℕ} {start : ℕ} {values : List α}

/-- **The values begin one behind the other**, from an offset on. -/
def Laid (place : α → Option ℕ) (size : α → ℕ) : ℕ → List α → Prop
  | _, [] => True
  | start, value :: values => place value = some start ∧ Laid place size (start + size value) values

/-- The part of a value. -/
def Covers (place : α → Option ℕ) (size : α → ℕ) (value : α) (i : ℕ) : Prop :=
  ∃ start, place value = some start ∧ start ≤ i ∧ i < start + size value

namespace Laid

/-- No value begins before the first one. -/
theorem le_of_covers (h : Laid place size start values) {value : α}
    (hvalue : value ∈ values) {i : ℕ} (hi : Covers place size value i) : start ≤ i := by
  induction values generalizing start with
  | nil => cases hvalue
  | cons first values ih =>
    obtain ⟨hfirst, hrest⟩ := h
    obtain rfl | hvalue := List.mem_cons.mp hvalue
    · obtain ⟨start', hstart, hle, -⟩ := hi
      rw [hfirst] at hstart
      cases hstart
      exact hle
    · exact (Nat.le_add_right _ _).trans (ih hrest hvalue)

/-- **The parts are disjoint and leave nothing out.** -/
theorem existsUnique (h : Laid place size start values) {i : ℕ} (hstart : start ≤ i)
    (hstop : i < start + (values.map size).sum) :
    ∃! value, value ∈ values ∧ Covers place size value i := by
  induction values generalizing start with
  | nil => simp at hstop; omega
  | cons first values ih =>
    obtain ⟨hfirst, hrest⟩ := h
    rw [List.map_cons, List.sum_cons] at hstop
    by_cases hi : i < start + size first
    · refine ⟨first, ⟨List.mem_cons_self, start, hfirst, hstart, hi⟩, fun value hvalue => ?_⟩
      refine (List.mem_cons.mp hvalue.1).resolve_right fun hlater => ?_
      exact absurd (hrest.le_of_covers hlater hvalue.2) (Nat.not_le.mpr hi)
    · obtain ⟨value, hvalue, hunique⟩ := ih hrest (by omega) (by omega)
      refine ⟨value, ⟨List.mem_cons_of_mem _ hvalue.1, hvalue.2⟩, fun other hother => ?_⟩
      obtain rfl | hlater := List.mem_cons.mp hother.1
      · obtain ⟨start', hstart', -, hlt⟩ := hother.2
        rw [hfirst] at hstart'
        cases hstart'
        exact absurd hlt hi
      · exact hunique other ⟨hlater, hother.2⟩

/-- **Each part holds its value**, when they are written in this order. -/
theorem slice {write : α → List UInt8} (hsize : ∀ value, (write value).length = size value)
    (h : Laid place size start values) {before : List UInt8} (hbefore : before.length = start)
    {value : α} (hvalue : value ∈ values) :
    ∃ offset, place value = some offset ∧
      slice (before ++ values.flatMap write) offset (size value) = write value := by
  induction values generalizing start before with
  | nil => cases hvalue
  | cons first values ih =>
    obtain ⟨hfirst, hrest⟩ := h
    rw [List.flatMap_cons]
    obtain rfl | hvalue := List.mem_cons.mp hvalue
    · refine ⟨start, hfirst, ?_⟩
      rw [← hbefore, ← hsize]
      exact slice_append before (write value) (values.flatMap write)
    · have hlength : (before ++ write first).length = start + size first := by
        rw [List.length_append, hbefore, hsize]
      obtain ⟨offset, hoffset, hslice⟩ := ih hrest hlength hvalue
      exact ⟨offset, hoffset, by rwa [List.append_assoc] at hslice⟩

end Laid

end Machinery
