import Mathlib.Data.List.Perm.Basic
import Mathlib.Data.List.Nodup

/-!
# Machinery/Ledger — what is taken is given back, once

A history of things that are acquired and released, the newest event first.  `Ledger log held` says
that nothing was acquired twice, that only what was held was released, and that `held` is what is
left.  So no event happens twice (`Ledger.nodup`), a release stands after its acquisition
(`Ledger.acquired_before`), and what was acquired and is not held has been released
(`Ledger.mem_held`).
-/

namespace Machinery

universe u

variable {R : Type u}

/-- Something is taken, or given back. -/
inductive LedgerEvent (R : Type u)
  | acquired (r : R)
  | released (r : R)
  deriving DecidableEq

/-- **A history in which each thing is acquired once and released once, and what is still held.** -/
inductive Ledger : List (LedgerEvent R) → List R → Prop
  | nil : Ledger [] []
  | acquire {log : List (LedgerEvent R)} {held held' : List R} (r : R) (h : Ledger log held)
      (fresh : .acquired r ∉ log) (perm : held'.Perm (r :: held)) :
        Ledger (.acquired r :: log) held'
  | release {log : List (LedgerEvent R)} {held held' : List R} (r : R) (h : Ledger log held)
      (perm : held.Perm (r :: held')) : Ledger (.released r :: log) held'

namespace Ledger

variable {log : List (LedgerEvent R)} {held held' : List R} {r : R}

/-- The order of what is held does not matter. -/
theorem perm (h : Ledger log held) (hperm : held'.Perm held) : Ledger log held' := by
  cases h with
  | nil =>
    obtain rfl := List.perm_nil.mp hperm
    exact .nil
  | acquire r h fresh hr => exact .acquire r h fresh (hperm.trans hr)
  | release r h hr => exact .release r h (hr.trans (hperm.symm.cons r))

theorem acquired_of_held (h : Ledger log held) (hr : r ∈ held) : .acquired r ∈ log := by
  induction h with
  | nil => cases hr
  | acquire r' _ _ hperm ih =>
    obtain rfl | hr := List.mem_cons.mp (hperm.mem_iff.mp hr)
    · exact List.mem_cons_self
    · exact List.mem_cons_of_mem _ (ih hr)
  | release r' _ hperm ih =>
    exact List.mem_cons_of_mem _ (ih (hperm.mem_iff.mpr (List.mem_cons_of_mem _ hr)))

theorem acquired_of_released (h : Ledger log held) (hr : .released r ∈ log) :
    .acquired r ∈ log := by
  induction h with
  | nil => cases hr
  | acquire r' _ _ _ ih =>
    obtain h | h := List.mem_cons.mp hr
    · cases h
    · exact List.mem_cons_of_mem _ (ih h)
  | release r' hlog hperm ih =>
    obtain h | h := List.mem_cons.mp hr
    · cases h
      exact List.mem_cons_of_mem _ (hlog.acquired_of_held (hperm.mem_iff.mpr List.mem_cons_self))
    · exact List.mem_cons_of_mem _ (ih h)

/-- What is held is held once, and has not been released. -/
theorem nodup_held_and (h : Ledger log held) : held.Nodup ∧ ∀ r ∈ held, .released r ∉ log := by
  induction h with
  | nil => exact ⟨List.nodup_nil, List.forall_mem_nil _⟩
  | @acquire log held _ r hlog fresh hperm ih =>
    rw [hperm.nodup_iff, List.nodup_cons]
    refine ⟨⟨fun hr => fresh (hlog.acquired_of_held hr), ih.1⟩, fun r' hr' hreleased => ?_⟩
    rw [List.mem_cons, or_iff_right (fun h => by cases h)] at hreleased
    obtain rfl | hr' := List.mem_cons.mp (hperm.mem_iff.mp hr')
    · exact fresh (hlog.acquired_of_released hreleased)
    · exact ih.2 r' hr' hreleased
  | @release log held held' r hlog hperm ih =>
    obtain ⟨hnodup, hheld⟩ := ih
    rw [hperm.nodup_iff, List.nodup_cons] at hnodup
    refine ⟨hnodup.2, fun r' hr' hreleased => ?_⟩
    obtain h | h := List.mem_cons.mp hreleased
    · cases h
      exact hnodup.1 hr'
    · exact hheld r' (hperm.mem_iff.mpr (List.mem_cons_of_mem _ hr')) h

/-- **What is left**: acquired, and not released. -/
theorem mem_held (h : Ledger log held) : r ∈ held ↔ .acquired r ∈ log ∧ .released r ∉ log := by
  refine ⟨fun hr => ⟨h.acquired_of_held hr, h.nodup_held_and.2 r hr⟩, fun hr => ?_⟩
  induction h with
  | nil => cases hr.1
  | @acquire log held held' r' hlog _ hperm ih =>
    refine hperm.mem_iff.mpr (List.mem_cons.mpr ?_)
    obtain h | h := List.mem_cons.mp hr.1
    · cases h
      exact .inl rfl
    · exact .inr (ih ⟨h, fun hreleased => hr.2 (List.mem_cons_of_mem _ hreleased)⟩)
  | @release log held held' r' hlog hperm ih =>
    obtain h | h := List.mem_cons.mp hr.1
    · cases h
    · have hmem := ih ⟨h, fun hreleased => hr.2 (List.mem_cons_of_mem _ hreleased)⟩
      refine (List.mem_cons.mp (hperm.mem_iff.mp hmem)).resolve_left ?_
      rintro rfl
      exact hr.2 List.mem_cons_self

/-- **No event happens twice.** -/
theorem nodup (h : Ledger log held) : log.Nodup := by
  induction h with
  | nil => exact List.nodup_nil
  | acquire r _ fresh _ ih => exact List.nodup_cons.mpr ⟨fresh, ih⟩
  | release r hlog hperm ih =>
    have hheld := hperm.mem_iff.mpr List.mem_cons_self
    exact List.nodup_cons.mpr ⟨(hlog.mem_held.mp hheld).2, ih⟩

/-- **A release stands after its acquisition.** -/
theorem acquired_before (h : Ledger log held) {later earlier : List (LedgerEvent R)}
    (heq : log = later ++ .released r :: earlier) : .acquired r ∈ earlier := by
  induction h generalizing later with
  | nil => simp at heq
  | acquire r' _ _ _ ih =>
    cases later with
    | nil => cases heq
    | cons e later => exact ih (List.cons.inj heq).2
  | release r' hlog hperm ih =>
    cases later with
    | nil =>
      obtain ⟨hr, rfl⟩ := List.cons.inj heq
      cases hr
      exact hlog.acquired_of_held (hperm.mem_iff.mpr List.mem_cons_self)
    | cons e later => exact ih (List.cons.inj heq).2

/-- **Once each**: every acquisition is released once, later, or what was acquired is still held. -/
theorem once (h : Ledger log held) :
    log.Nodup ∧ (∀ r later earlier, log = later ++ .released r :: earlier → .acquired r ∈ earlier) ∧
      ∀ r, .acquired r ∈ log → .released r ∈ log ∨ r ∈ held := by
  refine ⟨h.nodup, fun r later earlier => h.acquired_before, fun r hr => ?_⟩
  by_cases hreleased : .released r ∈ log
  · exact .inl hreleased
  · exact .inr (h.mem_held.mpr ⟨hr, hreleased⟩)

end Ledger

end Machinery
