import Mathlib.Data.List.Basic
import Mathlib.Data.Int.Basic

/-!
# Server/Block — a PostgreSQL transaction block and its savepoints

What the server keeps for one open transaction, over arbitrary database contents `σ`: the working
contents, the stack of named savepoints (innermost first; a name is `vps_N`, so the level `N` stands
for it), and whether an error has aborted the block.  PostgreSQL resolves a savepoint name to the
innermost savepoint of that name; an aborted block refuses everything but `ROLLBACK TO SAVEPOINT`
(and the end of the block).
-/

namespace Vps

variable {σ : Type*}

/-- A statement run inside a transaction block. -/
inductive BlockCommand (σ : Type*)
  | savepoint (level : ℤ)
  | release (level : ℤ)
  | rollbackTo (level : ℤ)
  | write (f : σ → σ)

/-- **A transaction block** of the server. -/
structure Block (σ : Type*) where
  working : σ
  savepoints : List (ℤ × σ)
  aborted : Bool

namespace Block

/-- The block right after `BEGIN`. -/
def start (contents : σ) : Block σ := ⟨contents, [], false⟩

/-- The savepoints from the innermost one named `level` outwards. -/
def outwards (b : Block σ) (level : ℤ) : List (ℤ × σ) :=
  b.savepoints.dropWhile fun p => p.1 != level

/-- A statement that raises an error: the block is aborted, its work so far stays undecided. -/
def fail (b : Block σ) : Block σ := { b with aborted := true }

/-- **One statement of a block**, with whether it succeeded. -/
def execute (b : Block σ) : BlockCommand σ → Block σ × Bool
  | .savepoint level =>
    if b.aborted then (b, false)
    else ({ b with savepoints := (level, b.working) :: b.savepoints }, true)
  | .release level =>
    if b.aborted then (b, false)
    else match b.outwards level with
    | [] => (b.fail, false)
    | _ :: outer => ({ b with savepoints := outer }, true)
  | .rollbackTo level =>
    match b.outwards level with
    | [] => (b.fail, false)
    | p :: outer => (⟨p.2, p :: outer, false⟩, true)
  | .write f =>
    if b.aborted then (b, false)
    else ({ b with working := f b.working }, true)

/-- Names that descend outwards are distinct, so the one place a level stands at splits the stack:
everything before it is inner, everything behind it is outer. -/
theorem outwards_split {b : Block σ} {level : ℤ}
    (hsorted : b.savepoints.Pairwise fun p q => q.1 < p.1) (h : level ∈ b.savepoints.map Prod.fst) :
    ∃ inner saved outer, b.savepoints = inner ++ (level, saved) :: outer ∧
      b.outwards level = (level, saved) :: outer ∧
      (∀ p ∈ inner, level < p.1) ∧ (∀ p ∈ outer, p.1 < level) := by
  obtain ⟨⟨n, saved⟩, hmem, rfl⟩ := List.mem_map.mp h
  obtain ⟨inner, outer, hsplit⟩ := List.append_of_mem hmem
  rw [hsplit, List.pairwise_append, List.pairwise_cons] at hsorted
  obtain ⟨-, ⟨houter, -⟩, hinner⟩ := hsorted
  have hin : ∀ p ∈ inner, n < p.1 := fun p hp => hinner p hp _ List.mem_cons_self
  refine ⟨inner, saved, outer, hsplit, ?_, hin, houter⟩
  rw [outwards, hsplit, List.dropWhile_append_of_pos]
  · simp
  · intro p hp
    have := hin p hp
    simp only [bne_iff_ne]
    omega

end Block

end Vps
