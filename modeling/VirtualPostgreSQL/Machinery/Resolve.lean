import Mathlib.Data.List.Basic

/-!
# Machinery/Resolve — names in a tree, with a way up

A path is a list of names, one of which leads up.  `resolve` takes each name that is followed by a
way up away, as far as it goes; what is left is resolved already (`resolve_of_isResolved`).
-/

namespace Machinery

variable {α : Type*} (up : α) (rooted : Bool)

/-- Names, the deepest first, with every way up above the others; from the root there is none. -/
inductive IsResolved : List α → Prop
  | nil : IsResolved []
  | up {stack : List α} (hrooted : rooted = false) (hups : ∀ name ∈ stack, name = up) :
    IsResolved (up :: stack)
  | name {name : α} {stack : List α} (hname : name ≠ up) (hstack : IsResolved stack) :
    IsResolved (name :: stack)

variable {up rooted} in
/-- What is resolved stays so without its last name. -/
theorem IsResolved.tail {stack : List α} (h : IsResolved up rooted stack) :
    IsResolved up rooted stack.tail := by
  cases h with
  | nil => exact .nil
  | @up stack hrooted hups =>
    cases stack with
    | nil => exact .nil
    | cons name stack =>
      obtain ⟨rfl, hups⟩ := List.forall_mem_cons.mp hups
      exact .up hrooted hups
  | name _ hstack => exact hstack

variable [DecidableEq α]

/-- One name, on top of the names so far; from the root no way leads up. -/
def resolveStep (stack : List α) (name : α) : List α :=
  if name = up then
    if stack.head?.any (· ≠ up) then stack.tail else if rooted then stack else up :: stack
  else name :: stack

/-- The names that are left, the deepest first. -/
def resolveStack (names : List α) : List α := names.foldl (resolveStep up rooted) []

/-- **The names that are left** of a path. -/
def resolve (names : List α) : List α := (resolveStack up rooted names).reverse

variable {up rooted}

/-- One name keeps what is resolved resolved. -/
theorem IsResolved.step {stack : List α} (h : IsResolved up rooted stack) (name : α) :
    IsResolved up rooted (resolveStep up rooted stack name) := by
  rw [resolveStep]
  split
  next =>
    split
    next => exact h.tail
    next htop =>
      split
      next => exact h
      next hrooted =>
        refine .up (by simpa using hrooted) ?_
        cases h with
        | nil => exact fun _ hmem => absurd hmem List.not_mem_nil
        | up _ hups => exact List.forall_mem_cons.mpr ⟨rfl, hups⟩
        | name hname _ => exact absurd (by simpa using hname) htop
  next hname => exact .name hname h

/-- **Names that are resolved have no step up left** but those at the front. -/
theorem isResolved_resolveStack (names : List α) :
    IsResolved up rooted (resolveStack up rooted names) :=
  List.foldlRecOn names (resolveStep up rooted) .nil fun _ h name _ => h.step name

theorem resolveStep_sublist (stack : List α) (name : α) :
    (resolveStep up rooted stack name).Sublist (name :: stack) := by
  rw [resolveStep]
  split
  next hup =>
    split
    next => exact (List.tail_sublist stack).trans (List.sublist_cons_self name stack)
    next =>
      split
      next => exact List.sublist_cons_self name stack
      next => exact hup ▸ List.Sublist.refl _
  next => exact List.Sublist.refl _

/-- The names that are left are some of the path, in their order. -/
theorem foldl_resolveStep_sublist (names stack : List α) :
    (names.foldl (resolveStep up rooted) stack).Sublist (names.reverse ++ stack) := by
  induction names generalizing stack with
  | nil => exact List.Sublist.refl _
  | cons name names ih =>
    rw [List.foldl_cons, List.reverse_cons, List.append_assoc]
    exact (ih _).trans ((resolveStep_sublist stack name).append_left _)

/-- Resolving names only leaves some out. -/
theorem resolve_sublist (names : List α) : (resolve up rooted names).Sublist names := by
  have h : (resolveStack up rooted names).Sublist (names.reverse ++ []) :=
    foldl_resolveStep_sublist names []
  simpa [resolve] using h.reverse

/-- **What is resolved stays**, read from the root. -/
theorem resolveStack_of_isResolved {stack : List α} (h : IsResolved up rooted stack) :
    resolveStack up rooted stack.reverse = stack := by
  induction h with
  | nil => rfl
  | @up stack hrooted hups =>
    rw [List.reverse_cons, resolveStack, List.foldl_append]
    have hstack : stack.reverse.foldl (resolveStep up rooted) [] = stack := by
      clear * - hrooted hups
      induction stack with
      | nil => rfl
      | cons name stack ih =>
        obtain ⟨rfl, hups⟩ := List.forall_mem_cons.mp hups
        rw [List.reverse_cons, List.foldl_append, ih hups, List.foldl_cons,
          List.foldl_nil, resolveStep, if_pos rfl, if_neg, hrooted]
        · rfl
        · cases stack with
          | nil => simp
          | cons other stack => simp [hups other List.mem_cons_self]
    rw [hstack, List.foldl_cons, List.foldl_nil, resolveStep, if_pos rfl, if_neg, hrooted]
    · rfl
    · cases stack with
      | nil => simp
      | cons other stack => simp [hups other List.mem_cons_self]
  | @name name stack hname _ ih =>
    rw [List.reverse_cons, resolveStack, List.foldl_append]
    rw [resolveStack] at ih
    rw [ih, List.foldl_cons, List.foldl_nil, resolveStep, if_neg hname]

/-- What is resolved is resolved to itself. -/
theorem resolve_of_isResolved {names : List α} (h : IsResolved up rooted names.reverse) :
    resolve up rooted names = names := by
  have := resolveStack_of_isResolved h
  rw [List.reverse_reverse] at this
  rw [resolve, this, List.reverse_reverse]

end Machinery
