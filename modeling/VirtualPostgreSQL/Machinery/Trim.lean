import Mathlib.Data.List.DropRight
import Mathlib.Data.List.Basic

/-!
# Machinery/Trim — text without its margins

`trim p` removes the run of `p` at either end.  With its two margins the text is back:
`eq_of_trim_of_margins`; and the text between two margins is what `trim` leaves of them:
`trim_append_left`, `trim_append_right`, `trim_trim`.
-/

namespace Machinery

variable {α β : Type*} (p : α → Bool)

/-- A list without the run of `p` at either end. -/
def trim (l : List α) : List α := (l.dropWhile p).rdropWhile p

/-- The runs of `p` at both ends. -/
def margins (l : List α) : List α × List α := (l.takeWhile p, (l.dropWhile p).rtakeWhile p)

/-- A list is its margins and what is between them. -/
theorem margins_fst_append_trim (l : List α) :
    (margins p l).1 ++ trim p l ++ (margins p l).2 = l := by
  rw [margins, trim, List.append_assoc, List.rdropWhile_append_rtakeWhile,
    List.takeWhile_append_dropWhile]

/-- So two lists with the same margins and the same middle are one. -/
theorem eq_of_trim_of_margins {l l' : List α} (htrim : trim p l = trim p l')
    (hmargins : margins p l = margins p l') : l = l' := by
  rw [← margins_fst_append_trim p l, ← margins_fst_append_trim p l', htrim, hmargins]

theorem mem_margins_fst {l : List α} {a : α} (h : a ∈ (margins p l).1) : p a :=
  List.mem_takeWhile_imp h

theorem mem_margins_snd {l : List α} {a : α} (h : a ∈ (margins p l).2) : p a :=
  List.mem_rtakeWhile_imp h

theorem mem_of_mem_trim {l : List α} {a : α} (h : a ∈ trim p l) : a ∈ l := by
  rw [← margins_fst_append_trim p l]
  exact List.mem_append_left _ (List.mem_append_right _ h)

/-! ### Texts with margins -/

section Margins

variable {p} {as bs l : List α}

/-- What would be trimmed in front does not matter… -/
theorem trim_append_left (h : ∀ a ∈ as, p a) : trim p (as ++ l) = trim p l := by
  unfold trim
  rw [List.dropWhile_append_of_pos h]

/-- …nor what would be behind. -/
theorem trim_append_right (h : ∀ b ∈ bs, p b) : trim p (l ++ bs) = trim p l := by
  have hdrop : bs.dropWhile p = [] := List.dropWhile_eq_nil_iff.mpr h
  have hrdrop : (l.dropWhile p ++ bs).rdropWhile p = (l.dropWhile p).rdropWhile p := by
    rw [List.rdropWhile, List.rdropWhile, List.reverse_append,
      List.dropWhile_append_of_pos fun b hb => h b (List.mem_reverse.mp hb)]
  unfold trim
  rw [List.dropWhile_append]
  split
  · rename_i hempty
    rw [hdrop, List.isEmpty_iff.mp hempty]
  · exact hrdrop

/-- A text without margins stays as it is. -/
theorem trim_trim (l : List α) : trim p (trim p l) = trim p l := by
  conv_rhs => rw [← margins_fst_append_trim p l]
  rw [trim_append_right fun _ => mem_margins_snd p, trim_append_left fun _ => mem_margins_fst p]

theorem rdropWhile_append_cons {x : α} (hx : ¬p x) :
    (as ++ x :: bs).rdropWhile p = as ++ x :: bs.rdropWhile p := by
  induction bs using List.reverseRecOn with
  | nil => rw [List.rdropWhile_concat_neg p as x hx, List.rdropWhile_nil]
  | append_singleton bs b ih =>
    rw [← List.cons_append, ← List.append_assoc]
    by_cases hb : p b
    · rw [List.rdropWhile_concat_pos p _ b hb, List.rdropWhile_concat_pos p _ b hb, ih]
    · rw [List.rdropWhile_concat_neg p _ b hb, List.rdropWhile_concat_neg p _ b hb]
      simp

/-- Between two entries that stay nothing is trimmed. -/
theorem trim_cons_append {x y : α} (hx : ¬p x) (hy : ¬p y) :
    trim p (x :: (l ++ [y])) = x :: (l ++ [y]) := by
  unfold trim
  rw [List.dropWhile_cons_of_neg hx, ← List.cons_append, rdropWhile_append_cons hy,
    List.rdropWhile_nil]

/-- A text of which nothing can go. -/
theorem trim_eq_self (h : ∀ a ∈ l, ¬p a) : trim p l = l := by
  have hdrop : l.dropWhile p = l :=
    List.dropWhile_eq_self_iff.mpr fun hl => h _ (List.getElem_mem hl)
  rw [trim, hdrop, List.rdropWhile_eq_self_iff]
  exact fun hl => h _ (List.getLast_mem hl)

/-- Trimming the end first changes nothing. -/
theorem trim_rdropWhile (l : List α) : trim p (l.rdropWhile p) = trim p l := by
  conv_rhs => rw [← @List.rdropWhile_append_rtakeWhile _ p l]
  rw [trim_append_right fun _ => List.mem_rtakeWhile_imp]

/-- What is left begins where the front margin ends. -/
theorem head?_trim (l : List α) : (trim p l).head? = (l.dropWhile p).head? := by
  unfold trim
  cases hdrop : l.dropWhile p with
  | nil => rfl
  | cons x bs =>
    have hx : ¬p x := by
      have := List.head_dropWhile_not p (l := l) (by simp [hdrop])
      simpa [hdrop] using this
    have hkeep := @rdropWhile_append_cons _ p [] bs x hx
    rw [List.nil_append] at hkeep
    rw [hkeep]
    rfl

end Margins

/-- What leaves the margins alone goes through. -/
theorem trim_map {q : β → Bool} {f : α → β} (h : ∀ a, q (f a) = p a) (l : List α) :
    trim q (l.map f) = (trim p l).map f := by
  have hcomp : q ∘ f = p := funext h
  simp only [trim, List.rdropWhile, List.dropWhile_map, ← List.map_reverse, hcomp]

/-- A map that keeps the predicate keeps the margins. -/
theorem margins_map {q : β → Bool} {f : α → β} (h : ∀ a, q (f a) = p a) (l : List α) :
    margins q (l.map f) = ((margins p l).1.map f, (margins p l).2.map f) := by
  have hcomp : q ∘ f = p := funext h
  simp only [margins, List.rtakeWhile, List.dropWhile_map, List.takeWhile_map, ← List.map_reverse,
    hcomp]

end Machinery
