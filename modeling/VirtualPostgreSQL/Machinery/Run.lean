import Mathlib.Order.Basic

/-!
# Machinery/Run — runs of a deterministic labelled machine, and the invariant rule

A machine is a step function `f : S → E → S`: whatever its environment decides (an outcome, a
thread, a reply) is part of the label, so a run is a list of labels and the state it ends in is
`es.foldl f s`.  A **condition** `ok : S → E → Prop` singles out the runs a result speaks about;
`Along ok f s es` says that every label of the run meets it in the state it fires from. What every
conforming step keeps, every conforming run keeps: `Along.invariant`.  Where a step breaks a
property exactly when it does not conform, the conforming runs are those in which the property holds
throughout: `Along.iff_forall_prefix`.

A machine whose steps may **fail** stops at the first failure; its conforming runs are those that
conform as far as they get (`AlongOk`), and steps that succeed from an invariant, and keep it, make
such a run succeed: `AlongOk.total`.

A machine that keeps its history, the newest event first, remembers what has happened **since**: an
event of one kind, and none of another kind after it.
-/

namespace Machinery

universe u

variable {S E : Type*}

/-- **A conforming run**: every label meets `ok` in the state it fires from. -/
def Along (ok : S → E → Prop) (f : S → E → S) : S → List E → Prop
  | _, [] => True
  | s, e :: es => ok s e ∧ Along ok f (f s e) es

@[simp] theorem along_nil (ok : S → E → Prop) (f : S → E → S) (s : S) : Along ok f s [] := trivial

@[simp] theorem along_cons {ok : S → E → Prop} {f : S → E → S} {s : S} {e : E} {es : List E} :
    Along ok f s (e :: es) ↔ ok s e ∧ Along ok f (f s e) es := Iff.rfl

/-- A condition that can be decided at each step can be along a run. -/
instance Along.decidable (ok : S → E → Prop) (f : S → E → S) [∀ s e, Decidable (ok s e)] :
    ∀ (s : S) (es : List E), Decidable (Along ok f s es)
  | _, [] => isTrue trivial
  | s, e :: es =>
    haveI := Along.decidable ok f (f s e) es
    inferInstanceAs (Decidable (ok s e ∧ Along ok f (f s e) es))

namespace Along

variable {ok : S → E → Prop} {f : S → E → S}

/-- What every label meets anywhere holds along every run. -/
theorem of_forall (h : ∀ s e, ok s e) : ∀ {es : List E} {s : S}, Along ok f s es
  | [], _ => trivial
  | _ :: _, _ => ⟨h _ _, of_forall h⟩

/-- **The invariant rule**: an invariant kept by every conforming step holds after every conforming
run — the induction is on the labels, with the state left free. -/
theorem invariant (I : S → Prop) (keep : ∀ s e, I s → ok s e → I (f s e)) :
    ∀ {es : List E} {s : S}, Along ok f s es → I s → I (es.foldl f s) := by
  intro es
  induction es with
  | nil => exact fun _ hs => hs
  | cons e es ih => exact fun h hs => ih h.2 (keep _ e hs h.1)

/-- **Conditions that agree under an invariant** agree along every conforming run. -/
theorem iff_of_invariant (I : S → Prop) (keep : ∀ s e, I s → ok s e → I (f s e))
    {P Q : S → E → Prop} (agree : ∀ s e, I s → ok s e → (P s e ↔ Q s e)) :
    ∀ {es : List E} {s : S}, Along ok f s es → I s → (Along P f s es ↔ Along Q f s es) := by
  intro es
  induction es with
  | nil => exact fun _ _ => Iff.rfl
  | cons e es ih => exact fun h hs => and_congr (agree _ e hs h.1) (ih h.2 (keep _ e hs h.1))

/-- A run that goes on conforms in both its parts. -/
theorem append {s : S} {es es' : List E} :
    Along ok f s (es ++ es') ↔ Along ok f s es ∧ Along ok f (es.foldl f s) es' := by
  induction es generalizing s with
  | nil => simp
  | cons e es ih => simp [ih, and_assoc]

/-- **A condition that is exact.**  If a step keeps `P` exactly when it meets the condition, then a
run conforms exactly when `P` holds in every state it reaches. -/
theorem iff_forall_prefix (I P : S → Prop) (keep : ∀ s e, I s → I (f s e))
    (exact : ∀ s e, I s → P s → (P (f s e) ↔ ok s e)) :
    ∀ {es : List E} {s : S}, I s → P s →
      (Along ok f s es ↔ ∀ before, before <+: es → P (before.foldl f s)) := by
  intro es
  induction es with
  | nil =>
    intro s _ hP
    refine iff_of_true trivial fun before hbefore => ?_
    rw [List.prefix_nil.mp hbefore]
    exact hP
  | cons e es ih =>
    intro s hI hP
    constructor
    · rintro ⟨hok, hrest⟩ before hbefore
      cases before with
      | nil => exact hP
      | cons e' before =>
        obtain ⟨rfl, htail⟩ := List.cons_prefix_cons.mp hbefore
        exact (ih (keep s e' hI) ((exact s e' hI hP).mpr hok)).mp hrest before htail
    · intro h
      have hnext : P (f s e) := h [e] ⟨es, rfl⟩
      refine ⟨(exact s e hI hP).mp hnext, (ih (keep s e hI) hnext).mpr fun before hbefore => ?_⟩
      exact h (e :: before) (List.cons_prefix_cons.mpr ⟨rfl, hbefore⟩)

end Along

/-! ## Steps that may fail -/

/-- **A conforming run of steps that may fail**: every label that is reached meets `ok` in the state
it fires from. -/
def AlongOk {ε : Type*} (ok : S → E → Prop) (f : S → E → Except ε S) : S → List E → Prop
  | _, [] => True
  | s, e :: es => ok s e ∧ ∀ s', f s e = .ok s' → AlongOk ok f s' es

/-- **A conforming run that cannot fail**: the induction is on the labels, with the state left
free. -/
theorem AlongOk.total {S ε : Type u} {ok : S → E → Prop} {f : S → E → Except ε S} (I : S → Prop)
    (keep : ∀ s e, I s → ok s e → ∃ s', f s e = .ok s' ∧ I s') :
    ∀ {es : List E} {s : S}, AlongOk ok f s es → I s → ∃ s', es.foldlM f s = .ok s' ∧ I s' := by
  intro es
  induction es with
  | nil => exact fun {s} _ hs => ⟨s, rfl, hs⟩
  | cons e es ih =>
    intro s h hs
    obtain ⟨s', hstep, hs'⟩ := keep s e hs h.1
    obtain ⟨s'', hrun, hs''⟩ := ih (h.2 s' hstep) hs'
    refine ⟨s'', ?_, hs''⟩
    rw [List.foldlM_cons, hstep]
    exact hrun

/-! ## Histories -/

section Since

variable {opens closes : E → Prop} {e : E} {history : List E}

/-- **An event that opens, and none since that closes**; the newest event stands first. -/
def Since (opens closes : E → Prop) (history : List E) : Prop :=
  ∃ later event earlier, history = later ++ event :: earlier ∧ opens event ∧
    ∀ after ∈ later, ¬closes after

theorem not_since_nil : ¬Since opens closes [] := by
  rintro ⟨later, event, earlier, h, -⟩
  simp at h

theorem since_cons :
    Since opens closes (e :: history) ↔ opens e ∨ (¬closes e ∧ Since opens closes history) := by
  constructor
  · rintro ⟨_ | ⟨first, later⟩, event, earlier, h, hopens, hlater⟩
    · obtain ⟨rfl, -⟩ := List.cons.inj h
      exact .inl hopens
    · obtain ⟨rfl, rfl⟩ := List.cons.inj h
      exact .inr ⟨hlater e List.mem_cons_self, later, event, earlier, rfl, hopens,
        fun after hafter => hlater after (List.mem_cons_of_mem _ hafter)⟩
  · rintro (hopens | ⟨hcloses, later, event, earlier, rfl, hopens, hlater⟩)
    · exact ⟨[], e, history, rfl, hopens, fun _ h => absurd h List.not_mem_nil⟩
    · refine ⟨e :: later, event, earlier, rfl, hopens, fun after hafter => ?_⟩
      rcases List.mem_cons.mp hafter with rfl | hafter
      · exact hcloses
      · exact hlater after hafter

/-- What does not close leaves it open. -/
theorem Since.cons (h : Since opens closes history) (hcloses : ¬closes e) :
    Since opens closes (e :: history) :=
  since_cons.mpr (.inr ⟨hcloses, h⟩)

end Since

end Machinery
