import Mathlib.Data.Nat.Notation
import Mathlib.Data.Option.Defs
import Mathlib.Logic.Basic

/-!
# Machinery/Outcome — taking successful computations apart

A computation that may fail returns an `Except`; a successful sequence is taken apart into its
successful steps.  `Judged` says exactly when a computation succeeds and with what, and what its
error shows of the fault that stopped it.
-/

namespace Machinery

universe u v

variable {ε : Type u} {α β : Type v}

/-- **The bind inversion**: a successful sequence has a successful first part. -/
theorem ok_of_bind {x : Except ε α} {f : α → Except ε β} {b : β} (h : (x >>= f) = .ok b) :
    ∃ a, x = .ok a ∧ f a = .ok b := by
  cases x with
  | error e => cases h
  | ok a => exact ⟨a, rfl, h⟩

theorem ok_bind (a : α) (f : α → Except ε β) : ((.ok a : Except ε α) >>= f) = f a := rfl

theorem mapError_ok {ε' : Type*} (g : ε → ε') (a : α) :
    (.ok a : Except ε α).mapError g = .ok a := rfl

theorem bind_eq_ok_iff {x : Except ε α} {f : α → Except ε β} {b : β} :
    (x >>= f) = .ok b ↔ ∃ a, x = .ok a ∧ f a = .ok b := by
  refine ⟨ok_of_bind, ?_⟩
  rintro ⟨a, rfl, h⟩
  exact h

theorem ok_of_toOption {x : Except ε α} {a : α} (h : x.toOption = some a) : x = .ok a := by
  cases x with
  | error e => cases h
  | ok b => exact congrArg _ (Option.some.inj h)

/-- A condition on the failure and one on the result. -/
def Settles (F : ε → Prop) (P : α → Prop) : Except ε α → Prop
  | .error e => F e
  | .ok a => P a

/-- **The sequence rule**: the second part starts from what the first one leaves. -/
theorem Settles.bind {F : ε → Prop} {P : α → Prop} {Q : β → Prop} {x : Except ε α}
    {f : α → Except ε β} (h : Settles F P x) (hf : ∀ a, P a → Settles F Q (f a)) :
    Settles F Q (x >>= f) := by
  cases x with
  | error e => exact h
  | ok a => exact hf a h

/-- **A computation that fails exactly for a fault**: without one it gives a result, and with one an
error that shows it. -/
def Judged {φ : Type*} (shows : ε → φ → Prop) (fault : Option φ) (x : Except ε α) (a : α) : Prop :=
  (fault = none → x = .ok a) ∧ ∀ b, fault = some b → ∃ e, x = .error e ∧ shows e b

namespace Judged

variable {φ : Type*} {shows : ε → φ → Prop} {fault fault' : Option φ} {x : Except ε α} {a : α}
  {f : α → Except ε β} {b : β}

theorem ok : Judged shows none (.ok a) a := ⟨fun _ => rfl, nofun⟩

theorem error {e : ε} {d : φ} (h : shows e d) : Judged shows (some d) (.error e) a :=
  ⟨nofun, fun _ hd => ⟨e, rfl, Option.some.inj hd ▸ h⟩⟩

/-- **The sequence rule**: the second part is asked only where the first one has no fault. -/
theorem bind (h : Judged shows fault x a) (hf : fault = none → Judged shows fault' (f a) b) :
    Judged shows (fault.or fault') (x >>= f) b := by
  cases fault with
  | none =>
    rw [h.1 rfl, ok_bind]
    exact hf rfl
  | some d =>
    obtain ⟨e, he, hshows⟩ := h.2 d rfl
    rw [he]
    exact error hshows

theorem congr (h : Judged shows fault x a) (heq : fault = fault') : Judged shows fault' x a :=
  heq ▸ h

theorem map (h : Judged shows fault x a) (g : α → β) : Judged shows fault (g <$> x) (g a) := by
  constructor
  · intro hnone
    rw [h.1 hnone]
    rfl
  · intro d hd
    obtain ⟨e, he, hshows⟩ := h.2 d hd
    exact ⟨e, by rw [he]; rfl, hshows⟩

end Judged

/-- **The first fault in a list** whose entries move a counter on, each judged behind those before
it. -/
def firstFrom {φ ι : Type*} (moves : ι → ℕ) (fault : ℕ → ι → Option φ) : ℕ → List ι → Option φ
  | _, [] => none
  | used, i :: l => (fault used i).or (firstFrom moves fault (used + moves i) l)

theorem firstFrom_eq_none {φ ι : Type*} {moves : ι → ℕ} {fault : ℕ → ι → Option φ} {l : List ι}
    (h : ∀ i ∈ l, ∀ used, fault used i = none) (used : ℕ) :
    firstFrom moves fault used l = none := by
  induction l generalizing used with
  | nil => rfl
  | cons i l ih =>
    rw [firstFrom, h i List.mem_cons_self used, Option.none_or]
    exact ih (fun j hj => h j (List.mem_cons_of_mem _ hj)) _

/-- Without a fault in the list there is none in an entry, wherever the counter has come to. -/
theorem exists_of_firstFrom_eq_none {φ ι : Type*} {moves : ι → ℕ} {fault : ℕ → ι → Option φ}
    {l : List ι} {used : ℕ} (h : firstFrom moves fault used l = none) {i : ι} (hi : i ∈ l) :
    ∃ used', fault used' i = none := by
  induction l generalizing used with
  | nil => cases hi
  | cons j l ih =>
    obtain ⟨hj, hl⟩ := Option.or_eq_none_iff.mp h
    rcases List.mem_cons.mp hi with rfl | hi
    · exact ⟨used, hj⟩
    · exact ih hl hi

/-- The first round of a successful loop. -/
theorem ok_of_foldlM_cons {f : β → α → Except ε β} {a : α} {l : List α} {b c : β}
    (h : (a :: l).foldlM f b = .ok c) : ∃ b', f b a = .ok b' ∧ l.foldlM f b' = .ok c := by
  rw [List.foldlM_cons] at h
  exact ok_of_bind h

/-- **The invariant rule of a loop that may fail**, with the entry of the round at hand. -/
theorem foldlM_invariant_mem {f : β → α → Except ε β} {I : β → Prop} {l : List α}
    (keep : ∀ b a b', a ∈ l → I b → f b a = .ok b' → I b') {b c : β} (hb : I b)
    (h : l.foldlM f b = .ok c) : I c := by
  induction l generalizing b with
  | nil =>
    cases h
    exact hb
  | cons a l ih =>
    obtain ⟨b', hstep, hrest⟩ := ok_of_foldlM_cons h
    exact ih (fun b a b' ha => keep b a b' (List.mem_cons_of_mem _ ha))
      (keep b a b' List.mem_cons_self hb hstep) hrest

/-- **The invariant rule of a loop that may fail.** -/
theorem foldlM_invariant {f : β → α → Except ε β} {I : β → Prop}
    (keep : ∀ b a b', I b → f b a = .ok b' → I b') {l : List α} {b c : β} (hb : I b)
    (h : l.foldlM f b = .ok c) : I c :=
  foldlM_invariant_mem (fun b a b' _ => keep b a b') hb h

/-- **A run that cannot fail**: steps that succeed from an invariant, and keep it, succeed one after
the other. -/
theorem foldlM_total {f : β → α → Except ε β} {I : β → Prop} {l : List α}
    (keep : ∀ b, I b → ∀ a ∈ l, ∃ b', f b a = .ok b' ∧ I b') {b : β} (hb : I b) :
    ∃ c, l.foldlM f b = .ok c ∧ I c := by
  induction l generalizing b with
  | nil => exact ⟨b, rfl, hb⟩
  | cons a l ih =>
    obtain ⟨b', hstep, hb'⟩ := keep b hb a List.mem_cons_self
    obtain ⟨c, hrun, hc⟩ := ih (fun b hb a ha => keep b hb a (List.mem_cons_of_mem _ ha)) hb'
    exact ⟨c, by rw [List.foldlM_cons, hstep, ok_bind, hrun], hc⟩

/-- A loop that collects what its rounds give. -/
theorem foldlM_collect {γ : Type v} {f : List β → γ → Except ε (List β)}
    {g : γ → Option β} {l : List γ}
    (h : ∀ c ∈ l, ∀ collected, f collected c = .ok (collected ++ (g c).toList))
    (collected : List β) :
    l.foldlM f collected = .ok (collected ++ l.filterMap g) := by
  induction l generalizing collected with
  | nil => rw [List.filterMap_nil, List.append_nil, List.foldlM_nil]; rfl
  | cons c l ih =>
    rw [List.foldlM_cons, h c List.mem_cons_self, ok_bind,
      ih fun c' hc' => h c' (List.mem_cons_of_mem _ hc')]
    cases hc : g c with
    | none => simp [hc]
    | some b => simp [hc]

/-- Related partial results, read on by related functions. -/
theorem rel_bind {α' β' : Type v} {R : α → α' → Prop} {S : β → β' → Prop} {x : Option α}
    {x' : Option α'} {f : α → Option β} {f' : α' → Option β'} (h : Option.Rel R x x')
    (hf : ∀ a a', R a a' → Option.Rel S (f a) (f' a')) :
    Option.Rel S (x.bind f) (x'.bind f') := by
  cases h with
  | some h => exact hf _ _ h
  | none => exact .none

/-- Related runs of a partial step. -/
theorem rel_foldlM {γ : Type v} {R : β → β → Prop} {f : β → γ → Option β}
    (hf : ∀ b b' c, R b b' → Option.Rel R (f b c) (f b' c)) (l : List γ) {b b' : β} (h : R b b') :
    Option.Rel R (l.foldlM f b) (l.foldlM f b') := by
  induction l generalizing b b' with
  | nil => exact .some h
  | cons c l ih => exact rel_bind (hf b b' c h) fun _ _ h => ih h

end Machinery
