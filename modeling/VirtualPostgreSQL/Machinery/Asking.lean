/-!
# Machinery/Asking — programs that ask an unknown environment

A program has a state of its own, and asks an environment of which nothing is known but that it has
a state too.  `Always m s Q` says that `m`, started in `s`, ends with what `Q` says, whatever the
environment answers: an answer is any value (`Always.ask`), and a program is run through by its
parts (`Always.bind`). What every operation keeps, every sequence of operations keeps
(`Always.each`).
-/

namespace Machinery

universe u v

/-- **A program** with a state of its own, over an environment. -/
def Asking (σ : Type u) (W : Type v) (α : Type u) : Type (max u v) := σ → W → α × σ × W

variable {σ : Type u} {W : Type v} {α β ε : Type u}

/-- The state is handed on from each question to the next. -/
instance : Monad (Asking σ W) where
  pure a := fun s w => (a, s, w)
  bind m f := fun s w => f (m s w).1 (m s w).2.1 (m s w).2.2

namespace Asking

/-- The environment is asked. -/
def ask (f : W → α × W) : Asking σ W α := fun s w => ((f w).1, s, (f w).2)

/-- The state is looked at. -/
def look : Asking σ W σ := fun s w => (s, s, w)

/-- The state is changed. -/
def change (f : σ → σ) : Asking σ W PUnit := fun s w => (⟨⟩, f s, w)

/-- One operation after the other, with what each gives. -/
def each (f : ε → Asking σ W α) : List ε → Asking σ W (List α)
  | [] => pure []
  | e :: es => do
    let a ← f e
    let rest ← each f es
    return a :: rest

end Asking

/-- **Whatever the environment answers**, `m` ends with what `Q` says. -/
def Always (m : Asking σ W α) (s : σ) (Q : α → σ → Prop) : Prop :=
  ∀ w, Q (m s w).1 (m s w).2.1

namespace Always

variable {m : Asking σ W α} {f : α → Asking σ W β} {s : σ} {P Q : α → σ → Prop} {R : β → σ → Prop}

/-- What always holds may be weakened. -/
theorem mono (h : Always m s P) (hPQ : ∀ a s', P a s' → Q a s') : Always m s Q :=
  fun w => hPQ _ _ (h w)

theorem done {a : α} (h : Q a s) : Always (pure a : Asking σ W α) s Q := fun _ => h

/-- **A program is run through by its parts.** -/
theorem bind (h : Always m s P) (hf : ∀ a s', P a s' → Always (f a) s' R) : Always (m >>= f) s R :=
  fun w => hf _ _ (h w) _

/-- **An answer is any value.** -/
theorem ask {q : W → α × W} (hf : ∀ a, Always (f a) s R) : Always (Asking.ask q >>= f) s R :=
  fun _ => hf _ _

theorem look {f : σ → Asking σ W β} (h : Always (f s) s R) : Always (Asking.look >>= f) s R := h

theorem change {g : σ → σ} {f : PUnit → Asking σ W β} (h : Always (f ⟨⟩) (g s) R) :
    Always (Asking.change g >>= f) s R := h

/-- A choice is right if both branches are, each where it is taken. -/
theorem ite {c : Prop} [Decidable c] {m' : Asking σ W α} (hc : c → Always m s Q)
    (hnot : ¬c → Always m' s Q) :
    Always (if c then m else m') s Q := by
  split
  · exact hc ‹_›
  · exact hnot ‹_›

/-- **What every operation keeps, every sequence keeps**, with what holds of each answer. -/
theorem each {f : ε → Asking σ W α} {I : σ → Prop} {A : α → Prop} {es : List ε} {s : σ}
    (keep : ∀ e ∈ es, ∀ s, I s → Always (f e) s fun a s' => A a ∧ I s') (hs : I s) :
    Always (Asking.each f es) s fun answers s' => (∀ a ∈ answers, A a) ∧ I s' := by
  induction es generalizing s with
  | nil => exact done ⟨fun _ h => absurd h List.not_mem_nil, hs⟩
  | cons e es ih =>
    have hrest := fun e' he' => keep e' (List.mem_cons_of_mem e he')
    refine (keep e List.mem_cons_self s hs).bind fun a s' ha =>
      (ih hrest ha.2).bind fun answers s'' hanswers =>
      done ⟨?_, hanswers.2⟩
    intro b hb
    rcases List.mem_cons.mp hb with rfl | hb
    · exact ha.1
    · exact hanswers.1 b hb

end Always

end Machinery
