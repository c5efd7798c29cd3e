import VirtualPostgreSQL.Machinery.Outcome

/-!
# Machinery/Reading — computations beside the indices they read

A program that reads an array is a computation that may fail, beside the list of the indices it has
read, in order.  `Within P` says that every index read satisfies `P`; it is proved along the
program, and `outcome` is a map of monads, so that the values of the program are those of one
without the list. `Tracks` says that a program runs as the one with the list does until an index is
refused.
-/

namespace Machinery

universe u v w

/-- The outcome of a computation, and the indices it has read on the way. -/
structure Reading (ι : Type u) (ε : Type v) (α : Type w) where
  outcome : Except ε α
  reads : List ι

namespace Reading

variable {ι : Type u} {ε : Type v} {α β γ : Type w}

/-- A failure that reads nothing. -/
protected def error (e : ε) : Reading ι ε α := ⟨.error e, []⟩

/-- One index is read. -/
def readAt (memory : ι → α) (i : ι) : Reading ι ε α := ⟨.ok (memory i), [i]⟩

/-- A computation that reads nothing. -/
def lift (x : Except ε α) : Reading ι ε α := ⟨x, []⟩

/-- The failures are renamed. -/
def mapError {ε' : Type v} (g : ε → ε') (x : Reading ι ε α) : Reading ι ε' α :=
  ⟨x.outcome.mapError g, x.reads⟩

/-- The second part reads behind the first one, if that succeeds. -/
protected def bind (x : Reading ι ε α) (f : α → Reading ι ε β) : Reading ι ε β :=
  match x.outcome with
  | .error e => ⟨.error e, x.reads⟩
  | .ok a => ⟨(f a).outcome, x.reads ++ (f a).reads⟩

/-- What is read is noted in its order. -/
instance : Monad (Reading ι ε) where
  pure a := ⟨.ok a, []⟩
  bind := Reading.bind

/-! ## Outcomes -/

@[simp] theorem outcome_pure (a : α) : (pure a : Reading ι ε α).outcome = .ok a := rfl

@[simp] theorem outcome_error (e : ε) : (Reading.error e : Reading ι ε α).outcome = .error e := rfl

/-- A read gives what is in memory. -/
@[simp] theorem outcome_readAt (memory : ι → α) (i : ι) :
    (readAt memory i : Reading ι ε α).outcome = .ok (memory i) := rfl

@[simp] theorem outcome_lift (x : Except ε α) : (lift x : Reading ι ε α).outcome = x := rfl

@[simp] theorem outcome_mapError {ε' : Type v} (g : ε → ε') (x : Reading ι ε α) :
    (x.mapError g).outcome = x.outcome.mapError g := rfl

/-- The outcome of two readings is that of the two steps. -/
@[simp] theorem outcome_bind (x : Reading ι ε α) (f : α → Reading ι ε β) :
    (x >>= f).outcome = x.outcome >>= fun a => (f a).outcome := by
  obtain ⟨outcome, reads⟩ := x
  cases outcome <;> rfl

/-- The outcome of a loop is that of its rounds. -/
theorem outcome_foldlM (f : β → α → Reading ι ε β) (l : List α) (b : β) :
    (l.foldlM f b).outcome = l.foldlM (fun b a => (f b a).outcome) b := by
  induction l generalizing b with
  | nil => rfl
  | cons a l ih =>
    rw [List.foldlM_cons, List.foldlM_cons, outcome_bind]
    exact congrArg _ (funext ih)

/-! ## Reads -/

@[simp] theorem reads_pure (a : α) : (pure a : Reading ι ε α).reads = [] := rfl

@[simp] theorem reads_error (e : ε) : (Reading.error e : Reading ι ε α).reads = [] := rfl

/-- A read reads the one place that it is of. -/
@[simp] theorem reads_readAt (memory : ι → α) (i : ι) :
    (readAt memory i : Reading ι ε α).reads = [i] := rfl

/-- Two readings read what the first reads, and then what the second reads. -/
theorem reads_bind_of_ok {x : Reading ι ε α} {a : α} (h : x.outcome = .ok a)
    (f : α → Reading ι ε β) : (x >>= f).reads = x.reads ++ (f a).reads := by
  obtain ⟨outcome, reads⟩ := x
  obtain rfl : outcome = .ok a := h
  rfl

/-- A reading that breaks off reads nothing more. -/
theorem reads_bind_of_error {x : Reading ι ε α} {e : ε} (h : x.outcome = .error e)
    (f : α → Reading ι ε β) : (x >>= f).reads = x.reads := by
  obtain ⟨outcome, reads⟩ := x
  obtain rfl : outcome = .error e := h
  rfl

/-- Every index that is read satisfies `P`. -/
def Within (P : ι → Prop) (x : Reading ι ε α) : Prop := ∀ i ∈ x.reads, P i

namespace Within

variable {P : ι → Prop} {x : Reading ι ε α} {f : α → Reading ι ε β}

theorem pure (a : α) : Within P (Pure.pure a : Reading ι ε α) := fun _ h => nomatch h

theorem error (e : ε) : Within P (Reading.error e : Reading ι ε α) := fun _ h => nomatch h

theorem lift (x : Except ε α) : Within P (Reading.lift x : Reading ι ε α) := fun _ h => nomatch h

theorem mapError {ε' : Type v} (g : ε → ε') (h : Within P x) : Within P (x.mapError g) := h

/-- A read is within bounds just when its place is. -/
theorem readAt_iff {memory : ι → α} {i : ι} : Within P (readAt memory i : Reading ι ε α) ↔ P i :=
  List.forall_mem_singleton

/-- **The sequence rule**: the second part is asked for what the first one leaves. -/
theorem bind_iff : Within P (x >>= f) ↔ Within P x ∧ ∀ a, x.outcome = .ok a → Within P (f a) := by
  cases houtcome : x.outcome with
  | error e =>
    rw [Within, reads_bind_of_error houtcome]
    exact ⟨fun h => ⟨h, fun _ h => nomatch h⟩, fun h => h.1⟩
  | ok a =>
    rw [Within, reads_bind_of_ok houtcome, List.forall_mem_append]
    refine and_congr_right fun _ => ⟨?_, fun h => h a rfl⟩
    rintro h _ ⟨⟩
    exact h

/-- **Two readings in a row are within bounds** if each is. -/
theorem bind (hx : Within P x) (hf : ∀ a, x.outcome = .ok a → Within P (f a)) :
    Within P (x >>= f) := bind_iff.mpr ⟨hx, hf⟩

/-- **The loop rule**: every round reads within `P`. -/
theorem foldlM {f : β → α → Reading ι ε β} {l : List α}
    (h : ∀ a ∈ l, ∀ b, Within P (f b a)) (b : β) :
    Within P (l.foldlM f b) := by
  induction l generalizing b with
  | nil => exact Within.pure b
  | cons a l ih =>
    rw [List.foldlM_cons]
    exact bind (h a List.mem_cons_self b) fun b' _ =>
      ih (fun a' ha' => h a' (List.mem_cons_of_mem _ ha')) b'

/-- A loop whose rounds do not fail reads within `P` exactly if every round does. -/
theorem foldlM_iff {f : β → α → Reading ι ε β} {l : List α} {g : β → α → β}
    (hok : ∀ b a, (f b a).outcome = .ok (g b a)) {Q : α → Prop}
    (h : ∀ a ∈ l, ∀ b, Within P (f b a) ↔ Q a) (b : β) :
    Within P (l.foldlM f b) ↔ ∀ a ∈ l, Q a := by
  induction l generalizing b with
  | nil => exact iff_of_true (Within.pure b) (by simp)
  | cons a l ih =>
    rw [List.foldlM_cons, bind_iff, List.forall_mem_cons, h a List.mem_cons_self]
    refine and_congr_right fun _ => ?_
    rw [← ih (fun a' ha' => h a' (List.mem_cons_of_mem _ ha')) (g b a)]
    exact ⟨fun hrest => hrest _ (hok b a), fun hrest b' hb' =>
      (Except.ok.inj ((hok b a).symm.trans hb')) ▸ hrest⟩

end Within

/-! ## Refused indices -/

section Refusing

universe v' w'

variable {ε' : Type v'} {stop : ι → Option ε'} {g : ε → ε'}

/-- One index is visited on the way to a value. -/
def visit (i : ι) (a : α) : Reading ι ε α := ⟨.ok a, [i]⟩

/-- The computation until the first index that is refused. -/
def guarded (stop : ι → Option ε') (g : ε → ε') (x : Reading ι ε α) : Except ε' α :=
  match x.reads.findSome? stop with
  | some e => .error e
  | none => x.outcome.mapError g

/-- A guard on two readings is a guard on each. -/
theorem guarded_bind (x : Reading ι ε α) (f : α → Reading ι ε β) :
    (x >>= f).guarded stop g = x.guarded stop g >>= fun a => (f a).guarded stop g := by
  unfold guarded
  cases houtcome : x.outcome with
  | error e =>
    rw [reads_bind_of_error houtcome, outcome_bind, houtcome]
    cases x.reads.findSome? stop <;> rfl
  | ok a =>
    rw [reads_bind_of_ok houtcome, outcome_bind, houtcome, List.findSome?_append]
    cases x.reads.findSome? stop <;> rfl

/-- `x` runs as `r` does until an index is refused, up to the names `p` of the values, and `I` holds
of what it gives. -/
def Tracks {β : Type w'} (stop : ι → Option ε') (g : ε → ε') (p : α → β) (I : α → Prop)
    (x : Except ε' β) (r : Reading ι ε α) : Prop :=
  (∃ a, x = .ok (p a) ∧ r.guarded stop g = .ok a ∧ I a) ∨
    ∃ e, x = .error e ∧ r.guarded stop g = .error e

namespace Tracks

variable {α' β' : Type w'} {p : α → α'} {q : β → β'} {I J : α → Prop} {K : β → Prop}
  {x : Except ε' α'} {r : Reading ι ε α} {f : α' → Except ε' β'} {k : α → Reading ι ε β}

theorem pure {a : α} (h : I a) : Tracks stop g p I (.ok (p a)) (Pure.pure a : Reading ι ε α) :=
  .inl ⟨a, rfl, rfl, h⟩

theorem error {e : ε} : Tracks stop g p I (.error (g e)) (Reading.error e : Reading ι ε α) :=
  .inr ⟨g e, rfl, rfl⟩

/-- What reads nothing. -/
theorem lift {y : Except ε α} (h : x = (y.mapError g).map p) (hI : ∀ a, y = .ok a → I a) :
    Tracks stop g p I x (Reading.lift y : Reading ι ε α) := by
  cases y with
  | error e => exact .inr ⟨g e, h, rfl⟩
  | ok a => exact .inl ⟨a, h, rfl, hI a rfl⟩

/-- What is known of the outcome may be weakened. -/
theorem mono (h : Tracks stop g p I x r) (hI : ∀ a, I a → J a) : Tracks stop g p J x r :=
  h.imp_left fun ⟨a, hx, hr, ha⟩ => ⟨a, hx, hr, hI a ha⟩

/-- What `x` is. -/
theorem eq_map (h : Tracks stop g p I x r) : x = (r.guarded stop g).map p := by
  obtain ⟨a, rfl, hr, -⟩ | ⟨e, rfl, hr⟩ := h <;> rw [hr] <;> rfl

/-- **The sequence rule.** -/
theorem bind (h : Tracks stop g p I x r) (hf : ∀ a, I a → Tracks stop g q K (f (p a)) (k a)) :
    Tracks stop g q K (x >>= f) (r >>= k) := by
  obtain ⟨a, rfl, hr, ha⟩ | ⟨e, rfl, hr⟩ := h
  · have hrest := hf a ha
    unfold Tracks at hrest ⊢
    rw [guarded_bind, hr]
    exact hrest
  · exact .inr ⟨e, rfl, by rw [guarded_bind, hr]; rfl⟩

/-- Two branches. -/
theorem ite {c : Prop} {d d' : Decidable c} {x' : Except ε' α'} {r' : Reading ι ε α}
    (h : c → Tracks stop g p I x r) (h' : ¬c → Tracks stop g p I x' r') :
    Tracks stop g p I (@ite _ c d x x') (@ite _ c d' r r') := by
  by_cases hc : c
  · rw [if_pos hc, if_pos hc]
    exact h hc
  · rw [if_neg hc, if_neg hc]
    exact h' hc

/-- An index that is not refused makes no difference. -/
theorem visit_bind {i : ι} {a : α} {y : Except ε' β'} (hi : stop i = none)
    (h : Tracks stop g q K y (k a)) :
    Tracks stop g q K y ((Reading.visit i a : Reading ι ε α) >>= k) := by
  have hvisit : (Reading.visit i a : Reading ι ε α).guarded stop g = .ok a := by
    simp [guarded, Reading.visit, hi, mapError_ok]
  unfold Tracks at h ⊢
  rw [guarded_bind, hvisit]
  exact h

/-- A refused index ends the run, whatever would follow. -/
theorem refused_bind {i : ι} {e : ε'} (hi : stop i = some e) (a : α) :
    Tracks stop g q K (.error e) ((Reading.visit i a : Reading ι ε α) >>= k) :=
  .inr ⟨e, rfl, by
    rw [guarded_bind]
    simp [guarded, Reading.visit, hi, Bind.bind, Except.bind]⟩

end Tracks

end Refusing

end Reading

end Machinery
