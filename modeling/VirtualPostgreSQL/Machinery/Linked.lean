import Mathlib.Data.List.Nodup
import Mathlib.Logic.Function.Basic

/-!
# Machinery/Linked — lists that are linked through a memory

Each node of a memory points to the next one or to nothing.  `Chain next start nodes` says that the
pointers lead from `start` through the nodes and then end; such a list has no node twice.  A node is
put in front (`Chain.push`), taken out by writing to the link that points to it (`Chain.unlink`),
and every node is visited once (`walk_eq`).  A loop is given a number of rounds; if it needs more it
is `endless`.
-/

namespace Machinery

variable {ι σ : Type*}

/-- **The nodes from a pointer on.** -/
def Chain (next : ι → Option ι) : Option ι → List ι → Prop
  | start, [] => start = none
  | start, a :: nodes => start = some a ∧ Chain next (next a) nodes

/-- What a loop over a memory ends in, if it does not end. -/
inductive LoopFault
  | endless
  deriving DecidableEq, Repr

namespace Chain

variable {next next' : ι → Option ι} {start : Option ι} {a : ι} {nodes nodes' before after : List ι}

theorem unique (h : Chain next start nodes) (h' : Chain next start nodes') : nodes = nodes' := by
  induction nodes generalizing start nodes' with
  | nil =>
    cases nodes' with
    | nil => rfl
    | cons a nodes' => cases h.symm.trans h'.1
  | cons a nodes ih =>
    cases nodes' with
    | nil => cases h.1.symm.trans h'
    | cons a' nodes' =>
      cases h.1.symm.trans h'.1
      rw [ih h.2 h'.2]

/-- A chain does not see what the other nodes point to. -/
theorem congr (h : Chain next start nodes) (hsame : ∀ a ∈ nodes, next' a = next a) :
    Chain next' start nodes := by
  induction nodes generalizing start with
  | nil => exact h
  | cons a nodes ih =>
    refine ⟨h.1, ?_⟩
    rw [hsame a List.mem_cons_self]
    exact ih h.2 fun b hb => hsame b (List.mem_cons_of_mem _ hb)

/-- The chain from one of its nodes on. -/
theorem behind (h : Chain next start (before ++ a :: after)) : Chain next (next a) after := by
  induction before generalizing start with
  | nil => exact h.2
  | cons b before ih => exact ih h.2

/-- **A chain that ends has no node twice.** -/
theorem nodup (h : Chain next start nodes) : nodes.Nodup := by
  induction nodes generalizing start with
  | nil => exact List.nodup_nil
  | cons a nodes ih =>
    refine List.nodup_cons.mpr ⟨fun hmem => ?_, ih h.2⟩
    obtain ⟨before, after, rfl⟩ := List.append_of_mem hmem
    have hlength := congrArg List.length (h.2.unique h.2.behind)
    simp only [List.length_append, List.length_cons] at hlength
    omega

/-- **A node is put in front.** -/
theorem push [DecidableEq ι] (h : Chain next start nodes) (hnew : a ∉ nodes) :
    Chain (Function.update next a start) (some a) (a :: nodes) := by
  refine ⟨rfl, ?_⟩
  rw [Function.update_self]
  refine h.congr fun b hb => Function.update_of_ne ?_ ..
  rintro rfl
  exact hnew hb

end Chain

/-! ## Links -/

/-- What a link points to: that of the list, or that of one of its nodes. -/
def linkAt (head : Option ι) (next : ι → Option ι) : Option ι → Option ι
  | none => head
  | some a => next a

/-- The loop that looks for the link to a node: `while (*link && *link != target) link =
&(*link)->next;` -/
def seekLink [DecidableEq ι] (head : Option ι) (next : ι → Option ι) (target : ι) :
    ℕ → Option ι → Except LoopFault (Option ι)
  | 0, _ => .error .endless
  | rounds + 1, link =>
    match linkAt head next link with
    | none => .ok link
    | some a => if a = target then .ok link else seekLink head next target rounds (some a)

section Links

variable {head : Option ι} {next : ι → Option ι} {a : ι} {before after nodes : List ι}
    {link : Option ι}

/-- What the link that is found points to. -/
theorem linkAt_found (h : Chain next (linkAt head next link) (before ++ a :: after)) :
    linkAt head next (before.getLast?.or link) = some a := by
  induction before generalizing link with
  | nil => exact h.1
  | cons b before ih =>
    have hrest := @ih (some b) h.2
    cases before with
    | nil => exact hrest
    | cons c before =>
      rw [List.getLast?_cons_cons]
      rw [List.getLast?_eq_some_getLast (List.cons_ne_nil _ _)] at hrest ⊢
      exact hrest

variable [DecidableEq ι] {rounds : ℕ}

/-- **The link to a node is found.** -/
theorem seekLink_of_mem (h : Chain next (linkAt head next link) (before ++ a :: after))
    (hnew : a ∉ before) (hrounds : before.length < rounds) :
    seekLink head next a rounds link = .ok (before.getLast?.or link) := by
  induction before generalizing link rounds with
  | nil =>
    cases rounds with
    | zero => exact absurd hrounds (Nat.not_lt_zero _)
    | succ rounds =>
      rw [seekLink, h.1]
      exact if_pos rfl
  | cons b before ih =>
    rw [List.mem_cons, not_or] at hnew
    cases rounds with
    | zero => exact absurd hrounds (Nat.not_lt_zero _)
    | succ rounds =>
      have hrest := @ih (some b) rounds h.2 hnew.2 (Nat.lt_of_succ_lt_succ hrounds)
      rw [seekLink, h.1]
      dsimp only
      rw [if_neg (Ne.symm hnew.1), hrest]
      cases before with
      | nil => rfl
      | cons c before =>
        rw [List.getLast?_cons_cons, List.getLast?_eq_some_getLast (List.cons_ne_nil _ _)]
        rfl

/-- **A node is taken out**, by writing what it points to into the link that points to it. -/
theorem Chain.unlink (h : Chain next head (before ++ a :: after)) :
    match before.getLast? with
    | none => Chain next (next a) (before ++ after)
    | some b => Chain (Function.update next b (next a)) head (before ++ after) := by
  cases hlast : before.getLast? with
  | none =>
    rw [List.getLast?_eq_none_iff.mp hlast] at h ⊢
    exact h.2
  | some b =>
    obtain ⟨first, rfl⟩ := List.getLast?_eq_some_iff.mp hlast
    dsimp only
    rw [List.append_assoc] at h ⊢
    have hnodup := h.nodup
    have hafter := (show Chain next head (first ++ b :: (a :: after)) from h).behind.2
    clear hlast
    induction first generalizing head with
    | nil =>
      refine ⟨h.1, ?_⟩
      rw [Function.update_self]
      refine hafter.congr fun c hc => Function.update_of_ne ?_ ..
      rintro rfl
      exact (List.nodup_cons.mp hnodup).1 (List.mem_cons_of_mem _ hc)
    | cons c first ih =>
      rw [List.cons_append, List.nodup_cons] at hnodup
      refine ⟨h.1, ?_⟩
      have hne : c ≠ b := by
        rintro rfl
        exact hnodup.1 (by simp)
      rw [Function.update_of_ne hne]
      exact ih h.2 hnodup.2

end Links

/-! ## Walks -/

/-- **The loop over the nodes**: the next one is read before a node is visited. -/
def walk (next : σ → ι → Option ι) (visit : σ → ι → σ) : ℕ → Option ι → σ → Except LoopFault σ
  | _, none, s => .ok s
  | 0, some _, _ => .error .endless
  | rounds + 1, some a, s => walk next visit rounds (next s a) (visit s a)

/-- **Every node is visited once**, in order, if a visit leaves the links of the others alone. -/
theorem walk_eq {next : σ → ι → Option ι} {visit : σ → ι → σ}
    (hkeeps : ∀ s a b, b ≠ a → next (visit s a) b = next s b) {s : σ} {start : Option ι}
    {nodes : List ι}
    (h : Chain (next s) start nodes) {rounds : ℕ} (hrounds : nodes.length ≤ rounds) :
    walk next visit rounds start s = .ok (nodes.foldl visit s) := by
  have hnodup := h.nodup
  induction nodes generalizing s start rounds with
  | nil =>
    rw [show start = none from h]
    cases rounds <;> rfl
  | cons a nodes ih =>
    rw [List.nodup_cons] at hnodup
    cases rounds with
    | zero => exact absurd hrounds (Nat.not_succ_le_zero _)
    | succ rounds =>
      have hrest : Chain (next (visit s a)) (next s a) nodes := by
        refine h.2.congr fun b hb => hkeeps s a b ?_
        rintro rfl
        exact hnodup.1 hb
      rw [show start = some a from h.1, walk]
      exact ih hrest (Nat.le_of_succ_le_succ hrounds) hnodup.2

end Machinery
