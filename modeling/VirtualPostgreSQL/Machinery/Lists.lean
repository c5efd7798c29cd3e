import Mathlib.Data.List.Forall2
import Mathlib.Data.List.Nodup
import VirtualPostgreSQL.Machinery.Outcome

/-!
# Machinery/Lists — lists related entry by entry

Membership in a list that is related entry by entry to another one: what a loop that translates a
list leaves behind, read from either end; and what a loop leaves that keeps the better of two.
-/

namespace Machinery

universe u v

variable {α : Type u} {β : Type v} {R : α → β → Prop}

/-- An entry on the left has its partner on the right. -/
theorem forall₂_exists_right {a : α} :
    ∀ {l : List α} {m : List β}, List.Forall₂ R l m → a ∈ l → ∃ b ∈ m, R a b
  | _, _, .cons (b := b) hab hrest, hmem => by
    rcases List.mem_cons.mp hmem with rfl | hmem
    · exact ⟨b, List.mem_cons_self, hab⟩
    · obtain ⟨b', hb', hr⟩ := forall₂_exists_right hrest hmem
      exact ⟨b', List.mem_cons_of_mem b hb', hr⟩

/-- An entry on the right has its partner on the left. -/
theorem forall₂_exists_left {b : β} {l : List α} {m : List β} (h : List.Forall₂ R l m)
    (hmem : b ∈ m) : ∃ a ∈ l, R a b :=
  forall₂_exists_right h.flip hmem

/-- Keys that agree entry by entry agree as lists. -/
theorem map_eq_map_of_forall₂ {γ : Type*} {f : α → γ} {g : β → γ} {l : List α} {m : List β}
    (h : List.Forall₂ R l m) (hkey : ∀ a b, R a b → f a = g b) : l.map f = m.map g := by
  have hkeys : List.Forall₂ (· = ·) (l.map f) (m.map g) :=
    List.forall₂_map_left_iff.mpr (List.forall₂_map_right_iff.mpr (h.imp hkey))
  rwa [List.forall₂_eq_eq_eq] at hkeys

/-- Where two keys tell related entries apart alike, they tell the lists apart alike. -/
theorem map_eq_map_iff_of_forall₂ {γ δ : Type*} {S : α → α → Prop} {f : α → γ} {g : α → δ}
    (hkey : ∀ a b, S a b → (f a = f b ↔ g a = g b)) :
    ∀ {l m : List α}, List.Forall₂ S l m → (l.map f = m.map f ↔ l.map g = m.map g)
  | _, _, .nil => by simp
  | _, _, .cons hab hrest => by
    simp only [List.map_cons, List.cons.injEq, hkey _ _ hab, map_eq_map_iff_of_forall₂ hkey hrest]

/-- Lists related to one list, entry by entry, meet in its entries. -/
theorem forall₂_meet {γ : Type*} {S : γ → β → Prop} :
    ∀ {l : List α} {l' : List γ} {m : List β}, List.Forall₂ R l m → List.Forall₂ S l' m →
      List.Forall₂ (fun a c => ∃ b, R a b ∧ S c b) l l'
  | _, _, _, .nil, .nil => .nil
  | _, _, _, .cons h hrest, .cons h' hrest' => .cons ⟨_, h, h'⟩ (forall₂_meet hrest hrest')

/-! ## Reading a list entry by entry -/

section MapM

variable {γ : Type u} {f : α → Option γ}

theorem forall₂_of_mapM : ∀ {l : List α} {r : List γ}, l.mapM f = some r →
    List.Forall₂ (fun a b => f a = some b) l r
  | [], r, h => by
    cases h
    exact .nil
  | a :: l, r, h => by
    simp only [List.mapM_cons, Option.bind_eq_bind, Option.bind_eq_some_iff] at h
    obtain ⟨b, hb, r', hr, h⟩ := h
    cases h
    exact .cons hb (forall₂_of_mapM hr)

/-- The whole list is read exactly when every entry is. -/
theorem exists_mapM_iff : ∀ {l : List α}, (∃ r, l.mapM f = some r) ↔ ∀ a ∈ l, ∃ b, f a = some b
  | [] => ⟨fun _ _ h => (List.not_mem_nil h).elim, fun _ => ⟨[], rfl⟩⟩
  | a :: l => by
    have ih := exists_mapM_iff (l := l)
    simp only [List.mapM_cons, Option.bind_eq_bind, Option.bind_eq_some_iff, List.forall_mem_cons,
      ← ih]
    constructor
    · rintro ⟨_, b, hb, r, hr, -⟩
      exact ⟨⟨b, hb⟩, r, hr⟩
    · rintro ⟨⟨b, hb⟩, r, hr⟩
      exact ⟨b :: r, b, hb, r, hr, rfl⟩

end MapM

/-- **A loop that collects entries with keys of their own**, up to a number of them. -/
theorem foldlM_collect_iff {ε κ : Type*} {step : List β → α → Except ε (List β)}
    {Reads : α → β → Prop} {key : β → κ} {cap : ℕ}
    {as : List α} (hstep : ∀ a ∈ as, ∀ found next, step found a = .ok next ↔
      found.length < cap ∧ ∃ b, next = found ++ [b] ∧ Reads a b ∧ key b ∉ found.map key)
    {found result : List β} (hnodup : (found.map key).Nodup) (hcap : found.length ≤ cap) :
    as.foldlM step found = .ok result ↔
      ∃ added, result = found ++ added ∧ List.Forall₂ Reads as added ∧ (result.map key).Nodup ∧
        result.length ≤ cap := by
  induction as generalizing found with
  | nil =>
    constructor
    · intro h
      cases h
      exact ⟨[], (List.append_nil _).symm, .nil, hnodup, hcap⟩
    · rintro ⟨added, rfl, hadded, -, -⟩
      cases hadded
      rw [List.append_nil]
      rfl
  | cons a as ih =>
    have hnext : ∀ b, key b ∉ found.map key → ((found ++ [b]).map key).Nodup := fun b hb => by
      rw [List.map_append, List.map_singleton, List.nodup_append_comm]
      exact List.nodup_cons.mpr ⟨hb, hnodup⟩
    obtain ⟨hfirstStep, hrestStep⟩ := List.forall_mem_cons.mp hstep
    replace ih := @ih hrestStep
    rw [List.foldlM_cons, bind_eq_ok_iff]
    constructor
    · rintro ⟨next, hfirst, hrest⟩
      obtain ⟨hroom, b, rfl, hreads, hfresh⟩ := (hfirstStep _ _).mp hfirst
      obtain ⟨added, rfl, hadded, hkeys, hlength⟩ := (ih (hnext b hfresh) (by simp; omega)).mp hrest
      exact ⟨b :: added, by simp, .cons hreads hadded, hkeys, hlength⟩
    · rintro ⟨added, rfl, hadded, hkeys, hlength⟩
      cases hadded with
      | @cons _ b _ added hreads hadded =>
        have hfresh : key b ∉ found.map key := fun hmem => by
          rw [List.map_append, List.nodup_append] at hkeys
          exact hkeys.2.2 _ hmem _ (by simp) rfl
        rw [List.length_append, List.length_cons] at hlength
        refine ⟨found ++ [b], (hfirstStep _ _).mpr ⟨by omega, b, rfl, hreads, hfresh⟩, ?_⟩
        refine (ih (hnext b hfresh) (by simp; omega)).mpr ⟨added, by simp, hadded, hkeys, ?_⟩
        rw [List.length_append, List.length_cons]
        omega

/-! ## Splitting at a separator -/

/-- No part has a separator in it. -/
theorem not_of_mem_splitOnP {γ : Type*} {p : γ → Bool} {l part : List γ}
    (h : part ∈ l.splitOnP p) : ∀ a ∈ part, p a = false := by
  induction l generalizing part with
  | nil => simp_all
  | cons a l ih =>
    rw [List.splitOnP_cons_eq_if_modifyHead] at h
    split at h
    · obtain rfl | h := List.mem_cons.1 h
      · simp
      · exact ih h
    · rename_i hsep
      cases hparts : l.splitOnP p with
      | nil => simp [hparts] at h
      | cons first parts =>
        rw [hparts, List.modifyHead_cons] at h
        obtain rfl | h := List.mem_cons.1 h
        · have hfirst := ih (hparts ▸ List.mem_cons_self)
          exact List.forall_mem_cons.mpr ⟨by simpa using hsep, hfirst⟩
        · exact ih (hparts ▸ List.mem_cons_of_mem _ h)

theorem not_mem_of_mem_splitOn {γ : Type*} [DecidableEq γ] {sep : γ} {l part : List γ}
    (h : part ∈ l.splitOn sep) : sep ∉ part := fun hmem => by
  rw [List.splitOn_eq_splitOnP] at h
  simpa using not_of_mem_splitOnP h sep hmem

theorem intercalate_cons_flatMap {γ : Type*} (sep : γ) (part : List γ) (parts : List (List γ)) :
    [sep].intercalate (part :: parts) = part ++ parts.flatMap (sep :: ·) := by
  induction parts generalizing part with
  | nil => simp
  | cons next parts ih =>
    rw [List.intercalate_cons_cons, ih, List.flatMap_cons]
    simp

/-- The last part is empty behind a separator only. -/
theorem getLast?_of_splitOn {γ : Type*} [DecidableEq γ] {sep : γ} {l : List γ}
    (h : (l.splitOn sep).getLast? = some []) : l = [] ∨ l.getLast? = some sep := by
  induction l with
  | nil => exact .inl rfl
  | cons a l ih =>
    refine .inr ?_
    rw [List.splitOn_cons_eq_if_modifyHead] at h
    cases hparts : l.splitOn sep with
    | nil => exact absurd hparts (List.splitOn_ne_nil sep l)
    | cons first parts =>
      rw [hparts] at h ih
      have hlast : l ≠ [] → l.getLast? = some sep → (a :: l).getLast? = some sep := fun hne hl => by
        rw [List.getLast?_cons_of_ne_nil hne, hl]
      split at h
      next hsep =>
        rcases eq_or_ne l [] with rfl | hne
        · rw [beq_iff_eq.mp hsep]
          rfl
        · rw [List.getLast?_cons_cons] at h
          exact hlast hne ((ih h).resolve_left hne)
      next hsep =>
        rw [List.modifyHead_cons] at h
        cases parts with
        | nil => cases h
        | cons second parts =>
          rw [List.getLast?_cons_cons] at h ih
          have hne : l ≠ [] := by
            rintro rfl
            cases hparts
          exact hlast hne ((ih h).resolve_left hne)

/-- What is in a part is in the parts joined. -/
theorem mem_intercalate_of_mem {γ : Type*} {sep a : γ} {part : List γ} {parts : List (List γ)}
    (hpart : part ∈ parts) (ha : a ∈ part) : a ∈ [sep].intercalate parts := by
  cases parts with
  | nil => exact absurd hpart List.not_mem_nil
  | cons first parts =>
    rw [intercalate_cons_flatMap, List.mem_append, List.mem_flatMap]
    rcases List.mem_cons.mp hpart with rfl | hpart
    · exact .inl ha
    · exact .inr ⟨part, hpart, List.mem_cons_of_mem _ ha⟩

theorem mem_of_mem_intercalate {γ : Type*} {sep a : γ} {parts : List (List γ)}
    (h : a ∈ [sep].intercalate parts) : a = sep ∨ ∃ part ∈ parts, a ∈ part := by
  cases parts with
  | nil => exact absurd h List.not_mem_nil
  | cons first parts =>
    rw [intercalate_cons_flatMap, List.mem_append, List.mem_flatMap] at h
    rcases h with h | ⟨part, hpart, h⟩
    · exact .inr ⟨first, List.mem_cons_self, h⟩
    · rcases List.mem_cons.mp h with rfl | h
      · exact .inl rfl
      · exact .inr ⟨part, List.mem_cons_of_mem _ hpart, h⟩

/-- Parts without the separator can be told apart when they are joined by it. -/
theorem intercalate_inj {γ : Type*} [DecidableEq γ] {sep : γ} {parts parts' : List (List γ)}
    (h : ∀ part ∈ parts, sep ∉ part) (h' : ∀ part ∈ parts', sep ∉ part) (hne : parts ≠ [])
    (hne' : parts' ≠ []) (heq : [sep].intercalate parts = [sep].intercalate parts') :
    parts = parts' := by
  rw [← List.splitOn_intercalate sep h hne, ← List.splitOn_intercalate sep h' hne', heq]

/-- The entries of related lists at one place are related. -/
theorem forall₂_getElem? {a : α} : ∀ {l : List α} {m : List β} {i : ℕ}, List.Forall₂ R l m →
    l[i]? = some a → ∃ b, m[i]? = some b ∧ R a b
  | _, _, 0, .cons (b := b) hab _, h => by
    cases h
    exact ⟨b, rfl, hab⟩
  | _, _, i + 1, .cons _ hrest, h => by
    rw [List.getElem?_cons_succ] at h
    obtain ⟨b, hb, hr⟩ := forall₂_getElem? hrest h
    exact ⟨b, by rwa [List.getElem?_cons_succ], hr⟩

/-! ## Taking out the first element found -/

/-- The first element found and the list without it are the list, in another order. -/
theorem perm_eraseP_of_find? {α : Type*} {p : α → Bool} {l : List α} {a : α}
    (h : l.find? p = some a) : l.Perm (a :: l.eraseP p) := by
  obtain ⟨hpos, before, after, rfl, hbefore⟩ := List.find?_eq_some_iff_append.mp h
  rw [List.eraseP_append_right _ (fun b hb => by simpa using hbefore b hb),
    List.eraseP_cons_of_pos hpos]
  exact List.perm_middle

/-! ## A loop in another order -/

/-- **Steps that can be swapped**: what a loop comes to does not depend on the order. -/
theorem foldlM_ok_perm {ε : Type*} {α β : Type*} {f : β → α → Except ε β}
    (hswap : ∀ b x y c, (f b x >>= (f · y)) = .ok c → (f b y >>= (f · x)) = .ok c) {l l' : List α}
    (h : l.Perm l') : ∀ {b c : β}, l.foldlM f b = .ok c ↔ l'.foldlM f b = .ok c := by
  induction h with
  | nil => exact Iff.rfl
  | cons a _ ih =>
    intro b c
    rw [List.foldlM_cons, List.foldlM_cons, bind_eq_ok_iff, bind_eq_ok_iff]
    exact exists_congr fun b' => and_congr_right fun _ => ih
  | swap x y l =>
    have hone (b c : β) (x y : α) (h : (x :: y :: l).foldlM f b = .ok c) :
        (y :: x :: l).foldlM f b = .ok c := by
      simp only [List.foldlM_cons] at h ⊢
      rw [← bind_assoc] at h ⊢
      obtain ⟨b', hboth, hrest⟩ := ok_of_bind h
      rw [hswap b x y b' hboth]
      exact hrest
    exact fun {b c} => ⟨hone b c y x, hone b c x y⟩
  | trans _ _ ih ih' => exact fun {b c} => ih.trans ih'

/-! ## A function that changes at one place -/

/-- What one place contributes, and what the others do. -/
theorem exists_flatMap_update {ι : Type*} [DecidableEq ι] {l : List ι} (hl : l.Nodup) {i : ι}
    (hi : i ∈ l) (f : ι → α) (g : α → List β) :
    ∃ rest, ∀ a, (l.flatMap fun j => g (Function.update f i a j)).Perm (g a ++ rest) := by
  obtain ⟨before, after, rfl⟩ := List.append_of_mem hi
  have hsame {m : List ι} (hm : i ∉ m) (a : α) :
      (m.flatMap fun j => g (Function.update f i a j)) = m.flatMap fun j => g (f j) := by
    refine List.flatMap_congr fun j hj => ?_
    rw [Function.update_of_ne (ne_of_mem_of_not_mem hj hm)]
  have hbefore : i ∉ before := fun hmem =>
    (List.nodup_append.mp hl).2.2 i hmem i List.mem_cons_self rfl
  have hafter : i ∉ after := (List.nodup_cons.mp (List.nodup_append.mp hl).2.1).1
  refine ⟨(before.flatMap fun j => g (f j)) ++ after.flatMap fun j => g (f j), fun a => ?_⟩
  rw [List.flatMap_append, List.flatMap_cons, hsame hbefore, hsame hafter, Function.update_self,
    ← List.append_assoc, ← List.append_assoc]
  exact List.perm_append_comm.append_right _

/-! ## The best entry of a list -/

section Better

variable {beats : α → α → Prop} [DecidableRel beats]

/-- The newcomer stays unless it is beaten. -/
def better (beats : α → α → Prop) [DecidableRel beats] (best newcomer : α) : α :=
  if beats best newcomer then best else newcomer

theorem better_cases (beats : α → α → Prop) [DecidableRel beats] (best newcomer : α) :
    (beats best newcomer ∧ better beats best newcomer = best) ∨
      (¬beats best newcomer ∧ better beats best newcomer = newcomer) := by
  by_cases h : beats best newcomer
  · exact .inl ⟨h, if_pos h⟩
  · exact .inr ⟨h, if_neg h⟩

/-- **The entry that is left**: it is one of the list, and none of the list beats it. -/
theorem foldl_better (hirrefl : ∀ a, ¬beats a a) (hasymm : ∀ a b, beats a b → ¬beats b a)
    (htrans : ∀ a b c, ¬beats a b → ¬beats b c → ¬beats a c) (l : List α) (best : α) :
    l.foldl (better beats) best ∈ best :: l ∧
      ∀ a ∈ best :: l, ¬beats a (l.foldl (better beats) best) := by
  induction l generalizing best with
  | nil => simpa using hirrefl best
  | cons newcomer l ih =>
    obtain ⟨hmem, hbest⟩ := ih (better beats best newcomer)
    rw [List.foldl_cons]
    obtain ⟨hbeats, hkeep⟩ | ⟨hbeats, hkeep⟩ := better_cases beats best newcomer
    all_goals
      rw [hkeep] at hmem hbest ⊢
    · refine ⟨?_, ?_⟩
      · obtain hmem | hmem := List.mem_cons.1 hmem
        · exact List.mem_cons.2 (.inl hmem)
        · exact List.mem_cons_of_mem _ (List.mem_cons_of_mem _ hmem)
      · intro a ha
        obtain rfl | ha := List.mem_cons.1 ha
        · exact hbest a List.mem_cons_self
        obtain rfl | ha := List.mem_cons.1 ha
        · exact htrans a best _ (hasymm _ _ hbeats) (hbest best List.mem_cons_self)
        · exact hbest a (List.mem_cons_of_mem _ ha)
    · refine ⟨List.mem_cons_of_mem _ hmem, ?_⟩
      intro a ha
      obtain rfl | ha := List.mem_cons.1 ha
      · exact htrans a newcomer _ hbeats (hbest newcomer List.mem_cons_self)
      · exact hbest a ha

end Better

/-! ## Numbers that are handed out -/

/-- The numbers are the ones handed out while a counter goes from `a` to `b`, in order. -/
def Counts (a b : ℕ) (numbers : List ℕ) : Prop :=
  a ≤ b ∧ numbers = List.range' (a + 1) (b - a)

namespace Counts

variable {a b c : ℕ} {numbers more : List ℕ}

theorem nil (a : ℕ) : Counts a a [] := ⟨Nat.le_refl a, by rw [Nat.sub_self]; rfl⟩

theorem one (a : ℕ) : Counts a (a + 1) [a + 1] :=
  ⟨Nat.le_succ a, by rw [Nat.add_sub_cancel_left]; rfl⟩

theorem append (h : Counts a b numbers) (h' : Counts b c more) : Counts a c (numbers ++ more) := by
  have hab : a ≤ b := h.1
  have hbc : b ≤ c := h'.1
  refine ⟨Nat.le_trans hab hbc, ?_⟩
  rw [h.2, h'.2, show b + 1 = a + 1 + (b - a) by omega, List.range'_append_1,
    show b - a + (c - b) = c - a by omega]

end Counts

end Machinery
