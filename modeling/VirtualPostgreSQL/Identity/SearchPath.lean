import Mathlib.Data.List.Forall2
import Mathlib.Data.Option.Defs
import VirtualPostgreSQL.Machinery.Ascii
import VirtualPostgreSQL.Machinery.Outcome
import VirtualPostgreSQL.Machinery.Trim
import VirtualPostgreSQL.Identity.Normalize

/-!
# Identity/SearchPath — schema names as PostgreSQL reads them

`splitIdentifierString` reads a list of identifiers as PostgreSQL does: a name is folded to lower
case unless it is quoted, a quoted name keeps its blanks and commas, and blanks around names do not
count.

The identity splits the list at every comma, also inside quotes, and drops the blanks beside it.
Two lists that agree after that have the same names but for those that hold a comma
(`splitIdentifierString_rel`).
-/

namespace Vps

open Machinery

/-! ## Reading the list -/

/-- Where the reader of a list of identifiers stands. -/
inductive SplitMode
  /-- Before a name. -/
  | start
  | unquoted (name : List UInt8)
  | quoted (name : List UInt8)
  /-- After a quote inside or at the end of a quoted name. -/
  | quoteEnd (name : List UInt8)
  /-- Between a name and the next comma. -/
  | afterName
  deriving DecidableEq

/-- The names read so far, and where the reader stands. -/
structure SplitState where
  names : List (List UInt8)
  mode : SplitMode
  deriving DecidableEq

/-- One byte of the list. -/
def splitStep (s : SplitState) (byte : UInt8) : Option SplitState :=
  match s.mode with
  | .start =>
    if isSpace byte then some s
    else if byte = 34 then some ⟨s.names, .quoted []⟩
    else if byte = 44 then none
    else some ⟨s.names, .unquoted [toLower byte]⟩
  | .unquoted name =>
    if byte = 44 then some ⟨s.names ++ [name], .start⟩
    else if isSpace byte then some ⟨s.names ++ [name], .afterName⟩
    else some ⟨s.names, .unquoted (name ++ [toLower byte])⟩
  | .quoted name =>
    if byte = 34 then some ⟨s.names, .quoteEnd name⟩ else some ⟨s.names, .quoted (name ++ [byte])⟩
  | .quoteEnd name =>
    if byte = 34 then some ⟨s.names, .quoted (name ++ [34])⟩
    else if byte = 44 then some ⟨s.names ++ [name], .start⟩
    else if isSpace byte then some ⟨s.names ++ [name], .afterName⟩
    else none
  | .afterName =>
    if isSpace byte then some s else if byte = 44 then some ⟨s.names, .start⟩ else none

/-- The end of the list: a list of blanks is empty. -/
def splitFinish (s : SplitState) : Option (List (List UInt8)) :=
  match s.mode with
  | .start => if s.names = [] then some [] else none
  | .unquoted name | .quoteEnd name => some (s.names ++ [name])
  | .quoted _ => none
  | .afterName => some s.names

/-- The reader from a state on. -/
def splitFrom (s : SplitState) (text : List UInt8) : Option (List (List UInt8)) :=
  (text.foldlM splitStep s).bind splitFinish

/-- **The names of a list of identifiers**, before they are cut to the length of a name. -/
def splitIdentifierString (text : List UInt8) : Option (List (List UInt8)) :=
  splitFrom ⟨[], .start⟩ text

/-- Splitting two texts is splitting one after the other. -/
theorem splitFrom_append (s : SplitState) (text rest : List UInt8) :
    splitFrom s (text ++ rest) = (text.foldlM splitStep s).bind (splitFrom · rest) := by
  rw [splitFrom, List.foldlM_append]
  exact Option.bind_assoc ..

/-! ## Blanks beside commas -/

/-- Names that are equal, or both hold a comma. -/
def SameButComma (name name' : List UInt8) : Prop := name = name' ∨ 44 ∈ name ∧ 44 ∈ name'

theorem SameButComma.append {name name' : List UInt8} (h : SameButComma name name')
    (text : List UInt8) : SameButComma (name ++ text) (name' ++ text) := by
  obtain rfl | ⟨h, h'⟩ := h
  · exact .inl rfl
  · exact .inr ⟨List.mem_append_left _ h, List.mem_append_left _ h'⟩

/-- Modes that differ in a quoted name with a comma only. -/
inductive SplitMode.Rel : SplitMode → SplitMode → Prop
  | start : Rel .start .start
  | afterName : Rel .afterName .afterName
  | unquoted (name : List UInt8) : Rel (.unquoted name) (.unquoted name)
  | quoted {name name' : List UInt8} (h : SameButComma name name') :
    Rel (.quoted name) (.quoted name')
  | quoteEnd {name name' : List UInt8} (h : SameButComma name name') :
    Rel (.quoteEnd name) (.quoteEnd name')

/-- States that differ in names with a comma only. -/
structure SplitState.Rel (s s' : SplitState) : Prop where
  names : List.Forall₂ SameButComma s.names s'.names
  mode : s.mode.Rel s'.mode

/-- States between two commas: a quoted name is read on after one. -/
structure SplitState.RelAtComma (s s' : SplitState) : Prop extends s.Rel s' where
  comma : ∀ name name', s.mode = .quoted name → s'.mode = .quoted name' → 44 ∈ name ∧ 44 ∈ name'
  between : s.mode = .start ∨ ∃ name, s.mode = .quoted name

theorem forall₂_concat {α β : Type*} {R : α → β → Prop} {l : List α} {l' : List β} {a : α} {b : β}
    (h : List.Forall₂ R l l') (hab : R a b) : List.Forall₂ R (l ++ [a]) (l' ++ [b]) :=
  List.rel_append h (.cons hab .nil)

/-- Splits that are the same but for commas stay so. -/
theorem splitStep_rel {s s' : SplitState} (h : s.Rel s') (byte : UInt8) :
    Option.Rel SplitState.Rel (splitStep s byte) (splitStep s' byte) := by
  obtain ⟨names, mode⟩ := s
  obtain ⟨names', mode'⟩ := s'
  obtain ⟨hnames, hmode⟩ := h
  cases hmode with
  | start =>
    simp only [splitStep]
    split_ifs
    · exact .some ⟨hnames, .start⟩
    · exact .some ⟨hnames, .quoted (.inl rfl)⟩
    · exact .none
    · exact .some ⟨hnames, .unquoted _⟩
  | afterName =>
    simp only [splitStep]
    split_ifs
    · exact .some ⟨hnames, .afterName⟩
    · exact .some ⟨hnames, .start⟩
    · exact .none
  | unquoted name =>
    simp only [splitStep]
    split_ifs
    · exact .some ⟨forall₂_concat hnames (.inl rfl), .start⟩
    · exact .some ⟨forall₂_concat hnames (.inl rfl), .afterName⟩
    · exact .some ⟨hnames, .unquoted _⟩
  | quoted hname =>
    simp only [splitStep]
    split_ifs
    · exact .some ⟨hnames, .quoteEnd hname⟩
    · exact .some ⟨hnames, .quoted (hname.append _)⟩
  | quoteEnd hname =>
    simp only [splitStep]
    split_ifs
    · exact .some ⟨hnames, .quoted (hname.append _)⟩
    · exact .some ⟨forall₂_concat hnames hname, .start⟩
    · exact .some ⟨forall₂_concat hnames hname, .afterName⟩
    · exact .none

/-- …to their end. -/
theorem splitFinish_rel {s s' : SplitState} (h : s.Rel s') :
    Option.Rel (List.Forall₂ SameButComma) (splitFinish s) (splitFinish s') := by
  obtain ⟨names, mode⟩ := s
  obtain ⟨names', mode'⟩ := s'
  obtain ⟨hnames, hmode⟩ := h
  cases hmode with
  | start =>
    cases hnames with
    | nil => exact .some .nil
    | cons => exact .none
  | afterName => exact .some hnames
  | unquoted name => exact .some (forall₂_concat hnames (.inl rfl))
  | quoted => exact .none
  | quoteEnd hname => exact .some (forall₂_concat hnames hname)

/-! ## One item -/

/-- Blanks. -/
def Blank (text : List UInt8) : Prop := ∀ byte ∈ text, isBlank byte = true

theorem isSpace_of_isBlank {byte : UInt8} (h : isBlank byte = true) :
    isSpace byte = true ∧ byte ≠ 34 ∧ byte ≠ 44 := by
  simp only [isBlank, Bool.or_eq_true, beq_iff_eq] at h
  obtain rfl | rfl := h <;> decide

/-- Blanks between names are skipped. -/
theorem foldlM_blank_between {blanks : List UInt8} (h : Blank blanks) {s : SplitState}
    (hmode : s.mode = .start ∨ s.mode = .afterName) : blanks.foldlM splitStep s = some s := by
  induction blanks with
  | nil => rfl
  | cons byte blanks ih =>
    obtain ⟨hspace, -, -⟩ := isSpace_of_isBlank (h byte List.mem_cons_self)
    have hstep : splitStep s byte = some s := by
      obtain hmode | hmode := hmode <;> simp [splitStep, hmode, hspace]
    rw [List.foldlM_cons, hstep]
    exact ih fun b hb => h b (List.mem_cons_of_mem _ hb)

/-- Blanks inside of quotes belong to the name. -/
theorem foldlM_blank_quoted {blanks : List UInt8} (h : Blank blanks) (names : List (List UInt8))
    (name : List UInt8) :
    blanks.foldlM splitStep ⟨names, .quoted name⟩ = some ⟨names, .quoted (name ++ blanks)⟩ := by
  induction blanks generalizing name with
  | nil => simp
  | cons byte blanks ih =>
    obtain ⟨-, hquote, -⟩ := isSpace_of_isBlank (h byte List.mem_cons_self)
    rw [List.foldlM_cons, splitStep]
    simp only [if_neg hquote]
    rw [show name ++ byte :: blanks = name ++ [byte] ++ blanks by simp]
    exact ih (fun b hb => h b (List.mem_cons_of_mem _ hb)) _

/-- Blanks after a name end it, and it stays the last one. -/
theorem foldlM_blank_named {blanks : List UInt8} (h : Blank blanks) {names : List (List UInt8)}
    {name : List UInt8} {mode : SplitMode} (hmode : mode = .unquoted name ∨ mode = .quoteEnd name) :
    blanks.foldlM splitStep ⟨names, mode⟩ =
      some (if blanks = [] then ⟨names, mode⟩ else ⟨names ++ [name], .afterName⟩) := by
  cases blanks with
  | nil => rfl
  | cons byte blanks =>
    obtain ⟨hspace, hquote, hcomma⟩ := isSpace_of_isBlank (h byte List.mem_cons_self)
    have hrest : Blank blanks := fun b hb => h b (List.mem_cons_of_mem _ hb)
    have hstep : splitStep ⟨names, mode⟩ byte = some ⟨names ++ [name], .afterName⟩ := by
      obtain rfl | rfl := hmode <;> simp [splitStep, hspace, hquote, hcomma]
    rw [List.foldlM_cons, hstep, if_neg (List.cons_ne_nil _ _)]
    exact foldlM_blank_between hrest (.inr rfl)

/-- Blanks outside of quotes do not change how the list ends, or goes on at a comma. -/
theorem foldlM_blank_outside {blanks : List UInt8} (h : Blank blanks) {s : SplitState}
    (hmode : ∀ name, s.mode ≠ .quoted name) :
    ∃ s', blanks.foldlM splitStep s = some s' ∧ splitFinish s' = splitFinish s ∧
      splitStep s' 44 = splitStep s 44 := by
  obtain ⟨names, mode⟩ := s
  cases mode with
  | start => exact ⟨_, foldlM_blank_between h (.inl rfl), rfl, rfl⟩
  | afterName => exact ⟨_, foldlM_blank_between h (.inr rfl), rfl, rfl⟩
  | quoted name => exact absurd rfl (hmode name)
  | unquoted name =>
    refine ⟨_, foldlM_blank_named h (.inl rfl), ?_, ?_⟩
    all_goals split <;> rfl
  | quoteEnd name =>
    refine ⟨_, foldlM_blank_named h (.inr rfl), ?_, ?_⟩
    all_goals split <;> rfl

/-- Blanks before the end of the list do not count. -/
theorem splitFrom_blank {blanks : List UInt8} (h : Blank blanks) (s : SplitState) :
    splitFrom s blanks = splitFinish s := by
  unfold splitFrom
  by_cases hquoted : ∃ name, s.mode = .quoted name
  · obtain ⟨name, hname⟩ := hquoted
    obtain ⟨names, mode⟩ := s
    cases hname
    rw [foldlM_blank_quoted h]
    rfl
  · obtain ⟨s', hblanks, hfinish, -⟩ := foldlM_blank_outside h (not_exists.mp hquoted)
    rw [hblanks]
    exact hfinish

/-- Blanks before a comma count inside quotes only. -/
theorem foldlM_blank_comma {blanks : List UInt8} (h : Blank blanks) (s : SplitState) :
    (blanks ++ [44]).foldlM splitStep s =
      match s.mode with
      | .quoted name => some ⟨s.names, .quoted (name ++ blanks ++ [44])⟩
      | _ => splitStep s 44 := by
  rw [List.foldlM_append]
  split
  · rename_i name hname
    obtain ⟨names, mode⟩ := s
    cases hname
    rw [foldlM_blank_quoted h]
    rfl
  · rename_i hquoted
    obtain ⟨s', hblanks, -, hcomma⟩ := foldlM_blank_outside h hquoted
    rw [hblanks, ← hcomma, Option.bind_eq_bind, Option.bind_some, List.foldlM_cons]
    exact Option.bind_fun_some _

/-- Related states stay related to the next comma, whatever blanks stand before it. -/
theorem foldlM_blank_comma_rel {blanks blanks' : List UInt8} (h : Blank blanks) (h' : Blank blanks')
    {s s' : SplitState} (hs : s.Rel s') :
    Option.Rel SplitState.RelAtComma ((blanks ++ [44]).foldlM splitStep s)
      ((blanks' ++ [44]).foldlM splitStep s') := by
  rw [foldlM_blank_comma h, foldlM_blank_comma h']
  obtain ⟨names, mode⟩ := s
  obtain ⟨names', mode'⟩ := s'
  obtain ⟨hnames, hmode⟩ := hs
  cases hmode with
  | start => exact .none
  | afterName => exact .some ⟨⟨hnames, .start⟩, by simp, .inl rfl⟩
  | unquoted name =>
    exact .some ⟨⟨forall₂_concat hnames (.inl rfl), .start⟩, by simp, .inl rfl⟩
  | quoted hname =>
    refine .some ⟨⟨hnames, .quoted (.inr ⟨by simp, by simp⟩)⟩, ?_, .inr ⟨_, rfl⟩⟩
    rintro name name' ⟨⟩ ⟨⟩
    simp
  | quoteEnd hname => exact .some ⟨⟨forall₂_concat hnames hname, .start⟩, by simp, .inl rfl⟩

/-- Related states stay related over the blanks after a comma. -/
theorem foldlM_blank_rel {blanks blanks' : List UInt8} (h : Blank blanks) (h' : Blank blanks')
    {s s' : SplitState} (hs : s.RelAtComma s') :
    Option.Rel SplitState.Rel (blanks.foldlM splitStep s) (blanks'.foldlM splitStep s') := by
  obtain ⟨names, mode⟩ := s
  obtain ⟨names', mode'⟩ := s'
  obtain ⟨⟨hnames, hmode⟩, hcomma, hbetween⟩ := hs
  cases hmode with
  | start =>
    rw [foldlM_blank_between h (.inl rfl), foldlM_blank_between h' (.inl rfl)]
    exact .some ⟨hnames, .start⟩
  | quoted hname =>
    obtain ⟨hleft, hright⟩ := hcomma _ _ rfl rfl
    rw [foldlM_blank_quoted h, foldlM_blank_quoted h']
    exact .some ⟨hnames, .quoted
      (.inr ⟨List.mem_append_left _ hleft, List.mem_append_left _ hright⟩)⟩
  | _ => simp at hbetween

/-! ## The list -/

theorem blank_margins (item : List UInt8) :
    Blank (margins isBlank item).1 ∧ Blank (margins isBlank item).2 :=
  ⟨fun _ h => mem_margins_fst isBlank h, fun _ h => mem_margins_snd isBlank h⟩

/-- An item and what follows it: the blanks at its end may be read with what follows. -/
theorem splitFrom_item_rel {item item' rest rest' : List UInt8}
    (htrim : trim isBlank item = trim isBlank item') {s s' : SplitState} (hs : s.RelAtComma s')
    (hrest : ∀ blanks blanks' w w', Blank blanks → Blank blanks' → w.Rel w' →
      Option.Rel (List.Forall₂ SameButComma) (splitFrom w (blanks ++ rest))
        (splitFrom w' (blanks' ++ rest'))) :
    Option.Rel (List.Forall₂ SameButComma) (splitFrom s (item ++ rest))
      (splitFrom s' (item' ++ rest')) := by
  rw [← margins_fst_append_trim isBlank item, ← margins_fst_append_trim isBlank item', ← htrim]
  simp only [List.append_assoc]
  rw [splitFrom_append s, splitFrom_append s']
  refine rel_bind (foldlM_blank_rel (blank_margins item).1 (blank_margins item').1 hs) ?_
  intro v v' hv
  rw [splitFrom_append v, splitFrom_append v']
  refine rel_bind (rel_foldlM (fun _ _ byte h => splitStep_rel h byte) _ hv) ?_
  exact fun w w' hw => hrest _ _ w w' (blank_margins item).2 (blank_margins item').2 hw

/-- **Lists that agree but for the blanks beside commas** have the same names, but for those that
hold a comma. -/
theorem splitFrom_rel {items items' : List (List UInt8)}
    (h : List.Forall₂ (fun item item' => trim isBlank item = trim isBlank item') items items')
    (hne : items ≠ []) {s s' : SplitState} (hs : s.RelAtComma s') :
    Option.Rel (List.Forall₂ SameButComma) (splitFrom s ([44].intercalate items))
      (splitFrom s' ([44].intercalate items')) := by
  induction h generalizing s s' with
  | nil => exact absurd rfl hne
  | @cons item item' items items' htrim hrest ih =>
    cases hrest with
    | nil =>
      have hlast : Option.Rel (List.Forall₂ SameButComma) (splitFrom s (item ++ []))
          (splitFrom s' (item' ++ [])) := by
        refine splitFrom_item_rel htrim hs fun blanks blanks' w w' hb hb' hw => ?_
        rw [List.append_nil, List.append_nil, splitFrom_blank hb, splitFrom_blank hb']
        exact splitFinish_rel hw
      simpa using hlast
    | cons hnext hrest =>
      rw [List.intercalate_cons_cons, List.intercalate_cons_cons, List.append_assoc,
        List.append_assoc]
      refine splitFrom_item_rel htrim hs fun blanks blanks' w w' hb hb' hw => ?_
      rw [← List.append_assoc, ← List.append_assoc, splitFrom_append w, splitFrom_append w']
      exact rel_bind (foldlM_blank_comma_rel hb hb' hw) fun v v' hv =>
        ih (List.cons_ne_nil _ _) hv

/-- **Items that are trimmed alike are split alike**, up to the blanks around commas in quotes. -/
theorem splitIdentifierString_rel {text text' : List UInt8}
    (h : List.Forall₂ (fun item item' => trim isBlank item = trim isBlank item') (text.splitOn 44)
      (text'.splitOn 44)) :
    Option.Rel (List.Forall₂ SameButComma) (splitIdentifierString text)
      (splitIdentifierString text') := by
  have hstart : SplitState.RelAtComma ⟨[], .start⟩ ⟨[], .start⟩ :=
    ⟨⟨.nil, .start⟩, by simp, .inl rfl⟩
  have hrel := splitFrom_rel h (List.splitOn_ne_nil 44 text) hstart
  rwa [List.intercalate_splitOn, List.intercalate_splitOn] at hrel

/-! ## Schema names -/

/-- The last place not after the given one where a character starts. -/
def clipLength (name : List UInt8) : ℕ → ℕ
  | 0 => 0
  | n + 1 => if name[n + 1]?.any isUtf8Tail then clipLength name n else n + 1

/-- `truncate_identifier`: a name has at most 63 bytes. -/
def truncateIdentifier (name : List UInt8) : List UInt8 :=
  if name.length ≤ 63 then name else name.take (clipLength name 63)

/-- **The schema names of a search path.** -/
def schemaNames (text : List UInt8) : Option (List (List UInt8)) :=
  (splitIdentifierString text).map (·.map truncateIdentifier)

/-- The schema names that hold a comma. -/
def commaNames (text : List UInt8) : Option (List (List UInt8)) :=
  (splitIdentifierString text).map fun names =>
    (names.filter (List.elem 44 ·)).map truncateIdentifier

/-- Names that are the same but for commas agree just when those with a comma do. -/
theorem map_eq_iff_of_sameButComma {γ : Type*} (f : List UInt8 → γ)
    {names names' : List (List UInt8)} (h : List.Forall₂ SameButComma names names') :
    names.map f = names'.map f ↔
      (names.filter (List.elem 44 ·)).map f = (names'.filter (List.elem 44 ·)).map f := by
  induction h with
  | nil => rfl
  | @cons name name' names names' hname hrest ih =>
    obtain rfl | ⟨h, h'⟩ := hname
    · by_cases hcomma : List.elem 44 name = true
      · simp only [List.filter_cons, hcomma, if_true, List.map_cons, List.cons.injEq, true_and, ih]
      · simp only [List.filter_cons, hcomma, List.map_cons, List.cons.injEq, true_and, ih]
        simp
    · simp [h, h', ih]

/-- **Search paths that the identity does not tell apart** have the same names exactly when the
names that hold a comma are the same. -/
theorem schemaNames_eq_iff {text text' : List UInt8}
    (h : List.Forall₂ (fun item item' => trim isBlank item = trim isBlank item') (text.splitOn 44)
      (text'.splitOn 44)) :
    schemaNames text = schemaNames text' ↔ commaNames text = commaNames text' := by
  have hrel := splitIdentifierString_rel h
  unfold schemaNames commaNames
  generalize splitIdentifierString text = names at hrel ⊢
  generalize splitIdentifierString text' = names' at hrel ⊢
  cases hrel with
  | none => simp
  | some hnames =>
    simpa using map_eq_iff_of_sameButComma truncateIdentifier hnames

end Vps
