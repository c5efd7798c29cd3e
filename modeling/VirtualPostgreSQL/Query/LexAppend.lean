import VirtualPostgreSQL.Query.LexCut
import VirtualPostgreSQL.Query.ScanAgreement

/-!
# Query/LexAppend — lexing past the end of a text

What the lexer makes of a text with more text behind it.  A step of the first text stays as it is
unless it reads on (`readsOn`): a line comment without its newline, or a constant, an identifier or
a block comment without its end.  Behind such a step nothing of a `Bland` suffix is left.
-/

namespace Vps

open Machinery

/-! ## Texts that end open -/

/-- Whether the step at this byte would read on if the text did not end. -/
def readsOn (mode : LexMode) (byte : UInt8) (rest : List UInt8) : Bool :=
  (byte == 45 && rest.head? == some 45 && rest.all (!isNewline ·)) ||
    (lexStep mode byte rest).tokens.any PgToken.isOpen

/-- Whether some step reads on, after the given number of bytes that were already read. -/
def readsOnFrom : List UInt8 → ℕ → LexMode → Bool
  | [], _, _ => false
  | _ :: rest, skip + 1, mode => readsOnFrom rest skip mode
  | byte :: rest, 0, mode =>
    let step := lexStep mode byte rest
    readsOn mode byte rest || readsOnFrom rest (step.length - 1) step.mode

/-- **The text ends inside a line comment or an unclosed construct.** -/
def endsOpen (text : List UInt8) : Bool := readsOnFrom text 0 .plain

/-- A text that starts with a closing parenthesis and can close nothing else: no newline, no quote,
no dollar sign, no mark of a block comment. -/
structure Bland (text : List UInt8) : Prop where
  head : ∃ rest, text = 41 :: rest
  notMem : ∀ byte ∈ ([10, 13, 34, 36, 39, 42, 47] : List UInt8), byte ∉ text

/-! ## Where tokens end -/

section Suffix

variable {suffix : List UInt8}

/-- A literal that is closed stays closed where it is, unless a quote follows at once. -/
theorem quotedLength_append {escapes : Bool} {quote : UInt8} {text : List UInt8} {n : ℕ}
    (hsuffix : suffix.head? ≠ some quote) (h : quotedLength escapes quote text = some n) :
    quotedLength escapes quote (text ++ suffix) = some n := by
  fun_induction quotedLength escapes quote text generalizing n with
  | case1 => cases h
  | case2 =>
    cases suffix with
    | nil => simpa [quotedLength] using h
    | cons next suffix =>
      have hnext : next ≠ quote := by simpa using hsuffix
      simpa [quotedLength, hnext] using h
  | case3 => cases h
  | case4 rest ih =>
    obtain ⟨m, hm, rfl⟩ := Option.map_eq_some_iff.1 h
    simp [quotedLength, ih hm]
  | case5 next rest hnext => simpa [quotedLength, hnext] using h
  | case6 byte next rest hbyte hescape ih =>
    obtain ⟨m, hm, rfl⟩ := Option.map_eq_some_iff.1 h
    simp only [List.cons_append, quotedLength, if_neg hbyte, if_pos hescape, ih hm]
    rfl
  | case7 byte next rest hbyte hescape ih =>
    obtain ⟨m, hm, rfl⟩ := Option.map_eq_some_iff.1 h
    rw [List.cons_append] at ih
    simp only [List.cons_append, quotedLength, if_neg hbyte, if_neg hescape, ih hm]
    rfl

/-- Without its quote a literal is never closed… -/
theorem quotedLength_of_notMem {escapes : Bool} {quote : UInt8} {text : List UInt8}
    (h : quote ∉ text) : quotedLength escapes quote text = none := by
  fun_induction quotedLength escapes quote text with
  | case1 => rfl
  | case2 => simp at h
  | case3 => rfl
  | case4 => simp at h
  | case5 => simp at h
  | case6 byte next rest _ _ ih =>
    simp only [List.mem_cons, not_or] at h
    rw [ih h.2.2]
    rfl
  | case7 byte next rest _ _ ih =>
    rw [ih (List.not_mem_of_not_mem_cons h)]
    rfl

/-- …and a suffix without one does not close it. -/
theorem quotedLength_append_eq_none {escapes : Bool} {quote : UInt8} {text : List UInt8}
    (hsuffix : quote ∉ suffix) (h : quotedLength escapes quote text = none) :
    quotedLength escapes quote (text ++ suffix) = none := by
  fun_induction quotedLength escapes quote text with
  | case1 => exact quotedLength_of_notMem hsuffix
  | case2 => cases h
  | case3 byte hbyte =>
    cases suffix with
    | nil => simp [quotedLength, hbyte]
    | cons next suffix =>
      have hrest : quotedLength escapes quote suffix = none :=
        quotedLength_of_notMem (List.not_mem_of_not_mem_cons hsuffix)
      simp [quotedLength, hbyte, hrest, quotedLength_of_notMem hsuffix]
  | case4 rest ih =>
    rw [Option.map_eq_none_iff] at h
    simp [quotedLength, ih h]
  | case5 => cases h
  | case6 byte next rest hbyte hescape ih =>
    rw [Option.map_eq_none_iff] at h
    simp only [List.cons_append, quotedLength, if_neg hbyte, if_pos hescape, ih h]
    rfl
  | case7 byte next rest hbyte hescape ih =>
    rw [Option.map_eq_none_iff] at h
    rw [List.cons_append] at ih
    simp only [List.cons_append, quotedLength, if_neg hbyte, if_neg hescape, ih h]
    rfl

/-- A block comment that is closed stays closed where it is. -/
theorem commentLength_append {depth n : ℕ} {text : List UInt8}
    (h : commentLength depth text = some n) : commentLength depth (text ++ suffix) = some n := by
  fun_induction commentLength depth text generalizing n with
  | case1 => simpa [commentLength] using h
  | case2 => cases h
  | case3 => cases h
  | case4 depth byte next rest hopen ih =>
    obtain ⟨m, hm, rfl⟩ := Option.map_eq_some_iff.1 h
    simp only [List.cons_append, commentLength, if_pos hopen, ih hm]
    rfl
  | case5 depth byte next rest hopen hclose ih =>
    obtain ⟨m, hm, rfl⟩ := Option.map_eq_some_iff.1 h
    simp only [List.cons_append, commentLength, if_neg hopen, if_pos hclose, ih hm]
    rfl
  | case6 depth byte next rest hopen hclose ih =>
    obtain ⟨m, hm, rfl⟩ := Option.map_eq_some_iff.1 h
    rw [List.cons_append] at ih
    simp only [List.cons_append, commentLength, if_neg hopen, if_neg hclose, ih hm]
    rfl

theorem commentLength_of_notMem {depth : ℕ} {text : List UInt8} (h : 47 ∉ text) :
    commentLength (depth + 1) text = none := by
  induction text with
  | nil => rfl
  | cons byte text ih =>
    simp only [List.mem_cons, not_or] at h
    cases text with
    | nil => rfl
    | cons next rest =>
      rw [commentLength, if_neg (fun hopen => h.1 hopen.1.symm), if_neg, ih h.2]
      · rfl
      · exact fun hclose => h.2 (List.mem_cons.2 (.inl hclose.2.symm))

/-- One that is open is not closed by a suffix without `*` and `/`. -/
theorem commentLength_append_eq_none {depth : ℕ} {text : List UInt8} (h42 : 42 ∉ suffix)
    (h47 : 47 ∉ suffix) (h : commentLength depth text = none) :
    commentLength depth (text ++ suffix) = none := by
  fun_induction commentLength depth text with
  | case1 => cases h
  | case2 => exact commentLength_of_notMem h47
  | case3 depth byte =>
    cases suffix with
    | nil => rfl
    | cons next suffix =>
      simp only [List.mem_cons, not_or] at h42 h47
      have hrest : commentLength (depth + 1) (next :: suffix) = none :=
        commentLength_of_notMem (by simpa using h47)
      rw [List.singleton_append, commentLength, if_neg (fun hopen => h42.1 hopen.2.symm),
        if_neg (fun hclose => h47.1 hclose.2.symm), hrest]
      rfl
  | case4 depth byte next rest hopen ih =>
    rw [Option.map_eq_none_iff] at h
    simp only [List.cons_append, commentLength, if_pos hopen, ih h]
    rfl
  | case5 depth byte next rest hopen hclose ih =>
    rw [Option.map_eq_none_iff] at h
    simp only [List.cons_append, commentLength, if_neg hopen, if_pos hclose, ih h]
    rfl
  | case6 depth byte next rest hopen hclose ih =>
    rw [Option.map_eq_none_iff] at h
    rw [List.cons_append] at ih
    simp only [List.cons_append, commentLength, if_neg hopen, if_neg hclose, ih h]
    rfl

theorem findDelimiter_fits {delimiter text : List UInt8} {n : ℕ}
    (h : findDelimiter delimiter text = some n) : n + delimiter.length ≤ text.length := by
  induction text generalizing n with
  | nil =>
    obtain ⟨rfl, rfl⟩ : delimiter = [] ∧ 0 = n := by simpa [findDelimiter] using h
    rfl
  | cons byte text ih =>
    rw [findDelimiter] at h
    split at h
    · rename_i hhere
      obtain rfl : 0 = n := by simpa using h
      simpa using (List.isPrefixOf_iff_prefix.1 hhere).length_le
    · obtain ⟨m, hm, rfl⟩ := Option.map_eq_some_iff.1 h
      have := ih hm
      rw [List.length_cons]
      omega

/-- A dollar quote that is closed stays closed where it is. -/
theorem findDelimiter_append {delimiter text : List UInt8} {n : ℕ}
    (h : findDelimiter delimiter text = some n) :
    findDelimiter delimiter (text ++ suffix) = some n := by
  induction text generalizing n with
  | nil =>
    obtain ⟨rfl, rfl⟩ : delimiter = [] ∧ 0 = n := by simpa [findDelimiter] using h
    cases suffix <;> rfl
  | cons byte text ih =>
    have hfits := findDelimiter_fits h
    simp only [List.cons_append, findDelimiter] at h ⊢
    -- the delimiter starts here with the suffix only if it does without it, for it fits
    have hhere : delimiter.isPrefixOf (byte :: (text ++ suffix)) ↔
        delimiter.isPrefixOf (byte :: text) := by
      simp only [List.isPrefixOf_iff_prefix]
      refine ⟨fun hlong => ?_,
        fun hshort => hshort.trans (List.prefix_append (byte :: text) suffix)⟩
      exact List.prefix_of_prefix_length_le hlong (List.prefix_append (byte :: text) suffix)
        (le_trans (Nat.le_add_left _ _) hfits)
    simp only [hhere]
    split at h
    · rename_i hprefix
      rw [if_pos hprefix, h]
    · rename_i hprefix
      obtain ⟨m, hm, rfl⟩ := Option.map_eq_some_iff.1 h
      rw [if_neg hprefix, ih hm]
      rfl

theorem findDelimiter_of_notMem {tag text : List UInt8} (h : 36 ∉ text) :
    findDelimiter (tag ++ [36]) text = none := by
  induction text with
  | nil => simp [findDelimiter]
  | cons byte text ih =>
    have hhere : ¬ (tag ++ [36]).isPrefixOf (byte :: text) := by
      rw [List.isPrefixOf_iff_prefix]
      exact fun hp => h (hp.subset (List.mem_append_right _ (List.mem_singleton_self 36)))
    rw [findDelimiter, if_neg hhere, ih (List.not_mem_of_not_mem_cons h)]
    rfl

/-- One that is open is not closed by a suffix without `$`. -/
theorem findDelimiter_append_eq_none {tag text : List UInt8} (h36 : 36 ∉ suffix)
    (h : findDelimiter (tag ++ [36]) text = none) :
    findDelimiter (tag ++ [36]) (text ++ suffix) = none := by
  induction text with
  | nil => exact findDelimiter_of_notMem h36
  | cons byte text ih =>
    rw [findDelimiter] at h
    split at h
    · cases h
    rename_i hprefix
    rw [Option.map_eq_none_iff] at h
    -- a delimiter that starts in the text ends in it too: the suffix has no dollar sign
    have hhere : ¬ (tag ++ [36]).isPrefixOf (byte :: (text ++ suffix)) := by
      rw [List.isPrefixOf_iff_prefix] at hprefix ⊢
      rintro ⟨after, hafter⟩
      rw [← List.cons_append, List.append_eq_append_iff] at hafter
      obtain ⟨more, hmore, -⟩ | ⟨more, hmore, hsuffix⟩ := hafter
      · exact hprefix ⟨more, hmore.symm⟩
      · obtain rfl | ⟨front, last, rfl⟩ := List.eq_nil_or_concat more
        · exact hprefix ⟨[], by simpa using hmore⟩
        · rw [List.concat_eq_append, ← List.append_assoc] at hmore
          have hlast : [36] = [last] := List.append_inj_right' hmore rfl
          exact h36 (by simp [hsuffix, List.singleton_inj.1 hlast])
    rw [List.cons_append, findDelimiter, if_neg hhere, ih h]
    rfl

theorem head?_append_eq_some_iff {byte : UInt8} (hsuffix : suffix.head? ≠ some byte)
    (text : List UInt8) :
    (text ++ suffix).head? = some byte ↔ text.head? = some byte := by
  cases text with
  | nil => simp [hsuffix]
  | cons => rfl

/-- A run of bytes that ends in the text ends there with more behind it. -/
theorem takeWhile_append_of_exists {p : UInt8 → Bool} {text : List UInt8}
    (h : ∃ byte ∈ text, ¬ p byte) :
    (text ++ suffix).takeWhile p = text.takeWhile p := by
  induction text with
  | nil => simp at h
  | cons byte text ih =>
    cases hb : p byte with
    | false => simp [hb]
    | true =>
      have h : ∃ byte ∈ text, ¬ p byte := by simpa [hb] using h
      simp [hb, ih h]

theorem quotedLength_fits {escapes : Bool} {quote : UInt8} {text : List UInt8} {n : ℕ}
    (h : quotedLength escapes quote text = some n) : n ≤ text.length := by
  fun_induction quotedLength escapes quote text generalizing n with
  | case1 => cases h
  | case2 => simp_all
  | case3 => cases h
  | case5 next rest hnext =>
    obtain rfl : 1 = n := by simpa using h
    simp
  | case4 rest ih | case6 byte next rest _ _ ih | case7 byte next rest _ _ ih =>
    obtain ⟨m, hm, rfl⟩ := Option.map_eq_some_iff.1 h
    have := ih hm
    simp only [List.length_cons] at this ⊢
    omega

theorem commentLength_fits {depth n : ℕ} {text : List UInt8}
    (h : commentLength depth text = some n) :
    n ≤ text.length := by
  fun_induction commentLength depth text generalizing n with
  | case1 =>
    obtain rfl : 0 = n := by simpa using h
    exact Nat.zero_le _
  | case2 => cases h
  | case3 => cases h
  | case4 depth byte next rest _ ih | case5 depth byte next rest _ _ ih
  | case6 depth byte next rest _ _ ih =>
    obtain ⟨m, hm, rfl⟩ := Option.map_eq_some_iff.1 h
    have := ih hm
    simp only [List.length_cons] at this ⊢
    omega

/-! ## One step -/

/-- A bland suffix begins with a bracket, so with no byte that a token could go on with. -/
theorem Bland.head?_ne (h : Bland suffix) {byte : UInt8} (hbyte : byte ≠ 41) :
    suffix.head? ≠ some byte := by
  obtain ⟨rest, rfl⟩ := h.head
  simpa using hbyte.symm

/-- **How a step relates to the same step with a suffix behind the text**: it is the same if it is
closed, and otherwise reads to the end of either. -/
structure LexStep.Extends (step longer : LexStep) (text suffix : List UInt8) : Prop where
  fits : step.length ≤ text.length + 1
  closed : ¬ step.tokens.any PgToken.isOpen → longer = step
  opened : step.tokens.any PgToken.isOpen → step.length = text.length + 1 ∧
    longer.length = (text ++ suffix).length + 1 ∧ longer.tokens.length = step.tokens.length

/-- A closed token that is the same with the suffix extends. -/
theorem LexStep.Extends.of_eq {step longer : LexStep} {text : List UInt8}
    (hfits : step.length ≤ text.length + 1) (hclosed : ¬ step.tokens.any PgToken.isOpen)
    (h : longer = step) : step.Extends longer text suffix :=
  ⟨hfits, fun _ => h, fun hopen => absurd hopen hclosed⟩

/-- **A quoted token extends**: the same one, or one that stays open to the end. -/
theorem stepQuoted_extends (hsuffix : Bland suffix) (mode : LexMode) {quote : UInt8}
    (hquote : quote = 39 ∨ quote = 34) (text : List UInt8) :
    (stepQuoted mode quote text).Extends (stepQuoted mode quote (text ++ suffix)) text suffix := by
  have hmem : quote ∉ suffix := hsuffix.notMem quote (by rcases hquote with rfl | rfl <;> simp)
  have hhead : suffix.head? ≠ some quote := fun h => hmem (List.mem_of_mem_head? h)
  simp only [stepQuoted]
  cases hq : quotedLength (quote == 39 && mode.escapes) quote text with
  | none =>
    rw [quotedLength_append_eq_none hmem hq]
    refine ⟨le_rfl, fun h => absurd ?_ h, fun _ => ⟨rfl, rfl, rfl⟩⟩
    rcases hquote with rfl | rfl <;> rfl
  | some n =>
    have hn := quotedLength_fits hq
    rw [quotedLength_append hhead hq]
    refine .of_eq (Nat.succ_le_succ hn) ?_ (by simp only [List.take_append_of_le_length hn])
    rcases hquote with rfl | rfl <;> simp [PgToken.isOpen]

/-- A dollar-quoted token extends. -/
theorem stepDollar_extends (hsuffix : Bland suffix) (text : List UInt8) :
    (stepDollar text).Extends (stepDollar (text ++ suffix)) text suffix := by
  have h36 : 36 ∉ suffix := hsuffix.notMem 36 (by simp)
  obtain ⟨rest, rfl⟩ := hsuffix.head
  unfold stepDollar
  rw [head?_cut (by decide), takeWhile_cut (by decide), dollarDelimiter_cut (by decide) (by decide)]
  by_cases hdigit : text.head?.any isDigit
  · simp only [if_pos hdigit]
    have := (text.takeWhile_sublist isDigit).length_le
    exact .of_eq (Nat.succ_le_succ this) (by simp [PgToken.isOpen]) rfl
  simp only [if_neg hdigit]
  cases hd : dollarDelimiter isTagByte text with
  | none => exact .of_eq (by simp) (by simp [PgToken.isOpen]) rfl
  | some delimiter =>
    obtain ⟨tag, post, rfl, -, rfl⟩ := (dollarDelimiter_eq_some_iff isTagByte_dollar).1 hd
    have hdrop : (tag ++ 36 :: post ++ 41 :: rest).drop ((36 :: tag ++ [36]).length - 1) =
        (tag ++ 36 :: post).drop ((36 :: tag ++ [36]).length - 1) ++ 41 :: rest :=
      List.drop_append_of_le_length (by simp)
    simp only [hdrop]
    cases hf : findDelimiter (36 :: tag ++ [36])
        ((tag ++ 36 :: post).drop ((36 :: tag ++ [36]).length - 1)) with
    | none =>
      simp only [findDelimiter_append_eq_none h36 hf]
      exact ⟨le_rfl, fun h => absurd rfl h, fun _ => ⟨rfl, rfl, rfl⟩⟩
    | some n =>
      have hfits := findDelimiter_fits hf
      simp only [findDelimiter_append hf]
      refine .of_eq ?_ (by simp [PgToken.isOpen]) rfl
      simp at hfits ⊢
      omega

/-- A word extends. -/
theorem stepWord_extends (hsuffix : Bland suffix) (byte : UInt8) (text : List UInt8) :
    (stepWord byte text).Extends (stepWord byte (text ++ suffix)) text suffix := by
  obtain ⟨rest, rfl⟩ := hsuffix.head
  rw [stepWord_cut (by decide) (by decide) (by decide) (by decide)]
  unfold stepWord
  split
  · exact .of_eq (by simp) (by simp [PgToken.isOpen]) rfl
  · have := (text.takeWhile_sublist isIdentCont).length_le
    exact .of_eq (Nat.succ_le_succ this) (by simp [PgToken.isOpen]) rfl

/-- Every step but a line comment that the text does not end. -/
theorem lexStep_extends (hsuffix : Bland suffix) (mode : LexMode) (byte : UInt8) (text : List UInt8)
    (hline : ¬ (byte = 45 ∧ text.head? = some 45 ∧ ∀ next ∈ text, !isNewline next)) :
    (lexStep mode byte text).Extends (lexStep mode byte (text ++ suffix)) text suffix := by
  have h45 := head?_append_eq_some_iff (hsuffix.head?_ne (show (45 : UInt8) ≠ 41 by decide)) text
  have h42 := head?_append_eq_some_iff (hsuffix.head?_ne (show (42 : UInt8) ≠ 41 by decide)) text
  unfold lexStep
  simp only [h45, h42]
  by_cases hspace : isSpace byte
  · simp only [if_pos hspace]
    exact .of_eq (by simp) (by simp) rfl
  simp only [if_neg hspace]
  by_cases hdash : byte = 45 ∧ text.head? = some 45
  · simp only [if_pos hdash]
    -- the newline stands in the text, so the comment ends there
    have hends : (text ++ suffix).takeWhile (!isNewline ·) = text.takeWhile (!isNewline ·) := by
      refine takeWhile_append_of_exists ?_
      by_contra hall
      exact hline ⟨hdash.1, hdash.2, by simpa using hall⟩
    have := (text.takeWhile_sublist (!isNewline ·)).length_le
    exact .of_eq (Nat.succ_le_succ this) (by simp) (by rw [hends])
  simp only [if_neg hdash]
  by_cases hblock : byte = 47 ∧ text.head? = some 42
  · simp only [if_pos hblock]
    obtain ⟨rest, rfl⟩ : ∃ rest, text = 42 :: rest := by
      cases text with
      | nil => simp at hblock
      | cons next rest => exact ⟨rest, by simpa using hblock.2⟩
    simp only [List.cons_append, List.tail_cons]
    cases hc : commentLength 1 rest with
    | none =>
      have hnone := commentLength_append_eq_none (hsuffix.notMem 42 (by simp))
        (hsuffix.notMem 47 (by simp)) hc
      simp only [hnone]
      exact ⟨le_rfl, fun h => absurd rfl h, fun _ => ⟨rfl, rfl, rfl⟩⟩
    | some n =>
      have hn := commentLength_fits hc
      simp only [commentLength_append hc]
      exact .of_eq (by simpa using hn) (by simp) rfl
  simp only [if_neg hblock]
  by_cases hsemi : byte = 59
  · simp only [if_pos hsemi]
    exact .of_eq (by simp) (by simp [PgToken.isOpen]) rfl
  simp only [if_neg hsemi]
  by_cases hquote : byte = 39 ∨ byte = 34
  · simp only [if_pos hquote]
    exact stepQuoted_extends hsuffix mode hquote text
  simp only [if_neg hquote]
  by_cases hdollar : byte = 36
  · simp only [if_pos hdollar]
    exact stepDollar_extends hsuffix text
  simp only [if_neg hdollar]
  split_ifs
  · exact stepWord_extends hsuffix byte text
  · exact .of_eq (by simp) (by simp) rfl
  · exact .of_eq (by simp) (by simp [PgToken.isOpen]) rfl

/-- A line comment that the text does not end swallows the suffix. -/
theorem lexStep_line (hsuffix : Bland suffix) (mode : LexMode) {text : List UInt8}
    (hhead : text.head? = some 45) (hall : ∀ next ∈ text, !isNewline next) :
    (lexStep mode 45 text).tokens = [] ∧ (lexStep mode 45 text).length = text.length + 1 ∧
      (lexStep mode 45 (text ++ suffix)).tokens = [] ∧
      (lexStep mode 45 (text ++ suffix)).length = (text ++ suffix).length + 1 := by
  have hlong : (text ++ suffix).head? = some 45 :=
    (head?_append_eq_some_iff (hsuffix.head?_ne (by decide)) text).2 hhead
  have hnewline : ∀ next ∈ suffix, !isNewline next := by
    intro next hmem
    have h10 : next ≠ 10 := fun h => hsuffix.notMem 10 (by simp) (h ▸ hmem)
    have h13 : next ≠ 13 := fun h => hsuffix.notMem 13 (by simp) (h ▸ hmem)
    simp [isNewline, h10, h13]
  have hspace : ¬ isSpace 45 := by decide
  have htext : text.takeWhile (!isNewline ·) = text := List.takeWhile_eq_self_iff.2 hall
  have hboth : (text ++ suffix).takeWhile (!isNewline ·) = text ++ suffix :=
    List.takeWhile_eq_self_iff.2 fun next hmem =>
      (List.mem_append.1 hmem).elim (hall next) (hnewline next)
  unfold lexStep
  simp only [if_neg hspace, hhead, hlong, and_self, if_true, htext, hboth]

/-! ## The whole text -/

theorem lexFrom_of_length_le {text : List UInt8} {skip : ℕ} (h : text.length ≤ skip)
    (mode : LexMode) : lexFrom text skip mode = [] := by
  induction text generalizing skip with
  | nil => cases skip <;> rfl
  | cons byte text ih =>
    obtain ⟨skip, rfl⟩ := Nat.exists_eq_succ_of_ne_zero (by simp at h; omega : skip ≠ 0)
    exact ih (Nat.le_of_succ_le_succ h)

theorem head?_of_markerMode_unicode {byte : UInt8} {text : List UInt8}
    (h : markerMode byte text = some .unicode) : text.head? = some 38 := by
  simp only [markerMode] at h
  split at h
  · split_ifs at h <;> simp at h
  · rfl
  · cases h

/-- Only a `&` behind a `U` waits for a Unicode literal, and no quoted token does. -/
theorem stepQuoted_mode_ne (mode : LexMode) (quote : UInt8) (text : List UInt8) :
    (stepQuoted mode quote text).mode ≠ .unicode := by
  simp only [stepQuoted]
  split <;> simp only [ne_eq, reduceCtorEq, not_false_eq_true]
  split_ifs <;> simp

theorem stepDollar_mode (text : List UInt8) : (stepDollar text).mode = .plain := by
  unfold stepDollar
  split_ifs
  · rfl
  · split
    · rfl
    · split <;> rfl

/-- After the letter of `U&` the ampersand follows. -/
theorem head?_of_lexStep_unicode {mode : LexMode} {byte : UInt8} {text : List UInt8}
    (hmode : mode = .unicode → byte = 38) (h : (lexStep mode byte text).mode = .unicode) :
    (text.drop ((lexStep mode byte text).length - 1)).head? = some 38 := by
  unfold lexStep at h ⊢
  by_cases hspace : isSpace byte
  · simp only [if_pos hspace] at h
    have hunicode : mode = .unicode := by cases mode <;> simp_all [LexMode.blank]
    rw [hmode hunicode] at hspace
    exact absurd hspace (by decide)
  simp only [if_neg hspace] at h ⊢
  by_cases hdash : byte = 45 ∧ text.head? = some 45
  · simp only [if_pos hdash] at h
    exact absurd (hdash.1.symm.trans (hmode h)) (by decide)
  simp only [if_neg hdash] at h ⊢
  by_cases hblock : byte = 47 ∧ text.head? = some 42
  · simp only [if_pos hblock] at h
    split at h <;> cases h
  simp only [if_neg hblock] at h ⊢
  by_cases hsemi : byte = 59
  · simp only [if_pos hsemi] at h
    cases h
  simp only [if_neg hsemi] at h ⊢
  by_cases hquote : byte = 39 ∨ byte = 34
  · simp only [if_pos hquote] at h
    exact absurd h (stepQuoted_mode_ne mode byte text)
  simp only [if_neg hquote] at h ⊢
  by_cases hdollar : byte = 36
  · simp only [if_pos hdollar] at h
    rw [stepDollar_mode] at h
    cases h
  simp only [if_neg hdollar] at h ⊢
  by_cases hword : isIdentStart byte
  · simp only [if_pos hword, stepWord] at h ⊢
    cases hmarker : markerMode byte text with
    | none => simp [hmarker] at h
    | some next =>
      obtain rfl : next = .unicode := by simpa [hmarker] using h
      exact head?_of_markerMode_unicode hmarker
  · simp only [if_neg hword] at h
    split_ifs at h

/-- A closing bracket is a token of its own. -/
theorem lexStep_parenthesis {mode : LexMode} (h : mode ≠ .unicode) (rest : List UInt8) :
    lexStep mode 41 rest = ⟨[.other 41], 1, .plain⟩ := by
  have hspace : isSpace 41 = false := by decide
  have hstart : isIdentStart 41 = false := by decide
  simp [lexStep, hspace, hstart, h]

/-- A bland suffix is read as a text of its own, whatever was before. -/
theorem lexFrom_bland (hsuffix : Bland suffix) {mode : LexMode} (hmode : mode ≠ .unicode) :
    lexFrom suffix 0 mode = pgLex suffix := by
  obtain ⟨rest, rfl⟩ := hsuffix.head
  have hplain : LexMode.plain ≠ .unicode := by simp
  simp only [pgLex, lexFrom, lexStep_parenthesis hmode, lexStep_parenthesis hplain]

theorem length_pgLex_bland_pos (hsuffix : Bland suffix) : 0 < (pgLex suffix).length := by
  obtain ⟨rest, rfl⟩ := hsuffix.head
  have hplain : LexMode.plain ≠ .unicode := by simp
  simp [pgLex, lexFrom, lexStep_parenthesis hplain]

/-- **A text that ends closed is lexed as if the suffix were not there.** -/
theorem lexFrom_append (hsuffix : Bland suffix) {text : List UInt8} {skip : ℕ} {mode : LexMode}
    (hskip : skip ≤ text.length) (hmode : mode = .unicode → (text.drop skip).head? = some 38)
    (h : ¬ readsOnFrom text skip mode) :
    lexFrom (text ++ suffix) skip mode = lexFrom text skip mode ++ pgLex suffix := by
  induction text, skip, mode using lexFrom.induct with
  | case1 skip mode =>
    obtain rfl : skip = 0 := by simpa using hskip
    exact lexFrom_bland hsuffix fun hunicode => by simpa using hmode hunicode
  | case2 byte rest skip mode ih => exact ih (Nat.le_of_succ_le_succ hskip) hmode h
  | case3 byte rest mode step ih =>
    simp only [readsOnFrom, Bool.or_eq_true, not_or] at h
    obtain ⟨hstep, hrest⟩ := h
    simp only [readsOn, Bool.or_eq_true, not_or] at hstep
    have hextends := lexStep_extends hsuffix mode byte rest (by simpa using hstep.1)
    have heq := hextends.closed hstep.2
    have hfits : step.length - 1 ≤ rest.length := Nat.sub_le_of_le_add hextends.fits
    have hnext := ih hfits (head?_of_lexStep_unicode (by simpa using hmode)) hrest
    simp only [List.cons_append, lexFrom, heq]
    rw [hnext, List.append_assoc]

/-- **A text that ends open swallows the suffix.** -/
theorem length_lexFrom_append (hsuffix : Bland suffix) {text : List UInt8} {skip : ℕ}
    {mode : LexMode} (h : readsOnFrom text skip mode) :
    (lexFrom (text ++ suffix) skip mode).length = (lexFrom text skip mode).length := by
  induction text, skip, mode using lexFrom.induct with
  | case1 skip mode => cases h
  | case2 byte rest skip mode ih => exact ih h
  | case3 byte rest mode step ih =>
    by_cases hline : byte = 45 ∧ rest.head? = some 45 ∧ ∀ next ∈ rest, !isNewline next
    · obtain ⟨rfl, hhead, hall⟩ := hline
      obtain ⟨hshort, hshortLength, hlong, hlongLength⟩ := lexStep_line hsuffix mode hhead hall
      simp only [List.cons_append, lexFrom, hshort, hlong, hshortLength, hlongLength,
        Nat.add_sub_cancel, lexFrom_of_length_le le_rfl]
    have hextends := lexStep_extends hsuffix mode byte rest hline
    by_cases hopen : step.tokens.any PgToken.isOpen
    · obtain ⟨hshort, hlong, htokens⟩ := hextends.opened hopen
      simp only [List.cons_append, lexFrom, hshort, hlong, Nat.add_sub_cancel,
        lexFrom_of_length_le le_rfl, List.append_nil, htokens]
    · have hrest : readsOnFrom rest (step.length - 1) step.mode := by
        rw [readsOnFrom, Bool.or_eq_true] at h
        refine h.resolve_left fun hreads => ?_
        rw [readsOn, Bool.or_eq_true] at hreads
        exact hreads.elim (fun hdash => hline (by simpa [and_assoc] using hdash)) hopen
      simp only [List.cons_append, lexFrom, hextends.closed hopen, List.length_append,
        ih hrest, step]

/-- **Lexing commutes with a bland suffix exactly behind a text that ends closed.** -/
theorem pgLex_append_iff (hsuffix : Bland suffix) (text : List UInt8) :
    pgLex (text ++ suffix) = pgLex text ++ pgLex suffix ↔ ¬ endsOpen text := by
  constructor
  · intro h hopen
    have hlength := length_lexFrom_append hsuffix hopen
    change (pgLex (text ++ suffix)).length = (pgLex text).length at hlength
    have hpos := length_pgLex_bland_pos hsuffix
    rw [h, List.length_append] at hlength
    omega
  · exact lexFrom_append hsuffix (Nat.zero_le _) (by simp)

end Suffix

end Vps
